import SonicGnmi.GnmiServer.Set

/-!
# The Get RPC

`Server.Get` of `server.go`.  The data clients, the list of database targets
and the handler of operational data are parameters.
-/

namespace SonicGnmi.GnmiServer

open Foundation Gnmi Grpc Sdc

/-- The services the Get handler calls besides those of Set. -/
structure GetBackend (Device : Type) extends Backend Device where
  newNonDbClient : List Path → Option Path → Except String (DataClient Device)
  newShowClient : List Path → Option Path → Except String (DataClient Device)
  newDbClient : List Path → Option Path → Except String (DataClient Device)
  /-- `IsTargetDb`: the database a target names. -/
  isTargetDb : String → Option String
  /-- `NewOperationalHandler` with the `Get` of the handler. -/
  newOperationalHandler : List Path → Option Path →
    Except String (World Device → Except Fault (List SpbValue) × World Device)

/-- A finished Get. -/
structure GetRun (Device : Type) where
  answer : Except Fault (List Notification)
  store : ContextStore
  world : World Device

/-- The name of a data type, `gnmipb.GetRequest_DataType_name`. -/
def dataTypeName : DataType → String
  | .all => "ALL"
  | .config => "CONFIG"
  | .state => "STATE"
  | .operational => "OPERATIONAL"

/-- The name of an encoding, `gnmipb.Encoding_name`. -/
def encodingName : Encoding → String
  | .json => "JSON"
  | .bytes => "BYTES"
  | .proto => "PROTO"
  | .ascii => "ASCII"
  | .jsonIetf => "JSON_IETF"
  | .other _ => ""

/-- `checkEncodingAndModel`; the models are not looked at. -/
def checkEncodingAndModel (encoding : Encoding) : Except String Unit :=
  if encoding ∈ [Encoding.json, .jsonIetf, .proto] then
    .ok ()
  else
    .error ("unsupported encoding: " ++ encodingName encoding)

section Handler

variable {Device : Type} (backend : GetBackend Device) (s : Server)

/-- The notifications of a response, one for each value. -/
def notifications (pathPrefix : Option Path) (values : List (Option SpbValue)) :
    List Notification :=
  values.filterMap fun value =>
    value.map fun v => { pathPrefix, update := { path := some v.path, val := v.val } }

variable (ctx : Context)

variable (req : GetRequest)

/-- The end of Get: authentication and the data client. -/
def getWithClient (authTarget : String)
    (dc : DataClient Device) (store : ContextStore) (world : World Device) : GetRun Device :=
  match authenticate backend.auth s.config ctx authTarget false store with
  | (.error e, _, store) => { answer := .error (.status e), store, world }
  | (.ok (), _, store) =>
    match dc.get store world with
    | (.ok values, store, world) =>
      { answer := .ok (notifications req.pathPrefix values), store, world }
    | (.error (.plain text), store, world) =>
      { answer := statusError .notFound text, store, world }
    | (.error e, store, world) => { answer := .error e, store, world }

def handleOperationalGet (store : ContextStore) (world : World Device) : GetRun Device :=
  match authenticate backend.auth s.config ctx "gnoi" false store with
  | (.error e, _, store) => { answer := .error (.status e), store, world }
  | (.ok (), _, store) =>
    match backend.newOperationalHandler req.path req.pathPrefix with
    | .error e => { answer := statusError .notFound e, store, world }
    | .ok handler =>
      match handler world with
      | (.error e, world) => { answer := .error e, store, world }
      | (.ok values, world) =>
        { answer := .ok (notifications req.pathPrefix (values.map some)), store, world }

/-- The data client of a target that is not an origin's business. -/
def targetClient (target : String) : Option (Except String (DataClient Device) × String) :=
  if target = "OTHERS" then
    some (backend.newNonDbClient req.path req.pathPrefix, "gnmi_other")
  else if target = "SHOW" then
    some (backend.newShowClient req.path req.pathPrefix, "gnmi_show")
  else
    (backend.isTargetDb target).map fun targetDbName =>
      (backend.newDbClient req.path req.pathPrefix, "gnmi_" ++ targetDbName)

/-- The data client that an origin selects: the mixed client for the native
one, otherwise the translib client. -/
def originClient (origin : String) : Except Fault (DataClient Device × String) :=
  if isNativeOrigin origin then
    match backend.newMixedDbClient (req.path.map some) req.pathPrefix origin with
    | .error e => statusError .notFound e
    | .ok (targetDbName, dc) => .ok (dc, "gnmi_" ++ targetDbName)
  else
    match backend.newTranslClient req.pathPrefix (some req.path) ctx req.extension with
    | .error e => .error (e.withCode .notFound)
    | .ok dc => .ok (dc, "gnmi")

/-- The origin of a Get: that of the prefix, otherwise the common one of the
paths. -/
def getOrigin : Except Fault String :=
  if (req.pathPrefix.getD {}).origin = "" then
    parseOrigin (req.path.map some)
  else
    .ok (req.pathPrefix.getD {}).origin

/-- Get after the path policy block. -/
def getByTarget (store : ContextStore) (world : World Device) : GetRun Device :=
  let target := (req.pathPrefix.getD {}).target
  match checkEncodingAndModel req.encoding with
  | .error e => { answer := statusError .unimplemented e, store, world }
  | .ok () =>
    if target = "OPERATIONAL" then
      handleOperationalGet backend s ctx req store world
    else
      match targetClient backend req target with
      | some (.error e, _) => { answer := statusError .notFound e, store, world }
      | some (.ok dc, authTarget) => getWithClient backend s ctx req authTarget dc store world
      | none =>
        match getOrigin req with
        | .error e => { answer := .error e, store, world }
        | .ok origin =>
          match originClient backend ctx req origin with
          | .error e => { answer := .error e, store, world }
          | .ok (dc, authTarget) => getWithClient backend s ctx req authTarget dc store world

/-- `Server.Get`.  With the path policy on, the paths that the policy permits
are never added to `newPaths`. -/
def get (store : ContextStore) (world : World Device) : GetRun Device :=
  if req.type ≠ .all then
    { answer := statusError .unimplemented
        ("unsupported request type: " ++ dataTypeName req.type), store, world }
  else if s.config.pathzPolicy && decide (req.path ≠ []) then
    match getUsername ctx with
    | .error e => { answer := .error (.status e), store, world }
    | .ok _ =>
      let newPaths : List Path := []
      if newPaths.length = 0 then
        { answer := statusError .permissionDenied
            "Unauthorized request. Rejected by pathz policy.", store, world }
      else
        getByTarget backend s ctx { req with path := newPaths } store world
  else
    getByTarget backend s ctx req store world

end Handler

end SonicGnmi.GnmiServer
