import SonicGnmi.Bypass.Model
import SonicGnmi.GnmiServer.Auth
import SonicGnmi.Pathz.Model
import SonicGnmi.Sdc.Interface

/-!
# The Set RPC

`Server.Set` of `server.go` with master arbitration, the path policy, the
bypass fast path and the call of a data client.

A run records, besides its answer, the events that matter to its safety in the
order in which they happen: path policy lookups, accepted Redis commands of the
fast path, authentication and the call of the data client.  The data clients
themselves are parameters: they may change the request contexts and everything
on the device.
-/

namespace SonicGnmi.GnmiServer

open Foundation Gnmi Grpc Sdc

/-! ## Master arbitration -/

/-- The loop over the extensions: the election id of the last master
arbitration extension. -/
def electionId : List Extension → Option Uint128 → Except Status (Option Uint128)
  | [], found => .ok found
  | .masterArbitration ma :: rest, _ =>
    match ma.electionId with
    | none => .error ⟨.invalidArgument, "MA: ElectionId missing"⟩
    | some id =>
      if ma.role.isSome then
        .error ⟨.unimplemented, "MA: Role is not implemented"⟩
      else
        electionId rest (some id)
  | .registered _ _ :: rest, found => electionId rest found

/-- `uint128.Compare`. -/
def compareUint128 (lh rh : Uint128) : Ordering :=
  if lh.high > rh.high then .gt
  else if lh.high < rh.high then .lt
  else if lh.low > rh.low then .gt
  else if lh.low < rh.low then .lt
  else .eq

/-- `%v` of an election id. -/
def sprintUint128 (id : Uint128) : String :=
  "\x7b" ++ toString id.high.toNat ++ " " ++ toString id.low.toNat ++ "\x7d"

/-- `ReqFromMasterEnabledMA`: the new master election id, or the error. -/
def reqFromMasterEnabledMA (req : SetRequest) (masterEID : Uint128) : Except Status Uint128 :=
  match electionId req.extension none with
  | .error e => .error e
  | .ok none => .ok masterEID
  | .ok (some reqEID) =>
    match compareUint128 masterEID reqEID with
    | .gt => .error ⟨.permissionDenied,
        "Election ID is smaller than the current master. Rejected. Master EID: &" ++
          sprintUint128 masterEID ++ ". Current EID: " ++ sprintUint128 reqEID ++ "."⟩
    | .lt => .ok reqEID
    | .eq => .ok masterEID

def reqFromMasterDisabledMA (_req : SetRequest) (masterEID : Uint128) : Except Status Uint128 :=
  .ok masterEID

/-! ## Users and origins -/

/-- `getUsername`: the last part of the path of the SPIFFE id. -/
def getUsername (ctx : Context) : Except Status String :=
  match ctx.peer with
  | none => .error ⟨.unauthenticated, "failed to get peer from ctx"⟩
  | some pr =>
    match pr.tls with
    | none => .error ⟨.unauthenticated, "no tls info was found"⟩
    | some tls =>
      match tls.spiffeId with
      | none => .error ⟨.unauthenticated, "failed to get SPIFFE ID"⟩
      | some spiffe =>
        match GoText.afterLast spiffe.path '/' with
        | none => .error ⟨.unauthenticated, "failed to get username from SPIFFE ID: " ++
            "spiffe://" ++ spiffe.trustDomain ++ spiffe.path⟩
        | some username => .ok username

/-- The loop of `ParseOrigin` after the first path. -/
def sameOrigin (origin : String) : List (Option Path) → Except Fault String
  | [] => .ok origin
  | none :: _ => .error (.panic "nil path")
  | some path :: rest =>
    if origin ≠ path.origin then
      .error (.status ⟨.unimplemented, "Origin conflict in path"⟩)
    else
      sameOrigin origin rest

/-- `ParseOrigin`.  It reads the field of a path directly, which panics when an
update has no path. -/
def parseOrigin : List (Option Path) → Except Fault String
  | [] => .ok ""
  | none :: _ => .error (.panic "nil path")
  | some path :: rest => sameOrigin path.origin rest

def isNativeOrigin (origin : String) : Bool := origin = "sonic-db"

/-! ## The services behind the handler -/

/-- The services the handler calls. -/
structure Backend (Device : Type) where
  auth : AuthBackend
  redis : Bypass.RedisLink
  bypassIteration : Bypass.Iteration
  /-- `NewMixedDbClient`, with the database name it reports. -/
  newMixedDbClient : List (Option Path) → Option Path → String →
    Except String (String × DataClient Device)
  /-- `NewTranslClient`; the paths are nil for a Set. -/
  newTranslClient : Option Path → Option (List Path) → Context → List Extension →
    Except Fault (DataClient Device)
  /-- `SaveStartupConfig`. -/
  saveStartupConfig : World Device → World Device

/-! ## Runs -/

/-- The events of a run. -/
inductive Event where
  | authorized (path : Path) (result : Except String Pathz.Result)
  | redis (command : Bypass.Command)
  | authenticated (target : String) (writeAccess : Bool) (result : Except Status Unit)
  | clientSet (delete : List Path) (replace update : List Update)

/-- The events that write: an accepted command of the fast path, or the call of
the data client. -/
def Event.isWrite : Event → Bool
  | .redis _ => true
  | .clientSet _ _ _ => true
  | _ => false

/-- What a run has done so far. -/
structure SetState (Device : Type) where
  events : List Event := []
  masterEID : Uint128
  store : ContextStore
  world : World Device

/-- A finished run. -/
structure SetRun (Device : Type) extends SetState Device where
  answer : Except Fault SetResponse

/-- End a run with a response. -/
def SetState.respond {Device : Type} (st : SetState Device) (response : SetResponse) :
    SetRun Device :=
  { st with answer := .ok response }

/-- End a run with a status error. -/
def SetState.fail {Device : Type} (st : SetState Device) (code : Code) (message : String) :
    SetRun Device :=
  { st with answer := .error (.status ⟨code, message⟩) }

/-- The server with its configuration, policy and election id. -/
structure Server where
  config : Config
  /-- `ReqFromMaster` points to the enabled version. -/
  masterArbitration : Bool := false
  masterEID : Uint128 := {}
  pathzProcessor : Pathz.GnmiAuthzProcessor := {}

def Server.reqFromMaster (s : Server) (req : SetRequest) : Except Status Uint128 :=
  if s.masterArbitration then
    reqFromMasterEnabledMA req s.masterEID
  else
    reqFromMasterDisabledMA req s.masterEID

/-- The paths of a request in the order of the loops: delete, replace,
update. -/
def requestPaths (req : SetRequest) : List (Option Path) :=
  req.delete.map some ++ req.replace.map (·.path) ++ req.update.map (·.path)

/-- The path policy lookups of a request, each with the iteration order of its
own. -/
def Server.pathzResults (s : Server) (user : String) (req : SetRequest)
    (iteration : Nat → Pathz.Iteration) : List (Path × Except String Pathz.Result) :=
  (requestPaths req).mapIdx fun i path =>
    (path.getD {},
      s.pathzProcessor.authorizeWithPrefix user req.getPrefix (path.getD {}) .write (iteration i))

section Handler

variable {Device : Type} (backend : Backend Device) (s : Server)

/-- The results of a request in the order of the three lists. -/
def updateResults (req : SetRequest) : List UpdateResult :=
  (req.delete.map fun path => { path := some path, op := .delete }) ++
    (req.replace.map fun u => { path := u.path, op := .replace }) ++
    (req.update.map fun u => { path := u.path, op := .update })

variable (ctx : Context)

variable (req : SetRequest)

/-- The end of Set: authentication, the data client and the answer. -/
def setWithClient (authTarget : String)
    (dc : DataClient Device) (st : SetState Device) : SetRun Device :=
  let (result, _, store) := authenticate backend.auth s.config ctx authTarget true st.store
  let st := { st with
    events := st.events ++ [Event.authenticated authTarget true result]
    store := store }
  match result with
  | .error e => st.fail e.code e.message
  | .ok () =>
    let (err, store, world) := dc.set req.delete req.replace req.update st.store st.world
    let st := { st with
      events := st.events ++ [Event.clientSet req.delete req.replace req.update]
      store := store }
    match err with
    | .error e => { st with world := world, answer := .error e }
    | .ok () =>
      { st with world := backend.saveStartupConfig world }.respond
        { pathPrefix := req.pathPrefix, response := updateResults req }

/-- Set for a native origin: the fast path, otherwise the mixed client. -/
def setNative (origin : String) (st : SetState Device) : SetRun Device :=
  if !s.config.enableNativeWrite then
    st.fail .unimplemented "GNMI native write is disabled"
  else
    -- Fast path: bypass validation for allowed tables and SKUs.
    match Bypass.trySet backend.redis backend.bypassIteration st.world.configDb ctx
        req.pathPrefix req.delete (req.replace ++ req.update) with
    | some (progress, result) =>
      let st := { st with
        events := st.events ++ progress.issued.map Event.redis
        world := { st.world with configDb := progress.db } }
      match result with
      | .error e => st.fail .internal e
      | .ok resp => st.respond resp
    | none =>
      match backend.newMixedDbClient (requestPaths req) req.pathPrefix origin with
      | .error e => st.fail .notFound e
      | .ok (targetDbName, dc) =>
        setWithClient backend s ctx req ("gnmi_" ++ targetDbName) dc st

/-- Set for any other origin: the translib client. -/
def setTransl (st : SetState Device) : SetRun Device :=
  if !s.config.enableTranslibWrite then
    st.fail .unimplemented "Translib write is disabled"
  else
    match backend.newTranslClient req.pathPrefix none ctx req.extension with
    | .error e => { st with answer := .error (e.withCode .notFound) }
    | .ok dc => setWithClient backend s ctx req "gnmi" dc st

/-- The origin of a request: that of the prefix, otherwise the common one of
the paths. -/
def requestOrigin : Except Fault String :=
  if req.getPrefix.origin = "" then parseOrigin (requestPaths req) else .ok req.getPrefix.origin

/-- Set after the path policy block. -/
def setByOrigin (st : SetState Device) : SetRun Device :=
  match requestOrigin req with
  | .error e => { st with answer := .error e }
  | .ok origin =>
    if isNativeOrigin origin then
      setNative backend s ctx req origin st
    else
      setTransl backend s ctx req st

/-- The path policy block of Set.  The results of the lookups are not used:
`permitted` stays true. -/
def setWithPolicy (iteration : Nat → Pathz.Iteration) (st : SetState Device) : SetRun Device :=
  if s.config.pathzPolicy then
    match getUsername ctx with
    | .error e => st.fail e.code e.message
    | .ok user =>
      let permitted := true
      let st := { st with
        events := (s.pathzResults user req iteration).map fun r => Event.authorized r.1 r.2 }
      if !permitted then
        st.fail .permissionDenied "Unauthorized request. Rejected by pathz policy."
      else
        setByOrigin backend s ctx req st
  else
    setByOrigin backend s ctx req st

def set (iteration : Nat → Pathz.Iteration)
    (store : ContextStore) (world : World Device) : SetRun Device :=
  let st : SetState Device := { masterEID := s.masterEID, store := store, world := world }
  match s.reqFromMaster req with
  | .error e => st.fail e.code e.message
  | .ok masterEID =>
    let st := { st with masterEID := masterEID }
    if !s.config.enableTranslibWrite && !s.config.enableNativeWrite then
      st.fail .unimplemented "GNMI is in read-only mode"
    else
      setWithPolicy backend s ctx req iteration st

end Handler

end SonicGnmi.GnmiServer
