import SonicGnmi.Sdc.Interface

/-!
# The translib client: Get and Set

`TranslClient` of `transl_data_client.go` with the request builders of
`transl_utils.go`.  The management framework behind it, translib, is a
parameter: each of its functions takes a request and may change the device.
Every request made is kept, in order, next to the device.

The client stores the context it is created with.  `Get` and `Set` ask that
context for its request context, and the builders copy user, roles and the
authentication switch from there into the requests.
-/

namespace SonicGnmi.Sdc

open Foundation Gnmi Grpc

/-! ## translib -/

structure Version where
  major : Nat := 0
  minor : Nat := 0
  patch : Nat := 0
  deriving DecidableEq

structure UserRoles where
  name : String := ""
  roles : List String := []
  deriving DecidableEq

inductive NotificationType where
  | targetDefined
  | sample
  | onChange
  deriving DecidableEq

structure IsSubscribePath where
  id : Nat
  path : String
  mode : NotificationType

structure IsSubscribeResponse where
  id : Nat
  path : String
  isSubPath : Bool := false
  isOnChangeSupported : Bool := false
  minInterval : Int := 0
  preferredType : NotificationType := .sample

structure BulkRequestEntry where
  operation : Operation
  path : String
  payload : JsonText := .empty

/-- The functions of translib, with what a request asks of them. -/
inductive Call where
  | get (path : String)
  | delete (path : String)
  | replace (path : String) (payload : JsonText)
  | update (path : String) (payload : JsonText)
  | bulk (request : List BulkRequestEntry)
  | isSubscribeSupported (paths : List IsSubscribePath)
  | stream (paths : List String)
  | subscribe (paths : List String)

/-- A translib request.  The fields that a builder leaves out have Go's zero
values. -/
structure TranslibRequest where
  call : Call
  user : UserRoles := {}
  authEnabled : Bool := false
  clientVersion : Version := {}

/-- An error of translib; one type of errors is told apart. -/
structure TranslibError where
  notFound : Bool := false
  text : String

/-- `translib.BulkResponse` with the error of the call: one optional error for
each entry. -/
structure BulkOutcome where
  response : List (Option String) := []
  error : Option String := none

/-- The functions of translib and of the path validator. -/
structure Translib (Device : Type) where
  /-- `NewVersion`: the version it returns, and its error. -/
  newVersion : String → Version × Option String
  /-- Validate a path, with or without wildcards for missing keys, and print
  it. -/
  pathToURI : Bool → Option Path → Except Fault String
  get : TranslibRequest → World Device → (JsonText × Option TranslibError) × World Device
  /-- `Delete`, `Replace` and `Update`. -/
  write : TranslibRequest → World Device → Option TranslibError × World Device
  bulk : TranslibRequest → World Device → BulkOutcome × World Device
  isSubscribeSupported : TranslibRequest → World Device →
    Except String (List IsSubscribeResponse) × World Device
  /-- `Stream` and `Subscribe`. -/
  stream : TranslibRequest → World Device → Option String × World Device
  minSubscribeInterval : Int := 20

/-- A device with the translib requests made on it so far. -/
structure Logged (Device : Type) where
  issued : List TranslibRequest := []
  device : Device

section Client

variable {Device : Type}

/-- Call a function of translib. -/
def issue {Answer : Type} (function : TranslibRequest → World Device → Answer × World Device)
    (req : TranslibRequest) (world : World (Logged Device)) : Answer × World (Logged Device) :=
  let (answer, after) := function req
    { configDb := world.configDb, device := world.device.device }
  (answer, { configDb := after.configDb
             device := { issued := world.device.issued ++ [req], device := after.device } })

variable (lib : Translib Device)

/-! ## Paths and versions -/

variable (pathPrefix : Option Path)

/-- `GnmiTranslFullPath`.  Without elements of its own a path gets none from
the prefix either. -/
def gnmiTranslFullPath (path : Path) : Path where
  origin := path.origin
  elem := if path.elem = [] then [] else (pathPrefix.getD {}).elem ++ path.elem

/-- `ConvertToURI`.  With a prefix, a missing path is a nil dereference. -/
def convertToURI (addWildcardKeys : Bool) (pathPrefix path : Option Path) : Except Fault String :=
  match pathPrefix, path with
  | none, path => lib.pathToURI addWildcardKeys path
  | some _, none => .error (.panic "nil path")
  | some _, some path => lib.pathToURI addWildcardKeys (some (gnmiTranslFullPath pathPrefix path))

def populateClientPaths (addWildcardKeys : Bool) (pathPrefix : Option Path) :
    List Path → Except Fault (List (Path × String))
  | [] => .ok []
  | path :: rest =>
    match convertToURI lib addWildcardKeys pathPrefix (some path) with
    | .error e => .error e
    | .ok uri =>
      match populateClientPaths addWildcardKeys pathPrefix rest with
      | .error e => .error e
      | .ok more => .ok ((path, uri) :: more)

/-- The id of the bundle version extension. -/
def bundleVersionExt : Nat := 700

def getBundleVersion : List Extension → Option String
  | [] => none
  | .registered id text :: rest =>
    if id = bundleVersionExt then some text else getBundleVersion rest
  | .masterArbitration _ :: rest => getBundleVersion rest

/-- The client version of a request, from the bundle version of its context. -/
def clientVersion (bundleVersion : Option String) : Except Fault Version :=
  match bundleVersion with
  | none => .ok {}
  | some text =>
    match lib.newVersion text with
    | (_, some e) => .error (.plain e)
    | (version, none) => .ok version

/-! ## Requests -/

/-- A request in the name of a request context. -/
def signed (rc : RequestContext) (version : Version) (call : Call) : TranslibRequest where
  call := call
  user := { name := rc.auth.user, roles := rc.auth.roles }
  authEnabled := rc.auth.authEnabled
  clientVersion := version

def isTranslibSuccess : Option TranslibError → Bool
  | none => true
  | some e => e.text = "Success"

/-- The bytes that `json.Compact` leaves: none for a malformed body. -/
def compact : JsonText → JsonText
  | .malformed _ => .empty
  | text => text

def translProcessGet (uri : String) (ctx : Context) (store : ContextStore)
    (world : World (Logged Device)) :
    Except Fault TypedValue × ContextStore × World (Logged Device) :=
  let (cell, _, store) := getContext ctx store
  let rc := store.cell cell
  match clientVersion lib rc.bundleVersion with
  | .error e => (.error e, store, world)
  | .ok version =>
    let ((payload, err), world) := issue lib.get (signed rc version (.get uri)) world
    match err with
    | none => (.ok (.jsonIetfVal (compact payload)), store, world)
    | some e =>
      if isTranslibSuccess (some e) then
        (.ok (.jsonIetfVal (compact payload)), store, world)
      else
        (.error (.plain e.text), store, world)

/-- The start of the single writes: the request, or why there is none. -/
def writeRequest (pathPrefix path : Option Path) (call : String → Call) (ctx : Context)
    (store : ContextStore) : Except Fault TranslibRequest × ContextStore :=
  match convertToURI lib false pathPrefix path with
  | .error e => (.error e, store)
  | .ok uri =>
    let (cell, _, store) := getContext ctx store
    let rc := store.cell cell
    match clientVersion lib rc.bundleVersion with
    | .error e => (.error e, store)
    | .ok version => (.ok (signed rc version (call uri)), store)

/-- A single write without a second attempt. -/
def translProcessWrite (pathPrefix path : Option Path) (call : String → Call) (ctx : Context)
    (store : ContextStore) (world : World (Logged Device)) :
    Except Fault Unit × ContextStore × World (Logged Device) :=
  match writeRequest lib pathPrefix path call ctx store with
  | (.error e, store) => (.error e, store, world)
  | (.ok req, store) =>
    match issue lib.write req world with
    | (none, world) => (.ok (), store, world)
    | (some e, world) => (.error (.plain e.text), store, world)

def translProcessDelete (delPath : Path) :
    Context → ContextStore → World (Logged Device) →
      Except Fault Unit × ContextStore × World (Logged Device) :=
  translProcessWrite lib pathPrefix (some delPath) fun uri => .delete uri

def translProcessReplace (entry : Update) :
    Context → ContextStore → World (Logged Device) →
      Except Fault Unit × ContextStore × World (Logged Device) :=
  translProcessWrite lib pathPrefix entry.path fun uri =>
    .replace uri (TypedValue.getJsonIetfVal entry.val)

/-- The request of an update, sent again as a replace. -/
def asReplace (req : TranslibRequest) : TranslibRequest :=
  match req.call with
  | .update uri payload => { req with call := .replace uri payload }
  | _ => req

/-- `TranslProcessUpdate`.  An object that does not exist is created by a
replace. -/
def translProcessUpdate (entry : Update) (ctx : Context) (store : ContextStore)
    (world : World (Logged Device)) : Except Fault Unit × ContextStore × World (Logged Device) :=
  match writeRequest lib pathPrefix entry.path
      (fun uri => .update uri (TypedValue.getJsonIetfVal entry.val)) ctx store with
  | (.error e, store) => (.error e, store, world)
  | (.ok req, store) =>
    match issue lib.write req world with
    | (none, world) => (.ok (), store, world)
    | (some e, world) =>
      if e.notFound then
        match issue lib.write (asReplace req) world with
        | (none, world) => (.ok (), store, world)
        | (some e, world) => (.error (.plain e.text), store, world)
      else
        (.error (.plain e.text), store, world)

/-- `%T` of the value of an update. -/
def goType : Option TypedValue → String
  | none => "<nil>"
  | some (.stringVal _) => "*gnmi.TypedValue_StringVal"
  | some (.intVal _) => "*gnmi.TypedValue_IntVal"
  | some (.uintVal _) => "*gnmi.TypedValue_UintVal"
  | some (.boolVal _) => "*gnmi.TypedValue_BoolVal"
  | some (.jsonIetfVal _) => "*gnmi.TypedValue_JsonIetfVal"
  | some (.protoBytes _) => "*gnmi.TypedValue_ProtoBytes"
  | some (.other kind) => "*gnmi.TypedValue_" ++ kind

/-- The entries of a bulk request for deletes. -/
def bulkDeletes (pathPrefix : Option Path) : List Path → Except Fault (List BulkRequestEntry)
  | [] => .ok []
  | d :: rest =>
    match convertToURI lib false none (some (gnmiTranslFullPath pathPrefix d)) with
    | .error e => .error e
    | .ok uri =>
      match bulkDeletes pathPrefix rest with
      | .error e => .error e
      | .ok more => .ok ({ operation := .delete, path := uri } :: more)

/-- The entries of a bulk request for replaces or updates. -/
def bulkWrites (operation : Operation) (pathPrefix : Option Path) :
    List Update → Except Fault (List BulkRequestEntry)
  | [] => .ok []
  | u :: rest =>
    match convertToURI lib false pathPrefix u.path with
    | .error e => .error e
    | .ok uri =>
      match u.val with
      | some (.jsonIetfVal payload) =>
        match bulkWrites operation pathPrefix rest with
        | .error e => .error e
        | .ok more => .ok ({ operation := operation, path := uri, payload := payload } :: more)
      | v => .error (.status ⟨.invalidArgument,
          "unsupported value type " ++ goType v ++ " for path " ++ uri⟩)

/-- All entries of a bulk request, in the order delete, replace, update. -/
def bulkEntries (delete : List Path) (replace update : List Update) :
    Except Fault (List BulkRequestEntry) :=
  match bulkDeletes lib pathPrefix delete with
  | .error e => .error e
  | .ok deletes =>
    match bulkWrites lib .replace pathPrefix replace with
    | .error e => .error e
    | .ok replaces =>
      match bulkWrites lib .update pathPrefix update with
      | .error e => .error e
      | .ok updates => .ok (deletes ++ replaces ++ updates)

/-- The errors of a bulk call: those of its entries, otherwise the global
one. -/
def BulkOutcome.errors (outcome : BulkOutcome) : List String :=
  match outcome.response.filterMap id with
  | [] => outcome.error.toList
  | errors => errors

def translProcessBulk (delete : List Path) (replace update : List Update) (pathPrefix : Option Path)
    (ctx : Context) (store : ContextStore) (world : World (Logged Device)) :
    Except Fault Unit × ContextStore × World (Logged Device) :=
  let (cell, _, store) := getContext ctx store
  let rc := store.cell cell
  match clientVersion lib rc.bundleVersion with
  | .error e => (.error e, store, world)
  | .ok version =>
    match bulkEntries lib pathPrefix delete replace update with
    | .error e => (.error e, store, world)
    | .ok entries =>
      let (outcome, world) := issue lib.bulk (signed rc version (.bulk entries)) world
      match outcome.errors with
      | [] => (.ok (), store, world)
      | errors =>
        (.error (.plain ("SET failed: " ++ String.intercalate "; " errors)), store, world)

/-! ## The client -/

/-- The order in which a loop visits the paths of a client.  Its map is keyed
by pointers, so every requested path has an entry of its own. -/
structure PathOrder where
  visit : List (Path × String) → List (Path × String)
  perm : ∀ paths, (visit paths).Perm paths

/-- The order of the request. -/
def PathOrder.requested : PathOrder where
  visit := id
  perm := List.Perm.refl

structure TranslClient where
  ctx : Context
  pathPrefix : Option Path
  path2URI : List (Path × String) := []
  extensions : List Extension
  version : Option Version := none

def newTranslClient (getpaths : Option (List Path)) (ctx : Context)
    (extensions : List Extension) (addWildcardKeys : Bool) : Except Fault TranslClient :=
  match populateClientPaths lib addWildcardKeys pathPrefix (getpaths.getD []) with
  | .error e => .error e
  | .ok path2URI => .ok { ctx, pathPrefix, path2URI, extensions }

/-- The start of `Get` and `Set`: the request context of the client, with the
bundle version of the request. -/
def TranslClient.requestContext (c : TranslClient) (store : ContextStore) :
    Context × ContextStore :=
  let (cell, ctx, store) := getContext c.ctx store
  match getBundleVersion c.extensions with
  | none => (ctx, store)
  | some version => (ctx, store.setBundleVersion cell version)

/-- The loop of `Get`. -/
def getLoop (pathPrefix : Option Path) (ctx : Context) :
    List (Path × String) → ContextStore → World (Logged Device) →
      Except Fault (List (Option SpbValue)) × ContextStore × World (Logged Device)
  | [], store, world => (.ok [], store, world)
  | (path, uri) :: rest, store, world =>
    match translProcessGet lib uri ctx store world with
    | (.error e, store, world) => (.error e, store, world)
    | (.ok val, store, world) =>
      match getLoop pathPrefix ctx rest store world with
      | (.error e, store, world) => (.error e, store, world)
      | (.ok values, store, world) =>
        (.ok (some { pathPrefix, path, val := some val } :: values), store, world)

def TranslClient.get (order : PathOrder) (c : TranslClient) (store : ContextStore)
    (world : World (Logged Device)) :
    Except Fault (List (Option SpbValue)) × ContextStore × World (Logged Device) :=
  let (ctx, store) := c.requestContext store
  getLoop lib c.pathPrefix ctx (order.visit c.path2URI) store world

def TranslClient.set (c : TranslClient) (delete : List Path) (replace update : List Update)
    (store : ContextStore) (world : World (Logged Device)) :
    Except Fault Unit × ContextStore × World (Logged Device) :=
  let (ctx, store) := c.requestContext store
  if delete.length + replace.length + update.length > 1 then
    translProcessBulk lib delete replace update c.pathPrefix ctx store world
  else
    match delete, replace, update with
    | [d], _, _ => translProcessDelete lib c.pathPrefix d ctx store world
    | _, [r], _ => translProcessReplace lib c.pathPrefix r ctx store world
    | _, _, [u] => translProcessUpdate lib c.pathPrefix u ctx store world
    | _, _, _ => (.ok (), store, world)

/-- The client behind the interface of the handlers. -/
def TranslClient.dataClient (order : PathOrder) (c : TranslClient) :
    DataClient (Logged Device) where
  get := c.get lib order
  set := c.set lib

end Client

end SonicGnmi.Sdc
