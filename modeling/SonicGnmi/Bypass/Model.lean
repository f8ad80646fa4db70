import SonicGnmi.Foundation.GoText
import SonicGnmi.Foundation.Redis
import SonicGnmi.Gnmi.Message
import SonicGnmi.Grpc.Context

/-!
# The bypass fast path

This module follows `pkg/bypass/bypass.go`: a Set request with the bypass
header, on a device with an allowed SKU and for allowed tables only, is written
to CONFIG_DB directly.

The commands are sent one by one; `issued` keeps those that Redis accepted.  A
`RedisLink` says which calls Redis refuses, and the order in which a loop over a
decoded JSON object visits its entries is a parameter.
-/

namespace SonicGnmi.Bypass

open Foundation Gnmi Grpc

def metadataKeyBypassValidation : String := "x-sonic-ss-bypass-validation"

def allowedTables : List String :=
  ["VNET", "VNET_ROUTE_TUNNEL", "VLAN_SUB_INTERFACE", "ACL_RULE", "BGP_PEER_RANGE"]

def allowedSKUPrefixes : List String :=
  ["Cisco-8102", "Cisco-8101", "Cisco-8223"]

inductive Command where
  | hset (key : String) (fields : Redis.Hash)
  | del (key : String)
  deriving DecidableEq

def Command.apply (db : Redis.Db) : Command → Redis.Db
  | .hset key fields => db.hset key fields
  | .del key => db.del key

/-- The connection to CONFIG_DB. -/
structure RedisLink where
  /-- `getConfigDbClientFunc`. -/
  connect : Except String Unit := .ok ()
  /-- The error of a read, if reads fail. -/
  readError : Option String := none
  /-- The error of the last of these commands, after the others succeeded. -/
  writeError : List Command → Option String := fun _ => none

def hasBypassHeader (ctx : Context) : Bool :=
  match ctx.metadata with
  | none => false
  | some md => md metadataKeyBypassValidation = some "true"

variable (link : RedisLink)

def checkSKU (db : Redis.Db) : Bool :=
  match link.connect, link.readError with
  | .ok (), none =>
    match (db.hash "DEVICE_METADATA|localhost").lookup "hwsku" with
    | none => false
    | some hwsku => allowedSKUPrefixes.any fun head => GoText.hasPrefix hwsku head
  | _, _ => false

variable (pathPrefix path : Option Path)

/-- The element names of prefix and path without `CONFIG_DB` and
`localhost`. -/
def pathParts : List String :=
  (((pathPrefix.getD {}).elem ++ (path.getD {}).elem).map (·.name)).filter
    fun name => !(name = "CONFIG_DB" || name = "localhost")

def extractTable : String :=
  (pathParts pathPrefix path).headD ""

/-- The check of one path in `checkAllowedTables` and
`checkAllowedDeletePaths`. -/
def isAllowedPath : Bool :=
  let table := extractTable pathPrefix path
  table ≠ "" && allowedTables.contains table

def checkAllowedTables (pathPrefix : Option Path) (updates : List Update) : Bool :=
  updates.all fun u => isAllowedPath pathPrefix u.path

def checkAllowedDeletePaths (pathPrefix : Option Path) (deletes : List Path) : Bool :=
  deletes.all fun path => isAllowedPath pathPrefix (some path)

def shouldBypass (db : Redis.Db) (ctx : Context)
    (pathPrefix : Option Path) (updates : List Update) : Bool :=
  hasBypassHeader ctx && checkSKU link db && checkAllowedTables pathPrefix updates

def shouldBypassDelete (db : Redis.Db) (ctx : Context)
    (pathPrefix : Option Path) (deletes : List Path) : Bool :=
  hasBypassHeader ctx && checkSKU link db && checkAllowedDeletePaths pathPrefix deletes

def decodeJsonPointer (s : String) : String :=
  String.ofList (GoText.replacePair '~' '0' '~' (GoText.replacePair '~' '1' '/' s.toList))

/-- The table, key and field that a path names; a missing part is empty. -/
structure Target where
  table : String
  key : String
  field : String

def parsePath : Target :=
  let parts := pathParts pathPrefix path
  { table := parts.getD 0 ""
    key := decodeJsonPointer (parts.getD 1 "")
    field := parts.getD 2 "" }

/-- One field of `convertToRedisFields`: a list becomes a field with `@` at the
end and comma separated items. -/
def convertField (name : String) (value : Json) : String × String :=
  match value with
  | .array items => (name ++ "@", String.intercalate "," (sprintItems items))
  | other => (name, other.sprint)

/-- `convertToRedisFields`, with the order in which the loop visits the data:
of two fields that get the same name the later one counts. -/
def convertToRedisFields (order : RangeOrder String Json) (data : GoMap String Json) :
    Redis.Hash :=
  (order.visit data).foldl
    (fun fields entry =>
      let converted := convertField entry.1 entry.2
      fields.insert converted.1 converted.2) ∅

/-- The fields of an entry; an empty entry gets the `NULL` placeholder. -/
def entryFields (order : RangeOrder String Json) (data : GoMap String Json) : Redis.Hash :=
  let fields := convertToRedisFields order data
  if fields = ∅ then Finmap.singleton "NULL" "NULL" else fields

/-- The text of a scalar value; the zero value of each kind is passed over. -/
def scalarText : Option TypedValue → String
  | some (.stringVal s) => s
  | some (.intVal n) => if n ≠ 0 then toString n else ""
  | some (.uintVal n) => if n ≠ 0 then toString n else ""
  | _ => ""

/-- The orders of the loops over decoded objects. -/
structure Iteration where
  bulk : RangeOrder String (GoMap String Json)
  entry : RangeOrder String Json

/-- A command and the text that its error starts with. -/
structure Planned where
  command : Command
  onError : String

/-- The commands of one update in `Apply`, or the error that stops the loop. -/
def updateCommands (iteration : Iteration) (pathPrefix : Option Path) (u : Update) :
    Except String (List Planned) :=
  let target := parsePath pathPrefix u.path
  if target.table = "" then
    .error "bypass: invalid path, cannot extract table"
  else
    let jsonVal := TypedValue.getJsonIetfVal u.val
    -- Bulk table update: the object holds one object per entry.
    if target.key = "" then
      match jsonVal with
      | .empty => .error "bypass: bulk update requires JSON value"
      | text =>
        match text.unmarshal Json.toMapOfMaps with
        | .error e => .error ("bypass: failed to unmarshal bulk JSON: " ++ e)
        | .ok bulkData =>
          .ok ((iteration.bulk.visit bulkData).map fun entry =>
            let redisKey := target.table ++ "|" ++ entry.1
            { command := .hset redisKey (entryFields iteration.entry entry.2)
              onError := "bypass: HSet failed for " ++ redisKey ++ ": " })
    else
      let redisKey := target.table ++ "|" ++ target.key
      match jsonVal with
      | .empty =>
        -- A scalar for a single field; without a field nothing is written.
        if target.field ≠ "" then
          .ok [{ command := .hset redisKey (Finmap.singleton target.field (scalarText u.val))
                 onError := "bypass: HSet failed for " ++ redisKey ++ "." ++ target.field ++
                   ": " }]
        else
          .ok []
      | text =>
        match text.unmarshal Json.toMap with
        | .error e => .error ("bypass: failed to unmarshal JSON: " ++ e)
        | .ok data =>
          .ok [{ command := .hset redisKey (entryFields iteration.entry data)
                 onError := "bypass: HSet failed for " ++ redisKey ++ ": " }]

/-- The command of one path in `Delete`, or the error that stops the loop. -/
def deleteCommands (pathPrefix : Option Path) (path : Path) : Except String (List Planned) :=
  let target := parsePath pathPrefix (some path)
  if target.table = "" ∨ target.key = "" then
    .error "bypass: invalid delete path, cannot extract table/key"
  else
    let redisKey := target.table ++ "|" ++ target.key
    .ok [{ command := .del redisKey, onError := "bypass: Del failed for " ++ redisKey ++ ": " }]

/-- What the fast path has done so far. -/
structure Progress where
  issued : List Command := []
  db : Redis.Db

/-- Send commands one after another until Redis refuses one. -/
def send (link : RedisLink) (progress : Progress) : List Planned → Progress × Except String Unit
  | [] => (progress, .ok ())
  | planned :: rest =>
    let issued := progress.issued ++ [planned.command]
    match link.writeError issued with
    | some e => (progress, .error (planned.onError ++ e))
    | none => send link { issued := issued, db := planned.command.apply progress.db } rest

/-- A loop that plans and sends the commands of one item after another. -/
def sendAll (link : RedisLink) (progress : Progress) :
    List (Except String (List Planned)) → Progress × Except String Unit
  | [] => (progress, .ok ())
  | plan :: rest =>
    match plan with
    | .error e => (progress, .error e)
    | .ok commands =>
      match send link progress commands with
      | (progress, .error e) => (progress, .error e)
      | (progress, .ok ()) => sendAll link progress rest

def apply (iteration : Iteration) (pathPrefix : Option Path)
    (updates : List Update) (progress : Progress) : Progress × Except String Unit :=
  match link.connect with
  | .error e => (progress, .error ("bypass: failed to get CONFIG_DB client: " ++ e))
  | .ok () => sendAll link progress (updates.map (updateCommands iteration pathPrefix))

def delete (pathPrefix : Option Path) (deletes : List Path)
    (progress : Progress) : Progress × Except String Unit :=
  match link.connect with
  | .error e => (progress, .error ("bypass: failed to get CONFIG_DB client: " ++ e))
  | .ok () => sendAll link progress (deletes.map (deleteCommands pathPrefix))

/-- The conditions of `TrySet` for using the fast path. -/
def usesBypass (db : Redis.Db) (ctx : Context) (pathPrefix : Option Path)
    (deletes : List Path) (updates : List Update) : Bool :=
  if updates = [] ∧ deletes = [] then
    false
  else
    (updates.isEmpty || shouldBypass link db ctx pathPrefix updates) &&
      (deletes.isEmpty || shouldBypassDelete link db ctx pathPrefix deletes)

/-- `TrySet`: nothing when the fast path is not used, otherwise what it did and
its answer. -/
def trySet (iteration : Iteration) (db : Redis.Db) (ctx : Context)
    (pathPrefix : Option Path) (deletes : List Path) (updates : List Update) :
    Option (Progress × Except String SetResponse) :=
  if usesBypass link db ctx pathPrefix deletes updates then
    -- Deletes come first; an empty list is not even connected for.
    let (progress, deleted) :=
      if deletes.isEmpty then (({ db := db } : Progress), .ok ())
      else delete link pathPrefix deletes { db := db }
    match deleted with
    | .error e => some (progress, .error e)
    | .ok () =>
      let (progress, applied) :=
        if updates.isEmpty then (progress, .ok ())
        else apply link iteration pathPrefix updates progress
      match applied with
      | .error e => some (progress, .error e)
      | .ok () =>
        some (progress, .ok
          { pathPrefix := pathPrefix
            response := (deletes.map fun d => { path := some d, op := .delete }) ++
              updates.map fun u => { path := u.path, op := .update } })
  else
    none

end SonicGnmi.Bypass
