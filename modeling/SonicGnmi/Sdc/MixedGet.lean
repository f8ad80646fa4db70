import SonicGnmi.Gnmi.JsonOutput
import SonicGnmi.Sdc.MixedClient

/-!
# Get of the SONiC databases

`Get` of `MixedDbClient`.  A Get of CONFIG_DB is answered from the checkpoint if
it answers all paths; otherwise, and for the other databases, the tables are
read from Redis.

* `JsonClient.get` — a path of the checkpoint;
* `MixedClient.getCheckPoint` — all paths of a request from the checkpoint;
* `MixedClient.tableData2TypedValue` — a table path from Redis;
* `MixedClient.get` — the whole request.
-/

namespace SonicGnmi.Sdc

open Foundation Gnmi Grpc

/-! ## The checkpoint -/

namespace JsonClient

/-- `Get`.  Texts are put between quotation marks as they are. -/
def get (jsonData : Members) (path : List String) : Except String JsonOutput :=
  match fixPath path with
  | [] => .ok (.marshalled (.object jsonData))
  | [table] =>
    match decodeJsonTable jsonData table with
    | .error e => .error e
    | .ok vtable => .ok (.marshalled (.object vtable))
  | [table, key] =>
    match decodeJsonTable jsonData table with
    | .error e => .error e
    | .ok vtable =>
      match decodeJsonEntry vtable key with
      | .error e => .error e
      | .ok ventry => .ok (.marshalled (.object ventry))
  | [table, key, field] =>
    match decodeJsonTable jsonData table with
    | .error e => .error e
    | .ok vtable =>
      match decodeJsonEntry vtable key with
      | .error e => .error e
      | .ok ventry =>
        match decodeJsonField ventry field with
        | .error e => .error e
        | .ok (.text value) => .ok (.quoted value)
        | .ok (.list items) => .ok (.marshalled (.array items))
  | [table, key, field, index] =>
    match decodeJsonTable jsonData table with
    | .error e => .error e
    | .ok vtable =>
      match decodeJsonEntry vtable key with
      | .error e => .error e
      | .ok ventry =>
        match decodeJsonField ventry field with
        | .error e => .error e
        | .ok vfield =>
          match decodeJsonListItem vfield.items index with
          | .error e => .error e
          | .ok item => .ok (.quoted item)
  | path => .error ("Invalid db table Path [" ++ String.intercalate " " path ++ "]")

end JsonClient

namespace MixedClient

/-- The namespace that `GetCheckPoint` opens the checkpoint with.  On a device
with several namespaces the source declares a second variable inside the block
of the `if` and gives the name to that one; the variable that is passed on stays
empty. -/
def checkPointNamespace (_multiNs : Bool) (_netns : String) : String := ""

/-- The document that `GetCheckPoint` reads. -/
def getDocument (multiNs : Bool) (netns : String) (checkPoint : Json) :
    Except String JsonClient.Members :=
  JsonClient.newJsonClient checkPointFile checkPoint (checkPointNamespace multiNs netns)

/-- The answers to some paths; a path without elements has none. -/
def readPaths (pathPrefix : Option Path) (jsonData : JsonClient.Members) :
    List Path → Except String (List (Path × JsonOutput))
  | [] => .ok []
  | path :: rest =>
    match gnmiFullPath pathPrefix path with
    | .error e => .error e
    | .ok none => readPaths pathPrefix jsonData rest
    | .ok (some elems) =>
      match JsonClient.get jsonData (elemNames elems) with
      | .error e => .error e
      | .ok out =>
        match readPaths pathPrefix jsonData rest with
        | .error e => .error e
        | .ok values => .ok ((path, out) :: values)

def getCheckPoint (c : MixedClient) (checkDbMultiNamespace : Except String Bool)
    (checkPoint : Except String Json) : Except String (List (Path × JsonOutput)) :=
  match checkDbMultiNamespace with
  | .error e => .error e
  | .ok multiNs =>
    match checkPoint with
    | .error _ => .error "There's no check point"
    | .ok checkPoint =>
      match getDocument multiNs c.dbkey.netns checkPoint with
      | .error _ => .error "There's no check point"
      | .ok jsonData => readPaths c.pathPrefix jsonData c.paths

/-! ## Redis -/

/-- The value of a path: a JSON text, or the bytes of a message. -/
inductive ReadValue where
  | jsonIetf (output : JsonOutput)
  | protoBytes (value : String)

/-- A marshalled leaf.  Bytes are only in maps that are not marshalled. -/
def leafJson : MsiLeaf → Json
  | .text value => .string value
  | .list items => .array (items.map .string)
  | .bytes value => .string value

/-- The members of a marshalled map, in the order of their names. -/
def mapMembers {Value : Type} (toJson : Value → Json) (m : Finmap fun _ : String => Value) :
    List (String × Json) :=
  (Redis.sortedMembers m.keys).filterMap fun name =>
    (m.lookup name).map fun value => (name, toJson value)

/-- A marshalled object of fields. -/
def objectJson (fields : MsiObject) : Json := .object (mapMembers leafJson fields)

/-- A marshalled value of the map. -/
def valueJson : MsiValue → Json
  | .leaf value => leafJson value
  | .object fields => objectJson fields
  | .table rows => .object (mapMembers objectJson rows)

/-- The JSON value of a map. -/
def msiJson (msi : Msi) : Json := .object (mapMembers valueJson msi)

/-- `redis.Nil`. -/
def redisNil : Fault := .plain "redis: nil"

/-- A read of a field: a text, or the list that is stored under the name with
`@`. -/
def readField (h : Redis.Hash) (field : String) : Except Fault JsonOutput :=
  match h.lookup field with
  | some val => .ok (.quoted val)
  | none =>
    match h.lookup (field ++ "@") with
    | some val => .ok (.marshalled (.array ((GoText.split val ',').map .string)))
    | none => .error redisNil

/-- A read of an item of a list. -/
def readItem (h : Redis.Hash) (field : String) (index : Nat) : Except Fault JsonOutput :=
  match h.lookup (field ++ "@") with
  | none => .error redisNil
  | some val =>
    match (GoText.split val ',')[index]? with
    | none =>
      .error (.plain ("Invalid index " ++ toString index ++ " for [" ++
        String.intercalate " " (GoText.split val ',') ++ "]"))
    | some item => .ok (.quoted item)

/-- The key that a field is read from. -/
def fieldKey (tblPath : WritePath) : String :=
  if tblPath.tableKey ≠ "" then tblPath.dbKey tblPath.tableKey else tblPath.tableName

/-- `tableData2TypedValue` on the one table path that a path is resolved to. -/
def tableData2TypedValue (c : MixedClient) (order : Redis.ReplyOrder) (db : Redis.Db)
    (tblPath : WritePath) : Except Fault ReadValue :=
  if tblPath.jsonField = "" ∧ tblPath.field ≠ "" then
    let h := db.hash (fieldKey tblPath)
    -- an index below zero is not an index
    (if 0 ≤ tblPath.index then readItem h tblPath.field tblPath.index.toNat
      else readField h tblPath.field).map .jsonIetf
  else
    match MixedDbClient.tableData2Msi c.encoding order db tblPath.toTablePath false ∅ with
    | .error e => .error e
    | .ok msi =>
      match MixedDbClient.msi2TypedValue c.encoding msi with
      | .error e => .error e
      | .ok (.jsonIetf msi) => .ok (.jsonIetf (.marshalled (msiJson msi)))
      | .ok (.protoBytes value) => .ok (.protoBytes value)

/-- One path of a Get from Redis. -/
def getTable (c : MixedClient) (order : TableSetOrder) (db : Redis.Db) (path : Path) :
    Except Fault ReadValue :=
  match c.getDbtablePath order db (some path) none with
  | .error e => .error e
  | .ok tblPath => c.tableData2TypedValue order.reply db tblPath

/-- The paths of a Get from Redis. -/
def getTables (c : MixedClient) (order : TableSetOrder) (db : Redis.Db) :
    List Path → Except Fault (List (Path × ReadValue))
  | [] => .ok []
  | path :: rest =>
    match c.getTable order db path with
    | .error e => .error e
    | .ok value =>
      match c.getTables order db rest with
      | .error e => .error e
      | .ok values => .ok ((path, value) :: values)

def get (c : MixedClient) (checkDbMultiNamespace : Except String Bool)
    (checkPoint : Except String Json) (order : TableSetOrder) (db : Redis.Db) :
    Except Fault (List (Path × ReadValue)) :=
  if c.target = "CONFIG_DB" then
    match c.getCheckPoint checkDbMultiNamespace checkPoint with
    | .ok values => .ok (values.map fun value => (value.1, .jsonIetf value.2))
    | .error _ => c.getTables order db c.paths
  else c.getTables order db c.paths

end MixedClient
end SonicGnmi.Sdc
