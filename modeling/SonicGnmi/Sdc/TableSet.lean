import SonicGnmi.Foundation.Loop
import SonicGnmi.Sdc.IncrementalConfig
import SonicGnmi.Sdc.TableData

/-!
# Writing tables

`SetDB` of `mixed_db_client.go`, the Set of the APPL_DB and DPU_APPL_DB targets:
every path is resolved to a table path and the entries of the table are written
or deleted one by one.

An entry is written with `HSET` and deleted with `DEL` on its key, which is what
`Table` does and what the consumer of a `ProducerStateTable` makes of its
messages; these operations and the Redis queries succeed here.  Values and paths
that are printed at the end of an error are left out.

* `getDbtablePath` — the table path of a gNMI path and a value;
* `tableSteps`, `handleTableData` — the writes of a table path;
* `setDB` — the whole request;
* `setDBSteps`, `setDB_eq_runChecked` — all writes of a request in one list.
-/

namespace SonicGnmi.Sdc

open Foundation Gnmi Grpc Loop Redis.Db

/-- `opAdd` and `opRemove`. -/
inductive TableOperation where
  | add
  | remove
  deriving DecidableEq

/-- `tablePath`, with the fields that a Set uses. -/
structure WritePath extends TablePath where
  operation : TableOperation
  jsonValue : JsonText
  protoValue : String
  index : Int := -1

/-- The fields of the client that a Set of tables reads. -/
structure TableSetClient where
  target : String
  pathPrefix : Option Path := none
  separator : String
  /-- `RedisDbMap` has a client for the target. -/
  redisPresent : Bool := true

/-- The orders of the loops: replies of Redis and decoded objects. -/
structure TableSetOrder where
  reply : Redis.ReplyOrder
  entry : RangeOrder String Json

namespace TableSetClient

/-! ## Resolving a path -/

/-- `stringSlice` of some elements: the names, each followed by its key called
`key`. -/
def elemParts (e : PathElem) : List String := e.name :: (e.key.lookup "key").toList

/-- `dbPath`, the text of a path in errors. -/
def dbPath (c : TableSetClient) (elems : List PathElem) : String :=
  String.intercalate c.separator
    (elems.map fun e => e.name ++ (e.key.lookup "key").getD "")

/-- `stringSlice`, with a dummy table key for the tables of COUNTERS_DB that have
none. -/
def stringSlice (c : TableSetClient) (elems : List PathElem) : List String :=
  let slice := c.target :: elems.flatMap elemParts
  match slice with
  | [database] => [database]
  | slice =>
    if c.target = "COUNTERS_DB" ∧ countersDbHasTableKeys (slice.getD 1 "") = false then
      slice.take 2 ++ "" :: slice.drop 2
    else
      slice

/-- The operation and the two values of a request value. -/
def operationOf : Option TypedValue → Except String (TableOperation × JsonText × String)
  | none => .ok (.remove, .empty, "")
  | some (.jsonIetfVal text) => .ok (.add, text, "")
  | some (.protoBytes bytes) => .ok (.add, .empty, bytes)
  | some _ => .error "Unsupported TypedValue: "

variable (c : TableSetClient)

variable (order : TableSetOrder)

variable (db : Redis.Db)

def getDbtablePath (path : Option Path) (value : Option TypedValue) : Except Fault WritePath :=
  match updateFullPath c.pathPrefix path with
  | .error e => .error e
  | .ok elems =>
    let elems := elems.getD []
    match operationOf value with
    | .error e => .error (.plain e)
    | .ok (operation, jsonValue, protoValue) =>
      if c.redisPresent = false then
        .error (.plain ("Redis Client not present for dbName " ++ c.target ++ " mapkey "))
      else
        let tblPath (tableName tableKey field : String) (index : Int) : WritePath :=
          { dbName := c.target, tableName := tableName, delimitor := c.separator,
            tableKey := tableKey, field := field, operation := operation,
            jsonValue := jsonValue, protoValue := protoValue, index := index }
        match c.stringSlice elems with
        | [_] => .ok (tblPath "" "" "" (-1))
        | [_, tableName] =>
          if operation = .remove ∧
              (order.reply.keys db).all (fun key => !Glob.globMatch (tableName ++ "*") key) then
            .error (.plain ("Failed to find " ++ c.target ++ " " ++ c.dbPath elems ++ " <nil> []"))
          else
            .ok (tblPath tableName "" "" (-1))
        | [_, tableName, tableKey] => .ok (tblPath tableName tableKey "" (-1))
        | [_, tableName, tableKey, field] => .ok (tblPath tableName tableKey field (-1))
        | [_, tableName, tableKey, field, last] =>
          match GoText.atoi last with
          | none => .error (.plain ("Invalid index " ++ last))
          | some index => .ok (tblPath tableName tableKey field index)
        | _ => .error (.plain ("Invalid db table Path " ++ c.dbPath elems))

/-! ## Writing a table path -/

/-- One field of `ConvertDbEntry`; values that are neither texts nor lists are
passed over, and so are the items of a list that are not texts. -/
def dbField (name : String) : Json → Option (String × String)
  | .string s => some (name, s)
  | .array items => some (name ++ "@", String.intercalate "," (items.filterMap fun item =>
    match item with
    | .string s => some s
    | _ => none))
  | _ => none

def convertDbEntry (order : RangeOrder String Json) (data : GoMap String Json) : Redis.Hash :=
  (order.visit data).foldl
    (fun fields entry =>
      match dbField entry.1 entry.2 with
      | none => fields
      | some (name, value) => fields.insert name value) ∅

/-- `reflect.TypeOf` of a decoded value. -/
def typeName : Json → String
  | .null => "<nil>"
  | .bool _ => "bool"
  | .number _ => "float64"
  | .string _ => "string"
  | .array _ => "[]interface {}"
  | .object _ => "map[string]interface {}"

/-- The write of one entry. -/
def entryStep (tblPath : WritePath) (tableKey : String) (value : Json) :
    Except Fault Redis.Command :=
  match value with
  | .object members =>
    .ok (.hset (tblPath.dbKey tableKey) (convertDbEntry order.entry (decodeMembers members)))
  | other =>
    .error (.plain ("Key " ++ tableKey ++ ": Unsupported value " ++ other.sprint ++ " type " ++
      typeName other))

/-- The body of `handleTableData`: the writes of one table path, up to an error. -/
def tableSteps (tblPath : WritePath) : List (Except Fault Redis.Command) :=
  if c.redisPresent = false then
    [.error (.plain ("Redis Client not present for dbName " ++ c.target ++ " mapkey "))]
  else if tblPath.jsonField = "" ∧ tblPath.field ≠ "" then
    [.error (.plain "Unsupported path , can't update field")]
  else
    match tblPath.operation with
    | .remove =>
      (tblPath.dbKeys order.reply db).map fun dbkey =>
        .ok (.del (tblPath.dbKey
          (GoText.trimPrefix dbkey (tblPath.tableName ++ tblPath.delimitor))))
    | .add =>
      if tblPath.tableKey ≠ "" then
        match tblPath.jsonValue with
        | .empty =>
          -- If there is no JSON, the bytes of the message are the value.
          [.ok (.hset (tblPath.dbKey tblPath.tableKey)
            (convertDbEntry order.entry (AList.singleton "pb" (.string tblPath.protoValue))))]
        | .malformed e => [.error (.plain ("JSON unmarshalling error: " ++ e))]
        | .value json => [entryStep order tblPath tblPath.tableKey json]
      else
        match tblPath.jsonValue with
        | .empty => [.error (.plain "No valid value: ")]
        | .malformed e => [.error (.plain ("JSON unmarshalling error: " ++ e))]
        | .value (.object members) =>
          (order.entry.visit (decodeMembers members)).map fun entry =>
            entryStep order tblPath entry.1 entry.2
        | .value other =>
          [.error (.plain ("Unsupported value " ++ other.sprint ++ " type " ++ typeName other))]

/-- `handleTableData` on the one table path that a path is resolved to. -/
def handleTableData (c : TableSetClient) (order : TableSetOrder) (db : Redis.Db)
    (tblPath : WritePath) : Redis.Db × Except Fault Unit :=
  Loop.runChecked Redis.Db.exec db (c.tableSteps order db tblPath)

/-! ## A request -/

/-- One turn of the REPLACE and UPDATE loops. -/
def setItem (item : Update) : Redis.Db × Except Fault Unit :=
  match c.getDbtablePath order db item.path item.val with
  | .error e => (db, .error e)
  | .ok tblPath => c.handleTableData order db tblPath

variable (delete : List Path)

variable (replace update : List Update)

/-- `SetDB`.  The paths of all deletes are resolved first; a replace or update is
resolved when its turn comes. -/
def setDB : Redis.Db × Except Fault Unit :=
  match delete.mapM fun path => c.getDbtablePath order db (some path) none with
  | .error e => (db, .error e)
  | .ok deletePathList =>
    match Loop.inTurn (c.handleTableData order) db deletePathList with
    | (db, .error e) => (db, .error e)
    | (db, .ok ()) =>
      match Loop.inTurn (c.setItem order) db replace with
      | (db, .error e) => (db, .error e)
      | (db, .ok ()) => Loop.inTurn (c.setItem order) db update

/-! ## All writes of a request -/

/-- The writes of one replace or update. -/
def itemSteps (item : Update) : List (Except Fault Redis.Command) :=
  match c.getDbtablePath order db item.path item.val with
  | .error e => [.error e]
  | .ok tblPath => c.tableSteps order db tblPath

/-- The writes of the deletes. -/
def deleteSteps : List (Except Fault Redis.Command) :=
  match delete.mapM fun path => c.getDbtablePath order db (some path) none with
  | .error e => [.error e]
  | .ok deletePathList => Loop.trace Redis.Db.exec (c.tableSteps order) db deletePathList

/-- The writes of a request, in their order and with its rejections. -/
def setDBSteps : List (Except Fault Redis.Command) :=
  let deletes := c.deleteSteps order db delete
  deletes ++ Loop.trace Redis.Db.exec (c.itemSteps order)
    (Loop.runChecked Redis.Db.exec db deletes).1 (replace ++ update)

theorem setItem_eq (item : Update) :
    c.setItem order db item = runChecked exec db (c.itemSteps order db item) := by
  unfold setItem itemSteps
  split <;> rfl

/-- A request carries out its writes up to the first rejection. -/
theorem setDB_eq_runChecked :
    c.setDB order db delete replace update =
      runChecked exec db (c.setDBSteps order db delete replace update) := by
  have hitems : ∀ db, runChecked exec db
      (trace exec (c.itemSteps order) db (replace ++ update)) =
        match inTurn (c.setItem order) db replace with
        | (db, .error e) => (db, .error e)
        | (db, .ok ()) => inTurn (c.setItem order) db update := by
    intro db
    rw [← inTurn_eq_runChecked (c.setItem_eq order), inTurn_append]
    rcases inTurn (c.setItem order) db replace with ⟨db₁, e | ⟨⟩⟩ <;> rfl
  rw [setDBSteps, runChecked_append, deleteSteps, setDB]
  cases delete.mapM fun path => c.getDbtablePath order db (some path) none with
  | error e => rfl
  | ok deletePathList =>
    have hdeletes : inTurn (c.handleTableData order) db deletePathList =
        runChecked exec db
          (trace exec (c.tableSteps order) db deletePathList) :=
      inTurn_eq_runChecked (fun _ _ => rfl) db deletePathList
    simp only
    rw [hdeletes]
    rcases runChecked exec db
      (trace exec (c.tableSteps order) db deletePathList) with ⟨db₁, e | ⟨⟩⟩
    · rfl
    · exact (hitems db₁).symm

end TableSetClient
end SonicGnmi.Sdc
