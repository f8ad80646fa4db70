import SonicGnmi.Foundation.Glob
import SonicGnmi.Foundation.Redis
import SonicGnmi.Gnmi.Message
import SonicGnmi.Grpc.Status

/-!
# Reading tables of the Redis databases

The table readers of the two database clients: `TableData2Msi` and
`makeJSON_redis` of `db_client.go`, and the methods `tableData2Msi` and
`makeJSON_redis` of `MixedDbClient`.  Both fill a `map[string]interface{}` with
the hashes of a table.

* `DbClient` copies every field of a hash as text;
* `MixedDbClient` leaves out the field `NULL` and turns a field `f@` into a
  list under `f`.

The operation layer of `makeJSON_redis` is left out: every caller passes a nil
`op`.  The maps and encodings that `MixedDbClient` prints at the end of its
errors are left out.
-/

namespace SonicGnmi.Sdc

open Foundation Gnmi Grpc

/-- `tablePath`, the fields that reading a table uses. -/
structure TablePath where
  dbName : String
  tableName : String
  delimitor : String
  tableKey : String := ""
  field : String := ""
  jsonTableKey : String := ""
  jsonField : String := ""
  deriving DecidableEq

/-- A value below the fields of a hash. -/
inductive MsiLeaf where
  | text (value : String)
  | list (items : List String)
  | bytes (value : String)
  deriving DecidableEq

/-- The rendered fields of one hash. -/
abbrev MsiObject := Finmap fun _ : String => MsiLeaf

/-- A value of the `map[string]interface{}`. -/
inductive MsiValue where
  | leaf (value : MsiLeaf)
  | object (fields : MsiObject)
  | table (rows : Finmap fun _ : String => MsiObject)
  deriving DecidableEq

/-- The `map[string]interface{}` of a message. -/
abbrev Msi := Finmap fun _ : String => MsiValue

def countersDbHasTableKeys (tableName : String) : Bool :=
  tableName = "COUNTERS" || tableName = "PORT_PHY_ATTR"

/-- The tables of COUNTERS_DB that are a single hash. -/
def TablePath.keyless (tblPath : TablePath) : Bool :=
  tblPath.dbName = "COUNTERS_DB" && !countersDbHasTableKeys tblPath.tableName

/-- `spb.Target_value`, the numbers of the databases; a name that is missing
counts as zero. -/
def targetValue (dbName : String) : Nat :=
  ([("APPL_DB", 0), ("ASIC_DB", 1), ("COUNTERS_DB", 2), ("CONFIG_DB", 4), ("PFC_WD_DB", 5),
    ("FLEX_COUNTER_DB", 5), ("STATE_DB", 6), ("CHASSIS_STATE_DB", 13),
    ("OTHERS", 100)].lookup dbName).getD 0

/-- The database key of a key of the table. -/
def TablePath.dbKey (tblPath : TablePath) (key : String) : String :=
  tblPath.tableName ++ tblPath.delimitor ++ key

/-! ## One hash -/

/-- How a client renders a field: under which name and as which value, if at
all. -/
abbrev LeafOf := String → String → Option (String × MsiLeaf)

/-- A field of `DbClient`. -/
def dbLeaf : LeafOf := fun field value => some (field, .text value)

/-- A field of `MixedDbClient`. -/
def mixedLeaf : LeafOf := fun field value =>
  if field = "NULL" then
    none
  else if GoText.hasSuffix field "@" then
    some (GoText.trimSuffix field "@", .list (GoText.split value ','))
  else
    some (field, .text value)

/-- The loop that fills the object of one hash. -/
def renderFields (leafOf : LeafOf) (mfv : List (String × String)) : MsiObject :=
  mfv.foldl
    (fun fp entry =>
      match leafOf entry.1 entry.2 with
      | none => fp
      | some (name, leaf) => fp.insert name leaf) ∅

/-- `makeJSON_redis` without the operation layer: with a key the fields form an
object, otherwise they go to the top level. -/
def makeJson (leafOf : LeafOf) (msi : Msi) (key : Option String)
    (mfv : List (String × String)) : Msi :=
  match key with
  | some key => msi.insert key (.object (renderFields leafOf mfv))
  | none =>
    mfv.foldl
      (fun msi entry =>
        match leafOf entry.1 entry.2 with
        | none => msi
        | some (name, leaf) => msi.insert name (.leaf leaf)) msi

theorem lookup_makeJson_none (leafOf : LeafOf) (mfv : List (String × String)) (name : String) :
    (makeJson leafOf ∅ none mfv).lookup name =
      ((renderFields leafOf mfv).lookup name).map .leaf := by
  simp only [makeJson, renderFields]
  induction mfv using List.reverseRecOn generalizing name with
  | nil => simp
  | append_singleton rest entry ih =>
    obtain ⟨field, value⟩ := entry
    rw [List.foldl_append, List.foldl_append, List.foldl_cons, List.foldl_cons, List.foldl_nil,
      List.foldl_nil]
    cases hleaf : leafOf field value with
    | none => exact ih name
    | some leaf =>
      by_cases hname : name = leaf.1
      · rw [hname, Finmap.lookup_insert, Finmap.lookup_insert, Option.map_some]
      · rw [Finmap.lookup_insert_of_ne _ hname, Finmap.lookup_insert_of_ne _ hname]
        exact ih name

/-- `makeJSON_redis`. -/
def makeJSONRedis : Msi → Option String → List (String × String) → Msi :=
  makeJson dbLeaf

/-- `MixedDbClient.makeJSON_redis`. -/
def MixedDbClient.makeJSONRedis : Msi → Option String → List (String × String) → Msi :=
  makeJson mixedLeaf

/-! ## A table -/

/-- The pattern for the keys of a table. -/
def TablePath.pattern (tblPath : TablePath) : String :=
  if tblPath.keyless then tblPath.tableName else tblPath.tableName ++ tblPath.delimitor ++ "*"

variable (order : Redis.ReplyOrder)

/-- The keys that both readers take from a table: those of the pattern, or the
one key that the path names. -/
def TablePath.dbKeys (db : Redis.Db) (tblPath : TablePath) : List String :=
  if tblPath.tableKey = "" then (order.keys db).filter (Glob.globMatch tblPath.pattern)
  else [tblPath.dbKey tblPath.tableKey]

/-- One round of the loop of `TableData2Msi`. -/
def addRow (db : Redis.Db) (tblPath : TablePath) (useKey : Bool)
    (msi : Msi) (dbkey : String) : Except Fault Msi :=
  let fv := order.fields (db.hash dbkey)
  if tblPath.jsonTableKey ≠ "" then
    .ok (makeJSONRedis msi (some tblPath.jsonTableKey) fv)
  else if (tblPath.tableKey ≠ "" ∧ useKey = false) ∨ tblPath.tableName = dbkey then
    .ok (makeJSONRedis msi none fv)
  else
    match GoText.splitInTwo dbkey tblPath.delimitor with
    | _ :: key :: _ => .ok (makeJSONRedis msi (some key) fv)
    | _ => .error (.plain ("dbkey: " ++ dbkey ++ ", failed split from delimitor " ++
        tblPath.delimitor))

def tableData2Msi (db : Redis.Db) (tblPath : TablePath)
    (useKey : Bool) (msi : Msi) : Except Fault Msi :=
  let dbkeys := tblPath.dbKeys order db
  if tblPath.jsonField ≠ "" ∧ tblPath.jsonTableKey ≠ "" then
    match dbkeys with
    | [] => .error (.panic "index out of range [0] with length 0")
    | dbkey :: _ =>
      match (db.hash dbkey).lookup tblPath.field with
      -- a field that a virtual path names need not exist
      | none => .ok msi
      | some val => .ok (makeJSONRedis msi (some tblPath.jsonTableKey) [(tblPath.jsonField, val)])
  else
    dbkeys.foldlM (addRow order db tblPath useKey) msi

/-- The object of one table in a read of the whole database. -/
def MsiValue.rows : Option MsiValue → Finmap fun _ : String => MsiObject
  | some (.table rows) => rows
  | _ => ∅

/-- One round of the loop of `MixedDbClient.tableData2Msi`. -/
def MixedDbClient.addRow (encoding : Encoding) (order : Redis.ReplyOrder) (db : Redis.Db)
    (tblPath : TablePath) (useKey : Bool) (msi : Msi) (dbkey : String) : Except Fault Msi :=
  let fv := order.fields (db.hash dbkey)
  if tblPath.tableName = "" then
    match GoText.splitInTwo dbkey tblPath.delimitor with
    | tableName :: key :: _ =>
      .ok (msi.insert tableName
        (.table ((MsiValue.rows (msi.lookup tableName)).insert key (renderFields mixedLeaf fv))))
    | _ => .error (.panic "index out of range [1] with length 1")
  else if (tblPath.tableKey ≠ "" ∧ useKey = false) ∨ tblPath.tableName = dbkey then
    match encoding with
    | .jsonIetf => .ok (MixedDbClient.makeJSONRedis msi none fv)
    | .proto =>
      match (db.hash dbkey).lookup "pb" with
      | some value => .ok (msi.insert "pb" (.leaf (.bytes value)))
      | none => .error (.plain "No proto bytes found in redis")
    | _ => .ok msi
  else
    match GoText.splitInTwo dbkey tblPath.delimitor with
    | _ :: key :: _ => .ok (MixedDbClient.makeJSONRedis msi (some key) fv)
    | _ => .error (.panic "index out of range [1] with length 1")

def MixedDbClient.tableData2Msi (encoding : Encoding) (order : Redis.ReplyOrder) (db : Redis.Db)
    (tblPath : TablePath) (useKey : Bool) (msi : Msi) : Except Fault Msi :=
  if tblPath.tableName = "" then
    if tblPath.dbName = "COUNTERS_DB" then
      .error (.plain "Can not read all tables in COUNTERS_DB")
    else
      ((order.keys db).filter (Glob.globMatch ("*" ++ tblPath.delimitor ++ "*"))).foldlM
        (MixedDbClient.addRow encoding order db tblPath useKey) msi
  else
    (tblPath.dbKeys order db).foldlM (MixedDbClient.addRow encoding order db tblPath useKey) msi

/-- The value of an update: the marshalled map, or the bytes of a message. -/
inductive TableValue where
  | jsonIetf (contents : Msi)
  | protoBytes (value : String)
  deriving DecidableEq

/-- `Msi2TypedValue`; a map of these values can always be marshalled. -/
def msi2TypedValue (msi : Msi) : Except Fault TableValue := .ok (.jsonIetf msi)

def MixedDbClient.msi2TypedValue (encoding : Encoding) (msi : Msi) : Except Fault TableValue :=
  match encoding with
  | .jsonIetf => .ok (.jsonIetf msi)
  | .proto =>
    match msi.lookup "pb" with
    | some (.leaf (.bytes value)) => .ok (.protoBytes value)
    | some _ => .error (.panic "interface conversion: interface is not []uint8")
    | none => .error (.plain "No proto bytes found in msi")
  | _ => .error (.plain "Unknown encoding")

end SonicGnmi.Sdc
