import SonicGnmi.Sdc.MixedGet
import SonicGnmi.Sdc.TableSync

/-!
# Reads of tables, entries and fields

What a Get from Redis gives for a path of names below a database and an instance:
the table, the entry of a key, a field, or an item of a list.

* `getDbtablePath_cons` — the table path of some names;
* `member_mapMembers`, `msiJson_makeJSONRedis_none` — marshalled maps, and the entry
  that is marshalled alike alone and inside of its table;
* `getTable_field`, `getTable_entry`, `getTable_table` — the answers.
-/

namespace SonicGnmi.Sdc

open Foundation Gnmi Grpc Option TableSetClient

namespace MixedClient

/-- The path of some names below a database and an instance. -/
def pathTo (c : MixedClient) (inst : String) (names : List String) : Path where
  elem := (c.target :: inst :: names).map fun name => { name := name }

/-- Whether a table of the database is a single hash. -/
def keyless (c : MixedClient) (table : String) : Bool :=
  c.target = "COUNTERS_DB" && !countersDbHasTableKeys table

/-- A client that reads JSON from a database that is there. -/
structure JsonReader (c : MixedClient) : Prop where
  pathPrefix : c.pathPrefix = none
  redisPresent : c.redisPresent = true
  encoding : c.encoding = .jsonIetf

/-- The table path of a read. -/
def readPath (c : MixedClient) (table key field : String) (index : Int) : WritePath where
  dbName := c.target
  tableName := table
  delimitor := c.separator
  tableKey := key
  field := field
  operation := .remove
  jsonValue := .empty
  protoValue := ""
  index := index

section Names

variable {c : MixedClient} (hc : c.JsonReader) (order : TableSetOrder) (db : Redis.Db)
  (inst : String)

variable (names : List String)

theorem flatMap_elemParts :
    (names.map fun name => ({ name := name } : PathElem)).flatMap elemParts =
      names := by
  induction names with
  | nil => rfl
  | cons name rest ih =>
    rw [List.map_cons, List.flatMap_cons, ih]
    rfl

theorem stringSlice_cons (c : MixedClient) (table : String) (rest : List String) :
    c.stringSlice ((table :: rest).map fun name => { name := name }) =
      if c.keyless table then c.target :: table :: "" :: rest
      else c.target :: table :: rest := by
  rw [stringSlice, flatMap_elemParts]
  simp [keyless]

theorem gnmiFullPath_pathTo (c : MixedClient) :
    gnmiFullPath none (c.pathTo inst names) =
      .ok (some (names.map fun name => { name := name })) := by
  simp [gnmiFullPath, pathTo, netPath]

include hc in
theorem getDbtablePath_cons (table : String) (rest : List String) :
    c.getDbtablePath order db (some (c.pathTo inst (table :: rest))) none =
      match if c.keyless table then "" :: rest else rest with
      | [] =>
        if (order.reply.keys db).all (fun key => !Glob.globMatch (table ++ "*") key) then
          .error (.plain ("Failed to find " ++ c.target ++ " " ++
            c.dbPath ((table :: rest).map fun name => { name := name }) ++ " <nil> []"))
        else
          .ok (c.readPath table "" "" (-1))
      | [key] => .ok (c.readPath table key "" (-1))
      | [key, field] => .ok (c.readPath table key field (-1))
      | [key, field, last] =>
        match GoText.atoi last with
        | none => .error (.plain ("Invalid index " ++ last))
        | some index => .ok (c.readPath table key field index)
      | _ => .error (.plain ("Invalid db table Path " ++
          c.dbPath ((table :: rest).map fun name => { name := name }))) := by
  rw [getDbtablePath, hc.pathPrefix, updateFullPath, gnmiFullPath_pathTo]
  simp only [getD_some, operationOf, hc.redisPresent, stringSlice_cons]
  cases c.keyless table with
  | true =>
    rcases rest with _ | ⟨a, _ | ⟨b, _ | ⟨d, rest⟩⟩⟩ <;> rfl
  | false =>
    rcases rest with _ | ⟨a, _ | ⟨b, _ | ⟨d, _ | ⟨e, rest⟩⟩⟩⟩
    · simp [readPath]
    · rfl
    · rfl
    · cases hindex : GoText.atoi d <;> simp [hindex, readPath]
    · rfl

/-! ### What is read -/

theorem member_filterMap_lookup {Value : Type} (toJson : Value → Json)
    (m : Finmap fun _ : String => Value) (name : String) :
    member (names.filterMap fun other => (m.lookup other).map fun value => (other, toJson value))
        name =
      if name ∈ names then (m.lookup name).map toJson else none := by
  induction names with
  | nil => rfl
  | cons first rest ih =>
    rw [List.filterMap_cons]
    by_cases hname : first = name
    · subst hname
      cases hlookup : m.lookup first with
      | none =>
        simp [ih, hlookup]
      | some value =>
        simp only [map_some, member, ih, hlookup, List.mem_cons_self, if_true]
        split <;> rfl
    · have hmem : name ∈ first :: rest ↔ name ∈ rest := by
        simp [Ne.symm hname]
      cases hlookup : m.lookup first with
      | none => simp only [map_none, ih, hmem]
      | some value =>
        simp [member, ih, if_neg hname, or_none, hmem]

theorem member_mapMembers {Value : Type} (toJson : Value → Json)
    (m : Finmap fun _ : String => Value) (name : String) :
    member (mapMembers toJson m) name = (m.lookup name).map toJson := by
  rw [mapMembers, member_filterMap_lookup]
  split
  · rfl
  · rename_i hmem
    rw [Redis.mem_sortedMembers, Finmap.mem_keys] at hmem
    rw [Finmap.lookup_eq_none.2 hmem, map_none]

theorem mapMembers_congr {Value Value' : Type} {toJson : Value → Json} {toJson' : Value' → Json}
    {m : Finmap fun _ : String => Value} {m' : Finmap fun _ : String => Value'}
    (h : ∀ name, (m.lookup name).map toJson = (m'.lookup name).map toJson') :
    mapMembers toJson m = mapMembers toJson' m' := by
  have hkeys : m.keys = m'.keys := by
    ext name
    rw [Finmap.mem_keys, Finmap.mem_keys, ← Finmap.lookup_isSome, ← Finmap.lookup_isSome,
      ← isSome_map (f := toJson), h, isSome_map]
  rw [mapMembers, mapMembers, hkeys]
  congr 1
  funext name
  have hname := congrArg (Option.map (Prod.mk name)) (h name)
  rw [map_map, map_map] at hname
  exact hname

/-- An entry is marshalled alike alone and inside of its table. -/
theorem msiJson_makeJSONRedis_none (mfv : List (String × String)) :
    msiJson (MixedDbClient.makeJSONRedis ∅ none mfv) = objectJson (renderFields mixedLeaf mfv) := by
  rw [msiJson, objectJson]
  congr 1
  refine mapMembers_congr fun name => ?_
  rw [MixedDbClient.makeJSONRedis, lookup_makeJson_none, Option.map_map]
  rfl

/-! ### Answers -/

/-- The map of a table path without a field. -/
def msiOf (c : MixedClient) (order : TableSetOrder) (db : Redis.Db) (table key : String) :
    Except Fault Msi :=
  MixedDbClient.tableData2Msi .jsonIetf order.reply db
    (c.readPath table key "" (-1)).toTablePath false ∅

include hc in
theorem tableData2TypedValue_msi (table key : String) (index : Int) :
    c.tableData2TypedValue order.reply db (c.readPath table key "" index) =
      (c.msiOf order db table key).map fun msi => .jsonIetf (.marshalled (msiJson msi)) := by
  have hread : MixedDbClient.tableData2Msi c.encoding order.reply db
      (c.readPath table key "" index).toTablePath false ∅ = c.msiOf order db table key := by
    rw [hc.encoding]
    rfl
  have hfield : ¬((c.readPath table key "" index).jsonField = "" ∧
      (c.readPath table key "" index).field ≠ "") := fun h => h.2 rfl
  rw [tableData2TypedValue, if_neg hfield, hread]
  cases c.msiOf order db table key with
  | error e => rfl
  | ok msi =>
    simp only [MixedDbClient.msi2TypedValue, hc.encoding]
    rfl

theorem tableData2TypedValue_field (table key : String) {field : String} (hfield : field ≠ "")
    (index : Int) :
    c.tableData2TypedValue order.reply db (c.readPath table key field index) = (if 0 ≤ index then
          readItem (db.hash (fieldKey (c.readPath table key field index))) field index.toNat
        else readField (db.hash (fieldKey (c.readPath table key field index))) field).map
        .jsonIetf := by
  rw [tableData2TypedValue, if_pos ⟨rfl, hfield⟩]
  rfl

/-- Without a table name, or without a key, the key of a path does not count. -/
theorem msiOf_of_empty (c : MixedClient) {table key : String} (h : table = "" ∨ key = "") :
    c.msiOf order db table key = c.msiOf order db table "" := by
  rcases h with rfl | rfl
  · have hrow : MixedDbClient.addRow .jsonIetf order.reply db
        (c.readPath "" key "" (-1)).toTablePath false =
        MixedDbClient.addRow .jsonIetf order.reply db
          (c.readPath "" "" "" (-1)).toTablePath false := by
      funext msi dbkey
      simp [MixedDbClient.addRow, readPath]
    simp only [msiOf, MixedDbClient.tableData2Msi, readPath, if_true] at hrow ⊢
    rw [hrow]
    rfl
  · rfl

theorem msiOf_entry (c : MixedClient) {table key : String} (htable : table ≠ "") (hkey : key ≠ "") :
    c.msiOf order db table key = .ok (MixedDbClient.makeJSONRedis ∅ none
        (order.reply.fields (db.hash (table ++ c.separator ++ key)))) := by
  have hkeys : TablePath.dbKeys order.reply db (c.readPath table key "" (-1)).toTablePath =
      [table ++ c.separator ++ key] := if_neg hkey
  rw [msiOf, MixedDbClient.tableData2Msi, if_neg (show (c.readPath table key "" (-1)).tableName ≠
    "" from htable), hkeys, List.foldlM_cons]
  simp only [MixedDbClient.addRow, readPath, if_neg htable]
  rw [if_pos (Or.inl ⟨hkey, trivial⟩)]
  rfl

include hc in
theorem getTable_entry {table : String} (hkeyed : c.keyless table = false) (key : String) :
    c.getTable order db (c.pathTo inst [table, key]) =
      (c.msiOf order db table key).map fun msi => .jsonIetf (.marshalled (msiJson msi)) := by
  rw [getTable, getDbtablePath_cons hc, hkeyed]
  exact tableData2TypedValue_msi hc order db table key (-1)

include hc in
theorem getTable_table {table : String} (hkeyed : c.keyless table = false) :
    c.getTable order db (c.pathTo inst [table]) =
      if (order.reply.keys db).all (fun key => !Glob.globMatch (table ++ "*") key) then
        .error (.plain ("Failed to find " ++ c.target ++ " " ++
          c.dbPath ([table].map fun name => { name := name }) ++ " <nil> []"))
      else
        (c.msiOf order db table "").map fun msi => .jsonIetf (.marshalled (msiJson msi)) := by
  rw [getTable, getDbtablePath_cons hc, hkeyed]
  simp only [Bool.false_eq_true, if_false]
  split
  · rename_i herror
    split at herror <;> cases herror
    rename_i hnone
    rw [if_pos hnone]
  · rename_i hok
    split at hok <;> cases hok
    rename_i hsome
    rw [if_neg hsome]
    exact tableData2TypedValue_msi hc order db table "" (-1)

include hc in
theorem getTable_field {table : String} (hkeyed : c.keyless table = false) (key : String)
    {field : String} (hfield : field ≠ "") :
    c.getTable order db (c.pathTo inst [table, key, field]) =
      (readField (db.hash (fieldKey (c.readPath table key field (-1)))) field).map .jsonIetf := by
  rw [getTable, getDbtablePath_cons hc, hkeyed]
  exact tableData2TypedValue_field order db table key hfield (-1)

end Names
end MixedClient
end SonicGnmi.Sdc
