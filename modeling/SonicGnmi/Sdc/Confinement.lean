import SonicGnmi.Sdc.Granularity

/-!
# Requests and the table that they name

A request names a table.  It stays inside of the table if all keys that it reads
or deletes have the name of the table before their first separator.

* `tablePart` — the table that a key belongs to;
* `returnedKeys`, `deletedKeys`, `readKeys` — the keys that a Get of `MixedDbClient`
  returns, that its Set deletes, and that `TableData2Msi` of `DbClient` reads;
* `Confined` — for every database these belong to the table of the path;
* `confined_iff` — which table names are confined;
* `tablePart_of_literal` — names without pattern characters match their own keys.

A name is put into a pattern for `KEYS` as it is, so it may match the keys of other
tables; a name with a separator in it spells keys of another table; and an empty
name is read as the whole database.
-/

namespace SonicGnmi.Sdc

open Foundation Gnmi Grpc Glob GoText List Redis.Db

/-- The text of a key before the first separator. -/
def tablePart (separator key : String) : String := (GoText.splitInTwo key separator).headD ""

section TablePart

variable {separator : String} {sep : Char} (hsep : separator.toList = [sep])
include hsep

theorem tablePart_append {table : String} (htable : sep ∉ table.toList) (key : String) :
    tablePart separator (table ++ separator ++ key) = table := by
  rw [tablePart, splitInTwo_append table key hsep htable]
  rfl

theorem tablePart_of_not_mem {key : String} (hkey : sep ∉ key.toList) :
    tablePart separator key = key := by
  rw [tablePart, splitInTwo, if_neg (ne_empty_of_toList hsep), hsep, cutChars_of_not_mem hkey]
  rfl

theorem not_mem_tablePart (key : String) : sep ∉ (tablePart separator key).toList := by
  rw [tablePart, splitInTwo, if_neg (ne_empty_of_toList hsep), hsep]
  cases hcut : cutChars [sep] key.toList with
  | none => exact not_mem_of_cutChars_none hcut
  | some parts =>
    simp only [headD_cons, String.toList_ofList]
    exact not_mem_of_cutChars hcut

end TablePart

/-! ## The keys of a request -/

namespace MixedClient

/-- The keys of the loop of `tableData2Msi`. -/
def loopKeys (order : Redis.ReplyOrder) (db : Redis.Db) (tblPath : TablePath) : List String :=
  if tblPath.tableName = "" then
    if tblPath.dbName = "COUNTERS_DB" then []
    else (order.keys db).filter (Glob.globMatch ("*" ++ tblPath.delimitor ++ "*"))
  else tblPath.dbKeys order db

theorem tableData2Msi_eq_loop {tblPath : TablePath}
    (hpath : tblPath.tableName = "" → tblPath.dbName ≠ "COUNTERS_DB") (encoding : Encoding)
    (order : Redis.ReplyOrder) (db : Redis.Db) (useKey : Bool) (msi : Msi) :
    MixedDbClient.tableData2Msi encoding order db tblPath useKey msi =
      (loopKeys order db tblPath).foldlM
        (MixedDbClient.addRow encoding order db tblPath useKey) msi := by
  unfold MixedDbClient.tableData2Msi loopKeys
  by_cases hname : tblPath.tableName = ""
  · rw [if_pos hname, if_pos hname, if_neg (hpath hname), if_neg (hpath hname)]
  · rw [if_neg hname, if_neg hname]

/-- The stored keys that a read of a table path goes to. -/
def pathKeys (order : Redis.ReplyOrder) (db : Redis.Db) (tblPath : WritePath) : List String :=
  (if tblPath.jsonField = "" ∧ tblPath.field ≠ "" then [fieldKey tblPath]
    else loopKeys order db tblPath.toTablePath).filter fun key => db.hash key ≠ ∅

/-- The stored keys whose contents a Get of a path returns. -/
def returnedKeys (c : MixedClient) (order : TableSetOrder) (db : Redis.Db) (path : Path) :
    List String :=
  match c.getDbtablePath order db (some path) none with
  | .error _ => []
  | .ok tblPath =>
    match c.tableData2TypedValue order.reply db tblPath with
    | .error _ => []
    | .ok _ => pathKeys order.reply db tblPath

/-- The stored keys that a delete of a path deletes. -/
def deletedKeys (c : MixedClient) (order : TableSetOrder) (db : Redis.Db) (path : Path) :
    List String :=
  match c.getDbtablePath order db (some path) none with
  | .error _ => []
  | .ok tblPath =>
    ((c.tableSteps order db tblPath).filterMap fun step =>
      match step with
      | .ok (.del key) => some key
      | _ => none).filter fun key => db.hash key ≠ ∅

end MixedClient

/-- The stored keys that `TableData2Msi` of `DbClient` reads for a table path. -/
def readKeys (order : Redis.ReplyOrder) (db : Redis.Db) (tblPath : TablePath) : List String :=
  (tblPath.dbKeys order db).filter fun key => db.hash key ≠ ∅

namespace MixedClient

/-- All requests that name a table stay inside of it.  A path has the table and at
most a key; a keyless table has only the path without a key in `DbClient`. -/
structure Confined (c : MixedClient) (inst table : String) : Prop where
  get : ∀ encoding order db rest, rest.length ≤ 1 →
    ∀ key ∈ returnedKeys { c with encoding := encoding } order db (c.pathTo inst (table :: rest)),
      tablePart c.separator key = table
  delete : ∀ order db rest, rest.length ≤ 1 →
    ∀ key ∈ c.deletedKeys order db (c.pathTo inst (table :: rest)),
      tablePart c.separator key = table
  dbClient : ∀ order db tableKey, (c.keyless table = true → tableKey = "") →
    ∀ key ∈ readKeys order db (c.readPath table tableKey "" (-1)).toTablePath,
      tablePart c.separator key = table

section Confined

variable {c : MixedClient} {inst table : String} {sep : Char}

variable {db : Redis.Db} {order : TableSetOrder} {rest : List String} {key : String}

theorem readPath_of_short (hc : c.JsonReader) (hrest : rest.length ≤ 1) {tblPath : WritePath}
    (h : c.getDbtablePath order db (some (c.pathTo inst (table :: rest))) none = .ok tblPath) :
    ∃ key field, tblPath = c.readPath table key field (-1) ∧
      (field ≠ "" → c.keyless table = true) ∧ (c.keyless table = true → key = "") := by
  rw [getDbtablePath_cons hc] at h
  cases hkeyless : c.keyless table with
  | true =>
    rw [hkeyless, if_pos rfl] at h
    rcases rest with _ | ⟨field, _ | ⟨next, rest⟩⟩
    · cases h
      exact ⟨"", "", rfl, fun _ => rfl, fun _ => rfl⟩
    · cases h
      exact ⟨"", field, rfl, fun _ => rfl, fun _ => rfl⟩
    · simp at hrest
  | false =>
    rw [hkeyless] at h
    simp only [Bool.false_eq_true, if_false] at h
    rcases rest with _ | ⟨key, _ | ⟨next, rest⟩⟩
    · simp only at h
      split at h <;> cases h
      exact ⟨"", "", rfl, fun hne => absurd rfl hne, fun hfalse => by cases hfalse⟩
    · cases h
      exact ⟨key, "", rfl, fun hne => absurd rfl hne, fun hfalse => by cases hfalse⟩
    · simp at hrest

section

variable (hc : c.JsonReader) (hsep : c.separator.toList = [sep]) (htable : sep ∉ table.toList)
  (hpattern : ∀ key, globMatch (c.readPath table "" "" (-1)).pattern key = true →
    tablePart c.separator key = table)

include hsep htable hpattern in
theorem tablePart_of_mem_dbKeys {order : Redis.ReplyOrder} {tableKey field : String}
    (hkey : key ∈ TablePath.dbKeys order db (c.readPath table tableKey field (-1)).toTablePath) :
    tablePart c.separator key = table := by
  unfold TablePath.dbKeys at hkey
  split at hkey
  · exact hpattern key (mem_filter.1 hkey).2
  · rw [mem_singleton.1 hkey]
    exact tablePart_append hsep htable tableKey

include hc hsep htable

include hpattern in
theorem tablePart_of_mem_returnedKeys (hname : c.keyless table = true ∨ table ≠ "")
    {encoding : Encoding} (hrest : rest.length ≤ 1)
    (hkey : key ∈ returnedKeys { c with encoding := encoding } order db
      (c.pathTo inst (table :: rest))) : tablePart c.separator key = table := by
  unfold returnedKeys at hkey
  split at hkey
  · cases hkey
  rename_i tblPath hpath
  obtain ⟨tableKey, field, rfl, hfield, hempty⟩ := readPath_of_short hc hrest hpath
  split at hkey
  · cases hkey
  have hmem := (mem_filter.1 hkey).1
  split at hmem
  · -- a field of a keyless table
    rename_i hread
    rw [mem_singleton.1 hmem, fieldKey, if_neg (fun hne => hne (hempty (hfield hread.2)))]
    exact tablePart_of_not_mem hsep htable
  · unfold loopKeys at hmem
    split at hmem
    · rename_i hnone
      have hkeyless := hname.resolve_right fun hne => hne hnone
      rw [keyless, Bool.and_eq_true, decide_eq_true_eq] at hkeyless
      rw [if_pos (show (c.readPath table tableKey field (-1)).dbName = _ from hkeyless.1)]
        at hmem
      cases hmem
    · exact tablePart_of_mem_dbKeys hsep htable hpattern hmem

/-- What a delete deletes is spelled with the name of the table. -/
theorem tablePart_of_mem_deletedKeys (hrest : rest.length ≤ 1)
    (hkey : key ∈ c.deletedKeys order db (c.pathTo inst (table :: rest))) :
    tablePart c.separator key = table := by
  unfold deletedKeys at hkey
  split at hkey
  · cases hkey
  rename_i tblPath hpath
  obtain ⟨tableKey, field, rfl, -, -⟩ := readPath_of_short hc hrest hpath
  obtain ⟨step, hstep, hdel⟩ := mem_filterMap.1 (mem_filter.1 hkey).1
  unfold TableSetClient.tableSteps at hstep
  split at hstep
  · rw [mem_singleton.1 hstep] at hdel
    cases hdel
  split at hstep
  · rw [mem_singleton.1 hstep] at hdel
    cases hdel
  · obtain ⟨dbkey, -, rfl⟩ := mem_map.1 hstep
    cases hdel
    exact tablePart_append hsep htable _

include hpattern in
theorem confined_of_pattern (hname : c.keyless table = true ∨ table ≠ "") :
    c.Confined inst table where
  get := fun _ _ _ _ hrest _ hkey =>
    tablePart_of_mem_returnedKeys hc hsep htable hpattern hname hrest hkey
  delete := fun _ _ _ hrest _ hkey => tablePart_of_mem_deletedKeys hc hsep htable hrest hkey
  dbClient := fun _ _ _ _ _ hkey =>
    tablePart_of_mem_dbKeys hsep htable hpattern (mem_filter.1 hkey).1

end

theorem mem_keys_single (order : Redis.ReplyOrder) (key field value : String) :
    key ∈ order.keys (single key field value) :=
  (order.mem_keys _ _).2 ((hash_single_ne_empty_iff key field value key).2 rfl)

theorem mem_filter_present {keys : List String} {field value : String} (hkey : key ∈ keys) :
    key ∈ keys.filter fun key' => (single key field value).hash key' ≠ ∅ := by
  rw [mem_filter, decide_eq_true_eq, hash_single_ne_empty_iff]
  exact ⟨hkey, rfl⟩

theorem exists_foldlM_ok {Item State Err : Type} {step : State → Item → Except Err State}
    {items : List Item} (h : ∀ item ∈ items, ∀ st, ∃ next, step st item = .ok next) (st : State) :
    ∃ last, items.foldlM step st = .ok last := by
  induction items generalizing st with
  | nil => exact ⟨st, rfl⟩
  | cons item rest ih =>
    obtain ⟨next, hnext⟩ := h item mem_cons_self st
    rw [foldlM_cons, hnext]
    exact ih (fun other hother => h other (mem_cons_of_mem _ hother)) next

theorem loopKeys_whole (hdb : c.target ≠ "COUNTERS_DB") (order : Redis.ReplyOrder) (db : Redis.Db) :
    loopKeys order db (c.readPath "" "" "" (-1)).toTablePath =
      (order.keys db).filter (globMatch ("*" ++ c.separator ++ "*")) :=
  (if_pos rfl).trans (if_neg hdb)

/-- A read of the whole database goes through. -/
theorem msiOf_whole (hsep : c.separator.toList = [sep]) (hdb : c.target ≠ "COUNTERS_DB")
    (order : TableSetOrder) {before : String} (after field value : String)
    (hbefore : sep ∉ before.toList) :
    ∃ msi, c.msiOf order (single (before ++ c.separator ++ after) field value) "" "" =
      .ok msi := by
  rw [msiOf, tableData2Msi_eq_loop fun _ => hdb, loopKeys_whole hdb]
  refine exists_foldlM_ok (fun dbkey hdbkey msi => ?_) _
  have hstored := (order.reply.mem_keys _ _).1 (mem_filter.1 hdbkey).1
  rw [(Redis.Db.hash_single_ne_empty_iff _ _ _ _).1 hstored]
  simp only [MixedDbClient.addRow, readPath, if_true,
    GoText.splitInTwo_append before after hsep hbefore]
  exact ⟨_, rfl⟩

theorem mem_returnedKeys (hc : c.JsonReader) {path : Path} {tblPath : WritePath} {value : ReadValue}
    (hpath : c.getDbtablePath order db (some path) none = .ok tblPath)
    (hvalue : c.tableData2TypedValue order.reply db tblPath = .ok value)
    (hkey : key ∈ pathKeys order.reply db tblPath) :
    key ∈ returnedKeys { c with encoding := .jsonIetf } order db path := by
  have hsame : ({ c with encoding := .jsonIetf } : MixedClient) = c := by
    rw [← hc.encoding]
  rw [hsame, returnedKeys, hpath]
  simp only [hvalue]
  exact hkey

/-- The empty name is read as the whole database. -/
theorem Confined.name (hc : c.JsonReader) (hsep : c.separator.toList = [sep])
    (hliteral : Literal c.separator) (hconfined : c.Confined inst table) :
    c.keyless table = true ∨ table ≠ "" := by
  by_contra hnot
  obtain ⟨hkeyless, htable⟩ := not_or.1 hnot
  have hkeyed := Bool.eq_false_of_not_eq_true hkeyless
  obtain rfl : table = "" := not_not.1 htable
  have hdb : c.target ≠ "COUNTERS_DB" := by
    intro htarget
    rw [keyless, htarget] at hkeyed
    cases hkeyed
  -- some table with another name
  obtain ⟨before, hbefore, hother⟩ : ∃ before : String, sep ∉ before.toList ∧ before ≠ "" := by
    by_cases ha : sep = 'a'
    · exact ⟨"b", by rw [ha]; decide, by decide⟩
    · exact ⟨"a", by simpa using ha, by decide⟩
  obtain ⟨msi, hmsi⟩ := msiOf_whole hsep hdb stateOrder "k" "f" "v" hbefore
  have hkey : before ++ c.separator ++ "k" ≠ "" := by simp
  have hpath : c.getDbtablePath stateOrder
      (single (before ++ c.separator ++ "k") "f" "v") (some (c.pathTo inst [""])) none =
      .ok (c.readPath "" "" "" (-1)) := by
    rw [getDbtablePath_cons hc, hkeyed]
    simp only [Bool.false_eq_true, if_false]
    rw [if_neg]
    intro hall
    have hno := all_eq_true.1 hall _ (mem_keys_single _ _ _ _)
    rw [show "" ++ "*" = "*" from rfl, globMatch_star hkey] at hno
    cases hno
  have hvalue := tableData2TypedValue_msi hc stateOrder
    (single (before ++ c.separator ++ "k") "f" "v") "" "" (-1)
  rw [hmsi] at hvalue
  have hmem : before ++ c.separator ++ "k" ∈ pathKeys stateOrder.reply
      (single (before ++ c.separator ++ "k") "f" "v") (c.readPath "" "" "" (-1)) := by
    refine mem_filter_present ?_
    rw [if_neg (fun h => h.2 rfl), loopKeys_whole hdb, mem_filter]
    exact ⟨mem_keys_single _ _ _ _, globMatch_infix hliteral (ne_empty_of_toList hsep) before "k"⟩
  have hpart := hconfined.get .jsonIetf stateOrder _ [] (by decide) _
    (mem_returnedKeys hc hpath hvalue hmem)
  rw [tablePart_append hsep hbefore] at hpart
  exact hother hpart

/-- A name with a separator spells keys of another table. -/
theorem Confined.not_mem (hc : c.JsonReader) (hsep : c.separator.toList = [sep])
    (hconfined : c.Confined inst table) : sep ∉ table.toList := by
  obtain ⟨key, hkey⟩ : ∃ key, tablePart c.separator key = table := by
    cases hkeyless : c.keyless table with
    | false =>
      refine ⟨table ++ c.separator ++ "k", hconfined.dbClient .sorted
        (single (table ++ c.separator ++ "k") "f" "v") "k" ?_ _
        (mem_filter_present ?_)⟩
      · intro hfalse
        rw [hkeyless] at hfalse
        cases hfalse
      · exact mem_singleton_self _
    | true =>
      have hpath : c.getDbtablePath stateOrder (single table "f" "v")
          (some (c.pathTo inst [table, "f"])) none = .ok (c.readPath table "" "f" (-1)) := by
        rw [getDbtablePath_cons hc, hkeyless]
        rfl
      have hvalue : c.tableData2TypedValue stateOrder.reply (single table "f" "v")
          (c.readPath table "" "f" (-1)) = .ok (.jsonIetf (.quoted "v")) := by
        change (readField ((single table "f" "v").hash table) "f").map _ = _
        rw [hash_single, if_pos rfl]
        rfl
      exact ⟨table, hconfined.get .jsonIetf stateOrder _ ["f"] (by decide) table
        (mem_returnedKeys hc hpath hvalue (mem_filter_present (mem_singleton_self _)))⟩
  rw [← hkey]
  exact not_mem_tablePart hsep key

theorem Confined.pattern (hconfined : c.Confined inst table)
    (hmatch : globMatch (c.readPath table "" "" (-1)).pattern key = true) :
    tablePart c.separator key = table := by
  refine hconfined.dbClient .sorted (single key "f" "v") "" (fun _ => rfl) key
    (mem_filter_present ?_)
  have hkeys : TablePath.dbKeys .sorted (single key "f" "v")
      (c.readPath table "" "" (-1)).toTablePath = (Redis.ReplyOrder.sorted.keys
        (single key "f" "v")).filter
          (globMatch (c.readPath table "" "" (-1)).pattern) := if_pos rfl
  rw [hkeys, mem_filter]
  exact ⟨mem_keys_single _ _ _ _, hmatch⟩

/-- The pattern of a literal name matches the keys of the table only. -/
theorem tablePart_of_literal (hsep : c.separator.toList = [sep]) (hseparator : Literal c.separator)
    (hliteral : Literal table) (hne : table ≠ "") (htable : sep ∉ table.toList)
    (hmatch : globMatch (c.readPath table "" "" (-1)).pattern key = true) :
    tablePart c.separator key = table := by
  unfold TablePath.pattern at hmatch
  split at hmatch
  · rw [(globMatch_literal hliteral key).1 hmatch]
    exact tablePart_of_not_mem hsep htable
  have hhead : table ++ c.separator ≠ "" := by
    intro hempty
    exact hne (String.append_eq_empty_iff.1 hempty).1
  obtain ⟨tail, rfl⟩ :=
    (globMatch_literal_star (literal_append hliteral hseparator) hhead key).1 hmatch
  exact tablePart_append hsep htable tail

end Confined

end MixedClient
end SonicGnmi.Sdc
