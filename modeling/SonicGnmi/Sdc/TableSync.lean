import SonicGnmi.Sdc.TableStream

/-!
# When a change stream keeps its collector in sync

A subscription to a whole table, for both database clients.

* `lookup_render_iff` — what is rendered, where no two fields get one name;
* `renderFields_shows_iff` — which hashes a client renders without loss;
* `read_key`, `read_table` — the message for one key, and the snapshot;
* `step_inSync_iff` — from a state in sync, one command keeps it exactly when
  the command is `Fine`;
* `stream_inSync_iff` — a run is in sync after the snapshot and after every
  command exactly when the stored hashes are rendered without loss and every
  command is `Fine`.

A command is not fine when it removes some fields of a hash and leaves others,
and when it gives a key again the contents of the remembered message after the
key had other contents or none.
-/

namespace SonicGnmi.Sdc

open Foundation Gnmi Grpc
open Finmap Glob GoText List MsiObject Option Redis TableClient TablePath TableStream

/-! ## Rendering without loss -/

/-- How a client renders a field. -/
def TableClient.leafOf : TableClient → LeafOf
  | .db => dbLeaf
  | .mixed _ => mixedLeaf

/-- The object that a client sends for a hash. -/
def TableClient.render (client : TableClient) (order : Redis.ReplyOrder) (h : Redis.Hash) :
    MsiObject :=
  renderFields client.leafOf (order.fields h)

/-- The message that a client makes for an `HSET`. -/
def TableClient.setMessage (client : TableClient) (order : Redis.ReplyOrder) (key : String)
    (h : Redis.Hash) : Msi :=
  Finmap.insert key (.object (client.render order h)) ∅

/-- The hashes that a client renders without loss: `MixedDbClient` drops the
field `NULL` and gives `f` and `f@` the same name. -/
def TableClient.Faithful (client : TableClient) (h : Redis.Hash) : Prop :=
  match client with
  | .db => True
  | .mixed _ => "NULL" ∉ h ∧ ∀ field ∈ h.keys, GoText.hasSuffix field "@" = false →
      field ++ "@" ∉ h

instance (client : TableClient) (h : Redis.Hash) : Decidable (client.Faithful h) :=
  match client with
  | .db => inferInstanceAs (Decidable True)
  | .mixed _ => inferInstanceAs (Decidable (_ ∧ _))

variable {name field value : String} {h : Redis.Hash}

theorem renderFields_eq_fill (leafOf : LeafOf) (mfv : List (String × String)) :
    renderFields leafOf mfv = fill (fun entry => leafOf entry.1 entry.2) mfv := by
  unfold renderFields fill
  congr 1
  funext fp entry
  dsimp only
  cases leafOf entry.1 entry.2 <;> rfl

theorem lookup_renderFields {leafOf : LeafOf} {mfv : List (String × String)}
    {leaf : MsiLeaf} (hlookup : (renderFields leafOf mfv).lookup name = some leaf) :
    ∃ field value, (field, value) ∈ mfv ∧ leafOf field value = some (name, leaf) := by
  rw [renderFields_eq_fill] at hlookup
  obtain ⟨⟨field, value⟩, hmem, hleaf⟩ := exists_of_lookup_fill _ hlookup
  exact ⟨field, value, hmem, hleaf⟩

theorem mixedLeaf_text {text : String} (h : mixedLeaf field value = some (name, .text text)) :
    field = name ∧ value = text ∧ field ≠ "NULL" ∧ hasSuffix field "@" = false := by
  simp only [mixedLeaf] at h
  split_ifs at h with hnull hsuffix
  · simp at h
  · simp only [some.injEq, Prod.mk.injEq, MsiLeaf.text.injEq] at h
    exact ⟨h.1, h.2, hnull, Bool.eq_false_of_not_eq_true hsuffix⟩

theorem mixedLeaf_list {items : List String}
    (h : mixedLeaf field value = some (name, .list items)) :
    field = name ++ "@" ∧ value = String.intercalate "," items := by
  simp only [mixedLeaf] at h
  split_ifs at h with hnull hsuffix
  · simp only [some.injEq, Prod.mk.injEq, MsiLeaf.list.injEq] at h
    obtain ⟨start, rfl⟩ := hasSuffix_iff.1 hsuffix
    rw [trimSuffix_append] at h
    rw [h.1, ← h.2]
    exact ⟨rfl, (intercalate_split value ',').symm⟩
  · simp at h

theorem mixedLeaf_plain (value : String) (hnull : field ≠ "NULL")
    (hsuffix : hasSuffix field "@" = false) :
    mixedLeaf field value = some (field, .text value) := by
  rw [mixedLeaf, if_neg hnull, hsuffix]
  rfl

theorem mixedLeaf_at (name value : String) :
    mixedLeaf (name ++ "@") value = some (name, .list (split value ',')) := by
  have hnull : name ++ "@" ≠ "NULL" := by
    intro h
    have hsuffix : hasSuffix "NULL" "@" = true := hasSuffix_iff.2 ⟨name, h.symm⟩
    exact absurd hsuffix (by decide)
  rw [mixedLeaf, if_neg hnull, if_pos (hasSuffix_append _ _), trimSuffix_append]

theorem mixedLeaf_bytes {text : String}
    (h : mixedLeaf field value = some (name, .bytes text)) : False := by
  simp only [mixedLeaf] at h
  split_ifs at h <;> simp at h

/-- The hashes in which no two fields get one name.  `MixedDbClient` gives `f` and
`f@` the same name, and the field that the reply has last wins. -/
def TableClient.Unclashing (client : TableClient) (h : Redis.Hash) : Prop :=
  match client with
  | .db => True
  | .mixed _ => ∀ field ∈ h.keys, field ≠ "NULL" → GoText.hasSuffix field "@" = false →
      field ++ "@" ∉ h

instance decidableUnclashing (client : TableClient) (h : Redis.Hash) :
    Decidable (client.Unclashing h) :=
  match client with
  | .db => inferInstanceAs (Decidable True)
  | .mixed _ => inferInstanceAs (Decidable (∀ field ∈ h.keys, _))

/-- In such a hash each name has one value. -/
theorem TableClient.Unclashing.leaf_unique {client : TableClient} (hclash : client.Unclashing h)
    {other text : String} {leaf found : MsiLeaf} (hfield : h.lookup field = some value)
    (hother : h.lookup other = some text) (hleaf : client.leafOf field value = some (name, leaf))
    (hfound : client.leafOf other text = some (name, found)) : found = leaf := by
  have hsame : field = other → found = leaf := by
    rintro rfl
    rw [hfield, some.injEq] at hother
    rw [hother, hfound, some.injEq, Prod.mk.injEq] at hleaf
    exact hleaf.2
  cases client with
  | db =>
    simp only [leafOf, dbLeaf, some.injEq, Prod.mk.injEq] at hleaf hfound
    exact hsame (hleaf.1.trans hfound.1.symm)
  | mixed encoding =>
    have hfieldKey : field ∈ h.keys := mem_keys.2 (mem_iff.2 ⟨_, hfield⟩)
    have hotherKey : other ∈ h.keys := mem_keys.2 (mem_iff.2 ⟨_, hother⟩)
    rcases leaf with plain | items | bytes
    · obtain ⟨rfl, -, hnull, hplain⟩ := mixedLeaf_text hleaf
      rcases found with plain' | items' | bytes'
      · exact hsame (mixedLeaf_text hfound).1.symm
      · -- the other field is this one with the suffix
        obtain ⟨rfl, -⟩ := mixedLeaf_list hfound
        exact absurd (mem_keys.1 hotherKey) (hclash field hfieldKey hnull hplain)
      · exact (mixedLeaf_bytes hfound).elim
    · obtain ⟨rfl, -⟩ := mixedLeaf_list hleaf
      rcases found with plain' | items' | bytes'
      · obtain ⟨rfl, -, hnull, hplain⟩ := mixedLeaf_text hfound
        exact absurd (mem_keys.1 hfieldKey) (hclash other hotherKey hnull hplain)
      · exact hsame (mixedLeaf_list hfound).1.symm
      · exact (mixedLeaf_bytes hfound).elim
    · exact (mixedLeaf_bytes hleaf).elim

variable (client : TableClient)

theorem TableClient.lookup_render_iff (hclash : client.Unclashing h)
    (order : ReplyOrder) (name : String) (leaf : MsiLeaf) :
    (client.render order h).lookup name = some leaf ↔ ∃ field value,
      h.lookup field = some value ∧ client.leafOf field value = some (name, leaf) := by
  constructor
  · intro hsome
    obtain ⟨field, value, hmem, hleaf⟩ := lookup_renderFields hsome
    exact ⟨field, value, (order.mem_fields h field value).1 hmem, hleaf⟩
  · rintro ⟨field, value, hfield, hleaf⟩
    rw [render, renderFields_eq_fill]
    refine lookup_fill_of_mem ((order.mem_fields h field value).2 hfield) hleaf ?_
    intro other hmem found hfound
    exact hclash.leaf_unique hfield ((order.mem_fields h _ _).1 hmem) hleaf hfound

/-- `DbClient` loses nothing. -/
theorem renderFields_db_shows (order : ReplyOrder) (h : Hash) :
    Shows (renderFields dbLeaf (order.fields h)) h := by
  have hiff := lookup_render_iff .db (h := h) trivial order
  intro field value
  constructor
  · rintro (htext | ⟨name, items, -, -, hlist⟩)
    · obtain ⟨f, v, hfield, hleaf⟩ := (hiff _ _).1 htext
      cases hleaf
      exact hfield
    · obtain ⟨f, v, -, hleaf⟩ := (hiff _ _).1 hlist
      cases hleaf
  · exact fun hlookup => .inl ((hiff _ _).2 ⟨field, value, hlookup, rfl⟩)

/-- `MixedDbClient` loses nothing of a hash without `NULL` and without two
fields that get one name. -/
theorem renderFields_mixed_shows (order : ReplyOrder) (hnull : "NULL" ∉ h)
    (hpair : ∀ field ∈ h.keys, hasSuffix field "@" = false → field ++ "@" ∉ h) :
    Shows (renderFields mixedLeaf (order.fields h)) h := by
  have hclash : Unclashing (.mixed .jsonIetf) h := fun field hkey _ => hpair field hkey
  have hiff := lookup_render_iff _ hclash order
  intro field value
  constructor
  · rintro (htext | ⟨name, items, rfl, rfl, hlist⟩)
    · obtain ⟨f, v, hfield, hleaf⟩ := (hiff _ _).1 htext
      obtain ⟨rfl, rfl, -, -⟩ := mixedLeaf_text hleaf
      exact hfield
    · obtain ⟨f, v, hfield, hleaf⟩ := (hiff _ _).1 hlist
      obtain ⟨rfl, rfl⟩ := mixedLeaf_list hleaf
      exact hfield
  · intro hlookup
    by_cases hsuffix : hasSuffix field "@" = true
    · obtain ⟨name, rfl⟩ := hasSuffix_iff.1 hsuffix
      exact .inr ⟨name, _, rfl, (intercalate_split value ',').symm,
        (hiff _ _).2 ⟨_, value, hlookup, mixedLeaf_at name value⟩⟩
    · have hne : field ≠ "NULL" := by
        rintro rfl
        exact hnull (mem_iff.2 ⟨value, hlookup⟩)
      exact .inl ((hiff _ _).2 ⟨field, value, hlookup,
        mixedLeaf_plain value hne (Bool.eq_false_of_not_eq_true hsuffix)⟩)

/-- Only those hashes are shown. -/
theorem faithful_of_mixed_shows (order : ReplyOrder)
    (hshows : Shows (renderFields mixedLeaf (order.fields h)) h) :
    "NULL" ∉ h ∧ ∀ field ∈ h.keys, hasSuffix field "@" = false → field ++ "@" ∉ h := by
  constructor
  · intro hnull
    obtain ⟨value, hlookup⟩ := mem_iff.1 hnull
    rcases (hshows "NULL" value).2 hlookup with htext | ⟨name, items, heq, -, -⟩
    · obtain ⟨f, v, -, hleaf⟩ := lookup_renderFields htext
      obtain ⟨hname, -, hne, -⟩ := mixedLeaf_text hleaf
      exact hne hname
    · have hsuffix : hasSuffix "NULL" "@" = true := hasSuffix_iff.2 ⟨name, heq⟩
      exact absurd hsuffix (by decide)
  · intro field hkey hplain hpair
    obtain ⟨value, hlookup⟩ := mem_iff.1 (mem_keys.1 hkey)
    obtain ⟨listed, hlisted⟩ := mem_iff.1 hpair
    -- the plain field needs the name for its text
    have htext : (renderFields mixedLeaf (order.fields h)).lookup field = some (.text value) := by
      rcases (hshows field value).2 hlookup with htext | ⟨name, items, rfl, -, -⟩
      · exact htext
      · simp at hplain
    rcases (hshows (field ++ "@") listed).2 hlisted with hother | ⟨name, items, heq, -, hlist⟩
    · obtain ⟨f, v, -, hleaf⟩ := lookup_renderFields hother
      obtain ⟨rfl, -, -, hno⟩ := mixedLeaf_text hleaf
      simp at hno
    · rw [← (String.append_left_inj "@").1 heq, htext] at hlist
      cases hlist

/-- A client shows a hash exactly when it renders it without loss. -/
theorem renderFields_shows_iff (order : ReplyOrder)
    (h : Hash) : Shows (client.render order h) h ↔ client.Faithful h := by
  cases client with
  | db => exact iff_of_true (renderFields_db_shows order h) trivial
  | mixed encoding =>
    constructor
    · intro hshows
      exact faithful_of_mixed_shows order hshows
    · rintro ⟨hnull, hpair⟩
      exact renderFields_mixed_shows order hnull hpair

theorem MsiObject.Shows.unique {fields : MsiObject} {h' : Hash}
    (hshows : fields.Shows h) (hshows' : fields.Shows h') : h = h' := by
  refine ext_lookup fun field => ext fun value => ?_
  rw [← hshows field value, ← hshows' field value]

theorem MsiObject.shows_empty : Shows ∅ ∅ := by
  intro field value
  simp [ShowsField]

theorem MsiObject.shows_empty_iff : Shows ∅ h ↔ h = ∅ := by
  constructor
  · exact fun hshows => hshows.unique shows_empty
  · rintro rfl
    exact shows_empty

/-! ## Reading a keyed table -/

/-- A subscription to a whole table with keys: the separator is one character
that the table name does not contain, patterns take both literally, and
`MixedDbClient` sends JSON. -/
structure WholeTable (client : TableClient) (tblPath : TablePath) : Prop where
  tableKey : tblPath.tableKey = ""
  jsonTableKey : tblPath.jsonTableKey = ""
  keyed : tblPath.keyless = false
  tableName : tblPath.tableName ≠ ""
  delimitor : ∃ c, tblPath.delimitor.toList = [c] ∧ c ∉ tblPath.tableName.toList
  literal : Glob.Literal (tblPath.tableName ++ tblPath.delimitor)
  encoding : ∀ encoding, client = .mixed encoding → encoding = .jsonIetf

section Reading

variable {client : TableClient} {tblPath : TablePath}

theorem WholeTable.dbKey_ne (hpath : WholeTable client tblPath) (key : String) :
    tblPath.tableName ≠ tblPath.dbKey key := by
  obtain ⟨c, hdelimitor, -⟩ := hpath.delimitor
  intro heq
  have hlength := congrArg (fun s : String => s.toList.length) heq
  simp only [dbKey, String.toList_append, length_append, hdelimitor, length_singleton] at hlength
  omega

theorem WholeTable.splitInTwo (hpath : WholeTable client tblPath) (key : String) :
    splitInTwo (tblPath.dbKey key) tblPath.delimitor = [tblPath.tableName, key] := by
  obtain ⟨c, hdelimitor, hname⟩ := hpath.delimitor
  exact splitInTwo_append _ _ hdelimitor hname

variable {tableKey : String} {useKey : Bool}

theorem WholeTable.row_has_key (hpath : WholeTable client tblPath)
    (huse : tableKey = "" ∨ useKey = true) (key : String) :
    ¬((tableKey ≠ "" ∧ useKey = false) ∨ tblPath.tableName = tblPath.dbKey key) := by
  rintro (⟨hkey, hfalse⟩ | heq)
  · rcases huse with huse | huse
    · exact hkey huse
    · rw [huse] at hfalse
      cases hfalse
  · exact hpath.dbKey_ne key heq

/-- A key of the table adds its own entry, for a read of the table or of that
key. -/
theorem WholeTable.addRow (hpath : WholeTable client tblPath) (order : ReplyOrder)
    (db : Db) (huse : tableKey = "" ∨ useKey = true) (msi : Msi) (key : String) :
    addRow order db { tblPath with tableKey := tableKey } useKey msi (tblPath.dbKey key) =
      .ok (msi.insert key (.object (renderFields dbLeaf
        (order.fields (db.hash (tblPath.dbKey key)))))) := by
  simp only [Sdc.addRow, hpath.jsonTableKey, ne_eq, not_true_eq_false, if_false]
  rw [if_neg (hpath.row_has_key huse key), hpath.splitInTwo key]
  rfl

/-- The loop over the rows of a client. -/
def TableClient.addRow (client : TableClient) (order : Redis.ReplyOrder) (db : Redis.Db)
    (tblPath : TablePath) (useKey : Bool) (msi : Msi) (dbkey : String) : Except Fault Msi :=
  match client with
  | .db => Sdc.addRow order db tblPath useKey msi dbkey
  | .mixed encoding => MixedDbClient.addRow encoding order db tblPath useKey msi dbkey

section

variable (hpath : WholeTable client tblPath)
include hpath

variable (order : ReplyOrder)

variable (db : Db)

theorem WholeTable.read_eq (tableKey : String) (useKey : Bool) (msi : Msi) :
    client.read order db { tblPath with tableKey := tableKey } useKey msi =
      (dbKeys order db { tblPath with tableKey := tableKey }).foldlM
        (client.addRow order db { tblPath with tableKey := tableKey } useKey) msi := by
  cases client with
  | db =>
    simp only [TableClient.read, tableData2Msi, hpath.jsonTableKey, ne_eq, not_true_eq_false,
      and_false, if_false]
    rfl
  | mixed encoding =>
    simp only [TableClient.read, MixedDbClient.tableData2Msi, if_neg hpath.tableName]
    rfl

theorem WholeTable.client_addRow (huse : tableKey = "" ∨ useKey = true) (msi : Msi) (key : String) :
    client.addRow order db { tblPath with tableKey := tableKey } useKey msi (tblPath.dbKey key) =
      .ok (msi.insert key (.object (client.render order (db.hash (tblPath.dbKey key))))) := by
  cases client with
  | db => exact hpath.addRow order db huse msi key
  | mixed encoding =>
    simp only [TableClient.addRow, MixedDbClient.addRow, if_neg hpath.tableName]
    rw [if_neg (hpath.row_has_key huse key), hpath.splitInTwo key]
    rfl

theorem WholeTable.read_key {key : String} (hkey : key ≠ "") :
    client.read order db { tblPath with tableKey := key } true ∅ =
      .ok (client.setMessage order key (db.hash (tblPath.dbKey key))) := by
  have hrow := hpath.client_addRow order db (.inr rfl : key = "" ∨ true = true) ∅ key
  rw [hpath.read_eq, dbKeys, if_neg hkey, foldlM_cons]
  exact congrArg (fun row => row >>= fun msi => foldlM _ msi []) hrow

theorem WholeTable.foldlM_addRow (useKey : Bool) (dbkeys : List String)
    (hkeys : ∀ dbkey ∈ dbkeys, ∃ key, dbkey = tblPath.dbKey key) (msi : Msi) :
    ∃ result, dbkeys.foldlM (client.addRow order db { tblPath with tableKey := "" } useKey) msi =
        .ok result ∧
      ∀ key, result.lookup key =
        if tblPath.dbKey key ∈ dbkeys then
          some (.object (client.render order (db.hash (tblPath.dbKey key))))
        else msi.lookup key := by
  induction dbkeys generalizing msi with
  | nil => exact ⟨msi, rfl, fun key => by simp⟩
  | cons dbkey rest ih =>
    obtain ⟨row, rfl⟩ := hkeys dbkey (mem_cons_self)
    obtain ⟨result, hresult, hlookup⟩ :=
      ih (fun other hother => hkeys other (mem_cons_of_mem _ hother))
        (msi.insert row (.object (client.render order (db.hash (tblPath.dbKey row)))))
    refine ⟨result, ?_, ?_⟩
    · rw [foldlM_cons, hpath.client_addRow order db (.inl rfl)]
      exact hresult
    intro key
    rw [hlookup key]
    by_cases hrow : key = row
    · subst hrow
      simp
    · have hne : tblPath.dbKey key ≠ tblPath.dbKey row := by
        intro heq
        exact hrow ((String.append_right_inj _).1 heq)
      simp [hne, lookup_insert_of_ne _ hrow]

theorem WholeTable.globMatch_pattern (dbkey : String) :
    globMatch tblPath.pattern dbkey = true ↔ ∃ key, dbkey = tblPath.dbKey key := by
  have hne : tblPath.tableName ++ tblPath.delimitor ≠ "" := by
    intro hempty
    exact hpath.tableName (String.append_eq_empty_iff.1 hempty).1
  rw [pattern, hpath.keyed]
  exact globMatch_literal_star hpath.literal hne dbkey

/-- A read of all rows has an entry for each key that is present. -/
theorem WholeTable.read_rows (useKey : Bool) :
    ∃ snapshot, client.read order db { tblPath with tableKey := "" } useKey ∅ = .ok snapshot ∧
      ∀ key, snapshot.lookup key =
        if db.hash (tblPath.dbKey key) = ∅ then none
        else some (.object (client.render order (db.hash (tblPath.dbKey key)))) := by
  have hkeys : dbKeys order db { tblPath with tableKey := "" } =
      (order.keys db).filter (globMatch tblPath.pattern) := by
    rw [dbKeys, if_pos rfl]
    rfl
  obtain ⟨snapshot, hread, hlookup⟩ := hpath.foldlM_addRow order db useKey
    ((order.keys db).filter (globMatch tblPath.pattern))
    (fun dbkey hmem => (hpath.globMatch_pattern dbkey).1 (mem_filter.1 hmem).2) ∅
  refine ⟨snapshot, ?_, ?_⟩
  · rw [hpath.read_eq order db "" useKey ∅, hkeys, hread]
  intro key
  rw [hlookup key]
  have hmem : tblPath.dbKey key ∈ (order.keys db).filter (globMatch tblPath.pattern) ↔
      db.hash (tblPath.dbKey key) ≠ ∅ := by
    rw [mem_filter, order.mem_keys, and_iff_left ((hpath.globMatch_pattern _).2 ⟨key, rfl⟩)]
  by_cases hempty : db.hash (tblPath.dbKey key) = ∅
  · rw [if_neg (fun h => hmem.1 h hempty), if_pos hempty, lookup_empty]
  · rw [if_pos (hmem.2 hempty), if_neg hempty]

theorem WholeTable.read_table :
    ∃ snapshot, client.read order db tblPath false ∅ = .ok snapshot ∧ ∀ key, snapshot.lookup key =
        if db.hash (tblPath.dbKey key) = ∅ then none
        else some (.object (client.render order (db.hash (tblPath.dbKey key)))) := by
  have hself : tblPath = { tblPath with tableKey := "" } := by
    rw [← hpath.tableKey]
  have hrows := hpath.read_rows order db false
  rwa [← hself] at hrows

end

end Reading

/-! ## Processing a notification -/

section Processing

variable {client : TableClient} {tblPath : TablePath}

section

variable (hpath : WholeTable client tblPath)
include hpath

theorem WholeTable.subData_eq : tblPath.subData =
      { tblPath := tblPath
        head := keyspaceChannel (targetValue tblPath.dbName) tblPath.tableName ++
          tblPath.delimitor
        wholeTable := true } := by
  simp [subData, hpath.tableKey, hpath.keyed]

theorem WholeTable.channel_dbKey (key : String) :
    keyspaceChannel (targetValue tblPath.dbName) (tblPath.dbKey key) =
      tblPath.subData.head ++ key := by
  simp only [hpath.subData_eq, keyspaceChannel, dbKey, String.append_assoc]

theorem WholeTable.literal_head : Literal tblPath.subData.head := by
  rw [hpath.subData_eq, keyspaceChannel, String.append_assoc]
  refine literal_append (literal_append (literal_append (by decide) ?_)
    (by decide)) hpath.literal
  exact literal_toString _

/-- The pattern matches the channels of the keys of the table. -/
theorem WholeTable.matches_iff (dbkey : String) :
    tblPath.subData.matches (keyspaceChannel (targetValue tblPath.dbName) dbkey) = true ↔
      ∃ key, dbkey = tblPath.dbKey key := by
  have hwhole : tblPath.subData.wholeTable = true := by
    rw [hpath.subData_eq]
  have hne : tblPath.subData.head ≠ "" := by
    rw [hpath.subData_eq, keyspaceChannel]
    simp
  rw [RedisSubData.matches, hwhole, if_pos rfl, globMatch_literal_star hpath.literal_head hne]
  constructor
  · rintro ⟨key, heq⟩
    refine ⟨key, ?_⟩
    rw [← hpath.channel_dbKey key] at heq
    exact (String.append_right_inj _).1 heq
  · rintro ⟨key, rfl⟩
    exact ⟨key, hpath.channel_dbKey key⟩

end

/-- A message on the channel of a key. -/
def TablePath.message (tblPath : TablePath) (key payload : String) : Redis.Message where
  channel := Redis.keyspaceChannel (targetValue tblPath.dbName) (tblPath.dbKey key)
  payload := payload

section

variable (hpath : WholeTable client tblPath)
include hpath

theorem WholeTable.message_length (key payload : String) :
    ¬ (tblPath.message key payload).channel.toList.length < tblPath.subData.prefixLen := by
  rw [message, hpath.channel_dbKey, RedisSubData.prefixLen, String.toList_append, length_append]
  omega

theorem WholeTable.message_key (key payload : String) :
    String.ofList ((tblPath.message key payload).channel.toList.drop
      tblPath.subData.prefixLen) = key := by
  rw [message, hpath.channel_dbKey, RedisSubData.prefixLen, String.toList_append,
    drop_left, String.ofList_toList]

theorem WholeTable.subData_tblPath : tblPath.subData.tblPath = tblPath := by
  rw [hpath.subData_eq]

theorem WholeTable.send (st : TableStream) (msi : Msi) :
    send client st msi = { st with sent := st.sent ++ [.jsonIetf msi] } := by
  cases client with
  | db => rfl
  | mixed encoding =>
    rw [hpath.encoding encoding rfl]
    rfl

theorem WholeTable.single_deletion (order : ReplyOrder) (db : Db) (msi : Msi) (key : String)
    {payload : String} (hpayload : payload = "del" ∨ payload = "hdel") :
    client.dbSingleTableKeySubscribe order db tblPath.subData (tblPath.message key payload) msi =
      .ok (some (client.deletion key), msi) := by
  have hdeleted : (tblPath.message key payload).payload = "del" ∨
      (tblPath.message key payload).payload = "hdel" := hpayload
  simp only [dbSingleTableKeySubscribe, singleTableKeySubscribe,
    hpath.message_key, hpath.subData_tblPath, hpath.tableKey]
  rw [if_pos hdeleted, if_neg]
  simpa using hpath.message_length key payload

end

variable {key dbkey : String} {st : TableStream} {input : Redis.Command × Redis.ReplyOrder}

theorem WholeTable.single_hset (hpath : WholeTable client tblPath) {order : ReplyOrder}
    {db : Db} (msi : Msi) {newMsi : Msi}
    (hread : client.read order db { tblPath with tableKey := key } true ∅ = .ok newMsi) :
    client.dbSingleTableKeySubscribe order db tblPath.subData (tblPath.message key "hset") msi =
      if newMsi = msi then .ok (none, msi)
      else .ok (if newMsi = ∅ then none else some newMsi, newMsi) := by
  have hpayload : ¬((tblPath.message key "hset").payload = "del" ∨
      (tblPath.message key "hset").payload = "hdel") := by
    simp [message]
  have hset : (tblPath.message key "hset").payload = "hset" := rfl
  have hlong := hpath.message_length key "hset"
  simp only [dbSingleTableKeySubscribe, singleTableKeySubscribe,
    hpath.message_key, hpath.subData_tblPath, hpath.tableKey]
  rw [if_neg hpayload, if_pos hset, if_neg (fun h => hlong h.2), if_neg (fun h => h rfl), hread]

theorem TableClient.setMessage_ne_empty (order : ReplyOrder)
    (key : String) (h : Hash) : client.setMessage order key h ≠ ∅ := by
  intro hempty
  have hlookup := congrArg (Finmap.lookup key) hempty
  rw [setMessage, lookup_insert, lookup_empty] at hlookup
  cases hlookup

/-- An `HSET` is sent and remembered unless it makes the remembered message. -/
theorem WholeTable.process_hset (hpath : WholeTable client tblPath) (order : ReplyOrder)
    (hfault : st.fault = none) (hkey : key ≠ "") :
    process client tblPath.subData order st (tblPath.message key "hset") =
      if client.setMessage order key (st.db.hash (tblPath.dbKey key)) = st.msi then st
      else
        { st with
          msi := client.setMessage order key (st.db.hash (tblPath.dbKey key))
          sent := st.sent ++
            [.jsonIetf (client.setMessage order key (st.db.hash (tblPath.dbKey key)))] } := by
  have hnonempty := client.setMessage_ne_empty order key (st.db.hash (tblPath.dbKey key))
  rw [process, if_neg (by simp [hfault]),
    hpath.single_hset st.msi (hpath.read_key order st.db hkey)]
  by_cases hsame : client.setMessage order key (st.db.hash (tblPath.dbKey key)) = st.msi
  · simp only [if_pos hsame]
  · simp only [if_neg hsame, if_neg hnonempty]
    exact hpath.send _ _

theorem TableStream.collected_append (st : TableStream) (value : TableValue) :
    collected { st with sent := st.sent ++ [value] } = collect st.collected value := by
  simp only [collected, foldl_append, foldl_cons, foldl_nil]

theorem collect_setMessage (order : ReplyOrder)
    (view : String → MsiObject) (key other : String) (h : Hash) :
    collect view (.jsonIetf (client.setMessage order key h)) other =
      if other = key then client.render order h else view other := by
  by_cases hother : other = key
  · subst hother
    simp [collect, setMessage, MsiValue.contents]
  · simp [collect, setMessage, hother, lookup_insert_of_ne]

/-- The keys that a collector takes for deleted when a key is: for
`MixedDbClient` the entry `delete` counts as a key as well. -/
def TableClient.deletedKeys (client : TableClient) (key : String) : List String :=
  match client with
  | .db => [key]
  | .mixed _ => [key, "delete"]

theorem collect_deletion (view : String → MsiObject) (key other : String) :
    collect view (.jsonIetf (client.deletion key)) other =
      if other ∈ client.deletedKeys key then ∅ else view other := by
  unfold collect deletion deletedKeys
  cases client with
  | db =>
    by_cases hother : other = key
    · subst hother
      simp [MsiValue.contents]
    · simp [hother, lookup_insert_of_ne]
  | mixed encoding =>
    by_cases hmarker : other = "delete"
    · subst hmarker
      simp [MsiValue.contents]
    · by_cases hother : other = key
      · subst hother
        simp [MsiValue.contents, lookup_insert_of_ne _ hmarker]
      · simp [hother, hmarker, lookup_insert_of_ne]

/-- Deletions leave the database and the remembered message, and the collector
drops the keys they report. -/
theorem WholeTable.process_deletions (hpath : WholeTable client tblPath)
    (order : ReplyOrder) (key : String) (payloads : List String)
    (hpayloads : ∀ payload ∈ payloads, payload = "del" ∨ payload = "hdel")
    (hfault : st.fault = none) :
    let after := (payloads.map (tblPath.message key)).foldl
      (process client tblPath.subData order) st
    after.db = st.db ∧ after.fault = none ∧ ∀ other, after.collected other =
        if payloads ≠ [] ∧ other ∈ client.deletedKeys key then ∅ else st.collected other := by
  induction payloads generalizing st with
  | nil => exact ⟨rfl, hfault, fun other => by simp⟩
  | cons payload rest ih =>
    have hfirst : process client tblPath.subData order st (tblPath.message key payload) =
        { st with sent := st.sent ++ [.jsonIetf (client.deletion key)] } := by
      rw [process, if_neg (by simp [hfault]), hpath.single_deletion order st.db st.msi key
        (hpayloads payload mem_cons_self)]
      exact hpath.send st (client.deletion key)
    obtain ⟨hdb, hnone, hview⟩ := ih
      (fun other hother => hpayloads other (mem_cons_of_mem _ hother))
      (show (fault { st with
        sent := st.sent ++ [.jsonIetf (client.deletion key)] }) = none from hfault)
    rw [map_cons, foldl_cons, hfirst]
    refine ⟨hdb, hnone, fun other => ?_⟩
    rw [hview other, collected_append, collect_deletion]
    by_cases hdeleted : other ∈ client.deletedKeys key <;> simp [hdeleted]

/-! ## One command -/

/-- The key of the table that a database key belongs to. -/
def TablePath.keyOf (tblPath : TablePath) (dbkey : String) : Option String :=
  if GoText.hasPrefix dbkey (tblPath.tableName ++ tblPath.delimitor) then
    some (GoText.trimPrefix dbkey (tblPath.tableName ++ tblPath.delimitor))
  else
    none

theorem TablePath.keyOf_eq_none (tblPath : TablePath)
    (hnone : tblPath.keyOf dbkey = none) (key : String) : dbkey ≠ tblPath.dbKey key := by
  rintro rfl
  rw [keyOf, dbKey, if_pos (hasPrefix_iff.2 ⟨key, rfl⟩)] at hnone
  cases hnone

theorem TablePath.eq_dbKey_of_keyOf (tblPath : TablePath)
    (hsome : tblPath.keyOf dbkey = some key) : dbkey = tblPath.dbKey key := by
  rw [keyOf] at hsome
  split at hsome
  · rename_i hhead
    obtain ⟨rest, rfl⟩ := hasPrefix_iff.1 hhead
    rw [trimPrefix_append, some.injEq] at hsome
    rw [hsome]
    rfl
  · cases hsome

/-- The commands that keep a collector in sync.  An `HSET` that makes the
remembered message must not change the hash, and any other one must leave a hash
that is rendered without loss; a deletion must change nothing or leave no hash
under the keys that it reports. -/
def TableStream.Fine (client : TableClient) (tblPath : TablePath) (st : TableStream)
    (input : Redis.Command × Redis.ReplyOrder) : Prop :=
  ∀ key ∈ tblPath.keyOf input.1.key,
    let before := st.db.hash input.1.key
    let after := (st.db.exec input.1).hash input.1.key
    match input.1 with
    | .hset _ fields =>
      fields = ∅ ∨
        if client.setMessage input.2 key after = st.msi then after = before
        else client.Faithful after
    | _ =>
      after = before ∨
        ∀ other ∈ client.deletedKeys key, (st.db.exec input.1).hash (tblPath.dbKey other) = ∅

theorem forall_mem_iff {Key : Type} {found : Option Key} {key : Key} {P : Key → Prop}
    (h : found = some key) : (∀ other ∈ found, P other) ↔ P key := by
  simp [h]

theorem WholeTable.step_outside (hpath : WholeTable client tblPath) (st : TableStream)
    (hnone : tblPath.keyOf input.1.key = none) :
    st.step client tblPath input = { st with db := st.db.exec input.1 } := by
  have hmatch : tblPath.subData.matches
      (keyspaceChannel (targetValue tblPath.dbName) input.1.key) = false := by
    rw [Bool.eq_false_iff]
    intro hmatches
    obtain ⟨key, hkey⟩ := (hpath.matches_iff _).1 hmatches
    exact tblPath.keyOf_eq_none hnone key hkey
  simp only [TableStream.step, List.filter_map, Function.comp_def, hmatch, List.filter_false,
    map_nil, foldl_nil]

theorem WholeTable.step_inside (hpath : WholeTable client tblPath) (st : TableStream)
    (hkey : input.1.key = tblPath.dbKey key) :
    st.step client tblPath input = ((st.db.events input.1).map (tblPath.message key)).foldl
        (process client tblPath.subData input.2)
        { st with db := st.db.exec input.1 } := by
  have hmatch : tblPath.subData.matches
      (keyspaceChannel (targetValue tblPath.dbName) input.1.key) = true :=
    (hpath.matches_iff _).2 ⟨key, hkey⟩
  simp only [TableStream.step, List.filter_map, Function.comp_def, hmatch, List.filter_true]
  simp only [hkey]
  rfl

/-- A command on one key keeps the others in sync, so only this key decides. -/
theorem TableStream.inSync_exec_iff (hsync : st.InSync tblPath)
    (after : TableStream) {command : Command} (hkey : command.key = tblPath.dbKey key)
    (hdb : after.db = st.db.exec command)
    (hview : ∀ other, other ≠ key → after.collected other = st.collected other) :
    after.InSync tblPath ↔
      Shows (after.collected key) ((st.db.exec command).hash command.key) := by
  constructor
  · intro hafter
    have hshows := hafter key
    rwa [hdb, ← hkey] at hshows
  · intro hshows other
    by_cases hother : other = key
    · rw [hother, hdb, ← hkey]
      exact hshows
    have hne : tblPath.dbKey other ≠ command.key := by
      rw [hkey]
      exact fun heq => hother ((String.append_right_inj _).1 heq)
    rw [hview other hother, hdb, st.db.hash_exec_of_ne hne]
    exact hsync other

theorem WholeTable.step_hset (hpath : WholeTable client tblPath) (hfault : st.fault = none)
    (hsync : st.InSync tblPath) (hkey : dbkey = tblPath.dbKey key) (hne : key ≠ "") {fields : Hash}
    (hfields : fields ≠ ∅) (order : ReplyOrder) :
    (st.step client tblPath (.hset dbkey fields, order)).fault = none ∧
      ((st.step client tblPath (.hset dbkey fields, order)).InSync tblPath ↔
        if client.setMessage order key ((st.db.hset dbkey fields).hash dbkey) = st.msi then
          (st.db.hset dbkey fields).hash dbkey = st.db.hash dbkey
        else client.Faithful ((st.db.hset dbkey fields).hash dbkey)) := by
  have hevents : st.db.events (.hset dbkey fields) = ["hset"] := if_neg hfields
  have hstep : st.step client tblPath (.hset dbkey fields, order) =
      process client tblPath.subData order
        { st with db := st.db.hset dbkey fields } (tblPath.message key "hset") := by
    have hinside := hpath.step_inside st (show (Redis.Command.hset dbkey fields, order).1.key =
      tblPath.dbKey key from hkey)
    rw [hinside]
    simp only [hevents, map_cons, map_nil, foldl_cons, foldl_nil]
    rfl
  have hdone : fault { st with db := st.db.hset dbkey fields } = none := hfault
  have hprocess := hpath.process_hset order hdone hne
  rw [← hkey] at hprocess
  have hcommand : (Redis.Command.hset dbkey fields).key = tblPath.dbKey key := hkey
  rw [hstep, hprocess]
  by_cases hsame : client.setMessage order key ((st.db.hset dbkey fields).hash dbkey) = st.msi
  · rw [if_pos hsame, if_pos hsame]
    refine ⟨hfault, (inSync_exec_iff hsync { st with db := st.db.hset dbkey fields }
      hcommand rfl fun other hother => rfl).trans ?_⟩
    -- nothing is sent: the collector still has the hash from before
    have hbefore := hsync key
    rw [← hkey] at hbefore
    constructor
    · intro hshows
      exact MsiObject.Shows.unique hshows hbefore
    · intro heq
      exact heq.symm ▸ hbefore
  · rw [if_neg hsame, if_neg hsame]
    refine ⟨hfault, (inSync_exec_iff hsync _ hcommand rfl ?_).trans ?_⟩
    · intro other hother
      refine (congrFun (collected_append _ _) other).trans ?_
      rw [collect_setMessage, if_neg hother]
      rfl
    · rw [← renderFields_shows_iff client order]
      have hview := congrFun (collected_append { st with
          db := st.db.hset dbkey fields
          msi := client.setMessage order key ((st.db.hset dbkey fields).hash dbkey) }
        (.jsonIetf (client.setMessage order key ((st.db.hset dbkey fields).hash dbkey)))) key
      rw [collect_setMessage, if_pos rfl] at hview
      exact iff_of_eq (congrArg (Shows · _) hview)

theorem WholeTable.step_removal (hpath : WholeTable client tblPath)
    (hfault : st.fault = none) (hsync : st.InSync tblPath) (hkey : input.1.key = tblPath.dbKey key)
    (hremoval : ∀ dbkey fields, input.1 ≠ .hset dbkey fields) :
    (st.step client tblPath input).fault = none ∧ ((st.step client tblPath input).InSync tblPath ↔
        ((st.db.exec input.1).hash input.1.key = st.db.hash input.1.key ∨
          ∀ other ∈ client.deletedKeys key,
            (st.db.exec input.1).hash (tblPath.dbKey other) = ∅)) := by
  have hdone : fault { st with db := st.db.exec input.1 } = none := hfault
  obtain ⟨hdb, hnone, hview⟩ := hpath.process_deletions input.2 key (st.db.events input.1)
    (fun payload hmem => st.db.mem_events hremoval hmem) hdone
  rw [← hpath.step_inside st hkey] at hdb hnone hview
  refine ⟨hnone, ?_⟩
  by_cases hsame : (st.db.exec input.1).hash input.1.key = st.db.hash input.1.key
  · have hevents := (st.db.events_eq_nil_iff hremoval).2 hsame
    refine iff_of_true ?_ (.inl hsame)
    refine (inSync_exec_iff hsync _ hkey hdb fun other hother => ?_).2 ?_
    · rw [hview other, hevents]
      simp [collected]
    · have hbefore := hsync key
      rw [← hkey] at hbefore
      rw [hview key, hevents, hsame]
      simpa [collected] using hbefore
  · have hevents : st.db.events input.1 ≠ [] := fun h =>
      hsame ((st.db.events_eq_nil_iff hremoval).1 h)
    rw [or_iff_right hsame]
    constructor
    · intro hafter other hother
      have hshows := hafter other
      rw [hview other, if_pos ⟨hevents, hother⟩, hdb] at hshows
      exact shows_empty_iff.1 hshows
    · intro hempty other
      rw [hview other, hdb]
      by_cases hother : other ∈ client.deletedKeys key
      · rw [if_pos ⟨hevents, hother⟩]
        exact shows_empty_iff.2 (hempty other hother)
      rw [if_neg (fun h => hother h.2)]
      have hne : tblPath.dbKey other ≠ input.1.key := by
        rw [hkey]
        intro heq
        rw [(String.append_right_inj _).1 heq] at hother
        exact hother (by cases client <;> exact mem_cons_self)
      have hshows := hsync other
      rw [← st.db.hash_exec_of_ne hne] at hshows
      exact hshows

/-- From a state in sync, one command keeps it exactly when it is fine. -/
theorem WholeTable.step_inSync_iff (hpath : WholeTable client tblPath)
    (hfault : st.fault = none) (hsync : st.InSync tblPath)
    (input : Command × ReplyOrder) (hne : input.1.key ≠ tblPath.dbKey "") :
    (st.step client tblPath input).fault = none ∧
      ((st.step client tblPath input).InSync tblPath ↔ st.Fine client tblPath input) := by
  rcases hkeyOf : tblPath.keyOf input.1.key with _ | key
  · rw [hpath.step_outside st hkeyOf]
    refine ⟨hfault, iff_of_true ?_ fun key hmem => ?_⟩
    · intro key
      rw [st.db.hash_exec_of_ne (tblPath.keyOf_eq_none hkeyOf key).symm]
      exact hsync key
    · rw [hkeyOf] at hmem
      cases hmem
  · have hkey := tblPath.eq_dbKey_of_keyOf hkeyOf
    have hnonempty : key ≠ "" := by
      rintro rfl
      exact hne hkey
    obtain ⟨command, order⟩ := input
    cases command with
    | hset dbkey fields =>
      by_cases hfields : fields = ∅
      · -- the command is refused and nothing happens
        subst hfields
        have hstep : st.step client tblPath (.hset dbkey ∅, order) =
            { st with db := st.db.hset dbkey ∅ } := hpath.step_inside st hkey
        rw [hstep]
        refine ⟨hfault, iff_of_true ?_ fun other hother => .inl rfl⟩
        intro other
        rw [st.db.hash_hset_empty]
        exact hsync other
      · obtain ⟨hnone, hiff⟩ := hpath.step_hset hfault hsync hkey hnonempty hfields order
        rw [Fine, forall_mem_iff hkeyOf]
        exact ⟨hnone, hiff.trans (or_iff_right hfields).symm⟩
    | hdel dbkey fields | del dbkey =>
      rw [Fine, forall_mem_iff hkeyOf]
      exact hpath.step_removal hfault hsync hkey (by simp)

/-! ## Whole runs -/

/-- Every command of a run is fine in the state it meets. -/
def TableStream.AllFine (client : TableClient) (tblPath : TablePath) :
    TableStream → List (Redis.Command × Redis.ReplyOrder) → Prop
  | _, [] => True
  | st, input :: rest =>
    st.Fine client tblPath input ∧
      TableStream.AllFine client tblPath (st.step client tblPath input) rest

/-- The snapshot shows the hashes that are rendered without loss. -/
theorem WholeTable.snapshot_inSync_iff (hpath : WholeTable client tblPath)
    (order : ReplyOrder) (db : Db) :
    (client.dbTableKeySubscribe tblPath order db).fault = none ∧
      ((client.dbTableKeySubscribe tblPath order db).InSync tblPath ↔
        ∀ key, client.Faithful (db.hash (tblPath.dbKey key))) := by
  obtain ⟨snapshot, hread, hlookup⟩ := hpath.read_table order db
  have hstart : client.dbTableKeySubscribe tblPath order db =
      { db := db, sent := [.jsonIetf snapshot] } := by
    rw [dbTableKeySubscribe, hread]
    exact hpath.send _ _
  rw [hstart]
  refine ⟨rfl, forall_congr' fun key => ?_⟩
  rw [← renderFields_shows_iff client order]
  have hentry := hlookup key
  by_cases hempty : db.hash (tblPath.dbKey key) = ∅
  · have hview : collected { db := db, sent := [.jsonIetf snapshot] } key = ∅ := by
      rw [if_pos hempty] at hentry
      simp only [collected, foldl_cons, foldl_nil, collect, hentry]
    have hfaithful : client.Faithful ∅ := by
      cases client with
      | db => trivial
      | mixed encoding => exact ⟨notMem_empty, fun field hfield => by simp at hfield⟩
    rw [hview]
    rw [hempty, renderFields_shows_iff]
    exact iff_of_true shows_empty hfaithful
  · have hview : collected { db := db, sent := [.jsonIetf snapshot] } key =
        client.render order (db.hash (tblPath.dbKey key)) := by
      rw [if_neg hempty] at hentry
      simp only [collected, foldl_cons, foldl_nil, collect, hentry, MsiValue.contents]
    rw [hview]

/-- From a state in sync, every state of a run is in sync exactly when all its
commands are fine. -/
theorem WholeTable.run_inSync_iff (hpath : WholeTable client tblPath)
    (inputs : List (Command × ReplyOrder))
    (hinputs : ∀ input ∈ inputs, input.1.key ≠ tblPath.dbKey "")
    (hfault : st.fault = none) (hsync : st.InSync tblPath) :
    (∀ earlier, earlier <+: inputs → (earlier.foldl (step client tblPath) st).InSync tblPath) ↔
      AllFine client tblPath st inputs := by
  induction inputs generalizing st with
  | nil =>
    refine iff_of_true ?_ trivial
    intro earlier hearlier
    rw [prefix_nil.1 hearlier]
    exact hsync
  | cons input rest ih =>
    obtain ⟨hnone, hiff⟩ := hpath.step_inSync_iff hfault hsync input
      (hinputs input mem_cons_self)
    have hrest : ∀ other ∈ rest, other.1.key ≠ tblPath.dbKey "" :=
      fun other hother => hinputs other (mem_cons_of_mem _ hother)
    constructor
    · intro hall
      have hnext := hall [input] (prefix_cons_inj input |>.2 nil_prefix)
      refine ⟨hiff.1 hnext, (ih hrest hnone hnext).1 fun earlier hearlier => ?_⟩
      exact hall (input :: earlier) ((prefix_cons_inj input).2 hearlier)
    · rintro ⟨hfine, hfines⟩ earlier hearlier
      have hnext := hiff.2 hfine
      cases earlier with
      | nil => exact hsync
      | cons first more =>
        obtain ⟨rfl, hmore⟩ := cons_prefix_cons.1 hearlier
        exact (ih hrest hnone hnext).2 hfines more hmore

end Processing

/-! ## Runs on a small table -/

def portTable : TablePath where
  dbName := "CONFIG_DB"
  tableName := "PORT"
  delimitor := "|"

theorem wholeTable_portTable {client : TableClient}
    (hclient : ∀ encoding, client = .mixed encoding → encoding = .jsonIetf) :
    WholeTable client portTable where
  tableKey := rfl
  jsonTableKey := rfl
  keyed := by decide
  tableName := by decide
  delimitor := ⟨'|', by decide, by decide⟩
  literal := by decide
  encoding := hclient

/-- Set the MTU of a port, delete the port, and set the MTU again. -/
def setDeleteSet (second : String) : List (Redis.Command × Redis.ReplyOrder) :=
  [(.hset "PORT|Ethernet0" (Finmap.singleton "mtu" "9100"), .sorted),
    (.del "PORT|Ethernet0", .sorted),
    (.hset "PORT|Ethernet0" (Finmap.singleton "mtu" second), .sorted)]

def setAndRemoveField : List (Redis.Command × Redis.ReplyOrder) :=
  [(.hset "PORT|Ethernet0" ((Finmap.singleton "mtu" "9100").insert "speed" "100000"), .sorted),
    (.hdel "PORT|Ethernet0" ["speed"], .sorted)]

theorem not_inSync_of_lost {st : TableStream} (hcollected : st.collected "Ethernet0" = ∅)
    (hhash : st.db.hash "PORT|Ethernet0" ≠ ∅) : ¬ st.InSync portTable := by
  intro hsync
  have hshows := hsync "Ethernet0"
  rw [hcollected] at hshows
  exact hhash (shows_empty_iff.1 hshows)

end SonicGnmi.Sdc
