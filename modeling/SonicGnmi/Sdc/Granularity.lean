import SonicGnmi.Sdc.PatchSimulation
import SonicGnmi.Sdc.TableReads

/-!
# Reads at different granularities

A table can be read as a whole, entry by entry, field by field, and a list item
by item.  The answers agree if the value at a member of one answer is the answer
to the longer path.

* `Agrees` — the answers to all paths below a table are well formed and agree;
* `Source` — Redis, or the document of a checkpoint;
* `Source.Fine` — what the contents must be like;
* `agrees_iff` — the answers agree exactly on such contents.

Fields and items are put between quotation marks as they are stored, while
entries and tables go through the JSON encoder.  In Redis an index below zero
gives the whole list, and an empty key or field name gives the level above.
-/

namespace SonicGnmi.Sdc

open Foundation Gnmi Grpc GoText JsonClient JsonOutput JsonString List Option

namespace MixedClient

/-- A read gives a JSON value. -/
def Reads (get : List String → Except Fault ReadValue) (names : List String) (value : Json) :
    Prop :=
  ∃ out, get names = .ok (.jsonIetf out) ∧ out.value = some value

/-- All answers below a table are well formed, and the longer paths agree with the
shorter ones. -/
structure Agrees (get : List String → Except Fault ReadValue) (isKey : String → Prop)
    (table : String) : Prop where
  wellFormed : ∀ rest out, get (table :: rest) = .ok (.jsonIetf out) → out.value.isSome = true
  entry : ∀ key, isKey key → ∃ whole row read, Reads get [table] whole ∧
    whole.child key = some row ∧ Reads get [table, key] read ∧ row.Same read
  field : ∀ key members, isKey key → Reads get [table, key] (.object members) →
    ∀ name value, member members name = some value →
      ∃ read, Reads get [table, key, name] read ∧ value.Same read
  item : ∀ key members, isKey key → Reads get [table, key] (.object members) →
    ∀ name items, member members name = some (.array items) → ∀ i : Int,
      (0 ≤ i ∧ i < items.length → ∃ item read, items[i.toNat]? = some item ∧
        Reads get [table, key, name, toString i] read ∧ item.Same read) ∧
      (¬(0 ≤ i ∧ i < items.length) → ∃ fault, get [table, key, name, toString i] = .error fault)

/-- Where a Get is answered from. -/
inductive Source where
  | redis (order : TableSetOrder) (db : Redis.Db)
  | checkPoint (jsonData : JsonClient.Members)

namespace Source

variable (source : Source)

/-- The answer to the path of some names. -/
def get (c : MixedClient) (inst : String) (names : List String) : Except Fault ReadValue :=
  match source with
  | .redis order db => c.getTable order db (c.pathTo inst names)
  | .checkPoint jsonData =>
    match readPaths c.pathPrefix jsonData [c.pathTo inst names] with
    | .error e => .error (.plain e)
    | .ok [] => .error (.plain "no value")
    | .ok ((_, out) :: _) => .ok (.jsonIetf out)

/-- The keys of a table. -/
def IsKey (c : MixedClient) (table key : String) : Prop :=
  match source with
  | .redis _ db => c.keyless table = false ∧ db.hash (table ++ c.separator ++ key) ≠ ∅
  | .checkPoint jsonData =>
    ∃ rows, member jsonData table = some (.object rows) ∧ (member rows key).isSome = true

/-- A field of CONFIG_DB in a checkpoint: a text or a list of texts. -/
def IsField (value : Json) : Prop :=
  (∃ text, value = .string text) ∨
    ∃ items : List String, value = .array (items.map .string) ∧ items.length < 2 ^ 63

/-- The contents that a table can have.  In Redis its name does not contain the
separator, patterns take both literally, and no hash has the field `NULL` or two
fields `f` and `f@`.  In a checkpoint it is an object of entries with fields. -/
def Regular (c : MixedClient) (table : String) : Prop :=
  match source with
  | .redis _ db =>
    (∃ separator, c.separator.toList = [separator] ∧ separator ∉ table.toList) ∧
      Glob.Literal (table ++ c.separator) ∧
      ∀ key, "NULL" ∉ db.hash key ∧ ∀ field ∈ db.hash key, field ++ "@" ∉ db.hash key
  | .checkPoint jsonData =>
    ∀ value, member jsonData table = some value → ∃ rows, value = .object rows ∧
      ∀ key row, member rows key = some row → ∃ fields, row = .object fields ∧
        ∀ name value, member fields name = some value → IsField value

/-- The contents on which all reads agree.  In Redis the table and its keys have names, the
entries have no lists and no field without a name, and their values are plain
texts; the hash under the name of the table, which a path with an empty key or
of a keyless table reads, has well-formed values.  In a checkpoint an entry is
found under its own name, and its texts are plain. -/
def Fine (c : MixedClient) (table : String) : Prop :=
  match source with
  | .redis order db =>
    (∀ field value, (db.hash table).lookup field = some value → field ≠ "" →
      JsonString.WellFormed value.toList) ∧
    ∀ key, IsKey (.redis order db) c table key → table ≠ "" ∧ key ≠ "" ∧
      ∀ field value, (db.hash (table ++ c.separator ++ key)).lookup field = some value →
        field ≠ "" ∧ GoText.hasSuffix field "@" = false ∧ JsonString.Plain value.toList
  | .checkPoint jsonData =>
    ∀ rows, member jsonData table = some (.object rows) → ∀ key row,
      member rows key = some row → ∃ fields,
        member rows (JsonClient.fixName key) = some (.object fields) ∧
        row.Same (.object fields) ∧
        (∀ name text, member fields name = some (.string text) → JsonString.Plain text.toList) ∧
        ∀ name items, member fields name = some (.array items) →
          ∀ text, .string text ∈ items → JsonString.Plain text.toList

end Source

/-! ## Redis -/

section Redis

variable {c : MixedClient} {order : TableSetOrder} {db : Redis.Db} {inst table : String}

variable {field key name text : String} {h : Redis.Hash} {value : Json}

/-- The members of an entry that is read from its hash. -/
def entryMembers (order : TableSetOrder) (h : Redis.Hash) : JsonClient.Members :=
  mapMembers leafJson (renderFields mixedLeaf (order.reply.fields h))

/-- The table path of an accepted path; the paths of a keyless table have an empty
key. -/
theorem readPath_of_getDbtablePath (hc : c.JsonReader) {rest : List String} {tblPath : WritePath}
    (h : c.getDbtablePath order db (some (c.pathTo inst (table :: rest))) none = .ok tblPath) :
    ∃ key field index, tblPath = c.readPath table key field index ∧
      (c.keyless table = true → key = "") := by
  rw [getDbtablePath_cons hc] at h
  cases hkeyless : c.keyless table with
  | true =>
    rw [hkeyless, if_pos rfl] at h
    rcases rest with _ | ⟨field, _ | ⟨last, _ | ⟨next, rest⟩⟩⟩ <;> dsimp only at h
    all_goals (try split at h) <;> cases h
    all_goals exact ⟨_, _, _, rfl, fun _ => rfl⟩
  | false =>
    rw [hkeyless, if_neg Bool.false_ne_true] at h
    rcases rest with _ | ⟨key, _ | ⟨field, _ | ⟨last, _ | ⟨next, rest⟩⟩⟩⟩ <;> dsimp only at h
    all_goals (try split at h) <;> cases h
    all_goals exact ⟨_, _, _, rfl, fun hempty => absurd hempty Bool.false_ne_true⟩

theorem fieldKey_readPath (hkey : key ≠ "") (field : String) (index : Int) :
    fieldKey (c.readPath table key field index) = table ++ c.separator ++ key :=
  if_pos (show (c.readPath table key field index).tableKey ≠ "" from hkey)

theorem Source.Fine.wellFormed_hash (hfine : Source.Fine (.redis order db) c table)
    (hkey : c.keyless table = true → key = "") (field : String) (index : Int) :
    ∀ other value, (db.hash (fieldKey (c.readPath table key field index))).lookup other =
      some value → other ≠ "" → WellFormed value.toList := by
  intro other value hlookup hother
  by_cases hempty : key = ""
  · rw [fieldKey, if_neg (fun hne => hne hempty)] at hlookup
    exact hfine.1 other value hlookup hother
  rw [fieldKey_readPath hempty] at hlookup
  have hkeyed : c.keyless table = false :=
    Bool.eq_false_of_not_eq_true fun hkeyless => hempty (hkey hkeyless)
  have hrow : db.hash (table ++ c.separator ++ key) ≠ ∅ := by
    intro hnone
    rw [hnone, Finmap.lookup_empty] at hlookup
    cases hlookup
  exact ((hfine.2 key ⟨hkeyed, hrow⟩).2.2 other value hlookup).2.2.wellFormed

section

variable (hregular : Source.Regular (.redis order db) c table)
include hregular

/-- A path to a keyed table with a name reads it as a whole table. -/
theorem wholeTable_readPath (hkeyed : c.keyless table = false) (htable : table ≠ "") :
    WholeTable (.mixed .jsonIetf) (c.readPath table "" "" (-1)).toTablePath where
  tableKey := rfl
  jsonTableKey := rfl
  keyed := hkeyed
  tableName := htable
  delimitor := hregular.1
  literal := hregular.2.1
  encoding := by
    rintro _ ⟨⟩
    rfl

theorem not_all_of_isKey (htable : table ≠ "") (hrow : db.hash (table ++ c.separator ++ key) ≠ ∅) :
    ¬ (order.reply.keys db).all (fun key => !Glob.globMatch (table ++ "*") key) = true := by
  intro hall
  have hliteral : Glob.Literal table := by
    intro ch hch
    refine hregular.2.1 ch ?_
    rw [String.toList_append]
    exact mem_append_left _ hch
  have hmatch : Glob.globMatch (table ++ "*") (table ++ c.separator ++ key) = true :=
    (Glob.globMatch_literal_star hliteral htable _).2 ⟨c.separator ++ key, String.append_assoc⟩
  have hno := all_eq_true.1 hall _ ((order.reply.mem_keys db _).2 hrow)
  rw [hmatch] at hno
  cases hno

theorem reads_table (hc : c.JsonReader)
    (htable : table ≠ "") (hkey : Source.IsKey (.redis order db) c table key) :
    ∃ whole, Reads (Source.get (.redis order db) c inst) [table] whole ∧
      whole.child key = some (.object (entryMembers order
        (db.hash (table ++ c.separator ++ key)))) := by
  have hpath := wholeTable_readPath hregular hkey.1 htable
  obtain ⟨snapshot, hread, hlookup⟩ := hpath.read_table order.reply db
  have hmsi : c.msiOf order db table "" = .ok snapshot := hread
  refine ⟨msiJson snapshot, ⟨.marshalled (msiJson snapshot), ?_, rfl⟩, ?_⟩
  · rw [Source.get, getTable_table hc order db inst hkey.1,
      if_neg (not_all_of_isKey hregular htable hkey.2), hmsi]
    rfl
  · have hpresent : db.hash ((c.readPath table "" "" (-1)).dbKey key) ≠ ∅ := hkey.2
    have hrow := hlookup key
    rw [if_neg hpresent] at hrow
    rw [msiJson, Json.child, member_mapMembers, hrow]
    rfl

end

theorem reads_entry_iff (hc : c.JsonReader) (hkeyed : c.keyless table = false)
    (htable : table ≠ "") (hkey : key ≠ "") :
    Reads (Source.get (.redis order db) c inst) [table, key] value ↔
      value = .object (entryMembers order (db.hash (table ++ c.separator ++ key))) := by
  have hget : Source.get (.redis order db) c inst [table, key] = .ok (.jsonIetf (.marshalled
      (.object (entryMembers order (db.hash (table ++ c.separator ++ key)))))) := by
    rw [Source.get, getTable_entry hc order db inst hkeyed, msiOf_entry order db c htable hkey,
      entryMembers, ← objectJson, ← msiJson_makeJSONRedis_none]
    rfl
  constructor
  · rintro ⟨out, hout, hvalue⟩
    rw [hget] at hout
    cases hout
    exact (some.inj hvalue).symm
  · rintro rfl
    exact ⟨_, hget, rfl⟩

theorem get_text (hc : c.JsonReader) (hkeyed : c.keyless table = false) {value : String}
    (hkey : key ≠ "") (hfield : field ≠ "")
    (hlookup : (db.hash (table ++ c.separator ++ key)).lookup field = some value) :
    Source.get (.redis order db) c inst [table, key, field] = .ok (.jsonIetf (.quoted value)) := by
  rw [Source.get, getTable_field hc order db inst hkeyed key hfield,
    fieldKey_readPath hkey, readField, hlookup]
  rfl

/-- A member of an entry is stored as text under its name, or as a list under the
name with `@`. -/
theorem lookup_of_member (hmember : member (entryMembers order h) name = some value) :
    (∃ text, value = .string text ∧ h.lookup name = some text) ∨
      ∃ text items, value = .array items ∧ h.lookup (name ++ "@") = some text := by
  rw [entryMembers, member_mapMembers] at hmember
  obtain ⟨leaf, hleaf, rfl⟩ := map_eq_some_iff.1 hmember
  obtain ⟨field, stored, hmem, hrender⟩ := lookup_renderFields hleaf
  have hlookup := (order.reply.mem_fields h field stored).1 hmem
  cases leaf with
  | text text =>
    obtain ⟨rfl, rfl, -, -⟩ := mixedLeaf_text hrender
    exact Or.inl ⟨stored, rfl, hlookup⟩
  | list items =>
    obtain ⟨rfl, -⟩ := mixedLeaf_list hrender
    exact Or.inr ⟨stored, _, rfl, hlookup⟩
  | bytes text => exact (mixedLeaf_bytes hrender).elim

section

variable (hregular : Source.Regular (.redis order db) c table)
include hregular

theorem member_of_list (hlookup : (db.hash key).lookup (name ++ "@") = some text) :
    ∃ items, member (entryMembers order (db.hash key)) name = some (.array items) := by
  obtain ⟨hnull, hpair⟩ := hregular.2.2 key
  have hshows := renderFields_mixed_shows order.reply hnull
    fun field hfield _ => hpair field (Finmap.mem_keys.1 hfield)
  rcases (hshows _ _).2 hlookup with htext | ⟨other, items, heq, -, hlist⟩
  · obtain ⟨field, stored, -, hleaf⟩ := lookup_renderFields htext
    obtain ⟨rfl, -, -, hsuffix⟩ := mixedLeaf_text hleaf
    simp at hsuffix
  · rw [(String.append_left_inj "@").1 heq, entryMembers, member_mapMembers, hlist]
    exact ⟨_, rfl⟩

theorem member_of_text (hlookup : (db.hash key).lookup name = some text)
    (hsuffix : hasSuffix name "@" = false) :
    member (entryMembers order (db.hash key)) name = some (.string text) := by
  obtain ⟨hnull, hpair⟩ := hregular.2.2 key
  have hshows := renderFields_mixed_shows order.reply hnull
    fun field hfield _ => hpair field (Finmap.mem_keys.1 hfield)
  rcases (hshows _ _).2 hlookup with htext | ⟨other, items, rfl, -, -⟩
  · rw [entryMembers, member_mapMembers, htext]
    rfl
  · simp at hsuffix

theorem redis_agrees (hc : c.JsonReader) (hfine : Source.Fine (.redis order db) c table) :
    Agrees (Source.get (.redis order db) c inst) (Source.IsKey (.redis order db) c table)
      table where
  wellFormed := by
    intro rest out hout
    rw [Source.get, getTable] at hout
    split at hout
    · cases hout
    rename_i tblPath hpath
    obtain ⟨key, field, index, rfl, hkey⟩ := readPath_of_getDbtablePath hc hpath
    by_cases hfield : field = ""
    · subst hfield
      rw [tableData2TypedValue_msi hc] at hout
      obtain ⟨msi, -, ⟨⟩⟩ := Loop.ok_of_map hout
      rfl
    · rw [tableData2TypedValue_field order db table key hfield] at hout
      have hwell := hfine.wellFormed_hash hkey field index
      split at hout <;> obtain ⟨read, hread, ⟨⟩⟩ := Loop.ok_of_map hout
      · rw [readItem] at hread
        split at hread
        · cases hread
        rename_i val hval
        split at hread
        · cases hread
        rename_i item hitem
        cases hread
        have hname : field ++ "@" ≠ "" := by simp
        have hjoined := hwell _ _ hval hname
        rw [← intercalate_splitChars ',' val.toList] at hjoined
        obtain ⟨part, hpart, rfl⟩ := mem_map.1 (mem_of_getElem? hitem)
        rw [value, isSome_map, String.toList_ofList]
        exact hjoined.of_mem_intercalate part hpart
      · rw [readField] at hread
        split at hread
        · rename_i val hval
          cases hread
          rw [value, isSome_map]
          exact hwell field val hval hfield
        · split at hread <;> cases hread
          rfl
  entry := by
    intro key hkey
    obtain ⟨htable, hne, -⟩ := hfine.2 key hkey
    obtain ⟨whole, hwhole, hchild⟩ := reads_table hregular hc htable hkey
    exact ⟨whole, _, _, hwhole, hchild, (reads_entry_iff hc hkey.1 htable hne).2 rfl, .refl _⟩
  field := by
    intro key members hkey hread name value hmember
    obtain ⟨htable, hne, hfields⟩ := hfine.2 key hkey
    obtain rfl := Json.object.inj ((reads_entry_iff hc hkey.1 htable hne).1 hread)
    rcases lookup_of_member hmember with ⟨text, rfl, hlookup⟩ | ⟨text, items, -, hlookup⟩
    · obtain ⟨hname, -, hplain⟩ := hfields name text hlookup
      exact ⟨.string text, ⟨.quoted text, get_text hc hkey.1 hne hname hlookup,
        (quoted_value_iff text).2 hplain⟩, .refl _⟩
    · have hsuffix := (hfields _ _ hlookup).2.1
      simp at hsuffix
  item := by
    intro key members hkey hread name items hmember
    obtain ⟨htable, hne, hfields⟩ := hfine.2 key hkey
    obtain rfl := Json.object.inj ((reads_entry_iff hc hkey.1 htable hne).1 hread)
    -- there are no lists
    rcases lookup_of_member hmember with ⟨text, ⟨⟩, -⟩ | ⟨text, items, -, hlookup⟩
    have hsuffix := (hfields _ _ hlookup).2.1
    simp at hsuffix

end

/-- A path with an empty table name or key reads the same as the table. -/
theorem table_ne_empty_of_agrees (hc : c.JsonReader)
    (hagrees : Agrees (Source.get (.redis order db) c inst)
      (Source.IsKey (.redis order db) c table) table)
    (hkey : Source.IsKey (.redis order db) c table key) : table ≠ "" ∧ key ≠ "" := by
  rw [← not_or]
  intro hempty
  obtain ⟨whole, row, read, hwhole, hchild, hread, hsame⟩ := hagrees.entry key hkey
  obtain ⟨out, hout, hvalue⟩ := hwhole
  obtain ⟨out', hout', hvalue'⟩ := hread
  rw [Source.get, getTable_table hc order db inst hkey.1] at hout
  rw [Source.get, getTable_entry hc order db inst hkey.1, msiOf_of_empty order db c hempty] at hout'
  split at hout
  · cases hout
  rw [hout] at hout'
  cases hout'
  rw [hvalue] at hvalue'
  cases hvalue'
  exact Json.not_same_member hchild hsame.symm

theorem reads_empty_field (hc : c.JsonReader) (hkeyed : c.keyless table = false)
    (hread : Reads (Source.get (.redis order db) c inst) [table, key, ""] value) :
    ∃ members, value = .object members := by
  obtain ⟨out, hout, hvalue⟩ := hread
  rw [Source.get, getTable, getDbtablePath_cons hc, hkeyed] at hout
  simp only [Bool.false_eq_true, if_false] at hout
  rw [tableData2TypedValue_msi hc] at hout
  obtain ⟨msi, -, ⟨⟩⟩ := Loop.ok_of_map hout
  exact ⟨_, (some.inj hvalue).symm⟩

/-- The index -1 gives the whole list. -/
theorem get_negative_index (hc : c.JsonReader) (hkeyed : c.keyless table = false)
    (hkey : key ≠ "") (hname : name ≠ "")
    (hlookup : (db.hash (table ++ c.separator ++ key)).lookup (name ++ "@") = some text) :
    ∃ value, Source.get (.redis order db) c inst [table, key, name, toString (-1 : Int)] =
      .ok value := by
  have hindex : atoi (toString (-1 : Int)) = some (-1) := by decide +kernel
  rw [Source.get, getTable, getDbtablePath_cons hc, hkeyed]
  simp only [Bool.false_eq_true, if_false, hindex]
  rw [tableData2TypedValue_field order db table key hname, if_neg (by decide),
    fieldKey_readPath hkey, readField, hlookup]
  cases (db.hash (table ++ c.separator ++ key)).lookup name with
  | some val | none => exact ⟨_, rfl⟩

theorem redis_fine (hc : c.JsonReader) (hregular : Source.Regular (.redis order db) c table)
    (hagrees : Agrees (Source.get (.redis order db) c inst)
      (Source.IsKey (.redis order db) c table) table) : Source.Fine (.redis order db) c table := by
  constructor
  · intro field value hlookup hfield
    -- the hash of the table name is read without a key
    obtain ⟨rest, hread⟩ : ∃ rest, Source.get (.redis order db) c inst (table :: rest) =
        .ok (.jsonIetf (.quoted value)) := by
      cases hkeyless : c.keyless table with
      | true =>
        refine ⟨[field], ?_⟩
        rw [Source.get, getTable, getDbtablePath_cons hc, hkeyless]
        simp only [if_true]
        rw [tableData2TypedValue_field order db table "" hfield, if_neg (by decide)]
        change (readField (db.hash table) field).map _ = _
        rw [readField, hlookup]
        rfl
      | false =>
        refine ⟨["", field], ?_⟩
        rw [Source.get, getTable_field hc order db inst hkeyless "" hfield]
        change (readField (db.hash table) field).map _ = _
        rw [readField, hlookup]
        rfl
    have hsome := hagrees.wellFormed rest _ hread
    rwa [JsonOutput.value, Option.isSome_map] at hsome
  · intro key hkey
    obtain ⟨htable, hne⟩ := table_ne_empty_of_agrees hc hagrees hkey
    refine ⟨htable, hne, fun field value hlookup => ?_⟩
    have hentry : Reads (Source.get (.redis order db) c inst) [table, key] (.object _) :=
      (reads_entry_iff hc hkey.1 htable hne).2 rfl
    by_cases hsuffix : hasSuffix field "@" = true
    · -- a list is read with an index below zero, or its name is empty
      obtain ⟨name, rfl⟩ := hasSuffix_iff.1 hsuffix
      obtain ⟨items, hmember⟩ := member_of_list hregular hlookup
      by_cases hname : name = ""
      · subst hname
        obtain ⟨read, hread, hsame⟩ := hagrees.field key _ hkey hentry "" _ hmember
        obtain ⟨members, rfl⟩ := reads_empty_field hc hkey.1 hread
        exact absurd hsame.top_eq (by simp [Json.top])
      · obtain ⟨got, hgot⟩ := get_negative_index hc hkey.1 hne hname hlookup
        obtain ⟨fault, hfault⟩ := (hagrees.item key _ hkey hentry name items hmember (-1)).2
          (by omega)
        rw [hgot] at hfault
        cases hfault
    · have hplain := Bool.eq_false_of_not_eq_true hsuffix
      have hmember := member_of_text hregular hlookup hplain
      obtain ⟨read, hread, hsame⟩ := hagrees.field key _ hkey hentry field _ hmember
      obtain rfl := hsame.eq_string
      have hfield : field ≠ "" := by
        rintro rfl
        obtain ⟨members, hmembers⟩ := reads_empty_field hc hkey.1 hread
        cases hmembers
      obtain ⟨out, hout, hvalue⟩ := hread
      rw [get_text hc hkey.1 hne hfield hlookup] at hout
      cases hout
      exact ⟨hfield, hplain, (quoted_value_iff value).1 hvalue⟩

end Redis

/-! ## The checkpoint -/

section CheckPoint

variable {c : MixedClient} {jsonData rows fields : JsonClient.Members}
  {inst table key name : String}

theorem get_checkPoint (hc : c.JsonReader) (names : List String) :
    Source.get (.checkPoint jsonData) c inst names =
      match JsonClient.get jsonData names with
      | .error e => .error (.plain e)
      | .ok out => .ok (.jsonIetf out) := by
  have hnames : elemNames (names.map fun name => { name := name }) = names := by
    simp [elemNames, Function.comp_def]
  simp only [Source.get, readPaths, hc.pathPrefix, gnmiFullPath_pathTo, hnames]
  cases JsonClient.get jsonData names with
  | error e | ok out => rfl

theorem reads_checkPoint_iff (hc : c.JsonReader) {names : List String} {value : Json} :
    Reads (Source.get (.checkPoint jsonData) c inst) names value ↔
      ∃ out, JsonClient.get jsonData names = .ok out ∧ out.value = some value := by
  rw [Reads, get_checkPoint hc]
  cases JsonClient.get jsonData names <;> simp

section

variable (htable : member jsonData table = some (.object rows))
include htable

theorem get_table : JsonClient.get jsonData [table] = .ok (.marshalled (.object rows)) := by
  simp [JsonClient.get, JsonClient.fixPath, JsonClient.decodeJsonTable, htable]

theorem get_entry :
    JsonClient.get jsonData [table, key] =
      (JsonClient.decodeJsonEntry rows (JsonClient.fixName key)).map
        fun ventry => .marshalled (.object ventry) := by
  simp only [JsonClient.get, JsonClient.fixPath, JsonClient.decodeJsonTable, htable]
  cases JsonClient.decodeJsonEntry rows (JsonClient.fixName key) <;> rfl

theorem get_field (hentry : member rows (fixName key) = some (.object fields)) :
    JsonClient.get jsonData [table, key, name] =
      (JsonClient.decodeJsonField fields name).map fun vfield =>
        match vfield with
        | .text value => .quoted value
        | .list items => .marshalled (.array items) := by
  simp only [JsonClient.get, JsonClient.fixPath, JsonClient.decodeJsonTable, htable,
    JsonClient.decodeJsonEntry, hentry]
  cases JsonClient.decodeJsonField fields name with
  | error e => rfl
  | ok vfield => cases vfield <;> rfl

end

variable {items : List Json}

theorem get_item (htable : member jsonData table = some (.object rows))
    (hentry : member rows (fixName key) = some (.object fields))
    (hfield : member fields name = some (.array items)) (index : String) :
    JsonClient.get jsonData [table, key, name, index] =
      (JsonClient.decodeJsonListItem items index).map .quoted := by
  simp only [JsonClient.get, JsonClient.fixPath, JsonClient.decodeJsonTable, htable,
    JsonClient.decodeJsonEntry, hentry, JsonClient.decodeJsonField, hfield,
    JsonClient.FieldValue.items]
  cases JsonClient.decodeJsonListItem items index <;> rfl

theorem fixName_fixName (name : String) : fixName (fixName name) = fixName name := by
  have hpath := fixPath_fixPath ["", name]
  simpa [fixPath] using hpath

theorem decodeJsonField_text {text : String} (h : decodeJsonField fields name = .ok (.text text)) :
    member fields name = some (.string text) := by
  unfold decodeJsonField at h
  split at h
  · cases h
  · rename_i s hmember
    cases h
    exact hmember
  · cases h
  · cases h

theorem mem_of_decodeJsonListItem {index item : String}
    (h : decodeJsonListItem items index = .ok item) : .string item ∈ items := by
  unfold decodeJsonListItem at h
  split at h
  · cases h
  split at h
  · cases h
  split at h
  · cases h
  · rename_i s hitem
    cases h
    exact mem_of_getElem? hitem
  · cases h

theorem decodeJsonListItem_toString {n : Nat} {text : String}
    (hn : n < 2 ^ 63) (hitem : items[n]? = some (.string text)) :
    decodeJsonListItem items (toString n) = .ok text := by
  rw [decodeJsonListItem, atoi_toString hn]
  simp only [Int.toNat_natCast, hitem]
  rw [if_neg (by omega)]

theorem decodeJsonListItem_out_of_range {i : Int} (hi : ¬(0 ≤ i ∧ i < items.length)) :
    ∃ e, decodeJsonListItem items (toString i) = .error e := by
  rw [decodeJsonListItem]
  cases hatoi : atoi (toString i) with
  | none => exact ⟨_, rfl⟩
  | some id =>
    obtain rfl := eq_of_atoi_toString hatoi
    by_cases hneg : id < 0
    · simp only [if_pos hneg]
      exact ⟨_, rfl⟩
    have hnone : items[id.toNat]? = none := by
      rw [getElem?_eq_none_iff]
      omega
    simp only [if_neg hneg, hnone]
    exact ⟨_, rfl⟩

/-- The entry that a key leads to is itself found under its own name. -/
theorem Source.Fine.plain_entry (hfine : Source.Fine (.checkPoint jsonData) c table)
    (htable : member jsonData table = some (.object rows))
    (hentry : member rows (fixName key) = some (.object fields)) :
    (∀ name text, member fields name = some (.string text) → Plain text.toList) ∧
      ∀ name items, member fields name = some (.array items) →
        ∀ text, .string text ∈ items → Plain text.toList := by
  obtain ⟨found, hfound, -, hplain⟩ := hfine rows htable _ _ hentry
  rw [fixName_fixName, hentry] at hfound
  cases hfound
  exact hplain

theorem checkPoint_wellFormed (hfine : Source.Fine (.checkPoint jsonData) c table)
    {rest : List String} {out : JsonOutput}
    (hout : JsonClient.get jsonData (table :: rest) = .ok out) : out.value.isSome = true := by
  rcases rest with _ | ⟨key, _ | ⟨name, _ | ⟨index, _ | ⟨next, rest⟩⟩⟩⟩ <;>
    simp only [JsonClient.get, JsonClient.fixPath] at hout
  · split at hout <;> cases hout
    rfl
  · split at hout
    · cases hout
    · split at hout <;> cases hout
      rfl
  · split at hout
    · cases hout
    rename_i rows htable
    split at hout
    · cases hout
    rename_i fields hentry
    have hplain := hfine.plain_entry (decodeJsonTable_ok htable) (decodeJsonEntry_ok hentry)
    split at hout
    · cases hout
    · rename_i text hfield
      cases hout
      rw [value, isSome_map]
      exact (hplain.1 name text (decodeJsonField_text hfield)).wellFormed
    · cases hout
      rfl
  · split at hout
    · cases hout
    rename_i rows htable
    split at hout
    · cases hout
    rename_i fields hentry
    have hplain := hfine.plain_entry (decodeJsonTable_ok htable) (decodeJsonEntry_ok hentry)
    split at hout
    · cases hout
    rename_i vfield hfield
    split at hout
    · cases hout
    rename_i item hitem
    cases hout
    have hmem := mem_of_decodeJsonListItem hitem
    obtain ⟨value, hmember, hlist⟩ := decodeJsonField_ok hfield
    rw [hlist (List.ne_nil_of_mem hmem)] at hmember
    rw [JsonOutput.value, Option.isSome_map]
    exact (hplain.2 name _ hmember item hmem).wellFormed
  · cases hout

/-- A read of a key reads the entry of the fixed name. -/
theorem entry_of_reads (hc : c.JsonReader) (htable : member jsonData table = some (.object rows))
    {value : Json} (hread : Reads (Source.get (.checkPoint jsonData) c inst) [table, key] value) :
    ∃ fields, value = .object fields ∧
      member rows (fixName key) = some (.object fields) := by
  obtain ⟨out, hout, hvalue⟩ := (reads_checkPoint_iff hc).1 hread
  rw [get_entry htable] at hout
  obtain ⟨fields, hentry, rfl⟩ := Loop.ok_of_map hout
  exact ⟨fields, (some.inj hvalue).symm, decodeJsonEntry_ok hentry⟩

section

variable (hregular : Source.Regular (.checkPoint jsonData) c table)
include hregular

theorem Source.Regular.isField (htable : member jsonData table = some (.object rows))
    (hentry : member rows key = some (.object fields)) {value : Json}
    (hmember : member fields name = some value) : Source.IsField value := by
  obtain ⟨found, hfound, hrows⟩ := hregular _ htable
  cases hfound
  obtain ⟨found, hfound, hfields⟩ := hrows _ _ hentry
  cases hfound
  exact hfields name value hmember

theorem checkPoint_agrees (hc : c.JsonReader) (hfine : Source.Fine (.checkPoint jsonData) c table) :
    Agrees (Source.get (.checkPoint jsonData) c inst)
      (Source.IsKey (.checkPoint jsonData) c table) table where
  wellFormed := by
    intro rest out hout
    rw [get_checkPoint hc] at hout
    rcases hget : JsonClient.get jsonData (table :: rest) with _ | got <;> rw [hget] at hout
    · cases hout
    cases hout
    exact checkPoint_wellFormed hfine hget
  entry := by
    rintro key ⟨rows, htable, hkey⟩
    obtain ⟨row, hrow⟩ := isSome_iff_exists.1 hkey
    obtain ⟨fields, hfields, hsame, -⟩ := hfine rows htable key row hrow
    refine ⟨.object rows, row, .object fields, ?_, hrow, ?_, hsame⟩
    · exact (reads_checkPoint_iff hc).2 ⟨_, get_table htable, rfl⟩
    · refine (reads_checkPoint_iff hc).2 ⟨.marshalled (.object fields), ?_, rfl⟩
      simp only [get_entry htable, decodeJsonEntry, hfields]
      rfl
  field := by
    rintro key members ⟨rows, htable, hkey⟩ hread name value hmember
    obtain ⟨_, ⟨⟩, hentry⟩ := entry_of_reads hc htable hread
    refine ⟨value, (reads_checkPoint_iff hc).2 ?_, .refl _⟩
    rw [get_field htable hentry, decodeJsonField, hmember]
    rcases hregular.isField htable hentry hmember with ⟨text, rfl⟩ | ⟨items, rfl, -⟩
    · exact ⟨.quoted text, rfl, (quoted_value_iff text).2
        ((hfine.plain_entry htable hentry).1 name text hmember)⟩
    · exact ⟨.marshalled (.array (items.map .string)), rfl, rfl⟩
  item := by
    rintro key members ⟨rows, htable, hkey⟩ hread name items hmember i
    obtain ⟨_, ⟨⟩, hentry⟩ := entry_of_reads hc htable hread
    constructor
    · rintro ⟨hpos, hlt⟩
      obtain ⟨n, rfl⟩ := Int.eq_ofNat_of_zero_le hpos
      rcases hregular.isField htable hentry hmember with ⟨text, htext⟩ | ⟨texts, htexts, hlength⟩
      · cases htext
      obtain rfl := Json.array.inj htexts
      rw [length_map] at hlt
      have hn : n < texts.length := by omega
      have hitem : (texts.map Json.string)[n]? = some (.string texts[n]) := by
        rw [getElem?_map, getElem?_eq_getElem hn, map_some]
      refine ⟨.string texts[n], .string texts[n], hitem, (reads_checkPoint_iff hc).2 ?_, .refl _⟩
      refine ⟨.quoted texts[n], ?_, (quoted_value_iff _).2
        ((hfine.plain_entry htable hentry).2 name _ hmember _ (mem_of_getElem? hitem))⟩
      rw [get_item htable hentry hmember, show toString (n : Int) = toString n from rfl,
        decodeJsonListItem_toString (by omega) hitem]
      rfl
    · intro hrange
      obtain ⟨e, he⟩ := decodeJsonListItem_out_of_range hrange
      rw [get_checkPoint hc, get_item htable hentry hmember, he]
      exact ⟨_, rfl⟩

theorem checkPoint_fine (hc : c.JsonReader)
    (hagrees : Agrees (Source.get (.checkPoint jsonData) c inst)
      (Source.IsKey (.checkPoint jsonData) c table) table) :
    Source.Fine (.checkPoint jsonData) c table := by
  intro rows htable key row hrow
  have hkey : Source.IsKey (.checkPoint jsonData) c table key := ⟨rows, htable, by rw [hrow]; rfl⟩
  obtain ⟨whole, found, read, hwhole, hchild, hread, hsame⟩ := hagrees.entry key hkey
  obtain ⟨out, hout, hvalue⟩ := (reads_checkPoint_iff hc).1 hwhole
  rw [get_table htable] at hout
  cases hout
  cases hvalue
  obtain rfl : row = found := some.inj (hrow.symm.trans hchild)
  obtain ⟨fields, rfl, hentry⟩ := entry_of_reads hc htable hread
  refine ⟨fields, hentry, hsame, ?_, ?_⟩
  · intro name text hmember
    obtain ⟨read', hread', hsame'⟩ := hagrees.field key fields hkey hread name _ hmember
    obtain rfl := hsame'.eq_string
    obtain ⟨out, hout, hvalue⟩ := (reads_checkPoint_iff hc).1 hread'
    rw [get_field htable hentry, decodeJsonField, hmember] at hout
    cases hout
    exact (JsonOutput.quoted_value_iff text).1 hvalue
  · intro name items hmember text hmem
    obtain ⟨n, hitem⟩ := List.mem_iff_getElem?.1 hmem
    have hn : n < items.length := (List.getElem?_eq_some_iff.1 hitem).1
    obtain ⟨item, read', hat, hread', hsame'⟩ :=
      (hagrees.item key fields hkey hread name items hmember n).1 ⟨by omega, by omega⟩
    rw [Int.toNat_natCast, hitem, Option.some.injEq] at hat
    subst hat
    obtain rfl := hsame'.eq_string
    obtain ⟨out, hout, hvalue⟩ := (reads_checkPoint_iff hc).1 hread'
    have hlength : n < 2 ^ 63 := by
      rcases hregular.isField htable hentry hmember with ⟨_, htext⟩ | ⟨texts, htexts, hlength⟩
      · cases htext
      · obtain rfl := Json.array.inj htexts
        rw [length_map] at hn
        omega
    rw [get_item htable hentry hmember, show toString (n : Int) = toString n from rfl,
      decodeJsonListItem_toString hlength hitem] at hout
    cases hout
    exact (quoted_value_iff text).1 hvalue

end

end CheckPoint

/-! ## Both sources -/

def stateClient : MixedClient where
  target := "STATE_DB"
  separator := "|"

def stateOrder : TableSetOrder where
  reply := Redis.ReplyOrder.sorted
  entry := RangeOrder.stored

def onePort (field value : String) : Redis.Db := Redis.Db.single "PORT|Ethernet0" field value

theorem hash_onePort (field value key : String) : (onePort field value).hash key =
      if key = "PORT|Ethernet0" then Finmap.singleton field value else ∅ :=
  Redis.Db.hash_single _ _ _ _

end MixedClient
end SonicGnmi.Sdc
