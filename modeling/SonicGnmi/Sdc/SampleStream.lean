import SonicGnmi.Sdc.TableSync

/-!
# Sampled tables

The SAMPLE side of `dbTableKeySubscribe`, for `DbClient` and `MixedDbClient`.
The loop keeps the whole table in `msiAll`, merges the messages of the listening
routine into it, and sends it at every tick.  The table is not read again.

* `SampleStream`, `SampleStream.step` — one command with its notifications, or one
  tick;
* `Sample.Current` — what was sent is what a read would have given;
* `Unclashing`, `render_eq_iff` — the hashes whose rendering does not depend on the
  order of the reply;
* `WholeTable.inSync_iff`, `SingleKey.inSync_iff` — the table of the loop is what is
  read, key by key or field by field.
-/

namespace SonicGnmi.Sdc

open Foundation Gnmi Grpc Finmap Redis TableClient TablePath

/-! ## The loop -/

/-- A value sent at a tick, with the database of that moment. -/
structure Sample where
  db : Redis.Db
  value : TableValue

/-- The database, the message that the listener remembers, the table that the
loop keeps, the value sent before the loop, the values of the ticks, and the faults
that ended the listener and the loop. -/
structure SampleStream where
  db : Redis.Db
  msi : Msi := ∅
  msiAll : Msi := ∅
  initial : Option TableValue := none
  samples : List Sample := []
  listenerFault : Option Fault := none
  fault : Option Fault := none

/-- `dbTableKeySubscribe` up to its loop. -/
def TableClient.sampleSubscribe (client : TableClient) (tblPath : TablePath)
    (updateOnly : Bool) (order : Redis.ReplyOrder) (db : Redis.Db) : SampleStream :=
  match client.read order db tblPath false ∅ with
  | .error fault => { db := db, fault := some fault }
  | .ok msiAll =>
    match client.encode msiAll with
    | .error fault => { db := db, fault := some fault }
    | .ok value =>
      { db := db, msiAll := if updateOnly then ∅ else msiAll, initial := some value }

/-- One message: the listener puts its update on the channel and the loop merges
it.  A fault of the listener ends the listener, not the loop. -/
def SampleStream.receive (client : TableClient) (rsd : RedisSubData)
    (order : Redis.ReplyOrder) (st : SampleStream) (message : Redis.Message) : SampleStream :=
  if st.listenerFault.isSome ∨ st.fault.isSome then st
  else
    match client.dbSingleTableKeySubscribe order st.db rsd message st.msi with
    | .error fault => { st with listenerFault := some fault }
    | .ok (none, msi) => { st with msi := msi }
    | .ok (some updatedTable, msi) =>
      { st with msi := msi, msiAll := updatedTable ∪ st.msiAll }

/-- One tick. -/
def SampleStream.tick (client : TableClient) (updateOnly : Bool) (st : SampleStream) :
    SampleStream :=
  if st.fault.isSome then st
  else
    match client.encode st.msiAll with
    | .error fault => { st with fault := some fault }
    | .ok value =>
      { st with
        samples := st.samples ++ [⟨st.db, value⟩]
        msiAll := if updateOnly then ∅ else st.msiAll }

/-- A command, with the order of the replies that the listener reads after it, or a
tick. -/
inductive SampleInput where
  | write (command : Redis.Command) (order : Redis.ReplyOrder)
  | tick

/-- One input. -/
def SampleStream.step (client : TableClient) (tblPath : TablePath) (updateOnly : Bool)
    (st : SampleStream) : SampleInput → SampleStream
  | .write command order =>
    let channel := Redis.keyspaceChannel (targetValue tblPath.dbName) command.key
    let messages := (st.db.events command).map fun payload => Redis.Message.mk channel payload
    (messages.filter fun message => tblPath.subData.matches message.channel).foldl
      (SampleStream.receive client tblPath.subData order) { st with db := st.db.exec command }
  | .tick => st.tick client updateOnly

/-- A whole run. -/
def TableClient.sample (client : TableClient) (tblPath : TablePath) (updateOnly : Bool)
    (order : Redis.ReplyOrder) (db : Redis.Db) (inputs : List SampleInput) : SampleStream :=
  inputs.foldl (SampleStream.step client tblPath updateOnly)
    (client.sampleSubscribe tblPath updateOnly order db)

/-- The commands of a run, without its ticks. -/
def SampleInput.commands (inputs : List SampleInput) : List (Redis.Command × Redis.ReplyOrder) :=
  inputs.filterMap fun input =>
    match input with
    | .write command order => some (command, order)
    | .tick => none

/-- The value of a tick is what a read of the database would have given, in
whatever order the reply comes. -/
def Sample.Current (client : TableClient) (tblPath : TablePath) (sample : Sample) : Prop :=
  ∀ order, ∃ msi, client.read order sample.db tblPath false ∅ = .ok msi ∧
    client.encode msi = .ok sample.value

/-- The table that the loop keeps is what a read would give. -/
def SampleStream.InSync (client : TableClient) (tblPath : TablePath) (st : SampleStream) : Prop :=
  ∀ order, client.read order st.db tblPath false ∅ = .ok st.msiAll

/-! ## Merging -/

section Merging

variable {Value : Type} (fragment view : Finmap fun _ : String => Value)

/-- Merging a fragment that is there already changes nothing. -/
theorem union_eq_of_le
    (hle : ∀ name value, fragment.lookup name = some value → view.lookup name = some value) :
    fragment ∪ view = view := by
  refine ext_lookup fun name => ?_
  rw [lookup_union]
  cases hlookup : fragment.lookup name with
  | none => rfl
  | some value => exact (hle name value hlookup).symm

theorem union_eq_left (hle : ∀ name, name ∈ view → name ∈ fragment) :
    fragment ∪ view = fragment := by
  refine ext_lookup fun name => ?_
  rw [lookup_union]
  cases hlookup : fragment.lookup name with
  | none => exact lookup_eq_none.2 (mt (hle name) (lookup_eq_none.1 hlookup))
  | some value => rfl

theorem union_ne_empty (hne : fragment ≠ ∅) : fragment ∪ view ≠ ∅ := by
  intro hempty
  refine hne (ext_lookup fun name => ?_)
  have hnone := lookup_union fragment view name
  rw [hempty, lookup_empty] at hnone
  exact (Option.or_eq_none_iff.1 hnone.symm).1

variable {fragment view} in
theorem eq_iff_lookup : fragment = view ↔ ∀ name, fragment.lookup name = view.lookup name :=
  ⟨fun heq _ => heq ▸ rfl, ext_lookup⟩

end Merging

/-! ## The order of a reply -/

variable {field name value : String} {h : Redis.Hash} {leaf : MsiLeaf} (client : TableClient)

/-- The last field of a reply is rendered in any case. -/
theorem TableClient.lookup_render_endingIn
    (hfield : h.lookup field = some value) (hleaf : client.leafOf field value = some (name, leaf)) :
    (client.render (.endingIn field) h).lookup name = some leaf := by
  obtain ⟨rest, hfields⟩ := Redis.ReplyOrder.fields_endingIn hfield
  rw [render, hfields, renderFields, List.foldl_append, List.foldl_cons, List.foldl_nil]
  simp [hleaf, lookup_insert]

/-- These are the hashes that are rendered alike from every reply. -/
theorem TableClient.render_eq_iff (h : Hash) (order : ReplyOrder) :
    (∀ order', client.render order' h = client.render order h) ↔ client.Unclashing h := by
  constructor
  · intro hsame
    cases client with
    | db => trivial
    | mixed encoding =>
      intro field hkey hnull hplain hpair
      obtain ⟨value, hfield⟩ := mem_iff.1 (mem_keys.1 hkey)
      obtain ⟨items, hitems⟩ := mem_iff.1 hpair
      have htext := lookup_render_endingIn (.mixed encoding) hfield
        (mixedLeaf_plain value hnull hplain)
      have hlist := lookup_render_endingIn (.mixed encoding) hitems
        (mixedLeaf_at field items)
      rw [hsame, ← hsame (.endingIn (field ++ "@")), hlist] at htext
      cases htext
  · intro hclash order'
    refine ext_lookup fun name => Option.ext fun leaf => ?_
    rw [client.lookup_render_iff hclash, client.lookup_render_iff hclash]

theorem mem_renderFields {leafOf : LeafOf} {mfv : List (String × String)}
    (hmem : (field, value) ∈ mfv)
    (hleaf : leafOf field value = some (name, leaf)) : name ∈ renderFields leafOf mfv := by
  rw [renderFields_eq_fill]
  rcases lookup_fill (fun entry => leafOf entry.1 entry.2) mfv name with
    ⟨-, -, found, -, hfound⟩ | ⟨hnone, -⟩
  · exact mem_iff.2 ⟨found, hfound⟩
  · exact absurd hleaf (hnone _ hmem leaf)

theorem TableClient.leafOf_name (hleaf : client.leafOf field value = some (name, leaf))
    (other : String) : ∃ found, client.leafOf field other = some (name, found) := by
  cases client with
  | db =>
    cases hleaf
    exact ⟨_, rfl⟩
  | mixed encoding =>
    simp only [leafOf, mixedLeaf] at hleaf ⊢
    split_ifs at hleaf ⊢ <;> cases hleaf
    · exact ⟨_, rfl⟩
    · exact ⟨_, rfl⟩

theorem TableClient.mem_render_mono (order order' : ReplyOrder)
    {h' : Hash} (hle : ∀ field, field ∈ h → field ∈ h')
    (hmem : name ∈ client.render order h) : name ∈ client.render order' h' := by
  obtain ⟨leaf, hlookup⟩ := mem_iff.1 hmem
  obtain ⟨field, value, hfield, hleaf⟩ := lookup_renderFields hlookup
  rw [order.mem_fields] at hfield
  obtain ⟨value', hfield'⟩ := mem_iff.1 (hle field (mem_iff.2 ⟨value, hfield⟩))
  obtain ⟨found, hfound⟩ := client.leafOf_name hleaf value'
  exact mem_renderFields ((order'.mem_fields h' field value').2 hfield') hfound

/-! ## What is read -/

/-- A subscription to one key of a table: patterns take the key literally, and
`MixedDbClient` sends JSON. -/
structure SingleKey (client : TableClient) (tblPath : TablePath) : Prop where
  tableKey : tblPath.tableKey ≠ ""
  jsonTableKey : tblPath.jsonTableKey = ""
  keyed : tblPath.keyless = false
  tableName : tblPath.tableName ≠ ""
  literal : Glob.Literal (tblPath.dbKey tblPath.tableKey)
  encoding : ∀ encoding, client = .mixed encoding → encoding = .jsonIetf

/-- The entry of a key in a read of the table. -/
def TableClient.row (client : TableClient) (order : Redis.ReplyOrder) (h : Redis.Hash) :
    Option MsiValue :=
  if h = ∅ then none else some (.object (client.render order h))

/-- The keys of the database that a subscription watches. -/
def TablePath.Watches (tblPath : TablePath) (dbkey : String) : Prop :=
  if tblPath.tableKey = "" then ∃ key, dbkey = tblPath.dbKey key
  else dbkey = tblPath.dbKey tblPath.tableKey

/-- Fields at the top level decide the object they come from. -/
theorem lookup_leaf_eq_iff (first second : MsiObject) :
    (∀ name, (first.lookup name).map MsiValue.leaf = (second.lookup name).map MsiValue.leaf) ↔
      first = second := by
  rw [eq_iff_lookup]
  exact forall_congr' fun name => (Option.map_injective fun _ _ => MsiValue.leaf.inj).eq_iff

section Reading

variable {client : TableClient} {tblPath : TablePath}

theorem WholeTable.read_iff (hpath : WholeTable client tblPath) {order : ReplyOrder} {db : Db}
    {msi : Msi} : client.read order db tblPath false ∅ = .ok msi ↔
      ∀ key, msi.lookup key = client.row order (db.hash (tblPath.dbKey key)) := by
  obtain ⟨snapshot, hread, hlookup⟩ := hpath.read_table order db
  rw [hread, Except.ok.injEq, eq_comm, eq_iff_lookup]
  exact forall_congr' fun key => (hlookup key).congr_right

theorem WholeTable.inSync_iff (hpath : WholeTable client tblPath) (st : SampleStream) :
    st.InSync client tblPath ↔ ∀ order key, st.msiAll.lookup key =
        client.row order (st.db.hash (tblPath.dbKey key)) :=
  forall_congr' fun _ => hpath.read_iff

theorem SingleKey.read_eq (hpath : SingleKey client tblPath) (order : ReplyOrder) (db : Db) :
    client.read order db tblPath false ∅ = .ok (makeJson client.leafOf ∅ none
        (order.fields (db.hash (tblPath.dbKey tblPath.tableKey)))) := by
  cases client with
  | db =>
    simp only [TableClient.read, tableData2Msi, hpath.jsonTableKey, ne_eq, not_true_eq_false,
      and_false, if_false, dbKeys, if_neg hpath.tableKey, List.foldlM_cons,
      List.foldlM_nil, addRow]
    rw [if_pos (.inl ⟨hpath.tableKey, trivial⟩)]
    rfl
  | mixed encoding =>
    rw [hpath.encoding encoding rfl]
    simp only [TableClient.read, MixedDbClient.tableData2Msi, if_neg hpath.tableName,
      dbKeys, if_neg hpath.tableKey, List.foldlM_cons, List.foldlM_nil,
      MixedDbClient.addRow]
    rw [if_pos (.inl ⟨hpath.tableKey, trivial⟩)]
    rfl

theorem SingleKey.inSync_iff (hpath : SingleKey client tblPath) (st : SampleStream) :
    st.InSync client tblPath ↔ ∀ order name, st.msiAll.lookup name =
        ((client.render order (st.db.hash (tblPath.dbKey tblPath.tableKey))).lookup name).map
          .leaf := by
  refine forall_congr' fun order => ?_
  rw [hpath.read_eq order st.db, Except.ok.injEq, eq_comm, eq_iff_lookup]
  exact forall_congr' fun name => (lookup_makeJson_none ..).congr_right

variable (dbkey : String)

theorem SingleKey.matches_iff (hpath : SingleKey client tblPath) :
    tblPath.subData.matches (keyspaceChannel (targetValue tblPath.dbName) dbkey) = true ↔
      dbkey = tblPath.dbKey tblPath.tableKey := by
  have hhead : tblPath.subData.head = keyspaceChannel (targetValue tblPath.dbName)
      (tblPath.dbKey tblPath.tableKey) := by
    simp [subData, hpath.tableKey, hpath.keyed, keyspaceChannel, dbKey, String.append_assoc]
  have hone : tblPath.subData.wholeTable = false := by
    simp [subData, hpath.tableKey]
  have hliteral : Glob.Literal (keyspaceChannel (targetValue tblPath.dbName)
      (tblPath.dbKey tblPath.tableKey)) := by
    refine Glob.literal_append (Glob.literal_append (Glob.literal_append (by decide) ?_)
      (by decide)) hpath.literal
    exact Glob.literal_toString _
  rw [RedisSubData.matches, hone, if_neg (by decide), hhead, Glob.globMatch_literal hliteral,
    keyspaceChannel, keyspaceChannel]
  exact String.append_right_inj _

theorem WholeTable.watches_iff (hpath : WholeTable client tblPath) :
    tblPath.Watches dbkey ↔ ∃ key, dbkey = tblPath.dbKey key := by
  rw [Watches, if_pos hpath.tableKey]

theorem SingleKey.watches_iff (hpath : SingleKey client tblPath) :
    tblPath.Watches dbkey ↔ dbkey = tblPath.dbKey tblPath.tableKey := by
  rw [Watches, if_neg hpath.tableKey]

/-- A subscription to a whole table or to one key. -/
def Sampled (client : TableClient) (tblPath : TablePath) : Prop :=
  WholeTable client tblPath ∨ SingleKey client tblPath

theorem Sampled.matches_iff (hpath : Sampled client tblPath) :
    tblPath.subData.matches (keyspaceChannel (targetValue tblPath.dbName) dbkey) = true ↔
      tblPath.Watches dbkey := by
  rcases hpath with hpath | hpath
  all_goals rw [hpath.matches_iff, hpath.watches_iff]

theorem Sampled.encode (hpath : Sampled client tblPath) (msi : Msi) :
    client.encode msi = .ok (.jsonIetf msi) := by
  have hencoding : ∀ encoding, client = .mixed encoding → encoding = .jsonIetf :=
    hpath.elim (·.encoding) (·.encoding)
  cases client with
  | db => rfl
  | mixed encoding =>
    rw [hencoding encoding rfl]
    rfl

/-- What is sent at a tick in sync is what a read gives. -/
theorem Sampled.current_iff (hpath : Sampled client tblPath) (db : Db) (msi : Msi) :
    Sample.Current client tblPath ⟨db, .jsonIetf msi⟩ ↔
      ∀ order, client.read order db tblPath false ∅ = .ok msi := by
  refine forall_congr' fun order => ?_
  constructor
  · rintro ⟨found, hread, hencode⟩
    rw [hpath.encode found] at hencode
    cases hencode
    exact hread
  · intro hread
    exact ⟨msi, hread, hpath.encode msi⟩

end Reading

end SonicGnmi.Sdc
