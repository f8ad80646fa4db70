import SonicGnmi.Sdc.SampleStream

/-!
# When a sampled table is current

* `WholeTable.sync_hset_iff`, `WholeTable.sync_removal_iff`,
  `SingleKey.sync_hset_iff`, `SingleKey.sync_removal_iff` — one notified command;
* `Sampled.step_inSync_iff` — from a state in sync, one command keeps it exactly when
  it is a `FineWrite`;
* `samples_current_iff` — all ticks of all runs send what the reader returns at that
  moment exactly when every command is fine.

An `HSET` is always merged correctly, even where the listener suppresses a message
that it has sent before.  A removal is not: a removed key stays as an empty object,
fields that remain after an `HDEL` are dropped with the others, and for a
subscription to one key a removal sends nothing at all.
-/

namespace SonicGnmi.Sdc

open Foundation Gnmi Grpc Finmap List Redis SampleInput SampleStream TableClient

/-! ## One input -/

/-- A loop in sync whose listener remembers a part of the table. -/
structure SampleStream.Good (client : TableClient) (tblPath : TablePath) (st : SampleStream) :
    Prop where
  fault : st.fault = none
  listening : st.listenerFault = none
  remembered : ∀ name value, st.msi.lookup name = some value →
    st.msiAll.lookup name = some value
  inSync : st.InSync client tblPath

/-- The commands that keep the table of the loop in sync.  A hash that is set must
be rendered alike from every reply; a removal must leave the hash of a table as it
is, and of a single key what is rendered. -/
def TableClient.FineWrite (client : TableClient) (tblPath : TablePath) (db : Redis.Db)
    (command : Redis.Command) : Prop :=
  tblPath.Watches command.key →
    match command with
    | .hset key _ => client.Unclashing ((db.exec command).hash key)
    | _ =>
      if tblPath.tableKey = "" then
        (db.exec command).hash command.key = db.hash command.key
      else
        ∀ order, client.render order ((db.exec command).hash command.key) =
          client.render order (db.hash command.key)

section Steps

variable {client : TableClient} {tblPath : TablePath}

theorem SampleStream.receive_frame (client : TableClient) (rsd : RedisSubData)
    (order : ReplyOrder) (st : SampleStream) (message : Message) :
    let after := st.receive client rsd order message
    after.db = st.db ∧ after.fault = st.fault ∧ after.samples = st.samples := by
  unfold receive
  split
  · exact ⟨rfl, rfl, rfl⟩
  · split <;> exact ⟨rfl, rfl, rfl⟩

theorem SampleStream.foldl_receive_frame (rsd : RedisSubData) (order : ReplyOrder)
    (st : SampleStream) (messages : List Message) :
    let after := messages.foldl (receive client rsd order) st
    after.db = st.db ∧ after.fault = st.fault ∧ after.samples = st.samples := by
  induction messages generalizing st with
  | nil => exact ⟨rfl, rfl, rfl⟩
  | cons message rest ih =>
    have hrest := ih (st.receive client rsd order message)
    rwa [(st.receive_frame client rsd order message).1,
      (st.receive_frame client rsd order message).2.1,
      (st.receive_frame client rsd order message).2.2] at hrest

variable {st : SampleStream} {command : Redis.Command} {db : Redis.Db} {key dbkey : String}
  {fields : Redis.Hash}

/-- The message of an `HSET` is merged, also when it is suppressed: what the
listener remembers is in the table already. -/
theorem SampleStream.receive_update {rsd : RedisSubData} {order : ReplyOrder} {message : Message}
    {newMsi : Msi} (hfault : st.fault = none) (hlistening : st.listenerFault = none)
    (hremembered : ∀ name value, st.msi.lookup name = some value →
      st.msiAll.lookup name = some value)
    (hsingle : client.dbSingleTableKeySubscribe order st.db rsd message st.msi =
      if newMsi = st.msi then .ok (none, st.msi)
      else .ok (if newMsi = ∅ then none else some newMsi, newMsi)) :
    st.receive client rsd order message =
      { st with msi := newMsi, msiAll := newMsi ∪ st.msiAll } := by
  rw [receive, if_neg (by simp [hfault, hlistening]), hsingle]
  by_cases hsame : newMsi = st.msi
  · subst hsame
    rw [if_pos rfl, union_eq_of_le st.msi st.msiAll hremembered]
  rw [if_neg hsame]
  by_cases hempty : newMsi = ∅
  · subst hempty
    rw [if_pos rfl, empty_union]
  · rw [if_neg hempty]

theorem SampleStream.Good.merged (hgood : st.Good client tblPath) (newMsi : Msi)
    (hsync : InSync client tblPath { st with db := db, msi := newMsi, msiAll := newMsi ∪ st.msiAll }) :
    Good client tblPath { st with db := db, msi := newMsi, msiAll := newMsi ∪ st.msiAll } := by
  refine ⟨hgood.fault, hgood.listening, fun name value hlookup => ?_, hsync⟩
  rw [lookup_union, hlookup, Option.some_or]

theorem Sampled.good_of_hash_eq (hpath : Sampled client tblPath)
    (hgood : st.Good client tblPath)
    (hhash : ∀ dbkey, tblPath.Watches dbkey → db.hash dbkey = st.db.hash dbkey) :
    Good client tblPath { st with db := db } := by
  refine ⟨hgood.fault, hgood.listening, hgood.remembered, ?_⟩
  have hsync := hgood.inSync
  rcases hpath with hpath | hpath <;> rw [hpath.inSync_iff] at hsync ⊢
  · intro order key
    rw [hhash _ ((hpath.watches_iff _).2 ⟨key, rfl⟩)]
    exact hsync order key
  · intro order name
    rw [hhash _ ((hpath.watches_iff _).2 rfl)]
    exact hsync order name

theorem Sampled.step_outside (hpath : Sampled client tblPath) (updateOnly : Bool)
    (st : SampleStream) (order : ReplyOrder) (hkey : ¬ tblPath.Watches command.key) :
    st.step client tblPath updateOnly (.write command order) =
      { st with db := st.db.exec command } := by
  have hmatch := Bool.eq_false_iff.2 (mt (hpath.matches_iff _).1 hkey)
  simp only [step, filter_map, Function.comp_def, hmatch, filter_false, map_nil, foldl_nil]

theorem Sampled.step_inside (hpath : Sampled client tblPath) (updateOnly : Bool)
    (st : SampleStream) (order : ReplyOrder) (hkey : tblPath.Watches command.key) :
    st.step client tblPath updateOnly (.write command order) =
      ((st.db.events command).map (Redis.Message.mk
          (keyspaceChannel (targetValue tblPath.dbName) command.key))).foldl
        (receive client tblPath.subData order)
        { st with db := st.db.exec command } := by
  have hmatch := (hpath.matches_iff _).2 hkey
  simp only [step, filter_map, Function.comp_def, hmatch, filter_true]

theorem SampleStream.step_frame (client : TableClient) (tblPath : TablePath)
    (updateOnly : Bool) (st : SampleStream) (command : Command) (order : ReplyOrder) :
    let after := st.step client tblPath updateOnly (.write command order)
    after.db = st.db.exec command ∧ after.fault = st.fault ∧ after.samples = st.samples :=
  foldl_receive_frame _ _ _ _

/-! ### A whole table -/

theorem TableClient.row_of_ne (client : TableClient) (order : ReplyOrder) {h : Hash} (hne : h ≠ ∅) :
    client.row order h = some (.object (client.render order h)) :=
  if_neg hne

/-- Merging the message of an `HSET` sets the row of its key. -/
theorem WholeTable.exists_update (hpath : WholeTable client tblPath)
    (hsync : st.InSync client tblPath) (order : ReplyOrder)
    (hhash : db.hash (tblPath.dbKey key) ≠ ∅) (hothers : ∀ other, other ≠ key →
      db.hash (tblPath.dbKey other) = st.db.hash (tblPath.dbKey other)) :
    ∃ newMsi, client.read order db { tblPath with tableKey := key } true ∅ = .ok newMsi ∧
      ∀ other, (newMsi ∪ st.msiAll).lookup other =
        if other = key then client.row order (db.hash (tblPath.dbKey key))
        else st.msiAll.lookup other := by
  rw [hpath.inSync_iff] at hsync
  by_cases hkey : key = ""
  · -- the key with the empty name makes the reader list the whole table
    subst hkey
    obtain ⟨newMsi, hread, hlookup⟩ := hpath.read_rows order db true
    refine ⟨newMsi, hread, fun other => ?_⟩
    have hrow : newMsi.lookup other = client.row order (db.hash (tblPath.dbKey other)) :=
      hlookup other
    rw [lookup_union, hrow]
    split_ifs with hother
    · rw [hother, client.row_of_ne order hhash, Option.some_or]
    · rw [hothers other hother, ← hsync order other, Option.or_self]
  · refine ⟨_, hpath.read_key order db hkey, fun other => ?_⟩
    rw [lookup_union, setMessage]
    split_ifs with hother
    · rw [hother, lookup_insert, client.row_of_ne order hhash, Option.some_or]
    · rw [lookup_insert_of_ne _ hother, lookup_empty, Option.none_or]

theorem Sampled.step_hset (hpath : Sampled client tblPath) (updateOnly : Bool) (st : SampleStream)
    (hfields : fields ≠ ∅) (order : ReplyOrder) (hkey : tblPath.Watches dbkey) :
    st.step client tblPath updateOnly (.write (.hset dbkey fields) order) =
      receive client tblPath.subData order
        { st with db := st.db.hset dbkey fields }
        ⟨keyspaceChannel (targetValue tblPath.dbName) dbkey, "hset"⟩ := by
  have hevents : st.db.events (.hset dbkey fields) = ["hset"] := if_neg hfields
  refine (hpath.step_inside updateOnly st order
    (show tblPath.Watches (Command.hset dbkey fields).key from hkey)).trans ?_
  rw [hevents]
  rfl

/-- An `HSET` keeps a table in sync when the new hash is rendered alike from every
reply. -/
theorem WholeTable.sync_hset_iff (hpath : WholeTable client tblPath) (updateOnly : Bool)
    (hgood : st.Good client tblPath) (hkey : dbkey = tblPath.dbKey key) (hfields : fields ≠ ∅)
    (order : ReplyOrder) :
    let after := st.step client tblPath updateOnly (.write (.hset dbkey fields) order)
    (after.InSync client tblPath ↔ client.Unclashing ((st.db.hset dbkey fields).hash dbkey)) ∧
      (after.InSync client tblPath → after.Good client tblPath) := by
  intro after
  have hhash : (st.db.hset dbkey fields).hash dbkey ≠ ∅ := by
    rw [st.db.hash_hset, if_pos rfl]
    exact union_ne_empty fields _ hfields
  have hothers : ∀ other, other ≠ key → (st.db.hset dbkey fields).hash (tblPath.dbKey other) =
      st.db.hash (tblPath.dbKey other) := by
    intro other hother
    rw [st.db.hash_hset, if_neg]
    rw [hkey]
    exact fun heq => hother ((String.append_right_inj _).1 heq)
  have hwatch := (hpath.watches_iff dbkey).2 ⟨key, hkey⟩
  subst hkey
  obtain ⟨newMsi, hread, hmerged⟩ := hpath.exists_update hgood.inSync order hhash hothers
  have hafter : after =
      { st with
        db := st.db.hset (tblPath.dbKey key) fields
        msi := newMsi
        msiAll := newMsi ∪ st.msiAll } := by
    refine (Sampled.step_hset (.inl hpath) updateOnly st hfields order hwatch).trans ?_
    exact receive_update hgood.fault hgood.listening hgood.remembered
      (hpath.single_hset _ hread)
  rw [hafter]
  refine ⟨?_, hgood.merged newMsi⟩
  rw [hpath.inSync_iff, ← client.render_eq_iff _ order]
  constructor
  · intro hrows order'
    have hrow := hrows order' key
    rw [hmerged key, if_pos rfl, client.row_of_ne order hhash,
      client.row_of_ne order' hhash, Option.some.injEq, MsiValue.object.injEq] at hrow
    exact hrow.symm
  · intro hsame order' other
    rw [hmerged other]
    by_cases hother : other = key
    · subst hother
      rw [if_pos rfl, client.row_of_ne order hhash, client.row_of_ne order' hhash, hsame order']
    · rw [if_neg hother, hothers other hother]
      exact (hpath.inSync_iff st).1 hgood.inSync order' other

/-- No row of a table looks like what is merged for a deleted key. -/
theorem TableClient.exists_deletion_ne_row (client : TableClient) (key : String) :
    ∃ name value, (client.deletion key).lookup name = some value ∧
      ∀ order h, client.row order h ≠ some value := by
  cases client with
  | db =>
    refine ⟨key, .object ∅, lookup_insert _, fun order h => ?_⟩
    by_cases hempty : h = ∅
    · rw [row, if_pos hempty]
      simp
    rw [row_of_ne _ _ hempty]
    intro heq
    have hrender : render .db order h = ∅ := MsiValue.object.inj (Option.some.inj heq)
    have hshows := renderFields_db_shows order h
    rw [show renderFields dbLeaf (order.fields h) = ∅ from hrender] at hshows
    exact hempty (MsiObject.shows_empty_iff.1 hshows)
  | mixed encoding =>
    refine ⟨"delete", .leaf (.text "null_value"), lookup_insert _, fun order h => ?_⟩
    rw [row]
    split <;> simp

theorem WholeTable.receive_deletions (hpath : WholeTable client tblPath) (order : ReplyOrder)
    (key : String) (payloads : List String)
    (hpayloads : ∀ payload ∈ payloads, payload = "del" ∨ payload = "hdel") (hsome : payloads ≠ [])
    (st : SampleStream) (hfault : st.fault = none) (hlistening : st.listenerFault = none)
    {name : String} {value : MsiValue} (hlookup : (client.deletion key).lookup name = some value) :
    ((payloads.map (tblPath.message key)).foldl
      (receive client tblPath.subData order) st).msiAll.lookup name = some value := by
  induction payloads generalizing st with
  | nil => exact absurd rfl hsome
  | cons payload rest ih =>
    have hfirst : st.receive client tblPath.subData order (tblPath.message key payload) =
        { st with msiAll := client.deletion key ∪ st.msiAll } := by
      rw [receive, if_neg (by simp [hfault, hlistening]),
        hpath.single_deletion order st.db st.msi key (hpayloads payload mem_cons_self)]
    rw [map_cons, foldl_cons, hfirst]
    by_cases hrest : rest = []
    · subst hrest
      rw [map_nil, foldl_nil, lookup_union, hlookup, Option.some_or]
    · exact ih (fun other hother => hpayloads other (mem_cons_of_mem _ hother)) hrest
        _ hfault hlistening

/-- A removal keeps a table in sync only when it removes nothing. -/
theorem WholeTable.sync_removal_iff (hpath : WholeTable client tblPath) (updateOnly : Bool)
    (hgood : st.Good client tblPath) (hkey : command.key = tblPath.dbKey key)
    (hremoval : ∀ dbkey fields, command ≠ .hset dbkey fields) (order : ReplyOrder) :
    let after := st.step client tblPath updateOnly (.write command order)
    (after.InSync client tblPath ↔ (st.db.exec command).hash command.key = st.db.hash command.key) ∧
      (after.InSync client tblPath → after.Good client tblPath) := by
  intro after
  have hwatch := (hpath.watches_iff command.key).2 ⟨key, hkey⟩
  have hstep : after = ((st.db.events command).map (tblPath.message key)).foldl
      (receive client tblPath.subData order)
      { st with db := st.db.exec command } := by
    refine (Sampled.step_inside (.inl hpath) updateOnly st order hwatch).trans ?_
    rw [hkey]
    rfl
  by_cases hsame : (st.db.exec command).hash command.key = st.db.hash command.key
  · have hnext : after.Good client tblPath := by
      rw [hstep, (st.db.events_eq_nil_iff hremoval).2 hsame]
      refine Sampled.good_of_hash_eq (.inl hpath) hgood fun other _ => ?_
      by_cases hother : other = command.key
      · rw [hother, hsame]
      · exact st.db.hash_exec_of_ne hother
    exact ⟨iff_of_true hnext.inSync hsame, fun _ => hnext⟩
  · have hevents : st.db.events command ≠ [] := fun h =>
      hsame ((st.db.events_eq_nil_iff hremoval).1 h)
    have hnot : ¬ after.InSync client tblPath := by
      intro hsync
      obtain ⟨name, value, hlookup, hrow⟩ := client.exists_deletion_ne_row key
      have hentry := hpath.receive_deletions order key (st.db.events command)
        (fun payload hmem => st.db.mem_events hremoval hmem) hevents
        { st with db := st.db.exec command } hgood.fault hgood.listening hlookup
      rw [← hstep, (hpath.inSync_iff after).1 hsync .sorted name] at hentry
      exact hrow _ _ hentry
    exact ⟨iff_of_false hnot hsame, fun hsync => absurd hsync hnot⟩

/-! ### One key -/

section

variable (hpath : SingleKey client tblPath)
include hpath

theorem SingleKey.single_hset (order : ReplyOrder) (db : Db) (msi : Msi) (channel : String)
    {newMsi : Msi} (hread : client.read order db tblPath false ∅ = .ok newMsi) :
    client.dbSingleTableKeySubscribe order db tblPath.subData ⟨channel, "hset"⟩ msi =
      if newMsi = msi then .ok (none, msi)
      else .ok (if newMsi = ∅ then none else some newMsi, newMsi) := by
  have htable : tblPath.subData.tblPath = tblPath := rfl
  simp only [dbSingleTableKeySubscribe, singleTableKeySubscribe, htable]
  rw [if_neg (by decide), if_pos trivial, if_neg (fun h => hpath.tableKey h.1),
    if_pos hpath.tableKey, hread]

theorem SingleKey.receive_removals
    (order : ReplyOrder) (st : SampleStream) (channel : String) (payloads : List String)
    (hpayloads : ∀ payload ∈ payloads, payload = "del" ∨ payload = "hdel") :
    (payloads.map (Redis.Message.mk channel)).foldl
      (receive client tblPath.subData order) st = st := by
  have htable : tblPath.subData.tblPath = tblPath := rfl
  induction payloads with
  | nil => rfl
  | cons payload rest ih =>
    obtain ⟨hpayload, hrest⟩ := forall_mem_cons.1 hpayloads
    have hsingle : client.dbSingleTableKeySubscribe order st.db tblPath.subData
        ⟨channel, payload⟩ st.msi = .ok (none, st.msi) := by
      simp only [dbSingleTableKeySubscribe, singleTableKeySubscribe, htable]
      rw [if_pos hpayload, if_pos (.inl hpath.tableKey)]
    have hfirst : st.receive client tblPath.subData order ⟨channel, payload⟩ = st := by
      rw [receive, hsingle]
      split <;> rfl
    rw [map_cons, foldl_cons, hfirst]
    exact ih hrest

/-- An `HSET` keeps a key in sync when the new hash is rendered alike from every
reply. -/
theorem SingleKey.sync_hset_iff (updateOnly : Bool)
    (hgood : st.Good client tblPath) (hfields : fields ≠ ∅) (order : ReplyOrder) :
    let dbkey := tblPath.dbKey tblPath.tableKey
    let after := st.step client tblPath updateOnly (.write (.hset dbkey fields) order)
    (after.InSync client tblPath ↔ client.Unclashing ((st.db.hset dbkey fields).hash dbkey)) ∧
      (after.InSync client tblPath → after.Good client tblPath) := by
  intro dbkey after
  have hread := hpath.read_eq order (st.db.hset dbkey fields)
  have hnew := lookup_makeJson_none client.leafOf
    (order.fields ((st.db.hset dbkey fields).hash dbkey))
  generalize makeJson client.leafOf ∅ none
    (order.fields ((st.db.hset dbkey fields).hash dbkey)) = newMsi at hread hnew
  -- the fields only become more, so the new message has all names of the table
  have hmerged : newMsi ∪ st.msiAll = newMsi := by
    refine union_eq_left _ _ fun name hmem => ?_
    rw [← lookup_isSome, (hpath.inSync_iff st).1 hgood.inSync order name,
      Option.isSome_map, lookup_isSome] at hmem
    rw [← lookup_isSome, hnew name, Option.isSome_map, lookup_isSome]
    refine client.mem_render_mono order order (fun field hfield => ?_) hmem
    rw [st.db.hash_hset, if_pos rfl]
    exact mem_union.2 (.inr hfield)
  have hafter : after =
      { st with db := st.db.hset dbkey fields, msi := newMsi, msiAll := newMsi ∪ st.msiAll } := by
    have hwatch := (hpath.watches_iff dbkey).2 rfl
    refine (Sampled.step_hset (.inr hpath) updateOnly st hfields order hwatch).trans ?_
    exact receive_update hgood.fault hgood.listening hgood.remembered
      (hpath.single_hset order _ _ _ hread)
  rw [hafter]
  refine ⟨?_, hgood.merged newMsi⟩
  rw [hpath.inSync_iff, ← client.render_eq_iff _ order]
  simp only [hmerged, hnew]
  refine forall_congr' fun order' => ?_
  exact (lookup_leaf_eq_iff _ _).trans eq_comm

/-- A removal keeps a key in sync when it leaves what is rendered. -/
theorem SingleKey.sync_removal_iff (updateOnly : Bool)
    (hgood : st.Good client tblPath) (hkey : command.key = tblPath.dbKey tblPath.tableKey)
    (hremoval : ∀ dbkey fields, command ≠ .hset dbkey fields) (order : ReplyOrder) :
    let after := st.step client tblPath updateOnly (.write command order)
    (after.InSync client tblPath ↔
        ∀ order', client.render order' ((st.db.exec command).hash command.key) =
          client.render order' (st.db.hash command.key)) ∧
      (after.InSync client tblPath → after.Good client tblPath) := by
  intro after
  have hafter : after = { st with db := st.db.exec command } := by
    have hwatch := (hpath.watches_iff command.key).2 hkey
    refine (Sampled.step_inside (.inr hpath) updateOnly st order hwatch).trans ?_
    exact hpath.receive_removals order _ _ _ fun payload hmem =>
      st.db.mem_events hremoval hmem
  rw [hafter]
  refine ⟨?_, fun hsync => ⟨hgood.fault, hgood.listening, hgood.remembered, hsync⟩⟩
  rw [hpath.inSync_iff, hkey]
  refine forall_congr' fun order' => ?_
  simp only [(hpath.inSync_iff st).1 hgood.inSync order']
  exact (lookup_leaf_eq_iff _ _).trans eq_comm

end

/-! ### Either subscription -/

theorem TableClient.row_eq_iff (client : TableClient) (h : Hash) (order : ReplyOrder) :
    (∀ order', client.row order' h = client.row order h) ↔ client.Unclashing h := by
  by_cases hempty : h = ∅
  · subst hempty
    refine iff_of_true (fun order' => rfl) ?_
    cases client with
    | db => trivial
    | mixed encoding => exact fun field hfield => absurd hfield (by simp)
  · simp only [client.row_of_ne _ hempty, Option.some.injEq, MsiValue.object.injEq]
    exact client.render_eq_iff h order

section

variable (hpath : Sampled client tblPath)
include hpath

theorem Sampled.unclashing_of_inSync (hsync : st.InSync client tblPath)
    (hwatch : tblPath.Watches dbkey) : client.Unclashing (st.db.hash dbkey) := by
  rcases hpath with hpath | hpath
  · obtain ⟨key, rfl⟩ := (hpath.watches_iff dbkey).1 hwatch
    rw [hpath.inSync_iff] at hsync
    refine (client.row_eq_iff _ .sorted).1 fun order => ?_
    rw [← hsync order key, ← hsync .sorted key]
  · rw [(hpath.watches_iff dbkey).1 hwatch]
    rw [hpath.inSync_iff] at hsync
    refine (client.render_eq_iff _ .sorted).1 fun order => ?_
    refine (lookup_leaf_eq_iff _ _).1 fun name => ?_
    rw [← hsync order name, ← hsync .sorted name]

/-- One command keeps the loop in sync exactly when it is fine. -/
theorem Sampled.step_inSync_iff (updateOnly : Bool)
    (hgood : st.Good client tblPath) (command : Command) (order : ReplyOrder) :
    let after := st.step client tblPath updateOnly (.write command order)
    (after.InSync client tblPath ↔ client.FineWrite tblPath st.db command) ∧
      (after.InSync client tblPath → after.Good client tblPath) := by
  intro after
  by_cases hwatch : tblPath.Watches command.key
  · have hremove : (∀ dbkey fields, command ≠ .hset dbkey fields) → (after.InSync client tblPath ↔
            if tblPath.tableKey = "" then
              (st.db.exec command).hash command.key = st.db.hash command.key
            else
              ∀ order', client.render order' ((st.db.exec command).hash command.key) =
                client.render order' (st.db.hash command.key)) ∧
          (after.InSync client tblPath → after.Good client tblPath) := by
      intro hremoval
      rcases hpath with hpath | hpath
      · obtain ⟨key, hkey⟩ := (hpath.watches_iff _).1 hwatch
        rw [if_pos hpath.tableKey]
        exact hpath.sync_removal_iff updateOnly hgood hkey hremoval order
      · rw [if_neg hpath.tableKey]
        exact hpath.sync_removal_iff updateOnly hgood ((hpath.watches_iff _).1 hwatch) hremoval order
    cases command with
    | hset dbkey fields =>
      by_cases hfields : fields = ∅
      · -- refused by Redis
        subst hfields
        have hafter : after = { st with db := st.db.hset dbkey ∅ } :=
          hpath.step_inside updateOnly st order hwatch
        have hnext := hpath.good_of_hash_eq hgood fun other _ => st.db.hash_hset_empty dbkey other
        rw [← hafter] at hnext
        refine ⟨iff_of_true hnext.inSync fun _ => ?_, fun _ => hnext⟩
        change client.Unclashing ((st.db.hset dbkey ∅).hash dbkey)
        rw [st.db.hash_hset_empty]
        exact hpath.unclashing_of_inSync hgood.inSync hwatch
      · have hset : (after.InSync client tblPath ↔
              client.Unclashing ((st.db.hset dbkey fields).hash dbkey)) ∧
            (after.InSync client tblPath → after.Good client tblPath) := by
          rcases hpath with hpath | hpath
          · obtain ⟨key, hkey⟩ := (hpath.watches_iff dbkey).1 hwatch
            exact hpath.sync_hset_iff updateOnly hgood hkey hfields order
          · obtain rfl := (hpath.watches_iff dbkey).1 hwatch
            exact hpath.sync_hset_iff updateOnly hgood hfields order
        exact ⟨hset.1.trans (imp_iff_right hwatch).symm, hset.2⟩
    | hdel dbkey fields | del dbkey =>
      obtain ⟨hiff, hnext⟩ := hremove (by simp)
      exact ⟨hiff.trans (imp_iff_right hwatch).symm, hnext⟩
  · have hnext : after.Good client tblPath := by
      rw [show after = _ from hpath.step_outside updateOnly st order hwatch]
      refine hpath.good_of_hash_eq hgood fun dbkey hdbkey => ?_
      exact st.db.hash_exec_of_ne fun heq => hwatch (heq ▸ hdbkey)
    exact ⟨iff_of_true hnext.inSync fun h => absurd h hwatch, fun _ => hnext⟩

theorem Sampled.step_tick (hfault : st.fault = none) :
    st.step client tblPath false .tick =
      { st with samples := st.samples ++ [⟨st.db, .jsonIetf st.msiAll⟩] } := by
  rw [SampleStream.step, SampleStream.tick, if_neg (by simp [hfault]), hpath.encode]
  rfl

/-- The table that is read before the loop is in sync when it does not depend on the
order of the reply. -/
theorem Sampled.start (order : ReplyOrder) (db : Db) :
    let start := client.sampleSubscribe tblPath false order db
    start.db = db ∧ start.fault = none ∧ start.samples = [] ∧ (start.InSync client tblPath ↔
        ∀ dbkey, tblPath.Watches dbkey → client.Unclashing (db.hash dbkey)) ∧
      (start.InSync client tblPath → start.Good client tblPath) := by
  intro start
  have hstart : ∃ msiAll, client.read order db tblPath false ∅ = .ok msiAll ∧
      start = { db := db, msiAll := msiAll, initial := some (.jsonIetf msiAll) } := by
    have hread : ∃ msiAll, client.read order db tblPath false ∅ = .ok msiAll := by
      rcases hpath with hpath | hpath
      · obtain ⟨snapshot, hread, -⟩ := hpath.read_table order db
        exact ⟨snapshot, hread⟩
      · exact ⟨_, hpath.read_eq order db⟩
    obtain ⟨msiAll, hread⟩ := hread
    refine ⟨msiAll, hread, ?_⟩
    change client.sampleSubscribe tblPath false order db = _
    simp only [sampleSubscribe, hread, hpath.encode]
    rfl
  obtain ⟨msiAll, hread, hstart⟩ := hstart
  refine ⟨by rw [hstart], by rw [hstart], by rw [hstart], ?_, ?_⟩
  · constructor
    · intro hsync dbkey hwatch
      have hclash := hpath.unclashing_of_inSync hsync hwatch
      rwa [hstart] at hclash
    · intro hclash order'
      rw [hstart]
      rw [← hread]
      rcases hpath with hpath | hpath
      · rw [hread]
        refine hpath.read_iff.2 fun key => (hpath.read_iff.1 hread key).trans ?_
        exact ((client.row_eq_iff _ order).2
          (hclash _ ((hpath.watches_iff _).2 ⟨key, rfl⟩)) order').symm
      · have hwatch := (hpath.watches_iff _).2 rfl
        rw [hpath.read_eq, hpath.read_eq, Except.ok.injEq]
        refine ext_lookup fun name => ?_
        rw [lookup_makeJson_none, lookup_makeJson_none]
        exact congrArg (fun fields : MsiObject => (fields.lookup name).map MsiValue.leaf)
          ((client.render_eq_iff _ order).2 (hclash _ hwatch) order')
  · intro hsync
    rw [hstart] at hsync ⊢
    exact ⟨rfl, rfl, fun name value hlookup => by simp at hlookup, hsync⟩

end

end Steps

/-! ## Whole runs -/

/-- Every command of a run is fine in the database it meets. -/
def TableClient.AllFineWrites (client : TableClient) (tblPath : TablePath) :
    Redis.Db → List (Redis.Command × Redis.ReplyOrder) → Prop
  | _, [] => True
  | current, input :: rest =>
    client.FineWrite tblPath current input.1 ∧
      TableClient.AllFineWrites client tblPath (current.exec input.1) rest

section Runs

variable {client : TableClient} {tblPath : TablePath}

variable {st : SampleStream} (inputs : List SampleInput)

theorem Sampled.samples_mono (hpath : Sampled client tblPath)
    (hfault : st.fault = none) {sample : Sample} (hmem : sample ∈ st.samples) :
    sample ∈ (inputs.foldl (step client tblPath false) st).samples := by
  induction inputs generalizing st with
  | nil => exact hmem
  | cons input rest ih =>
    rw [foldl_cons]
    cases input with
    | write command order =>
      obtain ⟨-, hnone, hsamples⟩ := st.step_frame client tblPath false command order
      exact ih (hnone.trans hfault) (hsamples ▸ hmem)
    | tick =>
      rw [hpath.step_tick hfault]
      exact ih hfault (mem_append_left _ hmem)

theorem Sampled.current_of_allFine (hpath : Sampled client tblPath) (hgood : st.Good client tblPath)
    (hfine : client.AllFineWrites tblPath st.db (commands inputs))
    (hsamples : ∀ sample ∈ st.samples, sample.Current client tblPath) :
    ∀ sample ∈ (inputs.foldl (step client tblPath false) st).samples,
      sample.Current client tblPath := by
  induction inputs generalizing st with
  | nil => exact hsamples
  | cons input rest ih =>
    rw [foldl_cons]
    cases input with
    | write command order =>
      obtain ⟨hfirst, hrest⟩ := hfine
      obtain ⟨hiff, hnext⟩ := hpath.step_inSync_iff false hgood command order
      obtain ⟨hdb, -, hsame⟩ := st.step_frame client tblPath false command order
      refine ih (hnext (hiff.2 hfirst)) ?_ ?_
      · rw [hdb]
        exact hrest
      · rw [hsame]
        exact hsamples
    | tick =>
      rw [hpath.step_tick hgood.fault]
      refine ih ⟨hgood.fault, hgood.listening, hgood.remembered, hgood.inSync⟩ hfine ?_
      intro sample hmem
      rcases mem_append.1 hmem with hmem | hmem
      · exact hsamples sample hmem
      · cases mem_singleton.1 hmem
        exact (hpath.current_iff _ _).2 hgood.inSync

/-- A tick at the end of the first inputs shows whether the state there is in sync. -/
theorem Sampled.inSync_of_current (hpath : Sampled client tblPath) (hfault : st.fault = none)
    (later : List SampleInput) (hcurrent : ∀ sample ∈
      ((SampleInput.tick :: later).foldl (SampleStream.step client tblPath false) st).samples,
        sample.Current client tblPath) : st.InSync client tblPath := by
  rw [foldl_cons, hpath.step_tick hfault] at hcurrent
  refine (hpath.current_iff st.db st.msiAll).1 (hcurrent _ (hpath.samples_mono later ?_ ?_))
  · exact hfault
  · exact mem_append_right _ (mem_singleton.2 rfl)

/-- A run without ticks. -/
def SampleInput.writes (commands : List (Redis.Command × Redis.ReplyOrder)) : List SampleInput :=
  commands.map fun input => .write input.1 input.2

theorem SampleInput.commands_writes (commands : List (Command × ReplyOrder)) :
    SampleInput.commands (SampleInput.writes commands) = commands := by
  induction commands with
  | nil => rfl
  | cons input rest ih => exact congrArg (input :: ·) ih

theorem SampleInput.commands_tick : commands (.tick :: inputs) = commands inputs :=
  rfl

theorem SampleInput.commands_write (command : Command) (order : ReplyOrder) :
    commands (.write command order :: inputs) =
      (command, order) :: commands inputs :=
  rfl

/-- From a state in sync, only fine commands keep every tick of every interleaving
current. -/
theorem Sampled.allFine_of_current (hpath : Sampled client tblPath)
    (commands : List (Command × ReplyOrder)) (hgood : st.Good client tblPath)
    (hcurrent : ∀ inputs, SampleInput.commands inputs = commands → ∀ sample ∈
      (inputs.foldl (SampleStream.step client tblPath false) st).samples,
        sample.Current client tblPath) : client.AllFineWrites tblPath st.db commands := by
  induction commands generalizing st with
  | nil => trivial
  | cons first rest ih =>
    obtain ⟨hiff, hnext⟩ := hpath.step_inSync_iff false hgood first.1 first.2
    obtain ⟨hdb, hnone, -⟩ := st.step_frame client tblPath false first.1 first.2
    have hinputs : commands
        (.write first.1 first.2 :: .tick :: writes rest) = first :: rest := by
      rw [commands_write, commands_tick, commands_writes]
    have hsync := hpath.inSync_of_current (hnone.trans hgood.fault) (writes rest)
      (hcurrent _ hinputs)
    refine ⟨hiff.1 hsync, ?_⟩
    rw [← hdb]
    refine ih (hnext hsync) fun inputs hinputs => ?_
    refine hcurrent (.write first.1 first.2 :: inputs) ?_
    rw [commands_write, hinputs]

end Runs

/-! ## Runs on a small table -/

def portKey : TablePath := { portTable with tableKey := "Ethernet0" }

variable {client : TableClient}

/-- Set the MTU of a port, with a tick, to the same value again, with a tick, and to
another value, with a tick. -/
def setAndSample : List SampleInput :=
  [.write (.hset "PORT|Ethernet0" (Finmap.singleton "mtu" "9100")) .sorted, .tick,
    .write (.hset "PORT|Ethernet0" (Finmap.singleton "mtu" "9100")) .sorted, .tick,
    .write (.hset "PORT|Ethernet0" (Finmap.singleton "mtu" "1500")) .sorted, .tick]

def setDeleteAndSample : List SampleInput :=
  [.write (.hset "PORT|Ethernet0" (Finmap.singleton "mtu" "9100")) .sorted,
    .write (.del "PORT|Ethernet0") .sorted, .tick]

/-- Set two fields of a port and remove one of them, with a tick. -/
def removeFieldAndSample : List SampleInput :=
  SampleInput.writes setAndRemoveField ++ [.tick]

/-- Some tick of a run from the empty database is not current. -/
def TableClient.Misses (client : TableClient) (tblPath : TablePath) (inputs : List SampleInput) :
    Prop :=
  ∃ sample ∈ (client.sample tblPath false .sorted Redis.Db.empty inputs).samples,
    ¬ sample.Current client tblPath

theorem TableClient.misses_of_read {tblPath : TablePath} {inputs : List SampleInput}
    (hread : ∃ sample ∈ (client.sample tblPath false .sorted Redis.Db.empty inputs).samples,
      (client.read .sorted sample.db tblPath false ∅ >>= client.encode) ≠ .ok sample.value) :
    client.Misses tblPath inputs := by
  obtain ⟨sample, hmem, hne⟩ := hread
  refine ⟨sample, hmem, fun hcurrent => ?_⟩
  obtain ⟨msi, hread, hencode⟩ := hcurrent .sorted
  rw [hread] at hne
  exact hne hencode

end SonicGnmi.Sdc
