import Mathlib.Data.List.Sort
import Mathlib.Data.String.Basic
import SonicGnmi.Foundation.LastWrite

/-!
# Redis hashes

A database maps keys to hashes and a hash maps fields to values.  A key exists
exactly as long as its hash has a field, so the database never stores an empty
hash; `Db` carries this as an invariant.

* `hset`, `hdel`, `del` — the write commands;
* `hash` — the hash of a key, empty for an absent key;
* `hash_hset`, `hash_hdel`, `hash_del` — the effect of a command on every key;
* `ReplyOrder` — the order of the items in a reply, which Redis leaves open;
* `Command`, `Db.exec`, `Db.events` — commands with their keyspace notifications;
* `Db.content`, `content_foldl_exec` — a database as a function of key and field, and
  what a run of commands makes of it.
-/

namespace SonicGnmi.Foundation
namespace Redis

open Finmap

/-- The fields of one key. -/
abbrev Hash := Finmap fun _ : String => String

/-- A database of non-empty hashes. -/
structure Db where
  entries : Finmap fun _ : String => Hash
  nonempty : ∀ key hash, entries.lookup key = some hash → hash ≠ ∅

/-- The hash of a key; an absent key has no fields. -/
def Db.hash (db : Db) (key : String) : Hash :=
  (db.entries.lookup key).getD ∅

def Db.empty : Db where
  entries := ∅
  nonempty := by simp

/-- Replace the hash of a key; an empty hash removes the key. -/
def Db.write (db : Db) (key : String) (hash : Hash) : Db :=
  if hempty : hash = ∅ then
    { entries := db.entries.erase key
      nonempty := by
        intro other h hlookup
        by_cases hkey : other = key
        · subst hkey
          rw [Finmap.lookup_erase] at hlookup
          contradiction
        · rw [Finmap.lookup_erase_ne hkey] at hlookup
          exact db.nonempty other h hlookup }
  else
    { entries := db.entries.insert key hash
      nonempty := by
        intro other h hlookup
        by_cases hkey : other = key
        · subst hkey
          rw [Finmap.lookup_insert, Option.some.injEq] at hlookup
          exact hlookup ▸ hempty
        · rw [Finmap.lookup_insert_of_ne _ hkey] at hlookup
          exact db.nonempty other h hlookup }

/-- `HSET key field value ...`: the fields are merged into the hash. -/
def Db.hset (db : Db) (key : String) (fields : Hash) : Db :=
  db.write key (fields ∪ db.hash key)

/-- `HDEL key field ...`. -/
def Db.hdel (db : Db) (key : String) (fields : List String) : Db :=
  db.write key (fields.foldl (fun h f => h.erase f) (db.hash key))

/-- `DEL key`. -/
def Db.del (db : Db) (key : String) : Db :=
  db.write key ∅

variable (db : Db)

theorem Db.hash_write (key other : String) (h : Hash) :
    (db.write key h).hash other = if other = key then h else db.hash other := by
  unfold Db.write
  by_cases hkey : other = key
  · subst hkey
    split
    · rename_i hempty
      simp [Db.hash, hempty]
    · simp [Db.hash]
  · rw [if_neg hkey]
    split
    · simp [Db.hash, lookup_erase_ne hkey]
    · simp [Db.hash, lookup_insert_of_ne _ hkey]

@[simp] theorem Db.hash_hset (key other : String) (fields : Hash) :
    (db.hset key fields).hash other =
      if other = key then fields ∪ db.hash key else db.hash other :=
  db.hash_write key other _

theorem Db.hash_hset_empty (key other : String) : (db.hset key ∅).hash other = db.hash other := by
  rw [db.hash_hset]
  split
  · rename_i heq
    rw [heq, empty_union]
  · rfl

def Db.single (key field value : String) : Db :=
  Db.empty.hset key (Finmap.singleton field value)

theorem Db.hash_single (key field value other : String) : (Db.single key field value).hash other =
      if other = key then singleton field value else ∅ := by
  rw [Db.single, Db.hash_hset]
  split
  · exact union_empty
  · rfl

theorem Db.hash_single_ne_empty_iff (key field value other : String) :
    (Db.single key field value).hash other ≠ ∅ ↔ other = key := by
  rw [Db.hash_single]
  split <;> rename_i hkey
  · refine iff_of_true (fun hempty => ?_) hkey
    have hmem : field ∈ (singleton field value : Hash) := (mem_singleton _ _ _).2 rfl
    rw [hempty] at hmem
    exact notMem_empty hmem
  · exact iff_of_false (fun hne => hne rfl) hkey

@[simp] theorem Db.hash_hdel (key other : String) (fields : List String) :
    (db.hdel key fields).hash other =
      if other = key then fields.foldl (fun h f => h.erase f) (db.hash key)
      else db.hash other :=
  db.hash_write key other _

@[simp] theorem Db.hash_del (key other : String) :
    (db.del key).hash other = if other = key then ∅ else db.hash other :=
  db.hash_write key other ∅

theorem Db.lookup_entries (key : String) :
    db.entries.lookup key = if db.hash key = ∅ then none else some (db.hash key) := by
  rcases hlookup : db.entries.lookup key with _ | h
  · simp [Db.hash, hlookup]
  · simp [Db.hash, hlookup, db.nonempty key h hlookup]

theorem Db.mem_entries (key : String) : key ∈ db.entries ↔ db.hash key ≠ ∅ := by
  rw [← lookup_isSome, db.lookup_entries]
  split <;> simp [*]

/-! ## The order of replies -/

/-- The orders in which keys are listed and the fields of a reply are visited.
A result about a reader has to hold for all of them. -/
structure ReplyOrder where
  keys : Db → List String
  fields : Hash → List (String × String)
  mem_keys : ∀ db key, key ∈ keys db ↔ db.hash key ≠ ∅
  nodup_keys : ∀ db, (keys db).Nodup
  mem_fields : ∀ h field value, (field, value) ∈ fields h ↔ h.lookup field = some value
  nodup_fields : ∀ h, ((fields h).map Prod.fst).Nodup

/-- The members of a finite set of strings in increasing order. -/
def sortedMembers (s : Finset String) : List String :=
  Quot.liftOn s.val (List.insertionSort (· ≤ ·)) fun first second hperm => by
    refine List.Perm.eq_of_pairwise (fun a b _ _ => le_antisymm)
      (List.pairwise_insertionSort _ first) (List.pairwise_insertionSort _ second) ?_
    exact ((List.perm_insertionSort _ first).trans hperm).trans
      (List.perm_insertionSort _ second).symm

theorem coe_sortedMembers (s : Finset String) : (sortedMembers s : Multiset String) = s.val := by
  obtain ⟨members, hnodup⟩ := s
  induction members using Quot.inductionOn with
  | h members => exact Quot.sound (List.perm_insertionSort _ members)

@[simp] theorem mem_sortedMembers {s : Finset String} {x : String} :
    x ∈ sortedMembers s ↔ x ∈ s := by
  rw [← Multiset.mem_coe, coe_sortedMembers, Finset.mem_val]

theorem nodup_sortedMembers (s : Finset String) : (sortedMembers s).Nodup := by
  rw [← Multiset.coe_nodup, coe_sortedMembers]
  exact s.nodup

/-- Replies in increasing order. -/
def ReplyOrder.sorted : ReplyOrder where
  keys := fun db => sortedMembers db.entries.keys
  fields := fun h =>
    (sortedMembers h.keys).map fun field => (field, (h.lookup field).getD "")
  mem_keys := fun db key => by
    rw [mem_sortedMembers, Finmap.mem_keys, db.mem_entries]
  nodup_keys := fun db => nodup_sortedMembers _
  mem_fields := fun h field value => by
    rw [List.mem_map]
    constructor
    · rintro ⟨other, hmem, heq⟩
      rw [mem_sortedMembers, Finmap.mem_keys, Finmap.mem_iff] at hmem
      obtain ⟨stored, hlookup⟩ := hmem
      cases heq
      simp [hlookup]
    · intro hlookup
      refine ⟨field, ?_, by simp [hlookup]⟩
      rw [mem_sortedMembers, Finmap.mem_keys, Finmap.mem_iff]
      exact ⟨value, hlookup⟩
  nodup_fields := fun h => by
    rw [List.map_map]
    exact (nodup_sortedMembers h.keys).map fun _ _ heq => heq

/-- The sorted order, with one field at the end. -/
def ReplyOrder.endingIn (field : String) : ReplyOrder where
  keys := ReplyOrder.sorted.keys
  fields := fun h =>
    match h.lookup field with
    | none => ReplyOrder.sorted.fields h
    | some value => ReplyOrder.sorted.fields (h.erase field) ++ [(field, value)]
  mem_keys := ReplyOrder.sorted.mem_keys
  nodup_keys := ReplyOrder.sorted.nodup_keys
  mem_fields := fun h other value => by
    split
    · exact ReplyOrder.sorted.mem_fields h other value
    rename_i stored hlookup
    rw [List.mem_append, ReplyOrder.sorted.mem_fields, List.mem_singleton, Prod.mk.injEq]
    by_cases hother : other = field
    · subst hother
      simp [hlookup, eq_comm]
    · simp [hother, Finmap.lookup_erase_ne hother]
  nodup_fields := fun h => by
    split
    · exact ReplyOrder.sorted.nodup_fields h
    rw [List.map_append, List.nodup_append]
    refine ⟨ReplyOrder.sorted.nodup_fields _, List.nodup_singleton _, ?_⟩
    rintro other hother last hlast rfl
    obtain ⟨⟨found, value⟩, hmem, rfl⟩ := List.mem_map.1 hother
    rw [ReplyOrder.sorted.mem_fields] at hmem
    cases List.mem_singleton.1 hlast
    rw [Finmap.lookup_erase] at hmem
    cases hmem

theorem ReplyOrder.fields_endingIn {h : Hash} {field value : String}
    (hlookup : h.lookup field = some value) :
    ∃ rest, (ReplyOrder.endingIn field).fields h = rest ++ [(field, value)] := by
  refine ⟨ReplyOrder.sorted.fields (h.erase field), ?_⟩
  simp [ReplyOrder.endingIn, hlookup]

/-! ## Commands and their notifications -/

/-- A write command on one key. -/
inductive Command where
  | hset (key : String) (fields : Hash)
  | hdel (key : String) (fields : List String)
  | del (key : String)
  deriving DecidableEq

def Command.key : Command → String
  | .hset key _ => key
  | .hdel key _ => key
  | .del key => key

/-- The effect of a command. -/
def Db.exec (db : Db) : Command → Db
  | .hset key fields => db.hset key fields
  | .hdel key fields => db.hdel key fields
  | .del key => db.del key

/-- The events of a command on its key.  `HSET` without fields is refused; the
other commands report only what they removed, and a hash that loses its last
field is also reported as deleted. -/
def Db.events (db : Db) : Command → List String
  | .hset _ fields => if fields = ∅ then [] else ["hset"]
  | .hdel key fields =>
    if (db.hdel key fields).hash key = db.hash key then []
    else if (db.hdel key fields).hash key = ∅ then ["hdel", "del"]
    else ["hdel"]
  | .del key => if db.hash key = ∅ then [] else ["del"]

variable {command : Command}

theorem Db.hash_exec_of_ne {key : String}
    (hkey : key ≠ command.key) : (db.exec command).hash key = db.hash key := by
  cases command with
  | hset other fields => exact (db.hash_hset other key fields).trans (if_neg hkey)
  | hdel other fields => exact (db.hash_hdel other key fields).trans (if_neg hkey)
  | del other => exact (db.hash_del other key).trans (if_neg hkey)

/-- `HDEL` and `DEL` report something exactly when they change the hash. -/
theorem Db.events_eq_nil_iff (hcommand : ∀ key fields, command ≠ .hset key fields) :
    db.events command = [] ↔ (db.exec command).hash command.key = db.hash command.key := by
  cases command with
  | hset key fields => exact absurd rfl (hcommand key fields)
  | hdel key fields =>
    by_cases hsame : (db.hdel key fields).hash key = db.hash key
    · exact iff_of_true (if_pos hsame) hsame
    · refine iff_of_false ?_ hsame
      rw [Db.events, if_neg hsame]
      split <;> exact List.cons_ne_nil _ _
  | del key =>
    change db.events (.del key) = [] ↔ (db.del key).hash key = db.hash key
    rw [db.hash_del, if_pos rfl, Db.events, eq_comm (a := ∅)]
    by_cases hempty : db.hash key = ∅
    · exact iff_of_true (if_pos hempty) hempty
    · refine iff_of_false ?_ hempty
      rw [if_neg hempty]
      exact List.cons_ne_nil _ _

theorem Db.mem_events (hcommand : ∀ key fields, command ≠ .hset key fields) {payload : String}
    (hmem : payload ∈ db.events command) : payload = "del" ∨ payload = "hdel" := by
  cases command with
  | hset key fields => exact absurd rfl (hcommand key fields)
  | hdel key fields =>
    rw [Db.events] at hmem
    split_ifs at hmem <;> simp at hmem <;> tauto
  | del key =>
    rw [Db.events] at hmem
    split_ifs at hmem
    · simp at hmem
    · exact .inl (List.mem_singleton.1 hmem)

/-! ## The content of a database -/

/-- The value of a field of a key. -/
def Db.content (db : Db) (loc : String × String) : Option String :=
  (db.hash loc.1).lookup loc.2

theorem Db.ext_content {db db' : Db} (h : db.content = db'.content) : db = db' := by
  have hentries : db.entries = db'.entries := by
    refine ext_lookup fun key => ?_
    have hkey : db.hash key = db'.hash key := ext_lookup fun field => congrFun h (key, field)
    rw [db.lookup_entries, db'.lookup_entries, hkey]
  cases db
  cases db'
  cases hentries
  rfl

/-- What a command does to a field. -/
def Command.touch : Command → String × String → Touch String
  | .hset key fields, loc => if loc.1 = key then (fields.lookup loc.2).map some else none
  | .hdel key fields, loc => if loc.1 = key ∧ loc.2 ∈ fields then some none else none
  | .del key, loc => if loc.1 = key then some none else none

theorem lookup_foldl_erase (hash : Hash) (fields : List String) (field : String) :
    (fields.foldl (fun h f => h.erase f) hash).lookup field =
      if field ∈ fields then none else hash.lookup field := by
  induction fields generalizing hash with
  | nil => rfl
  | cons first rest ih =>
    rw [List.foldl_cons, ih]
    by_cases hrest : field ∈ rest
    · simp [hrest]
    · by_cases hfirst : field = first
      · subst hfirst
        simp [hrest]
      · simp [hrest, hfirst, lookup_erase_ne hfirst]

theorem lookup_union {Value : Type} (fragment view : Finmap fun _ : String => Value)
    (name : String) :
    (fragment ∪ view).lookup name = (fragment.lookup name).or (view.lookup name) := by
  cases hlookup : fragment.lookup name with
  | none => exact lookup_union_right (lookup_eq_none.1 hlookup)
  | some value => rw [lookup_union_left (mem_iff.2 ⟨value, hlookup⟩), hlookup, Option.some_or]

theorem Db.content_exec (command : Command) (loc : String × String) :
    (db.exec command).content loc = (command.touch loc).getD (db.content loc) := by
  unfold Db.content Db.exec Command.touch
  cases command with
  | hset key fields =>
    by_cases hkey : loc.1 = key
    · subst hkey
      simp only [Db.hash_hset, if_true, lookup_union]
      cases fields.lookup loc.2 <;> rfl
    · simp [hkey]
  | hdel key fields =>
    by_cases hkey : loc.1 = key
    · subst hkey
      simp only [Db.hash_hdel, if_true, true_and]
      rw [lookup_foldl_erase]
      split <;> rfl
    · simp [hkey]
  | del key => by_cases hkey : loc.1 = key <;> simp [hkey]

/-- The content after a run of commands: the last one that touches a field decides. -/
theorem Db.content_foldl_exec (commands : List Command) (loc : String × String) :
    (commands.foldl Db.exec db).content loc =
      (lastSome (commands.map (Command.touch · loc))).getD (db.content loc) :=
  read_foldl Db.content Db.content_exec commands db loc

/-- For every field, the last of some commands that touches it leaves the old value in
it. -/
def Db.UnchangedBy (db : Db) (commands : List Command) : Prop :=
  ∀ loc, (lastSome (commands.map (Command.touch · loc))).getD (db.content loc) = db.content loc

theorem Db.foldl_exec_eq_iff (commands : List Command) :
    commands.foldl Db.exec db = db ↔ db.UnchangedBy commands := by
  constructor
  · intro h loc
    rw [← db.content_foldl_exec, h]
  · intro h
    refine Db.ext_content (funext fun loc => ?_)
    rw [db.content_foldl_exec, h loc]

/-- The channel of the events on a key of a database. -/
def keyspaceChannel (index : Nat) (key : String) : String :=
  "__keyspace@" ++ toString index ++ "__:" ++ key

/-- A message of a pattern subscription. -/
structure Message where
  channel : String
  payload : String
  deriving DecidableEq

end Redis
end SonicGnmi.Foundation
