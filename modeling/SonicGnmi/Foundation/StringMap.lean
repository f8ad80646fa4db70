import SonicGnmi.Foundation.Redis

/-!
# Maps from names, and loops that gather

A map from strings as a finite map: two maps with the same entries are equal.

* `MapOrder` — the orders in which loops visit the entries of such maps;
* `gather` — the concatenated results of a loop that can fail;
* `Yields` — when a computation gives a list with an item, for callers that go on
  without the list after an error;
* `Yields.gather` — the rule for loops.
-/

namespace SonicGnmi.Foundation

/-- A finite map from strings. -/
abbrev StringMap (Value : Type) := Finmap fun _ : String => Value

/-- The order in which loops visit the entries of each map. -/
structure MapOrder where
  visit : {Value : Type} → StringMap Value → List (String × Value)
  mem_visit : ∀ {Value : Type} (m : StringMap Value) (key : String) (value : Value),
    (key, value) ∈ visit m ↔ m.lookup key = some value

namespace MapOrder

/-- The order of the keys. -/
def sorted : MapOrder where
  visit := fun m =>
    (Redis.sortedMembers m.keys).filterMap fun key => (m.lookup key).map fun value => (key, value)
  mem_visit := fun m key value => by
    rw [List.mem_filterMap]
    constructor
    · rintro ⟨other, -, hother⟩
      obtain ⟨found, hlookup, hpair⟩ := Option.map_eq_some_iff.1 hother
      cases hpair
      exact hlookup
    · intro hlookup
      refine ⟨key, ?_, by rw [hlookup]; rfl⟩
      rw [Redis.mem_sortedMembers, Finmap.mem_keys, Finmap.mem_iff]
      exact ⟨value, hlookup⟩

theorem exists_mem_visit_iff {Value : Type} (order : MapOrder) (m : StringMap Value)
    (holds : String → Value → Prop) :
    (∃ entry ∈ order.visit m, holds entry.1 entry.2) ↔
      ∃ key value, m.lookup key = some value ∧ holds key value := by
  constructor
  · rintro ⟨⟨key, value⟩, hentry, hholds⟩
    exact ⟨key, value, (order.mem_visit m key value).1 hentry, hholds⟩
  · rintro ⟨key, value, hlookup, hholds⟩
    exact ⟨(key, value), (order.mem_visit m key value).2 hlookup, hholds⟩

theorem exists_mem_visit {Value : Type} (order : MapOrder) (m : StringMap Value) :
    (∃ entry, entry ∈ order.visit m) ↔ m ≠ ∅ := by
  constructor
  · rintro ⟨⟨key, value⟩, hentry⟩ rfl
    rw [order.mem_visit, Finmap.lookup_empty] at hentry
    cases hentry
  · intro hne
    by_contra hnone
    apply hne
    apply Finmap.ext_lookup
    intro key
    cases hlookup : m.lookup key with
    | none => rw [Finmap.lookup_empty]
    | some value => exact absurd ⟨_, (order.mem_visit m key value).2 hlookup⟩ hnone

end MapOrder

/-! ## Collecting loops -/

section Collect

variable {Item Result Err : Type}

/-- The results of a body for the items of a list, one after the other, up to the first
error. -/
def gather (body : Item → Except Err (List Result)) : List Item → Except Err (List Result)
  | [] => .ok []
  | item :: rest =>
    match body item with
    | .error err => .error err
    | .ok first =>
      match gather body rest with
      | .error err => .error err
      | .ok results => .ok (first ++ results)

/-- A list that is returned has an item exactly under a condition, and an error that is
not severe is returned only under this condition. -/
def Yields (severe : Err → Prop) (result : Except Err (List Result)) (condition : Prop) : Prop :=
  match result with
  | .ok results => results ≠ [] ↔ condition
  | .error err => severe err ∨ condition

namespace Yields

variable {severe : Err → Prop} {result : Except Err (List Result)} {condition : Prop}

theorem ok_iff {results : List Result} :
    Yields severe (.ok results) condition ↔ (results ≠ [] ↔ condition) := Iff.rfl

theorem congr {other : Prop} (h : Yields severe result condition) (hiff : condition ↔ other) :
    Yields severe result other := by
  cases result with
  | error err => exact h.imp_right hiff.1
  | ok results => exact Iff.trans h hiff

theorem of_cons (first : Result) (rest : List Result) : Yields severe (.ok (first :: rest)) True :=
  iff_of_true (List.cons_ne_nil _ _) trivial

theorem of_nil : Yields severe (.ok [] : Except Err (List Result)) False :=
  iff_of_false (fun hne => hne rfl) id

theorem of_error {err : Err} (h : severe err ∨ condition) :
    Yields severe (.error err : Except Err (List Result)) condition := h

theorem ite {test : Prop} [Decidable test] {first second : Except Err (List Result)}
    {holds other : Prop} (hfirst : test → Yields severe first holds)
    (hsecond : ¬ test → Yields severe second other) :
    Yields severe (if test then first else second) ((test → holds) ∧ (¬ test → other)) := by
  by_cases h : test
  · rw [if_pos h]
    exact (hfirst h).congr (by simp [h])
  · rw [if_neg h]
    exact (hsecond h).congr (by simp [h])

theorem bind {Value : Type} {first : Except Err Value} {next : Value → Except Err (List Result)}
    (herror : ∀ err, first = .error err → severe err ∨ condition)
    (hok : ∀ value, first = .ok value → Yields severe (next value) condition) :
    Yields severe (first >>= next) condition := by
  cases first with
  | error err => exact herror err rfl
  | ok value => exact hok value rfl

theorem gather {body : Item → Except Err (List Result)} {holds : Item → Prop}
    {items : List Item} (h : ∀ item ∈ items, Yields severe (body item) (holds item)) :
    Yields severe (Foundation.gather body items) (∃ item ∈ items, holds item) := by
  induction items with
  | nil =>
    refine iff_of_false (fun hne => hne rfl) ?_
    rintro ⟨item, hitem, -⟩
    cases hitem
  | cons item rest ih =>
    obtain ⟨hitem, hrest⟩ := List.forall_mem_cons.1 h
    have htail := ih hrest
    rw [Foundation.gather]
    simp only [List.exists_mem_cons_iff]
    rcases hbody : body item with _ | first <;> rw [hbody] at hitem
    · exact Or.imp_right Or.inl hitem
    cases hcollect : Foundation.gather body rest with
    | error err =>
      rw [hcollect] at htail
      exact Or.imp_right Or.inr htail
    | ok results =>
      rw [hcollect] at htail
      have happend : first ++ results ≠ [] ↔ first ≠ [] ∨ results ≠ [] := by
        rw [Ne, List.append_eq_nil_iff, not_and_or]
      exact happend.trans (or_congr hitem htail)

end Yields
end Collect

end SonicGnmi.Foundation
