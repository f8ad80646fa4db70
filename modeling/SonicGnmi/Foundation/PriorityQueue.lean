import Mathlib.Data.List.Basic

/-!
# A queue that returns items by key

Any number of parties put items on the queue; a taker gets an item whose key is
smallest among those that wait.  A queue can be disposed of: what waits is dropped
and nothing is taken any more.  The queue records what was put and what was taken, in
that order.

* `put`, `get`, `dispose` — the operations;
* `Accounted` — until the queue is disposed of, what was put waits or was taken;
* `InOrder` — an item is taken only after another one;
* `InOrder.get` — an item that was put with a smaller key keeps its turn.
-/

namespace SonicGnmi.Foundation

open List

/-- The items that wait, and the records. -/
structure PriorityQueue (Item : Type) where
  pending : List Item := []
  disposed : Bool := false
  enqueued : List Item := []
  dequeued : List Item := []

namespace PriorityQueue

variable {Item : Type} {key : Item → Nat}

/-- Put an item on the queue; a queue that was disposed of refuses it. -/
def put (q : PriorityQueue Item) (item : Item) : PriorityQueue Item :=
  if q.disposed then q
  else { q with pending := q.pending ++ [item], enqueued := q.enqueued ++ [item] }

/-- Take the item at a place, if no other item has a smaller key. -/
def get (key : Item → Nat) (q : PriorityQueue Item) (index : Nat) : Option (PriorityQueue Item) :=
  match q.pending[index]? with
  | none => none
  | some item =>
    if ∀ other ∈ q.pending, key item ≤ key other then
      some { q with
        pending := q.pending.eraseIdx index
        dequeued := q.dequeued ++ [item] }
    else none

/-- Drop what waits and refuse everything from now on. -/
def dispose (q : PriorityQueue Item) : PriorityQueue Item :=
  { q with pending := [], disposed := true }

/-- Until the queue is disposed of, what was put waits or was taken; nothing else was
taken. -/
structure Accounted (q : PriorityQueue Item) : Prop where
  kept : q.disposed = false → ∀ item ∈ q.enqueued, item ∈ q.pending ∨ item ∈ q.dequeued
  pending_sub : ∀ item ∈ q.pending, item ∈ q.enqueued
  dequeued_sub : ∀ item ∈ q.dequeued, item ∈ q.enqueued
  empty : q.disposed = true → q.pending = []

/-- One item stands before another one. -/
def Precedes (first second : Item) (log : List Item) : Prop :=
  List.Sublist [first, second] log

/-- The second item is taken only after the first one. -/
def InOrder (q : PriorityQueue Item) (first second : Item) : Prop :=
  second ∈ q.dequeued → Precedes first second q.dequeued

variable {first second : Item} {q after : PriorityQueue Item} {index : Nat}

theorem Precedes.append {log : List Item} (h : Precedes first second log)
    (more : List Item) : Precedes first second (log ++ more) :=
  h.trans (sublist_append_left log more)

theorem precedes_snoc {log : List Item} (hmem : first ∈ log) (second : Item) :
    Precedes first second (log ++ [second]) :=
  (singleton_sublist.2 hmem).append (List.Sublist.refl [second])

/-! ## Putting -/

@[simp] theorem disposed_put (q : PriorityQueue Item) (item : Item) :
    (q.put item).disposed = q.disposed := by
  unfold put
  split <;> rfl

@[simp] theorem dequeued_put (q : PriorityQueue Item) (item : Item) :
    (q.put item).dequeued = q.dequeued := by
  unfold put
  split <;> rfl

theorem Accounted.put (haccounted : q.Accounted) (item : Item) : (q.put item).Accounted := by
  unfold PriorityQueue.put
  split
  · exact haccounted
  rename_i hopen
  refine ⟨fun _ other hother => ?_, fun other hother => ?_, fun other hother => ?_,
    fun hdisposed => absurd hdisposed hopen⟩
  · rcases mem_append.1 hother with hother | hother
    · exact (haccounted.kept (Bool.not_eq_true _ |>.mp hopen) other hother).imp
        (mem_append_left _) id
    · exact Or.inl (mem_append_right _ hother)
  · exact mem_append.2 ((mem_append.1 hother).imp (haccounted.pending_sub other) id)
  · exact mem_append_left _ (haccounted.dequeued_sub other hother)

/-! ## Taking -/

theorem get_cases (hget : q.get key index = some after) :
    ∃ item, q.pending[index]? = some item ∧ (∀ other ∈ q.pending, key item ≤ key other) ∧
      after = { q with
        pending := q.pending.eraseIdx index
        dequeued := q.dequeued ++ [item] } := by
  unfold get at hget
  split at hget
  · cases hget
  rename_i item hitem
  split at hget
  · rename_i hleast
    exact ⟨item, hitem, hleast, (Option.some.inj hget).symm⟩
  · cases hget

theorem Accounted.get (haccounted : q.Accounted)
    (hget : q.get key index = some after) : after.Accounted := by
  obtain ⟨item, hitem, -, rfl⟩ := get_cases hget
  have hmem := mem_of_getElem? hitem
  refine ⟨fun hopen other hother => ?_, fun other hother => ?_, fun other hother => ?_,
    fun hdisposed => ?_⟩
  · rcases haccounted.kept hopen other hother with hpending | hdequeued
    · by_cases heq : other = item
      · exact Or.inr (mem_append_right _ (mem_singleton.2 heq))
      refine Or.inl ?_
      obtain ⟨place, hplace⟩ := getElem?_of_mem hpending
      refine mem_eraseIdx_iff_getElem?.2 ⟨place, ?_, hplace⟩
      rintro rfl
      rw [hitem, Option.some.injEq] at hplace
      exact heq hplace.symm
    · exact Or.inr (mem_append_left _ hdequeued)
  · exact haccounted.pending_sub other (mem_of_mem_eraseIdx hother)
  · rcases mem_append.1 hother with hother | hother
    · exact haccounted.dequeued_sub other hother
    · rw [mem_singleton.1 hother]
      exact haccounted.pending_sub item hmem
  · rw [haccounted.empty hdisposed] at hmem
    cases hmem

/-- An item that was put with a smaller key keeps its turn: the other one is not the
smallest as long as it waits. -/
theorem InOrder.get (horder : q.InOrder first second) (haccounted : q.Accounted)
    (hfirst : first ∈ q.enqueued) (hkey : key first < key second)
    (hget : q.get key index = some after) : after.InOrder first second := by
  obtain ⟨item, hitem, hleast, rfl⟩ := get_cases hget
  intro hsecond
  by_cases hbefore : second ∈ q.dequeued
  · exact (horder hbefore).append [item]
  have hlast : second = item := by
    rcases mem_append.1 hsecond with hsecond | hsecond
    · exact absurd hsecond hbefore
    · exact mem_singleton.1 hsecond
  subst hlast
  have hopen : q.disposed = false := by
    by_contra hdisposed
    have hmem := mem_of_getElem? hitem
    rw [haccounted.empty (Bool.not_eq_false _ |>.mp hdisposed)] at hmem
    cases hmem
  rcases haccounted.kept hopen first hfirst with hpending | hdequeued
  · have hle := hleast first hpending
    omega
  · exact precedes_snoc hdequeued second

theorem InOrder.put
    (horder : q.InOrder first second) (item : Item) : (q.put item).InOrder first second := by
  rw [InOrder, dequeued_put]
  exact horder

/-! ## Disposing -/

theorem Accounted.dispose (haccounted : q.Accounted) : q.dispose.Accounted :=
  ⟨fun hopen => absurd hopen (by simp [PriorityQueue.dispose]),
    fun item hitem => absurd hitem (by simp [PriorityQueue.dispose]),
    haccounted.dequeued_sub, fun _ => rfl⟩

end PriorityQueue
end SonicGnmi.Foundation
