import Mathlib.Data.List.AList
import Mathlib.Data.List.Sort
import Mathlib.Data.String.Basic

/-!
# Maps with unordered iteration

A finite map is an association list without duplicate keys.  The stored order
of the entries carries no meaning: a loop over a map is given the order in
which it visits the entries by a `RangeOrder`, and a result about the loop has
to hold for all of them.
-/

namespace SonicGnmi.Foundation

/-- A finite map from keys to values. -/
abbrev GoMap (Key Value : Type) := AList fun _ : Key => Value

namespace GoMap

variable {Key Value : Type}

def size (m : GoMap Key Value) : Nat := m.entries.length

def sortedKeys [LinearOrder Key] (m : GoMap Key Value) : List Key :=
  m.keys.insertionSort (· ≤ ·)

@[simp] theorem length_sortedKeys [LinearOrder Key] (m : GoMap Key Value) :
    m.sortedKeys.length = m.size := by
  simp [sortedKeys, size, AList.keys, List.keys]

theorem mem_sortedKeys [LinearOrder Key] {m : GoMap Key Value} {key : Key} :
    key ∈ m.sortedKeys ↔ key ∈ m := by
  rw [sortedKeys, List.mem_insertionSort]
  rfl

end GoMap

/-- The order in which a loop visits the entries of each map. -/
structure RangeOrder (Key Value : Type) where
  visit : GoMap Key Value → List (Σ _ : Key, Value)
  perm : ∀ m, (visit m).Perm m.entries

namespace RangeOrder

variable {Key Value : Type}

/-- The order in which the entries are stored. -/
def stored : RangeOrder Key Value where
  visit := fun m => m.entries
  perm := fun m => List.Perm.refl m.entries

theorem mem_visit [DecidableEq Key] (order : RangeOrder Key Value) (m : GoMap Key Value) (key : Key)
    (value : Value) : ⟨key, value⟩ ∈ order.visit m ↔ m.lookup key = some value := by
  rw [(order.perm m).mem_iff, ← Option.mem_def, AList.mem_lookup_iff]

end RangeOrder

end SonicGnmi.Foundation
