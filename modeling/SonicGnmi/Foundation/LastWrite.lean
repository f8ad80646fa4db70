import Mathlib.Data.Finmap
import Mathlib.Data.List.Induction

/-!
# The last write to a location

A run of operations each of which leaves a location alone or decides what stands
in it: what the location holds at the end is decided by the last operation that
touches it.

* `Touch` — what an operation does to one location;
* `lastSome` — the last entry of a list that is present;
* `read_foldl` — the content of a location after a run;
* `fill`, `lookup_fill` — a loop that inserts into a map.
-/

namespace SonicGnmi.Foundation

open List

/-- What an operation does to one location: nothing, or it leaves this in it, where
`none` is no value. -/
abbrev Touch (Value : Type) := Option (Option Value)

/-- The last entry that is present. -/
def lastSome {Entry : Type} : List (Option Entry) → Option Entry
  | [] => none
  | entry :: rest => (lastSome rest).or entry

section

variable {Entry State Operation Location Value : Type}

@[simp] theorem lastSome_nil : lastSome ([] : List (Option Entry)) = none := rfl

theorem lastSome_append (first second : List (Option Entry)) :
    lastSome (first ++ second) = (lastSome second).or (lastSome first) := by
  induction first with
  | nil => simp
  | cons entry rest ih => rw [cons_append, lastSome, lastSome, ih, Option.or_assoc]

theorem lastSome_map {Entry' : Type} (f : Entry → Entry') (entries : List (Option Entry)) :
    lastSome (entries.map (Option.map f)) = (lastSome entries).map f := by
  induction entries with
  | nil => rfl
  | cons entry rest ih =>
    rw [map_cons, lastSome, lastSome, ih]
    cases lastSome rest <;> rfl

theorem lastSome_flatMap {Item : Type} (items : List Item) (f : Item → List (Option Entry)) :
    lastSome (items.flatMap f) = lastSome (items.map fun item => lastSome (f item)) := by
  induction items with
  | nil => rfl
  | cons item rest ih => rw [flatMap_cons, lastSome_append, ih, map_cons, lastSome]

theorem lastSome_eq_none_iff (entries : List (Option Entry)) :
    lastSome entries = none ↔ ∀ entry ∈ entries, entry = none := by
  induction entries with
  | nil => simp
  | cons entry rest ih =>
    rw [lastSome, Option.or_eq_none_iff, ih, forall_mem_cons]
    exact and_comm

theorem mem_of_lastSome {entries : List (Option Entry)} {entry : Entry}
    (h : lastSome entries = some entry) : some entry ∈ entries := by
  induction entries with
  | nil => simp at h
  | cons first rest ih =>
    rw [lastSome, Option.or_eq_some_iff] at h
    rcases h with hrest | ⟨-, hfirst⟩
    · exact mem_cons_of_mem _ (ih hrest)
    · exact hfirst ▸ mem_cons_self ..

theorem lastSome_eq_some {entries : List (Option Entry)} {entry : Entry}
    (hmem : some entry ∈ entries) (hall : ∀ other, some other ∈ entries → other = entry) :
    lastSome entries = some entry := by
  cases hlast : lastSome entries with
  | none => cases (lastSome_eq_none_iff entries).1 hlast _ hmem
  | some other => rw [hall other (mem_of_lastSome hlast)]

/-- The content of a location after a run: decided by the last operation that
touches it, and the old one if there is none. -/
theorem read_foldl {step : State → Operation → State} (read : State → Location → Option Value)
    {touch : Operation → Location → Touch Value}
    (hstep : ∀ s op loc, read (step s op) loc = (touch op loc).getD (read s loc))
    (ops : List Operation) (s : State) (loc : Location) :
    read (ops.foldl step s) loc = (lastSome (ops.map (touch · loc))).getD (read s loc) := by
  induction ops generalizing s with
  | nil => rfl
  | cons op rest ih =>
    rw [foldl_cons, ih, hstep, map_cons, lastSome]
    cases lastSome (rest.map (touch · loc)) <;> rfl

end

/-! ## Filling a map -/

section Fill

variable {Item Key Value : Type} [DecidableEq Key] {entry : Item → Option (Key × Value)}
  {items : List Item} {key : Key} {value : Value}

/-- The loop that fills a map: an item gives one entry or none. -/
def fill (entry : Item → Option (Key × Value)) (items : List Item) : Finmap fun _ : Key => Value :=
  items.foldl
    (fun map item =>
      match entry item with
      | none => map
      | some (key, value) => map.insert key value) ∅

theorem lookup_fill (entry : Item → Option (Key × Value)) (items : List Item) (key : Key) :
    (∃ item ∈ items, ∃ value, entry item = some (key, value) ∧
        (fill entry items).lookup key = some value) ∨
      (∀ item ∈ items, ∀ value, entry item ≠ some (key, value)) ∧
        (fill entry items).lookup key = none := by
  induction items using reverseRecOn with
  | nil => exact Or.inr ⟨by simp, Finmap.lookup_empty _⟩
  | append_singleton rest last ih =>
    have hfill : fill entry (rest ++ [last]) =
        match entry last with
        | none => fill entry rest
        | some (key, value) => (fill entry rest).insert key value := by
      rw [fill, foldl_append]
      rfl
    rw [hfill]
    by_cases hlast : ∃ value, entry last = some (key, value)
    · obtain ⟨value, hvalue⟩ := hlast
      refine Or.inl ⟨last, by simp, value, hvalue, ?_⟩
      rw [hvalue]
      exact Finmap.lookup_insert _
    · have hsame : (match entry last with
          | none => fill entry rest
          | some (key, value) => (fill entry rest).insert key value).lookup key =
          (fill entry rest).lookup key := by
        rcases hentry : entry last with _ | ⟨other, value⟩
        · rfl
        · refine Finmap.lookup_insert_of_ne _ ?_
          rintro rfl
          exact hlast ⟨value, hentry⟩
      rw [hsame]
      rcases ih with ⟨item, hitem, hfound⟩ | ⟨hnone, hlookup⟩
      · exact Or.inl ⟨item, mem_append_left _ hitem, hfound⟩
      · refine Or.inr ⟨fun item hitem value hentry => ?_, hlookup⟩
        rcases mem_append.1 hitem with hitem | hitem
        · exact hnone item hitem value hentry
        · exact hlast ⟨value, mem_singleton.1 hitem ▸ hentry⟩

theorem exists_of_lookup_fill (entry : Item → Option (Key × Value))
    (h : (fill entry items).lookup key = some value) :
    ∃ item ∈ items, entry item = some (key, value) := by
  rcases lookup_fill entry items key with ⟨item, hitem, found, hentry, hfound⟩ | ⟨-, hnone⟩
  · cases hfound.symm.trans h
    exact ⟨item, hitem, hentry⟩
  · cases hnone.symm.trans h

/-- Where all items that give a key agree on its value. -/
theorem lookup_fill_of_mem {item : Item} (hitem : item ∈ items)
    (hentry : entry item = some (key, value))
    (hone : ∀ other ∈ items, ∀ found, entry other = some (key, found) → found = value) :
    (fill entry items).lookup key = some value := by
  rcases lookup_fill entry items key with ⟨other, hother, found, hfound, hlookup⟩ | ⟨hnone, -⟩
  · rw [hlookup, hone other hother found hfound]
  · exact absurd hentry (hnone item hitem value)

end Fill

end SonicGnmi.Foundation
