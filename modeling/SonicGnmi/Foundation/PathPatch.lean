import Mathlib.Data.List.Basic
import Mathlib.Data.Set.Basic
import SonicGnmi.Foundation.LastWrite

/-!
# Patches of a tree of leaves

A tree is read as the map from the paths of its leaves to their values.  A patch
lists subtrees to remove and leaves to write; the removals come first.

* `Patch.apply` — the map after the patch;
* `Patch.touch` — what the patch as a whole does at one path;
* `Mends` — inside a region the patch turns one map into another, and it touches
  nothing outside of the region;
* `Mends.append`, `Mends.concat`, `Mends.seq` — patches of disjoint regions, and a
  patch followed by more writes.
-/

namespace SonicGnmi.Foundation

open List Option

/-- The leaves of a tree by their paths. -/
abbrev LeafMap (Elem Leaf : Type) := List Elem → Option Leaf

/-- One entry of a patch. -/
inductive PathEdit (Elem Leaf : Type) where
  /-- Removes every leaf at or below a path. -/
  | delete (path : List Elem)
  /-- Writes one leaf. -/
  | set (path : List Elem) (leaf : Leaf)

/-- Subtrees to remove, and then leaves to write. -/
structure Patch (Elem Leaf : Type) where
  delete : List (List Elem) := []
  update : List (List Elem × Leaf) := []

section

variable {Elem Leaf : Type} [DecidableEq Elem]

/-- The map after one edit. -/
def LeafMap.edit (leaves : LeafMap Elem Leaf) : PathEdit Elem Leaf → LeafMap Elem Leaf
  | .delete path => fun loc => if path <+: loc then none else leaves loc
  | .set path leaf => fun loc => if path = loc then some leaf else leaves loc

/-- What an edit does at one path. -/
def PathEdit.touch : PathEdit Elem Leaf → List Elem → Touch Leaf
  | .delete path, loc => if path <+: loc then some none else none
  | .set path leaf, loc => if path = loc then some (some leaf) else none

theorem LeafMap.edit_eq_getD (leaves : LeafMap Elem Leaf) (edit : PathEdit Elem Leaf)
    (loc : List Elem) : leaves.edit edit loc = (edit.touch loc).getD (leaves loc) := by
  cases edit <;> simp only [LeafMap.edit, PathEdit.touch] <;> split <;> rfl

namespace Patch

instance : Append (Patch Elem Leaf) where
  append first second :=
    { delete := first.delete ++ second.delete, update := first.update ++ second.update }

/-- The edits of a patch, the removals first. -/
def edits (patch : Patch Elem Leaf) : List (PathEdit Elem Leaf) :=
  patch.delete.map .delete ++ patch.update.map fun entry => .set entry.1 entry.2

/-- The map after a patch. -/
def apply (patch : Patch Elem Leaf) (leaves : LeafMap Elem Leaf) : LeafMap Elem Leaf :=
  patch.edits.foldl LeafMap.edit leaves

/-- What the removals do at one path. -/
def deleteTouch (patch : Patch Elem Leaf) (loc : List Elem) : Touch Leaf :=
  lastSome (patch.delete.map fun path => PathEdit.touch (.delete path) loc)

/-- What the writes do at one path. -/
def updateTouch (patch : Patch Elem Leaf) (loc : List Elem) : Touch Leaf :=
  lastSome (patch.update.map fun entry => PathEdit.touch (.set entry.1 entry.2) loc)

/-- What a patch as a whole does at one path. -/
def touch (patch : Patch Elem Leaf) (loc : List Elem) : Touch Leaf :=
  (patch.updateTouch loc).or (patch.deleteTouch loc)

theorem apply_eq_getD (patch : Patch Elem Leaf) (leaves : LeafMap Elem Leaf)
    (loc : List Elem) : patch.apply leaves loc = (patch.touch loc).getD (leaves loc) := by
  rw [apply, read_foldl (fun (m : LeafMap Elem Leaf) l => m l) LeafMap.edit_eq_getD, edits,
    List.map_append, lastSome_append, List.map_map, List.map_map]
  rfl

theorem touch_append (first second : Patch Elem Leaf) (loc : List Elem) :
    (first ++ second).touch loc = ((second.updateTouch loc).or (first.updateTouch loc)).or
        ((second.deleteTouch loc).or (first.deleteTouch loc)) := by
  change (lastSome (map _ (first.update ++ second.update))).or
    (lastSome (map _ (first.delete ++ second.delete))) = _
  rw [map_append, map_append, lastSome_append, lastSome_append]
  rfl

variable {first second : Patch Elem Leaf}

theorem touch_append_of_left {loc : List Elem}
    (hsecond : second.touch loc = none) : (first ++ second).touch loc = first.touch loc := by
  rw [touch, or_eq_none_iff] at hsecond
  rw [touch_append, hsecond.1, hsecond.2, none_or, none_or, touch]

theorem touch_append_of_right {loc : List Elem}
    (hfirst : first.touch loc = none) : (first ++ second).touch loc = second.touch loc := by
  rw [touch, or_eq_none_iff] at hfirst
  rw [touch_append, hfirst.1, hfirst.2, or_none, or_none, touch]

/-- Without removals the second patch acts after the first one. -/
theorem touch_append_writes (hsecond : second.delete = []) (loc : List Elem) :
    (first ++ second).touch loc = (second.touch loc).or (first.touch loc) := by
  have hdelete : second.deleteTouch loc = none := by rw [deleteTouch, hsecond]; rfl
  rw [touch_append, touch, touch, hdelete, Option.none_or, Option.or_none, Option.or_assoc]

/-- All patches of a list, in order. -/
def concat (patches : List (Patch Elem Leaf)) : Patch Elem Leaf := patches.foldr (· ++ ·) {}

omit [DecidableEq Elem] in
theorem delete_concat {patches : List (Patch Elem Leaf)}
    (h : ∀ patch ∈ patches, patch.delete = []) : (concat patches).delete = [] := by
  induction patches with
  | nil => rfl
  | cons first rest ih =>
    rw [forall_mem_cons] at h
    change first.delete ++ (concat rest).delete = []
    rw [h.1, ih h.2, append_nil]

end Patch

/-- Inside `scope` the patch turns `old` into `new`, and outside it touches nothing. -/
structure Mends (patch : Patch Elem Leaf) (scope : Set (List Elem))
    (old new : LeafMap Elem Leaf) : Prop where
  inside : ∀ loc, loc ∉ scope → patch.touch loc = none
  result : ∀ loc ∈ scope, (patch.touch loc).getD (old loc) = new loc

namespace Mends

variable {patch first second : Patch Elem Leaf} {scope scope' : Set (List Elem)}
  {old mid new : LeafMap Elem Leaf}

theorem apply_eq (h : Mends patch Set.univ old new) : patch.apply old = new := by
  funext loc
  rw [Patch.apply_eq_getD, h.result loc (Set.mem_univ loc)]

theorem empty (hsame : ∀ loc ∈ scope, old loc = new loc) : Mends {} scope old new :=
  ⟨fun _ _ => rfl, hsame⟩

theorem extend (h : Mends patch scope old new) (hsub : scope ⊆ scope')
    (hsame : ∀ loc ∈ scope', loc ∉ scope → old loc = new loc) : Mends patch scope' old new := by
  refine ⟨fun loc hloc => h.inside loc fun hin => hloc (hsub hin), fun loc hloc => ?_⟩
  by_cases hin : loc ∈ scope
  · exact h.result loc hin
  · rw [h.inside loc hin]
    exact hsame loc hloc hin

/-- Patches of disjoint regions do not disturb each other. -/
theorem append (hfirst : Mends first scope old new) (hsecond : Mends second scope' old new)
    (hapart : ∀ loc ∈ scope, loc ∉ scope') : Mends (first ++ second) (scope ∪ scope') old new := by
  refine ⟨fun loc hloc => ?_, fun loc hloc => ?_⟩
  · rw [Set.mem_union, not_or] at hloc
    rw [Patch.touch_append_of_left (hsecond.inside loc hloc.2)]
    exact hfirst.inside loc hloc.1
  · rcases hloc with hin | hin
    · rw [Patch.touch_append_of_left (hsecond.inside loc (hapart loc hin))]
      exact hfirst.result loc hin
    · have hout : loc ∉ scope := fun hfirst => hapart loc hfirst hin
      rw [Patch.touch_append_of_right (hfirst.inside loc hout)]
      exact hsecond.result loc hin

theorem seq (hfirst : Mends first scope old mid) (hsecond : Mends second scope mid new)
    (hwrites : second.delete = []) : Mends (first ++ second) scope old new := by
  refine ⟨fun loc hloc => ?_, fun loc hloc => ?_⟩
  · rw [Patch.touch_append_of_left (hsecond.inside loc hloc)]
    exact hfirst.inside loc hloc
  have hmid := hfirst.result loc hloc
  have hnew := hsecond.result loc hloc
  rw [Patch.touch_append_writes hwrites]
  cases htouch : second.touch loc with
  | none => rw [none_or, hmid, ← hnew, htouch, getD_none]
  | some touched => rw [← hnew, htouch, some_or, getD_some, getD_some]

/-- Patches of pairwise disjoint regions, one after the other. -/
theorem concat {Item : Type} {items : List Item} {f : Item → Patch Elem Leaf}
    {region : Item → Set (List Elem)} (hitems : ∀ item ∈ items, Mends (f item) (region item) old new)
    (hapart : items.Pairwise fun a b => ∀ loc ∈ region a, loc ∉ region b) :
    Mends (Patch.concat (items.map f)) {loc | ∃ item ∈ items, loc ∈ region item} old new := by
  induction items with
  | nil => exact empty (fun loc hloc => absurd hloc (by simp))
  | cons item rest ih =>
    rw [pairwise_cons] at hapart
    have hrest := ih (fun i hi => hitems i (mem_cons_of_mem _ hi)) hapart.2
    have hfirst : ∀ loc ∈ region item, loc ∉ {loc | ∃ i ∈ rest, loc ∈ region i} := by
      rintro loc hloc ⟨i, hi, hin⟩
      exact hapart.1 i hi loc hloc hin
    have happend := (hitems item (mem_cons_self ..)).append hrest hfirst
    refine happend.extend ?_ ?_
    · rintro loc (hloc | ⟨i, hi, hin⟩)
      · exact ⟨item, mem_cons_self .., hloc⟩
      · exact ⟨i, mem_cons_of_mem _ hi, hin⟩
    · rintro loc ⟨i, hi, hin⟩ hout
      refine absurd ?_ hout
      rcases mem_cons.1 hi with rfl | hi
      · exact Or.inl hin
      · exact Or.inr ⟨i, hi, hin⟩

theorem delete {path : List Elem} (hnew : ∀ loc, path <+: loc → new loc = none) :
    Mends { delete := [path] } {loc | path <+: loc} old new := by
  have htouch (loc : List Elem) : ({ delete := [path] } : Patch Elem Leaf).touch loc =
      if path <+: loc then some none else none := rfl
  refine ⟨fun loc hloc => ?_, fun loc hloc => ?_⟩
  · change ¬ path <+: loc at hloc
    rw [htouch, if_neg hloc]
  · change path <+: loc at hloc
    rw [htouch, if_pos hloc, hnew loc hloc, getD_some]

theorem writes {update : List (List Elem × Leaf)}
    (hupdate : ∀ loc leaf, (loc, leaf) ∈ update ↔ loc ∈ scope ∧ new loc = some leaf)
    (hold : ∀ loc ∈ scope, new loc = none → old loc = none) :
    Mends { update := update } scope old new := by
  have htouch (loc : List Elem) : ({ update := update } : Patch Elem Leaf).touch loc =
      ({ update := update } : Patch Elem Leaf).updateTouch loc := or_none
  have hnone (loc : List Elem) (hloc : ∀ leaf, (loc, leaf) ∉ update) :
      ({ update := update } : Patch Elem Leaf).touch loc = none := by
    rw [htouch, Patch.updateTouch, lastSome_eq_none_iff]
    intro entry hentry
    obtain ⟨written, hwritten, rfl⟩ := mem_map.1 hentry
    refine if_neg ?_
    rintro rfl
    exact hloc written.2 hwritten
  refine ⟨fun loc hloc => hnone loc fun leaf hleaf => hloc ((hupdate loc leaf).1 hleaf).1,
    fun loc hloc => ?_⟩
  cases hnew : new loc with
  | none =>
    have habsent : ∀ leaf, (loc, leaf) ∉ update := by
      intro leaf hleaf
      have := ((hupdate loc leaf).1 hleaf).2
      rw [hnew] at this
      simp at this
    rw [hnone loc habsent]
    exact hold loc hloc hnew
  | some leaf =>
    have hlast : lastSome (update.map fun entry => PathEdit.touch (.set entry.1 entry.2) loc) =
        some (some leaf) := by
      refine lastSome_eq_some ?_ fun written hwritten => ?_
      · exact mem_map.2 ⟨_, (hupdate loc leaf).2 ⟨hloc, hnew⟩, if_pos rfl⟩
      · obtain ⟨entry, hentry, heq⟩ := mem_map.1 hwritten
        simp only [PathEdit.touch] at heq
        split at heq
        · rename_i hpath
          subst hpath
          rw [← hnew, ((hupdate entry.1 entry.2).1 hentry).2]
          exact (Option.some.inj heq).symm
        · cases heq
    rw [htouch, Patch.updateTouch, hlast, getD_some]

end Mends

end

end SonicGnmi.Foundation
