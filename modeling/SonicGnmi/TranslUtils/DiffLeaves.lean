import SonicGnmi.TranslUtils.LeafTree

/-!
# What the comparison of a leaf records

A leaf, an enumeration, a union and a leaf-list each have a notion of absence and a
comparison of their own, but all of them record one of the same few things, and each of
these turns the leaf that was into the leaf that is.

* `Recorded.Clean` — records without an error;
* `below`, `fieldScope`, `structScope` — regions of paths;
* `LeafOutcome` — what the comparison of a leaf can record;
* `LeafOutcome.mends` — and what it does to the leaf map.
-/

namespace SonicGnmi.TranslUtils

open Foundation Gnmi

/-! ## Records -/

namespace Recorded

@[simp] theorem patch_append (first second : Recorded) :
    (first ++ second).patch = first.patch ++ second.patch := rfl

theorem clean_append_iff (first second : Recorded) :
    (first ++ second).Clean ↔ first.Clean ∧ second.Clean := by
  change first.errors ++ second.errors = [] ∧ (first.panics || second.panics) = false ↔ _
  rw [List.append_eq_nil_iff, Bool.or_eq_false_iff]
  exact and_and_and_comm

theorem patch_concat (records : List Recorded) :
    (concat records).patch = Patch.concat (records.map (·.patch)) := by
  induction records with
  | nil => rfl
  | cons first rest ih =>
    change first.patch ++ (concat rest).patch = first.patch ++ Patch.concat _
    rw [ih]

theorem clean_concat_iff (records : List Recorded) :
    (concat records).Clean ↔ ∀ record ∈ records, record.Clean := by
  induction records with
  | nil => simp [concat, Clean]
  | cons first rest ih =>
    change (first ++ concat rest).Clean ↔ _
    rw [clean_append_iff, ih, List.forall_mem_cons]

theorem not_clean_panics : ¬ ({ panics := true } : Recorded).Clean := by
  simp [Clean]

end Recorded

theorem not_clean_recordError (ygot : Ygot) (path : List PathElem) (message : String) :
    ¬ (recordError ygot path message).Clean := by
  simp [recordError, Recorded.Clean]

/-! ## Regions of paths -/

/-- The paths at and below a path. -/
def below (path : List PathElem) : Set (List PathElem) := {loc | path <+: loc}

/-- The paths of a field of a struct. -/
def fieldScope (path : List PathElem) (name : String) : Set (List PathElem) :=
  {loc | ∃ key tail, loc = path ++ { name := name, key := key } :: tail}

/-- The paths of several fields of a struct. -/
def structScope (path : List PathElem) (names : List String) : Set (List PathElem) :=
  {loc | ∃ elem tail, loc = path ++ elem :: tail ∧ elem.name ∈ names}

theorem mem_below_iff {path loc : List PathElem} : loc ∈ below path ↔ ∃ tail, loc = path ++ tail :=
  ⟨fun ⟨tail, h⟩ => ⟨tail, h.symm⟩, fun ⟨tail, h⟩ => ⟨tail, h.symm⟩⟩

theorem mem_below_elem_iff {path loc : List PathElem} {elem : PathElem} :
    loc ∈ below (path ++ [elem]) ↔ ∃ tail, loc = path ++ elem :: tail := by
  simp [mem_below_iff]

/-! ## Leaves -/

section

variable {ygot : Ygot} {path : List PathElem} {name : String}

/-- What the comparison of a leaf can record when the leaf was `old` and is `new`. -/
inductive LeafOutcome (ygot : Ygot) (path : List PathElem) (name : String)
    (old new : Option Leaf) : Recorded → Prop
  | kept : old = new → LeafOutcome ygot path name old new {}
  | deleted : new = none → LeafOutcome ygot path name old new (recordDelete path name)
  | updated (leaf : Leaf) : new = some leaf →
      LeafOutcome ygot path name old new (recordUpdate ygot path name leaf)
  | failed (record : Recorded) : ¬ record.Clean → LeafOutcome ygot path name old new record

theorem LeafOutcome.onDifference {same : Option Bool} {old new : Option Leaf} {leaf : Leaf}
    (hsame : same = some true → old = new) (hnew : new = some leaf) :
    LeafOutcome ygot path name old new
      (TranslUtils.onDifference same (recordUpdate ygot path name leaf)) := by
  rcases same with _ | _ | _
  · exact .failed _ Recorded.not_clean_panics
  · exact .updated leaf hnew
  · exact .kept (hsame rfl)

theorem Scalar.eq_of_equal {first second : Scalar} (h : first.equal second = some true) :
    first = second := by
  cases first <;> cases second <;> simp_all [Scalar.equal]

theorem UnionValue.eq_of_equal {first second : UnionValue} (h : first.equal second = some true) :
    first = second := by
  rcases first with ⟨member, value⟩
  rcases second with ⟨member', value'⟩
  rw [UnionValue.equal] at h
  split at h
  · rename_i hmember
    exact congrArg₂ UnionValue.mk hmember (Scalar.eq_of_equal h)
  · simp at h

theorem Cell.eq_of_equal {first second : Cell} (h : first.equal second = some true) :
    first = second := by
  rcases first with value | address <;> rcases second with value' | address'
  · exact congrArg Cell.plain (Scalar.eq_of_equal h)
  · simp [Cell.equal] at h
  · simp [Cell.equal] at h
  · simpa [Cell.equal] using h

theorem eq_of_sameItems {first second : List Cell} (hlength : first.length = second.length)
    (h : sameItems first second = some true) : first = second := by
  induction first generalizing second with
  | nil => exact (List.eq_nil_of_length_eq_zero hlength.symm).symm
  | cons item rest ih =>
    rcases second with _ | ⟨item', rest'⟩
    · simp at hlength
    rw [sameItems] at h
    split at h <;> rename_i hitem
    · rw [Cell.eq_of_equal hitem, ih (Nat.succ.inj hlength) h]
    · exact absurd h (by simpa using hitem)

variable (recordAll : Bool)

theorem forLeaf_outcome (v1 v2 : Option Scalar) :
    LeafOutcome ygot path name (v1.map .scalar) (v2.map .scalar)
      (forLeaf ygot recordAll path name v1 v2) := by
  rcases v2 with _ | new <;> rcases v1 with _ | old
  · exact .kept rfl
  · exact .deleted rfl
  · exact .updated _ rfl
  · rw [forLeaf]
    split
    · exact .updated _ rfl
    · exact .onDifference (fun h => by rw [Scalar.eq_of_equal h]) rfl

theorem forEnum_outcome (typeName : String) (v1 v2 : Int) :
    LeafOutcome ygot path name (ygot.enumLeaf typeName v1) (ygot.enumLeaf typeName v2)
      (forEnum ygot recordAll path typeName name v1 v2) := by
  rw [forEnum]
  split
  · rename_i hzero
    split
    · exact .deleted (if_pos hzero)
    · rename_i hzero'
      refine .kept ?_
      rw [hzero, not_not.1 hzero']
  · rename_i hset
    split
    · rename_i hsame
      refine .kept ?_
      rw [of_decide_eq_true (Bool.and_eq_true_iff.1 hsame).2]
    · split
      · exact .failed _ (not_clean_recordError _ _ _)
      · rename_i text htext
        refine .updated _ ?_
        rw [Bindings.enumLeaf, if_neg hset, htext, Option.map_some]

theorem forUnion_outcome (v1 v2 : Option Nat) :
    LeafOutcome ygot path name (ygot.unionLeaf v1) (ygot.unionLeaf v2)
      (forUnion ygot recordAll path name v1 v2) := by
  rcases v2 with _ | new <;> rcases v1 with _ | old
  · exact .kept rfl
  · exact .deleted rfl
  · exact .updated _ rfl
  rw [forUnion]
  split
  · exact .updated _ rfl
  · refine .onDifference (fun h => ?_) rfl
    rw [Bindings.unionLeaf, Bindings.unionLeaf, Option.map_some, Option.map_some,
      UnionValue.eq_of_equal h]

theorem forLeafList_outcome (v1 v2 : Option (List Cell)) :
    LeafOutcome ygot path name (ygot.listLeaf v1) (ygot.listLeaf v2)
      (forLeafList ygot recordAll path name v1 v2) := by
  simp only [forLeafList]
  by_cases hnew : v2.getD [] = []
  · have hnone : ygot.listLeaf v2 = none := if_pos hnew
    rw [if_pos (by rw [hnew, List.length_nil])]
    split
    · exact .deleted hnone
    · rename_i hold
      refine .kept ?_
      rw [hnone]
      exact if_pos (List.eq_nil_of_length_eq_zero (not_not.1 hold))
  · have hsome : ygot.listLeaf v2 = some (.list ((v2.getD []).map ygot.content)) := if_neg hnew
    rw [if_neg fun h => hnew (List.eq_nil_of_length_eq_zero h)]
    split
    · exact .updated _ hsome
    · rename_i hsame
      rw [Bool.or_eq_true, not_or, decide_eq_true_eq, not_not] at hsame
      refine .onDifference (fun h => ?_) hsome
      rw [Bindings.listLeaf, Bindings.listLeaf, eq_of_sameItems hsame.2 h]

/-- Each outcome turns the leaf that was into the leaf that is. -/
theorem LeafOutcome.mends {old new : Option Leaf} {record : Recorded}
    (h : LeafOutcome ygot path name old new record) {before after : LeafMap PathElem Leaf}
    (hbefore : ∀ key tail,
      before (path ++ { name := name, key := key } :: tail) = leafHere old key tail)
    (hafter : ∀ key tail,
      after (path ++ { name := name, key := key } :: tail) = leafHere new key tail)
    (hclean : record.Clean) : Mends record.patch (fieldScope path name) before after := by
  -- away from the place of the leaf both maps are empty
  have helsewhere : ∀ loc ∈ fieldScope path name, loc ≠ path ++ [{ name := name }] →
      before loc = none ∧ after loc = none := by
    rintro loc ⟨key, tail, rfl⟩ hne
    have haway : ¬ (key = ∅ ∧ tail = []) := by
      rintro ⟨rfl, rfl⟩
      exact hne rfl
    rw [hbefore, hafter, leafHere, leafHere, if_neg haway, if_neg haway]
    exact ⟨rfl, rfl⟩
  have hplace : path ++ [{ name := name }] ∈ fieldScope path name := ⟨∅, [], rfl⟩
  have hhere : after (path ++ [{ name := name }]) = new := by
    rw [hafter, leafHere, if_pos ⟨rfl, rfl⟩]
  cases h with
  | kept heq =>
    refine Mends.empty ?_
    rintro loc ⟨key, tail, rfl⟩
    rw [hbefore, hafter, heq]
  | deleted hnone =>
    have hdelete : Mends (recordDelete path name).patch (below (path ++ [{ name := name }]))
        before after := by
      refine Mends.delete fun loc hloc => ?_
      obtain ⟨tail, rfl⟩ := mem_below_elem_iff.1 hloc
      rw [hafter, hnone, leafHere, ite_self]
    refine hdelete.extend ?_ ?_
    · intro loc hloc
      obtain ⟨tail, rfl⟩ := mem_below_elem_iff.1 hloc
      exact ⟨∅, tail, rfl⟩
    · intro loc hloc hout
      have hne : loc ≠ path ++ [{ name := name }] := by
        rintro rfl
        exact hout (List.prefix_refl _)
      rw [(helsewhere loc hloc hne).1, (helsewhere loc hloc hne).2]
  | updated leaf hsome =>
    cases hencode : ygot.encodeTypedValue leaf with
    | some err =>
      rw [recordUpdate, hencode] at hclean
      exact absurd hclean (not_clean_recordError _ _ _)
    | none =>
      rw [recordUpdate, hencode]
      refine Mends.writes (fun loc leaf' => ?_) fun loc hloc hnone => ?_
      · rw [List.mem_singleton, Prod.mk.injEq]
        constructor
        · rintro ⟨rfl, rfl⟩
          exact ⟨hplace, hhere.trans hsome⟩
        rintro ⟨hloc, hleaf⟩
        by_cases hne : loc = path ++ [{ name := name }]
        · subst hne
          rw [hhere, hsome] at hleaf
          exact ⟨rfl, (Option.some.inj hleaf).symm⟩
        · rw [(helsewhere loc hloc hne).2] at hleaf
          simp at hleaf
      · refine (helsewhere loc hloc ?_).1
        rintro rfl
        rw [hhere, hsome] at hnone
        simp at hnone
  | failed record hfailed => exact absurd hclean hfailed

end

end SonicGnmi.TranslUtils
