import SonicGnmi.Pathz.Model

/-!
# Paths as flat lists of steps

A path is read as one list: for each element its name, then its key-value
pairs sorted by key name.  Both recursions of the authorizer consume exactly
one step per call, so each of them is a structural recursion over this list.

* `steps` — the flat view of a path;
* `authorizeSteps`, `insertSteps` — the two recursions over flat lists;
* `authorize_eq_authorizeSteps`, `insertPath_eq_insertSteps` — the index
  recursions of the source compute the same results.
-/

namespace SonicGnmi.Pathz

open Foundation Gnmi GnmiAuthzNode List

/-- One step of a path: an element name, or one key with its value. -/
inductive Step where
  | name (name : String)
  | key (key value : String)
  deriving DecidableEq

variable (e : PathElem)

/-- The steps of some keys of an element. -/
def keySteps (keys : List String) : List Step :=
  keys.map fun k => .key k ((e.key.lookup k).getD "")

/-- The steps of one element. -/
def elemSteps : List Step :=
  .name e.name :: keySteps e (elemKeys e)

/-- The flat view of a path. -/
def steps (path : List PathElem) : List Step :=
  path.flatMap elemSteps

@[simp] theorem steps_nil : steps [] = [] := rfl

@[simp] theorem steps_cons (path : List PathElem) :
    steps (e :: path) = .name e.name :: (keySteps e (elemKeys e) ++ steps path) := rfl

theorem keySteps_cons (k : String) (keys : List String) :
    keySteps e (k :: keys) = .key k ((e.key.lookup k).getD "") :: keySteps e keys := rfl

@[simp] theorem keySteps_nil : keySteps e [] = [] := rfl

theorem mem_elemKeys {e : PathElem} {k : String} : k ∈ elemKeys e ↔ k ∈ e.key := by
  unfold elemKeys
  split
  · exact GoMap.mem_sortedKeys
  rename_i hsize
  have hempty : e.key.entries = [] := eq_nil_of_length_eq_zero
    (by simpa [GoMap.size] using hsize)
  constructor <;> intro h
  · cases h
  · have hkeys : k ∈ e.key.keys := h
    simp [AList.keys, hempty] at hkeys

/-- The indices a recursion can be called with: between elements, or inside the
keys of the current element. -/
inductive Cursor (path : List PathElem) (nameIdx : Nat) : List String → Nat → Prop
  | between (keyIdx : Nat) : Cursor path nameIdx [] keyIdx
  | inside (keyIdx : Nat) (hname : nameIdx < path.length)
      (hkey : keyIdx < (elemKeys (path.get ⟨nameIdx, hname⟩)).length) :
      Cursor path nameIdx (elemKeys (path.get ⟨nameIdx, hname⟩)) keyIdx

/-- The steps that are still to be consumed at these indices. -/
def stepsFrom (path : List PathElem) (nameIdx : Nat) (keys : List String) (keyIdx : Nat) :
    List Step :=
  match keys with
  | [] => steps (path.drop nameIdx)
  | _ :: _ =>
    match path[nameIdx]? with
    | none => []
    | some e => keySteps e (keys.drop keyIdx) ++ steps (path.drop (nameIdx + 1))

@[simp] theorem stepsFrom_between (path : List PathElem) (nameIdx keyIdx : Nat) :
    stepsFrom path nameIdx [] keyIdx = steps (path.drop nameIdx) := rfl

variable {keyIdx nameIdx : Nat} {keys : List String} {path : List PathElem}

theorem stepsFrom_inside (hname : nameIdx < path.length) (hne : keys ≠ []) :
    stepsFrom path nameIdx keys keyIdx = keySteps (path.get ⟨nameIdx, hname⟩) (keys.drop keyIdx) ++
        steps (path.drop (nameIdx + 1)) := by
  cases keys with
  | nil => exact absurd rfl hne
  | cons k keys =>
    unfold stepsFrom
    rw [getElem?_eq_getElem hname]
    rfl

theorem stepsFrom_name (hname : nameIdx < path.length) :
    let e := path.get ⟨nameIdx, hname⟩
    let next := nextNameIndices e nameIdx
    Cursor path next.1 next.2.1 next.2.2 ∧ steps (path.drop nameIdx) =
        .name e.name :: stepsFrom path next.1 next.2.1 next.2.2 := by
  intro e next
  have hdrop : steps (path.drop nameIdx) =
      .name e.name :: (keySteps e (elemKeys e) ++ steps (path.drop (nameIdx + 1))) := by
    rw [drop_eq_getElem_cons hname]
    rfl
  by_cases hsize : e.key.size > 0
  · have hnext : next = (nameIdx, elemKeys e, 0) := by
      simp [next, nextNameIndices, hsize]
    have hlength : 0 < (elemKeys e).length := by
      rw [length_elemKeys]
      exact hsize
    rw [hnext]
    refine ⟨Cursor.inside 0 hname hlength, ?_⟩
    rw [hdrop, stepsFrom_inside hname (ne_nil_of_length_pos hlength)]
    rfl
  · have hnext : next = (nameIdx + 1, [], 0) := by
      simp [next, nextNameIndices, hsize]
    have hempty : elemKeys e = [] := by
      apply eq_nil_of_length_eq_zero
      rw [length_elemKeys]
      omega
    rw [hnext]
    refine ⟨Cursor.between _, ?_⟩
    rw [hdrop, hempty]
    rfl

theorem stepsFrom_key (hname : nameIdx < path.length)
    (hkey : keyIdx < (elemKeys (path.get ⟨nameIdx, hname⟩)).length) :
    let e := path.get ⟨nameIdx, hname⟩
    let next := nextKeyIndices nameIdx (elemKeys e) keyIdx
    Cursor path next.1 next.2.1 next.2.2 ∧
      ∃ v, e.key.lookup ((elemKeys e).get ⟨keyIdx, hkey⟩) = some v ∧
        stepsFrom path nameIdx (elemKeys e) keyIdx = .key ((elemKeys e).get ⟨keyIdx, hkey⟩) v ::
            stepsFrom path next.1 next.2.1 next.2.2 := by
  intro e next
  have hne : elemKeys e ≠ [] := ne_nil_of_length_pos (Nat.zero_lt_of_lt hkey)
  obtain ⟨v, hv⟩ := Option.isSome_iff_exists.1
    (AList.lookup_isSome.2 (mem_elemKeys.1 (get_mem (elemKeys e) ⟨keyIdx, hkey⟩)))
  have hcons : stepsFrom path nameIdx (elemKeys e) keyIdx =
      .key ((elemKeys e).get ⟨keyIdx, hkey⟩) v ::
        (keySteps e ((elemKeys e).drop (keyIdx + 1)) ++ steps (path.drop (nameIdx + 1))) := by
    rw [stepsFrom_inside hname hne, drop_eq_getElem_cons hkey, keySteps_cons]
    simp only [get_eq_getElem] at hv
    rw [hv]
    rfl
  by_cases hlast : keyIdx + 1 = (elemKeys e).length
  · have hnext : next = (nameIdx + 1, [], 0) := by
      simp [next, nextKeyIndices, hlast]
    rw [hnext]
    refine ⟨Cursor.between _, v, hv, ?_⟩
    rw [hcons, hlast, drop_length]
    rfl
  · have hnext : next = (nameIdx, elemKeys e, keyIdx + 1) := by
      unfold next nextKeyIndices
      rw [if_neg hlast]
    have hkey' : keyIdx + 1 < (elemKeys e).length :=
      Nat.lt_of_le_of_ne (Nat.succ_le_of_lt hkey) hlast
    rw [hnext]
    refine ⟨Cursor.inside (keyIdx + 1) hname hkey', v, hv, ?_⟩
    rw [hcons, stepsFrom_inside hname hne]

/-! ## The lookup over flat lists -/

/-- A subtree result if it decides, otherwise the fallback. -/
def Result.orElse (r fallback : Result) : Result :=
  if r.isHit then r else fallback

/-- `authorize` over the remaining steps. -/
def GnmiAuthzNode.authorizeSteps (user : String) (mode : Mode) (groups : GroupTable) :
    GnmiAuthzNode → Iteration → List Step → Result
  | node, iteration, [] => node.decideHere user mode groups iteration
  | node, iteration, .name n :: rest =>
    let ret := node.decideHere user mode groups iteration
    match node.nameNext n with
    | none => ret
    | some next =>
      (authorizeSteps user mode groups next (iteration.under .name) rest).orElse ret
  | node, iteration, .key k v :: rest =>
    let ret := node.decideHere user mode groups iteration
    if k ≠ node.key then
      ret
    else
      let fallback :=
        match node.keyNext wildCard with
        | none => ret
        | some next =>
          (authorizeSteps user mode groups next (iteration.under .wildcard) rest).orElse ret
      match node.keyNext v with
      | none => fallback
      | some next =>
        (authorizeSteps user mode groups next (iteration.under .exact) rest).orElse fallback

/-- The index recursion of the source is the recursion over the flat list. -/
theorem authorize_eq_authorizeSteps (user : String) (path : List PathElem) (mode : Mode)
    (groups : GroupTable) (hcursor : Cursor path nameIdx keys keyIdx) (node : GnmiAuthzNode)
    (iteration : Iteration) :
    node.authorize user path mode nameIdx keys keyIdx groups iteration =
      node.authorizeSteps user mode groups iteration (stepsFrom path nameIdx keys keyIdx) := by
  induction hn : remaining path nameIdx keys keyIdx using Nat.strong_induction_on
    generalizing nameIdx keyIdx keys node iteration with
  | _ n ih =>
    subst hn
    rw [authorize]
    cases hcursor with
    | between keyIdx =>
      by_cases hname : nameIdx ≥ path.length
      · rw [dif_pos hname, stepsFrom_between, drop_eq_nil_of_le hname]
        rfl
      have hlt : nameIdx < path.length := Nat.lt_of_not_ge hname
      obtain ⟨hcursor, hsteps⟩ := stepsFrom_name hlt
      rw [dif_neg hname, dif_neg (by simp), stepsFrom_between, hsteps]
      simp only [authorizeSteps]
      cases hchild : node.nameNext (path.get ⟨nameIdx, hlt⟩).name with
      | none => rfl
      | some next =>
        simp only
        rw [ih _ (remaining_nextNameIndices hlt) hcursor next _ rfl]
        rfl
    | inside keyIdx hname hkey =>
      obtain ⟨hcursor, v, hv, hsteps⟩ := stepsFrom_key hname hkey
      have hdecreases := remaining_nextKeyIndices path nameIdx hkey
      rw [dif_neg (Nat.not_le_of_lt hname), dif_pos (Nat.zero_lt_of_lt hkey),
        dif_neg (Nat.not_le_of_lt hkey), hsteps]
      simp only [authorizeSteps]
      generalize nextKeyIndices nameIdx (elemKeys (path.get ⟨nameIdx, hname⟩)) keyIdx = indices
        at hcursor hdecreases ⊢
      by_cases hmatch : (elemKeys (path.get ⟨nameIdx, hname⟩)).get ⟨keyIdx, hkey⟩ = node.key
      · rw [if_neg (not_not.2 hmatch), if_neg (not_not.2 hmatch), ← hmatch, hv]
        have hnext : ∀ next : GnmiAuthzNode, ∀ branch : Branch, next.authorize user path mode
              indices.1 indices.2.1 indices.2.2 groups (iteration.under branch) =
            next.authorizeSteps user mode groups (iteration.under branch)
              (stepsFrom path indices.1 indices.2.1 indices.2.2) :=
          fun next branch => ih _ hdecreases hcursor next _ rfl
        simp only [hnext]
        cases node.keyNext v with
        | none => cases node.keyNext wildCard <;> rfl
        | some next =>
          -- The wildcard branch is the fallback of the exact one.
          simp only [Result.orElse]
          split_ifs
          · rfl
          · cases node.keyNext wildCard <;> rfl
      · rw [if_pos hmatch, if_pos hmatch]

/-! ## The insertion over flat lists -/

/-- `insertPath` over the remaining steps. -/
def GnmiAuthzNode.insertSteps (rule : AuthorizationRule) :
    GnmiAuthzNode → List Step → Except String GnmiAuthzNode
  | node, [] => node.addRule rule
  | node, .name n :: rest =>
    match insertSteps rule ((node.nameNext n).getD {}) rest with
    | .error e => .error e
    | .ok child => .ok { node with nameNext := Function.update node.nameNext n (some child) }
  | node, .key k v :: rest =>
    if node.key ≠ "" ∧ node.key ≠ k then
      .error ("key " ++ node.key ++ " mismatch from other configured rule")
    else
      match insertSteps rule ((node.keyNext v).getD {}) rest with
      | .error e => .error e
      | .ok child =>
        .ok { node with key := k, keyNext := Function.update node.keyNext v (some child) }

/-- The index recursion of the insertion is the recursion over the flat list.
The errors about missing keys and key indices cannot occur. -/
theorem insertPath_eq_insertSteps (rule : AuthorizationRule)
    (hcursor : Cursor rule.path.elem nameIdx keys keyIdx) (node : GnmiAuthzNode) :
    node.insertPath rule nameIdx keys keyIdx =
      node.insertSteps rule (stepsFrom rule.path.elem nameIdx keys keyIdx) := by
  induction hn : remaining rule.path.elem nameIdx keys keyIdx using Nat.strong_induction_on
    generalizing nameIdx keyIdx keys node with
  | _ n ih =>
    subst hn
    rw [insertPath]
    cases hcursor with
    | between keyIdx =>
      by_cases hname : nameIdx ≥ rule.path.elem.length
      · rw [dif_pos hname, stepsFrom_between, drop_eq_nil_of_le hname]
        rfl
      have hlt : nameIdx < rule.path.elem.length := Nat.lt_of_not_ge hname
      obtain ⟨hcursor, hsteps⟩ := stepsFrom_name hlt
      rw [dif_neg hname, dif_neg (by simp), stepsFrom_between, hsteps]
      dsimp only
      rw [ih _ (remaining_nextNameIndices hlt) hcursor _ rfl]
      rfl
    | inside keyIdx hname hkey =>
      obtain ⟨hcursor, v, hv, hsteps⟩ := stepsFrom_key hname hkey
      have hdecreases := remaining_nextKeyIndices rule.path.elem nameIdx hkey
      rw [dif_neg (Nat.not_le_of_lt hname), dif_pos (Nat.zero_lt_of_lt hkey),
        dif_neg (Nat.not_le_of_lt hkey), hsteps]
      simp only [hv]
      rw [ih _ hdecreases hcursor _ rfl]
      rfl

theorem insertPath_root (rule : AuthorizationRule) (node : GnmiAuthzNode) :
    node.insertPath rule 0 [] 0 = node.insertSteps rule (steps rule.path.elem) := by
  rw [insertPath_eq_insertSteps rule (Cursor.between 0)]
  rfl

theorem authorize_root (node : GnmiAuthzNode) (user : String) (path : List PathElem)
    (mode : Mode) (groups : GroupTable) (iteration : Iteration) :
    node.authorize user path mode 0 [] 0 groups iteration =
      node.authorizeSteps user mode groups iteration (steps path) := by
  rw [authorize_eq_authorizeSteps user path mode groups (Cursor.between 0)]
  rfl

end SonicGnmi.Pathz
