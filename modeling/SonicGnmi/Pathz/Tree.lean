import SonicGnmi.Foundation.BacktrackingSearch
import SonicGnmi.Pathz.Steps

/-!
# The contents of the policy trie

The trie is seen as a map from flat step lists to node contents.  Inserting a
rule changes the content at the steps of the rule and nowhere else, so after
all insertions the content at a step list is made of exactly the rules with
these steps, in the order of the policy.

* `child` — the edges of the trie, labelled by steps;
* `contentAt` — the content reached by a step list;
* `WellKeyed` — a node without key name has no key children, which the
  insertion keeps and which makes the edges stable under later insertions;
* `insertSteps_content`, `insertRules_content` — the effect of one insertion
  and of a whole policy.
-/

namespace SonicGnmi.Pathz

open Foundation Foundation.BacktrackingSearch Gnmi GnmiAuthzNode

/-- The part of a node that `insertPath` changes at a leaf. -/
@[ext] structure Content where
  users : String → Option Permission := fun _ => none
  groups : GoMap String Permission := ∅
  rule : String := ""

def GnmiAuthzNode.content (node : GnmiAuthzNode) : Content where
  users := node.users
  groups := node.groups
  rule := node.rule

/-- A permission entry after a rule has been recorded in it. -/
def addEntry (entry : Option Permission) (rule : AuthorizationRule) : Permission :=
  (entry.getD {}).updated rule.action rule.mode rule.id

/-- A content after a rule has been recorded in it. -/
def Content.add (c : Content) (rule : AuthorizationRule) : Content where
  users :=
    match rule.principal with
    | some (.user name) => Function.update c.users name (some (addEntry (c.users name) rule))
    | _ => c.users
  groups :=
    match rule.principal with
    | some (.group name) => c.groups.insert name (addEntry (c.groups.lookup name) rule)
    | _ => c.groups
  rule := printPath rule.path.elem

/-- The edges of the trie. -/
def GnmiAuthzNode.child (node : GnmiAuthzNode) : Step → Option GnmiAuthzNode
  | .name n => node.nameNext n
  | .key k v => if k = node.key then node.keyNext v else none

/-- The node reached by a step list. -/
def GnmiAuthzNode.find (node : GnmiAuthzNode) (p : List Step) : Option GnmiAuthzNode :=
  walk GnmiAuthzNode.child node p

/-- The content reached by a step list; nothing there is the empty content. -/
def GnmiAuthzNode.contentAt (node : GnmiAuthzNode) (p : List Step) : Content :=
  match node.find p with
  | none => {}
  | some target => target.content

/-- No node below this one has key children without a key name. -/
def GnmiAuthzNode.WellKeyed (node : GnmiAuthzNode) : Prop :=
  ∀ p target, node.find p = some target → target.key = "" → ∀ v, target.keyNext v = none

variable (node : GnmiAuthzNode)

@[simp] theorem find_nil : node.find [] = some node := rfl

theorem find_cons (s : Step) (rest : List Step) :
    node.find (s :: rest) = (node.child s).bind fun next => next.find rest :=
  walk_cons child node s rest

@[simp] theorem contentAt_nil : node.contentAt [] = node.content := rfl

@[simp] theorem child_empty (s : Step) : ({} : GnmiAuthzNode).child s = none := by
  cases s with
  | name n => rfl
  | key k v => simp [child]

@[simp] theorem contentAt_empty (p : List Step) : ({} : GnmiAuthzNode).contentAt p = {} := by
  cases p with
  | nil => rfl
  | cons s p =>
    rw [contentAt, find_cons, child_empty]
    rfl

theorem contentAt_cons (s : Step) (rest : List Step) :
    node.contentAt (s :: rest) = ((node.child s).getD {}).contentAt rest := by
  rw [contentAt, find_cons]
  cases node.child s with
  | some next => rfl
  | none => exact (contentAt_empty rest).symm

theorem wellKeyed_iff : node.WellKeyed ↔
      (node.key = "" → ∀ v, node.keyNext v = none) ∧
        ∀ s next, node.child s = some next → next.WellKeyed := by
  constructor
  · intro hkeyed
    refine ⟨hkeyed [] node rfl, ?_⟩
    intro s next hchild p target hfind
    refine hkeyed (s :: p) target ?_
    rw [find_cons, hchild]
    exact hfind
  · rintro ⟨hself, hchildren⟩ p target hfind
    cases p with
    | nil =>
      rw [find_nil, Option.some.injEq] at hfind
      subst hfind
      exact hself
    | cons s p =>
      rw [find_cons, Option.bind_eq_some_iff] at hfind
      obtain ⟨next, hchild, hnext⟩ := hfind
      exact hchildren s next hchild p target hnext

theorem wellKeyed_empty : ({} : GnmiAuthzNode).WellKeyed := by
  rw [wellKeyed_iff]
  refine ⟨fun _ _ => rfl, ?_⟩
  intro s next hchild
  rw [child_empty] at hchild
  contradiction

theorem wellKeyed_getD {o : Option GnmiAuthzNode} (h : ∀ next, o = some next → next.WellKeyed) :
    (o.getD {}).WellKeyed := by
  cases o with
  | none => exact wellKeyed_empty
  | some next => exact h next rfl

/-- The steps of a rule that may be inserted: no key has an empty name. -/
def Step.Named : Step → Prop
  | .name _ => True
  | .key k _ => k ≠ ""

variable {node result : GnmiAuthzNode} {rule : AuthorizationRule}

/-- A leaf insertion records the rule in the content and keeps the edges. -/
theorem addRule_ok (hok : node.addRule rule = .ok result) :
    result.content = node.content.add rule ∧ result.nameNext = node.nameNext ∧
      result.key = node.key ∧ result.keyNext = node.keyNext := by
  simp only [addRule] at hok
  split at hok <;> cases hok <;> rename_i name hprincipal <;>
    exact ⟨by simp [content, Content.add, hprincipal, addEntry], rfl, rfl, rfl⟩

theorem child_congr {node' : GnmiAuthzNode} (hname : node'.nameNext = node.nameNext)
    (hkey : node'.key = node.key) (hnext : node'.keyNext = node.keyNext) (s : Step) :
    node'.child s = node.child s := by
  cases s with
  | name n => simp only [child, hname]
  | key k v => simp [child, hkey, hnext]

/-- One insertion step below the root: the chosen child becomes the result of
the inner insertion and every other child stays. -/
theorem insertSteps_cons {s : Step}
    {rest : List Step} (hself : node.key = "" → ∀ v, node.keyNext v = none) (hnamed : s.Named)
    (hok : node.insertSteps rule (s :: rest) = .ok result) :
    ∃ child, ((node.child s).getD {}).insertSteps rule rest = .ok child ∧
      result.child s = some child ∧
      (∀ other, other ≠ s → result.child other = node.child other) ∧
      result.content = node.content ∧
      (result.key = "" → ∀ v, result.keyNext v = none) := by
  cases s with
  | name n =>
    simp only [insertSteps] at hok
    split at hok <;> cases hok
    rename_i child hinner
    refine ⟨child, hinner, ?_, ?_, rfl, hself⟩
    · simp [GnmiAuthzNode.child]
    intro other hother
    cases other with
    | name m =>
      have hne : m ≠ n := fun h => hother (by rw [h])
      simp [GnmiAuthzNode.child, Function.update_of_ne hne]
    | key k v => rfl
  | key k v =>
    simp only [insertSteps] at hok
    split at hok
    · cases hok
    rename_i hmismatch
    split at hok <;> cases hok
    rename_i child hinner
    -- Before the insertion the node either had this key or no key at all.
    have hold : ∀ k' v', node.child (.key k' v') =
        if k' = k then node.keyNext v' else none := by
      intro k' v'
      by_cases hempty : node.key = ""
      · simp [GnmiAuthzNode.child, hself hempty v']
      · have hsame : node.key = k := by
          by_contra hne
          exact hmismatch ⟨hempty, hne⟩
        simp [GnmiAuthzNode.child, hsame]
    refine ⟨child, ?_, ?_, ?_, rfl, fun h => absurd h hnamed⟩
    · rw [hold, if_pos rfl]
      exact hinner
    · simp [GnmiAuthzNode.child]
    intro other hother
    cases other with
    | name m => rfl
    | key k' v' =>
      rw [hold]
      by_cases hk : k' = k
      · have hv : v' ≠ v := fun h => hother (by rw [hk, h])
        simp [GnmiAuthzNode.child, hk, Function.update_of_ne hv]
      · simp [GnmiAuthzNode.child, hk]

/-- Inserting a rule records it in the content at its steps, changes no other
content, and keeps the trie well keyed. -/
theorem insertSteps_content {p : List Step} (hkeyed : node.WellKeyed) (hnamed : ∀ s ∈ p, s.Named)
    (hok : node.insertSteps rule p = .ok result) :
    result.WellKeyed ∧ ∀ q, result.contentAt q =
        if q = p then (node.contentAt q).add rule else node.contentAt q := by
  induction p generalizing node result with
  | nil =>
    rw [insertSteps] at hok
    obtain ⟨hcontent, hname, hkey, hnext⟩ := addRule_ok hok
    have hchild := child_congr hname hkey hnext
    constructor
    · rw [wellKeyed_iff] at hkeyed ⊢
      rw [hkey, hnext]
      refine ⟨hkeyed.1, ?_⟩
      intro s next hs
      rw [hchild] at hs
      exact hkeyed.2 s next hs
    · intro q
      cases q with
      | nil => simpa using hcontent
      | cons s q => simp [contentAt_cons, hchild]
  | cons s p ih =>
    rw [wellKeyed_iff] at hkeyed
    obtain ⟨child, hinner, hchild, hothers, hcontent, hself⟩ :=
      insertSteps_cons hkeyed.1 (hnamed s (by simp)) hok
    have hchildKeyed : ((node.child s).getD {}).WellKeyed :=
      wellKeyed_getD (hkeyed.2 s)
    obtain ⟨hkeyed', hcontents⟩ := ih hchildKeyed
      (fun t ht => hnamed t (List.mem_cons_of_mem s ht)) hinner
    constructor
    · rw [wellKeyed_iff]
      refine ⟨hself, ?_⟩
      intro t next ht
      by_cases hts : t = s
      · subst hts
        rw [hchild, Option.some.injEq] at ht
        subst ht
        exact hkeyed'
      · rw [hothers t hts] at ht
        exact hkeyed.2 t next ht
    · intro q
      cases q with
      | nil => simpa using hcontent
      | cons t q =>
        rw [contentAt_cons, contentAt_cons]
        by_cases hts : t = s
        · subst hts
          rw [hchild, Option.getD_some, hcontents q]
          by_cases hqp : q = p <;> simp [hqp]
        · rw [hothers t hts, if_neg]
          intro h
          exact hts (List.cons.inj h).1

/-- The flat steps of a rule. -/
def AuthorizationRule.steps (rule : AuthorizationRule) : List Step :=
  Pathz.steps rule.path.elem

/-- The rules of a policy at one step list. -/
def rulesAt (rules : List AuthorizationRule) (p : List Step) : List AuthorizationRule :=
  rules.filter fun r => r.steps = p

/-- Every key name of the rule is a non-empty string. -/
def AuthorizationRule.KeysNamed (rule : AuthorizationRule) : Prop :=
  ∀ e ∈ rule.path.elem, ∀ k ∈ e.key, k ≠ ""

theorem named_of_keysNamed (h : rule.KeysNamed) : ∀ s ∈ rule.steps, s.Named := by
  intro s hs
  unfold AuthorizationRule.steps Pathz.steps at hs
  rw [List.mem_flatMap] at hs
  obtain ⟨e, he, hs⟩ := hs
  rcases List.mem_cons.1 hs with rfl | hs
  · trivial
  · unfold keySteps at hs
    rw [List.mem_map] at hs
    obtain ⟨k, hk, rfl⟩ := hs
    exact h e he k (mem_elemKeys.1 hk)

/-- Inserting a list of rules collects, at every step list, the rules with
these steps. -/
theorem insertRules_content {root : GnmiAuthzNode} {rules : List AuthorizationRule}
    (hkeyed : node.WellKeyed) (hkeys : ∀ r ∈ rules, r.KeysNamed)
    (hok : insertRules node rules = .ok root) (p : List Step) :
    root.contentAt p = (rulesAt rules p).foldl .add (node.contentAt p) := by
  induction rules generalizing node with
  | nil =>
    rw [insertRules, Except.ok.injEq] at hok
    rw [hok]
    rfl
  | cons rule rest ih =>
    rw [insertRules, insertPath_root] at hok
    split at hok
    · cases hok
    rename_i next hinsert
    obtain ⟨hnext, hcontent⟩ := insertSteps_content hkeyed
      (named_of_keysNamed (hkeys rule (by simp))) hinsert
    rw [ih hnext (fun r hr => hkeys r (List.mem_cons_of_mem rule hr)) hok, hcontent p]
    by_cases hp : p = rule.steps
    · simp [rulesAt, hp]
    · have hmem : rule.steps ≠ p := fun h => hp h.symm
      simp [rulesAt, hmem, hp]

theorem createPolicies_content {rules : List AuthorizationRule} {root : GnmiAuthzNode}
    (hkeys : ∀ r ∈ rules, r.KeysNamed) (hok : createPolicies rules = .ok root) (p : List Step) :
    root.contentAt p = (rulesAt rules p).foldl .add {} := by
  unfold createPolicies at hok
  split at hok
  · cases hok
  · rw [insertRules_content wellKeyed_empty hkeys hok p, contentAt_empty]

end SonicGnmi.Pathz
