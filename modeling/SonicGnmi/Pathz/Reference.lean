import SonicGnmi.Foundation.Loop
import SonicGnmi.Pathz.Decision

/-!
# The reference semantics of a policy

What a policy means, without the trie: a rule matches a request when its steps
are a prefix of the steps of the request, up to the wildcard key value, and the
most specific matching rule path with a decision for the user answers the
request.

* `Matches`, `MoreSpecific` — matching and specificity of flat step lists;
* `ReferenceResult` — the answer of a policy, as a relation on its rules;
* `referenceResult_unique` — the relation gives one answer;
* `authorizeSteps_reference` — the lookup in the trie of an accepted policy
  gives that answer.
-/

namespace SonicGnmi.Pathz

open Foundation Foundation.BacktrackingSearch Gnmi GnmiAuthzNode List Result

/-- A rule step matches a request step. -/
def Step.Matches : Step → Step → Prop
  | .name n, .name m => n = m
  | .key k v, .key k' v' => k = k' ∧ (v = wildCard ∨ v = v')
  | _, _ => False

/-- The steps of a rule are a prefix of the steps of a request, up to
wildcards. -/
def Matches : List Step → List Step → Prop
  | [], _ => True
  | _ :: _, [] => False
  | s :: rule, t :: request => s.Matches t ∧ Matches rule request

/-- An exact key value against the wildcard for the same key. -/
def Step.Sharper : Step → Step → Prop
  | .key k v, .key k' v' => k = k' ∧ v ≠ wildCard ∧ v' = wildCard
  | _, _ => False

/-- At the first difference an exact key value beats the wildcard; without a
difference the longer list wins. -/
def MoreSpecific : List Step → List Step → Prop
  | [], _ => False
  | _ :: _, [] => True
  | s :: p, t :: q => (s = t ∧ MoreSpecific p q) ∨ s.Sharper t

/-- The answer of a list of rules to a request: the decision and the printed
path of the most specific matching rule path that decides. -/
inductive ReferenceResult (rules : List AuthorizationRule) (groups : GroupTable)
    (user : String) (mode : Mode) (request : List Step) : Action → String → Prop
  | undecided
      (hnone : ∀ r ∈ rules, Matches r.steps request →
        decisionAt rules groups user mode r.steps = .unspecified) :
      ReferenceResult rules groups user mode request .unspecified ""
  | decided (r : AuthorizationRule) (hr : r ∈ rules) (hmatches : Matches r.steps request)
      (hdecides : decisionAt rules groups user mode r.steps ≠ .unspecified)
      (hbest : ∀ other ∈ rules, Matches other.steps request →
        decisionAt rules groups user mode other.steps ≠ .unspecified →
        other.steps = r.steps ∨ MoreSpecific r.steps other.steps) :
      ReferenceResult rules groups user mode request
        (decisionAt rules groups user mode r.steps) (printPath r.path.elem)

/-! ## Printed paths -/

/-- The text of one step. -/
def Step.print : Step → String
  | .name n => "/" ++ n
  | .key k v => "[" ++ k ++ "=" ++ v ++ "]"

/-- The text of a step list. -/
def printSteps : List Step → String
  | [] => ""
  | s :: rest => s.print ++ printSteps rest

theorem printSteps_append (p q : List Step) :
    printSteps (p ++ q) = printSteps p ++ printSteps q := by
  induction p with
  | nil => simp [printSteps]
  | cons s p ih => simp [printSteps, ih, String.append_assoc]

private theorem foldl_printKeys (e : PathElem) (keys : List String) (text : String) :
    keys.foldl (fun text k => text ++ "[" ++ k ++ "=" ++ (e.key.lookup k).getD "" ++ "]") text =
      text ++ printSteps (keySteps e keys) := by
  induction keys generalizing text with
  | nil => simp [printSteps]
  | cons k keys ih =>
    rw [foldl_cons, ih, keySteps_cons]
    simp [printSteps, Step.print, String.append_assoc]

theorem printKeys_eq (e : PathElem) : printKeys e = printSteps (keySteps e (elemKeys e)) := by
  have hkeys : e.key.sortedKeys = elemKeys e := by
    unfold elemKeys
    split
    · rfl
    · apply eq_nil_of_length_eq_zero
      rw [GoMap.length_sortedKeys]
      omega
  unfold printKeys
  rw [foldl_printKeys, hkeys, String.empty_append]

private theorem foldl_printPath (path : List PathElem) (text : String) :
    path.foldl (fun text e => text ++ "/" ++ e.name ++ printKeys e) text =
      text ++ printSteps (steps path) := by
  induction path generalizing text with
  | nil => simp [printSteps]
  | cons e path ih =>
    rw [foldl_cons, ih, steps_cons, printKeys_eq]
    simp [printSteps, printSteps_append, Step.print, String.append_assoc]

theorem printPath_congr {path path' : List PathElem} (h : steps path = steps path') :
    printPath path = printPath path' := by
  simp [printPath, foldl_printPath, h]

/-! ## Specificity -/

theorem not_sharper_self (s : Step) : ¬ s.Sharper s := by
  cases s with
  | name n => exact id
  | key k v => exact fun h => h.2.1 h.2.2

theorem sharper_asymm {s t : Step} (hst : s.Sharper t) : ¬ t.Sharper s := by
  cases s with
  | name n => exact hst.elim
  | key k v =>
    cases t with
    | name n => exact hst.elim
    | key k' v' => exact fun hts => hst.2.1 hts.2.2

theorem moreSpecific_asymm {p q : List Step} (hpq : MoreSpecific p q) : ¬ MoreSpecific q p := by
  induction p generalizing q with
  | nil => exact hpq.elim
  | cons s p ih =>
    cases q with
    | nil => exact id
    | cons t q =>
      rintro (⟨hts, hqp⟩ | hts)
      · subst hts
        rcases hpq with ⟨-, hpq⟩ | hself
        · exact ih hpq hqp
        · exact not_sharper_self _ hself
      · rcases hpq with ⟨rfl, -⟩ | hst
        · exact not_sharper_self _ hts
        · exact sharper_asymm hst hts

/-- The reference semantics gives one answer. -/
theorem referenceResult_unique {rules : List AuthorizationRule} {groups : GroupTable}
    {user : String} {mode : Mode} {request : List Step} {a a' : Action} {m m' : String}
    (h : ReferenceResult rules groups user mode request a m)
    (h' : ReferenceResult rules groups user mode request a' m') : a = a' ∧ m = m' := by
  cases h with
  | undecided hnone =>
    cases h' with
    | undecided _ => exact ⟨rfl, rfl⟩
    | decided r hr hmatches hdecides _ => exact absurd (hnone r hr hmatches) hdecides
  | decided r hr hmatches hdecides hbest =>
    cases h' with
    | undecided hnone => exact absurd (hnone r hr hmatches) hdecides
    | decided r' hr' hmatches' hdecides' hbest' =>
      have hsame : r.steps = r'.steps := by
        rcases hbest r' hr' hmatches' hdecides' with heq | hmore
        · exact heq.symm
        · rcases hbest' r hr hmatches hdecides with heq | hmore'
          · exact heq
          · exact absurd hmore' (moreSpecific_asymm hmore)
      exact ⟨by rw [hsame], printPath_congr hsame⟩

/-! ## The lookup as a search -/

/-- What a result contributes to the search. -/
def Result.outcome (r : Result) : Option (Action × String) :=
  if r.isHit then some (r.action, r.matchedRule) else none

/-- A result that decides, or says nothing at all. -/
def Result.Settled (r : Result) : Prop :=
  (r.action, r.matchedRule) = r.outcome.getD (.unspecified, "")

theorem outcome_orElse (r fallback : Result) :
    (r.orElse fallback).outcome = r.outcome.or fallback.outcome := by
  unfold orElse
  cases hhit : r.isHit with
  | true | false => simp [outcome, hhit]

theorem Result.Says.outcome {r : Result} {a : Action} {text : String} (hsaid : r.Says a text)
    (htext : text ≠ "") : r.outcome = if a = .unspecified then none else some (a, text) := by
  unfold Result.outcome Result.isHit
  rw [hsaid.action, hsaid.matched]
  by_cases ha : a = .unspecified
  · simp [ha]
  · simp [ha, htext]

theorem Result.Says.settled {r : Result} {a : Action} {text : String} (hsaid : r.Says a text)
    (htext : text ≠ "") : r.Settled := by
  unfold Settled
  rw [hsaid.outcome htext, hsaid.action, hsaid.matched]
  by_cases ha : a = .unspecified
  · simp [ha]
  · simp [ha]

/-- The labels a request step may follow, exact values first. -/
def alternatives : Step → List Step
  | .name n => [.name n]
  | .key k v => [.key k v, .key k wildCard]

/-- The trie as a search space for one user and mode. -/
def lookupSpace (user : String) (mode : Mode) (groups : GroupTable) :
    Space GnmiAuthzNode Step Step (Action × String) where
  child := GnmiAuthzNode.child
  value := fun node => (node.decideHere user mode groups Iteration.stored).outcome
  alternatives := alternatives

/-- The node records rules with known actions and one printed path. -/
def GnmiAuthzNode.Records (node : GnmiAuthzNode) (here : List AuthorizationRule) : Prop :=
  node.content = contentOf here ∧ (∀ r ∈ here, r.action.Known) ∧
    ∃ text, text ≠ "" ∧ ∀ r ∈ here, printPath r.path.elem = text

/-- Every node below this one records some rules. -/
def GnmiAuthzNode.Recorded (node : GnmiAuthzNode) : Prop :=
  ∀ p target, node.find p = some target → ∃ here, target.Records here

theorem recorded_child {node next : GnmiAuthzNode} {s : Step} (hrecorded : node.Recorded)
    (hchild : node.child s = some next) : next.Recorded := by
  intro p target hfind
  refine hrecorded (s :: p) target ?_
  rw [find_cons, hchild]
  exact hfind

section Lookup

variable {user : String} {mode : Mode} {groups : GroupTable} {node : GnmiAuthzNode}

/-- The decision at a recorded node does not depend on the iteration order. -/
theorem decideHere_outcome (user : String) (groups : GroupTable) (hmode : mode.IsAccess)
    (hrecords : ∃ here, node.Records here) (iteration : Iteration) :
    (node.decideHere user mode groups iteration).outcome =
        (lookupSpace user mode groups).value node ∧
      (node.decideHere user mode groups iteration).Settled := by
  obtain ⟨here, hcontent, hknown, text, htext, hprinted⟩ := hrecords
  have hsaid := decideHere_eq hmode hcontent hknown htext hprinted groups user
  refine ⟨?_, (hsaid iteration).settled htext⟩
  change _ = (node.decideHere user mode groups Iteration.stored).outcome
  rw [(hsaid iteration).outcome htext, (hsaid Iteration.stored).outcome htext]

/-- The lookup below an optional child, with the result to fall back to. -/
def descendInto (user : String) (mode : Mode) (groups : GroupTable) (child : Option GnmiAuthzNode)
    (iteration : Iteration) (rest : List Step) (fallback : Result) : Result :=
  match child with
  | none => fallback
  | some next => (next.authorizeSteps user mode groups iteration rest).orElse fallback

variable (rest : List Step)

theorem authorizeSteps_name (node : GnmiAuthzNode) (iteration : Iteration) (n : String) :
    node.authorizeSteps user mode groups iteration (.name n :: rest) =
      descendInto user mode groups (node.child (.name n)) (iteration.under .name) rest
        (node.decideHere user mode groups iteration) := by
  cases hname : node.nameNext n <;>
    simp [authorizeSteps, child, descendInto, hname]

theorem authorizeSteps_key (node : GnmiAuthzNode) (iteration : Iteration) (k v : String) :
    node.authorizeSteps user mode groups iteration (.key k v :: rest) =
      descendInto user mode groups (node.child (.key k v)) (iteration.under .exact) rest
        (descendInto user mode groups (node.child (.key k wildCard))
          (iteration.under .wildcard) rest
          (node.decideHere user mode groups iteration)) := by
  simp only [authorizeSteps, child]
  by_cases hkey : k = node.key
  · rw [if_neg (not_not.2 hkey), if_pos hkey, if_pos hkey]
    cases node.keyNext wildCard <;> cases node.keyNext v <;> rfl
  · rw [if_pos hkey, if_neg hkey, if_neg hkey]
    rfl

/-- The result of a lookup is the one of a node on the way. -/
theorem authorizeSteps_induction (T : Result → Prop) (iteration : Iteration)
    (request : List Step) (hnode : ∀ p target, node.find p = some target → ∀ iteration,
      T (target.decideHere user mode groups iteration)) :
    T (node.authorizeSteps user mode groups iteration request) := by
  induction request generalizing node iteration with
  | nil => exact hnode [] node rfl iteration
  | cons s rest ih =>
    have hdescend : ∀ (label : Step) (iteration : Iteration) (fallback : Result), T fallback →
        T (descendInto user mode groups (node.child label) iteration rest fallback) := by
      intro label iteration fallback hfallback
      cases hchild : node.child label with
      | none => exact hfallback
      | some next =>
        have hnext := ih iteration fun p target hfind => hnode (label :: p) target (by
          rw [find_cons, hchild]
          exact hfind)
        unfold descendInto orElse
        dsimp only
        split
        · exact hnext
        · exact hfallback
    have hhere := hnode [] node rfl iteration
    cases s with
    | name n =>
      rw [authorizeSteps_name]
      exact hdescend _ _ _ hhere
    | key k v =>
      rw [authorizeSteps_key]
      exact hdescend _ _ _ (hdescend _ _ _ hhere)

theorem search_lookupSpace (node : GnmiAuthzNode) (s : Step) :
    search (lookupSpace user mode groups) node (s :: rest) =
      ((alternatives s).findSome? fun label => (node.child label).bind fun next =>
        search (lookupSpace user mode groups) next rest).or
          ((lookupSpace user mode groups).value node) :=
  search_cons (lookupSpace user mode groups) node s rest

/-- The lookup contributes what the backtracking search finds, whatever the
iteration order. -/
theorem authorizeSteps_search (user : String) (groups : GroupTable) (hmode : mode.IsAccess)
    (hrecorded : node.Recorded) (iteration : Iteration) (request : List Step) :
    (node.authorizeSteps user mode groups iteration request).outcome =
      search (lookupSpace user mode groups) node request := by
  induction request generalizing node iteration with
  | nil => exact (decideHere_outcome user groups hmode (hrecorded [] node rfl) iteration).1
  | cons s rest ih =>
    -- One descent adds the outcome of the child in front of the fallback.
    have hdescend : ∀ (label : Step) (iteration : Iteration) (fallback : Result),
        (descendInto user mode groups (node.child label) iteration rest fallback).outcome =
          ((node.child label).bind fun next =>
            search (lookupSpace user mode groups) next rest).or fallback.outcome := by
      intro label iteration fallback
      cases hchild : node.child label with
      | none => rfl
      | some next =>
        have hsearch := ih (recorded_child hrecorded hchild) iteration
        simp [descendInto, outcome_orElse, hsearch]
    have hhere := (decideHere_outcome user groups hmode (hrecorded [] node rfl) iteration).1
    rw [search_lookupSpace]
    cases s with
    | name n =>
      rw [authorizeSteps_name, hdescend, hhere]
      simp only [alternatives, findSome?_cons, findSome?_nil]
      cases (node.child (.name n)).bind fun next =>
        search (lookupSpace user mode groups) next rest <;> rfl
    | key k v =>
      rw [authorizeSteps_key, hdescend, hdescend, hhere]
      simp only [alternatives, findSome?_cons, findSome?_nil]
      cases (node.child (.key k v)).bind fun next =>
        search (lookupSpace user mode groups) next rest
      · cases (node.child (.key k wildCard)).bind fun next =>
          search (lookupSpace user mode groups) next rest <;> rfl
      · rfl

/-- The search may follow exactly the step lists that match the request. -/
theorem fits_iff_matches (p request : List Step) :
    Fits (lookupSpace user mode groups) p request ↔ Matches p request := by
  induction p generalizing request with
  | nil => exact Iff.rfl
  | cons s p ih =>
    cases request with
    | nil => exact Iff.rfl
    | cons t request =>
      have hstep : s ∈ alternatives t ↔ s.Matches t := by
        cases t with
        | name m => cases s <;> simp [alternatives, Step.Matches]
        | key k' v' =>
          cases s with
          | name n => simp [alternatives, Step.Matches]
          | key k v =>
            simp only [alternatives, mem_cons, Step.key.injEq, not_mem_nil, or_false, Step.Matches]
            tauto
      exact and_congr hstep (ih request)

/-- The preference of the search is specificity. -/
theorem moreSpecific_of_precedes {p q request : List Step}
    (hp : Matches p request) (hq : Matches q request)
    (h : Precedes (lookupSpace user mode groups) request p q) : MoreSpecific p q := by
  induction request generalizing p q with
  | nil => cases p <;> cases q <;> exact h.elim
  | cons t request ih =>
    cases p with
    | nil => cases q <;> exact h.elim
    | cons s p =>
      cases q with
      | nil => trivial
      | cons s' q =>
        rcases h with ⟨hsame, hrest⟩ | hbefore
        · exact Or.inl ⟨hsame, ih hp.2 hq.2 hrest⟩
        right
        change (alternatives t).idxOf s < (alternatives t).idxOf s' at hbefore
        have hs := hp.1
        have hs' := hq.1
        cases t with
        | name m =>
          cases s <;> cases s' <;> simp_all [Step.Matches]
        | key kt vt =>
          cases s with
          | name n => exact hs.elim
          | key k v =>
            cases s' with
            | name n => exact hs'.elim
            | key k' v' =>
              obtain ⟨rfl, hv⟩ := hs
              obtain ⟨rfl, hv'⟩ := hs'
              have hne : v ≠ v' := by
                rintro rfl
                exact Nat.lt_irrefl _ hbefore
              -- Nothing comes before the exact value.
              have hexact : v' ≠ vt := by
                rintro rfl
                rw [alternatives, idxOf_cons_self] at hbefore
                exact Nat.not_lt_zero _ hbefore
              have hstar : v' = wildCard := hv'.resolve_right hexact
              exact ⟨rfl, fun h => hne (h.trans hstar.symm), hstar⟩

end Lookup

/-! ## The answer of an accepted policy -/

section Policy

variable {rules : List AuthorizationRule} {root : GnmiAuthzNode} {p : List Step}

theorem mem_rulesAt {r : AuthorizationRule} : r ∈ rulesAt rules p ↔ r ∈ rules ∧ r.steps = p := by
  simp [rulesAt]

theorem printPath_rulesAt {r other : AuthorizationRule} (hr : r ∈ rulesAt rules p)
    (hother : other ∈ rulesAt rules p) : printPath other.path.elem = printPath r.path.elem :=
  printPath_congr ((mem_rulesAt.1 hother).2.trans (mem_rulesAt.1 hr).2.symm)

section

variable (hkeys : ∀ r ∈ rules, r.KeysNamed)
include hkeys

theorem content_of_find (hok : createPolicies rules = .ok root) {node : GnmiAuthzNode}
    (hfind : root.find p = some node) : node.content = contentOf (rulesAt rules p) := by
  have hcontent := createPolicies_content hkeys hok p
  rw [contentAt, hfind] at hcontent
  exact hcontent

section

variable (hknown : ∀ r ∈ rules, r.action.Known)
include hknown

section

variable (hok : createPolicies rules = .ok root)
include hok

theorem records_rulesAt {node : GnmiAuthzNode} (hfind : root.find p = some node) :
    node.Records (rulesAt rules p) := by
  refine ⟨content_of_find hkeys hok hfind, fun r hr => hknown r (mem_rulesAt.1 hr).1, ?_⟩
  rcases eq_nil_or_concat (rulesAt rules p) with hnil | ⟨rest, last, hlast⟩
  · rw [hnil]
    exact ⟨"/", by decide, by simp⟩
  · exact ⟨printPath last.path.elem, printPath_ne_empty _,
      fun r => printPath_rulesAt (by simp [hlast])⟩

/-- The value of a step list in the trie is the decision of the policy there,
with the printed path of any rule there. -/
theorem valueAt_createPolicies (user : String) {mode : Mode} (hmode : mode.IsAccess)
    (groups : GroupTable) (p : List Step) :
    (decisionAt rules groups user mode p = .unspecified ∧
        valueAt (lookupSpace user mode groups) root p = none) ∨
      (decisionAt rules groups user mode p ≠ .unspecified ∧ ∃ r ∈ rules, r.steps = p ∧
          valueAt (lookupSpace user mode groups) root p =
            some (decisionAt rules groups user mode p, printPath r.path.elem)) := by
  have hvalue : valueAt (lookupSpace user mode groups) root p =
      (root.find p).bind (lookupSpace user mode groups).value := rfl
  -- Without a rule there is no decision.
  have hsilent : (∀ r, r ∉ rulesAt rules p) →
      decisionAt rules groups user mode p = .unspecified := by
    intro hnone
    simp [decisionAt, eq_nil_iff_forall_not_mem.2 hnone, decisionOf, actionsFor]
  rw [hvalue]
  cases hfind : root.find p with
  | none =>
    refine Or.inl ⟨hsilent fun r hr => ?_, rfl⟩
    have hcontent := createPolicies_content hkeys hok p
    have hrule := contentOf_rule (ne_nil_of_mem hr) fun _ => printPath_rulesAt hr
    rw [contentAt, hfind] at hcontent
    rw [contentOf, ← hcontent] at hrule
    exact printPath_ne_empty _ hrule.symm
  | some target =>
    obtain ⟨hcontent, hactions, text, htext, hprinted⟩ := records_rulesAt hkeys hknown hok hfind
    have houtcome := (decideHere_eq hmode hcontent hactions htext hprinted groups user
      Iteration.stored).outcome htext
    by_cases hdecision : decisionAt rules groups user mode p = .unspecified
    · exact Or.inl ⟨hdecision, houtcome.trans (if_pos hdecision)⟩
    · obtain ⟨r, hr⟩ := not_forall_not.1 (mt hsilent hdecision)
      refine Or.inr ⟨hdecision, r, (mem_rulesAt.1 hr).1, (mem_rulesAt.1 hr).2, ?_⟩
      rw [hprinted r hr]
      exact houtcome.trans (if_neg hdecision)

/-- The lookup in the trie of an accepted policy gives the reference answer. -/
theorem authorizeSteps_reference (groups : GroupTable) (user : String) {mode : Mode}
    (hmode : mode.IsAccess) (iteration : Iteration) (request : List Step) :
    let r := root.authorizeSteps user mode groups iteration request
    ReferenceResult rules groups user mode request r.action r.matchedRule := by
  intro r
  have hrecorded : root.Recorded := fun p _ hfind =>
    ⟨rulesAt rules p, records_rulesAt hkeys hknown hok hfind⟩
  have hsearch := authorizeSteps_search user groups hmode hrecorded iteration request
  have hsettled := authorizeSteps_induction Settled iteration request
    fun p target hfind it =>
      (decideHere_outcome user groups hmode (hrecorded p target hfind) it).2
  have hvalue := fun p => valueAt_createPolicies hkeys hknown hok user hmode groups p
  change (r.action, r.matchedRule) = r.outcome.getD (.unspecified, "") at hsettled
  cases hfound : search (lookupSpace user mode groups) root request with
  | none =>
    rw [hsearch, hfound, Option.getD_none, Prod.mk.injEq] at hsettled
    rw [hsettled.1, hsettled.2]
    refine ReferenceResult.undecided ?_
    intro rule _ hmatches
    have hnone := (search_eq_none_iff _ root request).1 hfound rule.steps
      ((fits_iff_matches _ _).2 hmatches)
    rcases hvalue rule.steps with ⟨hdecision, -⟩ | ⟨-, other, -, -, hsome⟩
    · exact hdecision
    · rw [hnone] at hsome
      contradiction
  | some found =>
    obtain ⟨p, hfits, hp, hbest⟩ := search_best _ hfound
    rcases hvalue p with ⟨-, hnone⟩ | ⟨hdecides, rule, hrule, rfl, hsome⟩
    · rw [hnone] at hp
      contradiction
    rw [hsome, Option.some.injEq] at hp
    rw [hsearch, hfound, Option.getD_some, ← hp, Prod.mk.injEq] at hsettled
    rw [hsettled.1, hsettled.2]
    have hmatches := (fits_iff_matches rule.steps request).1 hfits
    refine ReferenceResult.decided rule hrule hmatches hdecides ?_
    intro other _ hother hdecides'
    have hreached : valueAt (lookupSpace user mode groups) root other.steps ≠ none := by
      rcases hvalue other.steps with ⟨hdecision, -⟩ | ⟨-, _, -, -, hsome'⟩
      · exact absurd hdecision hdecides'
      · simp [hsome']
    rcases hbest other.steps ((fits_iff_matches _ _).2 hother) hreached with heq | hprec
    · exact Or.inl heq
    · exact Or.inr (moreSpecific_of_precedes hmatches hother hprec)

end

end

end

/-- Both lookups of a processor that holds an accepted policy give the
reference answer: for every user, group table, request and iteration order. -/
theorem authorize_reference (hkeys : ∀ r ∈ rules, r.KeysNamed)
    (hknown : ∀ r ∈ rules, r.action.Known) (hok : createPolicies rules = .ok root)
    (processor : GnmiAuthzProcessor) (hroot : processor.root = some root)
    (user : String) {mode : Mode} (hmode : mode.IsAccess) (iteration : Iteration)
    (pathPrefix path : Path) :
    (∃ r, processor.authorize user path mode iteration = .ok r ∧
        ReferenceResult rules processor.groups user mode (steps path.elem)
          r.action r.matchedRule) ∧
      ∃ r, processor.authorizeWithPrefix user pathPrefix path mode iteration = .ok r ∧
        ReferenceResult rules processor.groups user mode
          (steps (pathPrefix.elem ++ path.elem)) r.action r.matchedRule := by
  have hspecified : mode ≠ .unspecified := by
    rcases hmode with rfl | rfl <;> decide
  have helems : ∀ elems, ∃ r, processor.authorizeElems user elems mode iteration = .ok r ∧
      ReferenceResult rules processor.groups user mode (steps elems)
        r.action r.matchedRule := by
    intro elems
    refine ⟨_, ?_, authorizeSteps_reference hkeys hknown hok processor.groups user hmode
      iteration (steps elems)⟩
    rw [GnmiAuthzProcessor.authorizeElems, if_neg hspecified, hroot]
    simp [authorize_root]
  exact ⟨helems path.elem, helems (pathPrefix.elem ++ path.elem)⟩

end Policy

/-! ## An exact key value against a longer wildcard rule -/

def keyedElem (name key value : String) : PathElem where
  name := name
  key := AList.singleton key value

/-- `/a/d[k1=*]/e/f` permits and `/a/d[k1=v1]/e` denies the same user. -/
def exactAgainstWildcard : List AuthorizationRule :=
  [{ id := "1", principal := some (.user "User1"), action := .permit, mode := .read
     path := { elem := [{ name := "a" }, keyedElem "d" "k1" "*", { name := "e" },
       { name := "f" }] } },
   { id := "2", principal := some (.user "User1"), action := .deny, mode := .read
     path := { elem := [{ name := "a" }, keyedElem "d" "k1" "v1", { name := "e" }] } }]

theorem keysNamed_exactAgainstWildcard : ∀ r ∈ exactAgainstWildcard, r.KeysNamed := by
  simp [exactAgainstWildcard, AuthorizationRule.KeysNamed, keyedElem, AList.mem_keys]

/-- The answer for `/a` and `/d[k1=v1]/e/f`: the exact value wins over the
longer path. -/
theorem authorize_reference_exact_wins :
    ∃ root r, createPolicies exactAgainstWildcard = .ok root ∧
      ({ root := some root } : GnmiAuthzProcessor).authorizeWithPrefix "User1"
          { elem := [{ name := "a" }] }
          { elem := [keyedElem "d" "k1" "v1", { name := "e" }, { name := "f" }] }
          .read Iteration.stored = .ok r ∧
      r.action = .deny ∧ r.matchedRule = "/a/d[k1=v1]/e" ∧
      ReferenceResult exactAgainstWildcard ∅ "User1" .read
        (steps ([{ name := "a" }] ++ [keyedElem "d" "k1" "v1", { name := "e" }, { name := "f" }]))
        r.action r.matchedRule := by
  have heval : ((createPolicies exactAgainstWildcard).toOption.bind fun root =>
        (({ root := some root } : GnmiAuthzProcessor).authorizeWithPrefix "User1"
          { elem := [{ name := "a" }] }
          { elem := [keyedElem "d" "k1" "v1", { name := "e" }, { name := "f" }] }
          .read Iteration.stored).toOption) =
      some { action := .deny, ruleId := "2", matchedRule := "/a/d[k1=v1]/e" } := by
    decide +kernel
  obtain ⟨root, hok, hdeny⟩ := Loop.ok_of_toOption heval
  obtain ⟨-, r, hr, hreference⟩ := authorize_reference keysNamed_exactAgainstWildcard
    (by simp [exactAgainstWildcard, Action.Known]) hok { root := some root } rfl "User1" (Or.inl rfl)
    Iteration.stored { elem := [{ name := "a" }] }
    { elem := [keyedElem "d" "k1" "v1", { name := "e" }, { name := "f" }] }
  obtain rfl := Except.ok.inj (hdeny.symm.trans hr)
  exact ⟨root, _, hok, hr, rfl, rfl, hreference⟩

end SonicGnmi.Pathz
