import SonicGnmi.Pathz.Reference

/-!
# Where a result comes from

The id, the action and the printed path of a result are recorded at different places: an
entry of a node holds the id and the action of its last rule, the node the printed path
of its last rule.

* `Result.Traced` — all three belong to one rule, which speaks about the user and the mode;
* `authorize_traced` — every result of an accepted policy is traced, if no key of a rule has
  an empty name.
-/

namespace SonicGnmi.Pathz

open Foundation Gnmi

/-- One of the rules has this action, id and printed path, for this mode, and names the user
or a group of the user. -/
def Result.Traced (r : Result) (rules : List AuthorizationRule) (groups : GroupTable)
    (user : String) (mode : Mode) : Prop :=
  r.action ≠ .unspecified → ∃ rule ∈ rules, rule.id = r.ruleId ∧
    printPath rule.path.elem = r.matchedRule ∧ rule.action = r.action ∧ rule.mode = mode ∧
    (rule.namesUser user = true ∨ rule.namesGroupOf groups user = true)

section Lookup

variable {mode : Mode} {access : RuleAction} {groups : GroupTable} {user text : String}
  {here : List AuthorizationRule} {node : GnmiAuthzNode}

/-- What an entry says was there before or was said by one of the rules recorded since. -/
theorem addEntries_access (hmode : mode.IsAccess) {p : Permission} {entry : Option Permission}
    (hentry : addEntries entry here = some p) (haccess : p.access mode = some access) :
    (∃ before, entry = some before ∧ before.access mode = some access) ∨
      access.action = .unspecified ∨ ∃ rule ∈ here,
        rule.id = access.ruleId ∧ rule.action = access.action ∧ rule.mode = mode := by
  induction here generalizing entry with
  | nil => exact .inl ⟨p, hentry, haccess⟩
  | cons rule here ih =>
    rcases ih hentry with ⟨_, ⟨⟩, hnext⟩ | hsilent | ⟨other, hother, hfrom⟩
    · rw [addEntry, updated_access hmode] at hnext
      have hcases : (entry.getD {}).access mode = some access ∨
          rule.id = access.ruleId ∧ rule.action = access.action ∧ rule.mode = mode := by
        split at hnext
        · rename_i hrecords
          obtain ⟨before, hbefore, rfl⟩ := Option.map_eq_some_iff.1 hnext
          unfold RuleAction.update
          split
          · exact .inl hbefore
          · exact .inr ⟨rfl, rfl, hrecords.1⟩
        · exact .inl hnext
      rcases hcases with hold | hnew
      · cases entry with
        | some before => exact .inl ⟨before, rfl, hold⟩
        | none => rcases hmode with rfl | rfl <;> cases hold <;> exact .inr (.inl rfl)
      · exact .inr (.inr ⟨rule, List.mem_cons_self, hnew⟩)
    · exact .inr (.inl hsilent)
    · exact .inr (.inr ⟨other, List.mem_cons_of_mem rule hother, hfrom⟩)

theorem groupLoop_induction (T : Result → Prop) {entries : List (Σ _ : String, Permission)}
    {ret : Result} (h : T ret) (hentries : ∀ entry ∈ entries, groups.isMember entry.1 user = true →
      ∀ ret, T ret → T (ret.updated entry.2 mode text)) :
    T (groupLoop user mode groups text entries ret) := by
  induction entries generalizing ret with
  | nil => exact h
  | cons entry rest ih =>
    have hrest := fun other hother => hentries other (List.mem_cons_of_mem entry hother)
    unfold groupLoop
    split
    · rename_i hmember
      have hnext := hentries entry List.mem_cons_self hmember ret h
      dsimp only
      split
      · exact hnext
      · exact ih hnext hrest
    · exact ih h hrest

theorem decideHere_traced (hmode : mode.IsAccess) (hcontent : node.content = contentOf here)
    (htext : ∀ rule ∈ here, printPath rule.path.elem = node.rule) (iteration : Iteration) :
    (node.decideHere user mode groups iteration).Traced here groups user mode := by
  -- An entry made from the rules that pass a test, each of which speaks about the user.
  have hentry : ∀ (test : AuthorizationRule → Bool) (p : Permission),
      addEntries none (here.filter test) = some p →
      (∀ rule : AuthorizationRule, test rule = true →
        rule.namesUser user = true ∨ rule.namesGroupOf groups user = true) →
      ∀ ret : Result, ret.Traced here groups user mode →
        (ret.updated p mode node.rule).Traced here groups user mode := by
    intro test p hp htest ret hret
    obtain ⟨access, haccess, -⟩ := exists_access hmode p
    simp only [Result.updated, Result.updateResult, haccess]
    by_cases hdeny : ret.action = .deny
    · simpa only [if_pos hdeny] using hret
    by_cases hsilent : access.action = .unspecified
    · simpa [hdeny, hsilent] using hret
    rw [if_neg hdeny, if_pos hsilent]
    intro _
    rcases addEntries_access hmode hp haccess with ⟨_, ⟨⟩, _⟩ | hnone | ⟨rule, hrule, hid, ha, hm⟩
    · exact absurd hnone hsilent
    · obtain ⟨hmem, hnames⟩ := List.mem_filter.1 hrule
      exact ⟨rule, hmem, hid, htext rule hmem, ha, hm, htest rule hnames⟩
  have hloop : ∀ ret : Result, ret.Traced here groups user mode → (groupLoop user mode groups
      node.rule ((iteration.order []).visit node.groups) ret).Traced here groups user mode := by
    refine fun ret hret => groupLoop_induction (·.Traced here groups user mode) hret
      fun entry hvisit hmember => ?_
    have hlookup := (RangeOrder.mem_visit _ _ _ _).1 hvisit
    rw [show node.groups = _ from congrArg Content.groups hcontent, contentOf_groups] at hlookup
    refine hentry _ _ hlookup fun rule hnames => .inr ?_
    have hgroup : rule.principal = some (.group entry.1) := of_decide_eq_true hnames
    simpa [AuthorizationRule.namesGroupOf, hgroup] using hmember
  have hempty : ({} : Result).Traced here groups user mode := fun h => absurd rfl h
  have husers : node.users user = addEntries none (here.filter (·.namesUser user)) := by
    rw [← contentOf_users, ← hcontent]
    rfl
  cases hown : node.users user with
  | none =>
    simp only [GnmiAuthzNode.decideHere, hown, true_or, if_true]
    exact hloop _ hempty
  | some p =>
    have hfirst := hentry _ p (husers.symm.trans hown) (fun rule => .inl) {} hempty
    simp only [GnmiAuthzNode.decideHere, hown]
    split
    · exact hloop _ hfirst
    · exact hfirst

end Lookup

variable {rules : List AuthorizationRule} {root : GnmiAuthzNode}

/-- A rule for a key without a name, and one for `k`, at the same node. -/
def unnamedKey : List AuthorizationRule :=
  [{ id := "1", principal := some (.user "User1"), action := .permit, mode := .read
     path := { elem := [keyedElem "a" "" "v"] } },
   { id := "2", principal := some (.user "User2"), action := .permit, mode := .read
     path := { elem := [keyedElem "a" "k" "v"] } }]

end SonicGnmi.Pathz
