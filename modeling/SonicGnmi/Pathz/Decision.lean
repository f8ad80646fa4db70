import SonicGnmi.Pathz.Tree

/-!
# The decision at one step list

The rules of a policy that share their steps are recorded in one node.  This
module computes what that node says about a user: the verdict of the rules
naming the user, or, when they are silent, the verdict of the rules naming a
group of the user.  A verdict is deny as soon as one rule denies.

* `decisionOf` — the decision, read off the rules;
* `decideHere_eq` — the source reaches it, whatever order it visits the groups
  in.
-/

namespace SonicGnmi.Pathz

open Foundation Gnmi Action AuthorizationRule List

/-- One of the three actions that the enumeration names. -/
def Action.Known (a : Action) : Prop :=
  a = .unspecified ∨ a = .deny ∨ a = .permit

/-- Deny wins over permit. -/
def verdict (actions : List Action) : Action :=
  if Action.deny ∈ actions then .deny
  else if Action.permit ∈ actions then .permit
  else .unspecified

/-- The rule names the user. -/
def AuthorizationRule.namesUser (user : String) (r : AuthorizationRule) : Bool :=
  decide (r.principal = some (.user user))

/-- The rule names this group. -/
def AuthorizationRule.namesGroup (group : String) (r : AuthorizationRule) : Bool :=
  decide (r.principal = some (.group group))

/-- The rule names a group of the user. -/
def AuthorizationRule.namesGroupOf (groups : GroupTable) (user : String)
    (r : AuthorizationRule) : Bool :=
  match r.principal with
  | some (.group group) => groups.isMember group user
  | _ => false

/-- The actions of the rules for one mode. -/
def actionsFor (mode : Mode) (here : List AuthorizationRule) : List Action :=
  (here.filter fun r => decide (r.mode = mode)).map (·.action)

/-- The decision of rules with the same steps. -/
def decisionOf (here : List AuthorizationRule) (groups : GroupTable) (user : String)
    (mode : Mode) : Action :=
  let own := verdict (actionsFor mode (here.filter (·.namesUser user)))
  if own ≠ .unspecified then
    own
  else
    verdict (actionsFor mode (here.filter (·.namesGroupOf groups user)))

/-- The decision of a policy at one step list. -/
def decisionAt (rules : List AuthorizationRule) (groups : GroupTable) (user : String)
    (mode : Mode) (p : List Step) : Action :=
  decisionOf (rulesAt rules p) groups user mode

/-! ## Verdicts -/

variable (l : List Action)

theorem verdict_eq_deny_iff : verdict l = .deny ↔ deny ∈ l := by
  unfold verdict
  split
  · simp [*]
  · split
    · simp [*]
    · simp [*]

theorem verdict_eq_permit_iff : verdict l = .permit ↔ deny ∉ l ∧ permit ∈ l := by
  unfold verdict
  split
  · simp [*]
  · split
    · simp [*]
    · simp [*]

/-- Two lists with the same deny entries, and the same permit entries when they
have no deny entry, have the same verdict. -/
theorem verdict_congr {l l' : List Action} (hdeny : deny ∈ l ↔ deny ∈ l')
    (hpermit : deny ∉ l' → (permit ∈ l ↔ permit ∈ l')) : verdict l = verdict l' := by
  unfold verdict
  by_cases h : deny ∈ l'
  · rw [if_pos (hdeny.2 h), if_pos h]
  · rw [if_neg (fun hl => h (hdeny.1 hl)), if_neg h]
    simp [hpermit h]

theorem verdict_perm {l l' : List Action} (h : l.Perm l') : verdict l = verdict l' :=
  verdict_congr h.mem_iff fun _ => h.mem_iff

@[simp] theorem verdict_nil : verdict [] = .unspecified := rfl

variable {a : Action} {mode : Mode} {here : List AuthorizationRule} {text : String}

theorem verdict_singleton (h : a.Known) : verdict [a] = a := by
  rcases h with rfl | rfl | rfl <;> rfl

@[simp] theorem verdict_unspecified_cons : verdict (.unspecified :: l) = verdict l := by
  apply verdict_congr <;> simp

theorem verdict_append (l l' : List Action) : verdict (verdict l :: l') = verdict (l ++ l') := by
  apply verdict_congr
  · rw [mem_cons, mem_append, eq_comm, verdict_eq_deny_iff]
  · intro hno
    rw [mem_append, not_or] at hno
    rw [mem_cons, mem_append, eq_comm, verdict_eq_permit_iff]
    simp [hno.1]

theorem verdict_known : (verdict l).Known := by
  unfold verdict Known
  split
  · simp
  · split <;> simp

/-! ## Permission entries -/

/-- The modes in which access is decided. -/
def Mode.IsAccess (mode : Mode) : Prop := mode = .read ∨ mode = .write

/-- The action of an entry in a mode. -/
def entryAction (mode : Mode) (entry : Option Permission) : Action :=
  match entry with
  | none => .unspecified
  | some p =>
    match p.access mode with
    | none => .unspecified
    | some access => access.action

theorem verdict_concat_unspecified : verdict (l ++ [.unspecified]) = verdict l := by
  apply verdict_congr <;> simp

theorem exists_access (hmode : mode.IsAccess) (p : Permission) :
    ∃ access, p.access mode = some access ∧ entryAction mode (some p) = access.action := by
  rcases hmode with rfl | rfl
  · exact ⟨p.read, rfl, rfl⟩
  · exact ⟨p.write, rfl, rfl⟩

/-- Recording an action changes the access of its own mode. -/
theorem updated_access (hmode : mode.IsAccess) (p : Permission) (a : Action) (m : Mode)
    (id : String) : (p.updated a m id).access mode =
      if m = mode ∧ a ≠ .unspecified then (p.access mode).map (·.update a id)
      else p.access mode := by
  unfold Permission.updated Permission.updatePermission
  by_cases ha : a = .unspecified
  · simp [ha]
  · rcases hmode with rfl | rfl <;> cases m <;> simp [ha, Permission.access]

/-- Recording an action in a permission takes the verdict of both in the mode
of the action and changes nothing in the other mode. -/
private theorem entryAction_updated (hmode : mode.IsAccess) (p : Permission)
    (m : Mode) (id : String) (hp : (entryAction mode (some p)).Known) (ha : a.Known) :
    entryAction mode (some (p.updated a m id)) =
      verdict (entryAction mode (some p) :: if m = mode then [a] else []) := by
  obtain ⟨access, haccess, hentry⟩ := exists_access hmode p
  have hafter := updated_access hmode p a m id
  rw [haccess] at hafter
  rw [hentry] at hp ⊢
  by_cases hrecords : m = mode ∧ a ≠ .unspecified
  · rw [if_pos hrecords, Option.map_some] at hafter
    simp only [entryAction, hafter, if_pos hrecords.1]
    unfold RuleAction.update
    rcases hp with h | h | h <;> rcases ha.resolve_left hrecords.2 with rfl | rfl <;>
      simp [h, verdict]
  · rw [if_neg hrecords] at hafter
    simp only [entryAction, hafter]
    split
    · rename_i hm
      obtain rfl : a = .unspecified := by simpa [hm] using hrecords
      exact (verdict_singleton hp).symm.trans (verdict_concat_unspecified [access.action]).symm
    · exact (verdict_singleton hp).symm

/-- Recording a rule in an entry takes the verdict of both. -/
theorem entryAction_addEntry (hmode : mode.IsAccess) (entry : Option Permission)
    {rule : AuthorizationRule} (hentry : (entryAction mode entry).Known)
    (hrule : rule.action.Known) :
    entryAction mode (some (addEntry entry rule)) =
      verdict (entryAction mode entry :: actionsFor mode [rule]) := by
  have hsame : entryAction mode (some (entry.getD {})) = entryAction mode entry := by
    cases entry with
    | some p => rfl
    | none => rcases hmode with rfl | rfl <;> rfl
  have hactions : actionsFor mode [rule] = if rule.mode = mode then [rule.action] else [] := by
    by_cases h : rule.mode = mode <;> simp [actionsFor, h]
  rw [← hsame] at hentry ⊢
  rw [hactions]
  exact entryAction_updated hmode (entry.getD {}) rule.mode rule.id hentry hrule

/-- Recording a list of rules in an entry. -/
def addEntries (entry : Option Permission) (here : List AuthorizationRule) : Option Permission :=
  here.foldl (fun e r => some (addEntry e r)) entry

/-- The action of an entry after a list of rules is the verdict of all of
them. -/
theorem entryAction_addEntries (hmode : mode.IsAccess)
    (here : List AuthorizationRule) (hknown : ∀ r ∈ here, r.action.Known)
    (entry : Option Permission) (hentry : (entryAction mode entry).Known) :
    entryAction mode (addEntries entry here) =
      verdict (entryAction mode entry :: actionsFor mode here) := by
  induction here generalizing entry with
  | nil => exact (verdict_singleton hentry).symm
  | cons rule here ih =>
    have hfirst := entryAction_addEntry hmode entry hentry (hknown rule (by simp))
    have hnext : (entryAction mode (some (addEntry entry rule))).Known := by
      rw [hfirst]
      exact verdict_known _
    have hrest := ih (fun r hr => hknown r (mem_cons_of_mem rule hr)) _ hnext
    have hsplit : actionsFor mode (rule :: here) =
        actionsFor mode [rule] ++ actionsFor mode here := by
      by_cases h : rule.mode = mode <;> simp [actionsFor, h]
    calc entryAction mode (addEntries entry (rule :: here))
        = verdict (entryAction mode (some (addEntry entry rule)) :: actionsFor mode here) := hrest
      _ = verdict ((entryAction mode entry :: actionsFor mode [rule]) ++
            actionsFor mode here) := by rw [hfirst, verdict_append]
      _ = verdict (entryAction mode entry :: actionsFor mode (rule :: here)) := by
          rw [hsplit, cons_append]

/-! ## Contents made of rules -/

/-- The content of a node that records these rules. -/
def contentOf (here : List AuthorizationRule) : Content :=
  here.foldl Content.add {}

/-- An entry that a rule changes only if it names it holds the rules that name it. -/
private theorem foldl_add (entry : Content → Option Permission) {names : AuthorizationRule → Bool}
    (hadd : ∀ c rule, entry (c.add rule) =
      if names rule then some (addEntry (entry c) rule) else entry c)
    (here : List AuthorizationRule) (c : Content) :
    entry (here.foldl .add c) = addEntries (entry c) (here.filter names) := by
  induction here generalizing c with
  | nil => rfl
  | cons rule here ih =>
    rw [foldl_cons, ih, hadd]
    by_cases hnames : names rule = true <;> simp [hnames, addEntries]

theorem contentOf_users (here : List AuthorizationRule) (user : String) :
    (contentOf here).users user = addEntries none (here.filter (·.namesUser user)) := by
  refine foldl_add (·.users user) (fun c rule => ?_) here {}
  by_cases hnames : rule.principal = some (.user user)
  · simp [namesUser, hnames, Content.add]
  rw [if_neg (by simpa [namesUser] using hnames)]
  unfold Content.add
  split
  · rename_i name hprincipal
    exact Function.update_of_ne (fun h => hnames (by rw [hprincipal, h])) _ _
  · rfl

theorem contentOf_groups (here : List AuthorizationRule) (group : String) :
    (contentOf here).groups.lookup group = addEntries none (here.filter (·.namesGroup group)) := by
  refine foldl_add (·.groups.lookup group) (fun c rule => ?_) here {}
  by_cases hnames : rule.principal = some (.group group)
  · simp [namesGroup, hnames, Content.add]
  rw [if_neg (by simpa [namesGroup] using hnames)]
  simp only [Content.add]
  split
  · rename_i name hprincipal
    exact AList.lookup_insert_ne fun h => hnames (by rw [hprincipal, h])
  · rfl

theorem contentOf_rule (hne : here ≠ [])
    (htext : ∀ r ∈ here, printPath r.path.elem = text) : (contentOf here).rule = text := by
  obtain ⟨rest, last, rfl⟩ : ∃ rest last, here = rest ++ [last] := by
    exact ⟨here.dropLast, here.getLast hne, (dropLast_append_getLast hne).symm⟩
  unfold contentOf
  rw [foldl_append]
  exact htext last (by simp)

/-! ## The lookup at one node -/

/-- A result that is the outcome of some decision with this printed rule. -/
structure Result.Says (r : Result) (a : Action) (text : String) : Prop where
  action : r.action = a
  matched : r.matchedRule = if a = .unspecified then "" else text

theorem says_empty (text : String) : ({} : Result).Says .unspecified text :=
  ⟨rfl, rfl⟩

theorem updated_says (hmode : mode.IsAccess) {ret : Result}
    (hsaid : ret.Says a text) (ha : a = .unspecified ∨ a = .permit)
    (p : Permission) (hp : (entryAction mode (some p)).Known) :
    (ret.updated p mode text).Says (verdict [a, entryAction mode (some p)]) text := by
  have hdeny : ret.action ≠ .deny := by
    rw [hsaid.action]
    rcases ha with rfl | rfl <;> decide
  obtain ⟨access, haccess, hentry⟩ := exists_access hmode p
  rw [hentry] at hp ⊢
  simp only [Result.updated, Result.updateResult, if_neg hdeny, haccess]
  by_cases hsilent : access.action = .unspecified
  · rw [if_neg (by simpa using hsilent), hsilent]
    have hkeep : verdict [a, .unspecified] = a := by
      rcases ha with rfl | rfl <;> rfl
    rw [hkeep]
    exact hsaid
  · rw [if_pos hsilent]
    have htake : verdict [a, access.action] = access.action := by
      rcases hp with h | h | h
      · exact absurd h hsilent
      all_goals rcases ha with rfl | rfl <;> rw [h] <;> rfl
    rw [htake]
    exact ⟨rfl, by rw [if_neg hsilent]⟩

/-- The actions of the entries that name a group of the user. -/
def memberActions (groups : GroupTable) (user : String) (mode : Mode)
    (entries : List (Σ _ : String, Permission)) : List Action :=
  (entries.filter fun e => groups.isMember e.1 user).map fun e => entryAction mode (some e.2)

/-- The loop over the groups takes the verdict of all entries that name a group
of the user. -/
theorem groupLoop_says (hmode : mode.IsAccess) (user : String)
    (groups : GroupTable) (htext : text ≠ "") {entries : List (Σ _ : String, Permission)}
    (hknown : ∀ e ∈ entries, (entryAction mode (some e.2)).Known)
    {ret : Result} (hsaid : ret.Says a text) (ha : a = .unspecified ∨ a = .permit) :
    (groupLoop user mode groups text entries ret).Says
      (verdict (a :: memberActions groups user mode entries)) text := by
  induction entries generalizing ret a with
  | nil =>
    have hself : verdict [a] = a := verdict_singleton (ha.imp_right .inr)
    simpa [memberActions, hself, groupLoop] using hsaid
  | cons e entries ih =>
    obtain ⟨group, permission⟩ := e
    have hrest : ∀ e ∈ entries, (entryAction mode (some e.2)).Known :=
      fun e he => hknown e (mem_cons_of_mem _ he)
    have hhead : (entryAction mode (some permission)).Known := hknown ⟨group, permission⟩ (by simp)
    rw [groupLoop]
    by_cases hmember : groups.isMember group user = true
    · have hactions : memberActions groups user mode (⟨group, permission⟩ :: entries) =
          entryAction mode (some permission) :: memberActions groups user mode entries := by
        simp [memberActions, hmember]
      have hnext := updated_says hmode hsaid ha permission hhead
      have hstage : verdict (a :: entryAction mode (some permission) ::
            memberActions groups user mode entries) =
          verdict (verdict [a, entryAction mode (some permission)] ::
            memberActions groups user mode entries) :=
        (verdict_append [a, entryAction mode (some permission)] _).symm
      rw [if_pos hmember, hactions, hstage]
      simp only
      rw [hnext.action, hnext.matched]
      rcases verdict_known [a, entryAction mode (some permission)] with h | h | h
      · rw [h] at hnext ⊢
        exact ih hrest hnext (.inl rfl)
      · -- A deny ends the loop, and no later entry can change a deny verdict.
        rw [h] at hnext ⊢
        rw [if_pos (by simpa using htext)]
        have hdeny : verdict (deny :: memberActions groups user mode entries) = .deny := by
          rw [verdict_eq_deny_iff]
          simp
        rw [hdeny]
        exact hnext
      · rw [h] at hnext ⊢
        exact ih hrest hnext (.inr rfl)
    · have hactions : memberActions groups user mode (⟨group, permission⟩ :: entries) =
          memberActions groups user mode entries := by
        simp [memberActions, hmember]
      rw [if_neg hmember, hactions]
      exact ih hrest hsaid ha

/-- The entries of a content that name a group of the user have the verdict of
the rules that do. -/
theorem verdict_memberActions (hmode : mode.IsAccess) (hknown : ∀ r ∈ here, r.action.Known)
    (groups : GroupTable) (user : String) :
    verdict (memberActions groups user mode (contentOf here).groups.entries) =
      verdict (actionsFor mode (here.filter (·.namesGroupOf groups user))) := by
  have hgroup : ∀ group, entryAction mode ((contentOf here).groups.lookup group) =
      verdict (actionsFor mode (here.filter (·.namesGroup group))) := by
    intro group
    rw [contentOf_groups, entryAction_addEntries hmode]
    · exact verdict_unspecified_cons _
    · exact fun r hr => hknown r (mem_of_mem_filter hr)
    · exact .inl rfl
  -- Membership in the per-group verdicts, stated through lookup.
  have hmem : ∀ a, a ≠ .unspecified →
      (a ∈ memberActions groups user mode (contentOf here).groups.entries ↔
        ∃ group, groups.isMember group user = true ∧
          verdict (actionsFor mode (here.filter (·.namesGroup group))) = a) := by
    intro a ha
    simp only [memberActions, mem_map, mem_filter]
    constructor
    · rintro ⟨⟨group, p⟩, ⟨hentry, hmember⟩, rfl⟩
      refine ⟨group, hmember, ?_⟩
      rw [← hgroup, AList.mem_lookup_iff.2 hentry]
    · rintro ⟨group, hmember, hverdict⟩
      rw [← hgroup] at hverdict
      rcases hlookup : (contentOf here).groups.lookup group with _ | p <;> rw [hlookup] at hverdict
      · exact absurd hverdict.symm ha
      exact ⟨⟨group, p⟩, ⟨AList.mem_lookup_iff.1 hlookup, hmember⟩, hverdict⟩
  -- Membership in the actions of the rules, group by group.
  have hrules : ∀ a, a ∈ actionsFor mode (here.filter (·.namesGroupOf groups user)) ↔
      ∃ group, groups.isMember group user = true ∧
        a ∈ actionsFor mode (here.filter (·.namesGroup group)) := by
    intro a
    simp only [actionsFor, mem_map, mem_filter]
    constructor
    · rintro ⟨r, ⟨⟨hr, hnames⟩, hm⟩, rfl⟩
      unfold namesGroupOf at hnames
      split at hnames
      · rename_i group hprincipal
        exact ⟨group, hnames, r, ⟨⟨hr, by simp [namesGroup, hprincipal]⟩,
          hm⟩, rfl⟩
      · contradiction
    · rintro ⟨group, hmember, r, ⟨⟨hr, hnames⟩, hm⟩, rfl⟩
      have hprincipal : r.principal = some (.group group) := by
        simpa [namesGroup] using hnames
      exact ⟨r, ⟨⟨hr, by simpa [namesGroupOf, hprincipal] using hmember⟩,
        hm⟩, rfl⟩
  apply verdict_congr
  · rw [hmem .deny (by decide), hrules]
    simp [verdict_eq_deny_iff]
  intro hnodeny
  rw [hmem .permit (by decide), hrules]
  constructor
  · rintro ⟨group, hmember, hverdict⟩
    exact ⟨group, hmember, ((verdict_eq_permit_iff _).1 hverdict).2⟩
  · rintro ⟨group, hmember, hpermit⟩
    refine ⟨group, hmember, (verdict_eq_permit_iff _).2 ⟨?_, hpermit⟩⟩
    intro hdeny
    exact hnodeny ((hrules .deny).2 ⟨group, hmember, hdeny⟩)

/-- The node that records these rules decides as the rules do, in every
iteration order. -/
theorem decideHere_eq (hmode : mode.IsAccess) {node : GnmiAuthzNode}
    (hcontent : node.content = contentOf here) (hknown : ∀ r ∈ here, r.action.Known)
    (htext : text ≠ "") (hprinted : ∀ r ∈ here, printPath r.path.elem = text) (groups : GroupTable)
    (user : String) (iteration : Iteration) :
    (node.decideHere user mode groups iteration).Says (decisionOf here groups user mode) text := by
  have husers : node.users user = addEntries none (here.filter (·.namesUser user)) := by
    rw [← contentOf_users, ← hcontent]
    rfl
  have hgroups : node.groups = (contentOf here).groups := by
    rw [← hcontent]
    rfl
  have hown : entryAction mode (node.users user) =
      verdict (actionsFor mode (here.filter (·.namesUser user))) := by
    rw [husers, entryAction_addEntries hmode]
    · exact verdict_unspecified_cons _
    · exact fun r hr => hknown r (mem_of_mem_filter hr)
    · exact .inl rfl
  by_cases hnil : here = []
  · -- No rule: the node has neither users nor groups.
    subst hnil
    have hnone : node.users user = none := husers
    have hentries : (iteration.order []).visit node.groups = [] := by
      have hperm := (iteration.order []).perm node.groups
      rw [hgroups] at hperm ⊢
      exact perm_nil.1 hperm
    simp only [GnmiAuthzNode.decideHere, hnone, hentries, groupLoop, ite_self]
    exact says_empty text
  · have hrule : node.rule = text := by
      rw [← contentOf_rule hnil hprinted, ← hcontent]
      rfl
    -- The user entry alone, which the loop over the groups starts from.
    obtain ⟨first, hfirst, hdecide⟩ : ∃ first : Result,
        first.Says (entryAction mode (node.users user)) text ∧
        node.decideHere user mode groups iteration =
          if first.action = .unspecified ∨ first.matchedRule = "" then
            groupLoop user mode groups text ((iteration.order []).visit node.groups) first
          else first := by
      have hentryKnown : (entryAction mode (node.users user)).Known := by
        rw [hown]
        exact verdict_known _
      cases husr : node.users user with
      | none =>
        refine ⟨{}, says_empty text, ?_⟩
        simp [GnmiAuthzNode.decideHere, husr, hrule]
      | some permission =>
        rw [husr] at hentryKnown
        have hupdated := updated_says hmode (says_empty text) (.inl rfl) permission hentryKnown
        rw [verdict_unspecified_cons, verdict_singleton hentryKnown] at hupdated
        refine ⟨_, hupdated, ?_⟩
        simp [GnmiAuthzNode.decideHere, husr, hrule]
    unfold decisionOf
    simp only [← hown]
    rw [hdecide, hfirst.action, hfirst.matched]
    by_cases hsilent : entryAction mode (node.users user) = .unspecified
    · rw [hsilent] at hfirst ⊢
      have hentries : ∀ e ∈ (iteration.order []).visit node.groups,
          (entryAction mode (some e.2)).Known := by
        rintro ⟨group, p⟩ he
        have hlookup := (RangeOrder.mem_visit _ _ _ _).1 he
        rw [hgroups, contentOf_groups] at hlookup
        have haction := entryAction_addEntries hmode (here.filter (·.namesGroup group))
          (fun r hr => hknown r (mem_of_mem_filter hr)) none (.inl rfl)
        rw [hlookup] at haction
        rw [haction]
        exact verdict_known _
      have hloop := groupLoop_says hmode user groups htext hentries hfirst (.inl rfl)
      have hperm : verdict (memberActions groups user mode
            ((iteration.order []).visit node.groups)) =
          verdict (memberActions groups user mode (contentOf here).groups.entries) := by
        rw [hgroups]
        exact verdict_perm ((((iteration.order []).perm _).filter _).map _)
      rw [verdict_unspecified_cons, hperm, verdict_memberActions hmode hknown] at hloop
      exact hloop
    · rw [if_neg (by simp [hsilent, htext]), if_pos hsilent]
      exact hfirst

end SonicGnmi.Pathz
