import Mathlib.Logic.Function.Basic
import SonicGnmi.Gnmi.Path

/-!
# The pathz authorizer

This module follows `pathz_authorizer.go`: the policy trie, the recursion that
inserts a rule into it and the recursion that looks a request up.

A trie node mixes two kinds of edges.  `nameNext` leads to the node of the next
path element name, `keyNext` leads from a node that waits for the value of the
key `key` to the node of that value.  Both recursions walk a path by two
indices: `nameIdx` counts elements, and while the keys of the current element
are consumed `keys` holds their sorted names and `keyIdx` counts them.

The loop over the groups of a node visits a Go map, whose order is unspecified
and may differ each time; an `Iteration` fixes the order of every visit of one
lookup.
-/

namespace SonicGnmi.Pathz

open Foundation Gnmi

/-- The wildcard key value. -/
def wildCard : String := "*"

/-- `pathzpb.Action`.  The wire format admits numbers the enumeration does not
name. -/
inductive Action where
  | unspecified
  | deny
  | permit
  | other (number : Int)
  deriving DecidableEq, Repr

inductive Mode where
  | unspecified
  | read
  | write
  | other (number : Int)
  deriving DecidableEq, Repr

/-- The principal of a rule, a protobuf `oneof`. -/
inductive Principal where
  | user (name : String)
  | group (name : String)
  deriving DecidableEq

structure AuthorizationRule where
  id : String
  principal : Option Principal
  path : Path
  action : Action
  mode : Mode
  deriving DecidableEq

structure Group where
  name : String
  users : List String
  deriving DecidableEq

structure AuthorizationPolicy where
  rules : List AuthorizationRule
  groups : List Group
  deriving DecidableEq

/-- The authorization result. -/
structure Result where
  action : Action := .unspecified
  ruleId : String := ""
  matchedRule : String := ""
  deriving DecidableEq

/-- The action configured for one access mode and the rule it comes from. -/
structure RuleAction where
  ruleId : String := ""
  action : Action := .unspecified
  deriving DecidableEq

/-- Read and write permissions are configured independently. -/
structure Permission where
  read : RuleAction := {}
  write : RuleAction := {}
  deriving DecidableEq

/-- `gnmiAuthzNode`.  The child maps are only ever indexed, never ranged
over. -/
structure GnmiAuthzNode where
  users : String → Option Permission := fun _ => none
  groups : GoMap String Permission := ∅
  rule : String := ""
  nameNext : String → Option GnmiAuthzNode := fun _ => none
  key : String := ""
  keyNext : String → Option GnmiAuthzNode := fun _ => none

/-- The members of every group, `map[string]stringSet`. -/
abbrev GroupTable := GoMap String (List String)

/-- Whether the table lists the user as a member of the group. -/
def GroupTable.isMember (groups : GroupTable) (group user : String) : Bool :=
  match groups.lookup group with
  | none => false
  | some members => members.contains user

/-- The edges of the recursion in `authorize`; they name its node visits. -/
inductive Branch where
  | exact
  | wildcard
  | name
  deriving DecidableEq

/-- The order of every loop over node groups during one lookup. -/
structure Iteration where
  order : List Branch → RangeOrder String Permission

/-- The orders that remain after following one branch. -/
def Iteration.under (iteration : Iteration) (branch : Branch) : Iteration where
  order := fun visited => iteration.order (branch :: visited)

/-- The orders of the stored entries. -/
def Iteration.stored : Iteration where
  order := fun _ => RangeOrder.stored

/-- The access recorded for a mode; only read and write have one. -/
def Permission.access (p : Permission) : Mode → Option RuleAction
  | .read => some p.read
  | .write => some p.write
  | _ => none

def Result.updateResult (result : Result) (p : Permission) (mode : Mode) (rule : String) :
    Except String Result :=
  if result.action = .deny then
    .ok result
  else
    match p.access mode with
    | none => .error "invalid mode"
    | some access =>
      if access.action ≠ .unspecified then
        .ok { action := access.action, ruleId := access.ruleId, matchedRule := rule }
      else
        .ok result

/-- The receiver after `updateResult`, whose error every caller drops. -/
def Result.updated (result : Result) (p : Permission) (mode : Mode) (rule : String) : Result :=
  match result.updateResult p mode rule with
  | .ok next => next
  | .error _ => result

/-- The update of one access entry: a deny rule is never overwritten. -/
def RuleAction.update (r : RuleAction) (a : Action) (ruleId : String) : RuleAction :=
  if r.action = .deny then r else { action := a, ruleId := ruleId }

def Permission.updatePermission (p : Permission) (a : Action) (m : Mode) (ruleId : String) :
    Except String Permission :=
  if a = .unspecified then
    .ok p
  else
    match m with
    | .unspecified => .ok p
    | .read => .ok { p with read := p.read.update a ruleId }
    | .write => .ok { p with write := p.write.update a ruleId }
    | .other _ => .error "invalid mode"

/-- The receiver after `updatePermission`, whose error `insertPath` drops. -/
def Permission.updated (p : Permission) (a : Action) (m : Mode) (ruleId : String) : Permission :=
  match p.updatePermission a m ruleId with
  | .ok next => next
  | .error _ => p

/-- The loop over the groups of a node.  A deny ends it. -/
def groupLoop (user : String) (mode : Mode) (groups : GroupTable) (rule : String) :
    List (Σ _ : String, Permission) → Result → Result
  | [], ret => ret
  | ⟨group, permission⟩ :: rest, ret =>
    if groups.isMember group user then
      let next := ret.updated permission mode rule
      if next.action = .deny ∧ next.matchedRule ≠ "" then
        next
      else
        groupLoop user mode groups rule rest next
    else
      groupLoop user mode groups rule rest ret

/-- The part of `authorize` that looks at one node: the user entry, then the
groups unless the user entry decided. -/
def GnmiAuthzNode.decideHere (node : GnmiAuthzNode) (user : String) (mode : Mode)
    (groups : GroupTable) (iteration : Iteration) : Result :=
  let ret : Result := {}
  let ret :=
    match node.users user with
    | some permission => ret.updated permission mode node.rule
    | none => ret
  if ret.action = .unspecified ∨ ret.matchedRule = "" then
    groupLoop user mode groups node.rule ((iteration.order []).visit node.groups) ret
  else
    ret

/-- A result that `authorize` returns without looking further. -/
def Result.isHit (r : Result) : Bool :=
  decide (r.action ≠ .unspecified ∧ r.matchedRule ≠ "")

/-- The sorted key names of an element, `nil` when it has no keys. -/
def elemKeys (e : PathElem) : List String :=
  if e.key.size > 0 then e.key.sortedKeys else []

/-- The number of names and keys in a path. -/
def stepCount : List PathElem → Nat
  | [] => 0
  | e :: rest => 1 + e.key.size + stepCount rest

/-- The names and keys that a recursion at these indices has still to
consume. -/
def remaining (path : List PathElem) (nameIdx : Nat) (keys : List String) (keyIdx : Nat) : Nat :=
  if keys = [] then
    stepCount (path.drop nameIdx)
  else
    (keys.length - keyIdx) + stepCount (path.drop (nameIdx + 1))

theorem stepCount_drop {path : List PathElem} {nameIdx : Nat} (h : nameIdx < path.length) :
    stepCount (path.drop nameIdx) =
      1 + (path.get ⟨nameIdx, h⟩).key.size + stepCount (path.drop (nameIdx + 1)) := by
  rw [List.drop_eq_getElem_cons h]
  simp [stepCount, List.get_eq_getElem]

@[simp] theorem length_elemKeys (e : PathElem) : (elemKeys e).length = e.key.size := by
  unfold elemKeys
  split
  · simp
  · simp
    omega

/-- The indices after a key has been consumed. -/
def nextKeyIndices (nameIdx : Nat) (keys : List String) (keyIdx : Nat) : Nat × List String × Nat :=
  if keyIdx + 1 = keys.length then
    (nameIdx + 1, [], 0)
  else
    (nameIdx, keys, keyIdx + 1)

/-- The indices after a name has been consumed. -/
def nextNameIndices (e : PathElem) (nameIdx : Nat) : Nat × List String × Nat :=
  if e.key.size > 0 then
    (nameIdx, elemKeys e, 0)
  else
    (nameIdx + 1, [], 0)

theorem remaining_nextKeyIndices (path : List PathElem) (nameIdx : Nat) {keyIdx : Nat}
    {keys : List String} (hkey : keyIdx < keys.length) :
    remaining path (nextKeyIndices nameIdx keys keyIdx).1
        (nextKeyIndices nameIdx keys keyIdx).2.1 (nextKeyIndices nameIdx keys keyIdx).2.2 <
      remaining path nameIdx keys keyIdx := by
  have hne : keys ≠ [] := List.ne_nil_of_length_pos (Nat.zero_lt_of_lt hkey)
  unfold nextKeyIndices
  split
  · simp only [remaining, if_pos, if_neg hne]
    omega
  · simp only [remaining, if_neg hne]
    omega

theorem remaining_nextNameIndices {path : List PathElem} {nameIdx keyIdx : Nat}
    (h : nameIdx < path.length) :
    remaining path (nextNameIndices (path.get ⟨nameIdx, h⟩) nameIdx).1
        (nextNameIndices (path.get ⟨nameIdx, h⟩) nameIdx).2.1
        (nextNameIndices (path.get ⟨nameIdx, h⟩) nameIdx).2.2 <
      remaining path nameIdx [] keyIdx := by
  have hcount := stepCount_drop h
  unfold nextNameIndices
  split
  · rename_i hsize
    have hne : elemKeys (path.get ⟨nameIdx, h⟩) ≠ [] := by
      apply List.ne_nil_of_length_pos
      rw [length_elemKeys]
      exact hsize
    simp only [remaining, if_neg hne, if_pos, length_elemKeys]
    omega
  · simp only [remaining, if_pos]
    omega

/-- `gnmiAuthzNode.authorize`.  Exact key values are tried before the wildcard,
deeper nodes before the node itself. -/
def GnmiAuthzNode.authorize (node : GnmiAuthzNode) (user : String) (path : List PathElem)
    (mode : Mode) (nameIdx : Nat) (keys : List String) (keyIdx : Nat)
    (groups : GroupTable) (iteration : Iteration) : Result :=
  let ret := node.decideHere user mode groups iteration
  -- Return if it is the end of the path.
  if hname : nameIdx ≥ path.length then
    ret
  -- In the process of key lookup.
  else if _ : keys.length > 0 then
    if hkey : keyIdx ≥ keys.length then
      ret
    else if keys.get ⟨keyIdx, Nat.lt_of_not_ge hkey⟩ ≠ node.key then
      ret
    else
      match (path.get ⟨nameIdx, Nat.lt_of_not_ge hname⟩).key.lookup node.key with
      | none => ret
      | some keyValue =>
        let next := nextKeyIndices nameIdx keys keyIdx
        let exactHit : Option Result :=
          match node.keyNext keyValue with
          | none => none
          | some nextNode =>
            let r := nextNode.authorize user path mode next.1 next.2.1 next.2.2 groups
              (iteration.under .exact)
            if r.isHit then some r else none
        match exactHit with
        | some r => r
        | none =>
          match node.keyNext wildCard with
          | none => ret
          | some nextNode =>
            let r := nextNode.authorize user path mode next.1 next.2.1 next.2.2 groups
              (iteration.under .wildcard)
            if r.isHit then r else ret
  else
    let e := path.get ⟨nameIdx, Nat.lt_of_not_ge hname⟩
    match node.nameNext e.name with
    | none => ret
    | some nextNode =>
      let next := nextNameIndices e nameIdx
      let r := nextNode.authorize user path mode next.1 next.2.1 next.2.2 groups
        (iteration.under .name)
      if r.isHit then r else ret
termination_by remaining path nameIdx keys keyIdx
decreasing_by
  · exact remaining_nextKeyIndices _ _ (Nat.lt_of_not_ge hkey)
  · exact remaining_nextKeyIndices _ _ (Nat.lt_of_not_ge hkey)
  · have hnil : keys = [] := List.eq_nil_of_length_eq_zero (Nat.eq_zero_of_not_pos ‹_›)
    subst hnil
    exact remaining_nextNameIndices (Nat.lt_of_not_ge hname)

/-- The leaf case of `insertPath`: record the rule at the node. -/
def GnmiAuthzNode.addRule (node : GnmiAuthzNode) (rule : AuthorizationRule) :
    Except String GnmiAuthzNode :=
  let node := { node with rule := printPath rule.path.elem }
  match rule.principal with
  | some (.user name) =>
    let p := (node.users name).getD {}
    .ok { node with
      users := Function.update node.users name
        (some (p.updated rule.action rule.mode rule.id)) }
  | some (.group name) =>
    let p := (node.groups.lookup name).getD {}
    .ok { node with
      groups := node.groups.insert name (p.updated rule.action rule.mode rule.id) }
  | none => .error "invalid principal type"

/-- `gnmiAuthzNode.insertPath`.  An error leaves the tree half written; its
only caller drops the tree then. -/
def GnmiAuthzNode.insertPath (node : GnmiAuthzNode) (rule : AuthorizationRule)
    (nameIdx : Nat) (keys : List String) (keyIdx : Nat) : Except String GnmiAuthzNode :=
  -- Building a leaf node.
  if hname : nameIdx ≥ rule.path.elem.length then
    node.addRule rule
  -- Check if it is building a key node.
  else if _ : keys.length > 0 then
    if hkey : keyIdx ≥ keys.length then
      .error "key index out of range"
    else
      let k := keys.get ⟨keyIdx, Nat.lt_of_not_ge hkey⟩
      match (rule.path.elem.get ⟨nameIdx, Nat.lt_of_not_ge hname⟩).key.lookup k with
      | none => .error ("key " ++ k ++ " not found in path")
      | some v =>
        if node.key ≠ "" ∧ node.key ≠ k then
          .error ("key " ++ node.key ++ " mismatch from other configured rule")
        else
          let next := nextKeyIndices nameIdx keys keyIdx
          match ((node.keyNext v).getD {}).insertPath rule next.1 next.2.1 next.2.2 with
          | .error e => .error e
          | .ok child =>
            .ok { node with key := k, keyNext := Function.update node.keyNext v (some child) }
  else
    -- Building a name node.
    let e := rule.path.elem.get ⟨nameIdx, Nat.lt_of_not_ge hname⟩
    let next := nextNameIndices e nameIdx
    match ((node.nameNext e.name).getD {}).insertPath rule next.1 next.2.1 next.2.2 with
    | .error err => .error err
    | .ok child =>
      .ok { node with nameNext := Function.update node.nameNext e.name (some child) }
termination_by remaining rule.path.elem nameIdx keys keyIdx
decreasing_by
  · exact remaining_nextKeyIndices _ _ (Nat.lt_of_not_ge hkey)
  · have hnil : keys = [] := List.eq_nil_of_length_eq_zero (Nat.eq_zero_of_not_pos ‹_›)
    subst hnil
    exact remaining_nextNameIndices (Nat.lt_of_not_ge hname)

def createGroups (groupsProto : List Group) : GroupTable :=
  groupsProto.foldl
    (fun groups g => groups.insert g.name ((groups.lookup g.name).getD [] ++ g.users)) ∅

/-- The rules of a policy inserted one after another. -/
def insertRules (root : GnmiAuthzNode) : List AuthorizationRule → Except String GnmiAuthzNode
  | [] => .ok root
  | p :: rest =>
    match root.insertPath p 0 [] 0 with
    | .error e => .error e
    | .ok next => insertRules next rest

def createPolicies (rules : List AuthorizationRule) : Except String GnmiAuthzNode :=
  if rules = [] then .error "no rules found" else insertRules {} rules

/-- `GnmiAuthzProcessor`: the trie, the group table and the policy they were
made from. -/
structure GnmiAuthzProcessor where
  groups : GroupTable := ∅
  root : Option GnmiAuthzNode := none
  policy : Option AuthorizationPolicy := none

/-- `createNewPolicy`; a nil policy has no rules and no groups. -/
def createNewPolicy (policyProto : Option AuthorizationPolicy) :
    Except String (GnmiAuthzNode × GroupTable) :=
  match createPolicies ((policyProto.map (·.rules)).getD []) with
  | .error e => .error e
  | .ok root => .ok (root, createGroups ((policyProto.map (·.groups)).getD []))

def GnmiAuthzProcessor.updatePolicyFromProto (processor : GnmiAuthzProcessor)
    (policyProto : Option AuthorizationPolicy) : Except String GnmiAuthzProcessor :=
  match createNewPolicy policyProto with
  | .error e => .error e
  | .ok (newRoot, newGroups) =>
    .ok { processor with root := some newRoot, groups := newGroups, policy := policyProto }

/-- The processors of a server: empty, or with the last policy that was
accepted. -/
inductive GnmiAuthzProcessor.Loaded : GnmiAuthzProcessor → Prop
  | fresh : Loaded {}
  | update {before after : GnmiAuthzProcessor} (policy : Option AuthorizationPolicy)
      (hbefore : Loaded before) (hupdate : before.updatePolicyFromProto policy = .ok after) :
      Loaded after

theorem GnmiAuthzProcessor.updatePolicyFromProto_none (processor : GnmiAuthzProcessor) :
    processor.updatePolicyFromProto none = .error "no rules found" := rfl

theorem GnmiAuthzProcessor.updatePolicyFromProto_isOk (processor : GnmiAuthzProcessor)
    (policy : Option AuthorizationPolicy) :
    (processor.updatePolicyFromProto policy).isOk = (createNewPolicy policy).isOk := by
  unfold updatePolicyFromProto
  cases createNewPolicy policy <;> rfl

/-- An accepted policy determines the processor, whatever it was before. -/
theorem GnmiAuthzProcessor.updatePolicyFromProto_ok {before after : GnmiAuthzProcessor}
    {policy : Option AuthorizationPolicy} (h : before.updatePolicyFromProto policy = .ok after) :
    after.policy = policy ∧ policy ≠ none ∧
      ∀ other : GnmiAuthzProcessor, other.updatePolicyFromProto policy = .ok after := by
  refine ⟨?_, ?_, ?_⟩
  · unfold updatePolicyFromProto at h
    split at h <;> cases h
    rfl
  · rintro rfl
    rw [updatePolicyFromProto_none] at h
    contradiction
  · intro other
    unfold updatePolicyFromProto at h ⊢
    split at h <;> cases h
    simp [*]

/-- A processor of a server is empty or made from its policy. -/
theorem GnmiAuthzProcessor.Loaded.made {processor : GnmiAuthzProcessor}
    (h : processor.Loaded) (hpolicy : processor.policy ≠ none) :
    ∀ other : GnmiAuthzProcessor, other.updatePolicyFromProto processor.policy = .ok processor := by
  cases h with
  | fresh => exact absurd rfl hpolicy
  | update policy hbefore hupdate =>
    obtain ⟨hafter, -, hall⟩ := updatePolicyFromProto_ok hupdate
    rw [hafter]
    exact hall

/-- The lookup both `Authorize` methods end in; a missing root decides
nothing. -/
def GnmiAuthzProcessor.authorizeElems (processor : GnmiAuthzProcessor) (user : String)
    (path : List PathElem) (mode : Mode) (iteration : Iteration) : Except String Result :=
  if mode = .unspecified then
    .error "mode must be read or write"
  else
    match processor.root with
    | none => .ok {}
    | some root => .ok (root.authorize user path mode 0 [] 0 processor.groups iteration)

def GnmiAuthzProcessor.authorize (processor : GnmiAuthzProcessor) (user : String)
    (path : Path) (mode : Mode) (iteration : Iteration) : Except String Result :=
  processor.authorizeElems user path.elem mode iteration

def GnmiAuthzProcessor.authorizeWithPrefix (processor : GnmiAuthzProcessor) (user : String)
    (pathPrefix path : Path) (mode : Mode) (iteration : Iteration) : Except String Result :=
  processor.authorizeElems user (netPath pathPrefix path) mode iteration

end SonicGnmi.Pathz
