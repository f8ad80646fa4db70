import SonicGnmi.GnmiServer.SubscribeHandlers

/-!
# The number of Subscribe sessions

The connection manager is to keep the number of running sessions below a
threshold and to keep the registrations of the sessions apart.  It does neither in
every interleaving:

* `threshold_exceeded` — two sessions pass the test before either is registered;
  two sessions that are set up together have a manager each; two sessions of one
  peer with one query in one second have one key, so they count as one, and the
  end of the first removes the registration of the second.

`threshold_respected` says when it does: as long as no session tests the package
variable while another is about to assign it, none tests the limit while another
is between its test and its entry, and none enters a key that another one holds.
`ManagerInv` is kept by every such step.
-/

namespace SonicGnmi.GnmiServer

open Connections Finset Handler List Option RunStage

open Foundation

/-! ## What a handler holds -/

/-- The stage of `Client.Run`. -/
def Handler.runStage (h : Handler) : Option RunStage :=
  match h.stage with
  | .run stage => some stage
  | _ => none

/-- The manager and the key of a session between a successful `Add` and its
`Remove`. -/
def RunStage.registration : RunStage → Option (Nat × String)
  | .deferring manager key => some (manager, key)
  | .serving added _ key => some (added, key)
  | _ => none

/-- A session between the test of the limit and its entry in the map. -/
def RunStage.pending : RunStage → Bool
  | .keying _ | .writing _ _ => true
  | _ => false

/-- The key of a session from its entry in the map until `Remove` deletes it. -/
def RunStage.entered : RunStage → Option String
  | .storing _ key | .deferring _ key | .serving _ _ key | .removing _ key | .deleting _ key =>
    some key
  | _ => none

/-- The key of a session from its entry in the map until `Remove` returns. -/
def RunStage.holds : RunStage → Option String
  | .unstoring key => some key
  | stage => stage.entered

/-- The manager whose method a session is in or is going to call. -/
def RunStage.manager : RunStage → Option Nat
  | .checking manager | .keying manager | .writing manager _ | .storing manager _
  | .deferring manager _ | .serving _ manager _ | .removing manager _ | .deleting manager _ =>
    some manager
  | _ => none

/-- A session in `Remove`. -/
def RunStage.inRemove : RunStage → Bool
  | .removing _ _ | .deleting _ _ | .unstoring _ => true
  | _ => false

namespace Handler

def registration (h : Handler) : Option (Nat × String) := h.runStage.bind RunStage.registration

def pending (h : Handler) : Bool := h.runStage.any RunStage.pending

def entered (h : Handler) : Option String := h.runStage.bind RunStage.entered

def holds (h : Handler) : Option String := h.runStage.bind RunStage.holds

def manager (h : Handler) : Option Nat := h.runStage.bind RunStage.manager

/-- The handler is between the test of the package variable and the assignment. -/
def creating (h : Handler) : Bool := h.stage = .setup .creating

/-- The handler is in `Remove`. -/
def inRemove (h : Handler) : Bool := h.runStage.any RunStage.inRemove

end Handler

/-- The number of running sessions. -/
def sessionCount (s : Threads SubscribeServer Handler) : Nat :=
  s.threads.countP (·.registration.isSome)

/-- A step leaves the registrations of all running sessions but one as they are, in the
maps of the managers and in Redis. -/
def KeepsOthers (s after : Threads SubscribeServer Handler) (index : Nat) : Prop :=
  ∀ (j : Nat) (u : Handler) (manager : Nat) (key : String), j ≠ index →
    s.threads[j]? = some u → u.registration = some (manager, key) →
    (key ∈ s.shared.connections.keys manager → key ∈ after.shared.connections.keys manager) ∧
    (key ∈ s.shared.connections.table → key ∈ after.shared.connections.table)

/-! ## The condition on a step -/

/-- The condition: nobody is between the test of the package variable and the
assignment when a session tests it, nobody is between the test of the limit and the
entry when a session tests the limit, and nobody holds the key that a session
enters. -/
def OrderlyAdmission (s : Threads SubscribeServer Handler) :
    Move (String × String) Choice → Prop
  | .spawn _ => True
  | .act index _ =>
    match (s.threads[index]?).map Handler.stage with
    | some (.setup .testing) => ∀ u ∈ s.threads, u.creating = false
    | some (.run (.checking _)) => ∀ u ∈ s.threads, u.pending = false
    | some (.run (.writing _ key)) => ∀ u ∈ s.threads, u.holds ≠ some key
    | _ => True

/-- The condition as a test. -/
def orderlyAdmission (s : Threads SubscribeServer Handler) :
    Move (String × String) Choice → Bool
  | .spawn _ => true
  | .act index _ =>
    match (s.threads[index]?).map Handler.stage with
    | some (.setup .testing) => s.threads.all fun u => !u.creating
    | some (.run (.checking _)) => s.threads.all fun u => !u.pending
    | some (.run (.writing _ key)) => s.threads.all fun u => u.holds != some key
    | _ => true

theorem orderlyAdmission_iff (s : Threads SubscribeServer Handler)
    (move : Move (String × String) Choice) :
    orderlyAdmission s move = true ↔ OrderlyAdmission s move := by
  cases move with
  | spawn _ => exact iff_of_true rfl trivial
  | act index choice =>
    unfold orderlyAdmission OrderlyAdmission
    dsimp only
    split <;> simp

instance instDecidableOrderlyAdmission (s : Threads SubscribeServer Handler)
    (move : Move (String × String) Choice) : Decidable (OrderlyAdmission s move) :=
  decidable_of_iff _ (orderlyAdmission_iff s move)

variable {choice : Choice} {h : Handler} {s : Threads SubscribeServer Handler} {c : Connections}
  {manager threshold : Nat} {key : String}

theorem OrderlyAdmission.at_stage {index : Nat} (hthread : s.threads[index]? = some h)
    (horderly : OrderlyAdmission s (.act index choice)) :
    (h.stage = .setup .testing → ∀ u ∈ s.threads, u.creating = false) ∧
    (∀ manager, h.stage = .run (.checking manager) → ∀ u ∈ s.threads, u.pending = false) ∧
    ∀ manager key, h.stage = .run (.writing manager key) → ∀ u ∈ s.threads, u.holds ≠ some key := by
  rw [OrderlyAdmission, hthread, map_some] at horderly
  refine ⟨fun hstage => ?_, fun manager hstage => ?_, fun manager key hstage => ?_⟩
  all_goals
    rw [hstage] at horderly
    exact horderly

/-! ## The maps of the managers -/

/-- There is no manager, or one with the threshold. -/
inductive Connections.Single (threshold : Nat) (c : Connections) : Prop
  | unset (hvariable : c.connectionManager = none) (hmanagers : c.managers = [])
  | set (keys : Finset String) (hvariable : c.connectionManager = some 0)
      (hmanagers : c.managers = [{ connections := keys, threshold := threshold }])

theorem Connections.mem_keys_erase (c : Connections) {other : Nat} {kept : String}
    (hne : kept ≠ key) (hmem : kept ∈ c.keys other) :
    kept ∈ (c.change manager (·.erase key)).keys other := by
  simp only [keys, change] at hmem ⊢
  by_cases hother : other = manager
  · subst hother
    rw [getElem?_modify_eq]
    rcases hmanager : c.managers[other]? with _ | cm <;> rw [hmanager] at hmem
    · cases hmem
    exact mem_erase.2 ⟨hne, hmem⟩
  · rw [getElem?_modify_ne _ _ (Ne.symm hother)]
    exact hmem

theorem Connections.Single.change (hsingle : c.Single threshold)
    (hmanagers : c.managers ≠ []) (f : Finset String → Finset String) :
    (c.change 0 f).Single threshold ∧ (c.change 0 f).managers ≠ [] ∧
      (c.change 0 f).keys 0 = f (c.keys 0) := by
  cases hsingle with
  | unset _ hnil => exact absurd hnil hmanagers
  | set keys hvariable hone =>
    have hchange : (c.change 0 f).managers =
        [{ connections := f keys, threshold := threshold }] := by
      simp [Connections.change, hone]
    refine ⟨.set (f keys) hvariable hchange, hchange ▸ cons_ne_nil _ _, ?_⟩
    simp [Connections.keys, hchange, hone]

/-! ## The invariant -/

/-- What holds in every state of an orderly run. -/
structure ManagerInv (threshold : Nat) (s : Threads SubscribeServer Handler) : Prop where
  single : s.shared.connections.Single threshold
  manager : ∀ (i : Nat) (h : Handler), s.threads[i]? = some h → ∀ m, h.manager = some m →
    m = 0 ∧ s.shared.connections.managers ≠ []
  creating : ∀ (i : Nat) (h : Handler), s.threads[i]? = some h → h.creating = true →
    s.shared.connections.connectionManager = none
  oneCreates : PairwiseThreads (fun t u => t.creating = true → u.creating = false) s.threads
  onePending : PairwiseThreads (fun t u => t.pending = true → u.pending = false) s.threads
  full : threshold ≠ 0 → (s.shared.connections.keys 0).card ≤ threshold
  room : ∀ (i : Nat) (h : Handler), s.threads[i]? = some h → h.pending = true → threshold ≠ 0 →
    (s.shared.connections.keys 0).card < threshold
  apart : PairwiseThreads
    (fun t u => ∀ key, t.holds = some key → u.holds ≠ some key) s.threads
  entered : ∀ (i : Nat) (h : Handler), s.threads[i]? = some h → ∀ key, h.entered = some key →
    key ∈ s.shared.connections.keys 0

theorem not_both_symm {P : Handler → Bool} (t u : Handler) (h : P t = true → P u = false)
    (hu : P u = true) : P t = false := by
  cases ht : P t with
  | false => rfl
  | true =>
    rw [h ht] at hu
    cases hu

theorem holds_symm (t u : Handler) (h : ∀ key, t.holds = some key → u.holds ≠ some key)
    (key : String) (hu : u.holds = some key) : t.holds ≠ some key :=
  fun ht => h key ht hu

theorem ManagerInv.start (threshold : Nat) (table : Finset String) :
    ManagerInv threshold (SubscribeServer.start table) where
  single := .unset rfl rfl
  manager := nofun
  creating := nofun
  oneCreates := nofun
  onePending := nofun
  full := fun _ => Nat.zero_le _
  room := nofun
  apart := nofun
  entered := nofun

theorem ManagerInv.spawn (hinv : ManagerInv threshold s) (addr query : String) :
    ManagerInv threshold { s with threads := s.threads ++ [{ addr := addr, query := query }] } where
  single := hinv.single
  manager := forall_spawn hinv.manager fun m hm => by cases hm
  creating := forall_spawn hinv.creating fun h => by cases h
  oneCreates := hinv.oneCreates.spawn not_both_symm fun u _ h => by cases h
  onePending := hinv.onePending.spawn not_both_symm fun u _ h => by cases h
  full := hinv.full
  room := forall_spawn hinv.room fun h => by cases h
  apart := hinv.apart.spawn holds_symm fun u _ key h => by cases h
  entered := forall_spawn hinv.entered fun key h => by cases h

section Act

variable {threshold index : Nat} {s : Threads SubscribeServer Handler} {h next : Handler}
  {server : SubscribeServer}

/-- What a handler may gain in a step, against the other handlers and the managers after
the step. -/
structure Handler.Gains (threshold index : Nat) (s : Threads SubscribeServer Handler)
    (c : Connections) (next : Handler) : Prop where
  manager : ∀ m, next.manager = some m → m = 0 ∧ c.managers ≠ []
  creating : next.creating = true → c.connectionManager = none ∧
    ∀ (j : Nat) (u : Handler), j ≠ index → s.threads[j]? = some u → u.creating = false
  pending : next.pending = true → (threshold ≠ 0 → (c.keys 0).card < threshold) ∧
    ∀ (j : Nat) (u : Handler), j ≠ index → s.threads[j]? = some u → u.pending = false
  holds : ∀ key, next.holds = some key →
    ∀ (j : Nat) (u : Handler), j ≠ index → s.threads[j]? = some u → u.holds ≠ some key
  entered : ∀ key, next.entered = some key → key ∈ c.keys 0

/-- One handler moves on and the managers change: what the other handlers have is to be
kept, and what this one has is to be gained. -/
theorem ManagerInv.act (hinv : ManagerInv threshold s)
    (hsingle : server.connections.Single threshold)
    (hmanagers : s.shared.connections.managers ≠ [] → server.connections.managers ≠ [])
    (hvariable : ∀ (j : Nat) (u : Handler), j ≠ index → s.threads[j]? = some u →
      u.creating = true → server.connections.connectionManager = none)
    (hfull : threshold ≠ 0 → (server.connections.keys 0).card ≤ threshold)
    (hroom : ∀ (j : Nat) (u : Handler), j ≠ index → s.threads[j]? = some u → u.pending = true →
      threshold ≠ 0 → (server.connections.keys 0).card < threshold)
    (hentered : ∀ (j : Nat) (u : Handler), j ≠ index → s.threads[j]? = some u →
      ∀ key, u.entered = some key → key ∈ server.connections.keys 0)
    (hgains : next.Gains threshold index s server.connections) :
    ManagerInv threshold { shared := server, threads := s.threads.set index next } where
  single := hsingle
  manager := forall_act hgains.manager fun i u _ hu m hm =>
    (hinv.manager i u hu m hm).imp_right hmanagers
  creating := forall_act (fun hnext => (hgains.creating hnext).1) hvariable
  oneCreates := hinv.oneCreates.act not_both_symm fun j u hj hu hnext =>
    (hgains.creating hnext).2 j u hj hu
  onePending := hinv.onePending.act not_both_symm fun j u hj hu hnext =>
    (hgains.pending hnext).2 j u hj hu
  full := hfull
  room := forall_act (fun hnext => (hgains.pending hnext).1) hroom
  apart := hinv.apart.act holds_symm fun j u hj hu key hnext => hgains.holds key hnext j u hj hu
  entered := forall_act hgains.entered hentered

theorem ManagerInv.gain (hinv : ManagerInv threshold s)
    (hmanagers : server.connections.managers = s.shared.connections.managers)
    (hvariable : server.connections.connectionManager = s.shared.connections.connectionManager)
    (hgains : next.Gains threshold index s s.shared.connections) :
    ManagerInv threshold { shared := server, threads := s.threads.set index next } := by
  have hkeys : server.connections.keys = s.shared.connections.keys := by
    funext manager
    rw [Connections.keys, Connections.keys, hmanagers]
  have hsingle : server.connections.Single threshold := by
    cases hinv.single with
    | unset hnone hnil => exact .unset (hvariable.trans hnone) (hmanagers.trans hnil)
    | set keys hsome hone => exact .set keys (hvariable.trans hsome) (hmanagers.trans hone)
  refine hinv.act hsingle ?_ ?_ ?_ ?_ ?_ ⟨?_, ?_, ?_, hgains.holds, ?_⟩ <;>
    simp only [hmanagers, hvariable, hkeys]
  · exact id
  · exact fun j u _ => hinv.creating j u
  · exact hinv.full
  · exact fun j u _ => hinv.room j u
  · exact fun j u _ => hinv.entered j u
  · exact hgains.manager
  · exact hgains.creating
  · exact hgains.pending
  · exact hgains.entered

theorem ManagerInv.keeps (hinv : ManagerInv threshold s) (hthread : s.threads[index]? = some h)
    (hmanager : ∀ m, next.manager = some m → m = 0 ∧ s.shared.connections.managers ≠ [])
    (hcreating : next.creating = true → h.creating = true)
    (hpending : next.pending = true → h.pending = true)
    (hholds : ∀ key, next.holds = some key → h.holds = some key)
    (hentered : ∀ key, next.entered = some key → h.entered = some key) :
    next.Gains threshold index s s.shared.connections where
  manager := hmanager
  creating := fun hnext =>
    ⟨hinv.creating index h hthread (hcreating hnext), fun j u hj hu =>
      hinv.oneCreates index h hthread j u hu (Ne.symm hj) (hcreating hnext)⟩
  pending := fun hnext =>
    ⟨hinv.room index h hthread (hpending hnext), fun j u hj hu =>
      hinv.onePending index h hthread j u hu (Ne.symm hj) (hpending hnext)⟩
  holds := fun key hnext j u hj hu =>
    hinv.apart index h hthread j u hu (Ne.symm hj) key (hholds key hnext)
  entered := fun key hnext => hinv.entered index h hthread key (hentered key hnext)


/-- A handler outside `Client.Run` holds nothing, and gains nothing when it is not about
to assign the package variable. -/
theorem Handler.gains_outside {c : Connections} (hrun : next.runStage = none)
    (hcreating : next.creating = false) : next.Gains threshold index s c := by
  have hmanager : next.manager = none := by rw [manager, hrun]; rfl
  have hpending : next.pending = false := by rw [pending, hrun]; rfl
  have hholds : next.holds = none := by rw [holds, hrun]; rfl
  have hentered : next.entered = none := by rw [entered, hrun]; rfl
  exact
    { manager := fun m hm => absurd (hmanager.symm.trans hm) (by simp)
      creating := fun h => absurd (hcreating.symm.trans h) (by simp)
      pending := fun h => absurd (hpending.symm.trans h) (by simp)
      holds := fun key h => absurd (hholds.symm.trans h) (by simp)
      entered := fun key h => absurd (hentered.symm.trans h) (by simp) }

variable {c : Connections} {choice : Choice} {stage : RunStage} {key : String}

/-- What a step of `setConnectionManager` does to the managers and the package
variable. -/
theorem Setup.step_cases {stage : Setup} {after : Connections}
    {rest : Option Setup} (hstep : stage.step threshold c choice = some (after, rest)) :
    (stage = .testing ∧ after = c ∧ rest = some .creating ∧
      (c.connectionManager.bind (c.managers[·]?)).any (threshold = ·.threshold) = false) ∨
    (stage = .creating ∧ rest = some .preparing ∧
      after.managers = c.managers ++ [{ threshold := threshold }] ∧
      after.connectionManager = some c.managers.length) ∨
    (rest ≠ some .creating ∧ after.managers = c.managers ∧
      after.connectionManager = c.connectionManager) := by
  cases stage <;> cases choice <;> simp only [Setup.step, reduceCtorEq] at hstep
  case testing.proceed =>
    split at hstep
    · cases hstep
      exact .inr (.inr ⟨by simp, rfl, rfl⟩)
    · rename_i htest
      cases hstep
      exact .inl ⟨rfl, rfl, rfl, by simpa using htest⟩
  case creating.proceed =>
    cases hstep
    exact .inr (.inl ⟨rfl, rfl, rfl, rfl⟩)
  case preparing.result ok =>
    split at hstep <;>
      · cases hstep
        exact .inr (.inr ⟨by simp, rfl, rfl⟩)
  case reading.result ok =>
    cases hstep
    exact .inr (.inr ⟨by cases ok <;> simp, rfl, rfl⟩)
  case clearing.field fields name ok | clearing.proceed fields =>
    split at hstep <;> cases hstep
    exact .inr (.inr ⟨by simp, rfl, rfl⟩)

theorem ManagerInv.setup (hinv : ManagerInv threshold s) (hthread : s.threads[index]? = some h)
    {stage : Setup} (hstage : h.stage = .setup stage)
    (horderly : OrderlyAdmission s (.act index choice)) {rest : Option Setup}
    (hstep : stage.step threshold s.shared.connections choice = some (c, rest)) :
    ManagerInv threshold
      { shared := { s.shared with connections := c }
        threads := s.threads.set index (h.moveTo (rest.elim .locking .setup)) } := by
  rcases Setup.step_cases hstep with ⟨rfl, rfl, rfl, htest⟩ | ⟨rfl, rfl, hmanagers, hvariable⟩ |
    ⟨hrest, hmanagers, hvariable⟩
  · refine hinv.gain rfl rfl ?_
    have hunset : s.shared.connections.connectionManager = none := by
      cases hinv.single with
      | unset hnone _ => exact hnone
      | set keys hsome hone => simp [hsome, hone] at htest
    exact
      { manager := nofun
        creating := fun _ => ⟨hunset, fun j u _ hu =>
          (horderly.at_stage hthread).1 hstage u (mem_of_getElem? hu)⟩
        pending := nofun
        holds := nofun
        entered := fun key h => by cases h }
  · have hcreating : h.creating = true := decide_eq_true hstage
    have hunset := hinv.creating index h hthread hcreating
    have hnil : s.shared.connections.managers = [] := by
      cases hinv.single with
      | unset _ hnil => exact hnil
      | set keys hsome _ =>
        rw [hsome] at hunset
        cases hunset
    have hempty : s.shared.connections.keys 0 = ∅ := by rw [Connections.keys, hnil]; rfl
    rw [hnil] at hmanagers hvariable
    have hkeys : c.keys 0 = ∅ := by rw [Connections.keys, hmanagers]; rfl
    refine hinv.act (.set ∅ hvariable hmanagers) (absurd hnil) (fun i u hi hu hcreates => ?_)
      (fun _ => ?_) (fun _ _ _ _ _ hthreshold => ?_) (fun i u _ hu key hentered => ?_)
      (gains_outside rfl rfl)
    · rw [hinv.oneCreates index h hthread i u hu (Ne.symm hi) hcreating] at hcreates
      cases hcreates
    · exact hkeys ▸ Nat.zero_le _
    · exact hkeys ▸ Nat.pos_of_ne_zero hthreshold
    · have hmem := hinv.entered i u hu key hentered
      rw [hempty] at hmem
      cases hmem
  · refine hinv.gain hmanagers hvariable ?_
    cases rest with
    | none => exact gains_outside rfl rfl
    | some stage =>
      refine gains_outside rfl (decide_eq_false ?_)
      rintro heq
      exact hrest (congrArg some (Stage.setup.inj heq))

/-! ## Steps of `Client.Run` -/

/-- A stage of `Client.Run` that gains nothing over the one before it. -/
structure RunStage.Within (c : Connections) (next stage : RunStage) : Prop where
  pending : next.pending = true → stage.pending = true
  holds : ∀ key, next.holds = some key → stage.holds = some key
  entered : ∀ key, next.entered = some key → stage.entered = some key
  manager : ∀ m, next.manager = some m → stage.manager = some m ∨ c.connectionManager = some m

/-- What a step of `Client.Run` does: the test of the limit, the entry in the map and
its removal, and nothing that matters here. -/
theorem RunStage.step_cases {addr query : String} {after : Connections} {rest : Option RunStage}
    (hstep : stage.step addr query c choice = some (after, rest)) :
    (∃ manager cm, stage = .checking manager ∧ after = c ∧ rest = some (.keying manager) ∧
      c.managers[manager]? = some cm ∧
      (cm.threshold ≠ 0 → cm.connections.card < cm.threshold)) ∨
    (∃ manager key, stage = .writing manager key ∧ after = c.change manager (insert key) ∧
      rest = some (.storing manager key)) ∨
    (∃ manager key, stage = .deleting manager key ∧ after = c.change manager (·.erase key) ∧
      rest = some (.unstoring key)) ∨
    (after.managers = c.managers ∧ after.connectionManager = c.connectionManager ∧
      ∀ next, rest = some next → next.Within c stage) := by
  cases stage <;> cases choice <;> simp only [step, reduceCtorEq] at hstep
  case checking.proceed manager =>
    obtain ⟨cm, hcm, heq⟩ := map_eq_some_iff.1 hstep
    split at heq
    · cases heq
      exact .inr (.inr (.inr ⟨rfl, rfl, fun next hnext => by cases hnext⟩))
    · rename_i hroom
      cases heq
      exact .inl ⟨manager, cm, rfl, rfl, rfl, hcm, fun h => by omega⟩
  case writing.proceed manager key =>
    cases hstep
    exact .inr (.inl ⟨manager, key, rfl, rfl, rfl⟩)
  case deleting.proceed manager key =>
    cases hstep
    exact .inr (.inr (.inl ⟨manager, key, rfl, rfl, rfl⟩))
  all_goals refine .inr (.inr (.inr ?_))
  case starting.result ok =>
    cases hstep
    refine ⟨rfl, rfl, fun next hnext => ?_⟩
    cases ok <;> cases hnext
    constructor <;> simp [pending, holds, entered, manager]
  case adding.proceed | deferring.proceed added key =>
    obtain ⟨manager, hvariable, heq⟩ := map_eq_some_iff.1 hstep
    cases heq
    refine ⟨rfl, rfl, fun next hnext => ?_⟩
    cases hnext
    constructor <;>
      simp [RunStage.pending, RunStage.holds, RunStage.entered, RunStage.manager, hvariable]
  case removing.proceed manager key =>
    cases hstep
    refine ⟨rfl, rfl, fun next hnext => ?_⟩
    obtain rfl := some.inj hnext
    split <;> constructor <;>
      simp [RunStage.pending, RunStage.holds, RunStage.entered, RunStage.manager]
  case unstoring.result key ok =>
    cases hstep
    exact ⟨rfl, rfl, fun next hnext => by cases hnext⟩
  all_goals
    cases hstep
    refine ⟨rfl, rfl, fun next hnext => ?_⟩
    cases hnext
    constructor <;> simp [pending, holds, entered, manager]

theorem Handler.at_run (hstage : h.stage = .run stage) :
    h.manager = stage.manager ∧ h.pending = stage.pending ∧ h.holds = stage.holds ∧
      h.entered = stage.entered := by
  have hrun : h.runStage = some stage := by rw [runStage, hstage]
  refine ⟨?_, ?_, ?_, ?_⟩
  · rw [manager, hrun, bind_some]
  · rw [pending, hrun, any_some]
  · rw [holds, hrun, bind_some]
  · rw [entered, hrun, bind_some]

theorem RunStage.holds_of_entered
    (hentered : stage.entered = some key) : stage.holds = some key := by
  cases stage <;> first | exact hentered | cases hentered

theorem Handler.holds_of_entered (hentered : h.entered = some key) : h.holds = some key := by
  obtain ⟨stage, hstage, hkey⟩ := bind_eq_some_iff.1 hentered
  exact Option.bind_eq_some_iff.2 ⟨stage, hstage, RunStage.holds_of_entered hkey⟩

section

variable (hinv : ManagerInv threshold s) (hthread : s.threads[index]? = some h)
include hinv hthread

theorem ManagerInv.enter {manager : Nat} (hstage : h.stage = .run (.writing manager key))
    (hfree : ∀ u ∈ s.threads, u.holds ≠ some key) :
    ManagerInv threshold
      { shared := { s.shared with
          connections := s.shared.connections.change manager (insert key) }
        threads := s.threads.set index (h.moveTo (.run (.storing manager key))) } := by
  obtain ⟨hmanager, hpending, -, -⟩ := at_run hstage
  obtain ⟨rfl, hsome⟩ := hinv.manager index h hthread manager hmanager
  obtain ⟨hsingle, hmanagers, hkeys⟩ := hinv.single.change hsome (insert key)
  refine hinv.act hsingle (fun _ => hmanagers) (fun j u _ => hinv.creating j u) ?_
    (fun j u hj hu hpends => ?_) (fun j u _ hu k hk => ?_)
    ⟨?_, nofun, nofun, fun k hk j u _ hu => ?_, fun k hk => ?_⟩
  · intro hthreshold
    have hroom := hinv.room index h hthread hpending hthreshold
    have hcard := card_insert_le key (s.shared.connections.keys 0)
    rw [hkeys]
    omega
  · rw [hinv.onePending index h hthread j u hu (Ne.symm hj) hpending] at hpends
    cases hpends
  · rw [hkeys]
    exact mem_insert_of_mem (hinv.entered j u hu k hk)
  · intro m hm
    cases hm
    exact ⟨rfl, hmanagers⟩
  · cases hk
    exact hfree u (mem_of_getElem? hu)
  · cases hk
    rw [hkeys]
    exact mem_insert_self _ _

/-- The removal of the key of a session from the map. -/
theorem ManagerInv.remove {manager : Nat} (hstage : h.stage = .run (.deleting manager key)) :
    ManagerInv threshold
      { shared := { s.shared with
          connections := s.shared.connections.change manager (·.erase key) }
        threads := s.threads.set index (h.moveTo (.run (.unstoring key))) } := by
  obtain ⟨hmanager, -, hholds, -⟩ := at_run hstage
  obtain ⟨rfl, hsome⟩ := hinv.manager index h hthread manager hmanager
  obtain ⟨hsingle, hmanagers, hkeys⟩ := hinv.single.change hsome (·.erase key)
  have hcard := card_erase_le (s := s.shared.connections.keys 0) (a := key)
  refine hinv.act hsingle (fun _ => hmanagers) (fun j u _ => hinv.creating j u) ?_
    (fun j u _ hu hpends hthreshold => ?_) (fun j u hj hu k hk => ?_)
    ⟨nofun, nofun, nofun, fun k hk j u hj hu => ?_, fun k hk => by cases hk⟩
  · intro hthreshold
    have hfull := hinv.full hthreshold
    rw [hkeys]
    omega
  · have hroom := hinv.room j u hu hpends hthreshold
    rw [hkeys]
    omega
  · rw [hkeys]
    refine mem_erase.2 ⟨?_, hinv.entered j u hu k hk⟩
    rintro rfl
    exact hinv.apart index h hthread j u hu (Ne.symm hj) k hholds (holds_of_entered hk)
  · cases hk
    exact hinv.apart index h hthread j u hu (Ne.symm hj) key hholds

theorem ManagerInv.run (hstage : h.stage = .run stage)
    (horderly : OrderlyAdmission s (.act index choice)) {rest : Option RunStage}
    (hstep : stage.step h.addr h.query s.shared.connections choice = some (c, rest)) :
    ManagerInv threshold
      { shared := { s.shared with connections := c }
        threads := s.threads.set index (h.moveTo (rest.elim .leaving .run)) } := by
  rcases step_cases hstep with ⟨manager, cm, rfl, rfl, rfl, hcm, hroom⟩ |
    ⟨manager, key, rfl, rfl, rfl⟩ | ⟨manager, key, rfl, rfl, rfl⟩ |
    ⟨hmanagers, hvariable, hwithin⟩
  · refine hinv.gain rfl rfl ?_
    obtain ⟨rfl, hsome⟩ := hinv.manager index h hthread manager (at_run hstage).1
    refine
      { manager := fun m hm => by cases hm; exact ⟨rfl, hsome⟩
        creating := nofun
        pending := fun _ => ⟨?_, fun j u _ hu =>
          (horderly.at_stage hthread).2.1 0 hstage u (mem_of_getElem? hu)⟩
        holds := nofun
        entered := fun key h => by cases h }
    cases hinv.single with
    | unset _ hnil => exact absurd hnil hsome
    | set keys _ hone =>
      rw [hone] at hcm
      cases hcm
      simpa [Connections.keys, hone] using hroom
  · exact hinv.enter hthread hstage ((horderly.at_stage hthread).2.2 manager key hstage)
  · exact hinv.remove hthread hstage
  refine hinv.gain hmanagers hvariable ?_
  cases rest with
  | none => exact gains_outside rfl rfl
  | some next =>
    obtain ⟨hmanager₀, hpending₀, hholds₀, hentered₀⟩ := at_run hstage
    obtain ⟨hpending, hholds, hentered, hmanager⟩ := hwithin next rfl
    refine hinv.keeps hthread ?_ nofun ?_ ?_ ?_
    · intro m hm
      rcases hmanager m hm with hold | hnew
      · exact hinv.manager index h hthread m (hmanager₀.trans hold)
      · cases hinv.single with
        | unset hnone _ =>
          rw [hnone] at hnew
          cases hnew
        | set keys hset hone =>
          rw [hset] at hnew
          exact ⟨(some.inj hnew).symm, hone ▸ cons_ne_nil _ _⟩
    · exact fun h => hpending₀.trans (hpending h)
    · exact fun key h => hholds₀.trans (hholds key h)
    · exact fun key h => hentered₀.trans (hentered key h)

end

/-- A step of the registry leaves the handler outside `Client.Run`, or at its start. -/
theorem Registry.step_outside {r registry : Registry} {self : Nat} {addr : String}
    {stage after : Stage} (hstep : r.step self addr stage = some (registry, after)) :
    (∀ setup, after ≠ .setup setup) ∧ ∀ run, after = .run run → run = .starting := by
  cases stage <;> simp only [Registry.step, reduceCtorEq] at hstep
  case locking | leaving =>
    split at hstep <;> cases hstep
    exact ⟨by rintro _ ⟨⟩, by rintro _ ⟨⟩⟩
  case entering =>
    cases hstep
    cases r.clients.lookup addr <;> exact ⟨by rintro _ ⟨⟩, by rintro _ ⟨⟩⟩
  case unlocking =>
    cases hstep
    refine ⟨by rintro _ ⟨⟩, fun run hrun => ?_⟩
    cases hrun
    rfl
  all_goals
    cases hstep
    exact ⟨by rintro _ ⟨⟩, by rintro _ ⟨⟩⟩

theorem ManagerInv.registry (hinv : ManagerInv threshold s) {registry : Registry} {stage : Stage}
    (hstep : s.shared.registry.step index h.addr h.stage = some (registry, stage)) :
    ManagerInv threshold
      { shared := { s.shared with registry := registry }
        threads := s.threads.set index (h.moveTo stage) } := by
  refine hinv.gain rfl rfl ?_
  obtain ⟨hsetup, hrun⟩ := Registry.step_outside hstep
  cases stage with
  | run stage =>
    obtain rfl := hrun stage rfl
    exact
      { manager := nofun
        creating := nofun
        pending := nofun
        holds := nofun
        entered := fun key h => by cases h }
  | setup stage => exact absurd rfl (hsetup stage)
  | _ => exact gains_outside rfl rfl

end Act

variable {after : Threads SubscribeServer Handler}

theorem ManagerInv.step (hinv : ManagerInv threshold s) {move : Move (String × String) Choice}
    (horderly : OrderlyAdmission s move) (hstep : (handlers threshold).step s move = some after) :
    ManagerInv threshold after := by
  rcases Program.step_cases hstep with ⟨call, rfl, rfl⟩ |
    ⟨index, choice, h, next, rfl, hthread, hact, rfl⟩
  · exact hinv.spawn call.1 call.2
  rcases act_cases hact with ⟨stage, c, rest, hstage, hsetup, rfl⟩ |
    ⟨stage, c, rest, hstage, hrun, rfl⟩ | ⟨registry, stage, hregistry, rfl⟩
  · exact hinv.setup hthread hstage horderly hsetup
  · exact hinv.run hthread hstage horderly hrun
  · exact hinv.registry hregistry

/-! ## The result -/

theorem RunStage.entered_of_registration {stage : RunStage}
    (h : stage.registration = some (manager, key)) : stage.entered = some key := by
  cases stage <;> cases h <;> rfl

theorem Handler.entered_of_registration
    (hregistration : h.registration = some (manager, key)) : h.entered = some key := by
  obtain ⟨stage, hstage, hkey⟩ := bind_eq_some_iff.1 hregistration
  exact Option.bind_eq_some_iff.2 ⟨stage, hstage, RunStage.entered_of_registration hkey⟩

theorem ManagerInv.sessionCount_le (hinv : ManagerInv threshold s) :
    sessionCount s ≤ (s.shared.connections.keys 0).card := by
  have hnodup : (s.threads.filterMap Handler.entered).Nodup := by
    refine PairwiseThreads.nodup_filterMap fun i t ht j u hu hij key hkey hother => ?_
    exact hinv.apart i t ht j u hu hij key (Handler.holds_of_entered hkey)
      (Handler.holds_of_entered hother)
  calc sessionCount s
      ≤ s.threads.countP (·.entered.isSome) := by
        refine List.countP_mono_left fun h _ hsome => ?_
        obtain ⟨⟨manager, key⟩, hregistration⟩ := Option.isSome_iff_exists.1 hsome
        rw [Handler.entered_of_registration hregistration]
        rfl
    _ = (s.threads.filterMap Handler.entered).length := List.length_filterMap_eq_countP.symm
    _ = (s.threads.filterMap Handler.entered).toFinset.card :=
        (List.toFinset_card_of_nodup hnodup).symm
    _ ≤ (s.shared.connections.keys 0).card := by
        refine Finset.card_le_card fun key hkey => ?_
        obtain ⟨h, hmem, hentered⟩ := List.mem_filterMap.1 (List.mem_toFinset.1 hkey)
        obtain ⟨i, hi⟩ := List.mem_iff_getElem?.1 hmem
        exact hinv.entered i h hi key hentered

/-- A step of `Remove` deletes no key but its own, neither from a map nor from Redis. -/
theorem RunStage.remove_step {stage : RunStage} (hremove : stage.inRemove = true)
    {addr query : String} {after : Connections} {rest : Option RunStage}
    (hstep : stage.step addr query c choice = some (after, rest)) {kept : String}
    (hkept : stage.holds ≠ some kept) :
    (∀ manager, kept ∈ c.keys manager → kept ∈ after.keys manager) ∧
      (kept ∈ c.table → kept ∈ after.table) := by
  cases stage <;> cases hremove <;> cases choice <;>
    simp only [step, reduceCtorEq] at hstep
  case removing.refl.proceed =>
    cases hstep
    exact ⟨fun _ h => h, fun h => h⟩
  case deleting.refl.proceed manager key =>
    cases hstep
    have hne : kept ≠ key := fun heq => hkept (congrArg some heq.symm)
    exact ⟨fun other h => c.mem_keys_erase hne h, fun h => h⟩
  case unstoring.refl.result key ok =>
    cases hstep
    have hne : kept ≠ key := fun heq => hkept (congrArg some heq.symm)
    refine ⟨fun _ h => h, fun h => ?_⟩
    split
    · exact mem_erase.2 ⟨hne, h⟩
    · exact h

/-- `Remove` of one session leaves the registrations of the others. -/
theorem ManagerInv.remove_keepsOthers {index : Nat} (hinv : ManagerInv threshold s)
    (hthread : s.threads[index]? = some h) (hremove : h.inRemove = true)
    (hstep : (handlers threshold).step s (.act index choice) = some after) :
    KeepsOthers s after index := by
  intro j u manager key hj hu hregistration
  obtain ⟨stage, hstage, hremoves⟩ : ∃ stage, h.stage = .run stage ∧ stage.inRemove = true := by
    unfold Handler.inRemove Handler.runStage at hremove
    split at hremove
    · exact ⟨_, ‹_›, hremove⟩
    · cases hremove
  -- the other session has another key
  have hne : stage.holds ≠ some key := by
    rw [← (at_run hstage).2.2.1]
    exact fun hown => hinv.apart index h hthread j u hu (Ne.symm hj) key hown
      (holds_of_entered (entered_of_registration hregistration))
  rcases Program.step_cases hstep with ⟨call, hmove, -⟩ |
    ⟨index', choice', h', next, hmove, hthread', hact, rfl⟩
  · cases hmove
  cases hmove
  obtain rfl : h = h' := some.inj (hthread.symm.trans hthread')
  rcases act_cases hact with ⟨_, _, _, hsetup, -, -⟩ |
    ⟨stage', c, rest, hrun, hrunStep, rfl⟩ | ⟨registry, stage', hregistry, -⟩
  · rw [hstage] at hsetup
    cases hsetup
  · obtain rfl : stage = stage' := Stage.run.inj (hstage.symm.trans hrun)
    obtain ⟨hkeys, htable⟩ := remove_step hremoves hrunStep hne
    exact ⟨hkeys manager, htable⟩
  · rw [hstage] at hregistry
    cases hregistry

/-- As long as the sessions test and enter one after the other, and enter different keys,
their number stays within the threshold and no session removes the registration of
another. -/
theorem threshold_respected {threshold : Nat} (hthreshold : threshold ≠ 0)
    {table : Finset String} {s : Threads SubscribeServer Handler}
    (hreach : Reach (handlers threshold).step OrderlyAdmission (SubscribeServer.start table) s) :
    sessionCount s ≤ threshold ∧
      ∀ (index : Nat) (h : Handler) (choice : Choice) (after : Threads SubscribeServer Handler),
        s.threads[index]? = some h → h.inRemove = true →
        (handlers threshold).step s (.act index choice) = some after →
        KeepsOthers s after index := by
  have hinv : ManagerInv threshold s :=
    hreach.invariant (ManagerInv threshold) (ManagerInv.start threshold table)
      fun _ _ _ hinv horderly hstep => hinv.step horderly hstep
  refine ⟨hinv.sessionCount_le.trans (hinv.full hthreshold), ?_⟩
  intro index h choice after hthread hremove hstep
  exact hinv.remove_keepsOthers hthread hremove hstep

/-! ## Runs -/

/-- `Add` from the test of the limit on, and `defer`. -/
def addMoves (index : Nat) (now : UtcTime) : List (Move (String × String) Choice) :=
  [.act index (.clock now), .act index .proceed, .act index (.result true), .act index .proceed]

/-- The first message, the package variable, and the test of the limit. -/
def testMoves (index : Nat) : List (Move (String × String) Choice) :=
  [.act index (.result true), .act index .proceed, .act index .proceed]

def noon (second nanosecond : Nat) : UtcTime :=
  { year := 2026, month := 1, day := 1, hour := 12, minute := 0, second := second,
    nanosecond := nanosecond }

/-- Two sessions start one after the other within a second, and the first is about to
delete its key. -/
def oneAfterAnother : List (Move (String × String) Choice) :=
  [.spawn ("10.0.0.1:5000", ""), .spawn ("10.0.0.2:5000", "")] ++
    setupMoves 0 ++ enterMoves 0 false ++ testMoves 0 ++ addMoves 0 (noon 0 0) ++
    [.act 1 .proceed] ++ enterMoves 1 false ++ testMoves 1 ++ addMoves 1 (noon 0 1) ++
    [.act 0 .proceed, .act 0 .proceed]

def oneAfterAnotherEnd : Threads SubscribeServer Handler :=
  (runActions (handlers 2).step (SubscribeServer.start ∅) oneAfterAnother).get (by decide +kernel)

/-- The state after the first session has deleted its key. -/
def oneAfterAnotherDeleted : Threads SubscribeServer Handler :=
  ((handlers 2).step oneAfterAnotherEnd (.act 0 .proceed)).get (by decide +kernel)

/-- The second session keeps its registration. -/
theorem threshold_respected_two :
    (oneAfterAnotherEnd.threads[0]?).map Handler.inRemove = some true ∧
      (oneAfterAnotherEnd.threads[1]?).map Handler.registration =
        some (some (0, "10.0.0.2:5000|2026-01-01T12:00:00Z")) ∧
      sessionCount oneAfterAnotherEnd ≤ 2 ∧
      KeepsOthers oneAfterAnotherEnd oneAfterAnotherDeleted 0 := by
  have hreach : Reach (handlers 2).step OrderlyAdmission (SubscribeServer.start ∅)
      oneAfterAnotherEnd :=
    Reach.of_runActions oneAfterAnother .refl (by decide +kernel) (Option.some_get _).symm
  obtain ⟨hcount, hkeeps⟩ := threshold_respected (by decide) hreach
  have hremove : (oneAfterAnotherEnd.threads[0]?).map Handler.inRemove = some true := by
    decide +kernel
  obtain ⟨h, hthread, hinRemove⟩ := Option.map_eq_some_iff.1 hremove
  exact ⟨hremove, by decide +kernel, hcount,
    hkeeps 0 h .proceed oneAfterAnotherDeleted hthread hinRemove (Option.some_get _).symm⟩

/-- Two sessions pass the test before either is entered. -/
def testedTogether : List (Move (String × String) Choice) :=
  [.spawn ("10.0.0.1:5000", ""), .spawn ("10.0.0.2:5000", "")] ++
    setupMoves 0 ++ [.act 1 .proceed] ++ enterMoves 0 false ++ enterMoves 1 false ++
    testMoves 0 ++ testMoves 1 ++ addMoves 0 (noon 0 0) ++ addMoves 1 (noon 1 0)

/-- Two sessions find that there is no manager, and make one each; Redis is not
there. -/
def setUpTogether : List (Move (String × String) Choice) :=
  [.spawn ("10.0.0.1:5000", ""), .spawn ("10.0.0.2:5000", ""), .act 0 .proceed,
    .act 1 .proceed, .act 0 .proceed, .act 0 (.result false)] ++
    enterMoves 0 false ++ testMoves 0 ++ addMoves 0 (noon 0 0) ++
    [.act 1 .proceed, .act 1 (.result false)] ++
    enterMoves 1 false ++ testMoves 1 ++ addMoves 1 (noon 1 0)

/-- Two sessions of one peer start within a second, and then a third of another peer. -/
def sameSecond : List (Move (String × String) Choice) :=
  [.spawn ("10.0.0.1:5000", "target:\"APPL_DB\""), .spawn ("10.0.0.1:5000", "target:\"APPL_DB\""),
    .spawn ("10.0.0.2:5000", "target:\"APPL_DB\"")] ++
    setupMoves 0 ++ enterMoves 0 false ++ testMoves 0 ++ addMoves 0 (noon 0 100) ++
    [.act 1 .proceed] ++ enterMoves 1 true ++ testMoves 1 ++ addMoves 1 (noon 0 900) ++
    [.act 2 .proceed] ++ enterMoves 2 false ++ testMoves 2 ++ addMoves 2 (noon 1 0)

/-- The end of the first session. -/
def removeMoves (index : Nat) : List (Move (String × String) Choice) :=
  [.act index .proceed, .act index .proceed, .act index .proceed, .act index (.result true)]

/-- Whether a session is running, and its registration is in the map and in Redis. -/
def registered (s : Threads SubscribeServer Handler) (index : Nat) : Option (Bool × Bool) :=
  ((s.threads[index]?).bind Handler.registration).map fun registration =>
    (registration.2 ∈ s.shared.connections.keys registration.1,
      registration.2 ∈ s.shared.connections.table)

/-- More sessions than the threshold run, and a session removes the registration of
another one that is still running. -/
theorem threshold_exceeded :
    (runActions (handlers 1).step (SubscribeServer.start ∅) testedTogether).map sessionCount =
        some 2 ∧
      (runActions (handlers 1).step (SubscribeServer.start ∅) setUpTogether).map sessionCount =
        some 2 ∧
      (runActions (handlers 2).step (SubscribeServer.start ∅) sameSecond).map sessionCount =
        some 3 ∧
      (runActions (handlers 2).step (SubscribeServer.start ∅) sameSecond).map (registered · 1) =
        some (some (true, true)) ∧
      (runActions (handlers 2).step (SubscribeServer.start ∅)
          (sameSecond ++ removeMoves 0)).map (registered · 1) =
        some (some (false, false)) := by
  decide +kernel

end SonicGnmi.GnmiServer
