import SonicGnmi.Foundation.LockedRegister
import SonicGnmi.GnmiServer.SetGuard

/-!
# Master arbitration

`ReqFromMasterEnabledMA` as it runs in the server: Set requests are served at
the same time, each scans its own extensions, and the comparison with the
election id of the master happens under `maMu`.  It is a service on a register
behind a lock.

* `arbitration`, `reqFromMasterEnabledMA_eq` — the service, and that the function
  is what it computes when nothing else runs;
* `arbitrations`, `lastElectionId` — the extensions of a request that count;
* `master_arbitration` — what holds for all interleavings of all requests;
* `Rejected`, `rejected_set_keeps_master_iff` — Set arbitrates before every other
  check, so a request that is rejected later has already replaced the master.
-/

namespace SonicGnmi.GnmiServer

open Foundation Foundation.LockedRegister Gnmi Grpc Sdc List

/-! ## Election ids as numbers -/

/-- The 128-bit number of an election id. -/
def electionNumber (id : Uint128) : Nat := id.high.toNat * 2 ^ 64 + id.low.toNat

/-- `uint128.Compare` is the comparison of the numbers. -/
theorem compareUint128_eq (lh rh : Uint128) :
    compareUint128 lh rh = compare (electionNumber lh) (electionNumber rh) := by
  have hl : lh.low.toNat < 2 ^ 64 := lh.low.toNat_lt
  have hr : rh.low.toNat < 2 ^ 64 := rh.low.toNat_lt
  simp only [compareUint128, electionNumber, GT.gt, UInt64.lt_iff_toNat_lt]
  split
  · exact (Nat.compare_eq_gt.2 (by omega)).symm
  split
  · exact (Nat.compare_eq_lt.2 (by omega)).symm
  split
  · exact (Nat.compare_eq_gt.2 (by omega)).symm
  · split
    · exact (Nat.compare_eq_lt.2 (by omega)).symm
    · exact (Nat.compare_eq_eq.2 (by omega)).symm

/-! ## The scan over the extensions -/

variable (extensions : List Extension)

/-- The master arbitration extensions of a request, in their order. -/
def arbitrationsOf : List MasterArbitration :=
  extensions.filterMap fun e =>
    match e with
    | .masterArbitration ma => some ma
    | .registered _ _ => none

/-- The master arbitration extensions of a request. -/
def arbitrations (req : SetRequest) : List MasterArbitration := arbitrationsOf req.extension

/-- The extension has an election id and no role. -/
def Usable (ma : MasterArbitration) : Prop := ma.electionId.isSome = true ∧ ma.role = none

instance (ma : MasterArbitration) : Decidable (Usable ma) :=
  inferInstanceAs (Decidable (_ ∧ _))

/-- The election id of the last master arbitration extension. -/
def lastElectionId (req : SetRequest) : Option Uint128 :=
  (arbitrations req).getLast?.bind (·.electionId)

theorem electionId_of_unusable (found : Option Uint128)
    (hbad : ∃ ma ∈ arbitrationsOf extensions, ¬ Usable ma) :
    ∃ e, electionId extensions found = .error e := by
  induction extensions generalizing found with
  | nil => simp [arbitrationsOf] at hbad
  | cons extension rest ih =>
    cases extension with
    | registered id text =>
      rw [electionId]
      exact ih found (by simpa [arbitrationsOf] using hbad)
    | masterArbitration ma =>
      rw [electionId]
      cases hid : ma.electionId with
      | none => exact ⟨_, rfl⟩
      | some id =>
        simp only
        split
        · exact ⟨_, rfl⟩
        rename_i hrole
        have husable : Usable ma := ⟨by rw [hid]; rfl, by simpa using hrole⟩
        have hrest : ∃ ma ∈ arbitrationsOf rest, ¬ Usable ma := by
          obtain ⟨other, hmem, hother⟩ := hbad
          simp only [arbitrationsOf, filterMap_cons, mem_cons] at hmem
          rcases hmem with rfl | hmem
          · exact absurd husable hother
          · exact ⟨other, hmem, hother⟩
        exact ih (some id) hrest

/-- Otherwise the last extension wins. -/
theorem electionId_of_usable (found : Option Uint128)
    (hgood : ∀ ma ∈ arbitrationsOf extensions, Usable ma) :
    electionId extensions found =
      .ok (((arbitrationsOf extensions).getLast?.bind (·.electionId)).or found) := by
  induction extensions generalizing found with
  | nil => simp [arbitrationsOf, electionId]
  | cons extension rest ih =>
    cases extension with
    | registered id text =>
      rw [electionId, ih found (by simpa [arbitrationsOf] using hgood)]
      rfl
    | masterArbitration ma =>
      have hcons : arbitrationsOf (.masterArbitration ma :: rest) = ma :: arbitrationsOf rest := rfl
      rw [hcons] at hgood ⊢
      obtain ⟨hsome, hrole⟩ := hgood ma mem_cons_self
      obtain ⟨id, hid⟩ := Option.isSome_iff_exists.1 hsome
      have hrest := ih (some id) fun other hmem => hgood other (mem_cons_of_mem _ hmem)
      rw [electionId, hid]
      simp only [hrole, Option.isSome_none, Bool.false_eq_true, if_false]
      rw [hrest]
      cases hlast : arbitrationsOf rest with
      | nil => simp [hid]
      | cons next others =>
        -- The last extension of the rest has an election id of its own.
        have hmem := getLast_mem (cons_ne_nil next others)
        rw [hlast] at hgood
        have husable := (hgood _ (mem_cons_of_mem _ hmem)).1
        obtain ⟨last, hlastId⟩ := Option.isSome_iff_exists.1 husable
        simp [getLast?_eq_getLast_of_ne_nil, hlastId]

/-! ## The service -/

/-- The answer to an election id that is smaller than that of the master. -/
def staleElection (masterEID reqEID : Uint128) : Status :=
  ⟨.permissionDenied, "Election ID is smaller than the current master. Rejected. Master EID: &" ++
      sprintUint128 masterEID ++ ". Current EID: " ++ sprintUint128 reqEID ++ "."⟩

/-- `ReqFromMasterEnabledMA`, cut at `maMu.Lock()`: the scan before it and the
comparison under the lock. -/
def arbitration : Service SetRequest Uint128 Uint128 (Except Status Unit) where
  prepare req :=
    match electionId req.extension none with
    | .error e => .error (.error e)
    | .ok none => .error (.ok ())
    | .ok (some reqEID) => .ok reqEID
  resolve reqEID masterEID :=
    match compareUint128 masterEID reqEID with
    | .gt => (.error (staleElection masterEID reqEID), none)
    | .lt => (.ok (), some reqEID)
    | .eq => (.ok (), none)

/-- When nothing else runs, the service is the function. -/
theorem reqFromMasterEnabledMA_eq (req : SetRequest) (masterEID : Uint128) :
    reqFromMasterEnabledMA req masterEID =
      match arbitration.prepare req with
      | .error answer => answer.map fun _ => masterEID
      | .ok reqEID =>
        (arbitration.resolve reqEID masterEID).1.map fun _ =>
          arbitration.apply masterEID reqEID := by
  simp only [reqFromMasterEnabledMA, arbitration, Service.apply]
  rcases electionId req.extension none with e | (_ | reqEID)
  · rfl
  · rfl
  · simp only
    cases compareUint128 masterEID reqEID <;> rfl

/-- The decision accepts the request. -/
def accepted {Thread : Type} (e : Entry Thread Uint128 Uint128) : Bool :=
  (arbitration.resolve e.arg e.seen).1.isOk

/-- The numbers of the accepted requests, in the order of the lock. -/
def acceptedIds {Thread : Type} (log : List (Entry Thread Uint128 Uint128)) : List Nat :=
  (log.filter accepted).map fun e => electionNumber e.arg

theorem resolve_cases (reqEID masterEID : Uint128) :
    (electionNumber masterEID ≤ electionNumber reqEID ∧
        (arbitration.resolve reqEID masterEID).1 = .ok () ∧
        electionNumber (arbitration.apply masterEID reqEID) = electionNumber reqEID) ∨
      (electionNumber reqEID < electionNumber masterEID ∧
        (arbitration.resolve reqEID masterEID).1 = .error (staleElection masterEID reqEID) ∧
        arbitration.apply masterEID reqEID = masterEID) := by
  have hnumbers := compareUint128_eq masterEID reqEID
  unfold Service.apply arbitration
  dsimp only
  cases hcompare : compareUint128 masterEID reqEID with
  | lt =>
    rw [hcompare] at hnumbers
    exact .inl ⟨(Nat.compare_eq_lt.1 hnumbers.symm).le, rfl, rfl⟩
  | eq =>
    rw [hcompare] at hnumbers
    have heq := Nat.compare_eq_eq.1 hnumbers.symm
    exact .inl ⟨heq.le, rfl, heq⟩
  | gt =>
    rw [hcompare] at hnumbers
    exact .inr ⟨Nat.compare_eq_gt.1 hnumbers.symm, rfl, rfl⟩

/-- A request is accepted iff its election id is not smaller than the stored
one. -/
theorem accepted_iff {Thread : Type} (e : Entry Thread Uint128 Uint128) :
    accepted e = true ↔ electionNumber e.seen ≤ electionNumber e.arg := by
  unfold accepted
  rcases resolve_cases e.arg e.seen with ⟨hle, hok, -⟩ | ⟨hlt, herror, -⟩
  · simp [hok, hle]
  · simp [herror, Nat.not_le.2 hlt]

/-- The stored id is the maximum of the first one and the accepted ones. -/
theorem electionNumber_final {Thread : Type} (log : List (Entry Thread Uint128 Uint128))
    {initial : Uint128} (h : arbitration.Sequential initial log) :
    electionNumber (arbitration.final initial log) =
      (acceptedIds log).foldl max (electionNumber initial) := by
  induction log generalizing initial with
  | nil => rfl
  | cons e rest ih =>
    obtain ⟨hseen, hrest⟩ := h
    change electionNumber (arbitration.final (arbitration.apply initial e.arg) rest) = _
    rw [ih hrest]
    have haccepted := accepted_iff e
    rw [hseen] at haccepted
    rcases resolve_cases e.arg initial with ⟨hle, -, hnumber⟩ | ⟨hlt, -, happly⟩
    · rw [hnumber, acceptedIds, acceptedIds, filter_cons_of_pos (haccepted.2 hle),
        map_cons, foldl_cons, max_eq_right hle]
    · rw [happly, acceptedIds, acceptedIds, filter_cons_of_neg]
      rw [haccepted]
      omega

/-- The accepted ids do not decrease and stay above the stored one. -/
theorem acceptedIds_sorted {Thread : Type} (log : List (Entry Thread Uint128 Uint128))
    {initial : Uint128} (h : arbitration.Sequential initial log) :
    (electionNumber initial :: acceptedIds log).Pairwise (· ≤ ·) := by
  induction log generalizing initial with
  | nil => simp [acceptedIds]
  | cons e rest ih =>
    obtain ⟨hseen, hrest⟩ := h
    have hsorted := ih hrest
    have haccepted := accepted_iff e
    rw [hseen] at haccepted
    rcases resolve_cases e.arg initial with ⟨hle, -, hnumber⟩ | ⟨hlt, -, happly⟩
    · rw [hnumber] at hsorted
      rw [acceptedIds, filter_cons_of_pos (haccepted.2 hle), map_cons]
      refine pairwise_cons.2 ⟨?_, hsorted⟩
      intro id hid
      rcases mem_cons.1 hid with rfl | hid
      · exact hle
      · exact hle.trans ((pairwise_cons.1 hsorted).1 id hid)
    · rw [happly] at hsorted
      rw [acceptedIds, filter_cons_of_neg]
      · exact hsorted
      · rw [haccepted]
        omega

/-! ## Requests that do not need the lock -/

variable {req : SetRequest}

theorem prepare_of_unusable (hbad : ∃ ma ∈ arbitrations req, ¬ Usable ma) :
    ∃ e, arbitration.prepare req = .error (.error e) := by
  obtain ⟨e, he⟩ := electionId_of_unusable req.extension none hbad
  exact ⟨e, by simp [arbitration, he]⟩

theorem prepare_of_none (hnone : arbitrations req = []) :
    arbitration.prepare req = .error (.ok ()) := by
  have hempty : arbitrationsOf req.extension = [] := hnone
  have hid := electionId_of_usable req.extension none (by simp [hempty])
  simp [arbitration, hid, hempty]

theorem prepare_of_usable (hgood : ∀ ma ∈ arbitrations req, Usable ma)
    (hsome : arbitrations req ≠ []) :
    ∃ id, lastElectionId req = some id ∧ arbitration.prepare req = .ok id := by
  have husable := (hgood _ (getLast_mem hsome)).1
  obtain ⟨id, hid⟩ := Option.isSome_iff_exists.1 husable
  have hlast : lastElectionId req = some id := by
    rw [lastElectionId, getLast?_eq_getLast_of_ne_nil hsome]
    exact hid
  have hscan := electionId_of_usable req.extension none hgood
  change electionId req.extension none = .ok ((lastElectionId req).or none) at hscan
  rw [hlast] at hscan
  exact ⟨id, hlast, by simp [arbitration, hscan]⟩

theorem lastElectionId_of_prepare {id : Uint128}
    (h : arbitration.prepare req = .ok id) : lastElectionId req = some id := by
  by_cases hbad : ∃ ma ∈ arbitrations req, ¬ Usable ma
  · obtain ⟨e, he⟩ := prepare_of_unusable hbad
    rw [he] at h
    contradiction
  · by_cases hnone : arbitrations req = []
    · rw [prepare_of_none hnone] at h
      contradiction
    · push Not at hbad
      obtain ⟨last, hlast, hprepare⟩ := prepare_of_usable hbad hnone
      rw [hprepare, Except.ok.injEq] at h
      rw [hlast, h]

/-- **Master arbitration over all interleavings.**  For any number of requests
and any schedule, in the order in which the requests take the lock:

* the stored id is the maximum of its first value and the accepted ids;
* the accepted ids do not decrease;
* a request is decided on its last election id and is accepted iff that is not
  smaller than the id stored at that time;
* each request takes the lock at most once, and at most the last one to take it
  is not decided yet;
* a request with an unusable extension is rejected, one without an extension is
  accepted, and neither takes the lock or changes the stored id; every other
  finished request was decided;
* no schedule runs into a deadlock. -/
theorem master_arbitration {Thread : Type} [DecidableEq Thread] (reqs : Thread → SetRequest)
    (initial : Uint128) (schedule : List Thread) :
    let s := run arbitration reqs initial schedule
    electionNumber s.reg = (acceptedIds s.log).foldl max (electionNumber initial) ∧
      (acceptedIds s.log).Pairwise (· ≤ ·) ∧
      (∀ before e after, s.log = before ++ e :: after →
        lastElectionId (reqs e.thread) = some e.arg ∧
          electionNumber e.seen = (acceptedIds before).foldl max (electionNumber initial) ∧
          (accepted e = true ↔ electionNumber e.seen ≤ electionNumber e.arg)) ∧
      (s.log.map (·.thread) <+: s.taken ∧ s.taken.length ≤ s.log.length + 1 ∧ s.taken.Nodup) ∧
      (∀ i res, s.phase i = .finished res →
        ((∃ ma ∈ arbitrations (reqs i), ¬ Usable ma) → ∃ e, res = .error e) ∧
          (arbitrations (reqs i) = [] → res = .ok ()) ∧
          ((∀ ma ∈ arbitrations (reqs i), Usable ma) → arbitrations (reqs i) ≠ [] →
            ∃ e ∈ s.log, e.thread = i ∧ (res = .ok () ↔ accepted e = true))) ∧
      (∀ i, (∃ ma ∈ arbitrations (reqs i), ¬ Usable ma) ∨ arbitrations (reqs i) = [] →
        i ∉ s.taken ∧ (step arbitration reqs s i).reg = s.reg) ∧
      ((∀ i, (step arbitration reqs s i).phase i = s.phase i) →
        ∀ i, ∃ res, s.phase i = .finished res) := by
  intro s
  have hlinear : Linear arbitration reqs initial s := run_linear arbitration reqs initial schedule
  refine ⟨?_, ?_, ?_, ⟨?_, ?_, hlinear.once⟩, ?_, ?_, hlinear.finished_of_stuck⟩
  · rw [hlinear.reg]
    exact electionNumber_final s.log hlinear.sequential
  · exact (List.pairwise_cons.1 (acceptedIds_sorted s.log hlinear.sequential)).2
  · intro before e after hlog
    have hprepared := hlinear.prepared e (by simp [hlog])
    have hsequential := hlinear.sequential
    rw [hlog] at hsequential
    refine ⟨lastElectionId_of_prepare hprepared, ?_, accepted_iff e⟩
    obtain ⟨hbefore, hseen, -⟩ := (arbitration.sequential_append).1 hsequential
    rw [hseen]
    exact electionNumber_final before hbefore
  · rw [hlinear.taken]
    exact List.prefix_append _ _
  · rw [hlinear.taken, List.length_append, List.length_map]
    have hpending : (pending s).length ≤ 1 := by
      unfold pending
      split
      · simp
      · split <;> simp
    omega
  · intro i res hphase
    have hknown := hlinear.accounted i
    unfold Accounted at hknown
    simp only [hphase] at hknown
    -- An answered request got past the scan, so the first two cases have only one way.
    have hanswered : Answered arbitration s i res →
        ∃ id, arbitration.prepare (reqs i) = .ok id := by
      rintro ⟨e, he, rfl, -⟩
      exact ⟨e.arg, hlinear.prepared e he⟩
    refine ⟨?_, ?_, ?_⟩
    · intro hbad
      obtain ⟨e, hprepare⟩ := prepare_of_unusable hbad
      rcases hknown with herror | hdone
      · rw [hprepare, Except.error.injEq] at herror
        exact ⟨e, herror.symm⟩
      · obtain ⟨id, hid⟩ := hanswered hdone
        rw [hprepare] at hid
        contradiction
    · intro hnone
      rcases hknown with herror | hdone
      · rw [prepare_of_none hnone, Except.error.injEq] at herror
        exact herror.symm
      · obtain ⟨id, hid⟩ := hanswered hdone
        rw [prepare_of_none hnone] at hid
        contradiction
    · intro hgood hsome
      obtain ⟨id, -, hprepare⟩ := prepare_of_usable hgood hsome
      rcases hknown with herror | ⟨e, he, hthread, hanswer⟩
      · rw [hprepare] at herror
        contradiction
      · refine ⟨e, he, hthread, ?_⟩
        rw [← hanswer, accepted]
        cases (arbitration.resolve e.arg e.seen).1 <;> simp
  · intro i hoff
    have hprepare : ∃ res, arbitration.prepare (reqs i) = .error res := by
      rcases hoff with hbad | hnone
      · obtain ⟨e, he⟩ := prepare_of_unusable hbad
        exact ⟨_, he⟩
      · exact ⟨_, prepare_of_none hnone⟩
    obtain ⟨res, hres⟩ := hprepare
    exact ⟨hlinear.not_taken_of_error hres, hlinear.reg_step_of_error hres⟩

/-! ## Requests that Set rejects after the arbitration -/

section Rejected

variable {Device : Type} (backend : Backend Device) (s : Server)

/-- The answers with which Set turns a request away: a failed authentication, a
peer without a user name, the path policy, a kind of write that is disabled, an
error in the origins, and a path for which there is no data client. -/
inductive Rejected (ctx : Context) (req : SetRequest) (run : SetRun Device) : Prop
  | authentication (target : String) (e : Status)
      (hauth : Event.authenticated target true (.error e) ∈ run.events)
      (hanswer : run.answer = .error (.status e))
  | noUser (e : Status) (huser : getUsername ctx = .error e)
      (hanswer : run.answer = .error (.status e))
  | policy
      (hanswer : run.answer = statusError .permissionDenied
        "Unauthorized request. Rejected by pathz policy.")
  | disabled (message : String)
      (hmessage : message ∈ ["GNMI is in read-only mode", "GNMI native write is disabled",
        "Translib write is disabled"])
      (hanswer : run.answer = statusError .unimplemented message)
  | origin (e : Fault) (horigin : requestOrigin req = .error e) (hanswer : run.answer = .error e)
  | path (text : String) (hanswer : run.answer = statusError .notFound text)

variable (ctx : Context)

theorem setWithClient_masterEID (req : SetRequest) (authTarget : String)
    (dc : DataClient Device) (st : SetState Device) :
    (setWithClient backend s ctx req authTarget dc st).masterEID = st.masterEID := by
  rcases hauth : authenticate backend.auth s.config ctx authTarget true st.store with
    ⟨e | ⟨⟩, ctx', store⟩
  · simp [setWithClient, hauth, SetState.fail]
  · rcases hset : dc.set req.delete req.replace req.update store st.world with
      ⟨e | ⟨⟩, store', world⟩
    · simp [setWithClient, hauth, hset]
    · simp [setWithClient, hauth, hset, SetState.respond]

theorem setByOrigin_masterEID (req : SetRequest) (st : SetState Device) :
    (setByOrigin backend s ctx req st).masterEID = st.masterEID := by
  have hend := setByOrigin_ending backend s ctx req st
  generalize setByOrigin backend s ctx req st = run at hend ⊢
  cases hend with
  | refused | fastPath => rfl
  | client authTarget dc _ => exact setWithClient_masterEID backend s ctx req authTarget dc st

/-- Nothing after the arbitration changes the master: a run leaves the id that
the arbitration stored. -/
theorem set_masterEID (req : SetRequest) (iteration : Nat → Pathz.Iteration)
    (store : ContextStore) (world : World Device) :
    (set backend s ctx req iteration store world).masterEID =
      match s.reqFromMaster req with
      | .error _ => s.masterEID
      | .ok masterEID => masterEID := by
  unfold set
  cases s.reqFromMaster req with
  | error e => rfl
  | ok masterEID =>
    simp only
    split
    · rfl
    unfold setWithPolicy
    split
    · split
      · rfl
      · exact setByOrigin_masterEID backend s ctx req _
    · exact setByOrigin_masterEID backend s ctx req _

/-- The scan accepts the extensions and finds an election id above the one of
the master. -/
def Outbids (req : SetRequest) (masterEID : Uint128) : Prop :=
  ∃ id, electionId req.extension none = .ok (some id) ∧
    electionNumber masterEID < electionNumber id

/-- The arbitration changes the stored id exactly for the requests that outbid
the master. -/
theorem reqFromMasterEnabledMA_keeps_iff (req : SetRequest) (masterEID : Uint128) :
    (match reqFromMasterEnabledMA req masterEID with
      | .error _ => masterEID
      | .ok new => new) = masterEID ↔ ¬ Outbids req masterEID := by
  rw [reqFromMasterEnabledMA_eq]
  unfold Outbids
  rcases hscan : electionId req.extension none with e | (_ | id)
  · simp [arbitration, hscan, Except.map]
  · simp [arbitration, hscan, Except.map]
  have hprepare : arbitration.prepare req = .ok id := by simp [arbitration, hscan]
  simp only [hprepare, Except.ok.injEq, Option.some.injEq, exists_eq_left']
  rcases resolve_cases id masterEID with ⟨hle, hok, hnumber⟩ | ⟨hlt, herror, -⟩
  · simp only [hok, Except.map]
    constructor
    · intro hsame hbid
      rw [hsame] at hnumber
      omega
    · intro hbid
      -- Equal numbers compare as equal, and then nothing is stored.
      have hequal : compareUint128 masterEID id = .eq := by
        rw [compareUint128_eq]
        exact Nat.compare_eq_eq.2 (by omega)
      simp [Service.apply, arbitration, hequal]
  · simp only [herror, Except.map, true_iff]
    omega

/-- **Rejected requests and the master.**  With master arbitration enabled, a
rejected Set leaves the election id of the master as it was exactly when the
request does not outbid it. -/
theorem rejected_set_keeps_master_iff (ctx : Context) (req : SetRequest)
    (iteration : Nat → Pathz.Iteration) (store : ContextStore) (world : World Device)
    (henabled : s.masterArbitration = true)
    (_hrejected : Rejected ctx req (set backend s ctx req iteration store world)) :
    (set backend s ctx req iteration store world).masterEID = s.masterEID ↔
      ¬ Outbids req s.masterEID := by
  rw [set_masterEID, Server.reqFromMaster, if_pos henabled]
  exact reqFromMasterEnabledMA_keeps_iff req s.masterEID

end Rejected

/-- A server with password authentication and a master with the id 5. -/
def electedServer : Server where
  config := { userAuth := AList.singleton "password" true, enableTranslibWrite := true }
  masterArbitration := true
  masterEID := { low := 5 }

/-- A request with an election id. -/
def electionRequest (id : Uint128) : SetRequest where
  delete := [{ elem := [{ name := "a" }] }]
  extension := [.masterArbitration { electionId := some id }]

/-- A peer without credentials sends the largest election id.  It is turned
away, and from then on the controller with the id 5 is turned away too. -/
theorem rejected_set_becomes_master :
    Rejected anonymousContext (electionRequest ⟨0xffffffffffffffff, 0xffffffffffffffff⟩)
        (set countingBackend electedServer anonymousContext
          (electionRequest ⟨0xffffffffffffffff, 0xffffffffffffffff⟩)
          (fun _ => Pathz.Iteration.stored) {} quietWorld) ∧
      (set countingBackend electedServer anonymousContext
          (electionRequest ⟨0xffffffffffffffff, 0xffffffffffffffff⟩)
          (fun _ => Pathz.Iteration.stored) {} quietWorld).masterEID =
        ⟨0xffffffffffffffff, 0xffffffffffffffff⟩ ∧
      (reqFromMasterEnabledMA (electionRequest { low := 5 }) electedServer.masterEID).isOk = true ∧
      (reqFromMasterEnabledMA (electionRequest { low := 5 })
        ⟨0xffffffffffffffff, 0xffffffffffffffff⟩).isOk = false := by
  refine ⟨?_, by decide +kernel, by decide +kernel, by decide +kernel⟩
  refine Rejected.authentication "gnmi" ⟨.unauthenticated, "Unauthenticated"⟩ ?_ ?_
  · exact List.mem_singleton_self _
  · rfl

/-- The same peer with the id of the master does not replace it. -/
theorem rejected_set_keeps_master_same_id :
    (set countingBackend electedServer anonymousContext (electionRequest { low := 5 })
        (fun _ => Pathz.Iteration.stored) {} quietWorld).masterEID = electedServer.masterEID := by
  refine (rejected_set_keeps_master_iff countingBackend electedServer anonymousContext
    (electionRequest { low := 5 }) (fun _ => Pathz.Iteration.stored) {} quietWorld rfl
    (Rejected.authentication "gnmi" ⟨.unauthenticated, "Unauthenticated"⟩
      (List.mem_singleton_self _) rfl)).2 ?_
  rintro ⟨id, hid, hlt⟩
  simp only [electionRequest, electionId, Option.isSome_none, Bool.false_eq_true, if_false,
    Except.ok.injEq, Option.some.injEq] at hid
  subst hid
  exact lt_irrefl _ hlt

end SonicGnmi.GnmiServer
