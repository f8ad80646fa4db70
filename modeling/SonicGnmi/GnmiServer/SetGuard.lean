import SonicGnmi.Bypass.FastPath
import SonicGnmi.GnmiServer.Set

/-!
# What stands before a write of Set

Two guards belong before every write of `Server.Set`: the path policy has to
permit every path, and the peer has to be authenticated for write access.  The
handler looks every path up but does not use the results, and the fast path
writes before the call of `authenticate`.

* `PolicyEnforced`, `set_policyEnforced_iff` — the runs on which the path
  policy has its effect nevertheless;
* `AuthenticatedWrites`, `set_authenticatedWrites_iff` — every write comes after
  a successful authentication, except those of the fast path.
-/

namespace SonicGnmi.GnmiServer

open Foundation Gnmi Grpc Sdc

variable {Device : Type} (backend : Backend Device) (s : Server)

/-! ## Answers of a run -/

/-- The answer is a status with the code `PermissionDenied`. -/
def PermissionDenied (answer : Except Fault SetResponse) : Prop :=
  ∃ message, answer = .error (.status ⟨.permissionDenied, message⟩)

variable {e : Status} {target : String} {writeAccess : Bool} {auth : AuthBackend} {config : Config}
  {ctx : Context} {req : SetRequest} {st : SetState Device} {events : List Event}

theorem roleLoop_code (user target : String) (writeAccess : Bool) (roles : List String)
    (h : roleLoop user target writeAccess roles = .error e) : e.code = .unknown := by
  induction roles with
  | nil => contradiction
  | cons role rest ih =>
    rw [roleLoop] at h
    dsimp only at h
    split_ifs at h
    all_goals first
      | exact ih h
      | (cases h; rfl)

theorem checkRoles_code {auth : AuthInfo}
    (h : checkRoles auth target writeAccess = .error e) : e.code = .unknown := by
  simp only [checkRoles] at h
  split at h
  · rename_i e' hloop
    cases h
    exact roleLoop_code _ _ _ _ hloop
  · split at h
    · cases h
      rfl
    · contradiction

theorem authenticateInfo_code {info : AuthInfo}
    (h : (authenticateInfo auth config target writeAccess ctx info).2 = .error e) :
    e.code = .unknown ∨ e.code = .unauthenticated := by
  simp only [authenticateInfo] at h
  split at h
  · contradiction
  split at h
  · contradiction
  split at h
  · unfold certMethod at h
    split at h
    · cases h
      exact .inr rfl
    · split at h
      · exact .inl (checkRoles_code h)
      · contradiction
  · split at h <;> cases h
    exact .inr rfl

theorem sameOrigin_not_denied (origin : String) (paths : List (Option Path)) (message : String) :
    sameOrigin origin paths ≠ .error (.status ⟨.permissionDenied, message⟩) := by
  induction paths with
  | nil => simp [sameOrigin]
  | cons path rest ih =>
    cases path with
    | none => simp [sameOrigin]
    | some path =>
      rw [sameOrigin]
      split
      · simp
      · exact ih

theorem requestOrigin_not_denied (req : SetRequest) (message : String) :
    requestOrigin req ≠ .error (.status ⟨.permissionDenied, message⟩) := by
  unfold requestOrigin
  split
  · cases requestPaths req with
    | nil => simp [parseOrigin]
    | cons path rest =>
      cases path with
      | none => simp [parseOrigin]
      | some path => exact sameOrigin_not_denied path.origin rest message
  · simp

/-! ## The ways a run can end -/

/-- The request is handled by the bypass fast path. -/
def TakesFastPath (ctx : Context) (req : SetRequest) (world : World Device) : Prop :=
  requestOrigin req = .ok "sonic-db" ∧ s.config.enableNativeWrite = true ∧
    Bypass.usesBypass backend.redis world.configDb ctx req.pathPrefix req.delete
      (req.replace ++ req.update) = true

/-- What the fast path sends for a request. -/
def fastPathSends (req : SetRequest) (world : World Device) : Bypass.Progress :=
  (Bypass.sendAll backend.redis { db := world.configDb }
    (Bypass.plans backend.bypassIteration req.pathPrefix req.delete (req.replace ++ req.update))).1

/-- The ways Set can end after the path policy block: refused without an
effect, through the fast path, or with a data client. -/
inductive Ending (ctx : Context) (req : SetRequest) (st : SetState Device) :
    SetRun Device → Prop
  | refused (e : Fault) (hcode : ¬ PermissionDenied (.error e))
      (hpath : ¬ TakesFastPath backend s ctx req st.world) :
      Ending ctx req st { st with answer := .error e }
  | fastPath (answer : Except Fault SetResponse) (hcode : ¬ PermissionDenied answer)
      (hpath : TakesFastPath backend s ctx req st.world) :
      Ending ctx req st { st with
        answer := answer
        events := st.events ++ (fastPathSends backend req st.world).issued.map Event.redis
        world := { st.world with configDb := (fastPathSends backend req st.world).db } }
  | client (authTarget : String) (dc : DataClient Device)
      (hpath : ¬ TakesFastPath backend s ctx req st.world) :
      Ending ctx req st (setWithClient backend s ctx req authTarget dc st)

theorem fail_ending {code : Code} {message : String} (hcode : code ≠ .permissionDenied)
    (hpath : ¬ TakesFastPath backend s ctx req st.world) :
    Ending backend s ctx req st (st.fail code message) := by
  refine .refused (.status ⟨code, message⟩) ?_ hpath
  rintro ⟨m, h⟩
  simp only [Except.error.injEq, Fault.status.injEq, Status.mk.injEq] at h
  exact hcode h.1

theorem setNative_ending (horigin : requestOrigin req = .ok "sonic-db") :
    Ending backend s ctx req st (setNative backend s ctx req "sonic-db" st) := by
  unfold setNative
  by_cases henabled : s.config.enableNativeWrite = true
  · rw [if_neg (by simp [henabled])]
    cases huses : Bypass.usesBypass backend.redis st.world.configDb ctx req.pathPrefix req.delete
        (req.replace ++ req.update) with
    | true =>
      obtain ⟨answer, htry⟩ : ∃ answer, _ = some (_, answer) :=
        ⟨_, Bypass.trySet_eq_sendAll backend.bypassIteration huses⟩
      rw [htry]
      have hpath : TakesFastPath backend s ctx req st.world := ⟨horigin, henabled, huses⟩
      cases answer with
      | error e => exact .fastPath (.error (.status ⟨.internal, e⟩)) (by rintro ⟨m, ⟨⟩⟩) hpath
      | ok resp => exact .fastPath (.ok resp) (by rintro ⟨m, ⟨⟩⟩) hpath
    | false =>
      have hpath : ¬ TakesFastPath backend s ctx req st.world := by
        rintro ⟨-, -, h⟩
        rw [huses] at h
        contradiction
      rw [Bypass.trySet_eq_none backend.bypassIteration huses]
      cases backend.newMixedDbClient (requestPaths req) req.pathPrefix "sonic-db" with
      | error e => exact fail_ending backend s (by decide) hpath
      | ok client => exact .client _ _ hpath
  · rw [if_pos (by simpa using henabled)]
    exact fail_ending backend s (by decide) fun h => henabled h.2.1

theorem setTransl_ending (hpath : ¬ TakesFastPath backend s ctx req st.world) :
    Ending backend s ctx req st (setTransl backend s ctx req st) := by
  unfold setTransl
  split
  · exact fail_ending backend s (by decide) hpath
  cases backend.newTranslClient req.pathPrefix none ctx req.extension with
  | error e =>
    refine .refused (e.withCode .notFound) ?_ hpath
    rintro ⟨m, h⟩
    cases e <;> simp [Fault.withCode] at h
  | ok dc => exact .client _ _ hpath

/-- Every run ends in one of these ways. -/
theorem setByOrigin_ending (ctx : Context) (req : SetRequest) (st : SetState Device) :
    Ending backend s ctx req st (setByOrigin backend s ctx req st) := by
  unfold setByOrigin
  cases horigin : requestOrigin req with
  | error e =>
    refine .refused e ?_ ?_
    · rintro ⟨m, ⟨⟩⟩
      exact requestOrigin_not_denied req m horigin
    · rintro ⟨h, -⟩
      rw [horigin] at h
      contradiction
  | ok origin =>
    simp only [isNativeOrigin, decide_eq_true_eq]
    split
    · rename_i hnative
      subst hnative
      exact setNative_ending backend s horigin
    · rename_i hforeign
      refine setTransl_ending backend s ?_
      rintro ⟨h, -⟩
      rw [horigin, Except.ok.injEq] at h
      exact hforeign h

/-- The events of a run that ends with a data client: the authentication, and
the call of the client if it succeeded. -/
theorem setWithClient_events (ctx : Context) (req : SetRequest) (authTarget : String)
    (dc : DataClient Device) (st : SetState Device) :
    (∃ e, (setWithClient backend s ctx req authTarget dc st).events =
        st.events ++ [.authenticated authTarget true (.error e)] ∧
        ¬ PermissionDenied (setWithClient backend s ctx req authTarget dc st).answer) ∨
      (setWithClient backend s ctx req authTarget dc st).events =
        st.events ++ [.authenticated authTarget true (.ok ()),
          .clientSet req.delete req.replace req.update] := by
  rcases hauth : authenticate backend.auth s.config ctx authTarget true st.store with
    ⟨e | ⟨⟩, ctx', store⟩
  · left
    refine ⟨e, by simp [setWithClient, hauth, SetState.fail], ?_⟩
    rintro ⟨m, h⟩
    have hcode := authenticateInfo_code (congrArg Prod.fst hauth)
    simp only [setWithClient, hauth, SetState.fail, Except.error.injEq, Fault.status.injEq,
      Status.mk.injEq] at h
    rw [h.1] at hcode
    rcases hcode with hcode | hcode <;> contradiction
  · right
    rcases hset : dc.set req.delete req.replace req.update store st.world with
      ⟨e | ⟨⟩, store', world⟩
    · simp [setWithClient, hauth, hset]
    · simp [setWithClient, hauth, hset, SetState.respond]

/-- What Set looked up before it goes on. -/
def policyLookups (ctx : Context) (req : SetRequest) (iteration : Nat → Pathz.Iteration) :
    List Event :=
  if s.config.pathzPolicy then
    match getUsername ctx with
    | .error _ => []
    | .ok user => (s.pathzResults user req iteration).map fun r => Event.authorized r.1 r.2
  else
    []

/-- The conditions for getting past the path policy block. -/
def Admitted (ctx : Context) : Prop :=
  (s.config.enableTranslibWrite = true ∨ s.config.enableNativeWrite = true) ∧
    (s.config.pathzPolicy = true → ∃ user, getUsername ctx = .ok user)

/-- Set as a whole: refused by master arbitration, refused before the origin is
looked at, or ended in one of the ways above. -/
theorem set_cases (ctx : Context) (req : SetRequest) (iteration : Nat → Pathz.Iteration)
    (store : ContextStore) (world : World Device) :
    let start : SetState Device := { masterEID := s.masterEID, store := store, world := world }
    (∃ e, s.reqFromMaster req = .error e ∧
        set backend s ctx req iteration store world = start.fail e.code e.message) ∨
      ∃ masterEID, s.reqFromMaster req = .ok masterEID ∧ ((¬ Admitted s ctx ∧ ∃ code message,
            set backend s ctx req iteration store world =
              { start with masterEID := masterEID }.fail code message ∧
            (s.config.pathzPolicy = true → (∃ user, getUsername ctx = .ok user) →
              code ≠ .permissionDenied)) ∨
          (Admitted s ctx ∧ Ending backend s ctx req { start with
                masterEID := masterEID, events := policyLookups s ctx req iteration }
              (set backend s ctx req iteration store world))) := by
  intro start
  unfold set
  cases hmaster : s.reqFromMaster req with
  | error e => exact .inl ⟨e, rfl, rfl⟩
  | ok masterEID =>
    refine .inr ⟨masterEID, rfl, ?_⟩
    simp only
    by_cases hreadonly : (!s.config.enableTranslibWrite && !s.config.enableNativeWrite) = true
    · rw [if_pos hreadonly]
      refine .inl ⟨?_, .unimplemented, _, rfl, fun _ _ => by decide⟩
      rintro ⟨h | h, -⟩ <;> simp [h] at hreadonly
    · rw [if_neg hreadonly]
      have hwrite : s.config.enableTranslibWrite = true ∨ s.config.enableNativeWrite = true := by
        by_contra h
        simp_all
      unfold setWithPolicy policyLookups
      by_cases hpolicy : s.config.pathzPolicy = true
      · simp only [hpolicy, if_true]
        cases huser : getUsername ctx with
        | error e =>
          refine .inl ⟨?_, e.code, e.message, rfl, ?_⟩
          · rintro ⟨-, h⟩
            obtain ⟨user, h⟩ := h hpolicy
            rw [huser] at h
            contradiction
          · rintro - ⟨user, h⟩
            contradiction
        | ok user =>
          refine .inr ⟨⟨hwrite, fun _ => ⟨user, huser⟩⟩, ?_⟩
          exact setByOrigin_ending backend s ctx req _
      · simp only [hpolicy, Bool.false_eq_true, if_false]
        exact .inr ⟨⟨hwrite, fun h => absurd h hpolicy⟩, setByOrigin_ending backend s ctx req _⟩

/-! ## The path policy -/

/-- Every lookup was answered with the action `PERMIT`. -/
def AllPermitted (results : List (Path × Except String Pathz.Result)) : Prop :=
  ∀ r ∈ results, ∃ result, r.2 = .ok result ∧ result.action = .permit

/-- The path policy has its effect on a run: nothing is written unless every
path is permitted, and otherwise the answer is `PermissionDenied` and nothing
changes. -/
structure PolicyEnforced (run : SetRun Device) (world : World Device)
    (results : List (Path × Except String Pathz.Result)) : Prop where
  writes : (∃ e ∈ run.events, e.isWrite = true) → AllPermitted results
  refuses : ¬ AllPermitted results →
    PermissionDenied run.answer ∧ run.world = world ∧ run.masterEID = s.masterEID

/-- Master arbitration answers the request with `PermissionDenied`. -/
def MasterDenies (req : SetRequest) : Prop :=
  ∃ message, s.reqFromMaster req = .error ⟨.permissionDenied, message⟩

/-- A run on which a path is not permitted and which nevertheless satisfies the
policy was refused by master arbitration. -/
theorem masterDenies_of_enforced {user : String}
    {iteration : Nat → Pathz.Iteration} {store : ContextStore} {world : World Device}
    (hpolicy : s.config.pathzPolicy = true) (huser : getUsername ctx = .ok user)
    (hdenied : PermissionDenied (set backend s ctx req iteration store world).answer)
    (hnone : ¬ ∃ e ∈ (set backend s ctx req iteration store world).events, e.isWrite = true) :
    MasterDenies s req := by
  rcases set_cases backend s ctx req iteration store world with
    ⟨e, hmaster, hrun⟩ | ⟨masterEID, -, ⟨-, code, message, hrun, hcode⟩ | ⟨-, hend⟩⟩
  · obtain ⟨m, h⟩ := hdenied
    rw [hrun] at h
    simp only [SetState.fail, Except.error.injEq, Fault.status.injEq, Status.mk.injEq] at h
    refine ⟨e.message, ?_⟩
    rw [hmaster, ← h.1]
  · obtain ⟨m, h⟩ := hdenied
    rw [hrun] at h
    simp only [SetState.fail, Except.error.injEq, Fault.status.injEq, Status.mk.injEq] at h
    exact absurd h.1 (hcode hpolicy ⟨user, huser⟩)
  · generalize set backend s ctx req iteration store world = run at hend hdenied hnone
    cases hend with
    | refused e hcode _ | fastPath answer hcode _ => exact absurd hdenied hcode
    | client authTarget dc _ =>
      rcases setWithClient_events backend s ctx req authTarget dc _ with ⟨e, -, hcode⟩ | hevents
      · exact absurd hdenied hcode
      · refine absurd ⟨.clientSet req.delete req.replace req.update, ?_, rfl⟩ hnone
        rw [hevents]
        simp

/-- The path policy has its effect exactly when every path is permitted or
master arbitration already answers `PermissionDenied`. -/
theorem set_policyEnforced_iff (ctx : Context) (req : SetRequest) (user : String)
    (iteration : Nat → Pathz.Iteration) (store : ContextStore) (world : World Device)
    (hpolicy : s.config.pathzPolicy = true) (huser : getUsername ctx = .ok user) :
    PolicyEnforced s (set backend s ctx req iteration store world) world
        (s.pathzResults user req iteration) ↔
      AllPermitted (s.pathzResults user req iteration) ∨ MasterDenies s req := by
  constructor
  · intro henforced
    by_cases hall : AllPermitted (s.pathzResults user req iteration)
    · exact Or.inl hall
    · obtain ⟨hdenied, -, -⟩ := henforced.refuses hall
      exact Or.inr (masterDenies_of_enforced backend s hpolicy huser hdenied
        fun hwrite => hall (henforced.writes hwrite))
  · rintro (hall | ⟨message, hmaster⟩)
    · exact ⟨fun _ => hall, fun h => absurd hall h⟩
    have hrun : set backend s ctx req iteration store world =
        ({ masterEID := s.masterEID, store := store, world := world } :
          SetState Device).fail .permissionDenied message := by
      simp [set, hmaster]
    rw [hrun]
    refine ⟨?_, fun _ => ⟨⟨message, rfl⟩, rfl, rfl⟩⟩
    rintro ⟨e, he, -⟩
    simp [SetState.fail] at he

/-! ## Authentication -/

/-- Every write comes after a successful authentication for write access. -/
def AuthenticatedWrites (events : List Event) : Prop :=
  ∀ before e after, events = before ++ e :: after → e.isWrite = true →
    ∃ target, Event.authenticated target true (.ok ()) ∈ before

theorem authenticatedWrites_of_no_writes
    (h : ∀ e ∈ events, e.isWrite = false) : AuthenticatedWrites events := by
  intro before e after hsplit hwrite
  rw [h e (by simp [hsplit])] at hwrite
  contradiction

theorem authenticatedWrites_concat {e : Event} (target : String) (h : AuthenticatedWrites events)
    (hauth : Event.authenticated target true (.ok ()) ∈ events) :
    AuthenticatedWrites (events ++ [e]) := by
  intro before x after hsplit hwrite
  rcases List.eq_nil_or_concat after with rfl | ⟨rest, last, rfl⟩
  · obtain ⟨hbefore, -⟩ := List.append_inj' hsplit rfl
    rw [← hbefore]
    exact ⟨target, hauth⟩
  · have hsplit' : events ++ [e] = (before ++ x :: rest) ++ [last] := by
      rw [hsplit]
      simp
    exact h before x rest (List.append_inj' hsplit' rfl).1 hwrite

/-- The fast path writes for this request: master arbitration and the path
policy block let it pass, the fast path is taken, and Redis accepts the first
command. -/
def FastPathWrites (ctx : Context) (req : SetRequest) (world : World Device) : Prop :=
  (∃ masterEID, s.reqFromMaster req = .ok masterEID) ∧
    (s.config.pathzPolicy = true → ∃ user, getUsername ctx = .ok user) ∧
    TakesFastPath backend s ctx req world ∧
    ∃ command,
      Bypass.firstCommand (Bypass.plans backend.bypassIteration req.pathPrefix req.delete
        (req.replace ++ req.update)) = some command ∧
      backend.redis.writeError [command] = none

/-- A run with a data client authenticates before it writes. -/
theorem setWithClient_authenticatedWrites {authTarget : String} {dc : DataClient Device}
    (hquiet : ∀ e ∈ st.events, e.isWrite = false) :
    AuthenticatedWrites (setWithClient backend s ctx req authTarget dc st).events := by
  have hfirst : ∀ result, ∀ e ∈ st.events ++ [Event.authenticated authTarget true result],
      e.isWrite = false := fun result =>
    List.forall_mem_append.2 ⟨hquiet, List.forall_mem_singleton.2 rfl⟩
  rcases setWithClient_events backend s ctx req authTarget dc st with ⟨e, hevents, -⟩ | hevents
  · rw [hevents]
    exact authenticatedWrites_of_no_writes (hfirst (.error e))
  rw [hevents, List.append_cons]
  exact authenticatedWrites_concat authTarget
    (authenticatedWrites_of_no_writes (hfirst (.ok ()))) (by simp)

/-- The writes of the fast path are not authenticated. -/
theorem fastPath_authenticatedWrites_iff {issued : List Bypass.Command}
    (hlookups : ∀ e ∈ events, ∃ path result, e = Event.authorized path result) :
    AuthenticatedWrites (events ++ issued.map Event.redis) ↔ issued = [] := by
  constructor
  · intro h
    cases issued with
    | nil => rfl
    | cons command rest =>
      exfalso
      obtain ⟨target, hmem⟩ := h events (.redis command) (rest.map Event.redis) rfl rfl
      obtain ⟨path, result, heq⟩ := hlookups _ hmem
      cases heq
  · rintro rfl
    apply authenticatedWrites_of_no_writes
    intro e he
    obtain ⟨path, result, rfl⟩ := hlookups e (by simpa using he)
    rfl

/-- Every write of Set comes after a successful authentication for write
access, unless the fast path writes. -/
theorem set_authenticatedWrites_iff (ctx : Context) (req : SetRequest)
    (iteration : Nat → Pathz.Iteration) (store : ContextStore) (world : World Device) :
    AuthenticatedWrites (set backend s ctx req iteration store world).events ↔
      ¬ FastPathWrites backend s ctx req world := by
  have hlookups : ∀ e ∈ policyLookups s ctx req iteration, ∃ path result,
      e = .authorized path result := by
    intro e he
    unfold policyLookups at he
    split at he
    · split at he
      · contradiction
      · obtain ⟨r, -, rfl⟩ := List.mem_map.1 he
        exact ⟨r.1, r.2, rfl⟩
    · contradiction
  have hquiet : ∀ e ∈ policyLookups s ctx req iteration, e.isWrite = false := by
    intro e he
    obtain ⟨path, result, rfl⟩ := hlookups e he
    rfl
  rcases set_cases backend s ctx req iteration store world with
    ⟨e, hmaster, hrun⟩ | ⟨masterEID, hmaster, ⟨hadmitted, code, message, hrun, -⟩ | ⟨hadmitted, hend⟩⟩
  · refine iff_of_true ?_ ?_
    · rw [hrun]
      exact authenticatedWrites_of_no_writes (by simp [SetState.fail])
    · rintro ⟨⟨eid, h⟩, -⟩
      rw [hmaster] at h
      contradiction
  · refine iff_of_true ?_ ?_
    · rw [hrun]
      exact authenticatedWrites_of_no_writes (by simp [SetState.fail])
    · rintro ⟨-, huser, ⟨-, hnative, -⟩, -⟩
      exact hadmitted ⟨Or.inr hnative, huser⟩
  · generalize set backend s ctx req iteration store world = run at hend
    cases hend with
    | refused e _ hpath =>
      exact iff_of_true (authenticatedWrites_of_no_writes hquiet) fun h => hpath h.2.2.1
    | client authTarget dc hpath =>
      exact iff_of_true (setWithClient_authenticatedWrites backend s hquiet)
        fun h => hpath h.2.2.1
    | fastPath answer _ hpath =>
      rw [fastPath_authenticatedWrites_iff hlookups]
      have hissues := Bypass.sendAll_issues_iff backend.redis world.configDb
        (Bypass.plans backend.bypassIteration req.pathPrefix req.delete (req.replace ++ req.update))
      constructor
      · rintro hempty ⟨-, -, -, hfirst⟩
        exact hissues.2 hfirst hempty
      · intro hnot
        by_contra hne
        exact hnot ⟨⟨masterEID, hmaster⟩, hadmitted.2, hpath, hissues.1 hne⟩

/-! ## Runs that miss a guard -/

def countingClient : DataClient Nat where
  get := fun store world => (.ok [], store, world)
  set := fun _ _ _ store world => (.ok (), store, { world with device := world.device + 1 })

def aliceOnly : AuthBackend where
  userRoles := fun user => if user = "alice" then some ["admin"] else none
  userPwAuth := fun _ _ => false
  parseWithClaims := fun _ => .error "token is malformed"
  getEntry := fun _ _ => ∅
  verifyCertCrl := fun _ => .ok ()

def countingBackend : Backend Nat where
  auth := aliceOnly
  redis := {}
  bypassIteration := { bulk := RangeOrder.stored, entry := RangeOrder.stored }
  newMixedDbClient := fun _ _ _ => .ok ("CONFIG_DB", countingClient)
  newTranslClient := fun _ _ _ _ => .ok countingClient
  saveStartupConfig := id

def aliceRules : List Pathz.AuthorizationRule :=
  [{ id := "1", principal := some (.user "alice"), action := .deny, mode := .write
     path := { elem := [{ name := "a" }] } },
   { id := "2", principal := some (.user "alice"), action := .permit, mode := .write
     path := { elem := [{ name := "b" }] } }]

def loadedProcessor (rules : List Pathz.AuthorizationRule) : Pathz.GnmiAuthzProcessor :=
  match ({} : Pathz.GnmiAuthzProcessor).updatePolicyFromProto
      (some { rules := rules, groups := [] }) with
  | .ok processor => processor
  | .error _ => {}

/-- Certificate authentication, translib writes and the path policy. -/
def policyServer : Server where
  config :=
    { userAuth := AList.singleton "cert" true
      enableTranslibWrite := true
      pathzPolicy := true }
  pathzProcessor := loadedProcessor aliceRules

/-- Alice with their certificate over TCP. -/
def aliceContext : Context :=
  Incoming.context
    { peer := some
        { addr := some (.tcp "10.0.0.1:4000")
          tls := some
            { verifiedChains := [[{ commonName := "alice" }]]
              spiffeId := some { trustDomain := "corp", path := "/user/alice" } } }
      metadata := some fun _ => none }

def deleteRequest (name : String) : SetRequest where
  delete := [{ elem := [{ name := name }] }]

def quietWorld : World Nat where
  configDb := Redis.Db.empty
  device := 0

/-- Alice deletes a path that the policy denies to them: the data client is
called and the request succeeds. -/
theorem set_ignores_denied_path :
    policyServer.config.pathzPolicy = true ∧ getUsername aliceContext = .ok "alice" ∧
      (policyServer.pathzResults "alice" (deleteRequest "a")
        fun _ => Pathz.Iteration.stored).map (·.2) =
          [.ok { action := .deny, ruleId := "1", matchedRule := "/a" }] ∧
      (set countingBackend policyServer aliceContext (deleteRequest "a")
        (fun _ => Pathz.Iteration.stored) {} quietWorld).answer.isOk = true ∧
      (set countingBackend policyServer aliceContext (deleteRequest "a")
        (fun _ => Pathz.Iteration.stored) {} quietWorld).world.device = 1 ∧
      ¬ PolicyEnforced policyServer
        (set countingBackend policyServer aliceContext (deleteRequest "a")
          (fun _ => Pathz.Iteration.stored) {} quietWorld) quietWorld
        (policyServer.pathzResults "alice" (deleteRequest "a")
          fun _ => Pathz.Iteration.stored) := by
  have hresults : (policyServer.pathzResults "alice" (deleteRequest "a")
      fun _ => Pathz.Iteration.stored).map (·.2) =
        [.ok { action := .deny, ruleId := "1", matchedRule := "/a" }] := by
    decide +kernel
  have hwrites : (set countingBackend policyServer aliceContext (deleteRequest "a")
      (fun _ => Pathz.Iteration.stored) {} quietWorld).events.any Event.isWrite = true := by
    decide +kernel
  refine ⟨rfl, by decide +kernel, hresults, by decide +kernel, by decide +kernel, ?_⟩
  intro henforced
  have hall := henforced.writes (List.any_eq_true.1 hwrites)
  obtain ⟨r, hr, hdeny⟩ : ∃ r ∈ policyServer.pathzResults "alice" (deleteRequest "a")
      (fun _ => Pathz.Iteration.stored),
      r.2 = .ok { action := .deny, ruleId := "1", matchedRule := "/a" } := by
    rw [← List.mem_map, hresults]
    simp
  obtain ⟨result, hok, hpermit⟩ := hall r hr
  rw [hdeny, Except.ok.injEq] at hok
  rw [← hok] at hpermit
  contradiction

/-- For the path that the policy permits the guard is kept. -/
theorem set_policyEnforced_permitted_path :
    PolicyEnforced policyServer
      (set countingBackend policyServer aliceContext (deleteRequest "b")
        (fun _ => Pathz.Iteration.stored) {} quietWorld) quietWorld
      (policyServer.pathzResults "alice" (deleteRequest "b") fun _ => Pathz.Iteration.stored) := by
  have hresults : (policyServer.pathzResults "alice" (deleteRequest "b")
      fun _ => Pathz.Iteration.stored).map (·.2) =
        [.ok { action := .permit, ruleId := "2", matchedRule := "/b" }] := by
    decide +kernel
  refine (set_policyEnforced_iff countingBackend policyServer aliceContext (deleteRequest "b")
    "alice" (fun _ => Pathz.Iteration.stored) {} quietWorld rfl (by decide +kernel)).2
    (Or.inl ?_)
  intro r hr
  have hmem := List.mem_map_of_mem (f := Prod.snd) hr
  rw [hresults, List.mem_singleton] at hmem
  exact ⟨_, hmem, rfl⟩

def passwordServer : Server where
  config := { userAuth := AList.singleton "password" true, enableNativeWrite := true }

/-- A TCP peer without any credentials, with the bypass header. -/
def anonymousContext : Context :=
  Incoming.context
    { peer := some { addr := some (.tcp "10.0.0.2:4000") }
      metadata := some fun key =>
        if key = Bypass.metadataKeyBypassValidation then some "true" else none }

def vnetWorld : World Nat where
  configDb :=
    (Redis.Db.empty.hset "DEVICE_METADATA|localhost"
      (Finmap.singleton "hwsku" "Cisco-8102-C64")).hset "VNET|Vnet1"
      (Finmap.singleton "vni" "1000")
  device := 0

def deleteVnet : SetRequest where
  delete :=
    [{ origin := "sonic-db"
       elem := [{ name := "CONFIG_DB" }, { name := "localhost" }, { name := "VNET" },
         { name := "Vnet1" }] }]

/-- The fast path deletes the VNET for a peer that cannot authenticate. -/
theorem fastPath_writes_unauthenticated :
    passwordServer.config.userAuth.any = true ∧
      (authenticate countingBackend.auth passwordServer.config anonymousContext "gnmi_CONFIG_DB"
        true {}).1.isOk = false ∧
      vnetWorld.configDb.hash "VNET|Vnet1" ≠ ∅ ∧
      (set countingBackend passwordServer anonymousContext deleteVnet
        (fun _ => Pathz.Iteration.stored) {} vnetWorld).world.configDb.hash "VNET|Vnet1" = ∅ ∧
      ¬ AuthenticatedWrites (set countingBackend passwordServer anonymousContext deleteVnet
        (fun _ => Pathz.Iteration.stored) {} vnetWorld).events := by
  have hevents : (set countingBackend passwordServer anonymousContext deleteVnet
      (fun _ => Pathz.Iteration.stored) {} vnetWorld).events.map Event.isWrite = [true] := by
    decide +kernel
  refine ⟨by decide, by decide +kernel, by decide +kernel, by decide +kernel, ?_⟩
  intro h
  obtain ⟨e, rest, hsplit, hwrite, -⟩ := List.map_eq_cons_iff.1 hevents
  obtain ⟨target, hmem⟩ := h [] e rest hsplit hwrite
  contradiction

end SonicGnmi.GnmiServer
