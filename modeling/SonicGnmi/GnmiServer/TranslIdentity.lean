import SonicGnmi.GnmiServer.Get
import SonicGnmi.GnmiServer.Subscribe
import SonicGnmi.Sdc.TranslRequests

/-!
# The identity that reaches translib

Get, Set and Subscribe create the translib client with the context of the RPC
before they call `authenticate`, which stores the identity in a request context
of the context it returns.  The client never sees that one: its own context has
no request context, so it creates a new one without an identity.

* `Rpc`, `Rpc.serve` — the three RPCs on a device that keeps its translib
  requests;
* `IdentityReaches` — every request made for an RPC carries what `authenticate`
  established;
* `identityReaches_iff` — that holds only for RPCs that ask translib for
  nothing.
-/

namespace SonicGnmi.GnmiServer

open Gnmi Grpc Sdc GnmiServer

variable {Device : Type}

/-! ## The three RPCs -/

/-- The services of the device around translib. -/
structure TranslServices (Device : Type) where
  lib : Translib Device
  order : PathOrder
  saveStartupConfig : World Device → World Device
  /-- The services that are not translib's. -/
  other : GetBackend (Logged Device)
  subscribe : SubscribeBackend

/-- A change of the device that makes no translib request. -/
def onDevice (f : World Device → World Device) (world : World (Logged Device)) :
    World (Logged Device) :=
  let after := f { configDb := world.configDb, device := world.device.device }
  { configDb := after.configDb, device := { world.device with device := after.device } }

/-- The services of Get and Set with the translib client. -/
def TranslServices.backend (services : TranslServices Device) : GetBackend (Logged Device) :=
  { services.other with
    newTranslClient := fun pathPrefix getpaths ctx extensions =>
      (newTranslClient services.lib pathPrefix getpaths ctx extensions false).map
        (·.dataClient services.lib services.order)
    saveStartupConfig := onDevice services.saveStartupConfig }

/-- A request to one of the three RPCs, with what the run leaves open. -/
inductive Rpc where
  | get (req : GetRequest)
  | set (req : SetRequest) (iteration : Nat → Pathz.Iteration)
  | subscribe (query : SubscribeRequest) (schedule : Schedule)

section Serve

variable (services : TranslServices Device) (s : Server) (incoming : Incoming)
variable (store : ContextStore) (world : World (Logged Device))

/-- The device after an RPC. -/
def Rpc.serve : Rpc → World (Logged Device)
  | .get req => (GnmiServer.get services.backend s incoming.context req store world).world
  | .set req iteration =>
    (GnmiServer.set services.backend.toBackend s incoming.context req iteration store world).world
  | .subscribe query schedule =>
    (GnmiServer.subscribe services.subscribe services.lib s.config incoming.context query
      schedule store world).state.world

/-- The call of `authenticate` that an RPC makes for the translib client. -/
def Rpc.authentication : Rpc → Except Status Unit × Context × ContextStore
  | .get _ => authenticate services.backend.auth s.config incoming.context "gnmi" false store
  | .set _ _ => authenticate services.backend.auth s.config incoming.context "gnmi" true store
  | .subscribe _ _ =>
    authenticate services.subscribe.auth s.config incoming.context "gnmi" false store

/-- The identity in the request context that `authenticate` returns. -/
def establishedIdentity (outcome : Except Status Unit × Context × ContextStore) : AuthInfo :=
  match outcome.2.1.request with
  | none => {}
  | some cell => (outcome.2.2.cell cell).auth

/-- The RPC gets to the translib client. -/
def Rpc.SelectsTransl : Rpc → Prop
  | .get req =>
    req.type = .all ∧ (s.config.pathzPolicy = true → req.path = []) ∧
      checkEncodingAndModel req.encoding = .ok () ∧
      (req.pathPrefix.getD {}).target ≠ "OPERATIONAL" ∧
      targetClient services.backend req (req.pathPrefix.getD {}).target = none ∧
      (∃ origin, getOrigin req = .ok origin ∧ isNativeOrigin origin = false) ∧
      ∃ client, newTranslClient services.lib req.pathPrefix (some req.path) incoming.context
        req.extension false = .ok client
  | .set req _ =>
    (∃ masterEID, s.reqFromMaster req = .ok masterEID) ∧
      s.config.enableTranslibWrite = true ∧
      (s.config.pathzPolicy = true → ∃ user, getUsername incoming.context = .ok user) ∧
      ∃ origin, requestOrigin req = .ok origin ∧ isNativeOrigin origin = false
  | .subscribe query _ =>
    ∃ list client, openSession services.subscribe services.lib incoming.context query =
        .ok (list, .transl client, "gnmi") ∧ ∀ number, list.mode ≠ .other number

/-- The RPC is served by the translib client after `authenticate` returned no
error. -/
def Rpc.ServedByTransl (rpc : Rpc) : Prop :=
  rpc.SelectsTransl services s incoming ∧
    (rpc.authentication services s incoming store).1 = .ok ()

/-- The RPC asks translib for nothing: it names no paths, or it is refused
before the first request. -/
def Rpc.AsksNothing (lib : Translib Device) : Rpc → Prop
  | .get req => req.path = [] ∨ VersionRefused lib (getBundleVersion req.extension)
  | .set req _ =>
    SetRefused lib req.pathPrefix req.delete req.replace req.update
      (getBundleVersion req.extension)
  | .subscribe query schedule =>
    -- `parseVersion` refuses the versions that parse.
    (∃ text, getBundleVersion query.extension = some text ∧ (lib.newVersion text).2 = none) ∨
      ∃ list, query.subscribe = some list ∧ list.mode = .poll ∧
        ((list.getPrefix.target = "APPL_DB" ∨
            Foundation.GoText.hasPrefix list.getPrefix.target "APPL_DB/" = true) ∨
          schedule.polls = 0 ∨ schedule.polls = 1 ∧ list.updatesOnly = true)

end Serve

/-- The requests made between two worlds. -/
def issuedSince (before after : World (Logged Device)) : List TranslibRequest :=
  after.device.issued.drop before.device.issued.length

/-- The request says that authentication is enabled, and for whom. -/
def Carries (auth : AuthInfo) (req : TranslibRequest) : Prop :=
  req.authEnabled = true ∧ req.user = { name := auth.user, roles := auth.roles }

/-- Every request made between two worlds carries an identity. -/
def IdentityReaches (auth : AuthInfo) (before after : World (Logged Device)) : Prop :=
  ∀ req ∈ issuedSince before after, Carries auth req

/-- Requests that say nothing of authentication carry no identity. -/
theorem identityReaches_iff_of_sends {auth : AuthInfo} {nothing : Prop}
    {before after : World (Logged Device)} (h : Sends AuthDisabled nothing before after) :
    IdentityReaches auth before after ↔ nothing := by
  obtain ⟨requests, happend, hdisabled, hnone⟩ := h
  have hsince : issuedSince before after = requests := by
    simp [issuedSince, happend]
  rw [IdentityReaches, hsince, ← hnone]
  constructor
  · intro hcarries
    cases requests with
    | nil => rfl
    | cons req rest =>
      have henabled := (hcarries req (by simp)).1
      have hoff : req.authEnabled = false := hdisabled req (by simp)
      rw [henabled] at hoff
      contradiction
  · rintro rfl req hreq
    contradiction

/-! ## Each RPC -/

variable (lib : Translib Device)

theorem populateClientPaths_eq_nil {addWildcardKeys : Bool}
    {pathPrefix : Option Path} {paths : List Path} {path2URI : List (Path × String)}
    (h : populateClientPaths lib addWildcardKeys pathPrefix paths = .ok path2URI) :
    path2URI = [] ↔ paths = [] := by
  cases paths with
  | nil =>
    cases h
    simp
  | cons path rest =>
    rw [populateClientPaths] at h
    split at h
    · cases h
    · split at h <;> cases h
      simp

variable {client : TranslClient}

theorem newTranslClient_ok {pathPrefix : Option Path} {getpaths : Option (List Path)}
    {ctx : Context} {extensions : List Extension} {addWildcardKeys : Bool}
    (h : newTranslClient lib pathPrefix getpaths ctx extensions addWildcardKeys = .ok client) :
    client.ctx = ctx ∧ client.pathPrefix = pathPrefix ∧ client.extensions = extensions ∧
      (client.path2URI = [] ↔ getpaths.getD [] = []) := by
  unfold newTranslClient at h
  split at h <;> cases h
  rename_i path2URI hpaths
  exact ⟨rfl, rfl, rfl, populateClientPaths_eq_nil lib hpaths⟩

section Serve

variable (services : TranslServices Device) (s : Server) (incoming : Incoming)
variable (store : ContextStore) (world : World (Logged Device))

theorem serve_get_sends {req : GetRequest}
    (h : (Rpc.get req).ServedByTransl services s incoming store) :
    Sends AuthDisabled ((Rpc.get req).AsksNothing services.lib) world
      ((Rpc.get req).serve services s incoming store world) := by
  obtain ⟨⟨htype, hpolicy, hencoding, htarget, hnone, ⟨origin, horigin, hforeign⟩, client,
    hclient⟩, hauth⟩ := h
  obtain ⟨hctx, -, hextensions, hpaths⟩ := newTranslClient_ok services.lib hclient
  have hpolicy' : (s.config.pathzPolicy && decide (req.path ≠ [])) = false := by
    cases hon : s.config.pathzPolicy with
    | false => rfl
    | true => simp [hpolicy hon]
  have hdc : originClient services.backend incoming.context req origin =
      .ok (client.dataClient services.lib services.order, "gnmi") := by
    simp [originClient, hforeign, TranslServices.backend, hclient, Except.map]
  rcases houtcome : authenticate services.backend.auth s.config incoming.context "gnmi" false
    store with ⟨result, ctx', store'⟩
  simp only [Rpc.authentication, houtcome] at hauth
  have hsends := (client.get_sends services.lib hctx services.order store' world).imp
    fun _ h => h.1.1
  rw [hpaths, hextensions] at hsends
  have hserve : (Rpc.get req).serve services s incoming store world =
      (client.get services.lib services.order store' world).2.2 := by
    simp only [Rpc.serve, get, htype, ne_eq, not_true_eq_false, if_false, hpolicy',
      Bool.false_eq_true, getByTarget, hencoding, htarget, hnone, horigin, hdc, getWithClient,
      houtcome, hauth, TranslClient.dataClient]
    split <;> rename_i hget <;> rw [hget]
  rw [hserve]
  exact hsends

/-- Saving the configuration makes no request. -/
theorem setWithClient_issued (ctx : Context) (req : SetRequest) (dc : DataClient (Logged Device))
    (st : SetState (Logged Device)) {ctx' : Context} {store' : ContextStore}
    (hauth : authenticate services.backend.auth s.config ctx "gnmi" true st.store =
      (.ok (), ctx', store')) :
    (setWithClient services.backend.toBackend s ctx req "gnmi" dc st).world.device.issued =
      (dc.set req.delete req.replace req.update store' st.world).2.2.device.issued := by
  rcases hset : dc.set req.delete req.replace req.update store' st.world with
    ⟨e | ⟨⟩, store'', world'⟩
  · simp [setWithClient, hauth, hset]
  · simp only [setWithClient, hauth, hset, SetState.respond]
    rfl

theorem serve_set_sends {req : SetRequest} {iteration : Nat → Pathz.Iteration}
    (h : (Rpc.set req iteration).ServedByTransl services s incoming store) :
    Sends AuthDisabled ((Rpc.set req iteration).AsksNothing services.lib) world
      ((Rpc.set req iteration).serve services s incoming store world) := by
  obtain ⟨⟨⟨masterEID, hmaster⟩, hwrite, huser, origin, horigin, hforeign⟩, hauth⟩ := h
  rcases houtcome : authenticate services.backend.auth s.config incoming.context "gnmi" true
    store with ⟨result, ctx', store'⟩
  simp only [Rpc.authentication, houtcome] at hauth
  subst hauth
  let client : TranslClient :=
    { ctx := incoming.context, pathPrefix := req.pathPrefix, extensions := req.extension }
  -- After the path policy block the client is called, whatever was looked up.
  have hclient : ∀ st : SetState (Logged Device), st.store = store → st.world = world →
      (setByOrigin services.backend.toBackend s incoming.context req st).world.device.issued =
        (client.set services.lib req.delete req.replace req.update store'
          world).2.2.device.issued := by
    rintro st rfl rfl
    have hrun : setByOrigin services.backend.toBackend s incoming.context req st =
        setWithClient services.backend.toBackend s incoming.context req "gnmi"
          (client.dataClient services.lib services.order) st := by
      simp only [setByOrigin, horigin, hforeign, Bool.false_eq_true, if_false, setTransl, hwrite,
        Bool.not_true]
      rfl
    rw [hrun]
    exact setWithClient_issued services s incoming.context req _ st houtcome
  have hissued : ((Rpc.set req iteration).serve services s incoming store world).device.issued =
      (client.set services.lib req.delete req.replace req.update store'
        world).2.2.device.issued := by
    simp only [Rpc.serve, set, hmaster, hwrite, Bool.not_true, Bool.false_and,
      Bool.false_eq_true, if_false, setWithPolicy]
    cases hpolicy : s.config.pathzPolicy with
    | false => exact hclient _ rfl rfl
    | true =>
      obtain ⟨user, hname⟩ := huser hpolicy
      simp only [hname, if_true]
      exact hclient _ rfl rfl
  obtain ⟨requests, happend, hall, hnone⟩ := client.set_sends services.lib rfl req.delete
    req.replace req.update store' world
  exact ⟨requests, hissued.trans happend, fun r hr => (hall r hr).1.1, hnone⟩

/-- A session with the translib client created it with the context of the
stream. -/
theorem subscribeClient_transl {list : SubscriptionList} {extensions : List Extension}
    {origin authTarget : String} {ctx : Context}
    (h : subscribeClient services.subscribe services.lib ctx list extensions origin =
      .ok (.transl client, authTarget)) :
    newTranslClient services.lib list.pathPrefix
      (some (list.subscription.map fun sub => sub.path.getD {})) ctx extensions true =
        .ok client := by
  have htransl : subscribeTransl services.lib ctx list extensions =
      .ok (.transl client, authTarget) →
      newTranslClient services.lib list.pathPrefix
        (some (list.subscription.map fun sub => sub.path.getD {})) ctx extensions true =
          .ok client := by
    unfold subscribeTransl
    intro h
    split at h <;> cases h
    assumption
  have hother : ∀ other created, subscribeOther other created = .ok (.transl client, authTarget) →
      other = .transl client := by
    intro other created h
    unfold subscribeOther at h
    split at h <;> cases h
    rfl
  unfold subscribeClient at h
  simp only at h
  repeat' split at h
  all_goals first
    | exact htransl h
    | cases hother _ _ h
    | cases h

theorem openSession_transl {query : SubscribeRequest} {list : SubscriptionList}
    {authTarget : String} {ctx : Context}
    (h : openSession services.subscribe services.lib ctx query =
      .ok (list, .transl client, authTarget)) :
    query.subscribe = some list ∧ client.ctx = ctx ∧ client.extensions = query.extension ∧
      client.path2URI ≠ [] := by
  unfold openSession at h
  split at h
  · cases h
  rename_i list' hlist
  split at h
  · cases h
  rename_i hpaths
  split at h
  · cases h
  split at h
  · cases h
  split at h <;> cases h
  rename_i hcreated
  obtain ⟨hctx, -, hextensions, hnone⟩ := newTranslClient_ok services.lib
    (subscribeClient_transl services hcreated)
  refine ⟨hlist, hctx, hextensions, fun hempty => hpaths ?_⟩
  simpa using hnone.1 hempty

/-- `parseVersion` refuses exactly the versions that parse. -/
theorem parseVersion_error_iff (client : TranslClient) :
    (∃ message, client.parseVersion lib = .error message) ↔
      ∃ text, getBundleVersion client.extensions = some text ∧ (lib.newVersion text).2 = none := by
  unfold TranslClient.parseVersion
  cases getBundleVersion client.extensions with
  | none => simp
  | some text =>
    rcases hversion : lib.newVersion text with ⟨version, _ | e⟩
    all_goals simp [hversion]

theorem serve_subscribe_sends {query : SubscribeRequest} {schedule : Schedule}
    (h : (Rpc.subscribe query schedule).ServedByTransl services s incoming store) :
    Sends AuthDisabled ((Rpc.subscribe query schedule).AsksNothing services.lib) world
      ((Rpc.subscribe query schedule).serve services s incoming store world) := by
  obtain ⟨⟨list, client, hopen, hmode⟩, hauth⟩ := h
  obtain ⟨hlist, -, hextensions, hpaths⟩ := openSession_transl services hopen
  have hrefused := parseVersion_error_iff services.lib client
  rw [hextensions] at hrefused
  rcases houtcome : authenticate services.subscribe.auth s.config incoming.context "gnmi" false
    store with ⟨result, ctx', store'⟩
  simp only [Rpc.authentication, houtcome] at hauth
  subst hauth
  refine Sends.imp (P := client.Subscribed services.lib) ?_ fun _ ⟨_, _, h⟩ => h.1
  cases hlistMode : list.mode with
  | other number => exact absurd hlistMode (hmode number)
  | stream =>
    have hserve : (Rpc.subscribe query schedule).serve services s incoming store world =
        (client.streamRun services.lib list schedule store' world).2.world := by
      simp [Rpc.serve, subscribe, hopen, houtcome, hlistMode, runTransl]
    rw [hserve]
    refine (client.streamRun_sends services.lib list schedule store' world).congr ?_
    simp [Rpc.AsksNothing, hlist, hlistMode, hrefused]
  | once =>
    have hserve : (Rpc.subscribe query schedule).serve services s incoming store world =
        (client.onceRun services.lib schedule world).world := by
      simp [Rpc.serve, subscribe, hopen, houtcome, hlistMode, runTransl]
    rw [hserve]
    refine (client.onceRun_sends services.lib schedule world).congr ?_
    simp [Rpc.AsksNothing, hlist, hlistMode, hrefused, hpaths]
  | poll =>
    by_cases htarget : list.getPrefix.target = "APPL_DB" ∨
        Foundation.GoText.hasPrefix list.getPrefix.target "APPL_DB/" = true
    · have hserve : (Rpc.subscribe query schedule).serve services s incoming store world =
          world := by
        simp [Rpc.serve, subscribe, hopen, houtcome, hlistMode, runTransl, if_pos htarget]
      rw [hserve]
      exact Sends.none (Or.inr ⟨list, hlist, hlistMode, Or.inl htarget⟩)
    · have hserve : (Rpc.subscribe query schedule).serve services s incoming store world =
          (client.pollRun services.lib list schedule world).world := by
        simp [Rpc.serve, subscribe, hopen, houtcome, hlistMode, runTransl, if_neg htarget]
      rw [hserve]
      refine (client.pollRun_sends services.lib list schedule world).congr ?_
      simp [Rpc.AsksNothing, hlist, hlistMode, hrefused, hpaths, htarget]

/-- The identity that `authenticate` establishes reaches translib only for
RPCs that ask translib for nothing. -/
theorem identityReaches_iff (rpc : Rpc) (h : rpc.ServedByTransl services s incoming store) :
    IdentityReaches
        (establishedIdentity (rpc.authentication services s incoming store))
        world (rpc.serve services s incoming store world) ↔
      rpc.AsksNothing services.lib := by
  apply identityReaches_iff_of_sends
  cases rpc with
  | get req => exact serve_get_sends services s incoming store world h
  | set req iteration => exact serve_set_sends services s incoming store world h
  | subscribe query schedule => exact serve_subscribe_sends services s incoming store world h

end Serve

/-! ## A login that translib does not see -/

def acceptingTranslib : Translib Unit where
  newVersion := fun _ => ({}, none)
  pathToURI := fun _ path => .ok (printPath (path.getD {}).elem)
  get := fun _ world => ((.empty, none), world)
  write := fun _ world => (none, world)
  bulk := fun _ world => ({}, world)
  isSubscribeSupported := fun _ world => (.ok [], world)
  stream := fun _ world => (none, world)

def operatorLogin : AuthBackend where
  userRoles := fun user => if user = "operator" then some ["admin"] else none
  userPwAuth := fun user password => user = "operator" && password = "secret"
  parseWithClaims := fun _ => .error "token is malformed"
  getEntry := fun _ _ => ∅
  verifyCertCrl := fun _ => .ok ()

def translOnly : TranslServices Unit where
  lib := acceptingTranslib
  order := .requested
  saveStartupConfig := id
  other :=
    { auth := operatorLogin
      redis := {}
      bypassIteration := { bulk := Foundation.RangeOrder.stored, entry := Foundation.RangeOrder.stored }
      newMixedDbClient := fun _ _ _ => .error "no database"
      newTranslClient := fun _ _ _ _ => .error (.plain "no client")
      saveStartupConfig := id
      newNonDbClient := fun _ _ => .error "no client"
      newShowClient := fun _ _ => .error "no client"
      newDbClient := fun _ _ => .error "no client"
      isTargetDb := fun _ => none
      newOperationalHandler := fun _ _ => .error "no handler" }
  subscribe :=
    { auth := operatorLogin
      newMixedDbClient := fun _ _ _ => .error "no database"
      newNonDbClient := fun _ _ => .error "no client"
      newEventClient := fun _ _ => .error "no client"
      newDbClient := fun _ _ => .error "no client"
      isTargetDb := fun _ => none
      addConnection := fun _ => true }

def translServer : Server where
  config := { userAuth := AList.singleton "password" true, enableTranslibWrite := true }

def operatorCall : Incoming where
  peer := some { addr := some (.tcp "10.0.0.3:4000") }
  metadata := some fun key =>
    if key = "username" then some "operator"
    else if key = "password" then some "secret"
    else none

def untouched : World (Logged Unit) where
  configDb := Foundation.Redis.Db.empty
  device := { device := () }

def deleteInterfaces : Rpc :=
  .set { delete := [{ elem := [{ name := "interfaces" }] }] } fun _ => Pathz.Iteration.stored

/-- The operator is authenticated and may write, but the delete reaches translib
in nobody's name and as if authentication were disabled. -/
theorem delete_reaches_translib_anonymously :
    translServer.config.userAuth.any = true ∧
      deleteInterfaces.ServedByTransl translOnly translServer operatorCall {} ∧
      establishedIdentity (deleteInterfaces.authentication translOnly translServer operatorCall {}) =
        { user := "operator", authEnabled := true, roles := ["admin"] } ∧
      (issuedSince untouched (deleteInterfaces.serve translOnly translServer operatorCall {}
        untouched)).map (fun req => (req.user, req.authEnabled)) = [({}, false)] ∧
      ¬ IdentityReaches
        (establishedIdentity
          (deleteInterfaces.authentication translOnly translServer operatorCall {}))
        untouched (deleteInterfaces.serve translOnly translServer operatorCall {} untouched) := by
  have hissued : (issuedSince untouched (deleteInterfaces.serve translOnly translServer operatorCall
      {} untouched)).map (fun req => (req.user, req.authEnabled)) = [({}, false)] := by
    decide +kernel
  refine ⟨by decide, ⟨⟨⟨_, rfl⟩, rfl, by simp [translServer], "", by decide, by decide⟩,
    by decide +kernel⟩, by decide +kernel, hissued, ?_⟩
  intro hreaches
  obtain ⟨req, rest, hsplit, hreq, -⟩ := List.map_eq_cons_iff.1 hissued
  have henabled := (hreaches req (by rw [hsplit]; simp)).1
  rw [Prod.mk.injEq, henabled] at hreq
  exact absurd hreq.2 (by decide)

/-- A Get without paths makes no request. -/
theorem identityReaches_get_without_paths :
    (Rpc.get {}).ServedByTransl translOnly translServer operatorCall {} ∧
      IdentityReaches
        (establishedIdentity ((Rpc.get {}).authentication translOnly translServer operatorCall {}))
        untouched ((Rpc.get {}).serve translOnly translServer operatorCall {} untouched) := by
  have hserved : (Rpc.get {}).ServedByTransl translOnly translServer operatorCall {} :=
    ⟨⟨rfl, fun _ => rfl, by decide, by decide, rfl, ⟨"", by decide, by decide⟩, _, rfl⟩,
      by decide +kernel⟩
  exact ⟨hserved, (identityReaches_iff translOnly translServer operatorCall {} untouched
    (Rpc.get {}) hserved).2 (Or.inl rfl)⟩

end SonicGnmi.GnmiServer
