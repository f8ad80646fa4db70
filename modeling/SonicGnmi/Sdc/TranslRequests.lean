import SonicGnmi.Sdc.TranslSubscribe

/-!
# The requests of the translib client

What each method of the client asks of translib, in whose name, and when it
asks for nothing.

* `Sends` — a run appends requests of one kind to those made before, and the
  condition under which it appends none;
* `TranslClient.get_sends`, `TranslClient.set_sends` — Get and Set sign every
  request with the request context of the client's own context;
* `TranslClient.streamRun_sends`, `pollRun_sends`, `onceRun_sends` — no request
  of a subscription says that authentication is enabled.
-/

namespace SonicGnmi.Sdc

open Gnmi Grpc List TranslClient

variable {Device : Type}

/-! ## Appended requests -/

/-- Between two worlds only requests with a property were made, and none
exactly under a condition. -/
def Sends (P : TranslibRequest → Prop) (nothing : Prop)
    (before after : World (Logged Device)) : Prop :=
  ∃ requests, after.device.issued = before.device.issued ++ requests ∧
    (∀ req ∈ requests, P req) ∧ (requests = [] ↔ nothing)

section Sends

variable {P : TranslibRequest → Prop} {nothing nothing' : Prop}
variable {w₁ w₂ w₃ : World (Logged Device)}

theorem Sends.none (h : nothing) : Sends P nothing w₁ w₁ :=
  ⟨[], (append_nil _).symm, by simp, by simpa using h⟩

theorem Sends.congr (h : Sends P nothing w₁ w₂) (hiff : nothing ↔ nothing') :
    Sends P nothing' w₁ w₂ := by
  obtain ⟨requests, happend, hall, hnone⟩ := h
  exact ⟨requests, happend, hall, hnone.trans hiff⟩

theorem Sends.imp {Q : TranslibRequest → Prop} (h : Sends P nothing w₁ w₂)
    (himp : ∀ req, P req → Q req) : Sends Q nothing w₁ w₂ := by
  obtain ⟨requests, happend, hall, hnone⟩ := h
  exact ⟨requests, happend, fun req hreq => himp req (hall req hreq), hnone⟩

theorem Sends.trans (h₁ : Sends P nothing w₁ w₂) (h₂ : Sends P nothing' w₂ w₃) :
    Sends P (nothing ∧ nothing') w₁ w₃ := by
  obtain ⟨first, hfirst, hP, hnone⟩ := h₁
  obtain ⟨second, hsecond, hP', hnone'⟩ := h₂
  refine ⟨first ++ second, ?_, ?_, ?_⟩
  · rw [hsecond, hfirst, append_assoc]
  · intro req hreq
    rcases mem_append.1 hreq with hreq | hreq
    · exact hP req hreq
    · exact hP' req hreq
  · rw [append_eq_nil_iff, hnone, hnone']

theorem Sends.after (h₁ : Sends P False w₁ w₂) (h₂ : Sends P nothing w₂ w₃) : Sends P False w₁ w₃ :=
  (h₁.trans h₂).congr (by simp)

theorem issue_sends {Answer : Type}
    (function : TranslibRequest → World Device → Answer × World Device)
    {req : TranslibRequest} (hreq : P req) (world : World (Logged Device)) :
    Sends P False world (issue function req world).2 :=
  ⟨[req], rfl, by simpa using hreq, by simp⟩

end Sends

/-! ## Get and Set -/

/-- The request carries the identity of a request context. -/
def SignedBy (rc : RequestContext) (req : TranslibRequest) : Prop :=
  req.authEnabled = rc.auth.authEnabled ∧
    req.user = { name := rc.auth.user, roles := rc.auth.roles }

variable (lib : Translib Device)

/-- The bundle version of a request does not parse. -/
def VersionRefused (bundleVersion : Option String) : Prop :=
  ∃ e, clientVersion lib bundleVersion = .error e

/-- The request is made in the name of a request context, with its version. -/
def IssuedFor (rc : RequestContext) (req : TranslibRequest) : Prop :=
  SignedBy rc req ∧ clientVersion lib rc.bundleVersion = .ok req.clientVersion

theorem IssuedFor.asReplace {rc : RequestContext} {req : TranslibRequest}
    (h : IssuedFor lib rc req) : IssuedFor lib rc (asReplace req) := by
  unfold Sdc.asReplace
  split <;> exact h

section Builders

variable {ctx : Context} {cell : Nat} (hctx : ctx.request = some cell)
include hctx

theorem translProcessGet_sends (uri : String) (store : ContextStore)
    (world : World (Logged Device)) :
    (translProcessGet lib uri ctx store world).2.1 = store ∧
      Sends (IssuedFor lib (store.cell cell)) (VersionRefused lib (store.cell cell).bundleVersion)
        world (translProcessGet lib uri ctx store world).2.2 := by
  simp only [translProcessGet, getContext_of_request hctx, VersionRefused]
  cases hversion : clientVersion lib (store.cell cell).bundleVersion with
  | error e => exact ⟨rfl, Sends.none ⟨e, rfl⟩⟩
  | ok version =>
    have hsigned : IssuedFor lib (store.cell cell) (signed (store.cell cell) version (.get uri)) :=
      ⟨⟨rfl, rfl⟩, hversion⟩
    have hrefused : False ↔ ∃ e, (.ok version : Except Fault Version) = .error e := by simp
    have hsends := (issue_sends lib.get hsigned world).congr hrefused
    simp only
    split
    · exact ⟨rfl, hsends⟩
    · split <;> exact ⟨rfl, hsends⟩

/-- The loop of Get asks for nothing only without paths or with a version that
does not parse. -/
theorem getLoop_sends (pathPrefix : Option Path) (paths : List (Path × String))
    (store : ContextStore) (world : World (Logged Device)) :
    Sends (IssuedFor lib (store.cell cell))
      (paths = [] ∨ VersionRefused lib (store.cell cell).bundleVersion)
      world (getLoop lib pathPrefix ctx paths store world).2.2 := by
  induction paths generalizing world with
  | nil => exact Sends.none (.inl rfl)
  | cons entry rest ih =>
    obtain ⟨path, uri⟩ := entry
    obtain ⟨hstore, hsends⟩ := translProcessGet_sends lib hctx uri store world
    rcases hget : translProcessGet lib uri ctx store world with ⟨e | val, store', world'⟩ <;>
      rw [hget] at hstore hsends <;> subst hstore <;> simp only [getLoop, hget]
    · exact hsends.congr (by simp)
    have hboth := (hsends.trans (ih world')).congr (and_iff_left_of_imp .inr)
    generalize getLoop lib pathPrefix ctx rest store' world' = result at hboth ⊢
    rcases result with ⟨e | values, _, _⟩ <;> exact hboth.congr (by simp)

variable (pathPrefix path : Option Path)

/-- A single write is refused when its path has no URI or the version does not
parse. -/
def WriteRefused (bundleVersion : Option String) : Prop :=
  (∃ e, convertToURI lib false pathPrefix path = .error e) ∨ VersionRefused lib bundleVersion

theorem writeRequest_spec (call : String → Call) (store : ContextStore) :
    (∃ req, writeRequest lib pathPrefix path call ctx store = (.ok req, store) ∧
        IssuedFor lib (store.cell cell) req ∧
        ¬ WriteRefused lib pathPrefix path (store.cell cell).bundleVersion) ∨
      ∃ e, writeRequest lib pathPrefix path call ctx store = (.error e, store) ∧
        WriteRefused lib pathPrefix path (store.cell cell).bundleVersion := by
  simp only [writeRequest, getContext_of_request hctx, WriteRefused, VersionRefused]
  cases huri : convertToURI lib false pathPrefix path with
  | error e => exact .inr ⟨e, rfl, .inl ⟨e, rfl⟩⟩
  | ok uri =>
    cases hversion : clientVersion lib (store.cell cell).bundleVersion with
    | error e => exact .inr ⟨e, rfl, .inr ⟨e, rfl⟩⟩
    | ok version => exact .inl ⟨_, rfl, ⟨⟨rfl, rfl⟩, hversion⟩, by simp⟩

theorem translProcessWrite_sends (call : String → Call)
    (store : ContextStore) (world : World (Logged Device)) :
    Sends (IssuedFor lib (store.cell cell))
      (WriteRefused lib pathPrefix path (store.cell cell).bundleVersion)
      world (translProcessWrite lib pathPrefix path call ctx store world).2.2 := by
  rcases writeRequest_spec lib hctx pathPrefix path call store with
    ⟨req, hwrite, hsigned, hnot⟩ | ⟨e, hwrite, hrefused⟩
  · have hsends := (issue_sends lib.write hsigned world).congr (iff_of_false id hnot)
    simp only [translProcessWrite, hwrite]
    generalize issue lib.write req world = answer at hsends ⊢
    rcases answer with ⟨_ | e, after⟩ <;> exact hsends
  · simp only [translProcessWrite, hwrite]
    exact Sends.none hrefused

theorem translProcessUpdate_sends (pathPrefix : Option Path) (entry : Update)
    (store : ContextStore) (world : World (Logged Device)) :
    Sends (IssuedFor lib (store.cell cell))
      (WriteRefused lib pathPrefix entry.path (store.cell cell).bundleVersion)
      world (translProcessUpdate lib pathPrefix entry ctx store world).2.2 := by
  rcases writeRequest_spec lib hctx pathPrefix entry.path
      (fun uri => .update uri (TypedValue.getJsonIetfVal entry.val)) store with
    ⟨req, hwrite, hsigned, hnot⟩ | ⟨e, hwrite, hrefused⟩
  · have hsends := issue_sends lib.write hsigned world
    have hnot' := iff_of_false id hnot
    simp only [translProcessUpdate, hwrite]
    generalize issue lib.write req world = answer at hsends ⊢
    rcases answer with ⟨_ | e, after⟩
    · exact hsends.congr hnot'
    simp only
    split
    · -- The second attempt is made in the same name.
      have hagain := hsends.after (issue_sends lib.write (hsigned.asReplace lib) after)
      generalize issue lib.write (asReplace req) after = answer at hagain ⊢
      rcases answer with ⟨_ | e', after'⟩ <;> exact hagain.congr hnot'
    · exact hsends.congr hnot'
  · simp only [translProcessUpdate, hwrite]
    exact Sends.none hrefused

theorem translProcessBulk_sends (delete : List Path) (replace update : List Update)
    (pathPrefix : Option Path) (store : ContextStore) (world : World (Logged Device)) :
    Sends (IssuedFor lib (store.cell cell))
      ((∃ e, bulkEntries lib pathPrefix delete replace update = .error e) ∨
        VersionRefused lib (store.cell cell).bundleVersion)
      world (translProcessBulk lib delete replace update pathPrefix ctx store world).2.2 := by
  simp only [translProcessBulk, getContext_of_request hctx, VersionRefused]
  cases hversion : clientVersion lib (store.cell cell).bundleVersion with
  | error e => exact Sends.none (.inr ⟨e, rfl⟩)
  | ok version =>
    cases hentries : bulkEntries lib pathPrefix delete replace update with
    | error e => exact Sends.none (.inl ⟨e, rfl⟩)
    | ok entries =>
      have hsigned : IssuedFor lib (store.cell cell)
          (signed (store.cell cell) version (.bulk entries)) := ⟨⟨rfl, rfl⟩, hversion⟩
      have hsends := issue_sends lib.bulk hsigned world
      simp only
      split <;> exact hsends.congr (by simp)

end Builders

/-- The visited paths are those of the client. -/
theorem PathOrder.visit_eq_nil (order : PathOrder) (paths : List (Path × String)) :
    order.visit paths = [] ↔ paths = [] := by
  rw [← length_eq_zero_iff, (order.perm paths).length_eq, length_eq_zero_iff]

/-- A client that was created with the context of the RPC gets a request
context of its own, without an identity. -/
theorem TranslClient.requestContext_incoming {c : TranslClient} {incoming : Incoming}
    (hc : c.ctx = incoming.context) (store : ContextStore) :
    ∃ ctx store', c.requestContext store = (ctx, store') ∧ ctx.request = some store.requestCounter ∧
      (store'.cell store.requestCounter).auth = {} ∧
      (store'.cell store.requestCounter).bundleVersion = getBundleVersion c.extensions := by
  simp only [requestContext, hc, getContext_incoming]
  cases getBundleVersion c.extensions with
  | none => exact ⟨_, _, rfl, rfl, by simp, by simp⟩
  | some version =>
    exact ⟨_, _, rfl, rfl, by simp [ContextStore.setBundleVersion],
      by simp [ContextStore.setBundleVersion]⟩

/-- The request names nobody and says that authentication is disabled. -/
def Anonymous (req : TranslibRequest) : Prop := SignedBy {} req

/-- The request names nobody and carries a version. -/
def AnonymousFor (bundleVersion : Option String) (req : TranslibRequest) : Prop :=
  Anonymous req ∧ clientVersion lib bundleVersion = .ok req.clientVersion

theorem issuedFor_eq {rc : RequestContext} (h : rc.auth = {}) :
    IssuedFor lib rc = AnonymousFor lib rc.bundleVersion := by
  funext req
  simp [IssuedFor, AnonymousFor, Anonymous, SignedBy, h]

section Incoming

variable {c : TranslClient} {incoming : Incoming} (hc : c.ctx = incoming.context)
include hc

theorem TranslClient.get_sends (order : PathOrder) (store : ContextStore)
    (world : World (Logged Device)) :
    Sends (AnonymousFor lib (getBundleVersion c.extensions))
      (c.path2URI = [] ∨ VersionRefused lib (getBundleVersion c.extensions))
      world (c.get lib order store world).2.2 := by
  obtain ⟨ctx, store', hcontext, hrequest, hauth, hversion⟩ := requestContext_incoming hc store
  have hloop := getLoop_sends lib hrequest c.pathPrefix (order.visit c.path2URI) store' world
  rw [issuedFor_eq lib hauth, hversion, order.visit_eq_nil] at hloop
  simpa only [get, hcontext] using hloop

/-- The conditions under which a Set asks translib for nothing. -/
def SetRefused (pathPrefix : Option Path) (delete : List Path) (replace update : List Update)
    (bundleVersion : Option String) : Prop :=
  if delete.length + replace.length + update.length > 1 then
    (∃ e, bulkEntries lib pathPrefix delete replace update = .error e) ∨
      VersionRefused lib bundleVersion
  else
    match delete, replace, update with
    | [d], _, _ => WriteRefused lib pathPrefix (some d) bundleVersion
    | _, [r], _ => WriteRefused lib pathPrefix r.path bundleVersion
    | _, _, [u] => WriteRefused lib pathPrefix u.path bundleVersion
    | _, _, _ => True

theorem TranslClient.set_sends (delete : List Path) (replace update : List Update)
    (store : ContextStore) (world : World (Logged Device)) :
    Sends (AnonymousFor lib (getBundleVersion c.extensions))
      (SetRefused lib c.pathPrefix delete replace update (getBundleVersion c.extensions))
      world (c.set lib delete replace update store world).2.2 := by
  obtain ⟨ctx, store', hcontext, hrequest, hauth, hversion⟩ := requestContext_incoming hc store
  have hbulk := translProcessBulk_sends lib hrequest delete replace update c.pathPrefix store' world
  have hwrite := fun path call =>
    translProcessWrite_sends lib hrequest c.pathPrefix path call store' world
  have hupdate := fun entry => translProcessUpdate_sends lib hrequest c.pathPrefix entry store' world
  rw [issuedFor_eq lib hauth, hversion] at hbulk hwrite hupdate
  simp only [set, hcontext, SetRefused]
  by_cases hmany : delete.length + replace.length + update.length > 1
  · simpa only [if_pos hmany] using hbulk
  simp only [if_neg hmany]
  rcases delete with _ | ⟨d, _ | ⟨_, ds⟩⟩
  · rcases replace with _ | ⟨r, _ | ⟨_, rs⟩⟩
    · rcases update with _ | ⟨u, _ | ⟨_, us⟩⟩
      · exact Sends.none trivial
      · exact hupdate u
      · simp only [length_cons] at hmany
        omega
    · exact hwrite _ _
    · simp only [length_cons] at hmany
      omega
  · exact hwrite _ _
  · simp only [length_cons] at hmany
    omega

end Incoming

/-! ## Subscribe -/

/-- The request says that authentication is disabled. -/
def AuthDisabled (req : TranslibRequest) : Prop := req.authEnabled = false

variable (version : Option Version)

/-- A request of a subscription: no authentication, and the version of the client. -/
def Subscribing (req : TranslibRequest) : Prop :=
  AuthDisabled req ∧ req.clientVersion = version.getD {}

theorem doSample_sends (path : String) (st : StreamState Device) :
    Sends (Subscribing version) False st.world (doSample lib version path st).world := by
  have hrequest : Subscribing version (subscribeRequest version (.stream [path])) := ⟨rfl, rfl⟩
  have hsends := issue_sends lib.stream hrequest st.world
  unfold doSample
  generalize issue lib.stream (subscribeRequest version (.stream [path])) st.world = answer
    at hsends ⊢
  rcases answer with ⟨_ | e, after⟩ <;> exact hsends

theorem doOnChange_sends (paths : List String) (st : StreamState Device) :
    Sends (Subscribing version) False st.world (doOnChange lib version paths st).world := by
  have hrequest : Subscribing version (subscribeRequest version (.subscribe paths)) := ⟨rfl, rfl⟩
  have hsends := issue_sends lib.stream hrequest st.world
  unfold doOnChange
  generalize issue lib.stream (subscribeRequest version (.subscribe paths)) st.world = answer
    at hsends ⊢
  rcases answer with ⟨_ | e, after⟩ <;> exact hsends

theorem doSamples_sends (paths : List String) (st : StreamState Device) :
    Sends (Subscribing version) (paths = []) st.world (doSamples lib version paths st).world := by
  induction paths generalizing st with
  | nil => exact Sends.none rfl
  | cons path rest ih =>
    have hboth := (doSample_sends lib version path st).after (ih (doSample lib version path st))
    exact hboth.congr (by simp)

/-- The state in which a step of the setup leaves the run, whether it goes on
or not. -/
def ended : Except (StreamState Device) (StreamState Device) → StreamState Device
  | .ok st => st
  | .error st => st

theorem addTimer_world (interval : Int) (path : String) (st : StreamState Device) :
    (ended (addTimer interval path st)).world = st.world := by
  unfold addTimer
  split <;> rfl

theorem addHeartbeat_world (wanted : Bool) (sub : Subscription) (path : String)
    (st : StreamState Device) : (ended (addHeartbeat wanted sub path st)).world = st.world := by
  unfold addHeartbeat
  split
  · exact addTimer_world _ _ _
  · rfl

variable (list : SubscriptionList)

theorem startSubscription_sends (version : Option Version)
    (pInfo : IsSubscribeResponse) (st : StreamState Device) :
    ∃ nothing, Sends (Subscribing version) nothing st.world
      (ended (startSubscription lib list version pInfo st)).world := by
  have hquiet : ∃ nothing, Sends (Subscribing version) nothing st.world st.world :=
    ⟨True, Sends.none trivial⟩
  unfold startSubscription
  split
  · exact hquiet
  rename_i sub _
  split
  · exact hquiet
  simp only
  generalize (if pInfo.minInterval ≤ 0 then lib.minSubscribeInterval else pInfo.minInterval) =
    minInterval
  split
  · exact hquiet
  split
  · rw [addHeartbeat_world]
    exact hquiet
  split
  · exact hquiet
  rename_i interval _
  have hsample := doSample_sends lib version pInfo.path st
  rw [← addTimer_world interval pInfo.path (doSample lib version pInfo.path st)]
    at hsample
  generalize addTimer interval pInfo.path (doSample lib version pInfo.path st) = added
    at hsample ⊢
  cases added with
  | error st' => exact ⟨False, hsample⟩
  | ok st' =>
    simp only
    rw [addHeartbeat_world]
    exact ⟨False, hsample⟩

theorem startSubscriptions_sends (version : Option Version)
    (support : List IsSubscribeResponse) (st : StreamState Device) :
    ∃ nothing, Sends (Subscribing version) nothing st.world
      (ended (startSubscriptions lib list version support st)).world := by
  induction support generalizing st with
  | nil => exact ⟨True, Sends.none trivial⟩
  | cons pInfo rest ih =>
    obtain ⟨nothing, hfirst⟩ := startSubscription_sends lib list version pInfo st
    rw [startSubscriptions]
    generalize startSubscription lib list version pInfo st = started at hfirst ⊢
    cases started with
    | error st' => exact ⟨nothing, hfirst⟩
    | ok st' =>
      obtain ⟨nothing', hrest⟩ := ih st'
      exact ⟨nothing ∧ nothing', hfirst.trans hrest⟩

theorem ticks_sends (version : Option Version) (ticks : List Int) (st : StreamState Device) :
    ∃ nothing, Sends (Subscribing version) nothing st.world (ticks.foldl (tick lib version) st).world := by
  induction ticks generalizing st with
  | nil => exact ⟨True, Sends.none trivial⟩
  | cons interval rest ih =>
    obtain ⟨nothing, hrest⟩ := ih (tick lib version st interval)
    exact ⟨_, (doSamples_sends lib version _ st).trans hrest⟩

variable (c : TranslClient) (schedule : Schedule)

/-- The request carries the version that `parseVersion` accepted. -/
def TranslClient.Subscribed (req : TranslibRequest) : Prop :=
  ∃ version, c.parseVersion lib = .ok version ∧ Subscribing version req

/-- A stream asks translib at least whether the paths can be subscribed,
unless its version parses. -/
theorem TranslClient.streamRun_sends (store : ContextStore) (world : World (Logged Device)) :
    Sends (c.Subscribed lib) (∃ message, c.parseVersion lib = .error message)
      world (c.streamRun lib list schedule store world).2.world := by
  unfold streamRun
  cases hversion : c.parseVersion lib with
  | error message => exact Sends.none ⟨message, rfl⟩
  | ok version =>
    have hasked : False ↔ ∃ message, (.ok version : Except String (Option Version)) =
        .error message := by simp
    simp only
    generalize hreq : ({ subscribeRequest version
        (.isSubscribeSupported (c.translPaths list)) with
      user := _ } : TranslibRequest) = req
    have hrequest : Subscribing version req := by
      rw [← hreq]
      exact ⟨rfl, rfl⟩
    have hsends := issue_sends lib.isSubscribeSupported hrequest world
    refine Sends.imp (P := Subscribing version) ?_ fun _ h => ⟨version, hversion, h⟩
    generalize issue lib.isSubscribeSupported req world = answer at hsends ⊢
    rcases answer with ⟨e | support, after⟩
    · exact hsends.congr hasked
    obtain ⟨nothing, hstart⟩ :=
      startSubscriptions_sends lib list version support { world := after }
    simp only
    generalize startSubscriptions lib list version support { world := after } = started
      at hstart ⊢
    cases started with
    | error st => exact (hsends.after hstart).congr hasked
    | ok st =>
      obtain ⟨nothing', hticks⟩ := ticks_sends lib version schedule.ticks
        (if st.onChange = [] then st else doOnChange lib version st.onChange st)
      have hchange : ∃ nothing, Sends (Subscribing version) nothing st.world
          (if st.onChange = [] then st else doOnChange lib version st.onChange st).world := by
        split
        · exact ⟨True, Sends.none trivial⟩
        · exact ⟨False, doOnChange_sends lib version _ st⟩
      obtain ⟨nothing'', hchange⟩ := hchange
      exact (((hsends.after hstart).after hchange).after hticks).congr hasked

/-- A poll with only updates asks for nothing the first time. -/
theorem TranslClient.pollLoop_sends (version : Option Version) (order : Nat → PathOrder)
    (polls n : Nat) (st : StreamState Device) :
    Sends (Subscribing version) (c.path2URI = [] ∨ polls = 0 ∨ polls = 1 ∧ n = 0 ∧ list.updatesOnly = true)
      st.world (c.pollLoop lib list version order polls n st).world := by
  induction polls generalizing n st with
  | zero => exact Sends.none (.inr (.inl rfl))
  | succ polls ih =>
    rw [pollLoop]
    split
    · rename_i hserved
      have hsamples := doSamples_sends lib version (((order n).visit c.path2URI).map (·.2)) st
      rw [map_eq_nil_iff, PathOrder.visit_eq_nil] at hsamples
      refine (hsamples.trans (ih (n + 1) _)).congr ?_
      constructor
      · exact fun h => .inl h.1
      · rintro (h | h | ⟨-, hn, honly⟩)
        · exact ⟨h, .inl h⟩
        · omega
        · simp [hn, honly] at hserved
    · rename_i hskipped
      refine (ih (n + 1) st).congr ?_
      simp only [not_or, ne_eq, not_not, Bool.not_eq_true', Bool.not_eq_false] at hskipped
      simp only [hskipped.1, hskipped.2]
      constructor
      · rintro (h | h | ⟨-, h, -⟩)
        · exact .inl h
        · exact .inr (.inr ⟨by omega, trivial, trivial⟩)
        · omega
      · rintro (h | h | ⟨h, -, -⟩)
        · exact .inl h
        · omega
        · exact .inr (.inl (by omega))

theorem TranslClient.pollRun_sends (world : World (Logged Device)) :
    Sends (c.Subscribed lib) ((∃ message, c.parseVersion lib = .error message) ∨ c.path2URI = [] ∨
        schedule.polls = 0 ∨ schedule.polls = 1 ∧ list.updatesOnly = true)
      world (c.pollRun lib list schedule world).world := by
  unfold pollRun
  cases hversion : c.parseVersion lib with
  | error message => exact Sends.none (.inl ⟨message, rfl⟩)
  | ok version =>
    have hloop := c.pollLoop_sends lib list version schedule.order schedule.polls 0
      { world := world }
    exact (hloop.congr (by simp)).imp fun _ h => ⟨version, hversion, h⟩

theorem TranslClient.onceRun_sends (world : World (Logged Device)) :
    Sends (c.Subscribed lib) ((∃ message, c.parseVersion lib = .error message) ∨ c.path2URI = [])
      world (c.onceRun lib schedule world).world := by
  unfold onceRun
  cases hversion : c.parseVersion lib with
  | error message => exact Sends.none (.inl ⟨message, rfl⟩)
  | ok version =>
    have hsamples := doSamples_sends lib version
      (((schedule.order 0).visit c.path2URI).map (·.2)) { world := world }
    rw [map_eq_nil_iff, PathOrder.visit_eq_nil] at hsamples
    exact (hsamples.congr (by simp)).imp fun _ h => ⟨version, hversion, h⟩

/-! ## Versions -/

/-- A Get, a Set or a subscription of the client leads from one world to another. -/
def TranslClient.Serves (before after : World (Logged Device)) : Prop :=
  (∃ order store, after = (c.get lib order store before).2.2) ∨
  (∃ delete replace update store, after = (c.set lib delete replace update store before).2.2) ∨
  (∃ list schedule store, after = (c.streamRun lib list schedule store before).2.world) ∨
  (∃ list schedule, after = (c.pollRun lib list schedule before).world) ∨
  ∃ schedule, after = (c.onceRun lib schedule before).world

/-- Subscribe refuses the version of a request when Get and Set do, and otherwise all
of them pass the same one to translib. -/
structure UniformVersion : Prop where
  refused : (∃ message, c.parseVersion lib = .error message) ↔
    VersionRefused lib (getBundleVersion c.extensions)
  passed : ∃ version : Version, ∀ before after, c.Serves lib before after →
    ∃ nothing, Sends (·.clientVersion = version) nothing before after

/-- A version that parses is refused by Subscribe only, and one that does not by Get
and Set only. -/
theorem not_uniformVersion {text : String} (htext : getBundleVersion c.extensions = some text) :
    ¬ UniformVersion lib c := by
  rintro ⟨hrefused, -⟩
  rw [parseVersion, VersionRefused, htext] at hrefused
  rcases hversion : lib.newVersion text with ⟨version, _ | e⟩ <;>
    simp [clientVersion, hversion] at hrefused

/-- The client of an RPC treats versions alike exactly when the request has none. -/
theorem uniformVersion_iff (lib : Translib Device) (c : TranslClient) (incoming : Incoming) :
    UniformVersion lib { c with ctx := incoming.context } ↔
      getBundleVersion c.extensions = none := by
  constructor
  · intro huniform
    exact Option.eq_none_iff_forall_ne_some.2 fun text htext =>
      absurd huniform (not_uniformVersion lib _ htext)
  intro hnone
  have hget : clientVersion lib none = .ok {} := rfl
  have hparse : TranslClient.parseVersion lib { c with ctx := incoming.context } = .ok none := by
    rw [parseVersion, hnone]
  have hanonymous : ∀ req, AnonymousFor lib none req → req.clientVersion = {} := fun req h =>
    (Except.ok.inj (hget.symm.trans h.2)).symm
  have hsubscribed : ∀ req, TranslClient.Subscribed lib { c with ctx := incoming.context } req →
      req.clientVersion = {} := by
    rintro req ⟨version, hversion, h⟩
    cases hparse.symm.trans hversion
    exact h.2
  refine ⟨by simp [hparse, hnone, VersionRefused, hget], {}, ?_⟩
  rintro before after (⟨order, store, rfl⟩ | ⟨delete, replace, update, store, rfl⟩ |
    ⟨list, schedule, store, rfl⟩ | ⟨list, schedule, rfl⟩ | ⟨schedule, rfl⟩)
  · exact ⟨_, (get_sends lib rfl order store before).imp (hnone ▸ hanonymous)⟩
  · exact ⟨_, (set_sends lib rfl delete replace update store before).imp (hnone ▸ hanonymous)⟩
  · exact ⟨_, (streamRun_sends lib list _ schedule store before).imp hsubscribed⟩
  · exact ⟨_, (pollRun_sends lib list _ schedule before).imp hsubscribed⟩
  · exact ⟨_, (onceRun_sends lib _ schedule before).imp hsubscribed⟩

/-- Whatever translib says of the version 1.0.0, the RPCs do not agree on it. -/
theorem version_not_uniform :
    getBundleVersion [.registered 700 "1.0.0"] = some "1.0.0" ∧
      ∀ (lib : Translib Unit) (incoming : Incoming), ¬ UniformVersion lib
        { ctx := incoming.context, pathPrefix := none, extensions := [.registered 700 "1.0.0"] } :=
  ⟨rfl, fun lib _ => not_uniformVersion lib _ rfl⟩

end SonicGnmi.Sdc
