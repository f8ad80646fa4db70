import SonicGnmi.GnmiServer.SubscribeSession

/-!
# The signal to stop

`Client.Run` hands a channel to the data client and, when it has stopped sending,
calls `Close` and waits for the goroutines of the data client, which end when the
channel is closed.  `Close` does nothing on a client whose queue is disposed, and a
later call from the same address may call `Close` at any moment after the client was
put into the map of the server.

The model of `SubscribeSession` begins when the goroutines run.  This module puts the
part of `Run` before that in front of it:

* `Opening` — a client while `Run` checks the request and makes the channel;
* `Subscription` — a client from its entry in the map on;
* `closed_too_early` — a `Close` that comes before the channel disposes the queue, so
  that no later one closes the channel, and `Run` waits for goroutines that nobody has
  told to stop;
* `waiting_channel_closed` — this is the only way.
-/

namespace SonicGnmi.GnmiServer

open Foundation

/-- A client before its goroutines: the channel, once `Run` has made it, and whether a
first value was sent on it. -/
structure Opening where
  channel : Option (SessionMode × Channel) := none
  filled : Bool := false
  disposed : Bool := false
  /-- Where a later call is in `Close`, when it holds `mu`. -/
  lock : Option CloseStep := none
  duplicate : Bool := false
  crashed : Bool := false
  deriving DecidableEq

/-- A client: before its goroutines, with them, and after a return without them. -/
inductive Subscription where
  | opening (o : Opening)
  | running (s : Session)
  | refused
  deriving DecidableEq

/-- What happens before the goroutines run. -/
inductive OpeningAction where
  /-- One of the returns of `Run` before the channel. -/
  | refuse
  | make (mode : SessionMode)
  /-- The first value on a poll or once channel. -/
  | fill
  /-- The goroutines are started. -/
  | go (transl : Bool)
  | close (action : CloseAction)
  deriving DecidableEq

/-- The session when its goroutines are started. -/
def Opening.session (o : Opening) (mode : SessionMode) (channel : Channel) (transl : Bool) :
    Session :=
  { Session.start mode transl with
    channel := channel
    disposed := o.disposed
    lock := o.lock.map (Party.duplicate, ·)
    duplicate := o.duplicate }

/-- `Close` by a later call: without a channel there is nothing to close. -/
def Opening.closeStep (o : Opening) : CloseAction → Option Opening
  | .duplicateCalls => if o.duplicate = false then some { o with duplicate := true } else none
  | .acquire party =>
    if party = .duplicate ∧ o.duplicate = true ∧ o.lock = none then
      some { o with lock := some .check }
    else none
  | .proceed =>
    match o.lock with
    | none => none
    | some .check => some { o with lock := some (if o.disposed then .unlock else .dispose) }
    | some .dispose => some { o with disposed := true, lock := some .closeChannel }
    | some .closeChannel =>
      match o.channel with
      | none => some { o with lock := some .unlock }
      | some (mode, channel) =>
        some { o with
          channel := some (mode, channel.close.1)
          lock := some .unlock
          crashed := channel.close.2 }
    | some .unlock => some { o with lock := none, duplicate := false }

/-- One step of `Client.Run` up to the start of the goroutines, or of a `Close`
meanwhile. -/
def Opening.step (o : Opening) : OpeningAction → Option Subscription
  | .refuse => if o.channel = none then some .refused else none
  | .make mode =>
    if o.channel = none then
      some (.opening { o with channel := some (mode, { capacity := 1 }) })
    else none
  | .fill =>
    match o.channel with
    | none => none
    | some (mode, channel) =>
      if mode ≠ .stream ∧ o.filled = false then
        channel.send.map fun sent =>
          .opening { o with
            channel := some (mode, sent.1)
            filled := true
            crashed := sent.2 }
      else none
  | .go transl =>
    match o.channel with
    | none => none
    | some (mode, channel) =>
      if mode = .stream ∨ o.filled = true then
        some (.running (o.session mode channel transl))
      else none
  | .close action => (o.closeStep action).map .opening

/-- An action before or after the start of the goroutines. -/
inductive SubscriptionAction where
  | opening (action : OpeningAction)
  | session (action : SessionAction)
  deriving DecidableEq

/-- One step of a client that has not crashed. -/
def Subscription.step : Subscription → SubscriptionAction → Option Subscription
  | .opening o, .opening action => if o.crashed then none else o.step action
  | .running s, .session action => (s.step action).map .running
  | _, _ => none

/-- The condition: the channel is made before a `Close` has disposed the queue, or at
least before that `Close` has looked at the channels. -/
def Subscription.Timely : Subscription → SubscriptionAction → Prop
  | .opening o, .opening (.make _) => o.disposed = false ∨ o.lock = some .closeChannel
  | _, _ => True

instance instDecidableTimely (s : Subscription) (action : SubscriptionAction) :
    Decidable (s.Timely action) := by
  unfold Subscription.Timely
  split <;> infer_instance

/-! ## Before the goroutines -/

/-- A disposed queue means that the channel is closed, or is about to be. -/
structure Opening.Told (o : Opening) : Prop where
  late : o.lock = some .closeChannel ∨ o.lock = some .unlock → o.disposed = true
  disposed : ∀ mode channel, o.channel = some (mode, channel) → o.disposed = true →
    channel.closed = true ∨ o.lock = some .closeChannel

/-! ## With the goroutines -/

/-- The same for a session, and what it is for. -/
structure Session.Told (s : Session) : Prop where
  late : ∀ party, s.lock = some (party, .closeChannel) ∨ s.lock = some (party, .unlock) →
    s.disposed = true
  disposed : s.disposed = true →
    s.channel.closed = true ∨ ∃ party, s.lock = some (party, .closeChannel)
  waiting : s.run = .waiting ∨ s.run = .returned → s.channel.closed = true

variable {after s : Session} {o : Opening}

section

variable (htold : s.Told)
include htold

theorem Session.Told.frame (hlock : after.lock = s.lock) (hdisposed : after.disposed = s.disposed)
    (hchannel : s.channel.closed = true → after.channel.closed = true)
    (hrun : after.run = .waiting ∨ after.run = .returned → s.run = .waiting ∨ s.run = .returned) :
    after.Told where
  late := by
    rw [hlock, hdisposed]
    exact htold.late
  disposed := by
    rw [hlock, hdisposed]
    exact fun h => (htold.disposed h).imp hchannel fun h => h
  waiting := fun h => hchannel (htold.waiting (hrun h))

theorem Session.Told.runStep {action : RunAction}
    (hstep : s.runStep action = some after) : after.Told := by
  obtain ⟨hcore, -, hrun⟩ := Session.runStep_cases hstep
  exact htold.frame hcore.lock hcore.disposed (fun h => hcore.channel ▸ h) hrun

theorem Session.Told.recvStep {action : RecvAction}
    (hstep : s.recvStep action = some after) : after.Told := by
  cases action <;> simp only [Session.recvStep] at hstep
  case deliver =>
    split at hstep
    · split at hstep <;> cases hstep
      rename_i channel panics hsend
      exact htold.frame rfl rfl (Channel.closed_send hsend) fun h => h
    · cases hstep
  case event poll =>
    split_ifs at hstep <;>
      · cases hstep
        exact htold.frame rfl rfl (fun h => h) fun h => h
  all_goals
    split at hstep <;> cases hstep
    exact htold.frame rfl rfl (fun h => h) fun h => h

/-- `Close` tells the data client, or finds that it has been told. -/
theorem Session.Told.closeStep {action : CloseAction}
    (hstep : s.closeStep action = some after) : after.Told := by
  cases action <;> simp only [Session.closeStep] at hstep
  case duplicateCalls =>
    split at hstep <;> cases hstep
    exact htold.frame rfl rfl (fun h => h) fun h => h
  case acquire party =>
    split at hstep <;> cases hstep
    rename_i hfree
    refine ⟨fun p h => by simp at h, fun h => .inl ((htold.disposed h).resolve_right ?_),
      htold.waiting⟩
    rw [hfree.2]
    nofun
  case proceed =>
    split at hstep
    · cases hstep
    · rename_i party hlock
      cases hstep
      refine ⟨fun p h => ?_, fun h => .inl ((htold.disposed h).resolve_right ?_), htold.waiting⟩
      · simp only [Option.some.injEq, Prod.mk.injEq] at h
        cases hdisposed : s.disposed with
        | true => rfl
        | false => simp [hdisposed] at h
      · rw [hlock]
        nofun
    · cases hstep
      exact ⟨fun _ _ => rfl, fun _ => .inr ⟨_, rfl⟩, htold.waiting⟩
    · rename_i party hlock
      cases hstep
      exact ⟨fun _ _ => htold.late party (.inl hlock),
        fun _ => .inl s.channel.closed_close, fun _ => s.channel.closed_close⟩
    · rename_i party hlock
      cases hstep
      have hclosed : s.channel.closed = true := by
        refine (htold.disposed (htold.late party (.inr hlock))).resolve_right ?_
        rw [hlock]
        nofun
      cases party <;>
        exact ⟨fun p h => by simp at h, fun _ => .inl hclosed, fun _ => hclosed⟩

theorem Session.Told.dataStep {action : DataAction}
    (hstep : s.dataStep action = some after) : after.Told := by
  obtain ⟨channel, hchannel, hcore, hrun, -⟩ := Session.dataStep_cases hstep
  refine htold.frame hcore.lock hcore.disposed (fun h => ?_) (hrun ▸ id)
  rw [hcore.channel]
  rcases hchannel with rfl | ⟨ok, hreceive⟩
  · exact h
  · exact Channel.closed_receive hreceive h

theorem Session.Told.responderStep {index : Nat} {action : ResponderAction}
    (hstep : s.responderStep index action = some after) : after.Told := by
  obtain ⟨channel, hchannel, hcore, hrun, -⟩ := Session.responderStep_cases hstep
  refine htold.frame hcore.lock hcore.disposed (fun h => ?_) (hrun ▸ id)
  rw [hcore.channel]
  rcases hchannel with rfl | ⟨rfl, -⟩
  · exact h
  · exact s.channel.closed_close

theorem Session.Told.step {action : SessionAction}
    (hstep : s.step action = some after) : after.Told := by
  unfold Session.step at hstep
  split at hstep
  · cases hstep
  cases action with
  | run action => exact htold.runStep hstep
  | recv action => exact htold.recvStep hstep
  | close action => exact htold.closeStep hstep
  | data action => exact htold.dataStep hstep
  | responder index action => exact htold.responderStep hstep

end

/-! ## The whole run -/

theorem Opening.Told.closeStep {after : Opening} (htold : o.Told) {action : CloseAction}
    (hstep : o.closeStep action = some after) : after.Told := by
  cases action <;> simp only [Opening.closeStep] at hstep
  case duplicateCalls =>
    split at hstep <;> cases hstep
    exact ⟨htold.late, htold.disposed⟩
  case acquire party =>
    split at hstep <;> cases hstep
    rename_i hfree
    refine ⟨fun h => by simp at h, fun mode channel hchannel h =>
      .inl ((htold.disposed mode channel hchannel h).resolve_right ?_)⟩
    rw [hfree.2.2]
    nofun
  case proceed =>
    split at hstep
    · cases hstep
    · rename_i hlock
      cases hstep
      refine ⟨fun h => ?_, fun mode channel hchannel h =>
        .inl ((htold.disposed mode channel hchannel h).resolve_right ?_)⟩
      · cases hdisposed : o.disposed with
        | true => rfl
        | false => simp [hdisposed] at h
      · rw [hlock]
        nofun
    · cases hstep
      exact ⟨fun _ => rfl, fun _ _ _ _ => .inr rfl⟩
    · rename_i hlock
      have hdisposed := htold.late (.inl hlock)
      split at hstep
      · rename_i hnone
        cases hstep
        refine ⟨fun _ => hdisposed, fun mode channel hchannel => ?_⟩
        rw [hnone] at hchannel
        cases hchannel
      · rename_i mode channel _
        cases hstep
        refine ⟨fun _ => hdisposed, fun _ _ hchannel _ => .inl ?_⟩
        cases hchannel
        exact channel.closed_close
    · rename_i hlock
      cases hstep
      refine ⟨fun h => by simp at h, fun mode channel hchannel h =>
        .inl ((htold.disposed mode channel hchannel h).resolve_right ?_)⟩
      rw [hlock]
      nofun

theorem Opening.Told.session {o : Opening} (htold : o.Told) {mode : SessionMode}
    {channel : Channel} (hchannel : o.channel = some (mode, channel)) (transl : Bool) :
    (o.session mode channel transl).Told where
  late := fun party h => by
    refine htold.late (h.imp ?_ ?_)
    all_goals
      intro hlock
      obtain ⟨step, hstep, heq⟩ := Option.map_eq_some_iff.1 hlock
      cases heq
      exact hstep
  disposed := fun h =>
    (htold.disposed mode channel hchannel h).imp (fun h => h) fun hlock =>
      ⟨.duplicate, Option.map_eq_some_iff.2 ⟨_, hlock, rfl⟩⟩
  waiting := fun h => by
    rcases h with h | h <;> cases h

/-- What holds of a client in every state of a run. -/
def Subscription.Told : Subscription → Prop
  | .opening o => o.Told
  | .running s => s.Told
  | .refused => True

theorem Opening.Told.step {after : Subscription} (htold : o.Told)
    {action : OpeningAction} (htimely : (Subscription.opening o).Timely (.opening action))
    (hstep : o.step action = some after) : after.Told := by
  cases action <;> simp only [Opening.step] at hstep
  case refuse =>
    split at hstep <;> cases hstep
    trivial
  case make mode =>
    split at hstep <;> cases hstep
    refine ⟨htold.late, fun _ _ _ hdisposed => .inr ?_⟩
    rcases htimely with hnot | hlock
    · rw [hnot] at hdisposed
      cases hdisposed
    · exact hlock
  case fill =>
    split at hstep
    · cases hstep
    rename_i mode channel hchannel
    split at hstep
    · obtain ⟨sent, hsend, rfl⟩ := Option.map_eq_some_iff.1 hstep
      refine ⟨htold.late, fun _ _ heq hdisposed => ?_⟩
      cases heq
      exact (htold.disposed mode channel hchannel hdisposed).imp
        (Channel.closed_send hsend) fun h => h
    · cases hstep
  case go transl =>
    split at hstep
    · cases hstep
    rename_i mode channel hchannel
    split at hstep <;> cases hstep
    exact htold.session hchannel transl
  case close action =>
    obtain ⟨o', hclose, rfl⟩ := Option.map_eq_some_iff.1 hstep
    exact htold.closeStep hclose

theorem Subscription.Told.step {before after : Subscription} (htold : before.Told)
    {action : SubscriptionAction} (htimely : before.Timely action)
    (hstep : before.step action = some after) : after.Told := by
  cases before with
  | opening o =>
    cases action with
    | opening action =>
      simp only [Subscription.step] at hstep
      split at hstep
      · cases hstep
      · exact Opening.Told.step htold htimely hstep
    | session action => cases hstep
  | running s =>
    cases action with
    | opening action => cases hstep
    | session action =>
      obtain ⟨s', hsession, rfl⟩ := Option.map_eq_some_iff.1 hstep
      exact Session.Told.step htold hsession
  | refused => cases action <;> cases hstep

/-- As long as the channel is made in time, `Run` waits only when the channel is
closed. -/
theorem waiting_channel_closed {s : Session}
    (hreach : Reach Subscription.step Subscription.Timely (.opening {}) (.running s))
    (hwaiting : s.run = .waiting) : s.channel.closed = true := by
  have hstart : (Subscription.opening {}).Told :=
    ⟨fun h => by simp at h, fun _ _ h => by cases h⟩
  have htold : (Subscription.running s).Told :=
    hreach.invariant Subscription.Told hstart
      fun _ _ _ htold htimely hstep => htold.step htimely hstep
  exact Session.Told.waiting htold (Or.inl hwaiting)

/-- The end of a session whose queue is disposed: `send` fails, and `Close` finds the queue
disposed. -/
def findsDisposed : List SubscriptionAction :=
  [.session (.run .getDisposed), .session (.close (.acquire .run)), .session (.close .proceed),
    .session (.close .proceed)]

/-- A stream is replaced while it runs. -/
def replacedRunning : List SubscriptionAction :=
  [.opening (.make .stream), .opening (.go true), .session (.data .ready),
    .session (.close .duplicateCalls), .session (.close (.acquire .duplicate)),
    .session (.close .proceed), .session (.close .proceed), .session (.close .proceed),
    .session (.close .proceed)] ++ findsDisposed

def replacedSession : Session :=
  match runActions Subscription.step (.opening {}) replacedRunning with
  | some (.running s) => s
  | _ => .start .stream true

/-- `Run` waits, and the channel is closed. -/
theorem waiting_channel_closed_replaced :
    replacedSession.run = .waiting ∧ replacedSession.data = .preparing ∧
      replacedSession.channel.closed = true :=
  ⟨by decide, by decide, waiting_channel_closed
    (Reach.of_runActions replacedRunning .refl (by decide) (by decide)) (by decide)⟩

def replacedOpening : List SubscriptionAction :=
  [.opening (.close .duplicateCalls), .opening (.close (.acquire .duplicate)),
    .opening (.close .proceed), .opening (.close .proceed), .opening (.close .proceed),
    .opening (.close .proceed), .opening (.make .stream), .opening (.go true),
    .session (.data .ready)] ++ findsDisposed

/-- `Run` waits for the data client, whose channel is open. -/
theorem closed_too_early :
    ∃ s, runActions Subscription.step (.opening {}) replacedOpening = some (.running s) ∧
      s.run = .waiting ∧ s.data = .preparing ∧ s.channel.closed = false := by
  refine ⟨{ Session.start .stream true with
    disposed := true
    run := .waiting
    data := .preparing }, ?_⟩
  decide

end SonicGnmi.GnmiServer
