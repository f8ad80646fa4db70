import SonicGnmi.GnmiServer.SubscribeSession

/-!
# Safety of the session channel

The channel of a Subscribe session is closed by `Close` and, when the backend
terminates, also by `processResponses`; and `recv` sends poll requests on it
without asking whether it is still open.  So it is not always safe:

* `closed_twice_or_sent_late` — a stream whose backend terminates closes it
  twice, and a poll request that arrives after a failed send is sent to the
  closed channel.

`session_channel_safe` says when it is: as long as no backend terminates, no
poll request arrives on a closed session, and the session is not closed while a
poll request waits for the channel.  The proof keeps `Inv` over every such run;
the mutex and the test of the queue make `Close` close the channel once.
-/

namespace SonicGnmi.GnmiServer

open Foundation Session

/-- The condition on a step. -/
def Session.Orderly (s : Session) : SessionAction → Prop
  | .responder _ .terminated => False
  | .recv (.event true) => s.disposed = false
  | .close .proceed => s.lock.map Prod.snd = some .dispose → s.recv ≠ .delivering
  | _ => True

instance (s : Session) (action : SessionAction) : Decidable (s.Orderly action) := by
  unfold Session.Orderly
  split <;> infer_instance

/-- What holds in every state of an orderly run. -/
structure Session.Inv (s : Session) : Prop where
  safe : s.channel.Safe
  /-- Only a disposed session has a closed channel. -/
  disposed : s.channel.closed = true → s.disposed = true
  disposing : ∀ party, s.lock = some (party, .dispose) → s.disposed = false
  closing : ∀ party, s.lock = some (party, .closeChannel) →
    s.disposed = true ∧ s.channel.closed = false
  delivering : s.recv = .delivering → s.disposed = false
  backend : ∀ responder ∈ s.responders, responder.terminating = false

theorem Session.inv_start (mode : SessionMode) (transl : Bool) : (start mode transl).Inv where
  safe := by cases mode <;> cases transl <;> decide
  disposed := by cases mode <;> cases transl <;> decide
  disposing := nofun
  closing := nofun
  delivering := nofun
  backend := nofun

variable {after s : Session}

section

variable (hinv : s.Inv)
include hinv

/-- A step that changes none of it, and no backend terminates, keeps `Inv`. -/
theorem Session.Inv.frame (hcore : s.SameCore after)
    (hbackend : ∀ responder ∈ after.responders, responder.terminating = false) : after.Inv where
  safe := hcore.channel ▸ hinv.safe
  disposed := by
    rw [hcore.channel, hcore.disposed]
    exact hinv.disposed
  disposing := by
    rw [hcore.lock, hcore.disposed]
    exact hinv.disposing
  closing := by
    rw [hcore.lock, hcore.disposed, hcore.channel]
    exact hinv.closing
  delivering := by
    rw [hcore.recv, hcore.disposed]
    exact hinv.delivering
  backend := hbackend

/-- The channel of a session that is not disposed is open. -/
theorem Session.Inv.opened (h : s.disposed = false) : s.channel.closed = false :=
  Bool.eq_false_iff.2 fun hclosed => Bool.eq_false_iff.1 h (hinv.disposed hclosed)

theorem Session.Inv.runStep {action : RunAction}
    (hstep : s.runStep action = some after) : after.Inv := by
  obtain ⟨hcore, hresponders, -⟩ := runStep_cases hstep
  exact hinv.frame hcore (hresponders ▸ hinv.backend)

theorem Session.Inv.setRecv {phase : RecvPhase}
    (hphase : phase = .delivering → s.disposed = false) : Inv { s with recv := phase } :=
  { hinv with delivering := hphase }

theorem Session.Inv.recvStep {action : RecvAction} (horderly : s.Orderly (.recv action))
    (hstep : s.recvStep action = some after) : after.Inv := by
  cases action <;> simp only [Session.recvStep] at hstep
  case error | contextDone =>
    split at hstep <;> cases hstep
    exact hinv.setRecv (by simp)
  case eof =>
    split at hstep <;> cases hstep
    refine hinv.setRecv fun h => ?_
    split at h <;> cases h
  case event poll =>
    split at hstep
    · split at hstep <;> cases hstep
      · refine hinv.setRecv fun h => ?_
        cases poll with
        | false => cases h
        | true => exact horderly
      · exact hinv
    · cases hstep
  case deliver =>
    split at hstep
    · rename_i hdelivering
      rcases hsend : s.channel.send with _ | ⟨channel, panics⟩ <;> rw [hsend] at hstep <;>
        cases hstep
      obtain ⟨hsafe, hstill, -⟩ :=
        hinv.safe.send (hinv.opened (hinv.delivering hdelivering)) hsend
      exact
        { hinv with
          safe := hsafe
          disposed := fun h => absurd (hstill.symm.trans h) (by decide)
          closing := fun party h => ⟨(hinv.closing party h).1, hstill⟩
          delivering := nofun }
    · cases hstep

theorem Session.Inv.leaveClose (party : Party) : Inv { s.leaveClose party with lock := none } where
  safe := by cases party <;> exact hinv.safe
  disposed := by cases party <;> exact hinv.disposed
  disposing := nofun
  closing := nofun
  delivering := by
    cases party with
    | run | duplicate => exact hinv.delivering
    | recv => nofun
  backend := by cases party <;> exact hinv.backend

/-- The holder of the mutex closes the channel only after it found the queue
not disposed, and nobody else can have closed it since. -/
theorem Session.Inv.closeStep {action : CloseAction} (horderly : s.Orderly (.close action))
    (hstep : s.closeStep action = some after) : after.Inv := by
  cases action <;> simp only [Session.closeStep] at hstep
  case duplicateCalls =>
    split at hstep <;> cases hstep
    exact hinv.frame ⟨rfl, rfl, rfl, rfl⟩ hinv.backend
  case acquire party =>
    split at hstep <;> cases hstep
    exact { hinv with disposing := nofun, closing := nofun }
  case proceed =>
    rcases hlock : s.lock with _ | ⟨party, position⟩ <;> rw [hlock] at hstep
    · cases hstep
    cases position with
    | check =>
      cases hstep
      refine { hinv with disposing := fun other h => ?_, closing := fun other h => ?_ }
      · cases hdisposed : s.disposed with
        | false => rfl
        | true => simp [hdisposed] at h
      · cases hdisposed : s.disposed <;> simp [hdisposed] at h
    | dispose =>
      cases hstep
      have hdisposed := hinv.disposing party hlock
      exact
        { hinv with
          disposed := fun _ => rfl
          disposing := nofun
          closing := fun _ _ => ⟨rfl, hinv.opened hdisposed⟩
          delivering := fun h => absurd h (horderly (by rw [hlock]; rfl)) }
    | closeChannel =>
      cases hstep
      obtain ⟨hdisposed, hopen⟩ := hinv.closing party hlock
      exact
        { hinv with
          safe := hinv.safe.close hopen
          disposed := fun _ => hdisposed
          disposing := nofun
          closing := nofun }
    | unlock =>
      cases hstep
      exact hinv.leaveClose party

/-- The run goroutine only receives from the channel. -/
theorem Session.Inv.receive {channel : Channel} {ok : Bool}
    (hreceive : s.channel.receive = some (channel, ok)) : Inv { s with channel := channel } := by
  obtain ⟨hsafe, hclosed⟩ := hinv.safe.receive hreceive
  exact
    { hinv with
      safe := hsafe
      disposed := fun h => hinv.disposed (hclosed ▸ h)
      closing := fun party h => ⟨(hinv.closing party h).1, hclosed ▸ (hinv.closing party h).2⟩ }

theorem Session.Inv.dataStep {action : DataAction}
    (hstep : s.dataStep action = some after) : after.Inv := by
  obtain ⟨channel, hchannel, hcore, -, hresponders⟩ := dataStep_cases hstep
  have hreceived : Inv { s with channel := channel } := by
    rcases hchannel with rfl | ⟨ok, hreceive⟩
    · exact hinv
    · exact hinv.receive hreceive
  exact hreceived.frame hcore fun responder h =>
    (hresponders responder h).elim (hinv.backend responder) id

/-- Without a terminating backend a responder does not touch the channel. -/
theorem Session.Inv.responderStep {index : Nat}
    {action : ResponderAction} (horderly : s.Orderly (.responder index action))
    (hstep : s.responderStep index action = some after) : after.Inv := by
  obtain ⟨channel, hchannel, hcore, -, hresponders⟩ := responderStep_cases hstep
  obtain rfl : channel = s.channel := by
    refine hchannel.resolve_right fun ⟨_, responder, hresponder, hterminating⟩ => ?_
    rw [hinv.backend responder hresponder] at hterminating
    cases hterminating
  refine hinv.frame hcore fun responder h =>
    (hresponders ?_ responder h).elim (hinv.backend responder) id
  rintro rfl
  exact horderly

theorem Session.Inv.step {action : SessionAction}
    (horderly : s.Orderly action) (hstep : s.step action = some after) : after.Inv := by
  unfold Session.step at hstep
  split at hstep
  · cases hstep
  cases action with
  | run action => exact hinv.runStep hstep
  | recv action => exact hinv.recvStep horderly hstep
  | close action => exact hinv.closeStep horderly hstep
  | data action => exact hinv.dataStep hstep
  | responder index action => exact hinv.responderStep horderly hstep

end

/-- In every orderly run of a session, in every mode and with every data client,
the channel is closed at most once and nothing is sent on it after that. -/
theorem session_channel_safe (mode : SessionMode) (transl : Bool) {s : Session}
    (hreach : Reach Session.step Session.Orderly (Session.start mode transl) s) :
    s.channel.Safe := by
  have hinv : s.Inv := Reach.invariant Session.Inv (Session.inv_start mode transl)
    (fun before action after hbefore horderly hstep => hbefore.step horderly hstep) hreach
  exact hinv.safe

/-- A stream session: the translib client asks for changes, and its backend
terminates. -/
def backendTerminates : List SessionAction :=
  [.data .ready, .data (.ask true), .responder 0 .terminated, .responder 0 .closeChannel,
    .run (.getItem 0), .close (.acquire .run), .close .proceed, .close .proceed, .close .proceed]

/-- A poll session: a value cannot be sent, the session is closed, and another
poll request arrives. -/
def pollAfterFailedSend : List SessionAction :=
  [.data .ready, .data .receive, .data .finish, .run (.getItem 0), .run (.streamSend false),
    .close (.acquire .run), .close .proceed, .close .proceed, .close .proceed,
    .recv (.event true), .recv .deliver]

/-- The first session closes its channel twice, the second one sends a value on
its closed channel; both crash. -/
theorem closed_twice_or_sent_late :
    ((runActions Session.step (.start .stream true) backendTerminates).map fun s =>
        (s.channel.history.count .close, s.crashed)) = some (2, true) ∧
      ((runActions Session.step (.start .poll false) pollAfterFailedSend).map fun s =>
        (Channel.lateSends s.channel.history, s.crashed)) = some (1, true) := by
  decide

/-- A poll session in good order: two requests are answered, and the client goes
away. -/
def answeredPolls : List SessionAction :=
  [.data .ready, .data .receive, .recv (.event true), .recv .deliver, .data (.ask false),
    .responder 0 .sync, .data .finish, .run (.getItem 0), .run (.streamSend true),
    .data .receive, .recv .eof, .close (.acquire .recv), .close .proceed, .close .proceed,
    .close .proceed, .close .proceed]

def answeredSession : Session :=
  (runActions Session.step (.start .poll true) answeredPolls).getD (.start .poll true)

/-- Its channel was used and closed once. -/
theorem session_channel_safe_poll :
    answeredSession.channel.history = [.close, .receive, .send, .receive, .send] ∧
      answeredSession.recv = .done ∧ answeredSession.channel.Safe :=
  ⟨by decide, by decide, session_channel_safe .poll true
    (Reach.of_runActions answeredPolls .refl (by decide) rfl)⟩

end SonicGnmi.GnmiServer
