import SonicGnmi.Foundation.Channel

/-!
# The goroutines of a Subscribe session

One Subscribe call runs several goroutines over one channel (`stop`, `polled` or
`once`, by the mode) and one queue.  This module follows `client_subscribe.go`
and, for the translib client, `transl_data_client.go` and
`transl_subscriber.go`:

* `Client.Run` — sends what is on the queue until it gets an error, then calls
  `Close` and waits;
* `Client.recv` — delivers poll requests on the channel, and calls `Close` when
  it returns;
* the run goroutine of the data client, which receives from the channel;
* the `processResponses` goroutines of the translib client, which close the
  channel when the backend terminates;
* a later call from the same address, which calls `Close` on this session.

A step is one action of one goroutine, so a list of actions is an interleaving.
The queue holds only what matters to the sender: whether a value is a fatal
message.  Timestamps order the queue; any order is allowed here.  A panic that
nothing recovers ends the run.
-/

namespace SonicGnmi.GnmiServer

open Foundation

/-- The modes that `Run` starts a session for. -/
inductive SessionMode where
  | stream
  | poll
  | once
  deriving DecidableEq

/-- A value on the queue: a fatal message makes the sender stop. -/
inductive QueueItem where
  | value
  | fatal
  deriving DecidableEq

/-- Who calls `Close`. -/
inductive Party where
  | run
  | recv
  | duplicate
  deriving DecidableEq

/-- Where the holder of the mutex is in `Close`. -/
inductive CloseStep where
  | check
  | dispose
  | closeChannel
  | unlock
  deriving DecidableEq

/-- `Client.Run` from its call of `send` on. -/
inductive RunPhase where
  | getting
  | sending
  | closing
  | waiting
  | returned
  deriving DecidableEq

/-- `Client.recv`. -/
inductive RecvPhase where
  | receiving
  | awaitingContext
  | delivering
  | closing
  | done
  deriving DecidableEq

/-- `StreamRun`, `PollRun` and `OnceRun`: before the version check, in the loop
over the subscriptions of a stream, at the channel, and while it serves a tick or
a request. -/
inductive DataPhase where
  | starting
  | preparing
  | selecting
  | serving
  | exited
  deriving DecidableEq

/-- A `processResponses` goroutine: whether it stops on the sync message,
whether the run goroutine waits for it, and whether it has seen the end of the
backend and is about to close the channel. -/
structure Responder where
  stopOnSync : Bool
  awaited : Bool := true
  terminating : Bool := false
  deriving DecidableEq

/-- A session. -/
structure Session where
  mode : SessionMode
  /-- Whether the data client is a `TranslClient`. -/
  transl : Bool
  channel : Channel
  queue : List QueueItem := []
  disposed : Bool := false
  /-- The holder of `mu`. -/
  lock : Option (Party × CloseStep) := none
  run : RunPhase := .getting
  recv : RecvPhase := .receiving
  /-- Whether a later call is in `Close`. -/
  duplicate : Bool := false
  data : DataPhase := .starting
  /-- Whether the run goroutine waits in `synced.Wait`. -/
  awaiting : Bool := false
  responders : List Responder := []
  crashed : Bool := false
  deriving DecidableEq

/-- The session when `Run` has started its goroutines: a poll or once channel
already holds one value. -/
def Session.start (mode : SessionMode) (transl : Bool) : Session where
  mode := mode
  transl := transl
  channel :=
    match mode with
    | .stream => { capacity := 1 }
    | _ => { capacity := 1, buffered := 1, history := [.send] }

/-- `q.Put`: a disposed queue takes nothing. -/
def Session.put (s : Session) (item : QueueItem) : Session :=
  if s.disposed then s else { s with queue := s.queue ++ [item] }

/-! ## The sender -/

/-- What happens in `send` and after it. -/
inductive RunAction where
  /-- `q.Get` returns the value at this place. -/
  | getItem (index : Nat)
  /-- `q.Get` fails on the disposed queue. -/
  | getDisposed
  | streamSend (ok : Bool)
  /-- `w.Wait` returns. -/
  | waited
  deriving DecidableEq

/-- One action of `Client.Run`. -/
def Session.runStep (s : Session) : RunAction → Option Session
  | .getItem index =>
    if s.run = .getting ∧ s.disposed = false then
      match s.queue[index]? with
      | none => none
      | some item =>
        -- `ValToResp` turns a fatal message into an error
        some { s with
          queue := s.queue.eraseIdx index
          run := if item = .fatal then .closing else .sending }
    else none
  | .getDisposed =>
    if s.run = .getting ∧ s.disposed = true then some { s with run := .closing } else none
  | .streamSend ok =>
    if s.run = .sending then some { s with run := if ok then .getting else .closing } else none
  | .waited =>
    if s.run = .waiting ∧ s.data = .exited ∧ s.responders = [] then
      some { s with run := .returned }
    else none

/-! ## The receiver -/

/-- What `recv` gets from the stream, and its send on the channel. -/
inductive RecvAction where
  | error
  | eof
  | contextDone
  /-- A message, and whether it is a poll request. -/
  | event (poll : Bool)
  | deliver
  deriving DecidableEq

/-- One action of `Client.recv`. -/
def Session.recvStep (s : Session) : RecvAction → Option Session
  | .error => if s.recv = .receiving then some { s with recv := .closing } else none
  | .eof =>
    if s.recv = .receiving then
      some { s with recv := if s.mode = .stream then .awaitingContext else .closing }
    else none
  | .contextDone =>
    if s.recv = .awaitingContext then some { s with recv := .closing } else none
  | .event poll =>
    if s.recv = .receiving then
      if s.mode = .poll then
        some { s with recv := if poll then .delivering else .closing }
      else some s
    else none
  | .deliver =>
    if s.recv = .delivering then
      match s.channel.send with
      | none => none
      | some (channel, panics) =>
        some { s with channel := channel, recv := .receiving, crashed := panics }
    else none

/-! ## `Close` -/

/-- Whether a party has called `Close` and not returned from it. -/
def Session.inClose (s : Session) : Party → Bool
  | .run => s.run = .closing
  | .recv => s.recv = .closing
  | .duplicate => s.duplicate

/-- A party returns from `Close`. -/
def Session.leaveClose (s : Session) : Party → Session
  | .run => { s with run := .waiting }
  | .recv => { s with recv := .done }
  | .duplicate => { s with duplicate := false }

/-- The calls of `Close` by a later client, taking the mutex, and the steps of
its holder. -/
inductive CloseAction where
  | duplicateCalls
  | acquire (party : Party)
  | proceed
  deriving DecidableEq

/-- One action of `Client.Close`. -/
def Session.closeStep (s : Session) : CloseAction → Option Session
  | .duplicateCalls =>
    if s.duplicate = false then some { s with duplicate := true } else none
  | .acquire party =>
    if s.inClose party = true ∧ s.lock = none then
      some { s with lock := some (party, .check) }
    else none
  | .proceed =>
    match s.lock with
    | none => none
    | some (party, .check) =>
      some { s with lock := some (party, if s.disposed then .unlock else .dispose) }
    | some (party, .dispose) =>
      some { s with disposed := true, lock := some (party, .closeChannel) }
    | some (party, .closeChannel) =>
      some { s with
        channel := s.channel.close.1
        lock := some (party, .unlock)
        crashed := s.channel.close.2 }
    | some (party, .unlock) => some { s.leaveClose party with lock := none }

/-! ## The data client -/

/-- What the run goroutine of a data client does. -/
inductive DataAction where
  /-- The preparations succeed. -/
  | ready
  /-- A value of a client that answers itself, or a fatal message. -/
  | put (item : QueueItem)
  /-- A fatal message, or a recovered panic, and return. -/
  | fail
  /-- `doSample` or `doOnChange` starts its goroutine and waits. -/
  | ask (onChange : Bool)
  /-- The sync message after all paths. -/
  | finish
  | tick
  | receive
  deriving DecidableEq

/-- One action of `StreamRun`, `PollRun` or `OnceRun`. -/
def Session.dataStep (s : Session) : DataAction → Option Session
  | .ready =>
    if s.data = .starting then
      some { s with data := if s.mode = .stream then .preparing else .selecting }
    else none
  | .put item => if s.data ≠ .exited then some (s.put item) else none
  | .fail =>
    if s.data ≠ .exited ∧ s.awaiting = false then
      some { s.put .fatal with data := .exited }
    else none
  | .ask onChange =>
    if s.transl = true ∧ s.awaiting = false ∧
        (s.data = .preparing ∨ (s.data = .serving ∧ onChange = false)) then
      some { s with
        awaiting := true
        responders := s.responders ++ [{ stopOnSync := !onChange }] }
    else none
  | .finish =>
    if s.awaiting = false then
      match s.data with
      | .preparing => some { s.put .value with data := .selecting }
      | .serving =>
        match s.mode with
        | .stream => some { s with data := .selecting }
        | .poll => some { s.put .value with data := .selecting }
        | .once => some { s.put .value with data := .exited }
      | _ => none
    else none
  | .tick =>
    if s.data = .selecting ∧ s.mode = .stream then some { s with data := .serving } else none
  | .receive =>
    if s.data = .selecting then
      match s.channel.receive with
      | none => none
      | some (channel, true) => some { s with channel := channel, data := .serving }
      -- the fatal message of a closed poll channel has no text, and counts as a value
      | some (channel, false) =>
        some { (if s.mode = .stream then s else s.put .value) with
          channel := channel
          data := .exited }
    else none

/-! ## `processResponses` -/

/-- What a `processResponses` goroutine gets from its queue, and its
`close`. -/
inductive ResponderAction where
  | notify
  | sync
  /-- Its queue is disposed, or an error: with or without a fatal message. -/
  | stop (fatal : Bool)
  | terminated
  | closeChannel
  deriving DecidableEq

/-- A responder returns; the run goroutine no longer waits for it. -/
def Session.endResponder (s : Session) (index : Nat) (responder : Responder) : Session :=
  { s with
    responders := s.responders.eraseIdx index
    awaiting := if responder.awaited then false else s.awaiting }

/-- One action of a `processResponses` goroutine. -/
def Session.responderStep (s : Session) (index : Nat) (action : ResponderAction) : Option Session :=
  match s.responders[index]? with
  | none => none
  | some responder =>
    match responder.terminating, action with
    | false, .notify => some (s.put .value)
    | false, .sync =>
      if responder.stopOnSync then some ((s.put .value).endResponder index responder)
      else
        some { s.put .value with
          responders := s.responders.set index { responder with awaited := false }
          awaiting := if responder.awaited then false else s.awaiting }
    | false, .stop fatal =>
      some ((if fatal then s.put .fatal else s).endResponder index responder)
    | false, .terminated =>
      some { s.put .fatal with
        responders := s.responders.set index { responder with terminating := true } }
    | true, .closeChannel =>
      -- `recoverSubscribe` turns the panic of a second close into a fatal message
      some { (if s.channel.close.2 then s.put .fatal else s).endResponder index responder with
        channel := s.channel.close.1 }
    | _, _ => none

/-! ## The session -/

/-- An action of one of the goroutines. -/
inductive SessionAction where
  | run (action : RunAction)
  | recv (action : RecvAction)
  | close (action : CloseAction)
  | data (action : DataAction)
  | responder (index : Nat) (action : ResponderAction)
  deriving DecidableEq

/-- One step of a session that has not crashed. -/
def Session.step (s : Session) (action : SessionAction) : Option Session :=
  if s.crashed then none
  else
    match action with
    | .run action => s.runStep action
    | .recv action => s.recvStep action
    | .close action => s.closeStep action
    | .data action => s.dataStep action
    | .responder index action => s.responderStep index action

/-! ## What the goroutines leave alone -/

/-- The channel, the queue as far as it is disposed, the mutex and the receiver. -/
structure Session.SameCore (s after : Session) : Prop where
  channel : after.channel = s.channel
  disposed : after.disposed = s.disposed
  lock : after.lock = s.lock
  recv : after.recv = s.recv

theorem Session.put_eq (s : Session) (item : QueueItem) :
    ∃ queue, s.put item = { s with queue := queue } := by
  unfold Session.put
  split <;> exact ⟨_, rfl⟩

variable {s after : Session}

theorem Session.runStep_cases {action : RunAction} (hstep : s.runStep action = some after) :
    s.SameCore after ∧ after.responders = s.responders ∧
      (after.run = .waiting ∨ after.run = .returned → s.run = .waiting ∨ s.run = .returned) := by
  cases action <;> simp only [Session.runStep] at hstep
  case getItem index =>
    split_ifs at hstep
    split at hstep <;> cases hstep
    refine ⟨⟨rfl, rfl, rfl, rfl⟩, rfl, fun h => ?_⟩
    split at h <;> simp at h
  case getDisposed =>
    split_ifs at hstep
    cases hstep
    exact ⟨⟨rfl, rfl, rfl, rfl⟩, rfl, by simp⟩
  case streamSend ok =>
    split at hstep <;> cases hstep
    exact ⟨⟨rfl, rfl, rfl, rfl⟩, rfl, by cases ok <;> simp⟩
  case waited =>
    split_ifs at hstep with hwaiting
    cases hstep
    exact ⟨⟨rfl, rfl, rfl, rfl⟩, rfl, fun _ => .inl hwaiting.1⟩

/-- A data client only receives from the channel, and the goroutines it starts run. -/
theorem Session.dataStep_cases {action : DataAction} (hstep : s.dataStep action = some after) :
    ∃ channel, (channel = s.channel ∨ ∃ ok, s.channel.receive = some (channel, ok)) ∧
      Session.SameCore { s with channel := channel } after ∧ after.run = s.run ∧
      ∀ responder ∈ after.responders, responder ∈ s.responders ∨ responder.terminating = false := by
  obtain ⟨fatal, hfatal⟩ := s.put_eq .fatal
  obtain ⟨value, hvalue⟩ := s.put_eq .value
  cases action <;> simp only [Session.dataStep, hfatal, hvalue] at hstep
  case put item =>
    obtain ⟨queue, hput⟩ := s.put_eq item
    rw [hput] at hstep
    split_ifs at hstep
    cases hstep
    exact ⟨_, .inl rfl, ⟨rfl, rfl, rfl, rfl⟩, rfl, fun _ => .inl⟩
  case ask onChange =>
    split_ifs at hstep
    cases hstep
    refine ⟨_, .inl rfl, ⟨rfl, rfl, rfl, rfl⟩, rfl, fun responder hresponder => ?_⟩
    rcases List.mem_append.1 hresponder with hold | hnew
    · exact .inl hold
    · rw [List.mem_singleton.1 hnew]
      exact .inr rfl
  case finish =>
    split_ifs at hstep
    split at hstep <;> (try split at hstep) <;> cases hstep <;>
      exact ⟨_, .inl rfl, ⟨rfl, rfl, rfl, rfl⟩, rfl, fun _ => .inl⟩
  case receive =>
    split at hstep
    · split at hstep <;> cases hstep <;> rename_i channel hreceive
      · exact ⟨channel, .inr ⟨_, hreceive⟩, ⟨rfl, rfl, rfl, rfl⟩, rfl, fun _ => .inl⟩
      · refine ⟨channel, .inr ⟨_, hreceive⟩, ?_⟩
        split <;> exact ⟨⟨rfl, rfl, rfl, rfl⟩, rfl, fun _ => .inl⟩
    · cases hstep
  all_goals
    split at hstep <;> cases hstep
    exact ⟨_, .inl rfl, ⟨rfl, rfl, rfl, rfl⟩, rfl, fun _ => .inl⟩

/-- Only a goroutine whose backend has terminated touches the channel, and closes it. -/
theorem Session.responderStep_cases {index : Nat} {action : ResponderAction}
    (hstep : s.responderStep index action = some after) :
    ∃ channel, (channel = s.channel ∨ channel = s.channel.close.1 ∧
        ∃ responder ∈ s.responders, responder.terminating = true) ∧
      Session.SameCore { s with channel := channel } after ∧ after.run = s.run ∧
      (action ≠ .terminated → ∀ responder ∈ after.responders,
        responder ∈ s.responders ∨ responder.terminating = false) := by
  obtain ⟨fatal, hfatal⟩ := s.put_eq .fatal
  obtain ⟨value, hvalue⟩ := s.put_eq .value
  simp only [Session.responderStep, hfatal, hvalue] at hstep
  split at hstep
  · cases hstep
  rename_i responder hget
  split at hstep
  · cases hstep
    exact ⟨_, .inl rfl, ⟨rfl, rfl, rfl, rfl⟩, rfl, fun _ _ => .inl⟩
  · split at hstep <;> cases hstep
    · exact ⟨_, .inl rfl, ⟨rfl, rfl, rfl, rfl⟩, rfl, fun _ _ h => .inl (List.mem_of_mem_eraseIdx h)⟩
    rename_i hrunning _
    refine ⟨_, .inl rfl, ⟨rfl, rfl, rfl, rfl⟩, rfl, fun _ other hother => ?_⟩
    rcases List.mem_or_eq_of_mem_set hother with hold | hnew
    · exact .inl hold
    · rw [hnew]
      exact .inr hrunning
  · cases hstep
    refine ⟨_, .inl rfl, ?_⟩
    split <;> exact ⟨⟨rfl, rfl, rfl, rfl⟩, rfl, fun _ _ h => .inl (List.mem_of_mem_eraseIdx h)⟩
  · cases hstep
    exact ⟨_, .inl rfl, ⟨rfl, rfl, rfl, rfl⟩, rfl, fun h => absurd rfl h⟩
  · rename_i hterminating
    cases hstep
    refine ⟨_, .inr ⟨rfl, responder, List.mem_of_getElem? hget, hterminating⟩, ?_⟩
    split <;> exact ⟨⟨rfl, rfl, rfl, rfl⟩, rfl, fun _ _ h => .inl (List.mem_of_mem_eraseIdx h)⟩
  · cases hstep

end SonicGnmi.GnmiServer
