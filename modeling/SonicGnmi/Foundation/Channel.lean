import Mathlib.Data.List.Basic

/-!
# Channels and guarded runs

A Go channel without its values: how many are buffered, and the operations so
far.  A channel is closed when `close` is among them, so the flag and the
history cannot disagree.

* `send` blocks on a full buffer and panics on a closed channel;
* `close` panics on a closed channel;
* `receive` takes a buffered value, or reports that a closed channel is empty;
* `Safe` — closed at most once, and never sent to after that.

`Reach` is reachability by a partial step function whose steps all meet a guard;
`Reach.invariant` is the induction over such a run.
-/

namespace SonicGnmi.Foundation

/-- An operation on a channel. -/
inductive ChannelOp where
  | send
  | receive
  | close
  deriving DecidableEq

/-- A channel: its capacity, the number of buffered values, and the operations
that were carried out, newest first.  An operation that panics is one of
them. -/
structure Channel where
  capacity : Nat
  buffered : Nat := 0
  history : List ChannelOp := []
  deriving DecidableEq

namespace Channel

def closed (ch : Channel) : Bool := ChannelOp.close ∈ ch.history

def record (ch : Channel) (op : ChannelOp) : Channel :=
  { ch with history := op :: ch.history }

/-- `ch <- v`: the channel after it and whether it panics; nothing as long as it
blocks. -/
def send (ch : Channel) : Option (Channel × Bool) :=
  if ch.closed then
    some (ch.record .send, true)
  else if ch.buffered < ch.capacity then
    some ({ ch.record .send with buffered := ch.buffered + 1 }, false)
  else
    none

/-- `close(ch)`: the channel after it and whether it panics. -/
def close (ch : Channel) : Channel × Bool :=
  (ch.record .close, ch.closed)

/-- `v, ok := <-ch`: the channel after it and `ok`; nothing as long as it
blocks. -/
def receive (ch : Channel) : Option (Channel × Bool) :=
  if 0 < ch.buffered then
    some ({ ch.record .receive with buffered := ch.buffered - 1 }, true)
  else if ch.closed then
    some (ch.record .receive, false)
  else
    none

/-- The sends that came after a `close`. -/
def lateSends : List ChannelOp → Nat
  | [] => 0
  | .send :: earlier => (if .close ∈ earlier then 1 else 0) + lateSends earlier
  | _ :: earlier => lateSends earlier

/-- Closed at most once, and nothing sent after that. -/
def Safe (ch : Channel) : Prop :=
  ch.history.count .close ≤ 1 ∧ lateSends ch.history = 0

instance (ch : Channel) : Decidable ch.Safe :=
  inferInstanceAs (Decidable (_ ∧ _))

/-! ### A closed channel stays closed -/

theorem closed_close (ch : Channel) : ch.close.1.closed = true :=
  decide_eq_true List.mem_cons_self

variable {ch after : Channel}

theorem closed_record (op : ChannelOp) (hclosed : ch.closed = true) :
    (ch.record op).closed = true :=
  decide_eq_true (List.mem_cons_of_mem op (of_decide_eq_true hclosed))

theorem closed_send {panics : Bool} (hsend : ch.send = some (after, panics))
    (hclosed : ch.closed = true) : after.closed = true := by
  rw [send, if_pos hclosed] at hsend
  cases hsend
  exact closed_record .send hclosed

theorem closed_receive {ok : Bool} (hreceive : ch.receive = some (after, ok))
    (hclosed : ch.closed = true) : after.closed = true := by
  rw [receive, if_pos hclosed] at hreceive
  split at hreceive
  all_goals
    cases hreceive
    exact closed_record .receive hclosed

/-! ### Safety -/

theorem Safe.close (hsafe : ch.Safe) (hopen : ch.closed = false) : ch.close.1.Safe := by
  refine ⟨?_, hsafe.2⟩
  have hcount := List.count_eq_zero.2 (of_decide_eq_false hopen)
  change (ChannelOp.close :: ch.history).count .close ≤ 1
  rw [List.count_cons_self]
  omega

theorem Safe.send {panics : Bool} (hsafe : ch.Safe)
    (hopen : ch.closed = false) (hsend : ch.send = some (after, panics)) :
    after.Safe ∧ after.closed = false ∧ panics = false := by
  rw [Channel.send, hopen] at hsend
  simp only [Bool.false_eq_true, if_false] at hsend
  split at hsend <;> cases hsend
  have hnot : ChannelOp.close ∉ ch.history := of_decide_eq_false hopen
  refine ⟨⟨?_, ?_⟩, ?_, rfl⟩
  · change (ChannelOp.send :: ch.history).count .close ≤ 1
    rw [List.count_cons_of_ne (by decide)]
    exact hsafe.1
  · change (if ChannelOp.close ∈ ch.history then 1 else 0) + lateSends ch.history = 0
    rw [if_neg hnot, hsafe.2]
  · exact decide_eq_false (by simpa [record] using hnot)

theorem Safe.receive {ok : Bool} (hsafe : ch.Safe)
    (hreceive : ch.receive = some (after, ok)) : after.Safe ∧ after.closed = ch.closed := by
  have hhistory : after.history = .receive :: ch.history := by
    rw [Channel.receive] at hreceive
    split at hreceive
    · cases hreceive
      rfl
    · split at hreceive <;> cases hreceive
      rfl
  refine ⟨⟨?_, ?_⟩, ?_⟩
  · rw [hhistory, List.count_cons_of_ne (by decide)]
    exact hsafe.1
  · rw [hhistory]
    exact hsafe.2
  · simp [closed, hhistory]

end Channel

/-- The states that steps reach which all meet a guard on the state before the
step and the action. -/
inductive Reach {State Action : Type} (step : State → Action → Option State)
    (guard : State → Action → Prop) (start : State) : State → Prop
  | refl : Reach step guard start start
  | next {before after : State} (action : Action) (hbefore : Reach step guard start before)
      (hguard : guard before action) (hstep : step before action = some after) :
      Reach step guard start after

variable {State Action : Type} {guard : State → Action → Prop}

/-- What holds at the start and is kept by every guarded step holds in every
state that is reached. -/
theorem Reach.invariant {step : State → Action → Option State}
    {start reached : State} (inv : State → Prop)
    (hstart : inv start)
    (hkeep : ∀ before action after, inv before → guard before action →
      step before action = some after → inv after)
    (hreach : Reach step guard start reached) : inv reached := by
  induction hreach with
  | refl => exact hstart
  | next action hbefore hguard hstep ih => exact hkeep _ action _ ih hguard hstep

theorem Reach.mono {step : State → Action → Option State} {strong guard : State → Action → Prop}
    {start reached : State} (hguard : ∀ state action, strong state action → guard state action)
    (hreach : Reach step strong start reached) : Reach step guard start reached := by
  induction hreach with
  | refl => exact .refl
  | next action hbefore hstrong hstep ih => exact ih.next action (hguard _ action hstrong) hstep

/-- Carry out a list of actions. -/
def runActions {State Action : Type} (step : State → Action → Option State) :
    State → List Action → Option State
  | state, [] => some state
  | state, action :: rest => (step state action).bind fun next => runActions step next rest

/-- Whether the actions that are carried out all meet a guard. -/
def allMeet {State Action : Type} (step : State → Action → Option State)
    (guard : State → Action → Prop) [∀ state action, Decidable (guard state action)] :
    State → List Action → Bool
  | _, [] => true
  | state, action :: rest =>
    decide (guard state action) &&
      (step state action).all fun next => allMeet step guard next rest

/-- A list of actions that meet the guard reaches its end. -/
theorem Reach.of_runActions {step : State → Action → Option State}
    [∀ state action, Decidable (guard state action)]
    {start : State} (actions : List Action) {state reached : State}
    (hstate : Reach step guard start state) (hmeet : allMeet step guard state actions = true)
    (hrun : runActions step state actions = some reached) : Reach step guard start reached := by
  induction actions generalizing state with
  | nil =>
    cases hrun
    exact hstate
  | cons action rest ih =>
    rw [runActions] at hrun
    obtain ⟨next, hstep, hrest⟩ := Option.bind_eq_some_iff.1 hrun
    rw [allMeet, Bool.and_eq_true, decide_eq_true_eq, hstep] at hmeet
    exact ih (hstate.next action hmeet.1 hstep) hmeet.2 hrest

end SonicGnmi.Foundation
