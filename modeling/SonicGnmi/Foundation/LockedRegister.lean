import Mathlib.Data.List.Induction
import Mathlib.Data.List.Nodup
import Mathlib.Logic.Function.Basic

/-!
# A register behind a lock

Any number of threads serve one request each against a shared register.  A
thread first works on its request alone; it is then done, or it needs the
register: it takes the lock, reads the register, may store a new value, and
releases the lock.  A schedule names the thread that moves next, so a list of
thread names is an interleaving.

The history of the lock is kept beside the state: the threads in the order in
which they took it, and for each decision the argument and the register it was
made on.

* `Service`, `State`, `step`, `run` — the service, its states and its runs;
* `Linear`, `run_linear` — after every schedule the register and the answers are
  those of the decisions one after the other, in the order of the lock;
* `finished_of_stuck` — no schedule runs into a deadlock.
-/

namespace SonicGnmi.Foundation
namespace LockedRegister

open List

/-- What a thread does: the work before the lock, which may already give the
answer, and the work under the lock, which gives the answer and the value to
store, if there is one. -/
structure Service (Req Arg Reg Res : Type) where
  prepare : Req → Except Res Arg
  resolve : Arg → Reg → Res × Option Reg

/-- Where a thread stands. -/
inductive Phase (Arg Reg Res : Type) where
  | ready
  | waiting (arg : Arg)
  | holding (arg : Arg)
  | storing (arg : Arg) (res : Res) (new : Reg)
  | leaving (res : Res)
  | finished (res : Res)

def Phase.inside {Arg Reg Res : Type} : Phase Arg Reg Res → Bool
  | .holding _ | .storing _ _ _ | .leaving _ => true
  | _ => false

/-- The thread holds the lock and has not decided yet. -/
def Phase.undecided {Arg Reg Res : Type} : Phase Arg Reg Res → Bool
  | .holding _ | .storing _ _ _ => true
  | _ => false

/-- A decision: the thread, its argument and the register it was made on. -/
structure Entry (Thread Arg Reg : Type) where
  thread : Thread
  arg : Arg
  seen : Reg

/-- A state of the system, with the history of the lock. -/
structure State (Thread Arg Reg Res : Type) where
  reg : Reg
  phase : Thread → Phase Arg Reg Res
  holder : Option Thread := none
  taken : List Thread := []
  log : List (Entry Thread Arg Reg) := []

variable {Thread Req Arg Reg Res : Type}

/-- All threads have their requests and nothing has happened. -/
def start (initial : Reg) : State Thread Arg Reg Res :=
  { reg := initial, phase := fun _ => .ready }

namespace Service

variable (service : Service Req Arg Reg Res)

/-- The register after one decision. -/
def apply (reg : Reg) (arg : Arg) : Reg :=
  (service.resolve arg reg).2.getD reg

/-- The register after decisions one after the other. -/
def final (initial : Reg) (log : List (Entry Thread Arg Reg)) : Reg :=
  log.foldl (fun reg e => service.apply reg e.arg) initial

/-- Every decision is made on the register that the ones before it leave. -/
def Sequential (initial : Reg) : List (Entry Thread Arg Reg) → Prop
  | [] => True
  | e :: rest => e.seen = initial ∧ Sequential (service.apply initial e.arg) rest

theorem sequential_append {initial : Reg} {log later : List (Entry Thread Arg Reg)} :
    service.Sequential initial (log ++ later) ↔
      service.Sequential initial log ∧ service.Sequential (service.final initial log) later := by
  induction log generalizing initial with
  | nil => simp [Sequential, final]
  | cons e rest ih =>
    rw [cons_append, Sequential, Sequential, ih, and_assoc]
    rfl

end Service

section Steps

variable [DecidableEq Thread] (service : Service Req Arg Reg Res) (reqs : Thread → Req)

/-- The thread is in this phase from now on. -/
def State.move (s : State Thread Arg Reg Res) (i : Thread) (phase : Phase Arg Reg Res) :
    State Thread Arg Reg Res :=
  { s with phase := Function.update s.phase i phase }

/-- One step of a thread.  A thread that waits for a taken lock, or that has
finished, stays as it is. -/
def step (s : State Thread Arg Reg Res) (i : Thread) : State Thread Arg Reg Res :=
  match s.phase i with
  | .ready =>
    match service.prepare (reqs i) with
    | .error res => s.move i (.finished res)
    | .ok arg => s.move i (.waiting arg)
  | .waiting arg =>
    match s.holder with
    | none => { s.move i (.holding arg) with holder := some i, taken := s.taken ++ [i] }
    | some _ => s
  | .holding arg =>
    match service.resolve arg s.reg with
    | (res, none) => { s.move i (.leaving res) with log := s.log ++ [⟨i, arg, s.reg⟩] }
    | (res, some new) => s.move i (.storing arg res new)
  | .storing arg res new =>
    { s.move i (.leaving res) with reg := new, log := s.log ++ [⟨i, arg, s.reg⟩] }
  | .leaving res => { s.move i (.finished res) with holder := none }
  | .finished _ => s

/-- The threads move in the order of the schedule. -/
def run (initial : Reg) (schedule : List Thread) : State Thread Arg Reg Res :=
  schedule.foldl (step service reqs) (start initial)

end Steps

section Runs

variable (service : Service Req Arg Reg Res) (reqs : Thread → Req)

/-- The answer is that of a decision in the log. -/
def Answered (s : State Thread Arg Reg Res) (i : Thread) (res : Res) : Prop :=
  ∃ e ∈ s.log, e.thread = i ∧ (service.resolve e.arg e.seen).1 = res

/-- What is known about a thread from its phase. -/
def Accounted (s : State Thread Arg Reg Res) (i : Thread) : Prop :=
  match s.phase i with
  | .ready => True
  | .waiting arg | .holding arg => service.prepare (reqs i) = .ok arg
  | .storing arg res new =>
    service.prepare (reqs i) = .ok arg ∧ service.resolve arg s.reg = (res, some new)
  | .leaving res => Answered service s i res
  | .finished res => service.prepare (reqs i) = .error res ∨ Answered service s i res

/-- The threads that took the lock and have not decided: at most the holder. -/
def pending (s : State Thread Arg Reg Res) : List Thread :=
  match s.holder with
  | none => []
  | some i => if (s.phase i).undecided then [i] else []

/-- The state is one that the decisions of its log, one after the other, lead
to. -/
structure Linear (initial : Reg) (s : State Thread Arg Reg Res) : Prop where
  held : ∀ i, (s.phase i).inside = true ↔ s.holder = some i
  accounted : ∀ i, Accounted service reqs s i
  reg : s.reg = service.final initial s.log
  sequential : service.Sequential initial s.log
  taken : s.taken = s.log.map (·.thread) ++ pending s
  prepared : ∀ e ∈ s.log, service.prepare (reqs e.thread) = .ok e.arg
  once : s.taken.Nodup
  fresh : ∀ i ∈ s.taken, (s.phase i).inside = true ∨ ∃ res, s.phase i = .finished res

variable {service reqs} {initial : Reg} {s : State Thread Arg Reg Res} {i : Thread}

theorem linear_start (initial : Reg) :
    Linear service reqs initial (start initial : State Thread Arg Reg Res) where
  held i := by simp [start, Phase.inside]
  accounted i := trivial
  reg := rfl
  sequential := trivial
  taken := rfl
  prepared e he := by cases he
  once := nodup_nil
  fresh i hi := by cases hi

theorem Linear.not_taken (h : Linear service reqs initial s) (hout : (s.phase i).inside = false)
    (hrunning : ∀ res, s.phase i ≠ .finished res) : i ∉ s.taken := by
  intro hi
  rcases h.fresh i hi with hin | ⟨res, hres⟩
  · rw [hout] at hin
    contradiction
  · exact hrunning res hres

variable {res : Res} {arg : Arg}

theorem Linear.not_taken_of_error (h : Linear service reqs initial s)
    (herror : service.prepare (reqs i) = .error res) : i ∉ s.taken := by
  intro hi
  rw [h.taken, mem_append, mem_map] at hi
  rcases hi with ⟨e, he, rfl⟩ | hi
  · rw [h.prepared e he] at herror
    contradiction
  unfold pending at hi
  split at hi
  · cases hi
  rename_i k hholder
  split at hi
  · rename_i hundecided
    cases mem_singleton.1 hi
    have hknown := h.accounted i
    unfold Accounted at hknown
    cases hphase : s.phase i <;> simp_all [Phase.undecided]
  · cases hi

variable [DecidableEq Thread]

@[simp] theorem move_phase_self (phase : Phase Arg Reg Res) : (s.move i phase).phase i = phase := by
  simp [State.move]

theorem move_phase_of_ne {j : Thread} (phase : Phase Arg Reg Res) (hne : j ≠ i) :
    (s.move i phase).phase j = s.phase j := by
  simp [State.move, hne]

section

variable (h : Linear service reqs initial s)
include h

/-- One thread moves and the decisions stay: what is left to show is about this thread and
the lock. -/
theorem Linear.of_move {after : State Thread Arg Reg Res}
    (hothers : ∀ j, j ≠ i → after.phase j = s.phase j)
    (hlog : after.reg = s.reg ∧ after.log = s.log)
    (hheld : (after.phase i).inside = true ↔ after.holder = some i)
    (hholder : ∀ j, j ≠ i → (s.holder = some j ↔ after.holder = some j))
    (hknown : Accounted service reqs after i)
    (htaken : after.taken = s.log.map (·.thread) ++ pending after) (honce : after.taken.Nodup)
    (hold : ∀ j ∈ after.taken, j ≠ i → j ∈ s.taken)
    (hfresh : i ∈ after.taken →
      (after.phase i).inside = true ∨ ∃ res, after.phase i = .finished res) :
    Linear service reqs initial after := by
  refine ⟨fun j => ?_, fun j => ?_, ?_, hlog.2 ▸ h.sequential, hlog.2.symm ▸ htaken,
    hlog.2 ▸ h.prepared, honce, fun j hj => ?_⟩
  · by_cases hj : j = i
    · exact hj ▸ hheld
    · rw [hothers j hj, h.held j, hholder j hj]
  · by_cases hj : j = i
    · exact hj ▸ hknown
    · have hsame := h.accounted j
      unfold Accounted Answered at hsame ⊢
      rwa [hothers j hj, hlog.1, hlog.2]
  · rw [hlog.1, hlog.2, h.reg]
  · by_cases hne : j = i
    · subst hne
      exact hfresh hj
    · rw [hothers j hne]
      exact h.fresh j (hold j hj hne)

/-- Moves outside the lock keep the history: only the phase of the thread and
what is known about it change. -/
theorem Linear.moveOutside {phase : Phase Arg Reg Res}
    (hbefore : (s.phase i).inside = false) (hrunning : ∀ res, s.phase i ≠ .finished res)
    (hafter : phase.inside = false) (hknown : Accounted service reqs (s.move i phase) i) :
    Linear service reqs initial (s.move i phase) := by
  have hnot : s.holder ≠ some i := by
    intro hholder
    rw [← h.held i, hbefore] at hholder
    contradiction
  have hpending : pending (s.move i phase) = pending s := by
    unfold pending
    change (match s.holder with
      | none => []
      | some k => if ((s.move i phase).phase k).undecided then [k] else []) = _
    rcases hholder : s.holder with _ | k
    · rfl
    · have hk : k ≠ i := by
        rintro rfl
        exact hnot hholder
      simp [move_phase_of_ne phase hk]
  refine h.of_move (fun j => move_phase_of_ne phase) ⟨rfl, rfl⟩ ?_ (fun _ _ => Iff.rfl) hknown
    (hpending ▸ h.taken) h.once (fun _ hj _ => hj) fun hi =>
      absurd hi (h.not_taken hbefore hrunning)
  rw [move_phase_self, hafter]
  simpa [State.move] using hnot

theorem Linear.take (hphase : s.phase i = .waiting arg) (hfree : s.holder = none) :
    Linear service reqs initial
      { s.move i (.holding arg) with holder := some i, taken := s.taken ++ [i] } := by
  have hout : (s.phase i).inside = false := by rw [hphase]; rfl
  have hnew : i ∉ s.taken := h.not_taken hout (by simp [hphase])
  have hknown := h.accounted i
  unfold Accounted at hknown
  simp only [hphase] at hknown
  refine h.of_move (fun j => move_phase_of_ne _) ⟨rfl, rfl⟩ (by simp [Phase.inside])
    (fun j hj => by simp [hfree, Ne.symm hj]) (by simpa [Accounted] using hknown) ?_
    (h.once.append (nodup_singleton i) (by simpa using hnew)) (fun j hj hne => ?_)
    fun _ => .inl (by simp [Phase.inside])
  · have hnone : pending s = [] := by
      simp [pending, hfree]
    simp only [pending, move_phase_self, Phase.undecided, if_true]
    rw [h.taken, hnone, append_nil]
  · simpa [hne] using hj

/-- A decision under the lock: it is added to the log, and the register becomes
what the decision leaves. -/
theorem Linear.decide {new : Reg}
    (hundecided : (s.phase i).undecided = true) (hprepared : service.prepare (reqs i) = .ok arg)
    (hres : (service.resolve arg s.reg).1 = res) (hnew : service.apply s.reg arg = new) :
    Linear service reqs initial
      { s.move i (.leaving res) with reg := new, log := s.log ++ [⟨i, arg, s.reg⟩] } := by
  have hinside : (s.phase i).inside = true := by
    revert hundecided
    cases s.phase i <;> simp [Phase.undecided, Phase.inside]
  have hholder : s.holder = some i := (h.held i).1 hinside
  have hlog : ∀ e ∈ s.log, e ∈ s.log ++ [(⟨i, arg, s.reg⟩ : Entry Thread Arg Reg)] :=
    fun e he => mem_append_left _ he
  refine ⟨?_, ?_, ?_, ?_, ?_, ?_, h.once, ?_⟩
  · intro j
    by_cases hj : j = i
    · subst hj
      simp [Phase.inside, State.move, hholder]
    · simp only [move_phase_of_ne _ hj]
      exact h.held j
  · intro j
    by_cases hj : j = i
    · subst hj
      unfold Accounted
      simp only [move_phase_self]
      exact ⟨⟨j, arg, s.reg⟩, mem_append_right _ (mem_singleton_self _), rfl, hres⟩
    · have hsame := h.accounted j
      have hout : (s.phase j).inside = false := by
        rw [← Bool.not_eq_true, h.held j, hholder, Option.some.injEq]
        exact fun heq => hj heq.symm
      unfold Accounted at hsame ⊢
      simp only [move_phase_of_ne _ hj]
      -- Another thread is outside the lock, so nothing is known of the register there.
      cases hphase : s.phase j with
      | ready => trivial
      | waiting arg => simpa only [hphase] using hsame
      | holding arg | storing arg res new | leaving res => simp [hphase, Phase.inside] at hout
      | finished res =>
        simp only [hphase] at hsame
        rcases hsame with herror | ⟨e, he, hthread, hanswer⟩
        · exact .inl herror
        · exact .inr ⟨e, hlog e he, hthread, hanswer⟩
  · rw [show service.final initial (s.log ++ [⟨i, arg, s.reg⟩]) =
      service.apply (service.final initial s.log) arg from foldl_append, ← h.reg, hnew]
  · exact (service.sequential_append).2 ⟨h.sequential, h.reg, trivial⟩
  · have hbefore : pending s = [i] := by
      simp [pending, hholder, hundecided]
    change s.taken = (s.log ++ [(⟨i, arg, s.reg⟩ : Entry Thread Arg Reg)]).map (·.thread) ++
      (match s.holder with
        | none => []
        | some k => if ((s.move i (.leaving res)).phase k).undecided then [k] else [])
    rw [h.taken, hbefore, hholder]
    simp [Phase.undecided]
  · intro e he
    rcases mem_append.1 he with he | he
    · exact h.prepared e he
    · cases mem_singleton.1 he
      exact hprepared
  · intro j hj
    by_cases hne : j = i
    · subst hne
      simp [Phase.inside]
    · simp only [move_phase_of_ne _ hne]
      exact h.fresh j hj

theorem Linear.announce {new : Reg}
    (hphase : s.phase i = .holding arg) (hresolve : service.resolve arg s.reg = (res, some new)) :
    Linear service reqs initial (s.move i (.storing arg res new)) := by
  have hholder : s.holder = some i := (h.held i).1 (by simp [hphase, Phase.inside])
  have hknown := h.accounted i
  unfold Accounted at hknown
  simp only [hphase] at hknown
  have hpending : pending (s.move i (.storing arg res new)) = pending s := by
    change (match s.holder with
      | none => []
      | some k => if ((s.move i _).phase k).undecided then [k] else []) = _
    simp [pending, hholder, hphase, Phase.undecided]
  exact h.of_move (fun j => move_phase_of_ne _) ⟨rfl, rfl⟩
    (by simp [Phase.inside, State.move, hholder]) (fun _ _ => Iff.rfl)
    (by simpa [Accounted] using ⟨hknown, hresolve⟩) (hpending ▸ h.taken) h.once
    (fun _ hj _ => hj) fun _ => .inl (by simp [Phase.inside])

theorem Linear.release (hphase : s.phase i = .leaving res) :
    Linear service reqs initial { s.move i (.finished res) with holder := none } := by
  have hholder : s.holder = some i := (h.held i).1 (by simp [hphase, Phase.inside])
  have hknown := h.accounted i
  unfold Accounted at hknown
  simp only [hphase] at hknown
  have hnone : pending s = [] := by
    simp [pending, hholder, hphase, Phase.undecided]
  exact h.of_move (fun j => move_phase_of_ne _) ⟨rfl, rfl⟩ (by simp [Phase.inside])
    (fun j hj => by simp [hholder, Ne.symm hj]) (by simpa [Accounted] using .inr hknown)
    (h.taken.trans (by rw [hnone]; rfl)) h.once (fun _ hj _ => hj) fun _ => .inr ⟨res, by simp⟩

theorem Linear.step (i : Thread) : Linear service reqs initial (step service reqs s i) := by
  have hknown := h.accounted i
  unfold Accounted at hknown
  unfold LockedRegister.step
  cases hphase : s.phase i with
  | ready =>
    have hout : (s.phase i).inside = false := by rw [hphase]; rfl
    have hrunning : ∀ res, s.phase i ≠ .finished res := by simp [hphase]
    cases hprepare : service.prepare (reqs i) with
    | error res | ok arg =>
      refine h.moveOutside hout hrunning rfl ?_
      simp [Accounted, hprepare]
  | waiting arg =>
    cases hholder : s.holder with
    | none => exact h.take hphase hholder
    | some k => exact h
  | holding arg =>
    simp only [hphase] at hknown
    dsimp only
    rcases hresolve : service.resolve arg s.reg with ⟨res, _ | new⟩
    · exact h.decide (by rw [hphase]; rfl) hknown (by rw [hresolve])
        (by rw [Service.apply, hresolve]; rfl)
    · exact h.announce hphase hresolve
  | storing arg res new =>
    simp only [hphase] at hknown
    exact h.decide (by rw [hphase]; rfl) hknown.1 (by rw [hknown.2])
      (by rw [Service.apply, hknown.2]; rfl)
  | leaving res => exact h.release hphase
  | finished res => exact h

end

theorem run_linear (service : Service Req Arg Reg Res) (reqs : Thread → Req) (initial : Reg)
    (schedule : List Thread) : Linear service reqs initial (run service reqs initial schedule) := by
  induction schedule using reverseRecOn with
  | nil => exact linear_start initial
  | append_singleton rest i ih =>
    rw [run, foldl_append]
    exact ih.step i

/-- A thread that never takes the lock never stores. -/
theorem Linear.reg_step_of_error (h : Linear service reqs initial s)
    (herror : service.prepare (reqs i) = .error res) :
    (LockedRegister.step service reqs s i).reg = s.reg := by
  have hknown := h.accounted i
  unfold Accounted at hknown
  cases hphase : s.phase i with
  | storing arg res new | holding arg | waiting arg => simp [hphase, herror] at hknown
  | ready => simp [LockedRegister.step, hphase, herror, State.move]
  | leaving res => simp [LockedRegister.step, hphase, State.move]
  | finished res => simp [LockedRegister.step, hphase]

/-- There is no deadlock: where no thread can move, all have finished. -/
theorem Linear.finished_of_stuck (h : Linear service reqs initial s)
    (hstuck : ∀ i, (LockedRegister.step service reqs s i).phase i = s.phase i) (i : Thread) :
    ∃ res, s.phase i = .finished res := by
  -- The holder of the lock can always move, so the lock is free.
  have hout : ∀ j, (s.phase j).inside = false := by
    intro j
    have hsame := hstuck j
    cases hphase : s.phase j with
    | holding arg =>
      rcases hresolve : service.resolve arg s.reg with ⟨res, _ | new⟩ <;>
        simp [LockedRegister.step, hphase, hresolve] at hsame
    | storing arg res new | leaving res => simp [LockedRegister.step, hphase] at hsame
    | _ => rfl
  have hfree : s.holder = none := by
    rw [Option.eq_none_iff_forall_ne_some]
    intro j hj
    have := (h.held j).2 hj
    rw [hout j] at this
    contradiction
  have hsame := hstuck i
  cases hphase : s.phase i with
  | ready =>
    cases hprepare : service.prepare (reqs i) <;>
      simp [LockedRegister.step, hphase, hprepare] at hsame
  | waiting arg => simp [LockedRegister.step, hphase, hfree] at hsame
  | finished res => exact ⟨res, rfl⟩
  | holding arg | storing arg res new | leaving res => simpa [hphase, Phase.inside] using hout i

end Runs

end LockedRegister
end SonicGnmi.Foundation
