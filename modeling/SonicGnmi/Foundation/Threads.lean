import SonicGnmi.Foundation.Channel

/-!
# Threads over a shared state

Any number of threads run one program.  Each has a local state; all of them read
and write one shared state.  A step starts a new thread or is an action of one
thread, so a list of moves is an interleaving.

* `Program`, `Threads`, `Program.step` — the system and its steps;
* `Program.step_cases` — what a step can do;
* `forall_spawn`, `forall_act` — how a property of all threads is kept by a step;
* `countP_act` — how a step changes the number of threads with a property;
* `PairwiseThreads` — a property of every two threads, kept in the same way.
-/

namespace SonicGnmi.Foundation

open List

/-- What a thread does: its state at the start, and its actions.  The choice
stands for everything that the thread does not decide itself. -/
structure Program (Shared Local Input Choice : Type) where
  init : Input → Local
  act : Nat → Shared → Local → Choice → Option (Shared × Local)

/-- The shared state and the threads that were started. -/
structure Threads (Shared Local : Type) where
  shared : Shared
  threads : List Local := []

/-- A new thread, or an action of a thread. -/
inductive Move (Input Choice : Type) where
  | spawn (input : Input)
  | act (index : Nat) (choice : Choice)
  deriving DecidableEq

variable {Shared Local Input Choice : Type}

namespace Program

/-- One step of the system. -/
def step (program : Program Shared Local Input Choice) (s : Threads Shared Local) :
    Move Input Choice → Option (Threads Shared Local)
  | .spawn input => some { s with threads := s.threads ++ [program.init input] }
  | .act index choice =>
    match s.threads[index]? with
    | none => none
    | some thread =>
      (program.act index s.shared thread choice).map fun next =>
        { shared := next.1, threads := s.threads.set index next.2 }

/-- A step starts a thread or changes one thread and the shared state. -/
theorem step_cases {program : Program Shared Local Input Choice} {s after : Threads Shared Local}
    {move : Move Input Choice} (hstep : program.step s move = some after) :
    (∃ input, move = .spawn input ∧
      after = { s with threads := s.threads ++ [program.init input] }) ∨
    ∃ index choice thread next, move = .act index choice ∧ s.threads[index]? = some thread ∧
      program.act index s.shared thread choice = some next ∧
      after = { shared := next.1, threads := s.threads.set index next.2 } := by
  cases move with
  | spawn input => exact Or.inl ⟨input, rfl, (Option.some.inj hstep).symm⟩
  | act index choice =>
    refine Or.inr ?_
    rw [step] at hstep
    split at hstep
    · cases hstep
    · rename_i thread hthread
      obtain ⟨next, hact, hafter⟩ := Option.map_eq_some_iff.1 hstep
      exact ⟨index, choice, thread, next, rfl, hthread, hact, hafter.symm⟩

end Program

/-! ## Properties of all threads -/

variable {thread : Local} {threads : List Local} {index : Nat}

theorem forall_spawn {P : Nat → Local → Prop} (hold : ∀ i t, threads[i]? = some t → P i t)
    (hnew : P threads.length thread) : ∀ i t, (threads ++ [thread])[i]? = some t → P i t := by
  intro i t ht
  rw [getElem?_append] at ht
  split at ht
  · exact hold i t ht
  rename_i hlength
  obtain ⟨hi, rfl⟩ := List.getElem?_eq_some_iff.1 ht
  have hlast : i = threads.length := by
    rw [length_singleton] at hi
    omega
  subst hlast
  simpa using hnew

theorem forall_act {next : Local} {P : Nat → Local → Prop}
    (hself : P index next) (hothers : ∀ i t, i ≠ index → threads[i]? = some t → P i t) :
    ∀ i t, (threads.set index next)[i]? = some t → P i t := by
  intro i t ht
  by_cases hi : i = index
  · subst hi
    rw [getElem?_set_self'] at ht
    obtain ⟨_, _, rfl⟩ := Option.map_eq_some_iff.1 ht
    exact hself
  · rw [getElem?_set_ne (Ne.symm hi)] at ht
    exact hothers i t hi ht

/-- An action changes the number of threads with a property by what it does to the
thread that acts. -/
theorem countP_act (hthread : threads[index]? = some thread) (p : Local → Bool) (next : Local) :
    (threads.set index next).countP p + (p thread).toNat = threads.countP p + (p next).toNat := by
  induction threads generalizing index with
  | nil => cases hthread
  | cons first rest ih =>
    cases index with
    | zero =>
      cases hthread
      rw [set_cons_zero, countP_cons, countP_cons]
      cases hold : p thread <;> cases hnew : p next <;> simp
    | succ index =>
      have hrest := ih hthread
      rw [set_cons_succ, countP_cons, countP_cons]
      omega

/-- The threads have a property two by two. -/
def PairwiseThreads (R : Local → Local → Prop) (threads : List Local) : Prop :=
  ∀ (i : Nat) (t : Local), threads[i]? = some t →
    ∀ (j : Nat) (u : Local), threads[j]? = some u → i ≠ j → R t u

/-- An action keeps a symmetric property of every two threads when the thread that
acts has it with all others. -/
theorem PairwiseThreads.act {R : Local → Local → Prop}
    {next : Local} (hpair : PairwiseThreads R threads) (hsymm : ∀ t u, R t u → R u t)
    (hself : ∀ (j : Nat) (u : Local), j ≠ index → threads[j]? = some u → R next u) :
    PairwiseThreads R (threads.set index next) := by
  refine forall_act ?_ ?_
  · refine forall_act (fun hne => absurd rfl hne) ?_
    intro j u hj hu _
    exact hself j u hj hu
  · intro i t hi ht
    refine forall_act (fun _ => hsymm _ _ (hself i t hi ht)) ?_
    intro j u _ hu hij
    exact hpair i t ht j u hu hij

theorem PairwiseThreads.spawn {R : Local → Local → Prop}
    (hpair : PairwiseThreads R threads) (hsymm : ∀ t u, R t u → R u t)
    (hnew : ∀ u ∈ threads, R thread u) : PairwiseThreads R (threads ++ [thread]) := by
  refine forall_spawn ?_ ?_
  · intro i t ht
    refine forall_spawn (hpair i t ht) ?_
    intro _
    exact hsymm _ _ (hnew t (mem_of_getElem? ht))
  · refine forall_spawn ?_ (fun hne => absurd rfl hne)
    intro j u hu _
    exact hnew u (mem_of_getElem? hu)

/-- Threads that hold different keys hold as many keys as they are. -/
theorem PairwiseThreads.nodup_filterMap {Key : Type} {key : Local → Option Key}
    (hpair : PairwiseThreads (fun t u => ∀ k, key t = some k → key u ≠ some k) threads) :
    (threads.filterMap key).Nodup := by
  rw [Nodup, pairwise_filterMap, pairwise_iff_getElem]
  intro i j hi hj hij k hk k' hk' heq
  subst heq
  exact hpair i _ (getElem?_eq_getElem hi) j _ (getElem?_eq_getElem hj)
    (Nat.ne_of_lt hij) k hk hk'

end SonicGnmi.Foundation
