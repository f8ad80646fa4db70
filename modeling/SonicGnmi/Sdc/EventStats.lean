import Mathlib.Data.Fintype.Pi
import SonicGnmi.Foundation.GoText

/-!
# The statistics of event sessions

`update_stats` waits for a counter that is not zero, reads the cumulative
counters of COUNTERS_DB, and from then on writes what it read plus the counters
of the session.  It uses what it read only where the read failed.

* `EventStats.step` — events, turns of `update_stats` and new sessions;
* `EventStats.Inv` — what is stored is what the session found, or wrote;
* `eventStats_iff` — a run keeps the counters exactly when every write comes from
  a session that found zero and counted less than `2 ^ 64`.
-/

namespace SonicGnmi.Sdc

open Foundation.GoText List

inductive StatsKey where
  | missed
  | dropped
  | latency
  deriving DecidableEq

instance : Fintype StatsKey := ⟨{.missed, .dropped, .latency}, fun k => by cases k <;> decide⟩

/-- The value of `db_counters` from the result and the error of `HGetAll`. -/
def populate : StatsKey → Option String × Option String → Nat
  | .latency, _ => 0
  | _, (fv, some _) => (decimal (fv.getD "").toList).getD 0
  | _, (_, none) => 0

/-- The number stored under a key, zero where there is none. -/
def storedCount (db : StatsKey → Option String) (k : StatsKey) : Nat :=
  ((db k).bind fun value => decimal value.toList).getD 0

/-- COUNTERS_DB and the session of a client: what it found there, its counters
before their reduction to 64 bits, its failed sends, and the variables of
`update_stats`, where `dbCounters` is set once the main loop runs. -/
structure EventStats where
  db : StatsKey → Option String
  found : StatsKey → Option String := db
  counters : StatsKey → Nat := fun _ => 0
  lastErrors : Nat := 0
  dbCounters : Option (StatsKey → Nat) := none
  wrCounters : Option (StatsKey → Nat) := none

/-- A new session, what `get_events` and `compute_latency` store in the counters, a
failed send, and one round of `update_stats`. -/
inductive EventAction where
  | session
  | missed (cnt : Fin (2 ^ 32))
  | dropped
  | latency (ms : Nat)
  | failedSend
  | turn

namespace EventStats

variable (s : EventStats) (a : EventAction)

/-- The events that the session counted under a key. -/
def own (k : StatsKey) : Nat := s.counters k + if k = .dropped then s.lastErrors else 0

def tmpCounters (k : StatsKey) : Nat := (s.own k + s.dbCounters.elim 0 (· k)) % 2 ^ 64

/-- The step is a turn of the main loop, with other counters than the last. -/
def writes : EventAction → Bool
  | .turn => s.dbCounters.isSome ∧ s.wrCounters ≠ some s.tmpCounters
  | _ => false

def count (k : StatsKey) (n : Nat) : EventStats :=
  { s with counters := Function.update s.counters k n }

/-- A turn is one round of a loop of `update_stats`.  It reads each counter once,
so that an event that arrives while it writes counts for the next turn. -/
def step : EventAction → EventStats
  | .session => { db := s.db }
  | .missed cnt => s.count .missed (s.counters .missed + cnt)
  | .dropped => s.count .dropped (s.counters .dropped + 1)
  | .latency ms => s.count .latency ms
  | .failedSend => { s with lastErrors := s.lastErrors + 1 }
  | .turn =>
    if s.dbCounters.isSome then
      if s.writes .turn then
        { s with
          db := fun k => some (toString (s.tmpCounters k))
          wrCounters := some s.tmpCounters }
      else s
    else if ∃ k, s.counters k % 2 ^ 64 ≠ 0 then
      { s with dbCounters := some fun k => populate k (s.db k, none) }
    else s

/-- A step does not take a cumulative counter back, and a write stores what the
session found plus its own count. -/
def Keeps : Prop :=
  ∀ k ≠ StatsKey.latency, storedCount s.db k ≤ storedCount (s.step a).db k ∧
    (s.writes a → storedCount (s.step a).db k = storedCount s.found k + s.own k)

/-- A write is one of a session that found zero and counted less than `2 ^ 64`. -/
def Fresh : Prop :=
  s.writes a → ∀ k ≠ StatsKey.latency, storedCount s.found k = 0 ∧ s.own k < 2 ^ 64

/-- What is stored is what the session found or a count that it had: it added
nothing. -/
structure Inv : Prop where
  stored : ∀ k ≠ StatsKey.latency, storedCount s.db k = storedCount s.found k ∨
    ∃ n ≤ s.own k, storedCount s.db k = n % 2 ^ 64
  nothingRead : ∀ k, s.dbCounters.elim 0 (· k) = 0

variable {s} {a} {k : StatsKey}

theorem storedCount_step (hinv : s.Inv) : storedCount (s.step a).db k =
    if s.writes a then s.own k % 2 ^ 64 else storedCount s.db k := by
  cases a with
  | turn =>
    rw [step]
    split_ifs with hmain hwrites
    · rw [storedCount, Option.bind_some, decimal_toString, Option.getD_some, tmpCounters,
        hinv.nothingRead, Nat.add_zero]
    · rfl
    all_goals simp_all [writes]
  | _ => rfl

theorem keeps_iff (hinv : s.Inv) : s.Keeps a ↔ s.Fresh a := by
  unfold Keeps Fresh
  simp only [storedCount_step hinv]
  cases s.writes a with
  | false => simp
  | true =>
    refine ⟨fun hkeeps _ k hk => ?_, fun hfresh k hk => ?_⟩
    · have hsum := (hkeeps k hk).2 rfl
      have hlt := Nat.mod_lt (s.own k) (Nat.two_pow_pos 64)
      simp only [if_true] at hsum
      omega
    · obtain ⟨hzero, hsmall⟩ := hfresh rfl k hk
      simp only [if_true, Nat.mod_eq_of_lt hsmall, hzero, Nat.zero_add, implies_true, and_true]
      rcases hinv.stored k hk with hfound | ⟨n, hn, hstored⟩
      · exact (hfound.trans hzero).trans_le (Nat.zero_le _)
      · exact hstored.trans_le ((Nat.mod_le n _).trans hn)

theorem found_step (h : a ≠ .session) (hk : k ≠ .latency) :
    (s.step a).found = s.found ∧ s.own k ≤ (s.step a).own k := by
  cases a with
  | session => exact absurd rfl h
  | turn =>
    rw [step]
    split_ifs <;> exact ⟨rfl, le_rfl⟩
  | _ => cases k <;> simp_all [step, own, count, Function.update]

theorem Inv.step (hinv : s.Inv) : (s.step a).Inv := by
  by_cases ha : a = .session
  · cases ha
    exact ⟨fun _ _ => .inl rfl, fun _ => rfl⟩
  refine ⟨fun k hk => ?_, fun k => ?_⟩
  · obtain ⟨hfound, hown⟩ := found_step ha hk
    rw [hfound, storedCount_step hinv]
    split
    · exact .inr ⟨_, hown, rfl⟩
    · exact (hinv.stored k hk).imp_right fun ⟨n, hn, h⟩ => ⟨n, hn.trans hown, h⟩
  · cases a with
    | session => rfl
    | turn =>
      rw [EventStats.step]
      split_ifs
      · exact hinv.nothingRead k
      · exact hinv.nothingRead k
      -- the read does not fail, so that nothing is taken from it
      · cases k <;> rfl
      · exact hinv.nothingRead k
    | _ => exact hinv.nothingRead k

end EventStats

def eventRun (db : StatsKey → Option String) (actions : List EventAction) : EventStats :=
  actions.foldl EventStats.step { db := db }

/-- **Cumulative statistics.**  A run keeps the cumulative counters exactly when
every write in it is one of a session that found zero and counted less than
`2 ^ 64`. -/
theorem eventStats_iff (db : StatsKey → Option String) (actions : List EventAction) :
    (∀ before a after, actions = before ++ a :: after → (eventRun db before).Keeps a) ↔
      ∀ before a after, actions = before ++ a :: after → (eventRun db before).Fresh a := by
  have hinv : ∀ before, (eventRun db before).Inv := fun before =>
    foldlRecOn before EventStats.step ⟨fun _ _ => .inl rfl, fun _ => rfl⟩ fun _ h _ _ => h.step
  simp only [EventStats.keeps_iff (hinv _)]

/-- Two missed events of one session, then one of the next. -/
theorem eventStats_goes_back :
    let first : List EventAction := [.missed 2, .turn, .turn]
    storedCount (eventRun (fun _ => none) first).db .missed = 2 ∧
      storedCount (eventRun (fun _ => none) (first ++ [.session, .missed 1, .turn, .turn])).db
        .missed = 1 := by
  decide +kernel

end SonicGnmi.Sdc
