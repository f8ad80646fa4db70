import Mathlib.Algebra.Order.Group.Int
import SonicGnmi.Foundation.GoText

/-!
# Interface counters over a period

A `show interface counters` with a period reads the counters twice and reports
the difference.  Each read is itself a difference, to what `portstat` cached
when the counters were cleared.  Numbers are cut to 64 bits with a sign and what
is negative becomes zero, so the cached value does not always cancel.
-/

namespace SonicGnmi.ShowClient

open Foundation.GoText

/-! ## Numbers -/

/-- The value of `strconv.ParseUint` whatever its error: zero for what is no
number, the largest value for what does not fit. -/
def parseUint : List Char → Nat → Nat
  | [], n => n
  | c :: rest, n =>
    if c.isDigit = false then
      0
    else if 2 ^ 64 ≤ 10 * n + (c.toNat - '0'.toNat) then
      2 ^ 64 - 1
    else
      parseUint rest (10 * n + (c.toNat - '0'.toNat))

/-- The value of an `int64` that is closest to a number. -/
def clamp (i : Int) : Int := max (-2 ^ 63) (min (2 ^ 63 - 1) i)

/-- The value of `strconv.ParseInt` whatever its error. -/
def parseInt (s : String) : Int :=
  match s.toList with
  | '-' :: digits => clamp (-parseUint digits 0)
  | '+' :: digits => clamp (parseUint digits 0)
  | digits => clamp (parseUint digits 0)

theorem parseUint_digits {chars : List Char} (h : ∀ c ∈ chars, c.isDigit = true) (n : Nat)
    (hn : n < 2 ^ 64) : parseUint chars n = min (2 ^ 64 - 1) (Nat.ofDigitChars 10 chars n) := by
  induction chars generalizing n with
  | nil => rw [parseUint, Nat.ofDigitChars_nil]; omega
  | cons c rest ih =>
    rw [parseUint, if_neg (by simp [h c List.mem_cons_self]), Nat.ofDigitChars_cons]
    split_ifs with hlarge
    · -- What follows only makes the number larger.
      rw [Nat.ofDigitChars_eq_ofDigitChars_zero]
      have := Nat.le_mul_of_pos_left (10 * n + (c.toNat - '0'.toNat))
        (Nat.pow_pos (n := rest.length) (show 0 < 10 by decide))
      omega
    · exact ih (fun d hd => h d (List.mem_cons_of_mem _ hd)) _ (by omega)

theorem parseUint_toString (n : Nat) :
    parseUint (toString n).toList 0 = min (2 ^ 64 - 1) n := by
  rw [parseUint_digits (fun c => isDigit_of_mem_toString) 0 (by decide), Nat.toString_eq_repr,
    Nat.toList_repr, Nat.ofDigitChars_toDigits (by decide) (by decide)]

theorem parseInt_toString (i : Int) : parseInt (toString i) = clamp i := by
  unfold parseInt clamp
  cases i with
  | ofNat n =>
    rw [show toString (Int.ofNat n) = toString n from rfl]
    split
    · exact absurd ‹_› (toString_ne_cons (by decide))
    · exact absurd ‹_› (toString_ne_cons (by decide))
    · rw [parseUint_toString, Int.ofNat_eq_natCast]; omega
  | negSucc n =>
    rw [toList_toString_negSucc]
    simp only [parseUint_toString]
    omega

/-! ## Snapshots -/

/-- The counters of an interface: those a difference is taken of, and the
codewords of the FEC histogram. -/
inductive Counter
  | rxOk | rxErr | rxDrp | rxOvr | txOk | txErr | txDrp | txOvr
  | fecCorr | fecUncorr | fecSymbolErr | trimPkts | trimSent | trimDrp
  | rx64 | rx65_127 | rx128_255 | rx256_511 | rx512_1023 | rx1024_1518 | rx1519_2047
  | rx2048_4095 | rx4096_9216 | rx9217_16383
  | tx64 | tx65_127 | tx128_255 | tx256_511 | tx512_1023 | tx1024_1518 | tx1519_2047
  | tx2048_4095 | tx4096_9216 | tx9217_16383
  | rxAll | rxUnicast | rxMulticast | rxBroadcast | txAll | txUnicast | txMulticast | txBroadcast
  | rxJabbers | rxFragments | rxUndersize | rxOverruns
  | fecErrCW (bin : Fin 16)

structure InterfaceCountersSnapshot where
  (state rxBps rxPps rxUtil txBps txPps txUtil fecPreBer fecPostBer : String)
  counter : Counter → String
  timestampClearedCounters : String

/-- Snapshots of the interfaces by name. -/
abbrev Snapshots := String → Option InterfaceCountersSnapshot

def defaultMissingCounterValue : String := "N/A"

def defaultTimestamp : String := "None"

/-- The difference of two `int64`, zero for a negative one unless it is raw. -/
def difference (raw : Bool) (oldCounterValue newCounterValue : Int) : Int :=
  let diff := (newCounterValue - oldCounterValue + 2 ^ 63) % 2 ^ 64 - 2 ^ 63
  if raw = false ∧ diff < 0 then 0 else diff

def calculateDiff (raw : Bool) (oldValue newValue : String) : String :=
  if newValue = defaultMissingCounterValue then
    defaultMissingCounterValue
  else
    let oldValue := if oldValue = defaultMissingCounterValue then "0" else oldValue
    toString (difference raw (parseInt oldValue) (parseInt newValue))

/-- Dropped trimmed packets may become negative. -/
def Counter.raw : Counter → Bool
  | .trimDrp => true
  | _ => false

/-- The value of a counter in a difference: codewords stay as they are. -/
def Counter.diff : Counter → String → String → String
  | .fecErrCW _, _, newValue => newValue
  | c, oldValue, newValue => calculateDiff c.raw oldValue newValue

def getTimestampClearedCounters (oldTS newTS : String) : String :=
  if oldTS = defaultTimestamp ∧ newTS = defaultTimestamp then
    defaultTimestamp
  else if newTS ≠ defaultTimestamp then
    newTS
  else
    oldTS

def calculateDiffSnapshot (oldSnapshot newSnapshot : Snapshots) : Snapshots := fun iface =>
  (newSnapshot iface).map fun newResp =>
    (oldSnapshot iface).elim newResp fun oldResp =>
      { newResp with
        counter := fun c => c.diff (oldResp.counter c) (newResp.counter c)
        timestampClearedCounters := getTimestampClearedCounters
          oldResp.timestampClearedCounters newResp.timestampClearedCounters }

/-- The end of `getInterfaceCountersSnapshot`: what the databases hold, relative
to the cache of `portstat` where there is one. -/
def getInterfaceCountersSnapshot (response : Except String Snapshots) (cache : Option Snapshots) :
    Except String Snapshots :=
  response.map fun response => cache.elim response (calculateDiffSnapshot · response)

/-- The databases are read once, and once more after the period. -/
def snapshotWithOptionalDiff (first second : Except String Snapshots) (cache : Option Snapshots)
    (period : Int) (takeDiffSnapshot : Bool) : Except String Snapshots := do
  let oldSnapshot ← getInterfaceCountersSnapshot first cache
  if takeDiffSnapshot = true ∧ 0 < period then
    let newSnapshot ← getInterfaceCountersSnapshot second cache
    return calculateDiffSnapshot oldSnapshot newSnapshot
  return oldSnapshot

/-! ## What a period reports -/

theorem calculateDiff_toString (raw : Bool) (oldValue : String) (i : Int) :
    calculateDiff raw oldValue (toString i) =
      toString (difference raw (parseInt oldValue) (clamp i)) := by
  have hne : toString i ≠ defaultMissingCounterValue := by
    intro h
    have hlist := congrArg String.toList h
    cases i with
    | ofNat n => exact toString_ne_cons (n := n) (c := 'N') (by decide) hlist
    | negSucc n =>
      rw [toList_toString_negSucc] at hlist
      exact absurd (List.cons.inj hlist).1 (by decide)
  rw [calculateDiff, if_neg hne, parseInt_toString]
  dsimp only
  split_ifs with hmissing
  · rw [hmissing]; rfl
  · rfl

/-- What one read gives for a counter, from its value in the cache and its raw
value. -/
theorem read_value (raw : Bool) (cached : Option String) (r : Nat) :
    ∃ i : Int, cached.elim (toString r) (calculateDiff raw · (toString r)) = toString i ∧
      clamp i = difference raw (cached.elim 0 parseInt) (clamp r) := by
  cases cached with
  | none => exact ⟨r, rfl, by cases raw <;> simp [difference, clamp] <;> omega⟩
  | some oldValue =>
    refine ⟨_, calculateDiff_toString raw oldValue r, ?_⟩
    generalize clamp r = n
    cases raw <;> simp [difference, clamp] <;> omega

theorem calculateDiff_iff (raw : Bool) (cached : Option String) {r₁ r₂ : Nat} (hle : r₁ ≤ r₂)
    (hlt : r₂ < 2 ^ 64) :
    calculateDiff raw (cached.elim (toString r₁) (calculateDiff raw · (toString r₁)))
        (cached.elim (toString r₂) (calculateDiff raw · (toString r₂))) = toString (r₂ - r₁) ↔
      r₁ = r₂ ∨ r₂ < 2 ^ 63 ∧ (raw = true ∨
        cached.elim 0 parseInt ≤ r₁ ∧ r₂ - cached.elim 0 parseInt < 2 ^ 63) := by
  obtain ⟨i, hi, hclamp⟩ := read_value raw cached r₁
  obtain ⟨j, hj, hclamp'⟩ := read_value raw cached r₂
  rw [hi, hj, calculateDiff_toString, parseInt_toString, hclamp, hclamp']
  have hcached : -2 ^ 63 ≤ cached.elim 0 parseInt ∧ cached.elim 0 parseInt < 2 ^ 63 := by
    cases cached with
    | none => decide
    | some oldValue =>
      simp only [Option.elim_some, parseInt, clamp]
      split <;> omega
  generalize cached.elim 0 parseInt = base at hcached ⊢
  generalize hd : difference _ _ _ = d
  have hnonneg : 0 ≤ d ∧ (d.toNat = r₂ - r₁ ↔
      r₁ = r₂ ∨ r₂ < 2 ^ 63 ∧ (raw = true ∨ base ≤ r₁ ∧ r₂ - base < 2 ^ 63)) := by
    subst hd
    cases raw <;> simp [difference, clamp] <;> omega
  rw [← hnonneg.2, ← toString_inj, ← Int.toNat_of_nonneg hnonneg.1]
  rfl

/-- The raw values for which the number in the cache cancels. -/
def Counter.Cancels (cached : Int) (r₁ r₂ : Nat) : Counter → Prop
  | .fecErrCW _ => r₁ = 0
  | c => r₁ = r₂ ∨ r₂ < 2 ^ 63 ∧ (c.raw = true ∨ cached ≤ r₁ ∧ r₂ - cached < 2 ^ 63)

/-- The number of a counter in the cache, zero where it has none. -/
def cachedCount (cache : Option Snapshots) (iface : String) (c : Counter) : Int :=
  ((cache.bind (· iface)).map (·.counter c)).elim 0 parseInt

theorem diff_iff (c : Counter) (cached : Option String) {r₁ r₂ : Nat} (hle : r₁ ≤ r₂)
    (hlt : r₂ < 2 ^ 64) :
    c.diff (cached.elim (toString r₁) (c.diff · (toString r₁)))
        (cached.elim (toString r₂) (c.diff · (toString r₂))) = toString (r₂ - r₁) ↔
      c.Cancels (cached.elim 0 parseInt) r₁ r₂ := by
  cases c with
  | fecErrCW bin =>
    have hread : cached.elim (toString r₂) (fun _ => toString r₂) = toString r₂ := by
      cases cached <;> rfl
    simp only [Counter.diff, Counter.Cancels, hread, toString_inj]
    omega
  | _ => exact calculateDiff_iff _ cached hle hlt

section

variable (cache : Option Snapshots) {iface : String} {c : Counter}

theorem getInterfaceCountersSnapshot_counter {response : Snapshots} {r : Nat}
    (h : (response iface).map (·.counter c) = some (toString r)) :
    ∃ report, getInterfaceCountersSnapshot (.ok response) cache = .ok report ∧
      (report iface).map (·.counter c) =
        some (((cache.bind (· iface)).map (·.counter c)).elim (toString r)
          (c.diff · (toString r))) := by
  refine ⟨_, rfl, ?_⟩
  cases cache with
  | none => exact h
  | some cached =>
    obtain ⟨s, hs, hr⟩ := Option.map_eq_some_iff.1 h
    simp only [Option.elim_some, calculateDiffSnapshot, hs, Option.map_some, Option.bind_some, ← hr]
    cases cached iface <;> rfl

/-- Where the raw values of a counter are `r₁` and `r₂`, the period reports
`r₂ - r₁` exactly if the number in the cache cancels. -/
theorem snapshotWithOptionalDiff_iff {first second : Snapshots} {period : Int} {r₁ r₂ : Nat}
    (hperiod : 0 < period) (hfirst : (first iface).map (·.counter c) = some (toString r₁))
    (hsecond : (second iface).map (·.counter c) = some (toString r₂)) (hle : r₁ ≤ r₂)
    (hlt : r₂ < 2 ^ 64) :
    ((snapshotWithOptionalDiff (.ok first) (.ok second) cache period true).map fun report =>
        (report iface).map (·.counter c)) = .ok (some (toString (r₂ - r₁))) ↔
      c.Cancels (cachedCount cache iface c) r₁ r₂ := by
  obtain ⟨old, hold, hc₁⟩ := getInterfaceCountersSnapshot_counter cache hfirst
  obtain ⟨new, hnew, hc₂⟩ := getInterfaceCountersSnapshot_counter cache hsecond
  rw [cachedCount, ← diff_iff c _ hle hlt, snapshotWithOptionalDiff, hold, hnew]
  obtain ⟨s₁, hs₁, hr₁⟩ := Option.map_eq_some_iff.1 hc₁
  obtain ⟨s₂, hs₂, hr₂⟩ := Option.map_eq_some_iff.1 hc₂
  simp [hperiod, bind, Except.bind, Except.map, pure, Except.pure, calculateDiffSnapshot, hs₁, hs₂,
    hr₁, hr₂]

end

/-- One value for each counter of each interface. -/
def snapshots (value : String) : Snapshots := fun _ =>
  some ⟨"U", "", "", "", "", "", "", "", "", fun _ => value, defaultTimestamp⟩

/-- Without a cache small numbers are reported as they are. -/
theorem snapshotWithOptionalDiff_uncached :
    ((snapshotWithOptionalDiff (.ok (snapshots "100")) (.ok (snapshots "150")) none 5 true).map
      fun report => (report "Ethernet0").map (·.counter .rxOk)) = .ok (some "50") :=
  have h := @snapshotWithOptionalDiff_iff none "Ethernet0" .rxOk (snapshots "100")
    (snapshots "150") 5 100 150 (by decide) rfl rfl (by decide) (by decide)
  h.2 (Or.inr (by decide))

/-- Counters that were reset since they were cached: 150 packets are reported as 50. -/
theorem snapshotWithOptionalDiff_reset :
    ((snapshotWithOptionalDiff (.ok (snapshots "0")) (.ok (snapshots "150"))
      (some (snapshots "100")) 5 true).map fun report =>
        (report "Ethernet0").map (·.counter .rxOk)) = .ok (some "50") := by
  decide +kernel

end SonicGnmi.ShowClient
