import Mathlib.Data.Option.Basic
import Mathlib.Data.List.Basic

/-!
# The text of a JSON string

What stands between the quotation marks of a string in a JSON text: characters, and
escapes that begin with a backslash.

* `units` — the characters and the surrogates that such a text spells, if it is well formed;
* `join` — the characters of these, where two surrogates that fit make one character and any
  other surrogate stands for U+FFFD;
* `decodeBody` — the characters of a string from its text;
* `Plain` — texts without quotation marks, backslashes and control characters;
* `decodeBody_eq_self_iff` — exactly these stand for themselves;
* `WellFormed.of_mem_intercalate` — a text may be cut at its commas.
-/

namespace SonicGnmi.Foundation
namespace JsonString

open List

/-- The value of a hexadecimal digit. -/
def hexDigit (c : Char) : Option Nat :=
  if '0' ≤ c ∧ c ≤ '9' then some (c.toNat - '0'.toNat)
  else if 'a' ≤ c ∧ c ≤ 'f' then some (c.toNat - 'a'.toNat + 10)
  else if 'A' ≤ c ∧ c ≤ 'F' then some (c.toNat - 'A'.toNat + 10)
  else none

/-- The value of four hexadecimal digits. -/
def hex4 (a b c d : Char) : Option Nat := do
  let a ← hexDigit a
  let b ← hexDigit b
  let c ← hexDigit c
  let d ← hexDigit d
  return ((a * 16 + b) * 16 + c) * 16 + d

/-- The character of an escape with one letter. -/
def escaped : Char → Option Char
  | '"' => some '"'
  | '\\' => some '\\'
  | '/' => some '/'
  | 'b' => some '\x08'
  | 'f' => some '\x0c'
  | 'n' => some '\n'
  | 'r' => some '\r'
  | 't' => some '\t'
  | _ => none

/-- A character that stands for itself. -/
def plainChar (c : Char) : Bool := c ≠ '"' && c ≠ '\\' && 0x20 ≤ c.toNat

/-- What one character or one escape spells. -/
inductive CodeUnit where
  | char (c : Char)
  | surrogate (n : Nat)
  deriving DecidableEq

/-- The unit with a given number. -/
def codeUnit (n : Nat) : CodeUnit :=
  if 0xd800 ≤ n ∧ n < 0xe000 then .surrogate n else .char (Char.ofNat n)

/-- The units of a text. -/
def units : List Char → Option (List CodeUnit)
  | [] => some []
  | '\\' :: 'u' :: a :: b :: c :: d :: rest => do
      let n ← hex4 a b c d
      let tail ← units rest
      return codeUnit n :: tail
  | '\\' :: letter :: rest => do
      let c ← escaped letter
      let tail ← units rest
      return .char c :: tail
  | c :: rest => do
      guard (plainChar c)
      let tail ← units rest
      return .char c :: tail

/-- The characters of some units.  A surrogate waits for the unit after it. -/
def join : Option Nat → List CodeUnit → List Char
  | none, [] => []
  | some _, [] => ['�']
  | none, .char c :: rest => c :: join none rest
  | some _, .char c :: rest => '�' :: c :: join none rest
  | none, .surrogate n :: rest => join (some n) rest
  | some high, .surrogate low :: rest =>
    if high < 0xdc00 ∧ 0xdc00 ≤ low then
      Char.ofNat (0x10000 + (high - 0xd800) * 0x400 + (low - 0xdc00)) :: join none rest
    else '�' :: join (some low) rest

/-- The characters of a string from the text between its quotation marks. -/
def decodeBody (text : List Char) : Option (List Char) := (units text).map (join none)

/-- A text of characters that stand for themselves. -/
def Plain (text : List Char) : Prop := ∀ c ∈ text, plainChar c = true

instance decidablePlain (text : List Char) : Decidable (Plain text) :=
  List.decidableBAll (fun c => plainChar c = true) text

/-! ## Plain texts stand for themselves -/

theorem units_cons_of_plainChar {c : Char} (hc : plainChar c = true) (rest : List Char) :
    units (c :: rest) = (units rest).map (.char c :: ·) := by
  have hne : c ≠ '\\' := by
    rintro rfl
    exact absurd hc (by decide)
  rw [units]
  · rw [hc]
    cases units rest <;> rfl
  · rintro _ _ _ _ _ rfl
    exact absurd rfl hne
  · rintro _ _ rfl
    exact absurd rfl hne

variable {text : List Char}

theorem units_of_plain (hplain : Plain text) : units text = some (text.map .char) := by
  induction text with
  | nil => rfl
  | cons c rest ih =>
    rw [units_cons_of_plainChar (hplain c mem_cons_self),
      ih fun d hd => hplain d (mem_cons_of_mem c hd), Option.map_some, map_cons]

theorem join_chars (text : List Char) : join none (text.map .char) = text := by
  induction text with
  | nil => rfl
  | cons c rest ih => rw [map_cons, join, ih]

/-! ## Other texts are longer than what they stand for -/

/-- There is at most one unit for each character, and fewer if some character does not
stand for itself. -/
theorem units_length {out : List CodeUnit} (h : units text = some out) :
    out.length ≤ text.length ∧ (out.length = text.length → Plain text) := by
  fun_induction units text generalizing out with
  | case1 =>
    cases h
    exact ⟨Nat.le_refl _, fun _ c hc => absurd hc not_mem_nil⟩
  | case2 a b c d rest ih | case3 letter rest hnot ih =>
    simp only [Option.bind_eq_bind, Option.bind_eq_some_iff, Option.pure_def,
      Option.some.injEq] at h
    obtain ⟨_, -, tail, htail, rfl⟩ := h
    have hle := (ih htail).1
    simp only [length_cons]
    exact ⟨by omega, fun heq => by omega⟩
  | case4 c rest hescape hletter ih =>
    rw [Option.bind_eq_bind, Option.bind_eq_some_iff] at h
    obtain ⟨u, hguard, h⟩ := h
    rw [Option.bind_eq_bind, Option.bind_eq_some_iff] at h
    obtain ⟨tail, htail, h⟩ := h
    obtain rfl := Option.some.inj h
    have hc : plainChar c = true := by
      by_contra hc
      rw [guard, if_neg hc] at hguard
      cases hguard
    obtain ⟨hle, hplain⟩ := ih htail
    simp only [length_cons]
    refine ⟨by omega, fun heq d hd => ?_⟩
    rcases mem_cons.1 hd with rfl | hd
    · exact hc
    · exact hplain (by omega) d hd

theorem join_length (pending : Option Nat) (us : List CodeUnit) :
    (join pending us).length ≤ us.length + (if pending.isSome then 1 else 0) := by
  fun_induction join pending us with
  | case1 | case2 => simp
  | case3 c rest ih | case4 high c rest ih | case5 n rest ih | case7 high low rest hpair ih =>
    simpa using ih
  | case6 high low rest hpair ih =>
    -- two surrogates make one character
    simp only [length_cons, Option.isSome_none, Option.isSome_some] at ih ⊢
    exact Nat.add_le_add_right (Nat.le_succ_of_le ih) 1

/-- The texts that stand for themselves are the plain ones. -/
theorem decodeBody_eq_self_iff (text : List Char) : decodeBody text = some text ↔ Plain text := by
  constructor
  · intro h
    obtain ⟨us, hus, hjoin⟩ := Option.map_eq_some_iff.1 h
    obtain ⟨hle, hplain⟩ := units_length hus
    have hjoined : text.length ≤ us.length := by
      have := join_length none us
      rw [hjoin] at this
      simpa using this
    exact hplain (by omega)
  · intro hplain
    rw [decodeBody, units_of_plain hplain, Option.map_some, join_chars]

/-! ## Parts between commas -/

theorem isSome_bind_bind {First Second Value : Type} (x : Option First) (y : Option Second)
    (f : First → Second → Value) :
    (x.bind fun a => y.bind fun b => some (f a b)).isSome = (x.isSome && y.isSome) := by
  cases x <;> cases y <;> rfl

theorem digits_of_isSome_units (h : (units ('\\' :: 'u' :: text)).isSome = true) :
    ∃ a b c d rest, text = a :: b :: c :: d :: rest ∧ (hex4 a b c d).isSome = true := by
  rcases text with _ | ⟨a, _ | ⟨b, _ | ⟨c, _ | ⟨d, rest⟩⟩⟩⟩
  · simp [units, escaped] at h
  · simp [units, escaped] at h
  · simp [units, escaped] at h
  · simp [units, escaped] at h
  refine ⟨a, b, c, d, rest, rfl, ?_⟩
  rw [units] at h
  cases hhex : hex4 a b c d with
  | none => simp [hhex] at h
  | some n => rfl

theorem hexDigit_of_isSome_hex4 {a b c d : Char} (h : (hex4 a b c d).isSome = true) :
    ∀ x ∈ [a, b, c, d], (hexDigit x).isSome = true := by
  obtain ⟨n, hn⟩ := Option.isSome_iff_exists.1 h
  simp only [hex4, Option.bind_eq_bind, Option.bind_eq_some_iff] at hn
  obtain ⟨w, hw, x, hx, y, hy, z, hz, -⟩ := hn
  simp [hw, hx, hy, hz]

/-- A comma is never part of an escape, so both sides of it are well formed. -/
theorem isSome_units_of_append_comma {text more : List Char}
    (h : (units (text ++ ',' :: more)).isSome = true) :
    (units text).isSome = true ∧ (units more).isSome = true := by
  fun_induction units text with
  | case1 =>
    rw [nil_append, units_cons_of_plainChar (by decide), Option.isSome_map] at h
    exact ⟨rfl, h⟩
  | case2 a b c d rest ih =>
    simp only [cons_append, units, Option.bind_eq_bind, Option.pure_def, isSome_bind_bind,
      Bool.and_eq_true] at h ⊢
    obtain ⟨hrest, hmore⟩ := ih h.2
    exact ⟨⟨h.1, hrest⟩, hmore⟩
  | case3 letter rest hnot ih =>
    by_cases hu : letter = 'u'
    · -- the comma would be one of the four digits
      subst hu
      obtain ⟨a, b, c, d, tail, htext, hhex⟩ := digits_of_isSome_units h
      have hcomma : ',' ∈ [a, b, c, d] := by
        rcases rest with _ | ⟨w, _ | ⟨x, _ | ⟨y, _ | ⟨z, rest⟩⟩⟩⟩
        · obtain ⟨rfl, -⟩ := cons.inj htext
          simp
        · obtain ⟨rfl, -⟩ := cons.inj (cons.inj htext).2
          simp
        · obtain ⟨rfl, -⟩ := cons.inj (cons.inj (cons.inj htext).2).2
          simp
        · obtain ⟨rfl, -⟩ :=
            cons.inj (cons.inj (cons.inj (cons.inj htext).2).2).2
          simp
        · exact absurd rfl (hnot w x y z rest rfl)
      exact absurd (hexDigit_of_isSome_hex4 hhex ',' hcomma) (by decide)
    · simp only [cons_append] at h
      rw [units] at h
      · simp only [Option.bind_eq_bind, Option.pure_def, isSome_bind_bind, Bool.and_eq_true] at h ⊢
        obtain ⟨hrest, hmore⟩ := ih h.2
        exact ⟨⟨h.1, hrest⟩, hmore⟩
      · exact fun _ _ _ _ _ heq _ => hu heq
  | case4 c rest hescape hletter ih =>
    by_cases hc : plainChar c = true
    · rw [cons_append, units_cons_of_plainChar hc, Option.isSome_map] at h
      obtain ⟨hrest, hmore⟩ := ih h
      obtain ⟨us, hus⟩ := Option.isSome_iff_exists.1 hrest
      rw [guard, if_pos hc, hus]
      exact ⟨rfl, hmore⟩
    · by_cases hbackslash : c = '\\'
      · subst hbackslash
        cases rest with
        | nil => simp [units, escaped] at h
        | cons letter rest => exact absurd rfl (hletter letter rest rfl)
      · simp only [cons_append] at h
        rw [units] at h
        · rw [guard, if_neg hc] at h
          exact absurd h Bool.false_ne_true
        · exact fun _ _ _ _ _ heq _ => hbackslash heq
        · exact fun _ _ heq _ => hbackslash heq

/-- The text of a string. -/
def WellFormed (text : List Char) : Prop := (decodeBody text).isSome = true

theorem Plain.wellFormed (hplain : Plain text) : WellFormed text := by
  rw [WellFormed, (decodeBody_eq_self_iff text).2 hplain]
  rfl

theorem WellFormed.of_mem_intercalate {parts : List (List Char)}
    (h : WellFormed (intercalate [','] parts)) : ∀ part ∈ parts, WellFormed part := by
  induction parts with
  | nil => exact fun part hpart => absurd hpart not_mem_nil
  | cons first rest ih =>
    cases rest with
    | nil =>
      intro part hpart
      rw [mem_singleton.1 hpart]
      simpa [intercalate] using h
    | cons next rest =>
      have hjoin : intercalate [','] (first :: next :: rest) =
          first ++ ',' :: intercalate [','] (next :: rest) := by
        simp [intercalate]
      rw [hjoin, WellFormed, decodeBody, Option.isSome_map] at h
      obtain ⟨hfirst, hmore⟩ := isSome_units_of_append_comma h
      intro part hpart
      rcases mem_cons.1 hpart with rfl | hpart
      · rw [WellFormed, decodeBody, Option.isSome_map]
        exact hfirst
      · refine ih ?_ part hpart
        rw [WellFormed, decodeBody, Option.isSome_map]
        exact hmore

end JsonString
end SonicGnmi.Foundation
