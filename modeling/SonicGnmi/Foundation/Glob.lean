import SonicGnmi.Foundation.GoText

/-!
# Glob patterns

The patterns that Redis takes for `KEYS` and `PSUBSCRIBE`, on strings seen as lists of
characters: `*` stands for any text, `?` for one character, `[...]` for one character of
a set that may be negated with `^` and may have ranges, and a backslash takes the
character after it literally.

* `tokens` — a pattern as a list of tokens; a set that is not closed ends with the pattern;
* `globMatch` — whether a text matches a pattern;
* `Literal` — texts without characters that mean something in a pattern;
* `globMatch_literal`, `globMatch_literal_star` — what such a text matches alone and before
  a star.
-/

namespace SonicGnmi.Foundation
namespace Glob

open List

/-- A part of a pattern. -/
inductive Token where
  | star
  | any
  | lit (c : Char)
  | set (negated : Bool) (ranges : List (Char × Char))
  deriving DecidableEq

/-- A range may be written from its end. -/
def between (range : Char × Char) (c : Char) : Bool :=
  (range.1 ≤ c && c ≤ range.2) || (range.2 ≤ c && c ≤ range.1)

/-- Whether a token that stands for one character accepts it. -/
def Token.accepts : Token → Char → Bool
  | .star, _ => false
  | .any, _ => true
  | .lit d, c => d = c
  | .set negated ranges, c => ranges.any (between · c) != negated

/-- The tokens of a pattern.  Inside a set the ranges read so far are given. -/
def tokens : Option (Bool × List (Char × Char)) → List Char → List Token
  | none, [] => []
  | none, '*' :: rest => .star :: tokens none rest
  | none, '?' :: rest => .any :: tokens none rest
  | none, '[' :: '^' :: rest => tokens (some (true, [])) rest
  | none, '[' :: rest => tokens (some (false, [])) rest
  | none, '\\' :: c :: rest => .lit c :: tokens none rest
  | none, c :: rest => .lit c :: tokens none rest
  | some (negated, ranges), [] => [.set negated ranges]
  | some (negated, ranges), '\\' :: c :: rest =>
    tokens (some (negated, ranges ++ [(c, c)])) rest
  | some (negated, ranges), ']' :: rest => .set negated ranges :: tokens none rest
  | some (negated, ranges), first :: '-' :: last :: rest =>
    tokens (some (negated, ranges ++ [(first, last)])) rest
  | some (negated, ranges), c :: rest => tokens (some (negated, ranges ++ [(c, c)])) rest

/-- Whether some end of a text is accepted. -/
def anySuffix (accepts : List Char → Bool) : List Char → Bool
  | [] => accepts []
  | c :: rest => accepts (c :: rest) || anySuffix accepts rest

/-- Whether a text matches some tokens. -/
def matchTokens : List Token → List Char → Bool
  | [], text => text.isEmpty
  | .star :: rest, text => anySuffix (matchTokens rest) text
  | _ :: _, [] => false
  | token :: rest, c :: text => token.accepts c && matchTokens rest text

/-- Whether a text matches a pattern.  The empty text matches the empty pattern only. -/
def globMatch (pattern text : String) : Bool :=
  if text = "" then pattern = "" else matchTokens (tokens none pattern.toList) text.toList

/-! ## Literal patterns -/

/-- The characters that mean something in a pattern. -/
def special (c : Char) : Bool := c ∈ ['*', '?', '[', '\\']

/-- A text that a pattern takes literally. -/
def Literal (text : String) : Prop := ∀ c ∈ text.toList, special c = false

instance decidableLiteral (text : String) : Decidable (Literal text) :=
  List.decidableBAll (fun c => special c = false) text.toList

theorem literal_append {text more : String} (htext : Literal text) (hmore : Literal more) :
    Literal (text ++ more) := by
  intro c hc
  rw [String.toList_append] at hc
  rcases mem_append.1 hc with hc | hc
  · exact htext c hc
  · exact hmore c hc

theorem literal_toString (n : Nat) : Literal (toString n) := by
  intro c hc
  have hdigit := GoText.isDigit_of_mem_toString hc
  by_contra hspecial
  rw [Bool.not_eq_false, special, decide_eq_true_eq] at hspecial
  simp only [mem_cons, not_mem_nil, or_false] at hspecial
  rcases hspecial with rfl | rfl | rfl | rfl <;> exact absurd hdigit (by decide)

theorem tokens_cons_of_not_special {c : Char} (hc : special c = false) (rest : List Char) :
    tokens none (c :: rest) = .lit c :: tokens none rest := by
  have hne : c ≠ '*' ∧ c ≠ '?' ∧ c ≠ '[' ∧ c ≠ '\\' := by
    simpa [special] using hc
  rw [tokens] <;> simp_all

theorem tokens_literal {chars : List Char} (h : ∀ c ∈ chars, special c = false)
    (rest : List Char) : tokens none (chars ++ rest) = chars.map .lit ++ tokens none rest := by
  induction chars with
  | nil => rfl
  | cons c chars ih =>
    rw [cons_append, tokens_cons_of_not_special (h c mem_cons_self), map_cons,
      cons_append, ih fun d hd => h d (mem_cons_of_mem c hd)]

/-- Literal tokens match a text that begins with their characters, if the rest of it
matches the other tokens. -/
theorem matchTokens_lits (chars : List Char) (rest : List Token) (text : List Char) :
    matchTokens (chars.map .lit ++ rest) text = true ↔
      ∃ tail, text = chars ++ tail ∧ matchTokens rest tail = true := by
  induction chars generalizing text with
  | nil => simp
  | cons c chars ih =>
    cases text with
    | nil => simp [matchTokens]
    | cons d text =>
      rw [map_cons, cons_append, matchTokens, Bool.and_eq_true, ih]
      · constructor
        · rintro ⟨hc, tail, rfl, htail⟩
          obtain rfl : c = d := of_decide_eq_true hc
          exact ⟨tail, rfl, htail⟩
        · rintro ⟨tail, heq, htail⟩
          obtain ⟨rfl, rfl⟩ := cons.inj heq
          exact ⟨decide_eq_true rfl, tail, rfl, htail⟩
      · simp

theorem anySuffix_nil (text : List Char) : anySuffix (matchTokens []) text = true := by
  induction text with
  | nil => rfl
  | cons c text ih => rw [anySuffix, ih, Bool.or_true]

theorem anySuffix_append {accepts : List Char → Bool} (before : List Char) {after : List Char}
    (h : accepts after = true) : anySuffix accepts (before ++ after) = true := by
  induction before with
  | nil =>
    cases after with
    | nil => exact h
    | cons c rest => rw [nil_append, anySuffix, h, Bool.true_or]
  | cons c rest ih => rw [cons_append, anySuffix, ih, Bool.or_true]

theorem globMatch_star {text : String} (hne : text ≠ "") : globMatch "*" text = true := by
  rw [globMatch, if_neg hne]
  exact anySuffix_nil text.toList

/-- A literal text between stars matches every text that has it inside. -/
theorem globMatch_infix {part : String} (hliteral : Literal part) (hne : part ≠ "")
    (before after : String) : globMatch ("*" ++ part ++ "*") (before ++ part ++ after) = true := by
  have htext : before ++ part ++ after ≠ "" := by
    intro hempty
    exact hne (String.append_eq_empty_iff.1 (String.append_eq_empty_iff.1 hempty).1).2
  have htokens : tokens none ("*" ++ part ++ "*").toList =
      .star :: (part.toList.map .lit ++ [.star]) := by
    rw [String.toList_append, String.toList_append, append_assoc]
    change .star :: tokens none (part.toList ++ "*".toList) = _
    rw [tokens_literal hliteral]
    rfl
  rw [globMatch, if_neg htext, htokens, String.toList_append, String.toList_append,
    append_assoc, matchTokens]
  refine anySuffix_append _ ((matchTokens_lits _ _ _).2 ⟨after.toList, rfl, ?_⟩)
  exact anySuffix_nil after.toList

theorem globMatch_literal {pattern : String} (hliteral : Literal pattern) (text : String) :
    globMatch pattern text = true ↔ text = pattern := by
  rw [globMatch]
  by_cases hempty : text = ""
  · subst hempty
    rw [if_pos rfl, decide_eq_true_eq, eq_comm]
  rw [if_neg hempty, ← append_nil pattern.toList, tokens_literal hliteral, tokens, matchTokens_lits]
  constructor
  · rintro ⟨tail, heq, htail⟩
    obtain rfl : tail = [] := isEmpty_iff.1 htail
    rw [append_nil] at heq
    exact String.toList_inj.1 heq
  · rintro rfl
    exact ⟨[], (append_nil _).symm, rfl⟩

/-- A literal text and a star match what begins with the text. -/
theorem globMatch_literal_star {head : String} (hliteral : Literal head) (hne : head ≠ "")
    (text : String) : globMatch (head ++ "*") text = true ↔ ∃ tail, text = head ++ tail := by
  have htokens : tokens none (head ++ "*").toList = head.toList.map .lit ++ [.star] := by
    rw [String.toList_append, tokens_literal hliteral]
    rfl
  rw [globMatch]
  by_cases hempty : text = ""
  · subst hempty
    have hleft : head ++ "*" ≠ "" := by simp
    rw [if_pos rfl, decide_eq_true_eq]
    refine iff_of_false hleft ?_
    rintro ⟨tail, heq⟩
    exact hne (String.append_eq_empty_iff.1 heq.symm).1
  · rw [if_neg hempty, htokens, matchTokens_lits]
    constructor
    · rintro ⟨tail, heq, -⟩
      refine ⟨String.ofList tail, String.toList_inj.1 ?_⟩
      rw [heq, String.toList_append, String.toList_ofList]
    · rintro ⟨tail, rfl⟩
      exact ⟨tail.toList, String.toList_append, anySuffix_nil _⟩

end Glob
end SonicGnmi.Foundation
