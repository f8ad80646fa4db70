import Mathlib.Data.List.Basic
import Mathlib.Data.String.Basic

/-!
# Go's string functions

The functions of the package `strings` that the server uses, on strings seen as
lists of characters, and the texts of numbers and durations.
-/

namespace SonicGnmi.Foundation
namespace GoText

open List Option

def hasPrefix (s head : String) : Bool :=
  head.toList.isPrefixOf s.toList

def trimPrefix (s head : String) : String :=
  if hasPrefix s head then String.ofList (s.toList.drop head.toList.length) else s

def hasSuffix (s tail : String) : Bool :=
  tail.toList.isSuffixOf s.toList

def trimSuffix (s tail : String) : String :=
  if hasSuffix s tail then
    String.ofList (s.toList.take (s.toList.length - tail.toList.length))
  else
    s

/-- The text before and after the first occurrence of a separator. -/
def cutChars (separator : List Char) : List Char → Option (List Char × List Char)
  | [] => if separator = [] then some ([], []) else none
  | c :: rest =>
    if separator.isPrefixOf (c :: rest) then
      some ([], (c :: rest).drop separator.length)
    else
      (cutChars separator rest).map fun parts => (c :: parts.1, parts.2)

def contains (s part : String) : Bool := (cutChars part.toList s.toList).isSome

/-- `strings.SplitN(s, separator, 2)`; an empty separator takes off the first
character. -/
def splitInTwo (s separator : String) : List String :=
  if separator = "" then
    match s.toList with
    | [] => []
    | [c] => [String.ofList [c]]
    | c :: rest => [String.ofList [c], String.ofList rest]
  else
    match cutChars separator.toList s.toList with
    | none => [s]
    | some parts => [String.ofList parts.1, String.ofList parts.2]

/-- The parts of a character list between the separators. -/
def splitChars (separator : Char) : List Char → List (List Char)
  | [] => [[]]
  | c :: rest =>
    if c = separator then
      [] :: splitChars separator rest
    else
      match splitChars separator rest with
      | [] => [[c]]
      | part :: parts => (c :: part) :: parts

variable (s : String)

/-- `strings.Split` with a separator of one character. -/
def split (separator : Char) : List String :=
  (splitChars separator s.toList).map String.ofList

/-- The parts of a character list between separators of any length, with a bound on the
number of separators. -/
def splitAtMost (separator : List Char) : Nat → List Char → List (List Char)
  | 0, chars => [chars]
  | bound + 1, chars =>
    match cutChars separator chars with
    | none => [chars]
    | some parts => parts.1 :: splitAtMost separator bound parts.2

/-- `strings.Split`; an empty separator splits after every character. -/
def splitString (s separator : String) : List String :=
  if separator = "" then s.toList.map fun c => String.ofList [c]
  else (splitAtMost separator.toList s.toList.length s.toList).map String.ofList

def isSpace (c : Char) : Bool :=
  c.toNat ∈ [0x09, 0x0a, 0x0b, 0x0c, 0x0d, 0x20, 0x85, 0xa0, 0x1680, 0x2028, 0x2029, 0x202f,
    0x205f, 0x3000] || decide (0x2000 ≤ c.toNat ∧ c.toNat ≤ 0x200a)

def trimSpace : String :=
  String.ofList ((s.toList.dropWhile isSpace).reverse.dropWhile isSpace).reverse

/-- `strings.ReplaceAll` for a pattern of two characters and a replacement of
one. -/
def replacePair (first second replacement : Char) : List Char → List Char
  | [] => []
  | [c] => [c]
  | c :: d :: rest =>
    if c = first ∧ d = second then
      replacement :: replacePair first second replacement rest
    else
      c :: replacePair first second replacement (d :: rest)

/-- The text after the last occurrence of a character, if it occurs. -/
def afterLast (separator : Char) : Option String :=
  if separator ∈ s.toList then
    some (String.ofList (s.toList.reverse.takeWhile (· ≠ separator)).reverse)
  else
    none

/-- The number that a text of decimal digits denotes. -/
def decimal (chars : List Char) : Option Nat :=
  if chars ≠ [] ∧ chars.all Char.isDigit = true then some (Nat.ofDigitChars 10 chars 0) else none

/-- `strconv.Atoi`: an optional sign and decimal digits, in the range of 64
bits. -/
def atoi : Option Int :=
  match s.toList with
  | '-' :: digits =>
    (decimal digits).bind fun n => if n ≤ 2 ^ 63 then some (-(n : Int)) else none
  | '+' :: digits => (decimal digits).bind fun n => if n < 2 ^ 63 then some (n : Int) else none
  | digits => (decimal digits).bind fun n => if n < 2 ^ 63 then some (n : Int) else none

theorem splitChars_ne_nil (separator : Char) (chars : List Char) :
    splitChars separator chars ≠ [] := by
  cases chars with
  | nil => exact cons_ne_nil _ _
  | cons c rest =>
    rw [splitChars]
    split
    · exact cons_ne_nil _ _
    · split <;> exact cons_ne_nil _ _

theorem splitChars_append (separator : Char) (chars : List Char) {more : List Char}
    (hmore : separator ∉ more) :
    ∃ parts last, splitChars separator chars = parts ++ [last] ∧
      splitChars separator (chars ++ more) = parts ++ [last ++ more] := by
  induction chars with
  | nil =>
    refine ⟨[], [], rfl, ?_⟩
    simp only [nil_append]
    induction more with
    | nil => rfl
    | cons c rest ih =>
      rw [mem_cons, not_or] at hmore
      rw [splitChars, if_neg (Ne.symm hmore.1), ih hmore.2]
  | cons c rest ih =>
    obtain ⟨parts, last, hsplit, happend⟩ := ih
    rw [cons_append, splitChars, splitChars, hsplit, happend]
    by_cases hc : c = separator
    · exact ⟨[] :: parts, last, by simp [hc], by simp [hc]⟩
    · cases parts with
      | nil => exact ⟨[], c :: last, by simp [hc], by simp [hc]⟩
      | cons part parts => exact ⟨(c :: part) :: parts, last, by simp [hc], by simp [hc]⟩

theorem split_ne_nil (separator : Char) : split s separator ≠ [] := by
  intro h
  exact splitChars_ne_nil separator s.toList (map_eq_nil_iff.1 h)

variable {chars : List Char} {separator : Char} {parts : List (List Char)}

theorem not_mem_of_mem_splitChars {part : List Char}
    (hpart : part ∈ splitChars separator chars) : separator ∉ part := by
  induction chars generalizing part with
  | nil =>
    rw [splitChars, mem_singleton] at hpart
    rw [hpart]
    exact not_mem_nil
  | cons c rest ih =>
    obtain ⟨first, parts, hparts⟩ := exists_cons_of_ne_nil (splitChars_ne_nil separator rest)
    rw [splitChars] at hpart
    by_cases hc : c = separator
    · rw [if_pos hc, mem_cons] at hpart
      rcases hpart with rfl | hpart
      · exact not_mem_nil
      · exact ih hpart
    · rw [if_neg hc, hparts] at hpart
      rw [hparts] at ih
      rcases mem_cons.1 hpart with rfl | hrest
      · rw [mem_cons, not_or]
        exact ⟨Ne.symm hc, ih mem_cons_self⟩
      · exact ih (mem_cons_of_mem _ hrest)

theorem splitChars_of_not_mem (h : separator ∉ chars) : splitChars separator chars = [chars] := by
  obtain ⟨parts, last, hsplit, happend⟩ := splitChars_append separator [] h
  rw [splitChars] at hsplit
  obtain ⟨rfl, rfl⟩ : parts = [] ∧ last = [] := by
    cases parts with
    | nil => exact ⟨rfl, (cons.inj hsplit).1.symm⟩
    | cons part parts => simp at hsplit
  simpa using happend

theorem splitChars_append_cons (separator : Char) (before after : List Char) :
    splitChars separator (before ++ separator :: after) =
      splitChars separator before ++ splitChars separator after := by
  induction before with
  | nil =>
    change (if separator = separator then [] :: splitChars separator after else _) = _
    rw [if_pos rfl]
    rfl
  | cons c rest ih =>
    rw [cons_append, splitChars, splitChars, ih]
    split
    · rfl
    · cases hparts : splitChars separator rest with
      | nil => exact absurd hparts (splitChars_ne_nil separator rest)
      | cons part parts => rfl

theorem splitChars_intercalate_flatMap (hne : parts ≠ []) :
    splitChars separator (intercalate [separator] parts) =
      parts.flatMap (splitChars separator) := by
  induction parts with
  | nil => exact absurd rfl hne
  | cons part rest ih =>
    cases rest with
    | nil => simp [intercalate]
    | cons next more =>
      have hjoin : intercalate [separator] (part :: next :: more) =
          part ++ separator :: intercalate [separator] (next :: more) := by
        simp [intercalate, intersperse]
      rw [hjoin, splitChars_append_cons, ih (cons_ne_nil _ _)]
      rfl

/-- Splitting a join gives the parts back. -/
theorem splitChars_intercalate (hne : parts ≠ []) (hparts : ∀ part ∈ parts, separator ∉ part) :
    splitChars separator (intercalate [separator] parts) = parts := by
  rw [splitChars_intercalate_flatMap hne,
    flatMap_congr fun part hpart => splitChars_of_not_mem (hparts part hpart)]
  exact flatMap_singleton' parts

theorem hasPrefix_iff {s head : String} : hasPrefix s head = true ↔ ∃ rest, s = head ++ rest := by
  rw [hasPrefix, isPrefixOf_iff_prefix]
  constructor
  · rintro ⟨rest, hrest⟩
    refine ⟨String.ofList rest, String.toList_inj.1 ?_⟩
    rw [String.toList_append, String.toList_ofList, hrest]
  · rintro ⟨rest, rfl⟩
    rw [String.toList_append]
    exact prefix_append _ _

theorem trimPrefix_append (head rest : String) : trimPrefix (head ++ rest) head = rest := by
  rw [trimPrefix, if_pos (hasPrefix_iff.2 ⟨rest, rfl⟩), String.toList_append, drop_left,
    String.ofList_toList]

theorem hasSuffix_iff {s tail : String} : hasSuffix s tail = true ↔ ∃ start, s = start ++ tail := by
  rw [hasSuffix, isSuffixOf_iff_suffix]
  constructor
  · rintro ⟨start, hstart⟩
    refine ⟨String.ofList start, String.toList_inj.1 ?_⟩
    rw [String.toList_append, String.toList_ofList, hstart]
  · rintro ⟨start, rfl⟩
    rw [String.toList_append]
    exact suffix_append _ _

@[simp] theorem hasSuffix_append (start tail : String) : hasSuffix (start ++ tail) tail = true :=
  hasSuffix_iff.2 ⟨start, rfl⟩

theorem trimSuffix_append (start tail : String) : trimSuffix (start ++ tail) tail = start := by
  rw [trimSuffix, if_pos (hasSuffix_append _ _), String.toList_append,
    length_append, Nat.add_sub_cancel, take_left, String.ofList_toList]

theorem cutChars_append (before after : List Char) (hbefore : separator ∉ before) :
    cutChars [separator] (before ++ separator :: after) = some (before, after) := by
  induction before with
  | nil => simp [cutChars]
  | cons c rest ih =>
    rw [mem_cons, not_or] at hbefore
    rw [cons_append, cutChars, if_neg, ih hbefore.2]
    · rfl
    · simpa using hbefore.1

theorem cutChars_of_not_mem (h : separator ∉ chars) : cutChars [separator] chars = none := by
  induction chars with
  | nil => rfl
  | cons c rest ih =>
    rw [mem_cons, not_or] at h
    rw [cutChars, ih h.2, if_neg (by simpa using h.1)]
    rfl

theorem not_mem_of_cutChars_none (h : cutChars [separator] chars = none) : separator ∉ chars := by
  intro hmem
  obtain ⟨before, after, rfl, hbefore⟩ := eq_append_cons_of_mem hmem
  rw [cutChars_append before after hbefore] at h
  cases h

theorem not_mem_of_cutChars {parts : List Char × List Char}
    (h : cutChars [separator] chars = some parts) : separator ∉ parts.1 := by
  induction chars generalizing parts with
  | nil => cases h
  | cons c rest ih =>
    rw [cutChars] at h
    split at h
    · cases h
      exact not_mem_nil
    · rename_i hne
      obtain ⟨tail, htail, rfl⟩ := map_eq_some_iff.1 h
      rw [mem_cons, not_or]
      exact ⟨by simpa using hne, ih htail⟩

theorem ne_empty_of_toList {s : String} {c : Char} (h : s.toList = [c]) : s ≠ "" := by
  rintro rfl
  cases h

theorem splitInTwo_append {separator : String} {c : Char} (before after : String)
    (hseparator : separator.toList = [c]) (hbefore : c ∉ before.toList) :
    splitInTwo (before ++ separator ++ after) separator = [before, after] := by
  rw [splitInTwo, if_neg (ne_empty_of_toList hseparator), String.toList_append,
    String.toList_append, hseparator, append_assoc, singleton_append, cutChars_append _ _ hbefore]
  simp

theorem intercalate_splitChars (separator : Char) (chars : List Char) :
    intercalate [separator] (splitChars separator chars) = chars := by
  induction chars with
  | nil => rfl
  | cons c rest ih =>
    obtain ⟨part, parts, hparts⟩ := exists_cons_of_ne_nil (splitChars_ne_nil separator rest)
    rw [splitChars, hparts]
    rw [hparts] at ih
    by_cases hc : c = separator
    · rw [if_pos hc, hc]
      simpa [intercalate, intersperse] using ih
    · rw [if_neg hc]
      cases parts with
      | nil => simpa [intercalate] using ih
      | cons next parts => simpa [intercalate, intersperse] using ih

theorem intercalate_split (s : String) (separator : Char) :
    String.intercalate (String.ofList [separator]) (split s separator) = s := by
  refine String.toList_inj.1 ?_
  rw [split, String.toList_intercalate, List.map_map, String.toList_ofList]
  have hmap : (splitChars separator s.toList).map (String.toList ∘ String.ofList) =
      splitChars separator s.toList := by
    simp [Function.comp_def]
  rw [hmap, intercalate_splitChars]

theorem not_mem_of_length_flatMap
    (h : (parts.flatMap (splitChars separator)).length = parts.length) :
    ∀ part ∈ parts, separator ∉ part := by
  have hsingle : ∀ part, (splitChars separator part).length = 1 → separator ∉ part := by
    intro part hlength
    obtain ⟨only, honly⟩ := length_eq_one_iff.1 hlength
    -- The only part is the whole text, because joining gives the text back.
    have hjoin := intercalate_splitChars separator part
    rw [honly] at hjoin
    have htext : only = part := by
      simpa [intercalate] using hjoin
    rw [← htext]
    exact not_mem_of_mem_splitChars (honly ▸ mem_singleton_self only)
  have hbound : ∀ rest : List (List Char),
      rest.length ≤ (rest.flatMap (splitChars separator)).length := by
    intro rest
    induction rest with
    | nil => simp
    | cons part rest ih =>
      have := length_pos_iff.2 (splitChars_ne_nil separator part)
      rw [flatMap_cons, length_append, length_cons]
      omega
  induction parts with
  | nil => simp
  | cons part rest ih =>
    have hpart := length_pos_iff.2 (splitChars_ne_nil separator part)
    have hrest := hbound rest
    rw [flatMap_cons, length_append, length_cons] at h
    intro other hother
    rcases mem_cons.1 hother with rfl | hother
    · exact hsingle other (by omega)
    · exact ih (by omega) other hother

theorem replacePair_of_not_mem {first second replacement : Char}
    (h : first ∉ chars) : replacePair first second replacement chars = chars := by
  fun_induction replacePair first second replacement chars with
  | case1 | case2 c => rfl
  | case3 c d rest hpair ih => simp [hpair.1] at h
  | case4 c d rest hpair ih =>
    rw [ih fun hmem => h (mem_cons_of_mem _ hmem)]

theorem isDigit_of_mem_toString {n : Nat} {c : Char} (h : c ∈ (toString n).toList) :
    c.isDigit = true := by
  rw [Nat.toString_eq_repr, Nat.toList_repr] at h
  exact Nat.isDigit_of_mem_toDigits (by decide) (by decide) h

theorem toString_ne_nil (n : Nat) : (toString n).toList ≠ [] := by
  rw [Nat.toString_eq_repr, Nat.toList_repr]
  exact Nat.toDigits_ne_nil

theorem toString_ne_cons {n : Nat} {c : Char} {rest : List Char} (hc : c.isDigit = false) :
    (toString n).toList ≠ c :: rest := by
  intro h
  rw [isDigit_of_mem_toString (h ▸ mem_cons_self)] at hc
  contradiction

theorem toList_toString_negSucc (n : Nat) :
    (toString (Int.negSucc n)).toList = '-' :: (toString (n + 1)).toList := by
  change ("-" ++ toString (n + 1)).toList = _
  rw [String.toList_append]
  rfl

theorem decimal_toString (n : Nat) : decimal (toString n).toList = some n := by
  have hdigits : (toString n).toList.all Char.isDigit = true :=
    all_eq_true.2 fun c hc => isDigit_of_mem_toString hc
  rw [decimal, if_pos ⟨toString_ne_nil n, hdigits⟩, Nat.toString_eq_repr, Nat.toList_repr,
    Nat.ofDigitChars_toDigits (by decide) (by decide)]

theorem toString_inj {m n : Nat} : toString m = toString n ↔ m = n :=
  ⟨fun h => some.inj (by rw [← decimal_toString, h, decimal_toString]), fun h => h ▸ rfl⟩

theorem atoi_toString_eq (n : Nat) :
    atoi (toString n) = if n < 2 ^ 63 then some (n : Int) else none := by
  unfold atoi
  -- The digits of a number do not start with a sign.
  split
  · exact absurd ‹_› (toString_ne_cons (by decide))
  · exact absurd ‹_› (toString_ne_cons (by decide))
  · rw [decimal_toString, bind_some]

theorem atoi_toString {n : Nat} (hn : n < 2 ^ 63) : atoi (toString n) = some (n : Int) := by
  rw [atoi_toString_eq, if_pos hn]

theorem atoi_toString_negSucc (n : Nat) : atoi (toString (Int.negSucc n)) =
      if n + 1 ≤ 2 ^ 63 then some (Int.negSucc n) else none := by
  rw [atoi, toList_toString_negSucc]
  simp only [decimal_toString, bind_some]
  rfl

theorem eq_of_atoi_toString {i j : Int} (h : atoi (toString i) = some j) : j = i := by
  cases i with
  | ofNat n =>
    rw [show toString (Int.ofNat n) = toString n from rfl, atoi_toString_eq] at h
    exact (some.inj (ite_none_right_eq_some.1 h).2).symm
  | negSucc n =>
    rw [atoi_toString_negSucc] at h
    exact (some.inj (ite_none_right_eq_some.1 h).2).symm

/-! ## Durations -/

/-- `fmtFrac` and `fmtInt` of the package `time`: a number of which the last `digits`
digits come after the point, without zeros at the end. -/
def fraction (value digits : Nat) : String :=
  let shown := toString (value % 10 ^ digits)
  let padded := List.replicate (digits - shown.length) '0' ++ shown.toList
  let kept := (padded.reverse.dropWhile (· = '0')).reverse
  toString (value / 10 ^ digits) ++ (if kept = [] then "" else "." ++ String.ofList kept)

/-- `Duration.String`, for a number of nanoseconds. -/
def duration (d : Int) : String :=
  let u := d.natAbs
  let seconds := u / 10 ^ 9
  (if d < 0 then "-" else "") ++
    if u = 0 then "0s"
    else if u < 10 ^ 3 then toString u ++ "ns"
    else if u < 10 ^ 6 then fraction u 3 ++ "µs"
    else if u < 10 ^ 9 then fraction u 6 ++ "ms"
    else
      (if seconds < 3600 then "" else toString (seconds / 3600) ++ "h") ++
        (if seconds < 60 then "" else toString (seconds / 60 % 60) ++ "m") ++
        fraction (u % (60 * 10 ^ 9)) 9 ++ "s"

example : duration 1500000 = "1.5ms" ∧ duration 3723000000000 = "1h2m3s" := by decide +kernel

end GoText
end SonicGnmi.Foundation
