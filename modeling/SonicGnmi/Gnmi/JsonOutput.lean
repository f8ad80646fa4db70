import SonicGnmi.Foundation.JsonString
import SonicGnmi.Gnmi.JsonPatch

/-!
# JSON values and their texts

A handler answers with a JSON text that it has marshalled from a value, or that it has put
together from a stored text and two quotation marks.

* `Json.Same` — two values are the same one: every sequence of tokens selects the same in
  both, whatever the order of their members;
* `not_same_member` — no object is the value of one of its own members;
* `JsonOutput` — the two kinds of answers, and the value that such an answer spells.
-/

namespace SonicGnmi.Gnmi

open Foundation List Option

namespace Json

/-! ## Values up to the order of members -/

/-- A value without what is below it. -/
def top : Json → Json
  | .object _ => .object []
  | .array _ => .array []
  | scalar => scalar

/-- The same JSON value. -/
def Same (a b : Json) : Prop :=
  ∀ tokens, (a.valueAt tokens).map top = (b.valueAt tokens).map top

theorem Same.refl (a : Json) : a.Same a := fun _ => rfl

variable {a b value : Json}

theorem Same.symm (h : a.Same b) : b.Same a := fun tokens => (h tokens).symm


theorem Same.top_eq (h : a.Same b) : a.top = b.top :=
  some.inj (h [])

theorem Same.eq_string {text : String} (h : (Json.string text).Same b) : b = .string text := by
  have htop := h.top_eq
  cases b <;> simp_all [top]

/-! ## Depth -/

theorem mem_of_member {members : List (String × Json)} {name : String}
    (h : member members name = some value) : (name, value) ∈ members := by
  induction members with
  | nil => cases h
  | cons entry rest ih =>
    obtain ⟨key, first⟩ := entry
    rw [member] at h
    rcases or_eq_some_iff.1 h with hrest | ⟨-, hfirst⟩
    · exact mem_cons_of_mem _ (ih hrest)
    · obtain ⟨rfl, hvalue⟩ := ite_none_right_eq_some.1 hfirst
      obtain rfl := some.inj hvalue
      exact mem_cons_self

theorem sizeOf_lt_of_child {token : String} (h : a.child token = some value) :
    sizeOf value < sizeOf a := by
  cases a with
  | object members =>
    have hmem := mem_of_member h
    have hlt := sizeOf_lt_of_mem hmem
    simp only [Prod.mk.sizeOf_spec] at hlt
    simp only [Json.object.sizeOf_spec]
    omega
  | array items =>
    obtain ⟨i, -, hitem⟩ := bind_eq_some_iff.1 h
    have hlt := sizeOf_lt_of_mem (mem_of_getElem? hitem)
    simp only [Json.array.sizeOf_spec]
    omega
  | null | bool b | number n | string s => cases h

theorem length_lt_of_valueAt {tokens : List String}
    (h : a.valueAt tokens = some value) : tokens.length < sizeOf a := by
  induction tokens generalizing a with
  | nil => exact Nat.lt_of_lt_of_le Nat.zero_lt_one (by cases a <;> simp)
  | cons token rest ih =>
    rw [valueAt] at h
    obtain ⟨next, hnext, hrest⟩ := bind_eq_some_iff.1 h
    have hlt := sizeOf_lt_of_child hnext
    have := ih hrest
    rw [length_cons]
    omega

/-- No object is the value of one of its own members. -/
theorem not_same_member {token : String} (h : a.child token = some value) : ¬ a.Same value := by
  intro hsame
  -- otherwise the token could be followed again and again
  have hsome : ∀ n, (a.valueAt (replicate n token)).isSome = true := by
    intro n
    induction n with
    | zero => rfl
    | succ n ih =>
      have hnext : (value.valueAt (replicate n token)).isSome = true := by
        have := congrArg isSome (hsame (replicate n token))
        rw [isSome_map, isSome_map, ih] at this
        exact this.symm
      rw [replicate_succ, valueAt, h, bind_some]
      exact hnext
  obtain ⟨deep, hdeep⟩ := isSome_iff_exists.1 (hsome (sizeOf a))
  have hlt := length_lt_of_valueAt hdeep
  rw [length_replicate] at hlt
  exact Nat.lt_irrefl _ hlt

end Json

/-! ## Answers -/

/-- A JSON text as a handler makes it. -/
inductive JsonOutput where
  /-- The encoder was given a value. -/
  | marshalled (value : Json)
  /-- A text between two quotation marks, as it is. -/
  | quoted (text : String)

/-- The value that a JSON text spells, if it is well formed. -/
def JsonOutput.value : JsonOutput → Option Json
  | .marshalled value => some value
  | .quoted text =>
    (JsonString.decodeBody text.toList).map fun chars => .string (String.ofList chars)

theorem JsonOutput.quoted_value_iff (text : String) :
    (JsonOutput.quoted text).value = some (.string text) ↔ JsonString.Plain text.toList := by
  rw [← JsonString.decodeBody_eq_self_iff, JsonOutput.value, map_eq_some_iff]
  constructor
  · rintro ⟨chars, hdecode, hchars⟩
    rw [hdecode, ← (Json.string.inj hchars), String.toList_ofList]
  · intro hdecode
    exact ⟨text.toList, hdecode, by rw [String.ofList_toList]⟩

end SonicGnmi.Gnmi
