import SonicGnmi.Foundation.GoText
import SonicGnmi.Gnmi.Json

/-!
# JSON pointers and JSON patches

JSON values as documents that are edited in place: pointers of RFC 6901 and the
`add`, `remove` and `replace` operations of RFC 6902.

An object is a list of members, and the last of several members with one name
counts, so `member` is the way to read it; no result depends on the order of
the members.

* `member`, `putMember`, `dropMember` — objects as finite maps;
* `pointerTokens` — the tokens of a pointer;
* `Json.editAt`, `PatchOp.apply`, `applyPatch` — the operations, and a list of
  them;
* `Json.pruned` — a document without its empty objects and lists, with the
  members of each object in the order of their names.
-/

namespace SonicGnmi.Gnmi

open Foundation Json List Option

/-! ## Objects as finite maps -/

/-- The value of a name: that of the last member with it. -/
def member : List (String × Json) → String → Option Json
  | [], _ => none
  | (key, value) :: rest, name =>
    (member rest name).or (if key = name then some value else none)

/-- The object without a name. -/
def dropMember (members : List (String × Json)) (name : String) : List (String × Json) :=
  members.filter fun entry => entry.1 ≠ name

/-- The object with a new value for a name. -/
def putMember (members : List (String × Json)) (name : String) (value : Json) :
    List (String × Json) :=
  dropMember members name ++ [(name, value)]

section Members

variable {members : List (String × Json)} {name other : String} {value : Json}

@[simp] theorem member_nil (name : String) : member [] name = none := rfl

theorem member_append (members more : List (String × Json)) (name : String) :
    member (members ++ more) name = (member more name).or (member members name) := by
  induction members with
  | nil => simp
  | cons entry rest ih =>
    rw [List.cons_append, member, member, ih, Option.or_assoc]

theorem dropMember_cons (entry : String × Json) (rest : List (String × Json)) (name : String) :
    dropMember (entry :: rest) name =
      if entry.1 = name then dropMember rest name else entry :: dropMember rest name := by
  by_cases h : entry.1 = name <;> simp [dropMember, h]

@[simp] theorem member_dropMember_self (members : List (String × Json)) (name : String) :
    member (dropMember members name) name = none := by
  induction members with
  | nil => rfl
  | cons entry rest ih =>
    rw [dropMember_cons]
    split
    · exact ih
    · rename_i h
      rw [member, ih, if_neg h]
      rfl

theorem member_dropMember_of_ne (h : other ≠ name) :
    member (dropMember members name) other = member members other := by
  induction members with
  | nil => rfl
  | cons entry rest ih =>
    rw [dropMember_cons]
    split
    · rename_i hname
      have hother : entry.1 ≠ other := by
        rw [hname]
        exact Ne.symm h
      rw [ih, member, if_neg hother, or_none]
    · rw [member, member, ih]

@[simp] theorem member_putMember_self (members : List (String × Json)) (name : String)
    (value : Json) : member (putMember members name value) name = some value := by
  simp [putMember, member_append, member]

theorem member_putMember_of_ne (h : other ≠ name) :
    member (putMember members name value) other = member members other := by
  simp [putMember, member_append, member, member_dropMember_of_ne h, Ne.symm h]

section

variable (members : List (String × Json))

@[simp] theorem dropMember_dropMember (name : String) :
    dropMember (dropMember members name) name = dropMember members name := by
  simp [dropMember, List.filter_filter]

@[simp] theorem putMember_dropMember (name : String)
    (value : Json) : putMember (dropMember members name) name value =
      putMember members name value := by
  simp [putMember]

@[simp] theorem putMember_putMember (name : String)
    (old value : Json) : putMember (putMember members name old) name value =
      putMember members name value := by
  simp [putMember, dropMember]

/-- The map that Go decodes an object to has the same values. -/
theorem lookup_decodeMembers (name : String) :
    (decodeMembers members).lookup name = member members name := by
  -- The fold starts with a map that the members are added to.
  have hfold : ∀ (m : GoMap String Json),
      (members.foldl (fun m entry => m.insert entry.1 entry.2) m).lookup name =
        (member members name).or (m.lookup name) := by
    induction members with
    | nil =>
      intro m
      simp
    | cons entry rest ih =>
      intro m
      rw [List.foldl_cons, ih, member, Option.or_assoc]
      by_cases h : entry.1 = name
      · subst h
        simp
      · simp [h, AList.lookup_insert_ne (Ne.symm h)]
  rw [decodeMembers, hfold]
  simp

end

end Members

/-! ## Pointers -/

/-- The text of a reference token: `~0` stands for `~` and `~1` for `/`. -/
def unescape : List Char → Option (List Char)
  | [] => some []
  | c :: rest =>
    if c = '~' then
      match rest with
      | [] => none
      | d :: rest =>
        if d = '0' then (unescape rest).map ('~' :: ·)
        else if d = '1' then (unescape rest).map ('/' :: ·)
        else none
    else
      (unescape rest).map (c :: ·)

/-- The tokens of a pointer; a pointer is empty or starts with a slash. -/
def pointerTokens (path : String) : Option (List String) :=
  match path.toList with
  | [] => some []
  | c :: rest =>
    if c = '/' then
      (GoText.splitChars '/' rest).mapM fun token => (unescape token).map String.ofList
    else
      none

/-- The index that a token denotes in a list: a number without leading
zeros. -/
def tokenIndex (token : String) : Option Nat :=
  (GoText.decimal token.toList).bind fun n => if token = toString n then some n else none

theorem tokenIndex_toString (n : Nat) : tokenIndex (toString n) = some n := by
  rw [tokenIndex, GoText.decimal_toString, bind_some, if_pos rfl]

/-! ## Operations -/

namespace Json

/-- The value that a token selects. -/
def child : Json → String → Option Json
  | .object members, token => member members token
  | .array items, token => (tokenIndex token).bind fun i => items[i]?
  | _, _ => none

/-- The document with another value for a token that selects one. -/
def setChild : Json → String → Json → Option Json
  | .object members, token, value => some (.object (putMember members token value))
  | .array items, token, value =>
    (tokenIndex token).map fun i => .array (items.set i value)
  | _, _, _ => none

/-- `add` at a token: a new member, or a new item before the index; `-` is the
index after the last item. -/
def addChild (value : Json) : Json → String → Option Json
  | .object members, token => some (.object (putMember members token value))
  | .array items, token =>
    if token = "-" then
      some (.array (items ++ [value]))
    else
      (tokenIndex token).bind fun i =>
        if i ≤ items.length then some (.array (items.insertIdx i value)) else none
  | _, _ => none

/-- `remove` at a token that selects a value. -/
def removeChild : Json → String → Option Json
  | .object members, token =>
    (member members token).map fun _ => .object (dropMember members token)
  | .array items, token =>
    (tokenIndex token).bind fun i =>
      if i < items.length then some (.array (items.eraseIdx i)) else none
  | _, _ => none

/-- `replace` at a token that selects a value. -/
def replaceChild (value : Json) (doc : Json) (token : String) : Option Json :=
  (doc.child token).bind fun _ => doc.setChild token value

/-- Make an edit at the last of some tokens. -/
def editAt (edit : Json → String → Option Json) : Json → List String → Option Json
  | _, [] => none
  | doc, [token] => edit doc token
  | doc, token :: next :: rest =>
    (doc.child token).bind fun value =>
      (editAt edit value (next :: rest)).bind fun value => doc.setChild token value

/-- The value that tokens select one after the other. -/
def valueAt : Json → List String → Option Json
  | doc, [] => some doc
  | doc, token :: rest => (doc.child token).bind fun value => value.valueAt rest

end Json

/-- The operations of a patch. -/
inductive PatchOperation where
  | add
  | remove
  | replace
  deriving DecidableEq

/-- One operation of a patch, as it is written down: the value may be
missing. -/
structure PatchOp where
  op : PatchOperation
  path : String
  value : Option Json

namespace PatchOp

/-- The value is present exactly for `add` and `replace`. -/
def WellFormed (op : PatchOp) : Prop := op.value.isSome = true ↔ op.op ≠ .remove

instance (op : PatchOp) : Decidable op.WellFormed := inferInstanceAs (Decidable (_ ↔ _))

/-- An operation at decoded tokens.  The whole document can be replaced but not
removed. -/
def applyAt (op : PatchOperation) (value : Option Json) (doc : Json) (tokens : List String) :
    Option Json :=
  match op, value, tokens with
  | .remove, _, tokens => doc.editAt Json.removeChild tokens
  | .add, some value, [] => some value
  | .add, some value, token :: rest => doc.editAt (Json.addChild value) (token :: rest)
  | .replace, some value, [] => some value
  | .replace, some value, token :: rest => doc.editAt (Json.replaceChild value) (token :: rest)
  | _, none, _ => none

/-- The document after an operation, if it can be applied. -/
def apply (op : PatchOp) (doc : Json) : Option Json :=
  (pointerTokens op.path).bind (applyAt op.op op.value doc)

end PatchOp

/-- The document after a list of operations, if all of them can be applied. -/
def applyPatch (doc : Json) : List PatchOp → Option Json
  | [] => some doc
  | op :: rest => (op.apply doc).bind fun doc => applyPatch doc rest

theorem applyPatch_append (doc : Json) (patch more : List PatchOp) :
    applyPatch doc (patch ++ more) = (applyPatch doc patch).bind fun doc => applyPatch doc more := by
  induction patch generalizing doc with
  | nil => rfl
  | cons op rest ih =>
    rw [cons_append, applyPatch, applyPatch, bind_assoc]
    exact congrArg _ (funext fun doc => ih doc)

theorem applyPatch_snoc (doc : Json) (patch : List PatchOp) (op : PatchOp) :
    applyPatch doc (patch ++ [op]) = (applyPatch doc patch).bind op.apply := by
  rw [applyPatch_append]
  exact congrArg _ (funext fun doc => bind_fun_some _)

/-! ## Documents without empty parts -/

/-- The members in the order of their names, each name once. -/
def sortMembers (members : List (String × Json)) : List (String × Json) :=
  (decodeMembers members).sortedKeys.filterMap fun name =>
    (member members name).map fun value => (name, value)

/-- An object or list without content. -/
def Json.isHollow : Json → Bool
  | .array items => items.isEmpty
  | .object members => members.isEmpty
  | _ => false

mutual

/-- The document without its empty objects and lists, recursively. -/
def Json.pruned : Json → Json
  | .null => .null
  | .bool b => .bool b
  | .number n => .number n
  | .string s => .string s
  | .array items => .array ((prunedItems items).filter fun item => !item.isHollow)
  | .object members =>
    .object ((sortMembers (prunedMembers members)).filter fun entry => !entry.2.isHollow)

/-- The pruned items of a list. -/
def prunedItems : List Json → List Json
  | [] => []
  | item :: rest => item.pruned :: prunedItems rest

/-- The members of an object with pruned values. -/
def prunedMembers : List (String × Json) → List (String × Json)
  | [] => []
  | (name, value) :: rest => (name, value.pruned) :: prunedMembers rest

end

theorem member_prunedMembers (members : List (String × Json)) (name : String) :
    member (prunedMembers members) name = (member members name).map pruned := by
  induction members with
  | nil => rfl
  | cons entry rest ih =>
    obtain ⟨key, value⟩ := entry
    rw [prunedMembers, member, member, ih]
    by_cases h : key = name
    · cases member rest name <;> simp [h]
    · simp [h]

theorem mem_sortMembers {members : List (String × Json)} {name : String} {value : Json} :
    (name, value) ∈ sortMembers members ↔ member members name = some value := by
  rw [sortMembers, mem_filterMap]
  constructor
  · rintro ⟨key, -, hkey⟩
    obtain ⟨found, hfound, heq⟩ := map_eq_some_iff.1 hkey
    cases heq
    exact hfound
  · intro h
    refine ⟨name, ?_, by rw [h]; rfl⟩
    rw [GoMap.mem_sortedKeys, ← AList.lookup_isSome, lookup_decodeMembers, h]
    rfl

theorem sortMembers_sorted (members : List (String × Json)) :
    (sortMembers members).Pairwise fun a b => a.1 < b.1 := by
  have hkeys : (decodeMembers members).sortedKeys.Pairwise (· < ·) := by
    have hsorted : (decodeMembers members).sortedKeys.Pairwise (· ≤ ·) :=
      pairwise_insertionSort (· ≤ ·) _
    have hnodup : (decodeMembers members).sortedKeys.Nodup :=
      (perm_insertionSort (· ≤ ·) _).nodup_iff.2 (decodeMembers members).keys_nodup
    exact hsorted.imp₂ (fun a b hle hne => lt_of_le_of_ne hle hne) hnodup
  refine hkeys.filterMap _ ?_
  intro a a' hlt b hb b' hb'
  obtain ⟨value, -, rfl⟩ := map_eq_some_iff.1 hb
  obtain ⟨value', -, rfl⟩ := map_eq_some_iff.1 hb'
  exact hlt

/-- Two objects are the same up to their empty parts when each name has the same
value up to empty parts, and a name that only one of them has is empty. -/
theorem pruned_object_congr {members members' : List (String × Json)}
    (h : ∀ name value, value.isHollow = false → ((member members name).map pruned = some value ↔
        (member members' name).map pruned = some value)) :
    (object members).pruned = (object members').pruned := by
  rw [pruned, pruned]
  refine congrArg object ?_
  have hsorted := fun members => (sortMembers_sorted (prunedMembers members)).filter
    fun entry => !entry.2.isHollow
  have hmem : ∀ members (entry : String × Json),
      entry ∈ (sortMembers (prunedMembers members)).filter (fun entry => !entry.2.isHollow) ↔
        (member members entry.1).map pruned = some entry.2 ∧ entry.2.isHollow = false := by
    rintro members ⟨name, value⟩
    rw [mem_filter, mem_sortMembers, member_prunedMembers]
    simp
  have hperm : ((sortMembers (prunedMembers members)).filter fun entry => !entry.2.isHollow).Perm
      ((sortMembers (prunedMembers members')).filter fun entry => !entry.2.isHollow) := by
    rw [perm_ext_iff_of_nodup]
    · intro entry
      rw [hmem, hmem]
      constructor <;> rintro ⟨hvalue, hfull⟩
      · exact ⟨(h entry.1 entry.2 hfull).1 hvalue, hfull⟩
      · exact ⟨(h entry.1 entry.2 hfull).2 hvalue, hfull⟩
    · exact (hsorted members).imp fun hlt heq => (heq ▸ hlt).false
    · exact (hsorted members').imp fun hlt heq => (heq ▸ hlt).false
  exact hperm.eq_of_pairwise (fun a b _ _ hab hba => absurd hab (not_lt_of_gt hba))
    (hsorted members) (hsorted members')

end SonicGnmi.Gnmi
