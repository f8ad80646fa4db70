import SonicGnmi.TranslUtils.YgotDiff

/-!
# The leaf map of a generated struct

Which value stands at which path of a struct: an unset leaf, an enumeration that is
zero and an empty leaf-list are absent.

* `Fields.leafAt` — the leaf map of a struct;
* `Fields.regular`, `Fields.WellTyped` — well-formed types and well-typed values;
* `Fields.leaves` — the leaves as a list.
-/

namespace SonicGnmi.TranslUtils

open Foundation Gnmi Fields List

/-- A leaf stands at the end of its path, and its element has no keys. -/
def leafHere (leaf : Option Leaf) (key : GoMap String String) (tail : List PathElem) : Option Leaf :=
  if key = ∅ ∧ tail = [] then leaf else none

/-- The leaf of an enumeration: zero is unset. -/
def Bindings.enumLeaf (bindings : Bindings) (typeName : String) (value : Int) : Option Leaf :=
  if value = 0 then none else (bindings.enumNames typeName value).map .enum

/-- The leaf of a union. -/
def Bindings.unionLeaf (bindings : Bindings) (value : Option Nat) : Option Leaf :=
  value.map fun address => .union (bindings.heap address)

/-- The leaf of a leaf-list: nil and empty slices are unset. -/
def Bindings.listLeaf (bindings : Bindings) (value : Option (List Cell)) : Option Leaf :=
  if value.getD [] = [] then none else some (.list ((value.getD []).map bindings.content))

section

variable (bindings : Bindings)

/-- The instance of a list whose fields hold the given keys. -/
def Bindings.instanceAt (type : Fields) (instances : GoMap (List Cell) type.Struct)
    (key : GoMap String String) : Option type.Struct :=
  (instances.entries.find? fun entry =>
    decide (bindings.pathKeyFromStruct type entry.2 = some key)).map (·.2)

mutual

/-- The leaf in a field, by the keys of the element of the field and the path below it. -/
def Kind.leafAt : (kind : Kind) → kind.Value → GoMap String String → List PathElem → Option Leaf
  | .leaf, value, key, tail => leafHere (Option.map Leaf.scalar value) key tail
  | .emptyLeaf, value, key, tail => leafHere (cond value (some (.scalar (.bool true))) none) key tail
  | .enum typeName, value, key, tail => leafHere (bindings.enumLeaf typeName value) key tail
  | .union, value, key, tail => leafHere (bindings.unionLeaf value) key tail
  | .leafList, value, key, tail => leafHere (bindings.listLeaf value) key tail
  | .container type, value, key, tail =>
    if key = ∅ then Option.bind value fun inner => type.leafAt inner tail else none
  | .list type, value, key, tail =>
    (bindings.instanceAt type value key).bind fun inner => type.leafAt inner tail
  | .other _, _, _, _ => none

/-- The leaf map of a struct. -/
def Fields.leafAt : (type : Fields) → type.Struct → LeafMap PathElem Leaf
  | .nil, _, _ => none
  | .cons _ _ _ _, _, [] => none
  | .cons _ name kind rest, value, elem :: tail =>
    if elem.name = name then kind.leafAt value.1 elem.key tail
    else rest.leafAt value.2 (elem :: tail)

end

end

/-- The names in the path tags of a struct. -/
def Fields.names : Fields → List String
  | .nil => []
  | .cons _ name _ rest => name :: rest.names

mutual

/-- Types without leaves of the empty type and without two fields of one name. -/
def Kind.regular : Kind → Bool
  | .emptyLeaf => false
  | .container type => type.regular
  | .list type => type.regular
  | _ => true

@[inherit_doc Kind.regular]
def Fields.regular : Fields → Bool
  | .nil => true
  | .cons _ name kind rest => kind.regular && !rest.names.contains name && rest.regular

end

section

variable (bindings : Bindings) (keyTexts : Fields → List Cell → GoMap String String)

mutual

/-- Well-typed values: the key fields of a list instance hold the key under which the
instance is stored, and the keys of two instances have different texts. -/
def Kind.WellTyped : (kind : Kind) → kind.Value → Prop
  | .container type, value => ∀ inner, value = some inner → type.WellTyped inner
  | .list type, value =>
    (∀ key inner, AList.lookup key value = some inner →
      bindings.pathKeyFromStruct type inner = some (keyTexts type key) ∧ type.WellTyped inner) ∧
    ∀ key key', key ∈ AList.keys value → key' ∈ AList.keys value →
      keyTexts type key = keyTexts type key' → key = key'
  | .leaf, _ | .emptyLeaf, _ | .enum _, _ | .union, _ | .leafList, _ | .other _, _ => True

@[inherit_doc Kind.WellTyped]
def Fields.WellTyped : (type : Fields) → type.Struct → Prop
  | .nil, _ => True
  | .cons _ _ kind rest, value => kind.WellTyped value.1 ∧ rest.WellTyped value.2

end

end

theorem mem_of_instanceAt {bindings : Bindings} {type : Fields}
    {instances : GoMap (List Cell) type.Struct} {key : GoMap String String} {value : type.Struct}
    (h : bindings.instanceAt type instances key = some value) :
    ∃ entry ∈ instances.entries,
      bindings.pathKeyFromStruct type entry.2 = some key ∧ entry.2 = value := by
  obtain ⟨entry, hfind, hvalue⟩ := Option.map_eq_some_iff.1 h
  have hkey := find?_some hfind
  exact ⟨entry, mem_of_find?_eq_some hfind, of_decide_eq_true hkey, hvalue⟩

theorem Fields.leafAt_nil (bindings : Bindings) (type : Fields) (value : type.Struct) :
    type.leafAt bindings value [] = none := by
  cases type <;> rfl

theorem Fields.leafAt_of_not_mem (bindings : Bindings) : (type : Fields) → (value : type.Struct) →
    (elem : PathElem) → (tail : List PathElem) → elem.name ∉ type.names →
    type.leafAt bindings value (elem :: tail) = none
  | .nil, _, _, _, _ => rfl
  | .cons goName name kind rest, value, elem, tail, h => by
      rw [names, mem_cons, not_or] at h
      rw [leafAt, if_neg h.1]
      exact leafAt_of_not_mem bindings rest value.2 elem tail h.2

/-! ## The leaves of a struct as a list -/

section

variable (bindings : Bindings)

mutual

/-- Where a field can have leaves: the keys of its element and the path below it. -/
def Kind.places : (kind : Kind) → kind.Value → List (GoMap String String × List PathElem)
  | .container type, value =>
    (Option.elim value [] fun inner => type.places inner).map fun tail => (∅, tail)
  | .list type, value =>
    (AList.entries value).flatMap fun entry =>
      (bindings.pathKeyFromStruct type entry.2).toList.flatMap fun key =>
        (type.places entry.2).map fun tail => (key, tail)
  | .leaf, _ | .emptyLeaf, _ | .enum _, _ | .union, _ | .leafList, _ | .other _, _ => [(∅, [])]

/-- Where a struct can have leaves. -/
def Fields.places : (type : Fields) → type.Struct → List (List PathElem)
  | .nil, _ => []
  | .cons _ name kind rest, value =>
    ((kind.places value.1).map fun place => { name := name, key := place.1 } :: place.2) ++
      rest.places value.2

end

theorem mem_places_of_leafHere {leaf : Option Leaf} {key : GoMap String String}
    {tail : List PathElem} (h : (leafHere leaf key tail).isSome) :
    (key, tail) ∈ [((∅, []) : GoMap String String × List PathElem)] := by
  rw [leafHere] at h
  split at h
  · rename_i hhere
    rw [hhere.1, hhere.2]
    exact mem_singleton_self _
  · simp at h

mutual

theorem Kind.mem_places : (kind : Kind) → (value : kind.Value) → (key : GoMap String String) →
    (tail : List PathElem) → (kind.leafAt bindings value key tail).isSome →
    (key, tail) ∈ kind.places bindings value
  | .leaf, _, _, _, h | .emptyLeaf, _, _, _, h | .enum _, _, _, _, h | .union, _, _, _, h
  | .leafList, _, _, _, h => mem_places_of_leafHere h
  | .other _, _, _, _, h => by simp [Kind.leafAt] at h
  | .container type, value, key, tail, h => by
      rw [Kind.leafAt] at h
      split at h
      · rename_i hkey
        rcases value with _ | inner
        · simp at h
        · exact List.mem_map.2 ⟨tail, Fields.mem_places type inner tail h, by rw [hkey]⟩
      · simp at h
  | .list type, value, key, tail, h => by
      obtain ⟨leaf, h⟩ := Option.isSome_iff_exists.1 h
      obtain ⟨inner, hinner, hleaf⟩ := Option.bind_eq_some_iff.1 h
      obtain ⟨entry, hentry, hkey, rfl⟩ := mem_of_instanceAt hinner
      refine mem_flatMap.2 ⟨entry, hentry, mem_flatMap.2 ⟨key, ?_, ?_⟩⟩
      · rw [hkey]
        exact mem_singleton_self key
      · exact List.mem_map.2 ⟨tail, Fields.mem_places type entry.2 tail (by rw [hleaf]; rfl), rfl⟩

theorem Fields.mem_places : (type : Fields) → (value : type.Struct) → (loc : List PathElem) →
    (type.leafAt bindings value loc).isSome → loc ∈ type.places bindings value
  | .nil, _, _, h => by simp [leafAt] at h
  | .cons _ _ _ _, _, [], h => by simp [leafAt] at h
  | .cons _ name kind rest, value, elem :: tail, h => by
      rw [leafAt] at h
      rw [places, mem_append]
      split at h
      · rename_i hname
        subst hname
        exact .inl (mem_map.2 ⟨(elem.key, tail), Kind.mem_places kind _ _ _ h, rfl⟩)
      · exact .inr (Fields.mem_places rest value.2 _ h)

end

/-- The leaves of a struct, each with its path. -/
def Fields.leaves (type : Fields) (value : type.Struct) : List (List PathElem × Leaf) :=
  (type.places bindings value).filterMap fun loc =>
    (type.leafAt bindings value loc).map fun leaf => (loc, leaf)

theorem Fields.mem_leaves_iff (type : Fields) (value : type.Struct) (loc : List PathElem)
    (leaf : Leaf) :
    (loc, leaf) ∈ type.leaves bindings value ↔ type.leafAt bindings value loc = some leaf := by
  rw [leaves, mem_filterMap]
  constructor
  · rintro ⟨loc', -, heq⟩
    obtain ⟨leaf', hleaf, heq⟩ := Option.map_eq_some_iff.1 heq
    obtain ⟨rfl, rfl⟩ := Prod.mk.inj heq
    exact hleaf
  · intro hleaf
    exact ⟨loc, mem_places bindings type value loc (by rw [hleaf]; rfl), by rw [hleaf]; rfl⟩

end

/-- The leaf map of a struct of any type. -/
def GoStruct.leafMap (bindings : Bindings) (struct : GoStruct) : LeafMap PathElem Leaf :=
  struct.type.leafAt bindings struct.value

@[inherit_doc Kind.WellTyped]
def GoStruct.WellTyped (bindings : Bindings)
    (keyTexts : Fields → List Cell → GoMap String String) (struct : GoStruct) : Prop :=
  struct.type.WellTyped bindings keyTexts struct.value

end SonicGnmi.TranslUtils
