import SonicGnmi.Sdc.TableReads

/-!
# Entries that are read back as they were stored

`ConvertDbEntry` stores a list under its name with `@`, and passes over what is neither a
text nor a list.  `makeJSON_redis` takes a field with `@` for a list and drops the field
`NULL`.

* `Storable` — the texts and lists that survive;
* `entry_round_trip_iff` — an entry is read back exactly when all its members are storable.
-/

namespace SonicGnmi.Sdc

open Foundation Gnmi MixedClient TableSetClient

/-- A text under a plain name, or a list of texts without commas. -/
inductive Storable (name : String) : Json → Prop where
  | text (text : String) (hnull : name ≠ "NULL") (hplain : GoText.hasSuffix name "@" = false) :
      Storable name (.string text)
  | list (items : List String) (hne : items ≠ []) (hcomma : ∀ item ∈ items, ',' ∉ item.toList) :
      Storable name (.array (items.map .string))

/-- An entry after it was stored and rendered, for any order of the entry and of the
reply. -/
def readBack (order : RangeOrder String Json) (reply : Redis.ReplyOrder) (e : GoMap String Json) :
    Json :=
  msiJson (MixedDbClient.makeJSONRedis ∅ none (reply.fields (convertDbEntry order e)))

section Member

variable {name field stored : String} {value : Json} {leaf : MsiLeaf}

/-- A storable member is rendered from its field alone. -/
theorem Storable.rendered (h : Storable name value) :
    ∃ field stored leaf, dbField name value = some (field, stored) ∧
      mixedLeaf field stored = some (name, leaf) ∧ leafJson leaf = value := by
  cases h with
  | text text hnull hplain =>
    exact ⟨name, text, .text text, rfl, mixedLeaf_plain text hnull hplain, rfl⟩
  | list items hne hcomma =>
    refine ⟨name ++ "@", String.intercalate "," items, .list items, ?_, ?_, rfl⟩
    · simp [dbField, List.filterMap_map]
    · have hsplit : GoText.splitChars ',' ([','].intercalate (items.map String.toList)) =
          items.map String.toList :=
        GoText.splitChars_intercalate (by simpa using hne) (by simpa using hcomma)
      simp [mixedLeaf_at, GoText.split, hsplit]

/-- The field tells the name. -/
theorem mixedLeaf_name {other stored' : String} {leaf' : MsiLeaf}
    (h : mixedLeaf field stored = some (name, leaf))
    (h' : mixedLeaf field stored' = some (other, leaf')) : other = name := by
  simp only [mixedLeaf] at h h'
  split_ifs at h h' <;> simp_all

end Member

section Entry

variable {order : RangeOrder String Json} {e : GoMap String Json}

theorem convertDbEntry_eq_fill (order : RangeOrder String Json) (e : GoMap String Json) :
    convertDbEntry order e = fill (fun entry => dbField entry.1 entry.2) (order.visit e) := by
  unfold convertDbEntry fill
  congr 1
  funext fields entry
  dsimp only
  cases dbField entry.1 entry.2 <;> rfl

/-- Each rendered field comes from the member of its name. -/
theorem member_of_field (hall : ∀ name value, e.lookup name = some value → Storable name value)
    {name field stored : String} {leaf : MsiLeaf}
    (hstored : (convertDbEntry order e).lookup field = some stored)
    (hleaf : mixedLeaf field stored = some (name, leaf)) :
    e.lookup name = some (leafJson leaf) ∧ dbField name (leafJson leaf) = some (field, stored) := by
  rw [convertDbEntry_eq_fill] at hstored
  obtain ⟨⟨other, value⟩, hmem, hfield⟩ := exists_of_lookup_fill _ hstored
  have hvalue := (order.mem_visit e other value).1 hmem
  obtain ⟨_, _, _, hfield', hleaf', rfl⟩ := (hall other value hvalue).rendered
  cases hfield.symm.trans hfield'
  cases hleaf.symm.trans hleaf'
  exact ⟨hvalue, hfield⟩

/-- An entry is read back exactly when all its members are storable. -/
theorem entry_round_trip_iff (order : RangeOrder String Json) (reply : Redis.ReplyOrder)
    (e : GoMap String Json) :
    (∀ name, (readBack order reply e).child name = e.lookup name) ↔
      ∀ name value, e.lookup name = some value → Storable name value := by
  have hchild : ∀ name, (readBack order reply e).child name =
      ((renderFields mixedLeaf (reply.fields (convertDbEntry order e))).lookup name).map
        leafJson := by
    intro name
    rw [readBack, msiJson_makeJSONRedis_none, objectJson, Json.child, member_mapMembers]
  simp only [hchild]
  constructor
  · intro hback name value hvalue
    obtain ⟨leaf, hlookup, rfl⟩ := Option.map_eq_some_iff.1 ((hback name).trans hvalue)
    obtain ⟨field, stored, -, hleaf⟩ := lookup_renderFields hlookup
    -- only storable values are rendered
    cases leaf with
    | text text =>
      obtain ⟨rfl, -, hnull, hplain⟩ := mixedLeaf_text hleaf
      exact .text text hnull hplain
    | list items =>
      obtain ⟨rfl, -⟩ := mixedLeaf_list hleaf
      cases (mixedLeaf_at name stored).symm.trans hleaf
      refine .list _ (GoText.split_ne_nil stored ',') fun item hitem => ?_
      obtain ⟨part, hpart, rfl⟩ := List.mem_map.1 hitem
      rw [String.toList_ofList]
      exact GoText.not_mem_of_mem_splitChars hpart
    | bytes text => exact (mixedLeaf_bytes hleaf).elim
  · intro hall name
    refine Option.ext fun value => ?_
    rw [Option.map_eq_some_iff]
    constructor
    · rintro ⟨leaf, hlookup, rfl⟩
      obtain ⟨field, stored, hmem, hleaf⟩ := lookup_renderFields hlookup
      exact (member_of_field hall ((reply.mem_fields _ _ _).1 hmem) hleaf).1
    · intro hvalue
      obtain ⟨field, stored, leaf, hfield, hleaf, rfl⟩ := (hall name value hvalue).rendered
      -- no other member is stored under this field, and no other field has this name
      have hstored : (convertDbEntry order e).lookup field = some stored := by
        rw [convertDbEntry_eq_fill]
        refine lookup_fill_of_mem ((order.mem_visit e name _).2 hvalue) hfield ?_
        rintro ⟨other, value⟩ hmem found hfound
        have hother := (order.mem_visit e other value).1 hmem
        obtain ⟨_, _, _, hfield', hleaf', -⟩ := (hall other value hother).rendered
        cases hfound.symm.trans hfield'
        obtain rfl := mixedLeaf_name hleaf hleaf'
        cases hother.symm.trans hvalue
        cases hfound.symm.trans hfield
        rfl
      refine ⟨leaf, ?_, rfl⟩
      rw [renderFields_eq_fill]
      refine lookup_fill_of_mem ((reply.mem_fields _ _ _).2 hstored) hleaf ?_
      rintro ⟨field', stored'⟩ hmem found hfound
      obtain ⟨hother, hfield'⟩ := member_of_field hall ((reply.mem_fields _ _ _).1 hmem) hfound
      have hsame : leafJson found = leafJson leaf := Option.some.inj (hother.symm.trans hvalue)
      rw [hsame, hfield] at hfield'
      cases hfield'
      cases hleaf.symm.trans hfound
      rfl

end Entry

end SonicGnmi.Sdc
