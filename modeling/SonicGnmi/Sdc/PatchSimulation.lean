import Mathlib.Data.List.InsertIdx
import SonicGnmi.Sdc.PathReaders

/-!
# The shadow document follows the patch

An incremental Set edits its shadow document and emits a patch for the same
edits.  The two are kept in step: the patched document is the shadow document
with some empty objects and lists that the shadow document has dropped.

* `Mirrors`, `MirrorsObject` — this relation, down to the fields of an entry;
* `Targets.mirrors`, `add_mirrors` — one edit keeps it;
* `patch_matches_shadow` — so does a whole request, and at its end the documents
  are the same up to empty objects and lists.
-/

namespace SonicGnmi.Sdc

open Foundation Gnmi Grpc JsonClient GoText

/-! ## The relation between the documents -/

/-- Nothing but empty lists below objects of this depth. -/
def HollowAt : Nat → Json → Prop
  | 0, doc => doc = .array []
  | depth + 1, doc => ∃ members, doc = .object members ∧
      ∀ name value, member members name = some value → HollowAt depth value

/-- The second document has what the first one has, and otherwise only hollow
members, down to this depth. -/
def Mirrors : Nat → Json → Json → Prop
  | 0, shadow, doc => shadow = doc
  | depth + 1, shadow, doc => shadow = doc ∨ ∃ members members',
      shadow = .object members ∧ doc = .object members' ∧ ∀ name,
        (∀ value, member members name = some value →
          ∃ value', member members' name = some value' ∧ Mirrors depth value value') ∧
        (∀ value', member members name = none → member members' name = some value' →
          HollowAt depth value')

/-- The relation between the members of two objects. -/
def MirrorsObject (depth : Nat) (members members' : Members) : Prop :=
  ∀ name,
    (∀ value, member members name = some value →
      ∃ value', member members' name = some value' ∧ Mirrors depth value value') ∧
    (∀ value', member members name = none → member members' name = some value' →
      HollowAt depth value')

theorem Mirrors.refl (depth : Nat) (doc : Json) : Mirrors depth doc doc := by
  cases depth with
  | zero => exact rfl
  | succ depth => exact .inl rfl

theorem MirrorsObject.refl (depth : Nat) (members : Members) :
    MirrorsObject depth members members := by
  intro name
  refine ⟨fun value h => ⟨value, h, Mirrors.refl depth value⟩, ?_⟩
  intro value' hnone hsome
  rw [hnone] at hsome
  contradiction

variable {depth : Nat} {members shadow shadow' doc : Members} {name : String} {id : Int}
  {items : List Json} {path : List String} {value : JsonText}

theorem mirrors_object {doc : Json} (h : Mirrors (depth + 1) (.object members) doc) :
    ∃ members', doc = .object members' ∧ MirrorsObject depth members members' := by
  rcases h with rfl | ⟨members₁, members', hshadow, hdoc, hrel⟩
  · exact ⟨members, rfl, MirrorsObject.refl depth members⟩
  · cases hshadow
    exact ⟨members', hdoc, hrel⟩

theorem MirrorsObject.mirrors {members' : Members} (h : MirrorsObject depth members members') :
    Mirrors (depth + 1) (.object members) (.object members') :=
  .inr ⟨members, members', rfl, rfl, h⟩

section Members

variable {depth : Nat} {members members' : Members} {name : String}

theorem MirrorsObject.down {content : Members} (h : MirrorsObject (depth + 1) members members')
    (hmember : member members name = some (.object content)) :
    ∃ content', member members' name = some (.object content') ∧
      MirrorsObject depth content content' := by
  obtain ⟨value', hvalue', hrel⟩ := (h name).1 _ hmember
  obtain ⟨content', rfl, hcontent⟩ := mirrors_object hrel
  exact ⟨content', hvalue', hcontent⟩

section

variable (h : MirrorsObject depth members members')
include h

theorem MirrorsObject.put {value value' : Json} (hvalue : Mirrors depth value value') :
    MirrorsObject depth (putMember members name value) (putMember members' name value') := by
  intro other
  by_cases hother : other = name
  · subst hother
    simp [hvalue]
  · rw [member_putMember_of_ne hother, member_putMember_of_ne hother]
    exact h other

theorem MirrorsObject.drop :
    MirrorsObject depth (dropMember members name) (dropMember members' name) := by
  intro other
  by_cases hother : other = name
  · subst hother
    simp
  · rw [member_dropMember_of_ne hother, member_dropMember_of_ne hother]
    exact h other

/-- Deleting a name from the shadow document where the other one keeps a hollow
value. -/
theorem MirrorsObject.prune {value' : Json} (hvalue' : HollowAt depth value') :
    MirrorsObject depth (dropMember members name) (putMember members' name value') := by
  intro other
  by_cases hother : other = name
  · subst hother
    simp [hvalue']
  · rw [member_dropMember_of_ne hother, member_putMember_of_ne hother]
    exact h other

end

theorem MirrorsObject.storeObject {content content' : Members}
    (h : MirrorsObject (depth + 1) members members') (hcontent : MirrorsObject depth content content') :
    MirrorsObject (depth + 1) (storeObject members name content)
      (putMember members' name (.object content')) := by
  cases content with
  | nil => exact h.prune ⟨content', rfl, fun other value' => (hcontent other).2 value' rfl⟩
  | cons first rest => exact h.put hcontent.mirrors

theorem MirrorsObject.storeList {items : List Json} (h : MirrorsObject 0 members members') :
    MirrorsObject 0 (storeList members name items) (putMember members' name (.array items)) := by
  cases items with
  | nil => exact h.prune rfl
  | cons first rest => exact h.put rfl

end Members

/-! ## What the edits of the shadow document do -/

theorem decodeJsonTable_ok {database v : Members}
    (h : decodeJsonTable database name = .ok v) : member database name = some (.object v) := by
  unfold decodeJsonTable at h
  split at h
  · contradiction
  · cases h
    assumption
  · contradiction

theorem decodeJsonEntry_ok {table v : Members}
    (h : decodeJsonEntry table name = .ok v) : member table name = some (.object v) := by
  unfold decodeJsonEntry at h
  split at h
  · contradiction
  · cases h
    assumption
  · contradiction

theorem decodeJsonField_ok {entry : Members} {v : FieldValue}
    (h : decodeJsonField entry name = .ok v) :
    ∃ value, member entry name = some value ∧ (v.items ≠ [] → value = .array v.items) := by
  unfold decodeJsonField at h
  split at h
  · contradiction
  · cases h
    exact ⟨_, by assumption, fun hne => absurd rfl hne⟩
  · cases h
    exact ⟨_, by assumption, fun _ => rfl⟩
  · contradiction

theorem decodeJsonListItem_ok {index item : String} (h : decodeJsonListItem items index = .ok item)
    (hid : atoi index = some id) : 0 ≤ id ∧ id.toNat < items.length := by
  rw [decodeJsonListItem, hid] at h
  simp only at h
  split at h
  · contradiction
  refine ⟨by omega, ?_⟩
  split at h
  · contradiction
  · rename_i hitem
    exact (List.getElem?_eq_some_iff.1 hitem).1
  · contradiction

/-- The object that a member holds, or an empty one. -/
def objectOr (value : Option Json) : Members :=
  match value with
  | some (.object v) => v
  | _ => []

theorem orNew_decodeJsonTable (database : Members) (name : String) :
    orNew (decodeJsonTable database name) = objectOr (member database name) := by
  unfold decodeJsonTable objectOr
  split <;> simp_all [orNew]

theorem orNew_decodeJsonEntry (table : Members) (name : String) :
    orNew (decodeJsonEntry table name) = objectOr (member table name) := by
  unfold decodeJsonEntry objectOr
  split <;> simp_all [orNew]

/-- The list of a field as `Add` finds it, or an empty one. -/
def listOr (decoded : Except String FieldValue) : List Json :=
  match decoded with
  | .ok v => v.items
  | .error _ => []

/-- What was stored is found again, whether or not it was pruned. -/
@[simp] theorem objectOr_member_storeObject (parent content : Members) (name : String) :
    objectOr (member (storeObject parent name content) name) = content := by
  cases content <;> simp [storeObject, objectOr]

@[simp] theorem listOr_storeList (entry : Members) (name : String) (items : List Json) :
    listOr (decodeJsonField (storeList entry name items) name) = items := by
  cases items <;> simp [storeList, decodeJsonField, listOr, FieldValue.items]

@[simp] theorem putMember_storeObject (parent content : Members) (name : String) (value : Json) :
    putMember (storeObject parent name content) name value = putMember parent name value := by
  unfold storeObject
  split <;> simp

@[simp] theorem putMember_storeList (entry : Members) (name : String) (items : List Json)
    (value : Json) :
    putMember (storeList entry name items) name value = putMember entry name value := by
  unfold storeList
  split <;> simp

/-- A path that the shadow document has, with what is left when its target is removed and what
it becomes when the target is replaced. -/
inductive Targets (shadow : Members) : List String → Members → (Json → Members) → Prop where
  | table {table : String} {vtable : Members}
      (htable : member shadow table = some (.object vtable)) :
      Targets shadow [table] (dropMember shadow table) (putMember shadow table)
  | entry {table key : String} {vtable ventry : Members}
      (htable : member shadow table = some (.object vtable))
      (hentry : member vtable key = some (.object ventry)) :
      Targets shadow [table, key] (storeObject shadow table (dropMember vtable key))
        fun json => putMember shadow table (.object (putMember vtable key json))
  | field {table key field : String} {vtable ventry : Members} {vfield : Json}
      (htable : member shadow table = some (.object vtable))
      (hentry : member vtable key = some (.object ventry))
      (hfield : member ventry field = some vfield) :
      Targets shadow [table, key, field]
        (storeObject shadow table (storeObject vtable key (dropMember ventry field)))
        fun json => putMember shadow table
          (.object (putMember vtable key (.object (putMember ventry field json))))
  | item {table key field index : String} {vtable ventry : Members} {items : List Json} {id : Int}
      (htable : member shadow table = some (.object vtable))
      (hentry : member vtable key = some (.object ventry))
      (hfield : member ventry field = some (.array items))
      (hid : GoText.atoi index = some id) (hpos : 0 ≤ id) (hlt : id.toNat < items.length) :
      Targets shadow [table, key, field, index]
        (storeObject shadow table (storeObject vtable key
          (storeList ventry field (items.eraseIdx id.toNat))))
        fun json => putMember shadow table (.object (putMember vtable key
          (.object (putMember ventry field (.array (items.set id.toNat json))))))

theorem remove_targets (h : remove shadow path = .ok shadow') :
    ∃ put, Targets shadow (fixPath path) shadow' put := by
  unfold remove at h
  split at h
  · rename_i table hpath
    cases htable : decodeJsonTable shadow table <;> simp only [htable] at h <;> cases h
    rw [hpath]
    exact ⟨_, .table (decodeJsonTable_ok htable)⟩
  · rename_i table key hpath
    cases htable : decodeJsonTable shadow table <;> simp only [htable] at h <;> try cases h
    rename_i vtable
    cases hentry : decodeJsonEntry vtable key <;> simp only [hentry] at h <;> cases h
    rw [hpath]
    exact ⟨_, .entry (decodeJsonTable_ok htable) (decodeJsonEntry_ok hentry)⟩
  · rename_i table key field hpath
    cases htable : decodeJsonTable shadow table <;> simp only [htable] at h <;> try cases h
    rename_i vtable
    cases hentry : decodeJsonEntry vtable key <;> simp only [hentry] at h <;> try cases h
    rename_i ventry
    cases hfield : decodeJsonField ventry field <;> simp only [hfield] at h <;> cases h
    obtain ⟨value, hvalue, -⟩ := decodeJsonField_ok hfield
    rw [hpath]
    exact ⟨_, .field (decodeJsonTable_ok htable) (decodeJsonEntry_ok hentry) hvalue⟩
  · rename_i table key field index hpath
    cases hid : atoi index <;> simp only [hid] at h <;> try cases h
    cases htable : decodeJsonTable shadow table <;> simp only [htable] at h <;> try cases h
    rename_i vtable
    cases hentry : decodeJsonEntry vtable key <;> simp only [hentry] at h <;> try cases h
    rename_i ventry
    cases hfield : decodeJsonField ventry field <;> simp only [hfield] at h <;> try cases h
    rename_i vfield
    cases hitem : decodeJsonListItem vfield.items index <;> simp only [hitem] at h <;> cases h
    obtain ⟨hpos, hlt⟩ := decodeJsonListItem_ok hitem hid
    obtain ⟨value, hvalue, hitems⟩ := decodeJsonField_ok hfield
    obtain rfl := hitems (List.ne_nil_of_length_pos (by omega))
    rw [hpath]
    exact ⟨_, .item (decodeJsonTable_ok htable) (decodeJsonEntry_ok hentry) hvalue hid hpos hlt⟩
  · contradiction

theorem parseValue_ok {json : Json} (h : parseValue value = .ok json) : value = .value json := by
  cases value with
  | value found =>
    cases h
    rfl
  | empty | malformed e => contradiction

theorem insertion_ok {e : String} {stored : Json → Members}
    (h : (if id < 0 ∨ (items.length : Int) < id then Except.error e
      else
        match parseValue value with
        | .error e => .error e
        | .ok v => .ok (stored v)) = .ok shadow') :
    ∃ json, value = .value json ∧ 0 ≤ id ∧ id.toNat ≤ items.length ∧ shadow' = stored json := by
  split at h
  · contradiction
  split at h <;> cases h
  rename_i json hvalue
  exact ⟨json, parseValue_ok hvalue, by omega, by omega, rfl⟩

theorem add_cases (h : add shadow path value = .ok shadow') : ∃ json, value = .value json ∧
      ((∃ table, fixPath path = [table] ∧ shadow' = putMember shadow table json) ∨
      (∃ table key, fixPath path = [table, key] ∧ shadow' = putMember shadow table (.object
          (putMember (objectOr (member shadow table)) key json))) ∨
      (∃ table key field vtable ventry, fixPath path = [table, key, field] ∧
        vtable = objectOr (member shadow table) ∧ ventry = objectOr (member vtable key) ∧
        shadow' = putMember shadow table (.object (putMember vtable key
          (.object (putMember ventry field json))))) ∨
      ∃ table key field index vtable ventry items id, fixPath path = [table, key, field, index] ∧
        vtable = objectOr (member shadow table) ∧ ventry = objectOr (member vtable key) ∧
        items = listOr (decodeJsonField ventry field) ∧
        atoi index = some id ∧ 0 ≤ id ∧ id.toNat ≤ items.length ∧
        shadow' = putMember shadow table (.object (putMember vtable key
          (.object (putMember ventry field (.array (items.insertIdx id.toNat json))))))) := by
  unfold add at h
  split at h
  · rename_i table hpath
    split at h <;> cases h
    rename_i v hvalue
    exact ⟨_, parseValue_ok hvalue, .inl ⟨table, hpath, rfl⟩⟩
  · rename_i table key hpath
    simp only [orNew_decodeJsonTable] at h
    split at h <;> cases h
    rename_i v hvalue
    exact ⟨_, parseValue_ok hvalue, .inr (.inl ⟨table, key, hpath, rfl⟩)⟩
  · rename_i table key field hpath
    simp only [orNew_decodeJsonTable, orNew_decodeJsonEntry] at h
    split at h <;> cases h
    -- a text or a list
    all_goals
      rename_i hvalue
      exact ⟨_, parseValue_ok hvalue,
        .inr (.inr (.inl ⟨table, key, field, _, _, hpath, rfl, rfl, rfl⟩))⟩
  · rename_i table key field index hpath
    split at h
    · contradiction
    rename_i id hid
    simp only [orNew_decodeJsonTable, orNew_decodeJsonEntry] at h
    generalize hvtable : objectOr (member shadow table) = vtable at h
    generalize hventry : objectOr (member vtable key) = ventry at h
    -- The source goes on with the list of the field, or with a new one.
    obtain ⟨items, json, hitems, hvalue, hpos, hle, hshadow⟩ : ∃ items json,
        items = listOr (decodeJsonField ventry field) ∧ value = .value json ∧
        0 ≤ id ∧ id.toNat ≤ items.length ∧
        shadow' = putMember shadow table (.object (putMember vtable key
          (.object (putMember ventry field (.array (items.insertIdx id.toNat json)))))) := by
      rcases hfield : decodeJsonField ventry field with _ | v <;> rw [hfield] at h
      · obtain ⟨json, hjson⟩ := insertion_ok h
        exact ⟨[], json, rfl, hjson⟩
      cases v with
      | text s => contradiction
      | list items =>
        obtain ⟨json, hjson⟩ := insertion_ok h
        exact ⟨items, json, rfl, hjson⟩
    exact ⟨json, hvalue, .inr (.inr (.inr ⟨table, key, field, index, vtable, ventry,
      items, id, hpath, hvtable.symm, hventry.symm, hitems, hid, hpos, hle, hshadow⟩))⟩
  · contradiction

theorem fixPath_fixPath (path : List String) : fixPath (fixPath path) = fixPath path := by
  have hchars : ∀ chars : List Char,
      replacePair '~' '1' '/' (replacePair '~' '1' '/' chars) =
        replacePair '~' '1' '/' chars := by
    intro chars
    fun_induction replacePair '~' '1' '/' chars with
    | case1 | case2 c => rfl
    | case3 c d rest hpair ih => rw [replacePair_cons_of_ne (by decide), ih]
    | case4 c d rest hpair ih =>
      by_cases hc : c = '~'
      · subst hc
        have hd : d ≠ '1' := fun hd => hpair ⟨rfl, hd⟩
        -- What follows the tilde is still not a `1`.
        obtain ⟨next, more, hnext, hne⟩ : ∃ next more,
            replacePair '~' '1' '/' (d :: rest) = next :: more ∧ next ≠ '1' := by
          by_cases hslash : d = '~'
          · subst hslash
            cases rest with
            | nil => exact ⟨'~', [], rfl, by decide⟩
            | cons e rest =>
              by_cases he : e = '1'
              · subst he
                exact ⟨'/', _, replacePair_tilde_one rest, by decide⟩
              · exact ⟨'~', _, by rw [replacePair, if_neg (by simp [he])], by decide⟩
          · exact ⟨d, _, replacePair_cons_of_ne hslash rest, hd⟩
        rw [hnext] at ih ⊢
        rw [replacePair, if_neg (by simp [hne]), ih]
      · rw [replacePair_cons_of_ne hc, ih]
  rcases path with _ | ⟨table, _ | ⟨key, rest⟩⟩
  · rfl
  · rfl
  · simp [fixPath, fixName, hchars]

/-- A replacement leaves everything around its target as it is. -/
theorem replace_targets (h : replace shadow path value = .ok shadow') :
    ∃ json removed put, value = .value json ∧ Targets shadow (fixPath path) removed put ∧
      shadow' = put json := by
  rw [JsonClient.replace] at h
  cases hremove : remove shadow path <;> simp only [hremove] at h <;> try cases h
  rename_i removed
  obtain ⟨json, hvalue, hadd⟩ := add_cases h
  obtain ⟨put, htargets⟩ := remove_targets hremove
  refine ⟨json, removed, put, hvalue, htargets, ?_⟩
  rw [fixPath_fixPath] at hadd
  generalize fixPath path = names at hadd htargets
  rcases hadd with ⟨_, rfl, hadd⟩ | ⟨_, _, rfl, hadd⟩ | ⟨_, _, _, _, _, rfl, rfl, rfl, hadd⟩ |
    ⟨_, _, _, _, _, _, _, id, rfl, rfl, rfl, rfl, hid', -, -, hadd⟩
  all_goals cases htargets
  · rwa [putMember_dropMember] at hadd
  · rwa [objectOr_member_storeObject, putMember_storeObject, putMember_dropMember] at hadd
  · simpa only [objectOr_member_storeObject, putMember_storeObject, putMember_dropMember] using hadd
  rename_i hpos hlt _ _ _ hid
  cases hid.symm.trans hid'
  simp only [objectOr_member_storeObject, putMember_storeObject, putMember_storeList,
    listOr_storeList] at hadd
  rwa [List.insertIdx_eraseIdx_self (by omega)] at hadd

/-! ## Edits of the patched document -/

theorem editAt_object_cons (edit : Json → String → Option Json) {token next : String} {value : Json}
    (rest : List String) (hmember : member members token = some value) :
    (Json.object members).editAt edit (token :: next :: rest) =
      (value.editAt edit (next :: rest)).map fun value =>
        .object (putMember members token value) := by
  rw [Json.editAt, Json.child, hmember, Option.bind_some]
  cases value.editAt edit (next :: rest) <;> rfl

/-- A list index is written as a plain number. -/
def CanonicalIndex (path : List String) : Prop :=
  ∀ index ∈ path.drop 3, ∃ n : Nat, index = toString n

/-- `Atoi` and a pointer read a plain number alike. -/
theorem tokenIndex_canonical {index : String} {n : Nat} (hindex : index = toString n)
    (hid : atoi index = some id) : tokenIndex index = some id.toNat := by
  subst hindex
  rw [atoi_toString_eq] at hid
  split at hid <;> cases hid
  rw [tokenIndex_toString, Int.toNat_natCast]

/-- A target of the shadow document is one of the patched document, and both ways to edit it
keep the relation. -/
theorem Targets.mirrors {put : Json → Members} {names : List String} (h : MirrorsObject 2 shadow doc)
    (hindex : CanonicalIndex names) (htargets : Targets shadow names shadow' put) :
    (∃ doc', (Json.object doc).editAt Json.removeChild names = some (.object doc') ∧
        MirrorsObject 2 shadow' doc') ∧
      ∀ json, ∃ doc', (Json.object doc).editAt (Json.replaceChild json) names =
        some (.object doc') ∧ MirrorsObject 2 (put json) doc' := by
  cases htargets with
  | table htable =>
    obtain ⟨vtable', hvtable', -⟩ := h.down htable
    refine ⟨⟨_, by simp [Json.editAt, Json.removeChild, hvtable'], h.drop⟩, fun json => ⟨_, ?_,
      h.put (Mirrors.refl 2 json)⟩⟩
    simp [Json.editAt, Json.replaceChild, Json.child, Json.setChild, hvtable']
  | entry htable hentry =>
    obtain ⟨vtable', hvtable', hrelTable⟩ := h.down htable
    obtain ⟨ventry', hventry', -⟩ := hrelTable.down hentry
    simp only [editAt_object_cons _ _ hvtable']
    refine ⟨⟨_, by simp [Json.editAt, Json.removeChild, hventry'], h.storeObject hrelTable.drop⟩,
      fun json => ⟨_, ?_, h.put (hrelTable.put (Mirrors.refl 1 json)).mirrors⟩⟩
    simp [Json.editAt, Json.replaceChild, Json.child, Json.setChild, hventry']
  | @field _ _ field _ _ _ htable hentry hfield =>
    obtain ⟨vtable', hvtable', hrelTable⟩ := h.down htable
    obtain ⟨ventry', hventry', hrelEntry⟩ := hrelTable.down hentry
    obtain ⟨vfield', hvfield', -⟩ := (hrelEntry field).1 _ hfield
    simp only [editAt_object_cons _ _ hvtable', editAt_object_cons _ _ hventry']
    refine ⟨⟨_, by simp [Json.editAt, Json.removeChild, hvfield'],
        h.storeObject (hrelTable.storeObject hrelEntry.drop)⟩, fun json => ⟨_, ?_,
      h.put (hrelTable.put (hrelEntry.put (Mirrors.refl 0 json)).mirrors).mirrors⟩⟩
    simp [Json.editAt, Json.replaceChild, Json.child, Json.setChild, hvfield']
  | @item _ _ field index _ _ _ _ htable hentry hfield hid hpos hlt =>
    obtain ⟨vtable', hvtable', hrelTable⟩ := h.down htable
    obtain ⟨ventry', hventry', hrelEntry⟩ := hrelTable.down hentry
    obtain ⟨vfield', hvfield', rfl⟩ := (hrelEntry field).1 _ hfield
    obtain ⟨n, hn⟩ := hindex index (by simp)
    have htoken := tokenIndex_canonical hn hid
    simp only [editAt_object_cons _ _ hvtable', editAt_object_cons _ _ hventry',
      editAt_object_cons _ _ hvfield']
    refine ⟨⟨_, by simp [Json.editAt, Json.removeChild, htoken, hlt],
        h.storeObject (hrelTable.storeObject hrelEntry.storeList)⟩, fun json => ⟨_, ?_,
      h.put (hrelTable.put (hrelEntry.put rfl).mirrors).mirrors⟩⟩
    simp [Json.editAt, Json.replaceChild, Json.child, Json.setChild, htoken, hlt]

/-- The container for the last part of a path is there: the table of an entry,
the entry of a field, or the list of an item. -/
def ParentReady (doc : Members) : List String → Prop
  | [_] => True
  | [table, _] => ∃ vtable, member doc table = some (.object vtable)
  | [table, key, _] => ∃ vtable ventry, member doc table = some (.object vtable) ∧
      member vtable key = some (.object ventry)
  | [table, key, field, _] => ∃ vtable ventry items,
      member doc table = some (.object vtable) ∧ member vtable key = some (.object ventry) ∧
      member ventry field = some (.array items)
  | _ => False

/-- An object that the patched document has is mirrored by what the shadow
document has there, or by the object that it makes. -/
theorem MirrorsObject.downOrNew {members' content' : Members}
    (h : MirrorsObject (depth + 1) members members')
    (hmember : member members' name = some (.object content')) :
    MirrorsObject depth (objectOr (member members name)) content' := by
  cases hshadow : member members name with
  | none =>
    obtain ⟨found, hfound, hhollow⟩ := (h name).2 _ hshadow hmember
    cases hfound
    intro other
    refine ⟨fun value hvalue => ?_, fun value' _ hvalue' => hhollow other value' hvalue'⟩
    cases hvalue
  | some value =>
    obtain ⟨value', hvalue', hrel⟩ := (h name).1 _ hshadow
    rw [hmember, Option.some.injEq] at hvalue'
    subst hvalue'
    rcases hrel with rfl | ⟨found, found', rfl, hfound', hcontent⟩
    · exact MirrorsObject.refl depth content'
    · cases hfound'
      exact hcontent

theorem listOr_mirrors {entry entry' : Members}
    (h : MirrorsObject 0 entry entry') (hmember : member entry' name = some (.array items)) :
    listOr (decodeJsonField entry name) = items := by
  cases hshadow : member entry name with
  | none =>
    have hhollow := (h name).2 _ hshadow hmember
    cases hhollow
    simp [decodeJsonField, hshadow, listOr]
  | some value =>
    obtain ⟨value', hvalue', hrel⟩ := (h name).1 _ hshadow
    rw [hmember, Option.some.injEq] at hvalue'
    cases hvalue'
    cases hrel
    simp [decodeJsonField, hshadow, listOr, FieldValue.items]

/-- An addition that the shadow document accepts is possible in the patched
document when its container is there, and keeps the relation. -/
theorem add_mirrors (h : MirrorsObject 2 shadow doc) (hindex : CanonicalIndex (fixPath path))
    (hready : ParentReady doc (fixPath path)) (hadd : add shadow path value = .ok shadow') :
    ∃ json doc', value = .value json ∧
      (Json.object doc).editAt (Json.addChild json) (fixPath path) = some (.object doc') ∧
      MirrorsObject 2 shadow' doc' := by
  obtain ⟨json, hvalue, hcases⟩ := add_cases hadd
  refine ⟨json, ?_⟩
  simp only [hvalue, true_and]
  rcases hcases with ⟨table, hpath, rfl⟩ | ⟨table, key, hpath, rfl⟩ |
    ⟨table, key, field, vtable, ventry, hpath, rfl, rfl, rfl⟩ |
    ⟨table, key, field, index, vtable, ventry, items, id, hpath, rfl, rfl, hitems, hid, hpos, hle,
      rfl⟩
  · rw [hpath]
    exact ⟨_, by simp [Json.editAt, Json.addChild], h.put (Mirrors.refl 2 json)⟩
  · rw [hpath] at hready
    obtain ⟨vtable', hvtable'⟩ := hready
    rw [hpath, editAt_object_cons _ _ hvtable']
    exact ⟨_, by simp [Json.editAt, Json.addChild],
      h.put ((h.downOrNew hvtable').put (Mirrors.refl 1 json)).mirrors⟩
  · rw [hpath] at hready
    obtain ⟨vtable', ventry', hvtable', hventry'⟩ := hready
    have hrelTable := h.downOrNew hvtable'
    have hrelEntry := hrelTable.downOrNew hventry'
    rw [hpath, editAt_object_cons _ _ hvtable', editAt_object_cons _ _ hventry']
    exact ⟨_, by simp [Json.editAt, Json.addChild],
      h.put (hrelTable.put (hrelEntry.put (Mirrors.refl 0 json)).mirrors).mirrors⟩
  · rw [hpath] at hready
    obtain ⟨vtable', ventry', items', hvtable', hventry', hitems'⟩ := hready
    have hrelTable := h.downOrNew hvtable'
    have hrelEntry := hrelTable.downOrNew hventry'
    rw [listOr_mirrors hrelEntry hitems'] at hitems
    subst hitems
    obtain ⟨n, hn⟩ := hindex index (by rw [hpath]; simp)
    have htoken := tokenIndex_canonical hn hid
    have hdash : index ≠ "-" := by
      rintro rfl
      have hnone : atoi "-" = none := by decide
      rw [hnone] at hid
      contradiction
    rw [hpath, editAt_object_cons _ _ hvtable', editAt_object_cons _ _ hventry',
      editAt_object_cons _ _ hitems']
    exact ⟨_, by simp [Json.editAt, Json.addChild, hdash, htoken, hle],
      h.put (hrelTable.put (hrelEntry.put rfl).mirrors).mirrors⟩

end SonicGnmi.Sdc
