import SonicGnmi.TranslUtils.DiffLeaves

/-!
# The comparison of two structs is a patch

What `Diff` records turns the leaf map of the original into the leaf map of the
modified struct.

* `ComparesFields`, `ComparesField` — what is shown of a struct and of a field;
* `forStruct_mends`, `forList_mends` — pointers to structs, and lists of instances;
* `diff_is_patch` — the whole call.
-/

namespace SonicGnmi.TranslUtils

open Foundation Gnmi AList Fields Kind List Mends Option

/-! ## Structs -/

/-- `TogNMINotifications` emits exactly the leaves of a well-typed struct. -/
def EmitsLeaves (ygot : Ygot) (keyTexts : Fields → List Cell → GoMap String String) : Prop :=
  ∀ (type : Fields) (value : type.Struct) (update : List (List PathElem × Leaf)),
    type.regular = true → type.WellTyped ygot.toBindings keyTexts value →
    ygot.togNMINotifications type value = .ok update →
    ∀ loc leaf, (loc, leaf) ∈ update ↔ type.leafAt ygot.toBindings value loc = some leaf

section

variable {ygot : Ygot} {keyTexts : Fields → List Cell → GoMap String String} {type : Fields}
  {path : List PathElem} {before after : LeafMap PathElem Leaf}

variable {value : type.Struct} {fields : List PathElem → type.Struct → type.Struct → Recorded}
  {instances : GoMap (List Cell) type.Struct} {key : List Cell}

theorem recordUpdates_mends (hemits : EmitsLeaves ygot keyTexts) (hregular : type.regular = true)
    (htyped : type.WellTyped ygot.toBindings keyTexts value)
    (hbefore : ∀ tail, before (path ++ tail) = none)
    (hafter : ∀ tail, after (path ++ tail) = type.leafAt ygot.toBindings value tail)
    (hclean : (recordUpdates ygot type path value).Clean) :
    Mends (recordUpdates ygot type path value).patch (below path) before after := by
  cases hemitted : ygot.togNMINotifications type value with
  | error err =>
    rw [recordUpdates, hemitted] at hclean
    exact absurd hclean (not_clean_recordError _ _ _)
  | ok update =>
    have hexact := hemits type value update hregular htyped hemitted
    rw [recordUpdates, hemitted]
    refine writes (fun loc leaf => ?_) fun loc hloc _ => ?_
    · rw [List.mem_map]
      constructor
      · rintro ⟨entry, hentry, heq⟩
        obtain ⟨rfl, rfl⟩ := Prod.mk.inj heq
        exact ⟨mem_below_iff.2 ⟨_, rfl⟩, (hafter _).trans ((hexact _ _).1 hentry)⟩
      · rintro ⟨hloc, hleaf⟩
        obtain ⟨tail, rfl⟩ := mem_below_iff.1 hloc
        rw [hafter] at hleaf
        exact ⟨(tail, leaf), (hexact _ _).2 hleaf, rfl⟩
    · obtain ⟨tail, rfl⟩ := mem_below_iff.1 hloc
      exact hbefore tail

/-- What is shown of the loop over the fields of a type. -/
def ComparesFields (ygot : Ygot) (keyTexts : Fields → List Cell → GoMap String String)
    (type : Fields) (fields : List PathElem → type.Struct → type.Struct → Recorded) : Prop :=
  ∀ path s1 s2 (before after : LeafMap PathElem Leaf),
    type.WellTyped ygot.toBindings keyTexts s1 → type.WellTyped ygot.toBindings keyTexts s2 →
    (∀ elem tail, elem.name ∈ type.names →
      before (path ++ elem :: tail) = type.leafAt ygot.toBindings s1 (elem :: tail)) →
    (∀ elem tail, elem.name ∈ type.names →
      after (path ++ elem :: tail) = type.leafAt ygot.toBindings s2 (elem :: tail)) →
    (fields path s1 s2).Clean →
    Mends (fields path s1 s2).patch (structScope path type.names) before after

/-- The fields of two structs, as a patch of everything below the path of the struct. -/
theorem ComparesFields.mends_below (hfields : ComparesFields ygot keyTexts type fields)
    {s1 s2 : type.Struct} (htyped1 : type.WellTyped ygot.toBindings keyTexts s1)
    (htyped2 : type.WellTyped ygot.toBindings keyTexts s2)
    (hbefore : ∀ tail, before (path ++ tail) = type.leafAt ygot.toBindings s1 tail)
    (hafter : ∀ tail, after (path ++ tail) = type.leafAt ygot.toBindings s2 tail)
    (hclean : (fields path s1 s2).Clean) :
    Mends (fields path s1 s2).patch (below path) before after := by
  refine (hfields path s1 s2 before after htyped1 htyped2 (fun _ _ _ => hbefore _)
    (fun _ _ _ => hafter _) hclean).extend ?_ ?_
  · rintro loc ⟨elem, tail, rfl, -⟩
    exact mem_below_iff.2 ⟨_, rfl⟩
  intro loc hloc hout
  obtain ⟨tail, rfl⟩ := mem_below_iff.1 hloc
  rw [hbefore, hafter]
  rcases tail with _ | ⟨elem, tail⟩
  · rw [leafAt_nil, leafAt_nil]
  · have hname : elem.name ∉ type.names := fun hmem => hout ⟨elem, tail, rfl, hmem⟩
    rw [leafAt_of_not_mem _ _ _ _ _ hname, leafAt_of_not_mem _ _ _ _ _ hname]

theorem forStruct_mends (hemits : EmitsLeaves ygot keyTexts) (hregular : type.regular = true)
    (hfields : ComparesFields ygot keyTexts type fields) {v1 v2 : Option type.Struct}
    (htyped1 : ∀ s, v1 = some s → type.WellTyped ygot.toBindings keyTexts s)
    (htyped2 : ∀ s, v2 = some s → type.WellTyped ygot.toBindings keyTexts s)
    (hbefore : ∀ tail, before (path ++ tail) = v1.bind fun s => type.leafAt ygot.toBindings s tail)
    (hafter : ∀ tail, after (path ++ tail) = v2.bind fun s => type.leafAt ygot.toBindings s tail)
    (hclean : (forStruct path (recordUpdates ygot type path) (fields path) v1 v2).Clean) :
    Mends (forStruct path (recordUpdates ygot type path) (fields path) v1 v2).patch
      (below path) before after := by
  rcases v1 with _ | old <;> rcases v2 with _ | new
  · refine empty fun loc hloc => ?_
    obtain ⟨tail, rfl⟩ := mem_below_iff.1 hloc
    rw [hbefore, hafter]
  · exact recordUpdates_mends hemits hregular (htyped2 new rfl) hbefore hafter hclean
  · refine delete fun loc hloc => ?_
    obtain ⟨tail, rfl⟩ := mem_below_iff.1 hloc
    exact hafter tail
  · exact hfields.mends_below (htyped1 old rfl) (htyped2 new rfl) hbefore hafter hclean

/-! ## Lists -/

section

variable (htyped : WellTyped ygot.toBindings keyTexts (.list type) instances)
include htyped

/-- In a well-typed list the instance with the texts of a key is the one stored under
this key. -/
theorem instanceAt_of_lookup (hlookup : instances.lookup key = some value) :
    ygot.instanceAt type instances (keyTexts type key) = some value := by
  have hmem : ⟨key, value⟩ ∈ instances.entries := mem_lookup_iff.1 hlookup
  cases hat : ygot.instanceAt type instances (keyTexts type key) with
  | none =>
    rw [Bindings.instanceAt, map_eq_none_iff, find?_eq_none] at hat
    exact absurd (decide_eq_true (htyped.1 key value hlookup).1) (hat _ hmem)
  | some value' =>
    obtain ⟨⟨key', value'⟩, hentry, hpath, rfl⟩ := mem_of_instanceAt hat
    have hlookup' : instances.lookup key' = some value' := mem_lookup_iff.2 hentry
    have htexts : some (keyTexts type key') = some (keyTexts type key) :=
      (htyped.1 key' value' hlookup').1.symm.trans hpath
    have hkey : key' = key := htyped.2 key' key (lookup_isSome.1 (by rw [hlookup']; rfl))
      (lookup_isSome.1 (by rw [hlookup]; rfl)) (some.inj htexts)
    rw [← hlookup, ← hkey, hlookup']

theorem instanceAt_eq_none {texts : GoMap String String}
    (hno : ∀ key ∈ instances, keyTexts type key ≠ texts) :
    ygot.instanceAt type instances texts = none := by
  refine eq_none_iff_forall_ne_some.2 fun value hat => ?_
  obtain ⟨⟨key, value⟩, hentry, hpath, rfl⟩ := mem_of_instanceAt hat
  have hlookup : instances.lookup key = some value := mem_lookup_iff.2 hentry
  have htexts := (htyped.1 key value hlookup).1.symm.trans hpath
  exact hno key (lookup_isSome.1 (by rw [hlookup]; rfl)) (some.inj htexts)

/-- The paths of the list instance with the texts of a key. -/
def instanceScope (keyTexts : Fields → List Cell → GoMap String String) (type : Fields)
    (path : List PathElem) (name : String) (key : List Cell) : Set (List PathElem) :=
  below (path ++ [{ name := name, key := keyTexts type key }])

variable {name : String}

theorem key_eq_of_instanceScope {key' : List Cell} (hkey : key ∈ instances)
    (hkey' : key' ∈ instances) {loc : List PathElem}
    (hloc : loc ∈ instanceScope keyTexts type path name key)
    (hloc' : loc ∈ instanceScope keyTexts type path name key') : key = key' := by
  obtain ⟨tail, rfl⟩ := mem_below_elem_iff.1 hloc
  obtain ⟨tail', heq⟩ := mem_below_elem_iff.1 hloc'
  have hhead := (cons.inj (append_cancel_left heq)).1
  exact htyped.2 key key' hkey hkey' (congrArg PathElem.key hhead)

/-- The instances of one list lie in disjoint regions. -/
theorem pairwise_instanceScope (order : RangeOrder (List Cell) type.Struct) :
    (order.visit instances).Pairwise fun a b =>
      ∀ loc ∈ instanceScope keyTexts type path name a.1,
        loc ∉ instanceScope keyTexts type path name b.1 := by
  have hkeys : (order.visit instances).Pairwise fun a b => a.1 ≠ b.1 :=
    ((order.perm instances).pairwise_iff fun h => h.symm).2
      (nodupKeys_iff_pairwise.1 instances.nodupKeys)
  refine hkeys.imp_of_mem fun {a b} ha hb hne loc hloc hloc' => ?_
  have hmem {entry : Σ _ : List Cell, type.Struct} (h : entry ∈ order.visit instances) :
      entry.1 ∈ instances :=
    lookup_isSome.1 (by rw [(order.mem_visit instances entry.1 entry.2).1 h]; rfl)
  exact hne (key_eq_of_instanceScope htyped (hmem ha) (hmem hb) hloc hloc')

/-- A leaf map holds the given instances at the elements of the given name. -/
def HoldsList (ygot : Ygot) (type : Fields) (path : List PathElem) (name : String)
    (leaves : LeafMap PathElem Leaf) (instances : GoMap (List Cell) type.Struct) : Prop :=
  ∀ key tail, leaves (path ++ { name := name, key := key } :: tail) =
    (ygot.instanceAt type instances key).bind fun inner => type.leafAt ygot.toBindings inner tail

theorem HoldsList.at_instance {leaves : LeafMap PathElem Leaf}
    (hlist : HoldsList ygot type path name leaves instances)
    (hlookup : instances.lookup key = some value) (tail : List PathElem) :
    leaves (path ++ [{ name := name, key := keyTexts type key }] ++ tail) =
      type.leafAt ygot.toBindings value tail := by
  rw [append_assoc, singleton_append, hlist, instanceAt_of_lookup htyped hlookup, bind_some]

theorem HoldsList.elsewhere {leaves : LeafMap PathElem Leaf}
    (hlist : HoldsList ygot type path name leaves instances)
    {loc : List PathElem} (hloc : loc ∈ fieldScope path name)
    (hno : ∀ key ∈ instances, loc ∉ instanceScope keyTexts type path name key) :
    leaves loc = none := by
  obtain ⟨key, tail, rfl⟩ := hloc
  rw [hlist, instanceAt_eq_none htyped, bind_none]
  rintro key' hkey' rfl
  exact hno key' hkey' (mem_below_elem_iff.2 ⟨tail, rfl⟩)

/-- A loop over the instances of a list that mends each of them mends the list. -/
theorem loop_mends (order : RangeOrder (List Cell) type.Struct)
    {turn : (Σ _ : List Cell, type.Struct) → Recorded} (hturn : ∀ entry ∈ order.visit instances,
      Mends (turn entry).patch (instanceScope keyTexts type path name entry.1) before after)
    (helsewhere : ∀ loc ∈ fieldScope path name,
      (∀ key ∈ instances, loc ∉ instanceScope keyTexts type path name key) →
      before loc = after loc) :
    Mends (Recorded.concat ((order.visit instances).map turn)).patch (fieldScope path name)
      before after := by
  rw [Recorded.patch_concat, List.map_map]
  refine (concat hturn (pairwise_instanceScope htyped order)).extend ?_ ?_
  · rintro loc ⟨entry, -, hloc⟩
    obtain ⟨tail, rfl⟩ := mem_below_elem_iff.1 hloc
    exact ⟨_, tail, rfl⟩
  · intro loc hloc hout
    refine helsewhere loc hloc fun key hkey hin => ?_
    obtain ⟨value, hlookup⟩ := isSome_iff_exists.1 (lookup_isSome.2 hkey)
    exact hout ⟨⟨key, value⟩, (order.mem_visit instances key value).2 hlookup, hin⟩

end

/-- Between the two loops of `forList`: the instances that both maps have are up to date,
and the others are gone. -/
structure Between (keyTexts : Fields → List Cell → GoMap String String) (type : Fields)
    (path : List PathElem) (name : String) (m1 m2 : GoMap (List Cell) type.Struct)
    (mid after : LeafMap PathElem Leaf) : Prop where
  shared : ∀ key ∈ m1, key ∈ m2 → ∀ loc ∈ instanceScope keyTexts type path name key,
    mid loc = after loc
  gone : ∀ loc, (∀ key ∈ m1, key ∈ m2 → loc ∉ instanceScope keyTexts type path name key) →
    mid loc = none

theorem exists_between (keyTexts : Fields → List Cell → GoMap String String) (type : Fields)
    (path : List PathElem) (name : String) (m1 m2 : GoMap (List Cell) type.Struct)
    (after : LeafMap PathElem Leaf) : ∃ mid, Between keyTexts type path name m1 m2 mid after := by
  classical
  refine ⟨fun loc => if ∃ key ∈ m1, key ∈ m2 ∧ loc ∈ instanceScope keyTexts type path name key
    then after loc else none, ⟨fun key hkey1 hkey2 loc hloc => ?_, fun loc hloc => ?_⟩⟩
  · exact if_pos ⟨key, hkey1, hkey2, hloc⟩
  · refine if_neg ?_
    rintro ⟨key, hkey1, hkey2, hin⟩
    exact hloc key hkey1 hkey2 hin

variable {name : String} {m1 m2 : GoMap (List Cell) type.Struct} {mid : LeafMap PathElem Leaf}

theorem compareInstance_mends (hfields : ComparesFields ygot keyTexts type fields)
    (htyped1 : WellTyped ygot.toBindings keyTexts (.list type) m1)
    (htyped2 : WellTyped ygot.toBindings keyTexts (.list type) m2)
    (hbefore : HoldsList ygot type path name before m1)
    (hafter : HoldsList ygot type path name after m2)
    (hmid : Between keyTexts type path name m1 m2 mid after)
    {old : type.Struct} (hlookup : m1.lookup key = some old)
    (hclean : (compareInstance ygot path type fields name m2 ⟨key, old⟩).Clean) :
    Mends (compareInstance ygot path type fields name m2 ⟨key, old⟩).patch
      (instanceScope keyTexts type path name key) before mid := by
  have hkey1 : key ∈ m1 := lookup_isSome.1 (by rw [hlookup]; rfl)
  obtain ⟨hpath1, hold⟩ := htyped1.1 key old hlookup
  cases hlookup2 : m2.lookup key with
  | some new =>
    have hkey2 : key ∈ m2 := lookup_isSome.1 (by rw [hlookup2]; rfl)
    obtain ⟨hpath2, hnew⟩ := htyped2.1 key new hlookup2
    simp only [compareInstance, hlookup2, withInstance, hpath2, forStruct] at hclean ⊢
    refine hfields.mends_below hold hnew (hbefore.at_instance htyped1 hlookup)
      (fun tail => ?_) hclean
    rw [hmid.shared key hkey1 hkey2 _ (mem_below_iff.2 ⟨tail, rfl⟩)]
    exact hafter.at_instance htyped2 hlookup2 tail
  | none =>
    simp only [compareInstance, hlookup2, withInstance, hpath1, recordDeletePath]
    refine delete fun loc hloc => hmid.gone loc fun key' hkey1' hkey2' hloc' => ?_
    have heq : key' = key := key_eq_of_instanceScope htyped1 hkey1' hkey1 hloc' hloc
    rw [heq, ← lookup_isSome, hlookup2] at hkey2'
    simp at hkey2'

theorem newInstance_mends (hemits : EmitsLeaves ygot keyTexts) (hregular : type.regular = true)
    (htyped2 : WellTyped ygot.toBindings keyTexts (.list type) m2)
    (hafter : HoldsList ygot type path name after m2)
    (hmid : Between keyTexts type path name m1 m2 mid after)
    {new : type.Struct} (hlookup : m2.lookup key = some new)
    (hclean : (newInstance ygot path type name m1 ⟨key, new⟩).Clean) :
    Mends (newInstance ygot path type name m1 ⟨key, new⟩).patch
      (instanceScope keyTexts type path name key) mid after := by
  have hkey2 : key ∈ m2 := lookup_isSome.1 (by rw [hlookup]; rfl)
  cases hlookup1 : m1.lookup key with
  | some old =>
    have hkey1 : key ∈ m1 := lookup_isSome.1 (by rw [hlookup1]; rfl)
    simp only [newInstance, hlookup1]
    exact empty fun loc hloc => hmid.shared key hkey1 hkey2 loc hloc
  | none =>
    obtain ⟨hpath, hnew⟩ := htyped2.1 key new hlookup
    simp only [newInstance, hlookup1, withInstance, hpath] at hclean ⊢
    refine recordUpdates_mends hemits hregular hnew (fun tail => ?_)
      (hafter.at_instance htyped2 hlookup) hclean
    refine hmid.gone _ fun key' hkey1' hkey2' hloc' => ?_
    have heq : key' = key :=
      key_eq_of_instanceScope htyped2 hkey2' hkey2 hloc' (mem_below_iff.2 ⟨tail, rfl⟩)
    rw [heq, ← lookup_isSome, hlookup1] at hkey1'
    simp at hkey1'

theorem delete_newInstance (entry : Σ _ : List Cell, type.Struct) :
    (newInstance ygot path type name m1 entry).patch.delete = [] := by
  rw [newInstance]
  split
  · rfl
  rw [withInstance]
  split
  · rfl
  · rw [recordUpdates]
    split <;> rfl

theorem forList_mends (hemits : EmitsLeaves ygot keyTexts) (hregular : type.regular = true)
    (order : RangeOrder (List Cell) type.Struct)
    (hfields : ComparesFields ygot keyTexts type fields)
    (htyped1 : WellTyped ygot.toBindings keyTexts (.list type) m1)
    (htyped2 : WellTyped ygot.toBindings keyTexts (.list type) m2)
    (hbefore : HoldsList ygot type path name before m1)
    (hafter : HoldsList ygot type path name after m2)
    (hclean : (forList ygot path type order fields name m1 m2).Clean) :
    Mends (forList ygot path type order fields name m1 m2).patch
      (fieldScope path name) before after := by
  obtain ⟨mid, hmid⟩ := exists_between keyTexts type path name m1 m2 after
  rw [forList, Recorded.clean_append_iff, Recorded.clean_concat_iff, Recorded.clean_concat_iff,
    List.forall_mem_map, List.forall_mem_map] at hclean
  have hcompare : Mends (Recorded.concat ((order.visit m1).map
      (compareInstance ygot path type fields name m2))).patch (fieldScope path name)
      before mid := by
    refine loop_mends htyped1 order (fun entry hentry => ?_) fun loc hloc hno => ?_
    · exact compareInstance_mends hfields htyped1 htyped2 hbefore hafter hmid
        ((order.mem_visit m1 entry.1 entry.2).1 hentry) (hclean.1 entry hentry)
    · rw [hbefore.elsewhere htyped1 hloc hno, hmid.gone loc fun key hkey _ => hno key hkey]
  have hnew : Mends (Recorded.concat ((order.visit m2).map
      (newInstance ygot path type name m1))).patch (fieldScope path name) mid after := by
    refine loop_mends htyped2 order (fun entry hentry => ?_) fun loc hloc hno => ?_
    · exact newInstance_mends hemits hregular htyped2 hafter hmid
        ((order.mem_visit m2 entry.1 entry.2).1 hentry) (hclean.2 entry hentry)
    · rw [hafter.elsewhere htyped2 hloc hno, hmid.gone loc fun key _ hkey => hno key hkey]
  -- the second loop deletes nothing, so its updates act after everything of the first one
  refine hcompare.seq hnew ?_
  rw [Recorded.patch_concat, List.map_map]
  exact Patch.delete_concat (List.forall_mem_map.2 fun entry _ => delete_newInstance entry)

end

/-! ## Fields -/

/-- What is shown of the comparison of a field. -/
def ComparesField (ygot : Ygot) (keyTexts : Fields → List Cell → GoMap String String) (kind : Kind)
    (name : String) (field : List PathElem → kind.Value → kind.Value → Recorded) : Prop :=
  ∀ path v1 v2 (before after : LeafMap PathElem Leaf),
    kind.WellTyped ygot.toBindings keyTexts v1 → kind.WellTyped ygot.toBindings keyTexts v2 →
    (∀ key tail, before (path ++ { name := name, key := key } :: tail) =
      kind.leafAt ygot.toBindings v1 key tail) →
    (∀ key tail, after (path ++ { name := name, key := key } :: tail) =
      kind.leafAt ygot.toBindings v2 key tail) →
    (field path v1 v2).Clean →
    Mends (field path v1 v2).patch (fieldScope path name) before after

section

variable {ygot : Ygot} {keyTexts : Fields → List Cell → GoMap String String}

theorem comparesField_of_outcome {kind : Kind} {name : String}
    {field : List PathElem → kind.Value → kind.Value → Recorded} (leafOf : kind.Value → Option Leaf)
    (hleaf : ∀ value key tail,
      kind.leafAt ygot.toBindings value key tail = leafHere (leafOf value) key tail)
    (houtcome : ∀ path v1 v2,
      LeafOutcome ygot path name (leafOf v1) (leafOf v2) (field path v1 v2)) :
    ComparesField ygot keyTexts kind name field := by
  intro path v1 v2 before after _ _ hbefore hafter hclean
  refine (houtcome path v1 v2).mends (fun key tail => ?_) (fun key tail => ?_) hclean
  · rw [hbefore, hleaf]
  · rw [hafter, hleaf]

variable {type : Fields}

theorem comparesField_container (hemits : EmitsLeaves ygot keyTexts)
    (hregular : type.regular = true) {fields : List PathElem → type.Struct → type.Struct → Recorded}
    (hfields : ComparesFields ygot keyTexts type fields) (name : String) :
    ComparesField ygot keyTexts (.container type) name fun path v1 v2 =>
      forStruct (path ++ [{ name := name }]) (recordUpdates ygot type (path ++ [{ name := name }]))
        (fields (path ++ [{ name := name }])) v1 v2 := by
  intro path v1 v2 before after htyped1 htyped2 hbefore hafter hclean
  have hat {leaves : LeafMap PathElem Leaf} {value : Option type.Struct}
      (hleaves : ∀ key tail, leaves (path ++ { name := name, key := key } :: tail) =
        leafAt ygot.toBindings (.container type) value key tail) (tail : List PathElem) :
      leaves (path ++ [{ name := name }] ++ tail) =
        value.bind fun inner => type.leafAt ygot.toBindings inner tail := by
    rw [append_assoc, singleton_append, hleaves]
    exact if_pos rfl
  refine (forStruct_mends hemits hregular hfields htyped1 htyped2 (hat hbefore) (hat hafter)
    hclean).extend ?_ ?_
  · intro loc hloc
    obtain ⟨tail, rfl⟩ := mem_below_elem_iff.1 hloc
    exact ⟨∅, tail, rfl⟩
  · rintro loc ⟨key, tail, rfl⟩ hout
    have hkey : key ≠ ∅ := by
      rintro rfl
      exact hout (mem_below_elem_iff.2 ⟨tail, rfl⟩)
    rw [hbefore, hafter, Kind.leafAt, Kind.leafAt, if_neg hkey, if_neg hkey]

/-- A field in front of others: their paths begin with different names. -/
theorem comparesFields_cons {goName name : String} {kind : Kind} {rest : Fields}
    (hname : name ∉ rest.names) {field : List PathElem → kind.Value → kind.Value → Recorded}
    {fields : List PathElem → rest.Struct → rest.Struct → Recorded}
    (hfield : ComparesField ygot keyTexts kind name field)
    (hfields : ComparesFields ygot keyTexts rest fields) :
    ComparesFields ygot keyTexts (.cons goName name kind rest) fun path s1 s2 =>
      fields path s1.2 s2.2 ++ field path s1.1 s2.1 := by
  intro path s1 s2 before after htyped1 htyped2 hbefore hafter hclean
  rw [Recorded.clean_append_iff] at hclean
  have hrest {leaves : LeafMap PathElem Leaf} {value : (cons goName name kind rest).Struct}
      (hleaves : ∀ elem tail, elem.name ∈ (cons goName name kind rest).names →
        leaves (path ++ elem :: tail) = leafAt ygot.toBindings _ value (elem :: tail))
      (elem : PathElem) (tail : List PathElem) (hmem : elem.name ∈ rest.names) :
      leaves (path ++ elem :: tail) = rest.leafAt ygot.toBindings value.2 (elem :: tail) := by
    have hne : elem.name ≠ name := fun heq => hname (heq ▸ hmem)
    rw [hleaves elem tail (List.mem_cons_of_mem _ hmem), Fields.leafAt, if_neg hne]
  have hfirst {leaves : LeafMap PathElem Leaf} {value : (cons goName name kind rest).Struct}
      (hleaves : ∀ elem tail, elem.name ∈ (cons goName name kind rest).names →
        leaves (path ++ elem :: tail) = leafAt ygot.toBindings _ value (elem :: tail))
      (key : GoMap String String) (tail : List PathElem) :
      leaves (path ++ { name := name, key := key } :: tail) =
        kind.leafAt ygot.toBindings value.1 key tail := by
    rw [hleaves _ _ (List.mem_cons_self ..), Fields.leafAt, if_pos rfl]
  have hothers := hfields path s1.2 s2.2 before after htyped1.2 htyped2.2 (hrest hbefore)
    (hrest hafter) hclean.1
  have hone := hfield path s1.1 s2.1 before after htyped1.1 htyped2.1 (hfirst hbefore)
    (hfirst hafter) hclean.2
  have hapart : ∀ loc ∈ structScope path rest.names, loc ∉ fieldScope path name := by
    rintro loc ⟨elem, tail, rfl, hmem⟩ ⟨key, tail', heq⟩
    rw [(cons.inj (append_cancel_left heq)).1] at hmem
    exact hname hmem
  refine (hothers.append hone hapart).extend ?_ ?_
  · rintro loc (⟨elem, tail, rfl, hmem⟩ | ⟨key, tail, rfl⟩)
    · exact ⟨elem, tail, rfl, mem_cons_of_mem _ hmem⟩
    · exact ⟨_, tail, rfl, mem_cons_self ..⟩
  · rintro loc ⟨elem, tail, rfl, hmem⟩ hout
    refine absurd ?_ hout
    rcases mem_cons.1 hmem with heq | hmem
    · exact Or.inr ⟨elem.key, tail, by rw [← heq]⟩
    · exact Or.inl ⟨elem, tail, rfl, hmem⟩

/-! ## The whole comparison -/

variable (order : (type : Fields) → RangeOrder (List Cell) type.Struct) (recordAll : Bool)

mutual

theorem Kind.diff_compares (hemits : EmitsLeaves ygot keyTexts) (goName name : String) :
    (kind : Kind) → kind.regular = true →
      ComparesField ygot keyTexts kind name (kind.diff ygot order recordAll goName name)
  | .leaf, _ => comparesField_of_outcome _ (fun _ _ _ => rfl) fun _ => forLeaf_outcome recordAll
  | .emptyLeaf, hregular => absurd hregular (by decide)
  | .enum typeName, _ =>
    comparesField_of_outcome _ (fun _ _ _ => rfl) fun _ => forEnum_outcome recordAll typeName
  | .union, _ => comparesField_of_outcome _ (fun _ _ _ => rfl) fun _ => forUnion_outcome recordAll
  | .leafList, _ =>
    comparesField_of_outcome _ (fun _ _ _ => rfl) fun _ => forLeafList_outcome recordAll
  | .container type, hregular =>
    comparesField_container hemits hregular (Fields.diff_compares hemits type hregular) name
  | .list type, hregular =>
    fun _ _ _ _ _ htyped1 htyped2 hbefore hafter hclean =>
      forList_mends hemits hregular (order type) (Fields.diff_compares hemits type hregular) htyped1
        htyped2 (fun key tail => by rw [hbefore, Kind.leafAt])
        (fun key tail => by rw [hafter, Kind.leafAt]) hclean
  | .other _, _ => by
      intro path v1 v2 before after _ _ _ _ hclean
      exact absurd hclean (not_clean_recordError _ _ _)

theorem Fields.diff_compares (hemits : EmitsLeaves ygot keyTexts) : (type : Fields) →
    type.regular = true → ComparesFields ygot keyTexts type (type.diff ygot order recordAll)
  | .nil, _ => by
      intro path s1 s2 before after _ _ _ _ _
      refine empty ?_
      rintro loc ⟨elem, tail, -, hmem⟩
      exact absurd hmem (not_mem_nil)
  | .cons goName name kind rest, hregular => by
      rw [Fields.regular, Bool.and_eq_true, Bool.and_eq_true, Bool.not_eq_true'] at hregular
      obtain ⟨⟨hkind, hname⟩, hrest⟩ := hregular
      refine comparesFields_cons ?_ (Kind.diff_compares hemits goName name kind hkind)
        (Fields.diff_compares hemits rest hrest)
      intro hmem
      rw [contains_iff_mem.2 hmem] at hname
      exact Bool.noConfusion hname

end

theorem diffStruct_mends (hemits : EmitsLeaves ygot keyTexts)
    (hregular : type.regular = true) {original : Option type.Struct} {modified : type.Struct}
    (horiginal : ∀ old, original = some old → type.WellTyped ygot.toBindings keyTexts old)
    (hmodified : type.WellTyped ygot.toBindings keyTexts modified)
    (hclean : (diffStruct ygot order recordAll type original modified).Clean) :
    (diffStruct ygot order recordAll type original modified).patch.apply
      (fun loc => original.bind fun old => type.leafAt ygot.toBindings old loc) =
        type.leafAt ygot.toBindings modified := by
  refine apply_eq ?_
  have hroot : below [] = Set.univ := Set.eq_univ_of_forall fun loc => nil_prefix
  rw [← hroot]
  refine forStruct_mends hemits hregular (diff_compares order recordAll hemits type hregular)
    horiginal (fun s hs => some.inj hs ▸ hmodified) (fun _ => rfl) (fun _ => rfl) hclean

end

/-- The keys of an instance whose only key is its first leaf. -/
def firstLeafKey : (type : Fields) → type.Struct → Option (GoMap String String)
  | .cons _ name .leaf _, (some (.text text), _) => some (AList.insert name text ∅)
  | _, _ => none

/-- The texts of a key of such a list. -/
def firstLeafTexts : Fields → List Cell → GoMap String String
  | .cons _ name _ _, [.plain (.text text)] => AList.insert name text ∅
  | _, _ => ∅

/-- Structs in which every list is keyed by its first leaf, with one enumeration. -/
def interfaceBindings : Bindings where
  heap := fun address => { member := "Speed_Uint32", value := .uint address }
  enumNames := fun typeName value => if typeName = "E_AdminStatus" ∧ value = 1 then some "UP" else none
  pathKeyFromStruct := firstLeafKey

/-- A library that emits the leaves of a struct and encodes every value. -/
def interfaceYgot : Ygot where
  toBindings := interfaceBindings
  togNMINotifications := fun type value => .ok (type.leaves interfaceBindings value)
  encodeTypedValue := fun _ => none
  pathToString := printPath

theorem interfaceYgot_emits : EmitsLeaves interfaceYgot firstLeafTexts := by
  intro type value update _ _ hemitted loc leaf
  rw [← Except.ok.inj hemitted]
  exact mem_leaves_iff interfaceBindings type value loc leaf

def interfaceType : Fields :=
  .cons "Name" "name" .leaf (.cons "Mtu" "mtu" .leaf
    (.cons "AdminStatus" "admin-status" (.enum "E_AdminStatus") (.cons "Speed" "speed" .union
      (.cons "Alias" "alias" .leafList .nil))))

def interfacesType : Fields :=
  .cons "Interfaces" "interfaces" (.container (.cons "Interface" "interface" (.list interfaceType)
    .nil)) .nil

def interfaceKey (name : String) : List Cell := [.plain (.text name)]

/-- An interface, without its name. -/
structure InterfaceFields where
  mtu : Option Nat := none
  status : Int := 0
  speed : Option Nat := none
  aliases : List String := []

def interfaceValue (name : String) (fields : InterfaceFields) : interfaceType.Struct :=
  (some (.text name), fields.mtu.map .uint, fields.status, fields.speed,
    some (fields.aliases.map fun text => .plain (.text text)), ())

variable (first second : String × InterfaceFields)

def interfaceMap : GoMap (List Cell) interfaceType.Struct :=
  AList.insert (interfaceKey first.1) (interfaceValue first.1 first.2)
    (AList.insert (interfaceKey second.1) (interfaceValue second.1 second.2) ∅)

theorem interfaceMap_lookup {first second : String × InterfaceFields} {key : List Cell}
    {value : interfaceType.Struct} (hlookup : (interfaceMap first second).lookup key = some value) :
    ∃ name fields, key = interfaceKey name ∧ value = interfaceValue name fields := by
  rw [interfaceMap] at hlookup
  by_cases hfirst : key = interfaceKey first.1
  · subst hfirst
    rw [lookup_insert] at hlookup
    exact ⟨first.1, first.2, rfl, (some.inj hlookup).symm⟩
  · rw [lookup_insert_ne hfirst] at hlookup
    by_cases hsecond : key = interfaceKey second.1
    · subst hsecond
      rw [lookup_insert] at hlookup
      exact ⟨second.1, second.2, rfl, (some.inj hlookup).symm⟩
    · rw [lookup_insert_ne hsecond, lookup_empty] at hlookup
      simp at hlookup

def interfacesOf : GoStruct where
  type := interfacesType
  value := (some (interfaceMap first second, ()), ())

theorem interfacesOf_wellTyped :
    (interfacesOf first second).WellTyped interfaceBindings firstLeafTexts := by
  refine ⟨fun inner hinner => ?_, trivial⟩
  obtain rfl := some.inj hinner
  refine ⟨⟨fun key value hlookup => ?_, fun key key' hkey hkey' htexts => ?_⟩, trivial⟩
  · obtain ⟨name, fields, rfl, rfl⟩ := interfaceMap_lookup hlookup
    exact ⟨rfl, trivial, trivial, trivial, trivial, trivial, trivial⟩
  obtain ⟨value, hlookup⟩ := isSome_iff_exists.1 (lookup_isSome.2 hkey)
  obtain ⟨value', hlookup'⟩ := isSome_iff_exists.1 (lookup_isSome.2 hkey')
  obtain ⟨name, -, rfl, -⟩ := interfaceMap_lookup hlookup
  obtain ⟨name', -, rfl, -⟩ := interfaceMap_lookup hlookup'
  have hname : some name = some name' := congrArg (AList.lookup "name") htexts
  rw [some.inj hname]

def interfacesBefore : GoStruct :=
  interfacesOf
    ("Ethernet0", { mtu := some 9100, status := 1, speed := some 40, aliases := ["fortyGigE0"] })
    ("Ethernet4", {})

/-- The interfaces after it: one has changed, one is gone and one is new. -/
def interfacesAfter : GoStruct :=
  interfacesOf ("Ethernet0", { status := 1, speed := some 100, aliases := ["hundredGigE0"] })
    ("Ethernet8", { mtu := some 1500, status := 1 })

end SonicGnmi.TranslUtils
