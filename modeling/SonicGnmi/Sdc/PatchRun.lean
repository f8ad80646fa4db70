import SonicGnmi.Sdc.PatchSimulation

/-!
# The patch of a whole request

The three loops of `SetIncrementalConfig` as one loop over the edits of a
request, and the simulation between its shadow document and the checkpoint with
the emitted patch applied.

* `Edit`, `patchLoops_eq_foldlM` — the edits of a request in their order;
* `editStep_ok` — what one turn does: it passes the edit over, or it changes the
  shadow document and emits one operation;
* `Follows` — the simulation, with or without a namespace component;
* `patch_matches_shadow` — the patch applies, and what it gives is the shadow
  document up to empty objects and lists.
-/

namespace SonicGnmi.Sdc

open Foundation Gnmi Grpc JsonClient List Option PatchClient PatchOp

/-! ## The edits of a request -/

/-- One edit of a request. -/
inductive Edit where
  | delete (path : Path)
  | replace (u : Update)
  | update (u : Update)

namespace Edit

def path : Edit → Option Path
  | .delete path => some path
  | .replace u => u.path
  | .update u => u.path

def val : Edit → Option TypedValue
  | .delete _ => none
  | .replace u => u.val
  | .update u => u.val

/-- The operation that an edit is emitted as. -/
def operation : Edit → PatchOperation
  | .delete _ => .remove
  | .replace _ => .replace
  | .update _ => .add

/-- The JSON value of an edit, if it has one. -/
def json (e : Edit) : Option Json :=
  match e.val with
  | some (.jsonIetfVal (.value json)) => some json
  | _ => none

/-- The shadow document after an edit that it takes. -/
def accept (e : Edit) (shadow : Members) (names : List String) : Option Members :=
  match e with
  | .delete _ => (JsonClient.remove shadow names).toOption
  | .replace u =>
    match u.val with
    | none => (JsonClient.remove shadow names).toOption
    | some t => (JsonClient.replace shadow names (TypedValue.getJsonIetfVal (some t))).toOption
  | .update u =>
    match u.val with
    | none => none
    | some t => (JsonClient.add shadow names (TypedValue.getJsonIetfVal (some t))).toOption

end Edit

/-- One turn of the loops. -/
def PatchClient.editStep (c : PatchClient) (st : PatchState) : Edit → Except Fault PatchState
  | .delete path => c.deleteStep st path
  | .replace u => c.replaceStep st u
  | .update u => c.updateStep st u

/-- The edits of a request in the order of the loops. -/
def requestEdits (delete : List Path) (replace update : List Update) : List Edit :=
  delete.map .delete ++ replace.map .replace ++ update.map .update

theorem split_update {delete : List Path} {replace update : List Update} {done rest : List Edit}
    {u : Update} (h : requestEdits delete replace update = done ++ .update u :: rest) :
    ∃ before after, update = before ++ u :: after ∧ done = requestEdits delete replace before := by
  rw [requestEdits, append_eq_append_iff] at h
  rcases h with ⟨extra, hdone, hupdate⟩ | ⟨extra, hfirst, hrest⟩
  · obtain ⟨before, after', hsplit, hbefore, hafter'⟩ := map_eq_append_iff.1 hupdate
    obtain ⟨u', after, hcons, hu, -⟩ := map_eq_cons_iff.1 hafter'
    cases hu
    exact ⟨before, after, by rw [hsplit, hcons], by rw [hdone, ← hbefore, requestEdits]⟩
  · -- Otherwise the update would be one of the deletes or replaces.
    cases extra with
    | nil =>
      obtain ⟨u', after, hcons, hu, -⟩ := map_eq_cons_iff.1 hrest.symm
      cases hu
      rw [append_nil] at hfirst
      exact ⟨[], after, hcons, by rw [← hfirst, requestEdits, map_nil, append_nil]⟩
    | cons e more =>
      cases hrest
      have hmem : Edit.update u ∈ delete.map Edit.delete ++ replace.map Edit.replace := by
        rw [hfirst]
        simp
      simp at hmem

/-- The three loops are one. -/
theorem patchLoops_eq_foldlM (c : PatchClient) (st : PatchState) (delete : List Path)
    (replace update : List Update) :
    c.patchLoops st delete replace update =
      (requestEdits delete replace update).foldlM c.editStep st := by
  rw [patchLoops, requestEdits]
  simp only [foldlM_append, foldlM_map, editStep]
  cases delete.foldlM c.deleteStep st with
  | error e => rfl
  | ok st =>
    cases hreplace : replace.foldlM c.replaceStep st with
    | error e | ok st => simp [hreplace, bind, Except.bind]

section Step

variable {c : PatchClient} {st st' : PatchState} {e : Edit} {elems : List PathElem}

/-- A value that has JSON in it, as both readers of the value see it. -/
theorem patchValue_ok {t : TypedValue} {value : Option Json} (h : patchValue (some t) = .ok value) :
    ∃ json, t = .jsonIetfVal (.value json) ∧ value = some json := by
  cases t with
  | jsonIetfVal text =>
    cases text with
    | empty | malformed e => cases h
    | value json =>
      cases h
      exact ⟨json, rfl, rfl⟩
  | _ => cases h

/-- The operation that an accepted edit emits. -/
def PatchClient.editOp (c : PatchClient) (e : Edit) (elems : List PathElem) : PatchOp :=
  c.inNamespace ⟨e.operation, jsonPath c.keyOrder elems, e.json⟩

theorem emit_edit {shadow : Members} {patchList : List PatchOp}
    (h : c.emit shadow patchList (some elems) e.val e.operation = .ok st') :
    st' = { jsonData := shadow, patchList := patchList ++ [c.editOp e elems] } := by
  unfold emit convertToJsonPatch at h
  split at h
  · cases h
  rename_i op hop
  split at hop
  · cases hop
  rename_i value hvalue
  cases hop
  cases h
  have hjson : value = e.json := by
    unfold Edit.json
    rcases hval : e.val with _ | t <;> rw [hval] at hvalue
    · cases hvalue
      rfl
    obtain ⟨json, rfl, rfl⟩ := patchValue_ok hvalue
    rfl
  rw [hjson]
  rfl

/-- One turn passes an edit over, or changes the shadow document and emits one
operation. -/
theorem editStep_ok (hfull : updateFullPath c.pathPrefix e.path = .ok (some elems))
    (h : c.editStep st e = .ok st') :
    (e.accept st.jsonData (elemNames elems) = none ∧ st' = st) ∨
      ∃ shadow', e.accept st.jsonData (elemNames elems) = some shadow' ∧
        st' = { jsonData := shadow', patchList := st.patchList ++ [c.editOp e elems] } := by
  cases e with
  | delete path =>
    have hpath : gnmiFullPath c.pathPrefix path = .ok (some elems) := by
      cases hgnmi : gnmiFullPath c.pathPrefix path with
      | error e => simp [updateFullPath, Edit.path, hgnmi] at hfull
      | ok found => simpa [updateFullPath, Edit.path, hgnmi] using hfull
    simp only [editStep, deleteStep, hpath] at h
    cases hremove : JsonClient.remove st.jsonData (elemNames elems) with
    | error e =>
      simp only [hremove] at h
      cases h
      exact Or.inl ⟨by simp [Edit.accept, hremove, Except.toOption], rfl⟩
    | ok shadow' =>
      simp only [hremove] at h
      exact Or.inr ⟨shadow', by simp [Edit.accept, hremove, Except.toOption], emit_edit h⟩
  | replace u =>
    simp only [Edit.path] at hfull
    simp only [editStep, replaceStep, hfull] at h
    cases hval : u.val with
    | none =>
      simp only [hval] at h
      cases hremove : JsonClient.remove st.jsonData (elemNames elems) with
      | error e =>
        simp only [hremove] at h
        cases h
        exact Or.inl ⟨by simp [Edit.accept, hval, hremove, Except.toOption], rfl⟩
      | ok shadow' =>
        simp only [hremove, ← hval] at h
        exact Or.inr ⟨shadow', by simp [Edit.accept, hval, hremove, Except.toOption], emit_edit h⟩
    | some t =>
      simp only [hval] at h
      split at h
      · cases h
      rename_i shadow' hreplace
      rw [← hval] at h
      exact Or.inr ⟨shadow', by simp [Edit.accept, hval, hreplace, Except.toOption], emit_edit h⟩
  | update u =>
    simp only [Edit.path] at hfull
    simp only [editStep, updateStep, hfull] at h
    cases hval : u.val with
    | none =>
      simp only [hval] at h
      cases h
    | some t =>
      simp only [hval] at h
      split at h
      · cases h
      rename_i shadow' hadd
      rw [← hval] at h
      exact Or.inr ⟨shadow', by simp [Edit.accept, hval, hadd, Except.toOption], emit_edit h⟩

theorem accept_val {shadow shadow' : Members} {names : List String} {t : TypedValue}
    (hval : e.val = some t) (haccept : e.accept shadow names = some shadow') :
    ∃ json, t = .jsonIetfVal (.value json) := by
  have htext : ∀ {json}, TypedValue.getJsonIetfVal (some t) = .value json →
      ∃ json, t = .jsonIetfVal (.value json) := by
    intro json h
    cases t with
    | jsonIetfVal text =>
      cases h
      exact ⟨json, rfl⟩
    | _ => cases h
  cases e with
  | delete path => cases hval
  | replace u =>
    simp only [Edit.val] at hval
    simp only [Edit.accept, hval] at haccept
    obtain ⟨json, -, -, hjson, -⟩ := replace_targets (ok_of_toOption haccept)
    exact htext hjson
  | update u =>
    simp only [Edit.val] at hval
    simp only [Edit.accept, hval] at haccept
    obtain ⟨json, hjson, -⟩ := add_cases (ok_of_toOption haccept)
    exact htext hjson

theorem update_val {shadow shadow' : Members} {names : List String} {u : Update}
    (haccept : (Edit.update u).accept shadow names = some shadow') :
    ∃ json, u.val = some (.jsonIetfVal (.value json)) := by
  cases hval : u.val with
  | none =>
    simp only [Edit.accept, hval] at haccept
    cases haccept
  | some t =>
    obtain ⟨json, rfl⟩ := accept_val (e := .update u) hval haccept
    exact ⟨json, rfl⟩

theorem applyAt_replace {json doc doc' : Json} {tokens : List String}
    (h : doc.editAt (Json.replaceChild json) tokens = some doc') :
    applyAt .replace (some json) doc tokens = some doc' := by
  cases tokens with
  | nil => cases h
  | cons token rest => exact h

theorem applyAt_add {json doc doc' : Json} {tokens : List String}
    (h : doc.editAt (Json.addChild json) tokens = some doc') :
    applyAt .add (some json) doc tokens = some doc' := by
  cases tokens with
  | nil => cases h
  | cons token rest => exact h

/-- An edit that the shadow document accepts is possible in the patched document
and keeps the relation. -/
theorem accept_mirrors {shadow shadow' part : Members} {names : List String}
    (h : MirrorsObject 2 shadow part) (hindex : CanonicalIndex (fixPath names))
    (hvalue : e.operation = .replace → e.val ≠ none)
    (hready : e.operation = .add → ParentReady part (fixPath names))
    (haccept : e.accept shadow names = some shadow') :
    ∃ part', applyAt e.operation e.json (.object part) (fixPath names) =
        some (.object part') ∧ MirrorsObject 2 shadow' part' := by
  cases e with
  | delete path =>
    obtain ⟨put, htargets⟩ := remove_targets (ok_of_toOption haccept)
    exact (htargets.mirrors h hindex).1
  | replace u =>
    cases hval : u.val with
    | none => exact absurd hval (hvalue rfl)
    | some t =>
      obtain ⟨json, rfl⟩ := accept_val (e := .replace u) hval haccept
      simp only [Edit.accept, hval] at haccept
      obtain ⟨_, _, put, ⟨⟩, htargets, rfl⟩ := replace_targets (ok_of_toOption haccept)
      obtain ⟨part', hedit, hrel⟩ := (htargets.mirrors h hindex).2 json
      refine ⟨part', ?_, hrel⟩
      simp only [Edit.json, Edit.val, hval]
      exact applyAt_replace hedit
  | update u =>
    obtain ⟨json, hval⟩ := update_val haccept
    simp only [Edit.accept, hval] at haccept
    obtain ⟨_, part', ⟨⟩, hedit, hrel⟩ :=
      add_mirrors h hindex (hready rfl) (ok_of_toOption haccept)
    refine ⟨part', ?_, hrel⟩
    simp only [Edit.json, Edit.val, hval]
    exact applyAt_add hedit

end Step

/-! ## The namespace component -/

namespace PatchClient

variable {c : PatchClient} {doc : Json} {part : Members}

/-- The part of a document that a client works on. -/
def component (c : PatchClient) (doc : Json) : Except String Members :=
  newJsonClient checkPointFile doc (c.namespaceName.getD "")

/-- The document with another such part. -/
def embed (c : PatchClient) (doc part : Json) : Json :=
  match c.namespaceName, doc with
  | some name, .object outer => .object (putMember outer name part)
  | _, _ => part

/-- The name of the namespace stands for itself in a pointer. -/
def PlainNamespace (c : PatchClient) : Prop :=
  ∀ name, c.namespaceName = some name →
    name ≠ "" ∧ '/' ∉ name.toList ∧ '~' ∉ name.toList

theorem component_ok (hplain : c.PlainNamespace) (h : c.component doc = .ok part) :
    (c.namespaceName = none ∧ doc = .object part) ∨
      ∃ name outer, c.namespaceName = some name ∧ doc = .object outer ∧
        member outer name = some (.object part) := by
  unfold component newJsonClient at h
  cases doc with
  | object outer =>
    cases hname : c.namespaceName with
    | none =>
      simp only [hname, getD_none, if_true] at h
      cases h
      exact .inl ⟨rfl, rfl⟩
    | some name =>
      simp only [hname, getD_some, (hplain name hname).1, if_false] at h
      split at h
      · rename_i members hmember
        cases h
        exact .inr ⟨name, outer, rfl, rfl, hmember⟩
      · cases h
      · cases h
  | _ => cases h

theorem component_embed (hplain : c.PlainNamespace) (h : c.component doc = .ok part)
    (part' : Members) : c.component (c.embed doc (.object part')) = .ok part' := by
  rcases component_ok hplain h with ⟨hname, rfl⟩ | ⟨name, outer, hname, rfl, -⟩
  · simp [component, embed, newJsonClient, hname]
  · simp [component, embed, newJsonClient, hname, (hplain name hname).1]

/-- Nothing changes outside of the part. -/
theorem child_embed (hplain : c.PlainNamespace) (h : c.component doc = .ok part) {name other : String}
    (hname : c.namespaceName = some name) (hother : other ≠ name) (part' : Json) :
    (c.embed doc part').child other = doc.child other := by
  rcases component_ok hplain h with ⟨hnone, -⟩ | ⟨name', outer, hname', rfl, -⟩
  · rw [hnone] at hname
    cases hname
  · cases hname.symm.trans hname'
    simp only [embed, hname, Json.child]
    exact member_putMember_of_ne hother

/-- The tokens below the namespace. -/
def tokens (c : PatchClient) (names : List String) : List String :=
  match c.namespaceName with
  | none => names
  | some name => name :: names

@[simp] theorem editOp_op (e : Edit) (elems : List PathElem) :
    (c.editOp e elems).op = e.operation := by
  unfold editOp inNamespace
  split <;> rfl

@[simp] theorem editOp_value (e : Edit) (elems : List PathElem) :
    (c.editOp e elems).value = e.json := by
  unfold editOp inNamespace
  split <;> rfl

/-- The pointer of an operation names what the JSON client edits. -/
theorem pointerTokens_editOp (hplain : c.PlainNamespace) (e : Edit) {elems : List PathElem}
    (hne : elems ≠ []) (hkeys : ∀ x ∈ elems, x.key = ∅) (hsafe : PointerSafe (elemNames elems)) :
    pointerTokens (c.editOp e elems).path = some (c.tokens (fixPath (elemNames elems))) := by
  have hpath := jsonPath_toList c.keyOrder hne hkeys
  have hnames : elemNames elems ≠ [] := by
    simpa [elemNames] using hne
  cases hname : c.namespaceName with
  | none =>
    simp only [editOp, inNamespace, tokens, hname]
    exact (pointerTokens_eq_fixPath_iff hpath hnames).2 hsafe
  | some name =>
    obtain ⟨-, hslash, htilde⟩ := hplain name hname
    simp only [editOp, inNamespace, tokens, hname]
    have hjoin : ("/" ++ name ++ jsonPath c.keyOrder elems).toList =
        '/' :: intercalate ['/'] ((name :: elemNames elems).map String.toList) := by
      obtain ⟨first, rest, hcons⟩ := exists_cons_of_ne_nil hnames
      rw [hcons] at hpath ⊢
      simp [hpath, intercalate]
    rw [pointerTokens_join_iff hjoin (cons_ne_nil _ _) (by simp [length_fixPath])]
    constructor
    · intro other hother
      rcases mem_cons.1 hother with rfl | hother
      · exact hslash
      · exact hsafe.noSlash other hother
    · exact List.Forall₂.cons ((unescape_eq_self_iff _).2 htilde)
        ((forall₂_fixPath_iff _).2 ⟨hsafe.table, hsafe.key, hsafe.rest⟩)

theorem apply_editOp (hplain : c.PlainNamespace) (e : Edit) {elems : List PathElem}
    (hne : elems ≠ []) (hkeys : ∀ x ∈ elems, x.key = ∅) (hsafe : PointerSafe (elemNames elems))
    (hpart : c.component doc = .ok part) :
    (c.editOp e elems).apply doc =
      (applyAt e.operation e.json (.object part) (fixPath (elemNames elems))).map
        (c.embed doc) := by
  rw [apply, pointerTokens_editOp hplain e hne hkeys hsafe, bind_some, editOp_op, editOp_value]
  obtain ⟨token, rest, htokens⟩ : ∃ token rest, fixPath (elemNames elems) = token :: rest := by
    refine exists_cons_of_ne_nil (ne_nil_of_length_pos ?_)
    rw [length_fixPath, elemNames, length_map]
    exact length_pos_iff.2 hne
  rw [htokens]
  rcases component_ok hplain hpart with ⟨hname, rfl⟩ | ⟨name, outer, hname, rfl, hmember⟩
  · have hembed : c.embed (.object part) = id := by
      funext inner
      simp [embed, hname]
    simp [tokens, hname, hembed, Option.map_id, id]
  · have hembed : c.embed (.object outer) = fun inner => .object (putMember outer name inner) := by
      funext inner
      simp [embed, hname]
    simp only [tokens, hname, hembed]
    cases e.operation <;> cases e.json <;> simp only [applyAt, map_none] <;>
      exact editAt_object_cons _ rest hmember

end PatchClient

/-! ## The simulation -/

/-- The path of an edit has elements without keys and with names that are safe in
a pointer, and a list index is a plain number. -/
structure EditAt (c : PatchClient) (e : Edit) (elems : List PathElem) : Prop where
  fullPath : updateFullPath c.pathPrefix e.path = .ok (some elems)
  nonempty : elems ≠ []
  keys : ∀ x ∈ elems, x.key = ∅
  safe : PointerSafe (elemNames elems)
  index : CanonicalIndex (elemNames elems)

theorem canonicalIndex_fixPath {names : List String} (h : CanonicalIndex names) :
    CanonicalIndex (fixPath names) := by
  rcases names with _ | ⟨table, _ | ⟨key, rest⟩⟩ <;> exact h

/-- The checkpoint with the patch applied is a document whose part for the client
mirrors the shadow document; everything else is as in the checkpoint. -/
structure Follows (c : PatchClient) (checkpoint : Json) (st : PatchState) (doc : Json)
    (part : Members) : Prop where
  applied : applyPatch checkpoint st.patchList = some doc
  component : c.component doc = .ok part
  mirrors : MirrorsObject 2 st.jsonData part
  outside : ∀ name, c.namespaceName = some name → ∀ other, other ≠ name →
    doc.child other = checkpoint.child other

/-- One turn of the loops keeps the simulation. -/
theorem Follows.step {c : PatchClient} {checkpoint doc : Json} {st st' : PatchState}
    {part : Members} {e : Edit} {elems : List PathElem} (hplain : c.PlainNamespace)
    (h : Follows c checkpoint st doc part) (he : EditAt c e elems)
    (hvalue : e.operation = .replace → e.val ≠ none)
    (hready : e.operation = .add → ParentReady part (fixPath (elemNames elems)))
    (hstep : c.editStep st e = .ok st') : ∃ doc' part', Follows c checkpoint st' doc' part' := by
  rcases editStep_ok he.fullPath hstep with ⟨-, rfl⟩ | ⟨shadow', haccept, rfl⟩
  · exact ⟨doc, part, h⟩
  obtain ⟨part', hedit, hmirrors⟩ := accept_mirrors h.mirrors
    (canonicalIndex_fixPath he.index) hvalue hready haccept
  refine ⟨c.embed doc (.object part'), part', ?_, ?_, hmirrors, ?_⟩
  · rw [applyPatch_snoc, h.applied, bind_some,
      apply_editOp hplain e he.nonempty he.keys he.safe h.component, hedit]
    rfl
  · exact component_embed hplain h.component part'
  · intro name hname other hother
    rw [child_embed hplain h.component hname hother]
    exact h.outside name hname other hother

/-! ## Empty parts -/

theorem HollowAt.pruned {depth : Nat} {doc : Json} (h : HollowAt depth doc) :
    doc.pruned.isHollow = true := by
  induction depth generalizing doc with
  | zero =>
    cases h
    simp [Json.pruned, prunedItems, Json.isHollow]
  | succ depth ih =>
    obtain ⟨members, rfl, hmembers⟩ := h
    have hempty : (Json.object members).pruned = (Json.object []).pruned := by
      refine pruned_object_congr ?_
      intro name value hfull
      rw [member_nil, map_none]
      constructor <;> intro hvalue
      · obtain ⟨found, hfound, rfl⟩ := map_eq_some_iff.1 hvalue
        rw [ih (hmembers name found hfound)] at hfull
        contradiction
      · cases hvalue
    rw [hempty]
    decide +kernel

/-- Documents that mirror each other are the same after pruning. -/
theorem Mirrors.pruned {depth : Nat} {shadow doc : Json} (h : Mirrors depth shadow doc) :
    shadow.pruned = doc.pruned := by
  induction depth generalizing shadow doc with
  | zero => exact congrArg Json.pruned h
  | succ depth ih =>
    rcases h with rfl | ⟨members, members', rfl, rfl, hrel⟩
    · rfl
    refine pruned_object_congr ?_
    intro name value hfull
    cases hmember : member members name with
    | some found =>
      obtain ⟨found', hfound', hfounds⟩ := (hrel name).1 found hmember
      rw [hfound', map_some, map_some, ih hfounds]
    | none =>
      cases hmember' : member members' name with
      | none => rfl
      | some found' =>
        have hhollow := ((hrel name).2 found' hmember hmember').pruned
        constructor <;> intro hvalue
        · cases hvalue
        · cases hvalue
          rw [hhollow] at hfull
          contradiction

/-! ## A whole request -/

/-- A patch is built by the loops over the edits, from the part of the client. -/
theorem buildPatch_loops {c : PatchClient} {checkpoint : Json} {delete : List Path}
    {replace update : List Update} {st : PatchState}
    (h : c.buildPatch checkpoint delete replace update = .ok st) :
    ∃ start, c.component checkpoint = .ok start ∧
      ∀ before, c.buildPatch checkpoint delete replace before =
        (requestEdits delete replace before).foldlM c.editStep { jsonData := start } := by
  cases hclient : newJsonClient checkPointFile checkpoint (c.namespaceName.getD "") with
  | ok start =>
    exact ⟨start, hclient, fun before => by simp [buildPatch, hclient, patchLoops_eq_foldlM]⟩
  | error e =>
    rw [buildPatch, hclient] at h
    cases h

/-- **The patch and the shadow document.**  Paths are safe in a pointer, every
replace has a value, and every update finds the container of its target in the
document as the patch so far has made it.  If the loops end without an error, the
patch can be applied to the checkpoint, and the result is the final shadow
document up to empty objects and lists; with a namespace this holds for its
component, and the others stay as they are. -/
theorem patch_matches_shadow (c : PatchClient) (checkpoint : Json) (delete : List Path)
    (replace update : List Update) (st : PatchState) (hplain : c.PlainNamespace)
    (hpaths : ∀ e ∈ requestEdits delete replace update, ∃ elems, EditAt c e elems)
    (hvalues : ∀ u ∈ replace, u.val ≠ none)
    (hparents : ∀ before u after, update = before ++ u :: after → ∀ st doc part elems,
      c.buildPatch checkpoint delete replace before = .ok st →
      applyPatch checkpoint st.patchList = some doc → c.component doc = .ok part →
      updateFullPath c.pathPrefix u.path = .ok (some elems) →
      ParentReady part (fixPath (elemNames elems)))
    (hbuild : c.buildPatch checkpoint delete replace update = .ok st) :
    ∃ doc part, applyPatch checkpoint st.patchList = some doc ∧ c.component doc = .ok part ∧
      (Json.object part).pruned = (Json.object st.jsonData).pruned ∧
      ∀ name, c.namespaceName = some name → ∀ other, other ≠ name →
        doc.child other = checkpoint.child other := by
  obtain ⟨start, hstart, hloops⟩ := buildPatch_loops hbuild
  rw [hloops] at hbuild
  obtain ⟨doc, part, hfollows⟩ : ∃ doc part, Follows c checkpoint st doc part := by
    refine Loop.invariant (fun st => ∃ doc part, Follows c checkpoint st doc part)
      ⟨checkpoint, start, rfl, hstart, MirrorsObject.refl 2 start, fun _ _ _ _ => rfl⟩ ?_ hbuild
    rintro done e rest hsplit st₁ st₂ hdone ⟨doc, part, hfollows⟩ hstep
    have hmem : e ∈ requestEdits delete replace update := by
      rw [hsplit]
      simp
    obtain ⟨elems, he⟩ := hpaths e hmem
    refine hfollows.step hplain he ?_ ?_ hstep
    · intro hreplace
      cases e with
      | replace u => exact hvalues u (by simpa [requestEdits] using hmem)
      | _ => cases hreplace
    · intro hadd
      cases e with
      | update u =>
        -- All deletes and replaces are done when the first update comes.
        obtain ⟨before, after, hupdate, rfl⟩ := split_update hsplit
        rw [← hloops] at hdone
        exact hparents before u after hupdate st₁ doc part elems hdone hfollows.applied
          hfollows.component he.fullPath
      | _ => cases hadd
  exact ⟨doc, part, hfollows.applied, hfollows.component, hfollows.mirrors.mirrors.pruned.symm,
    hfollows.outside⟩

/-! ### A request on one namespace -/

def vnetCheckpoint : Json :=
  .object [("localhost", .object []),
    ("asic0", .object [("VNET", .object [("Vnet1", .object [("vni", .string "1000")])])])]

def vnetClient : PatchClient where
  namespaceName := some "asic0"
  keyOrder := RangeOrder.stored

def vniPath : Path where
  elem := [{ name := "CONFIG_DB" }, { name := "localhost" }, { name := "VNET" },
    { name := "Vnet1" }, { name := "vni" }]

def otherVnet : Update where
  path := some (entryPath "VNET" "Vnet2")
  val := some (.jsonIetfVal (.value (.object [("vni", .string "2000")])))

/-- The deletion of the last field empties the table of the shadow document, while
the patched document keeps an empty entry; the next update lands in both. -/
theorem patch_matches_shadow_vnet :
    ∃ st doc part, vnetClient.buildPatch vnetCheckpoint [vniPath] [] [otherVnet] = .ok st ∧
      applyPatch vnetCheckpoint st.patchList = some doc ∧
      vnetClient.component doc = .ok part ∧
      (Json.object part).pruned = (Json.object st.jsonData).pruned := by
  obtain ⟨st, hst⟩ : ∃ st,
      (vnetClient.buildPatch vnetCheckpoint [vniPath] [] [otherVnet]).toOption = some st :=
    Option.isSome_iff_exists.1 (by decide +kernel)
  replace hst := ok_of_toOption hst
  have hplain : vnetClient.PlainNamespace := by
    intro name hname
    cases hname
    decide +kernel
  have hpaths : ∀ e ∈ requestEdits [vniPath] [] [otherVnet], ∃ elems,
      EditAt vnetClient e elems := by
    intro e he
    simp only [requestEdits, List.map_cons, List.map_nil, List.append_nil, List.cons_append,
      List.nil_append, List.mem_cons, List.not_mem_nil, or_false] at he
    rcases he with rfl | rfl
    · refine ⟨vniPath.elem.drop 2, rfl, by simp [vniPath], ?_, ?_,
        by simp [CanonicalIndex, vniPath, elemNames]⟩
      · simp [vniPath]
      · exact ⟨by decide +kernel, by decide +kernel, by decide +kernel, by decide +kernel⟩
    · refine ⟨(entryPath "VNET" "Vnet2").elem.drop 2, rfl, by simp [entryPath], ?_, ?_,
        by simp [CanonicalIndex, entryPath, elemNames]⟩
      · simp [entryPath]
      · exact ⟨by decide +kernel, by decide +kernel, by decide +kernel, by decide +kernel⟩
  have hparents : ∀ before u after, [otherVnet] = before ++ u :: after →
      ∀ st doc part elems, vnetClient.buildPatch vnetCheckpoint [vniPath] [] before = .ok st →
        applyPatch vnetCheckpoint st.patchList = some doc → vnetClient.component doc = .ok part →
        updateFullPath vnetClient.pathPrefix u.path = .ok (some elems) →
        ParentReady part (fixPath (elemNames elems)) := by
    intro before u after hsplit st doc part elems hbuild happlied hpart hfull
    obtain ⟨rfl, rfl, rfl⟩ : before = [] ∧ u = otherVnet ∧ after = [] := by
      cases before with
      | nil =>
        cases hsplit
        exact ⟨rfl, rfl, rfl⟩
      | cons first rest =>
        have hlength := congrArg List.length hsplit
        simp at hlength
    cases hfull
    -- The part of the document at that time has the table.
    have htable : (((vnetClient.buildPatch vnetCheckpoint [vniPath] [] []).toOption.bind
        fun st => applyPatch vnetCheckpoint st.patchList).bind
        fun doc => (vnetClient.component doc).toOption).map
        (fun part => (member part "VNET").any fun value => value.kind = "object") = some true := by
      decide +kernel
    rw [hbuild, Except.toOption, Option.bind_some, happlied, Option.bind_some, hpart,
      Except.toOption, Option.map_some, Option.some.injEq, Option.any_eq_true] at htable
    obtain ⟨table, hmember, hobject⟩ := htable
    cases table with
    | object vtable => exact ⟨vtable, hmember⟩
    | _ => simp [Json.kind] at hobject
  obtain ⟨doc, part, happlied, hpart, hpruned, -⟩ := patch_matches_shadow vnetClient
    vnetCheckpoint [vniPath] [] [otherVnet] st hplain hpaths (by simp) hparents hst
  exact ⟨st, doc, part, hst, happlied, hpart, hpruned⟩

end SonicGnmi.Sdc
