import SonicGnmi.Sdc.PatchRun

/-!
# When a patch can be applied

An incremental Set that ends its loops without an error hands its patch to the
configuration service.  The patch need not be applicable: the shadow document
makes missing tables and entries for an update, takes a replace without a value
as a removal, and reads list indices with `Atoi`.

* `Edit.fits` — what an accepted edit needs to be applicable;
* `PatchClient.applicable` — every accepted edit of a request fits the document
  as the edits before it have left it;
* `patch_applicable_iff` — this is exactly when the patch is well formed and can
  be applied; removals and replacements need no more than that, because the
  shadow document has found their targets.
-/

namespace SonicGnmi.Sdc

open Foundation Gnmi Grpc JsonClient List Option PatchClient PatchOp RangeOrder

/-! ## Edits that succeed -/

/-- A container that takes a new value at a token. -/
def takes : Json → String → Bool
  | .object _, _ => true
  | .array items, token => token = "-" || (tokenIndex token).any (· ≤ items.length)
  | _, _ => false

theorem addChild_isSome (value doc : Json) (token : String) :
    (Json.addChild value doc token).isSome = takes doc token := by
  cases doc with
  | object members => rfl
  | array items =>
    rw [Json.addChild, takes]
    by_cases hdash : token = "-"
    · simp [hdash]
    · cases hindex : tokenIndex token with
      | none => simp [hdash]
      | some i => by_cases hle : i ≤ items.length <;> simp [hdash, hle]
  | _ => rfl

theorem setChild_isSome {doc value value' : Json} {token : String}
    (h : doc.child token = some value) : (doc.setChild token value').isSome = true := by
  cases doc with
  | object members => rfl
  | array items =>
    obtain ⟨i, hindex, -⟩ := bind_eq_some_iff.1 h
    rw [Json.setChild, hindex]
    rfl
  | _ => cases h

/-- An edit succeeds iff it does at the container of its target. -/
theorem editAt_isSome (edit : Json → String → Option Json) (doc : Json) {tokens : List String}
    (hne : tokens ≠ []) :
    (doc.editAt edit tokens).isSome = (doc.valueAt tokens.dropLast).any fun parent =>
        (edit parent (tokens.getLastD "")).isSome := by
  induction tokens generalizing doc with
  | nil => exact absurd rfl hne
  | cons token rest ih =>
    cases rest with
    | nil => rfl
    | cons next more =>
      rw [Json.editAt, dropLast_cons_cons, Json.valueAt, getLastD_cons, getLastD_cons]
      cases hchild : doc.child token with
      | none => rfl
      | some value =>
        have hvalue := ih value (cons_ne_nil next more)
        rw [getLastD_cons] at hvalue
        rw [bind_some, bind_some, ← hvalue]
        cases value.editAt edit (next :: more) with
        | none => rfl
        | some value' => exact setChild_isSome hchild

/-- A list index that a pointer accepts is a plain number. -/
def plainIndex (names : List String) : Bool :=
  (names.drop 3).all fun index => (tokenIndex index).isSome

theorem plainIndex_iff (names : List String) : plainIndex names = true ↔ CanonicalIndex names := by
  rw [plainIndex, List.all_eq_true]
  constructor <;> intro h index hindex
  · obtain ⟨n, hn⟩ := isSome_iff_exists.1 (h index hindex)
    obtain ⟨m, -, hm⟩ := bind_eq_some_iff.1 hn
    split at hm
    · rename_i htoken
      exact ⟨m, htoken⟩
    · cases hm
  · obtain ⟨n, rfl⟩ := h index hindex
    rw [tokenIndex_toString]
    rfl

/-! ## Edits that fit -/

/-- What an edit needs, besides being accepted by the shadow document: a delete or
replace a plain list index, a replace its value, and an update a container for
its target. -/
def Edit.fits (e : Edit) (part : Members) (names : List String) : Bool :=
  match e with
  | .delete _ => plainIndex names
  | .replace u => u.val.isSome && plainIndex names
  | .update _ =>
    ((Json.object part).valueAt names.dropLast).any fun parent =>
      takes parent (names.getLastD "")

/-- The document after an edit. -/
def Edit.applied (e : Edit) (part : Members) (names : List String) : Members :=
  objectOr (PatchOp.applyAt e.operation e.json (.object part) names)

/-- The names of the path of an edit. -/
def PatchClient.editNames (c : PatchClient) (e : Edit) : List String :=
  match updateFullPath c.pathPrefix e.path with
  | .ok (some elems) => elemNames elems
  | _ => []

/-- Every edit that the shadow document accepts fits the document as the edits
before it have left it. -/
def PatchClient.applicable (c : PatchClient) : Members → Members → List Edit → Bool
  | _, _, [] => true
  | shadow, part, e :: rest =>
    match e.accept shadow (c.editNames e) with
    | none => c.applicable shadow part rest
    | some shadow' =>
      e.fits part (c.editNames e) &&
        c.applicable shadow' (e.applied part (c.editNames e)) rest

/-- The path of an edit has elements without keys, with names that need no
escapes. -/
structure PlainEditAt (c : PatchClient) (e : Edit) (elems : List PathElem) : Prop where
  fullPath : updateFullPath c.pathPrefix e.path = .ok (some elems)
  nonempty : elems ≠ []
  keys : ∀ x ∈ elems, x.key = ∅
  plain : ∀ name ∈ elemNames elems, '/' ∉ name.toList ∧ '~' ∉ name.toList

section Plain

variable {c : PatchClient} {e : Edit} {elems : List PathElem}

theorem PlainEditAt.safe (h : PlainEditAt c e elems) : PointerSafe (elemNames elems) where
  noSlash := fun name hname => (h.plain name hname).1
  table := fun name hname => (h.plain name (mem_of_mem_take hname)).2
  key := fun name hname => by
    have hplain := (h.plain name (mem_of_mem_drop (mem_of_mem_take hname))).2
    rw [← unescape_eq_replacePair_iff, GoText.replacePair_of_not_mem hplain]
    exact (unescape_eq_self_iff _).2 hplain
  rest := fun name hname => (h.plain name (mem_of_mem_drop hname)).2

theorem PlainEditAt.fixPath_eq (h : PlainEditAt c e elems) :
    fixPath (elemNames elems) = elemNames elems := by
  have hplain := h.plain
  generalize elemNames elems = names at hplain
  rcases names with _ | ⟨table, _ | ⟨key, rest⟩⟩
  · rfl
  · rfl
  · have hkey := (hplain key (by simp)).2
    rw [fixPath, fixName, GoText.replacePair_of_not_mem hkey, String.ofList_toList]

theorem PlainEditAt.editNames_eq (h : PlainEditAt c e elems) : c.editNames e = elemNames elems := by
  rw [editNames, h.fullPath]

end Plain

/-! ## One edit -/

section OneEdit

variable {e : Edit} {shadow shadow' part : Members} {names : List String}

theorem applyAt_object {op : PatchOperation} {value : Option Json} {doc : Json} (hne : names ≠ [])
    (h : applyAt op value (.object part) names = some doc) : ∃ part', doc = .object part' := by
  -- Below the first token only the member of the object is exchanged.
  have hedit : ∀ edit : Json → String → Option Json,
      (∀ token doc, edit (.object part) token = some doc → ∃ part', doc = .object part') →
      (Json.object part).editAt edit names = some doc → ∃ part', doc = .object part' := by
    intro edit hlast h
    rcases names with _ | ⟨token, _ | ⟨next, rest⟩⟩
    · cases h
    · exact hlast token doc h
    · obtain ⟨value, -, h⟩ := bind_eq_some_iff.1 h
      obtain ⟨value', -, h⟩ := bind_eq_some_iff.1 h
      cases h
      exact ⟨_, rfl⟩
  obtain ⟨token, rest, rfl⟩ := exists_cons_of_ne_nil hne
  cases op with
  | remove =>
    refine hedit Json.removeChild ?_ h
    intro token doc h
    obtain ⟨value, -, rfl⟩ := map_eq_some_iff.1 h
    exact ⟨_, rfl⟩
  | add =>
    cases value with
    | none => cases h
    | some value =>
      refine hedit (Json.addChild value) ?_ h
      intro token doc h
      cases h
      exact ⟨_, rfl⟩
  | replace =>
    cases value with
    | none => cases h
    | some value =>
      refine hedit (Json.replaceChild value) ?_ h
      intro token doc h
      obtain ⟨value', -, h⟩ := bind_eq_some_iff.1 h
      cases h
      exact ⟨_, rfl⟩

/-- An edit of an item that the shadow document has can be made at a plain index
only. -/
theorem plainIndex_of_editAt {edit : Json → String → Option Json}
    (hedit : ∀ items index, (edit (.array items) index).isSome = true →
      (tokenIndex index).isSome = true) (h : MirrorsObject 2 shadow part)
    (hfix : fixPath names = names) (hremove : remove shadow names = .ok shadow')
    (hsome : ((Json.object part).editAt edit names).isSome = true) : plainIndex names = true := by
  obtain ⟨put, htargets⟩ := remove_targets hremove
  rw [hfix] at htargets
  cases htargets with
  | @item _ _ field index _ _ items _ htable hentry hfield =>
    obtain ⟨vtable', hvtable', hrelTable⟩ := h.down htable
    obtain ⟨ventry', hventry', hrelEntry⟩ := hrelTable.down hentry
    obtain ⟨vfield', hvfield', rfl⟩ := (hrelEntry field).1 _ hfield
    rw [editAt_object_cons _ _ hvtable', isSome_map, editAt_object_cons _ _ hventry',
      isSome_map, editAt_object_cons _ _ hvfield', isSome_map] at hsome
    have hindex := hedit items index hsome
    simp [plainIndex, hindex]
  | _ => rfl

theorem removeChild_array_isSome (items : List Json) (index : String)
    (h : ((Json.array items).removeChild index).isSome = true) :
    (tokenIndex index).isSome = true := by
  obtain ⟨doc, hdoc⟩ := isSome_iff_exists.1 h
  obtain ⟨i, hi, -⟩ := bind_eq_some_iff.1 hdoc
  rw [hi]
  rfl

theorem replaceChild_array_isSome (value : Json) (items : List Json) (index : String)
    (h : (Json.replaceChild value (.array items) index).isSome = true) :
    (tokenIndex index).isSome = true := by
  obtain ⟨doc, hdoc⟩ := isSome_iff_exists.1 h
  obtain ⟨found, hfound, -⟩ := bind_eq_some_iff.1 hdoc
  obtain ⟨i, hi, -⟩ := bind_eq_some_iff.1 hfound
  rw [hi]
  rfl

section

variable (haccept : e.accept shadow names = some shadow')
include haccept

/-- What a fitting edit does to the two documents. -/
theorem applied_of_fits (hne : names ≠ []) (hfix : fixPath names = names)
    (hmirrors : e.operation ≠ .add → MirrorsObject 2 shadow part)
    (hfits : e.fits part names = true) :
    ∃ part', applyAt e.operation e.json (.object part) names = some (.object part') ∧
      (e.operation ≠ .add → MirrorsObject 2 shadow' part') := by
  cases e with
  | delete path =>
    have hindex := (plainIndex_iff names).1 hfits
    obtain ⟨part', happlied, hrel⟩ := accept_mirrors (e := .delete path)
      (hmirrors nofun) (by rw [hfix]; exact hindex)
      nofun nofun haccept
    rw [hfix] at happlied
    exact ⟨part', happlied, fun _ => hrel⟩
  | replace u =>
    rw [Edit.fits, Bool.and_eq_true, plainIndex_iff] at hfits
    obtain ⟨part', happlied, hrel⟩ := accept_mirrors (e := .replace u)
      (hmirrors nofun) (by rw [hfix]; exact hfits.2)
      (fun _ => by simpa [Edit.val, isSome_iff_ne_none] using hfits.1)
      nofun haccept
    rw [hfix] at happlied
    exact ⟨part', happlied, fun _ => hrel⟩
  | update u =>
    obtain ⟨json, hval⟩ := update_val haccept
    have hsome : ((Json.object part).editAt (Json.addChild json) names).isSome = true := by
      rw [editAt_isSome _ _ hne]
      simp only [addChild_isSome]
      exact hfits
    obtain ⟨doc, hdoc⟩ := isSome_iff_exists.1 hsome
    have happlied := applyAt_add hdoc
    obtain ⟨part', rfl⟩ := applyAt_object hne happlied
    refine ⟨part', ?_, fun hadd => absurd rfl hadd⟩
    simp only [Edit.json, Edit.val, hval]
    exact happlied

/-- An accepted edit whose operation is well formed and can be applied fits. -/
theorem fits_of_applied (hne : names ≠ []) (hfix : fixPath names = names)
    (hmirrors : e.operation ≠ .add → MirrorsObject 2 shadow part)
    (hsome : (applyAt e.operation e.json (.object part) names).isSome = true) :
    e.fits part names = true := by
  cases e with
  | delete path =>
    exact plainIndex_of_editAt removeChild_array_isSome (hmirrors (by simp [Edit.operation]))
      hfix (ok_of_toOption haccept) hsome
  | replace u =>
    cases hval : u.val with
    | none =>
      simp only [Edit.operation, Edit.json, Edit.val, hval, applyAt] at hsome
      cases hsome
    | some t =>
      obtain ⟨json, rfl⟩ := accept_val (e := .replace u) hval haccept
      simp only [Edit.accept, hval] at haccept
      -- A replacement has removed its target before.
      obtain ⟨removed, hremove⟩ : ∃ removed, remove shadow names = .ok removed := by
        cases hremove : remove shadow names with
        | ok removed => exact ⟨removed, rfl⟩
        | error e =>
          have hreplace := ok_of_toOption haccept
          rw [JsonClient.replace, hremove] at hreplace
          cases hreplace
      obtain ⟨token, rest, rfl⟩ := exists_cons_of_ne_nil hne
      simp only [Edit.operation, Edit.json, Edit.val, hval, applyAt] at hsome
      have hindex := plainIndex_of_editAt (replaceChild_array_isSome json)
        (hmirrors (by simp [Edit.operation])) hfix hremove hsome
      simp [Edit.fits, hval, hindex]
  | update u =>
    obtain ⟨json, hval⟩ := update_val haccept
    obtain ⟨token, rest, rfl⟩ := exists_cons_of_ne_nil hne
    simp only [Edit.operation, Edit.json, Edit.val, hval, applyAt] at hsome
    rw [editAt_isSome _ _ hne] at hsome
    simp only [addChild_isSome] at hsome
    exact hsome

theorem wellFormed_of_fits (hfits : e.fits part names = true) :
    e.json.isSome = true ↔ e.operation ≠ .remove := by
  cases e with
  | delete path => simp [Edit.json, Edit.val, Edit.operation]
  | replace u =>
    rw [Edit.fits, Bool.and_eq_true] at hfits
    obtain ⟨t, hval⟩ := isSome_iff_exists.1 hfits.1
    obtain ⟨json, rfl⟩ := accept_val (e := .replace u) hval haccept
    simp [Edit.json, Edit.val, Edit.operation, hval]
  | update u =>
    obtain ⟨json, hval⟩ := update_val haccept
    simp [Edit.json, Edit.val, Edit.operation, hval]

end

end OneEdit

/-! ## A whole request -/

theorem patchList_grows {c : PatchClient} {edits : List Edit} {st st' : PatchState}
    (hpaths : ∀ e ∈ edits, ∃ elems, PlainEditAt c e elems)
    (h : edits.foldlM c.editStep st = .ok st') : ∃ ops, st'.patchList = st.patchList ++ ops := by
  refine Loop.invariant (fun st' => ∃ ops, st'.patchList = st.patchList ++ ops)
    ⟨[], (append_nil _).symm⟩ ?_ h
  rintro done e rest hsplit st₁ st₂ - ⟨ops, hops⟩ hstep
  obtain ⟨elems, he⟩ := hpaths e (by rw [hsplit]; simp)
  rcases editStep_ok he.fullPath hstep with ⟨-, rfl⟩ | ⟨shadow', -, rfl⟩
  · exact ⟨ops, hops⟩
  · exact ⟨ops ++ [c.editOp e elems], by rw [hops, append_assoc]⟩

/-- The operations that some edits emit are well formed and can be applied iff the
edits are applicable.  As long as there are deletes and replaces to come, the
shadow document is mirrored by the document. -/
theorem applicable_iff {c : PatchClient} (hplain : c.PlainNamespace) {edits : List Edit}
    {st st' : PatchState} {doc : Json} {part : Members}
    (hrun : edits.foldlM c.editStep st = .ok st')
    (hpaths : ∀ e ∈ edits, ∃ elems, PlainEditAt c e elems)
    (horder : edits.Pairwise fun a b => a.operation = .add → b.operation = .add)
    (hmirrors : (∃ e ∈ edits, e.operation ≠ .add) → MirrorsObject 2 st.jsonData part)
    (hpart : c.component doc = .ok part) :
    ∃ ops, st'.patchList = st.patchList ++ ops ∧
      ((∀ op ∈ ops, op.WellFormed) ∧ (applyPatch doc ops).isSome = true ↔
        c.applicable st.jsonData part edits = true) := by
  induction edits generalizing st doc part with
  | nil =>
    cases hrun
    refine ⟨[], (append_nil _).symm, ?_⟩
    simp [applyPatch, applicable]
  | cons e rest ih =>
    obtain ⟨st₁, hstep, hrest⟩ := Loop.ok_cons_iff.1 hrun
    obtain ⟨elems, he⟩ := hpaths e mem_cons_self
    have hpathsRest := fun e' he' => hpaths e' (mem_cons_of_mem e he')
    rw [pairwise_cons] at horder
    rcases editStep_ok he.fullPath hstep with ⟨haccept, rfl⟩ | ⟨shadow', haccept, rfl⟩
    · have hmirrorsRest : (∃ e' ∈ rest, e'.operation ≠ .add) →
          MirrorsObject 2 st₁.jsonData part := by
        rintro ⟨e', he', hadd⟩
        exact hmirrors ⟨e', mem_cons_of_mem e he', hadd⟩
      obtain ⟨ops, hops, hiff⟩ := ih hrest hpathsRest horder.2 hmirrorsRest hpart
      refine ⟨ops, hops, ?_⟩
      rw [hiff, applicable, he.editNames_eq, haccept]
    · have hne : elemNames elems ≠ [] := by
        simpa [elemNames] using he.nonempty
      have hmirrorsHead : e.operation ≠ .add → MirrorsObject 2 st.jsonData part :=
        fun hadd => hmirrors ⟨e, mem_cons_self, hadd⟩
      have happly : (c.editOp e elems).apply doc =
          (applyAt e.operation e.json (.object part) (elemNames elems)).map
            (c.embed doc) := by
        rw [apply_editOp hplain e he.nonempty he.keys he.safe hpart, he.fixPath_eq]
      have hunfold : c.applicable st.jsonData part (e :: rest) = (e.fits part (elemNames elems) &&
            c.applicable shadow' (e.applied part (elemNames elems)) rest) := by
        rw [applicable, he.editNames_eq, haccept]
      rw [hunfold]
      by_cases hfits : e.fits part (elemNames elems) = true
      · obtain ⟨part', happlied, hmirrors'⟩ :=
          applied_of_fits haccept hne he.fixPath_eq hmirrorsHead hfits
        have hmirrorsRest : (∃ e' ∈ rest, e'.operation ≠ .add) → MirrorsObject 2 shadow' part' := by
          rintro ⟨e', he', hadd⟩
          exact hmirrors' fun hfirst => hadd (horder.1 e' he' hfirst)
        obtain ⟨ops, hops, hiff⟩ := ih hrest hpathsRest horder.2 hmirrorsRest
          (component_embed hplain hpart part')
        refine ⟨c.editOp e elems :: ops, ?_, ?_⟩
        · rw [hops, append_assoc]
          rfl
        have hwell : (c.editOp e elems).WellFormed := by
          rw [WellFormed, editOp_op, editOp_value]
          exact wellFormed_of_fits haccept hfits
        have hdocument : e.applied part (elemNames elems) = part' := by
          rw [Edit.applied, happlied]
          rfl
        rw [forall_mem_cons, applyPatch, happly, happlied, map_some,
          bind_some, hfits, Bool.true_and, hdocument, ← hiff]
        simp [hwell]
      · obtain ⟨ops, hops⟩ := patchList_grows hpathsRest hrest
        refine ⟨c.editOp e elems :: ops, ?_, ?_⟩
        · rw [hops, append_assoc]
          rfl
        rw [Bool.not_eq_true] at hfits
        have hnone : applyAt e.operation e.json (.object part) (elemNames elems) =
            none := by
          by_contra hsome
          have := fits_of_applied haccept hne he.fixPath_eq hmirrorsHead
            (isSome_iff_ne_none.2 hsome)
          rw [hfits] at this
          cases this
        rw [applyPatch, happly, hnone, hfits]
        simp

/-- The updates of a request come last. -/
theorem requestEdits_ordered (delete : List Path) (replace update : List Update) :
    (requestEdits delete replace update).Pairwise fun a b =>
      a.operation = .add → b.operation = .add := by
  have hlast : ∀ b ∈ update.map Edit.update, b.operation = .add := by
    simp [Edit.operation]
  rw [requestEdits, pairwise_append]
  refine ⟨pairwise_of_forall_mem_list fun a ha b _ hadd => ?_,
    pairwise_of_forall_mem_list fun _ _ b hb _ => hlast b hb, fun _ _ b hb _ => hlast b hb⟩
  rcases mem_append.1 ha with ha | ha
  all_goals
    obtain ⟨_, -, rfl⟩ := mem_map.1 ha
    cases hadd

/-- The edits are applicable to a checkpoint. -/
def PatchClient.applicableTo (c : PatchClient) (checkpoint : Json) (edits : List Edit) : Bool :=
  match c.component checkpoint with
  | .ok part => c.applicable part part edits
  | .error _ => false

def setClient (multiNs : Bool) (order : RangeOrder String String) (netns : String)
    (pathPrefix : Option Path) : PatchClient where
  pathPrefix := pathPrefix
  namespaceName := if multiNs then some (gcuNamespace netns) else none
  keyOrder := order

theorem setClient_plainNamespace {multiNs : Bool} (order : RangeOrder String String)
    {netns : String} (pathPrefix : Option Path)
    (h : multiNs = true → '/' ∉ netns.toList ∧ '~' ∉ netns.toList) :
    (setClient multiNs order netns pathPrefix).PlainNamespace := by
  intro name hname
  cases multiNs with
  | false => cases hname
  | true =>
    obtain rfl : gcuNamespace netns = name := by
      simpa [setClient] using hname
    unfold gcuNamespace
    split
    · decide +kernel
    · rename_i hempty
      exact ⟨hempty, h rfl⟩

/-- **When an accepted Set yields an applicable patch.**  Paths have plain names.
Whenever a patch reaches the service, its operations are well formed and can be
applied to the checkpoint one after the other iff the edits of the request are
applicable to it. -/
theorem patch_applicable_iff (service : ConfigService) (order : RangeOrder String String)
    (origin netns : String) (pathPrefix : Option Path) (delete : List Path)
    (replace update : List Update) (multiNs : Bool) (checkpoint : Json) (patch : List PatchOp)
    (hmulti : service.checkDbMultiNamespace = .ok multiNs)
    (hpoint : service.checkPoint = .ok checkpoint)
    (hnetns : multiNs = true → '/' ∉ netns.toList ∧ '~' ∉ netns.toList)
    (hpaths : ∀ e ∈ requestEdits delete replace update, ∃ elems,
      PlainEditAt (setClient multiNs order netns pathPrefix) e elems)
    (hreach : .applyPatchDb patch ∈ (setIncrementalConfig service order origin netns pathPrefix
      delete replace update).1) :
    (∀ op ∈ patch, op.WellFormed) ∧ (applyPatch checkpoint patch).isSome = true ↔
      (setClient multiNs order netns pathPrefix).applicableTo checkpoint
        (requestEdits delete replace update) = true := by
  obtain ⟨multiNs', checkpoint', st, hmulti', hpoint', hbuild, rfl⟩ :=
    applyPatchDb_mem_calls hreach
  cases hmulti.symm.trans hmulti'
  cases hpoint.symm.trans hpoint'
  change (setClient multiNs order netns pathPrefix).buildPatch _ _ _ _ = _ at hbuild
  have hplain := setClient_plainNamespace order pathPrefix hnetns
  generalize setClient multiNs order netns pathPrefix = c at *
  obtain ⟨part, hpart, hloops⟩ := buildPatch_loops hbuild
  rw [hloops] at hbuild
  obtain ⟨ops, hops, hiff⟩ := applicable_iff hplain hbuild hpaths
    (requestEdits_ordered delete replace update) (fun _ => MirrorsObject.refl 2 part) hpart
  rw [hops, List.nil_append, hiff, PatchClient.applicableTo, hpart]

/-! ### Requests that reach the service -/

/-- Services that all succeed, on a device without namespaces. -/
def patchService (checkpoint : Json) : ConfigService where
  checkPoint := .ok checkpoint
  applyPatchDb := fun _ => .ok ()

/-- The patch that such services get has a property that can be computed. -/
theorem patchService_reached (checkpoint : Json) (delete : List Path)
    (replace update : List Update) (property : List PatchOp → Bool)
    (h : ((setClient false stored "" none).buildPatch checkpoint delete replace
      update).toOption.any (fun st => !st.patchList.isEmpty && property st.patchList) = true) :
    ∃ patch, .applyPatchDb patch ∈ (setIncrementalConfig (patchService checkpoint)
      stored "sonic-db" "" none delete replace update).1 ∧ property patch = true := by
  obtain ⟨st, hst, hproperty⟩ := (any_eq_true _ _).1 h
  have hbuild := ok_of_toOption hst
  rw [Bool.and_eq_true, Bool.not_eq_true'] at hproperty
  refine ⟨st.patchList, ?_, hproperty.2⟩
  have hcalls : (patchCheckPoint (patchService checkpoint)
      (setClient false stored "" none) "sonic-db" delete replace update).1 =
        [.applyPatchDb st.patchList, .configSave] := by
    simp [patchCheckPoint, patchService, hbuild, applyPatchList, hproperty.1]
  have hset : (setIncrementalConfig (patchService checkpoint) stored "sonic-db" ""
      none delete replace update).1 =
        .createCheckPoint :: (patchCheckPoint (patchService checkpoint)
          (setClient false stored "" none) "sonic-db" delete replace update).1 ++
          [.deleteCheckPoint] := rfl
  rw [hset, hcalls]
  simp

def oneVnet : Json :=
  .object [("VNET", .object [("Vnet1", .object [("vni", .string "1000")])])]

/-- An update of an entry whose table does not exist yet is accepted, and the patch
adds a member to a table that is not there.  A replace without a value is
accepted, and its operation has no value. -/
theorem accepted_patch_fails :
    (∃ patch, .applyPatchDb patch ∈ (setIncrementalConfig (patchService (.object []))
        RangeOrder.stored "sonic-db" "" none [] [] [otherVnet]).1 ∧
      applyPatch (.object []) patch = none) ∧
    ∃ patch, .applyPatchDb patch ∈ (setIncrementalConfig (patchService oneVnet)
        RangeOrder.stored "sonic-db" "" none [] [{ path := some (entryPath "VNET" "Vnet1") }]
        []).1 ∧
      ∃ op ∈ patch, ¬ op.WellFormed := by
  constructor
  · obtain ⟨patch, hreach, hnone⟩ := patchService_reached (.object []) [] [] [otherVnet]
      (fun patch => (applyPatch (.object []) patch).isNone) (by decide +kernel)
    exact ⟨patch, hreach, Option.isNone_iff_eq_none.1 hnone⟩
  · obtain ⟨patch, hreach, hill⟩ := patchService_reached oneVnet []
      [{ path := some (entryPath "VNET" "Vnet1") }] []
      (fun patch => patch.any fun op => !decide op.WellFormed) (by decide +kernel)
    refine ⟨patch, hreach, ?_⟩
    obtain ⟨op, hop, hill⟩ := List.any_eq_true.1 hill
    exact ⟨op, hop, by simpa using hill⟩

/-- Deleting the field of one VNET and adding another VNET to the table. -/
theorem patch_applicable_on_vnet :
    ∃ patch, .applyPatchDb patch ∈ (setIncrementalConfig (patchService oneVnet)
        RangeOrder.stored "sonic-db" "" none [vniPath] [] [otherVnet]).1 ∧
      (∀ op ∈ patch, op.WellFormed) ∧ (applyPatch oneVnet patch).isSome = true := by
  obtain ⟨patch, hreach, -⟩ := patchService_reached oneVnet [vniPath] [] [otherVnet]
    (fun _ => true) (by decide +kernel)
  refine ⟨patch, hreach, ?_⟩
  refine (patch_applicable_iff (patchService oneVnet) RangeOrder.stored "sonic-db" "" none
    [vniPath] [] [otherVnet] false oneVnet patch rfl rfl (by simp) ?_ hreach).2
    (by decide +kernel)
  intro e he
  simp only [requestEdits, List.map_cons, List.map_nil, List.append_nil, List.cons_append,
    List.nil_append, List.mem_cons, List.not_mem_nil, or_false] at he
  rcases he with rfl | rfl
  · exact ⟨vniPath.elem.drop 2, rfl, by simp [vniPath], by simp [vniPath], by decide +kernel⟩
  · exact ⟨(entryPath "VNET" "Vnet2").elem.drop 2, rfl, by simp [entryPath],
      by simp [entryPath], by decide +kernel⟩

end SonicGnmi.Sdc
