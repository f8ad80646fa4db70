import SonicGnmi.Gnsi.CertzServer

/-!
# The files and links of the certificate service

What the file operations of a rotation can reach.

* `pemEnding_injective`, `Undated.of_dated` — a generated name carries the time
  it was made, so it differs from all names that are made at other times;
* `linked` — the links of an entity with the paths they are to point to, and
  `setLinks_linked` — after `setLinks` they do;
* `Swept` — what the rotation of policies and revocation lists may remove.
-/

namespace SonicGnmi.Gnsi

open Foundation Grpc List

/-! ## Generated names -/

/-- The kinds of generated files. -/
def pemKinds : List String := ["_cert.pem", "_key.pem", "_bundle.pem"]

variable {t t' : Nat} {kind : String} {loc : Location}

/-- The digits of the time are what stands before the kind and after an
underscore. -/
theorem stamp_injective {base base' : String}
    (h : base ++ ("_" ++ toString t) = base' ++ ("_" ++ toString t')) : t = t' := by
  have hcut : ∀ (name : String) (time : Nat),
      GoText.cutChars ['_'] (name ++ ("_" ++ toString time)).toList.reverse =
        some ((toString time).toList.reverse, name.toList.reverse) := by
    intro name time
    have hreverse : (name ++ ("_" ++ toString time)).toList.reverse =
        (toString time).toList.reverse ++ '_' :: name.toList.reverse := by
      simp only [String.toList_append, reverse_append]
      rw [append_assoc]
      rfl
    rw [hreverse, GoText.cutChars_append _ _ (by
      rw [mem_reverse]
      exact fun hmem => absurd (GoText.isDigit_of_mem_toString hmem) (by decide))]
  have hpair := (hcut base t).symm.trans ((congrArg (fun s : String =>
    GoText.cutChars ['_'] s.toList.reverse) h).trans (hcut base' t'))
  rw [Option.some.injEq, Prod.mk.injEq, reverse_inj, Nat.toString_eq_repr,
    Nat.toString_eq_repr, Nat.toList_repr, Nat.toList_repr] at hpair
  have hvalue := congrArg (fun digits => Nat.ofDigitChars 10 digits 0) hpair.1
  simpa only [Nat.ofDigitChars_toDigits (by decide : 1 < 10) (by decide : 10 ≤ 10)] using hvalue

theorem pemEnding_injective {base base' kind' : String}
    (hkind : kind ∈ pemKinds) (hkind' : kind' ∈ pemKinds)
    (h : base ++ pemEnding t kind = base' ++ pemEnding t' kind') : t = t' ∧ kind = kind' := by
  have hassoc : ∀ (name ending : String) (time : Nat),
      name ++ pemEnding time ending = name ++ ("_" ++ toString time) ++ ending := by
    intro name ending time
    exact (String.append_assoc).symm
  rw [hassoc, hassoc] at h
  have hsame : kind = kind' := by
    have hreverse := congrArg (fun s : String => (s.toList.reverse.take 5)) h
    simp only [String.toList_append, reverse_append] at hreverse
    simp only [pemKinds, mem_cons, not_mem_nil, or_false] at hkind hkind'
    rcases hkind with rfl | rfl | rfl <;> rcases hkind' with rfl | rfl | rfl <;>
      first | rfl | (exfalso; simp at hreverse)
  subst hsame
  exact ⟨stamp_injective ((String.append_left_inj kind).1 h), rfl⟩

/-- A location with a generated name. -/
def Dated (t : Nat) (kind : String) (loc : Location) : Prop :=
  ∃ here base, loc = here ++ [base ++ pemEnding t kind]

/-- No file that is generated after a time gets this location. -/
def Undated (now : Nat) (loc : Location) : Prop :=
  ∀ t kind, now < t → kind ∈ pemKinds → ¬ Dated t kind loc

theorem Undated.mono {now later : Nat} (h : Undated now loc)
    (hlater : now ≤ later) : Undated later loc :=
  fun t kind ht => h t kind (lt_of_le_of_lt hlater ht)

theorem Dated.unique {kind' : String} (hkind : kind ∈ pemKinds) (hkind' : kind' ∈ pemKinds)
    (h : Dated t kind loc) (h' : Dated t' kind' loc) : t = t' ∧ kind = kind' := by
  obtain ⟨here, base, rfl⟩ := h
  obtain ⟨here', base', heq⟩ := h'
  have hlast := (append_inj' heq rfl).2
  exact pemEnding_injective hkind hkind' (cons.inj hlast).1

/-- A file made at a time is not one that is made later. -/
theorem Undated.of_dated (hkind : kind ∈ pemKinds) (h : Dated t kind loc) : Undated t loc := by
  intro later kind' hlater hkind' hdated
  have htime := (h.unique hkind hkind' hdated).1
  omega

theorem undated_of_not_pem (now : Nat)
    (h : GoText.hasSuffix (loc.getLastD "") ".pem" = false) : Undated now loc := by
  rintro t kind - hkind ⟨here, base, heq⟩
  have hname : loc.getLastD "" = base ++ pemEnding t kind := by
    rw [heq, getLastD_concat]
  have hpem : ∃ stem, kind = stem ++ ".pem" := by
    simp only [pemKinds, mem_cons, not_mem_nil, or_false] at hkind
    rcases hkind with rfl | rfl | rfl
    · exact ⟨"_cert", rfl⟩
    · exact ⟨"_key", rfl⟩
    · exact ⟨"_bundle", rfl⟩
  obtain ⟨stem, rfl⟩ := hpem
  have hends : GoText.hasSuffix (loc.getLastD "") ".pem" = true := by
    rw [hname, GoText.hasSuffix_iff]
    refine ⟨base ++ ("_" ++ toString t ++ stem), ?_⟩
    simp only [pemEnding, String.append_assoc]
  rw [h] at hends
  cases hends

theorem pemEnding_length (t : Nat) (hkind : kind ∈ pemKinds) :
    3 ≤ (pemEnding t kind).toList.length := by
  simp only [pemKinds, mem_cons, not_mem_nil, or_false] at hkind
  rcases hkind with rfl | rfl | rfl <;>
    simp [pemEnding, String.toList_append, length_append]

theorem slash_not_mem_pemEnding (t : Nat) (hkind : kind ∈ pemKinds) :
    '/' ∉ (pemEnding t kind).toList := by
  simp only [pemKinds, mem_cons, not_mem_nil, or_false] at hkind
  rcases hkind with rfl | rfl | rfl <;>
    simp only [pemEnding, String.toList_append, mem_append, not_or] <;>
    exact ⟨⟨by decide, fun hmem => absurd (GoText.isDigit_of_mem_toString hmem) (by decide)⟩,
      by decide⟩

variable (cwd : Location)

/-- A generated path has a dated location, in a directory that does not depend
on the time. -/
theorem locate_pemEnding (base : String) (t : Nat) (hkind : kind ∈ pemKinds) :
    locate cwd (base ++ pemEnding t kind) =
      locateDir cwd base ++ [lastName base ++ pemEnding t kind] :=
  (locate_append cwd base (slash_not_mem_pemEnding t hkind) (pemEnding_length t hkind)).2

theorem dated_locate (base : String) (t : Nat)
    (hkind : kind ∈ pemKinds) : Dated t kind (locate cwd (base ++ pemEnding t kind)) :=
  ⟨locateDir cwd base, lastName base, locate_pemEnding cwd base t hkind⟩

theorem isEntry_pemEnding (base : String) (t t' : Nat) (hkind : kind ∈ pemKinds) (dir : Location) :
    FileSystem.IsEntry dir (locate cwd (base ++ pemEnding t kind)) ↔
      FileSystem.IsEntry dir (locate cwd (base ++ pemEnding t' kind)) := by
  simp [FileSystem.IsEntry, locate_pemEnding cwd base _ hkind]

/-! ## The links of an entity -/

section Links

variable (config : CertzConfig)

/-- The links of a type, each with the path of the entity it is to point to. -/
def linked (eType : CertzType) (entity : GenericEntity) : List (String × String) :=
  match eType with
  | .cert => [(config.srvCertLnk, entity.certPath), (config.srvKeyLnk, entity.keyPath)]
  | .trustBundle => [(config.caCertLnk, entity.certPath)]
  | _ => []

/-- The files of an entity. -/
def entityPaths (eType : CertzType) (entity : GenericEntity) : List String :=
  match eType with
  | .cert => [entity.certPath, entity.keyPath]
  | .trustBundle => [entity.certPath]
  | _ => []

/-- The location of one of the three links. -/
def IsLink (cwd loc : Location) : Prop :=
  loc = locate cwd config.srvCertLnk ∨ loc = locate cwd config.srvKeyLnk ∨
    loc = locate cwd config.caCertLnk

instance (cwd loc : Location) : Decidable (IsLink config cwd loc) :=
  inferInstanceAs (Decidable (_ ∨ _))

/-- A link points to a path. -/
def PointsTo (fs : FileSystem) (link path : String) : Prop :=
  ∃ target, fs.node (fs.loc link) = some (.link target) ∧
    locate (fs.loc link).dropLast target = fs.loc path

/-- Three links at different places. -/
structure DistinctLinks (cwd : Location) : Prop where
  certKey : locate cwd config.srvCertLnk ≠ locate cwd config.srvKeyLnk
  certCa : locate cwd config.srvCertLnk ≠ locate cwd config.caCertLnk
  keyCa : locate cwd config.srvKeyLnk ≠ locate cwd config.caCertLnk

variable {config}

/-- The links of a type are replaced, and nothing else changes. -/
theorem setLinks_linked {fs : FileSystem} (hlinks : DistinctLinks config fs.cwd)
    {eType : CertzType} {old : GenericEntity} (entity : GenericEntity)
    (hold : ∀ pair ∈ linked config eType old, PointsTo fs pair.1 pair.2) :
    ∃ after, setLinks config fs eType entity = (.ok (), after) ∧ after.cwd = fs.cwd ∧
      (∀ pair ∈ linked config eType entity,
        after.node (fs.loc pair.1) = some (.link (fs.loc pair.2).text)) ∧
      ∀ loc, (∀ pair ∈ linked config eType entity, loc ≠ fs.loc pair.1) →
        after.node loc = fs.node loc := by
  cases eType with
  | cert =>
    obtain ⟨oldCert, hcert, -⟩ := hold (config.srvCertLnk, old.certPath) (by simp [linked])
    obtain ⟨oldKey, hkey, -⟩ := hold (config.srvKeyLnk, old.keyPath) (by simp [linked])
    have hne : fs.loc config.srvCertLnk ≠ fs.loc config.srvKeyLnk := hlinks.certKey
    obtain ⟨after, hset, hcwd, hnode⟩ := atomicSetSrvCertKeyPair_links entity.certPath
      entity.keyPath hcert hkey hne
    refine ⟨after, hset, hcwd, fun pair hpair => ?_, fun loc hloc => ?_⟩
    · simp only [linked, mem_cons, not_mem_nil, or_false] at hpair
      rcases hpair with rfl | rfl
      · rw [hnode, if_neg hne, if_pos rfl]
      · rw [hnode, if_pos rfl]
    · rw [hnode, if_neg (hloc (config.srvKeyLnk, entity.keyPath) (by simp [linked])),
        if_neg (hloc (config.srvCertLnk, entity.certPath) (by simp [linked]))]
  | trustBundle =>
    obtain ⟨oldCa, hca, -⟩ := hold (config.caCertLnk, old.certPath) (by simp [linked])
    obtain ⟨after, hset, hcwd, hnode⟩ := atomicSetCACert_link entity.certPath hca
    refine ⟨after, hset, hcwd, fun pair hpair => ?_, fun loc hloc => ?_⟩
    · simp only [linked, mem_cons, not_mem_nil, or_false] at hpair
      rw [hpair, hnode, if_pos rfl]
    · rw [hnode, if_neg (hloc (config.caCertLnk, entity.certPath) (by simp [linked]))]
  | crl | authPolicy =>
    exact ⟨fs, rfl, rfl, fun pair hpair => by simp [linked] at hpair, fun _ _ => rfl⟩

theorem pointsTo_of_text {fs : FileSystem} (hcwd : ∀ name ∈ fs.cwd, ProperName name)
    {link path : String} (h : fs.node (fs.loc link) = some (.link (fs.loc path).text)) :
    PointsTo fs link path :=
  ⟨_, h, locate_text _ (properName_locate hcwd path)⟩

end Links

open FileSystem

/-! ## Rules for file operations -/

section Rules

variable (P : FileSystem → Prop) {fs : FileSystem} {path : String} {crls : List CrlMsg}

theorem removeEntityFiles_rule {entity : GenericEntity} (h : P fs)
    (hremove : ∀ fs, P fs → ∀ path ∈ entityPaths entity.eType entity, P (removeLogged fs path)) :
    P (removeEntityFiles fs entity) := by
  unfold removeEntityFiles
  unfold entityPaths at hremove
  cases htype : entity.eType with
  | cert =>
    rw [htype] at hremove
    exact hremove _ (hremove fs h _ (by simp)) _ (by simp)
  | trustBundle =>
    rw [htype] at hremove
    exact hremove fs h _ (by simp)
  | crl | authPolicy => exact h

theorem writeCrls_rule (h : P fs) (hwrite : ∀ fs, P fs → ∀ crl ∈ crls, P (writeCrl fs path crl).2) :
    P (writeCrls path fs crls).2 := by
  induction crls generalizing fs with
  | nil => exact h
  | cons crl rest ih =>
    have hnext := hwrite fs h crl mem_cons_self
    unfold writeCrls
    rcases hresult : writeCrl fs path crl with ⟨fault | done, next⟩ <;> rw [hresult] at hnext
    · exact hnext
    · exact ih hnext fun fs h other hother => hwrite fs h other (mem_cons_of_mem _ hother)

theorem checkAndWrite_rule {parse : String → CrlParse} {index : Nat} (h : P fs)
    (hwrite : ∀ fs, P fs → ∀ crl ∈ crls, P (writeCrl fs path crl).2) :
    P (checkAndWrite parse path fs index crls).2 := by
  induction crls generalizing fs index with
  | nil => exact h
  | cons crl rest ih =>
    have hnext := hwrite fs h crl mem_cons_self
    unfold checkAndWrite
    rcases checkCrl parse index crl with fault | ok
    · exact h
    rcases hresult : writeCrl fs path crl with ⟨fault | done, next⟩
    · rw [hresult] at hnext
      exact hnext
    · rw [hresult] at hnext
      exact ih hnext fun fs h other hother => hwrite fs h other (mem_cons_of_mem _ hother)

theorem rotateCRLBundle_rule {parse : String → CrlParse} (h : P fs)
    (hwrite : ∀ fs, P fs → ∀ crl ∈ crls, P (writeCrl fs path crl).2)
    (hclear : ∀ fs, P fs → P (fs.clearDir (fs.loc path))) :
    P (rotateCRLBundle parse fs crls path).2 := by
  unfold rotateCRLBundle
  split
  · exact h
  have hfirst : P (checkAndWrite parse path fs 0 crls).2 := checkAndWrite_rule P h hwrite
  rcases hresult : checkAndWrite parse path fs 0 crls with ⟨fault | done, mid⟩ <;>
    rw [hresult] at hfirst
  · exact hfirst
  · exact writeCrls_rule P (hclear mid hfirst) hwrite

theorem saveAuthPolicy_rule {serialized : String} (h : P fs)
    (hbackup : ∀ after, fs.rename path (path ++ ".bak") = .ok after → P after)
    (hsave : ∀ fs, P fs → P (saveFile fs path serialized).2)
    (hrestore : ∀ fs, P fs → P (restoreAuthPolicy fs path)) :
    P (saveAuthPolicy fs path serialized).2 := by
  unfold saveAuthPolicy
  rcases hresult : backupAuthPolicy fs path with e | saved
  · exact h
  have hfirst : P saved := by
    unfold backupAuthPolicy at hresult
    rcases hstat : fs.lstat (path ++ ".bak") with e | node <;> rw [hstat] at hresult
    · exact hbackup saved hresult
    · cases hresult
      exact h
  have hwrite := hsave saved hfirst
  dsimp only
  rcases hsaved : saveFile saved path serialized with ⟨fault | done, written⟩ <;>
    rw [hsaved] at hwrite
  · exact hrestore written hwrite
  · exact hwrite

theorem saveEntities_rule {config : CertzConfig} {generatedKey : Option String} {msg : EntityMsg}
    {t : CertzType} {entity : GenericEntity} {result : Except Fault Unit} {saved : FileSystem}
    (h : P fs) (hbody : msg.body.eType = some t)
    (hfile : ∀ fs, P fs → ∀ path ∈ entityPaths t entity, ∀ data, P (saveFile fs path data).2)
    (hlists : t = .crl → ∀ crls, msg.body = .crlBundle crls →
      P (rotateCRLBundle config.parseCrl fs crls entity.certPath).2)
    (hpolicy : t = .authPolicy → ∀ serialized, P (saveAuthPolicy fs entity.certPath serialized).2)
    (hsave : saveEntities config fs generatedKey msg entity = (result, saved)) : P saved := by
  rw [show saved = _ from (congrArg Prod.snd hsave).symm]
  unfold saveEntities
  cases hcase : msg.body with
  | certificateChain chain =>
    rw [hcase] at hbody
    cases hbody
    dsimp only
    rcases readCertChain generatedKey chain with fault | ⟨cert, key⟩
    · exact h
    have hfirst := hfile fs h entity.keyPath (by simp [entityPaths]) key
    dsimp only
    rcases hkey : saveFile fs entity.keyPath key with ⟨fault | done, mid⟩ <;> rw [hkey] at hfirst
    · exact hfirst
    · exact hfile mid hfirst entity.certPath (by simp [entityPaths]) cert
  | trustBundle certificate =>
    rw [hcase] at hbody
    cases hbody
    cases certificate with
    | none => exact h
    | some tb =>
      dsimp only
      split
      · exact h
      split
      · exact h
      · split
        · exact h
        · exact hfile fs h entity.certPath (by simp [entityPaths]) _
  | crlBundle crls =>
    rw [hcase] at hbody
    cases hbody
    have hrotate := hlists rfl crls hcase
    dsimp only
    rcases hresult : rotateCRLBundle config.parseCrl fs crls entity.certPath
      with ⟨fault | done, rotated⟩
    all_goals
      rw [hresult] at hrotate
      exact hrotate
  | authenticationPolicy serialized =>
    rw [hcase] at hbody
    cases hbody
    exact hpolicy rfl serialized
  | other => exact h

end Rules

/-! ## What file operations spare -/

variable (fs : FileSystem)

theorem spares_saveFile (name data : String) :
    fs.Spares (saveFile fs name data).2 fun _ => False := by
  unfold saveFile attemptWrite
  rcases hwrite : fs.writeFile name data with e | after
  · exact Spares.refl fs _
  · exact spares_writeFile hwrite

theorem isSome_saveFile {fs after : FileSystem} {name data : String}
    (h : saveFile fs name data = (.ok (), after)) : (after.node (fs.loc name)).isSome = true := by
  unfold saveFile attemptWrite at h
  rcases hwrite : fs.writeFile name data with e | written <;> rw [hwrite] at h
  · cases h
  · cases h
    exact isSome_writeFile hwrite

variable (path : String)

theorem spares_removeLogged : fs.Spares (removeLogged fs path) (· = fs.loc path) := by
  unfold removeLogged
  rcases hremove : fs.remove path with e | after
  · exact Spares.refl fs _
  · exact spares_remove hremove

theorem spares_writeCrl (crl : CrlMsg) : fs.Spares (writeCrl fs path crl).2 fun _ => False := by
  unfold writeCrl attemptWrite
  dsimp only
  split
  · exact Spares.refl fs _
  · rcases hwrite : fs.writeFile (joinPath path crl.id) crl.list with e | after
    · exact Spares.refl fs _
    · exact spares_writeFile hwrite

/-- Lists may be written anywhere, but only entries of the directory are
removed. -/
theorem spares_rotateCRLBundle (parse : String → CrlParse) (crls : List CrlMsg) :
    fs.Spares (rotateCRLBundle parse fs crls path).2 (IsEntry (fs.loc path)) := by
  refine rotateCRLBundle_rule (fs.Spares · _) (Spares.refl fs _) (fun mid hmid crl _ => ?_)
    fun mid hmid => ?_
  · exact hmid.trans ((spares_writeCrl mid path crl).mono fun _ h => h.elim)
  · rw [← hmid.loc]
    exact (hmid.loc path ▸ hmid).trans (spares_clearDir mid _)

theorem spares_copyCRLBundle (srcPath dstPath : String) :
    fs.Spares (copyCRLBundle fs srcPath dstPath) (IsEntry (fs.loc dstPath)) :=
  (spares_clearDir fs _).trans (spares_copyDir _ _ _)

theorem spares_restoreAuthPolicy :
    fs.Spares (restoreAuthPolicy fs path)
      fun loc => loc = fs.loc path ∨ loc = fs.loc (path ++ ".bak") := by
  unfold restoreAuthPolicy
  rcases hrename : fs.rename (path ++ ".bak") path with e | after
  · exact Spares.refl fs _
  · exact (spares_rename hrename).mono fun _ => Or.symm

theorem spares_saveAuthPolicy (path serialized : String) :
    fs.Spares (saveAuthPolicy fs path serialized).2
      fun loc => loc = fs.loc path ∨ loc = fs.loc (path ++ ".bak") := by
  refine saveAuthPolicy_rule (fs.Spares · _) (Spares.refl fs _) (fun after => spares_rename)
    (fun mid hmid => ?_) fun mid hmid => ?_
  · exact hmid.trans ((spares_saveFile mid path serialized).mono fun _ h => h.elim)
  · have hrestore := spares_restoreAuthPolicy mid path
    rw [hmid.loc, hmid.loc] at hrestore
    exact hmid.trans hrestore

/-- What the rotation of policies and revocation lists may remove or replace. -/
def Swept (config : CertzConfig) (cwd loc : Location) : Prop :=
  loc = locate cwd config.fedPolicyFile ∨ loc = locate cwd (config.fedPolicyFile ++ ".bak") ∨
    IsEntry (locate cwd (config.crlPath defaultProfile)) loc ∨
    IsEntry (locate cwd (config.crlPath defaultProfile ++ "_flush")) loc

instance (config : CertzConfig) (cwd loc : Location) : Decidable (Swept config cwd loc) :=
  inferInstanceAs (Decidable (_ ∨ _))

end SonicGnmi.Gnsi
