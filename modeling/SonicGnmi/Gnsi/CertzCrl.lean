import SonicGnmi.Gnsi.CertzRotation

/-!
# Revocation lists after a failed rotation

A rotation works in the directory of the active revocation lists.  When it fails,
the lists come back from the `_flush` copy, but only if an upload had become
active, and the copy is only made by a Finalize.

* `Reserved` — the two directories and the metadata file;
* `Keeps` lemmas — uploads of other entities do not touch what is reserved;
* `CrlInv` — what holds during a session, with one lemma for each step;
* `certz_failed_session_keeps_crls` — a failed session leaves the lists alone when
  the copy was up to date and no bundle is rejected in the middle.
-/

namespace SonicGnmi.Gnsi

open Foundation Grpc FileSystem AList EntityGroup GenericEntity Keeps List

/-! ## What other uploads leave alone -/

section Frame

variable {start fs after : FileSystem} {region : Location → Prop} {path : String}

section

variable (h : start.Keeps fs region)
include h

theorem keeps_saveFile (hpath : ¬ region (start.loc path))
    (data : String) : start.Keeps (saveFile fs path data).2 region := by
  unfold saveFile attemptWrite
  rcases hwrite : fs.writeFile path data with e | after
  · exact h
  · exact keeps_writeFile h hpath hwrite

theorem keeps_removeLogged (hpath : ¬ region (start.loc path)) :
    start.Keeps (removeLogged fs path) region := by
  unfold removeLogged
  rcases hremove : fs.remove path with e | after
  · exact h
  · rw [remove_ok hremove]
    rw [← h.loc] at hpath
    exact keeps_set h hpath (by rintro _ ⟨⟩)

theorem keeps_removeEntityFiles {entity : GenericEntity}
    (hpaths : ∀ path ∈ entityPaths entity.eType entity, ¬ region (start.loc path)) :
    start.Keeps (removeEntityFiles fs entity) region :=
  removeEntityFiles_rule (start.Keeps · region) h fun _ hmid path hpath =>
    keeps_removeLogged hmid (hpaths path hpath)

/-- The link may come back later: what it was does not lead into the region. -/
theorem keeps_rmSymlink {link : String} (hlink : ¬ region (start.loc link)) :
    start.Keeps (rmSymlink fs link {}).2 region ∧
      ∀ old, (rmSymlink fs link {}).1 = .ok old →
        old = "" ∨ ¬ region (locate (start.loc link).dropLast old) := by
  rw [← h.loc] at hlink ⊢
  unfold rmSymlink
  rcases hnode : fs.node (fs.loc link) with _ | node
  · exact ⟨h, fun old hold => Or.inl (Except.ok.inj hold).symm⟩
  cases node with
  | file content =>
    simp only [FileSystem.readlink, hnode]
    exact ⟨h, fun old hold => by cases hold⟩
  | link target =>
    simp only [FileSystem.readlink, FileSystem.remove, hnode]
    refine ⟨keeps_set h hlink (by rintro _ ⟨⟩), fun old hold => .inr ?_⟩
    cases hold
    exact h.intact _ _ hlink hnode

theorem keeps_restoreSymlink {old link : String} (hlink : ¬ region (start.loc link))
    (hold : old = "" ∨ ¬ region (locate (start.loc link).dropLast old)) :
    start.Keeps (restoreSymlink fs old link) region := by
  unfold restoreSymlink
  split
  · exact h
  rename_i hne
  rcases (fs.follow old).bind fs.node with _ | node
  · exact h
  have hrm := (keeps_rmSymlink h hlink).1
  rcases hresult : rmSymlink fs link {} with ⟨e | target, removed⟩ <;> rw [hresult] at hrm
  · exact hrm
  dsimp only
  rcases hset : removed.symlink old link with e | restored
  · exact hrm
  · exact keeps_symlink hrm hlink (hold.resolve_left hne) hset

theorem keeps_symlinkOr {loc : Location} (hnames : ∀ name ∈ loc, ProperName name)
    (hloc : ¬ region loc) {link : String} (hlink : ¬ region (start.loc link))
    (hset : symlinkOr fs loc.text link none = .ok after) : start.Keeps after region := by
  refine keeps_symlink h hlink ?_ hset
  rw [locate_text _ hnames]
  exact hloc

end

theorem keeps_atomicSetCACert (h : fs.Shut region) (hcwd : ∀ name ∈ fs.cwd, ProperName name)
    {cfg : LinkConfig} {caCert : String} (hlink : ¬ region (fs.loc cfg.caCertLnk))
    (hcert : ¬ region (fs.loc caCert)) : fs.Keeps (atomicSetCACert cfg fs caCert {}).2 region := by
  unfold atomicSetCACert
  obtain ⟨hrm, hold⟩ := keeps_rmSymlink (refl h) hlink
  rcases hresult : rmSymlink fs cfg.caCertLnk {} with ⟨e | old, removed⟩
  · rw [hresult] at hrm
    exact hrm
  rw [hresult] at hrm hold
  dsimp only
  rcases hset : symlinkOr removed (fs.loc caCert).text cfg.caCertLnk none with e | linked
  · exact keeps_restoreSymlink hrm hlink (hold old rfl)
  · exact keeps_symlinkOr hrm (properName_locate hcwd caCert) hcert hlink hset

theorem keeps_atomicSetSrvCertKeyPair (h : fs.Shut region)
    (hcwd : ∀ name ∈ fs.cwd, ProperName name) {cfg : LinkConfig} {sCert sKey : String}
    (hcertLink : ¬ region (fs.loc cfg.srvCertLnk)) (hkeyLink : ¬ region (fs.loc cfg.srvKeyLnk))
    (hcert : ¬ region (fs.loc sCert)) (hkey : ¬ region (fs.loc sKey)) :
    fs.Keeps (atomicSetSrvCertKeyPair cfg fs sCert sKey {}).2 region := by
  unfold atomicSetSrvCertKeyPair
  obtain ⟨hfirst, holdCert⟩ := keeps_rmSymlink (refl h) hcertLink
  rcases hresult : rmSymlink fs cfg.srvCertLnk {} with ⟨e | oldCert, fs₁⟩
  · rw [hresult] at hfirst
    exact hfirst
  rw [hresult] at hfirst holdCert
  replace holdCert := holdCert oldCert rfl
  obtain ⟨hsecond, holdKey⟩ := keeps_rmSymlink hfirst hkeyLink
  dsimp only
  rcases hresult₂ : rmSymlink fs₁ cfg.srvKeyLnk {} with ⟨e | oldKey, fs₂⟩
  · rw [hresult₂] at hsecond
    exact keeps_restoreSymlink hsecond hcertLink holdCert
  rw [hresult₂] at hsecond holdKey
  -- whatever was set since, putting the old links back keeps the region
  have hrestore : ∀ mid : FileSystem, fs.Keeps mid region →
      fs.Keeps (restoreSymlink (restoreSymlink mid oldCert cfg.srvCertLnk) oldKey
        cfg.srvKeyLnk) region := fun mid hmid =>
    keeps_restoreSymlink (keeps_restoreSymlink hmid hcertLink holdCert) hkeyLink
      (holdKey oldKey rfl)
  dsimp only
  rcases hset : symlinkOr fs₂ (fs.loc sCert).text cfg.srvCertLnk none with e | fs₃
  · exact hrestore fs₂ hsecond
  have hthird := keeps_symlinkOr hsecond (properName_locate hcwd sCert) hcert hcertLink hset
  dsimp only
  rcases hset₂ : symlinkOr fs₃ (fs.loc sKey).text cfg.srvKeyLnk none with e | fs₄
  · exact hrestore fs₃ hthird
  · exact keeps_symlinkOr hthird (properName_locate hcwd sKey) hkey hkeyLink hset₂

theorem keeps_setLinks {config : CertzConfig} {entity : GenericEntity} (h : fs.Shut region)
    (hcwd : ∀ name ∈ fs.cwd, ProperName name)
    (hlinks : ∀ loc, IsLink config fs.cwd loc → ¬ region loc) {t : CertzType}
    (hpaths : ∀ path ∈ entityPaths t entity, ¬ region (fs.loc path)) :
    fs.Keeps (setLinks config fs t entity).2 region := by
  cases t with
  | cert =>
    exact keeps_atomicSetSrvCertKeyPair h hcwd (hlinks _ (.inl rfl))
      (hlinks _ (.inr (.inl rfl))) (hpaths _ (by simp [entityPaths]))
      (hpaths _ (by simp [entityPaths]))
  | trustBundle =>
    exact keeps_atomicSetCACert h hcwd (hlinks _ (.inr (.inr rfl)))
      (hpaths _ (by simp [entityPaths]))
  | crl | authPolicy => exact refl h

theorem keeps_restoreAuthPolicy (h : start.Keeps fs region)
    (hpath : ¬ region (start.loc path)) (hbackup : ¬ region (start.loc (path ++ ".bak")))
    (hdir : (start.loc (path ++ ".bak")).dropLast = (start.loc path).dropLast) :
    start.Keeps (restoreAuthPolicy fs path) region := by
  unfold restoreAuthPolicy
  rcases hrename : fs.rename (path ++ ".bak") path with e | after
  · exact h
  · exact keeps_rename h hbackup hpath hdir hrename

end Frame

/-! ## One bundle of lists -/

/-- A list that passes all checks, under a plain name. -/
def CrlMsg.Acceptable (parse : String → CrlParse) (crl : CrlMsg) : Prop :=
  ProperName crl.id ∧ checkCrl parse 0 crl = .ok ()

/-- All lists of a bundle are accepted, or already the first one is rejected. -/
def CrlWhole (parse : String → CrlParse) (crls : List CrlMsg) : Prop :=
  (∀ crl ∈ crls, crl.Acceptable parse) ∨
    ∀ crl ∈ crls.head?, ∃ fault, checkCrl parse 0 crl = .error fault

variable {parse : String → CrlParse} {dir : Location} {fs : FileSystem} {path : String}
  {crls : List CrlMsg}

/-- The position of a list matters for the error text only. -/
theorem checkCrl_ok_index {crl : CrlMsg} {first : Nat}
    (h : checkCrl parse first crl = .ok ()) (index : Nat) : checkCrl parse index crl = .ok () := by
  unfold checkCrl at h ⊢
  split at h
  · cases h
  rename_i hx509
  split at h
  · cases h
  rename_i hpem
  split at h
  · cases h
  · rename_i hlist
    rw [if_neg hx509, if_neg hpem, if_neg hlist]
    exact h

/-- Only entries of one directory change, and none of them becomes a link. -/
structure OnlyIn (dir : Location) (fs after : FileSystem) : Prop where
  cwd : after.cwd = fs.cwd
  outside : ∀ loc, ¬ IsEntry dir loc → after.node loc = fs.node loc
  plain : ∀ loc target, IsEntry dir loc → after.node loc ≠ some (.link target)

theorem OnlyIn.loc {after : FileSystem} (h : OnlyIn dir fs after) (path : String) :
    after.loc path = fs.loc path :=
  loc_of_cwd h.cwd path

theorem OnlyIn.trans {mid after : FileSystem} (hfirst : OnlyIn dir fs mid)
    (hsecond : OnlyIn dir mid after) : OnlyIn dir fs after where
  cwd := hsecond.cwd.trans hfirst.cwd
  outside := fun loc hloc => (hsecond.outside loc hloc).trans (hfirst.outside loc hloc)
  plain := hsecond.plain

theorem OnlyIn.intact {after : FileSystem} {region : Location → Prop}
    (h : OnlyIn dir fs after) (hshut : fs.Shut region) : after.Shut region := by
  intro loc target houtside hnode
  by_cases hloc : IsEntry dir loc
  · exact absurd hnode (h.plain loc target hloc)
  · exact hshut loc target houtside (by rw [← h.outside loc hloc, hnode])

theorem onlyIn_refl (hplain : ∀ loc target, IsEntry dir loc → fs.node loc ≠ some (.link target)) :
    OnlyIn dir fs fs := ⟨rfl, fun _ _ => rfl, hplain⟩

theorem onlyIn_clearDir (fs : FileSystem) (dir : Location) : OnlyIn dir fs (fs.clearDir dir) where
  cwd := rfl
  outside := fun _ hloc => if_neg hloc
  plain := fun loc target hloc h => by
    have hnone : (fs.clearDir dir).node loc = none := if_pos hloc
    rw [hnone] at h
    cases h

theorem isEntry_concat (dir : Location) (name : String) : IsEntry dir (dir ++ [name]) :=
  ⟨by simp, dropLast_concat⟩

theorem writeCrl_plain {crl : CrlMsg} (hpath : path ≠ "") (hid : ProperName crl.id)
    (hplain : ∀ loc target, IsEntry (fs.loc path) loc → fs.node loc ≠ some (.link target)) :
    ∃ after, writeCrl fs path crl = (.ok (), after) ∧ OnlyIn (fs.loc path) fs after := by
  have hloc : fs.loc (joinPath path crl.id) = fs.loc path ++ [crl.id] :=
    locate_joinPath fs.cwd hpath hid
  have hentry := isEntry_concat (fs.loc path) crl.id
  have hbelow : ¬ fs.loc path ++ [crl.id] <+: fs.loc path := by
    intro h
    have hlength := h.length_le
    rw [length_append, length_singleton] at hlength
    omega
  have hfollow : fs.follow (joinPath path crl.id) = some (fs.loc path ++ [crl.id]) := by
    rw [← hloc]
    refine follow_of_not_link fun target => ?_
    rw [hloc]
    exact hplain _ target hentry
  refine ⟨fs.set (fs.loc path ++ [crl.id]) (some (.file crl.list)), ?_, rfl, fun loc hout => ?_,
    fun loc target hin => ?_⟩
  · simp [writeCrl, hloc, if_neg hbelow, attemptWrite, writeFile, hfollow]
  · rw [node_set, if_neg]
    rintro rfl
    exact hout hentry
  · rw [node_set]
    split
    · intro h
      cases h
    · exact hplain loc target hin

theorem writeCrls_plain (fs : FileSystem) (hpath : path ≠ "")
    (hids : ∀ crl ∈ crls, ProperName crl.id)
    (hplain : ∀ loc target, IsEntry (fs.loc path) loc → fs.node loc ≠ some (.link target)) :
    ∃ after, writeCrls path fs crls = (.ok (), after) ∧ OnlyIn (fs.loc path) fs after := by
  induction crls generalizing fs with
  | nil => exact ⟨fs, rfl, onlyIn_refl hplain⟩
  | cons crl rest ih =>
    obtain ⟨mid, hwrite, hmid⟩ := writeCrl_plain hpath (hids crl mem_cons_self) hplain
    obtain ⟨after, hrest, hafter⟩ := ih mid
      (fun other hother => hids other (mem_cons_of_mem _ hother))
      (by rw [hmid.loc]; exact hmid.plain)
    rw [hmid.loc] at hafter
    exact ⟨after, by simp [writeCrls, hwrite, hrest], hmid.trans hafter⟩

theorem checkAndWrite_plain (hpath : path ≠ "") (hcrls : ∀ crl ∈ crls, crl.Acceptable parse)
    (hplain : ∀ loc target, IsEntry (fs.loc path) loc → fs.node loc ≠ some (.link target))
    (index : Nat) :
    ∃ after, checkAndWrite parse path fs index crls = (.ok (), after) ∧
      OnlyIn (fs.loc path) fs after := by
  induction crls generalizing fs index with
  | nil => exact ⟨fs, rfl, onlyIn_refl hplain⟩
  | cons crl rest ih =>
    obtain ⟨hid, hcheck⟩ := hcrls crl mem_cons_self
    obtain ⟨mid, hwrite, hmid⟩ := writeCrl_plain hpath hid hplain
    obtain ⟨after, hrest, hafter⟩ := ih
      (fun other hother => hcrls other (mem_cons_of_mem _ hother))
      (by rw [hmid.loc]; exact hmid.plain) (index + 1)
    rw [hmid.loc] at hafter
    refine ⟨after, ?_, hmid.trans hafter⟩
    simp [checkAndWrite, checkCrl_ok_index hcheck index, hwrite, hrest]

/-- A bundle that is accepted as a whole replaces the lists, and one that is
rejected with its first list changes nothing. -/
theorem rotateCRLBundle_whole (hpath : path ≠ "") (hcrls : CrlWhole parse crls)
    (hplain : ∀ loc target, IsEntry (fs.loc path) loc → fs.node loc ≠ some (.link target)) :
    (∃ after, rotateCRLBundle parse fs crls path = (.ok (), after) ∧
        OnlyIn (fs.loc path) fs after) ∨
      ∃ fault, rotateCRLBundle parse fs crls path = (.error fault, fs) := by
  unfold rotateCRLBundle
  by_cases hempty : crls = []
  · rw [if_pos hempty]
    exact .inr ⟨_, rfl⟩
  rw [if_neg hempty]
  rcases hcrls with hall | hfirst
  · obtain ⟨mid, hcheck, hmid⟩ := checkAndWrite_plain hpath hall hplain 0
    have hclear := onlyIn_clearDir mid (mid.loc path)
    obtain ⟨after, hwrite, hafter⟩ := writeCrls_plain (mid.clearDir (mid.loc path)) hpath
      (fun crl hcrl => (hall crl hcrl).1) hclear.plain
    change OnlyIn (mid.loc path) _ _ at hafter
    rw [hmid.loc] at hclear hafter hwrite
    refine .inl ⟨after, ?_, hmid.trans (hclear.trans hafter)⟩
    simp [hcheck, hmid.loc, hwrite]
  · obtain ⟨crl, rest, rfl⟩ := exists_cons_of_ne_nil hempty
    obtain ⟨fault, hfault⟩ := hfirst crl rfl
    exact .inr ⟨fault, by simp [checkAndWrite, hfault]⟩

theorem onlyIn_copyCRLBundle (fs : FileSystem) (src dst : String) :
    OnlyIn (fs.loc dst) fs (copyCRLBundle fs src dst) where
  cwd := rfl
  outside := fun _ hloc => (if_neg hloc).trans (if_neg hloc)
  plain := fun loc target hloc h => by
    unfold copyCRLBundle copyDir at h
    dsimp only at h
    rw [if_pos hloc] at h
    split at h
    · cases h
    · have hnone : (fs.clearDir (fs.loc dst)).node loc = none := if_pos hloc
      rw [hnone] at h
      cases h

/-- Copying a directory of regular files makes the other one equal. -/
theorem node_copyCRLBundle (src dst : String)
    (hplain : ∀ loc target, IsEntry (fs.loc src) loc → fs.node loc ≠ some (.link target))
    (hne : fs.loc src ≠ fs.loc dst) (name : String) :
    (copyCRLBundle fs src dst).node (fs.loc dst ++ [name]) = fs.node (fs.loc src ++ [name]) := by
  have hdst := isEntry_concat (fs.loc dst) name
  have hsrc := isEntry_concat (fs.loc src) name
  have hnot : ¬ IsEntry (fs.loc dst) (fs.loc src ++ [name]) := by
    rintro ⟨-, h⟩
    exact hne (dropLast_concat.symm.trans h)
  have hclear : (fs.clearDir (fs.loc dst)).node (fs.loc src ++ [name]) =
      fs.node (fs.loc src ++ [name]) := if_neg hnot
  have hlast : (fs.loc dst ++ [name]).getLastD "" = name := getLastD_concat
  unfold copyCRLBundle copyDir
  dsimp only
  rw [if_pos hdst, hlast, hclear]
  rcases hnode : fs.node (fs.loc src ++ [name]) with _ | node
  · exact if_pos hdst
  cases node with
  | link target => exact absurd hnode (hplain _ target hsrc)
  | file content =>
    have hcontent : (fs.clearDir (fs.loc dst)).content (fs.loc src ++ [name]) = some content := by
      have hresolve : (fs.clearDir (fs.loc dst)).resolve 41 (fs.loc src ++ [name]) =
          some (fs.loc src ++ [name]) := by
        rw [FileSystem.resolve, hclear, hnode]
      simp [FileSystem.content, hresolve, hclear, hnode]
    simp [hcontent]

/-! ## The invariant of a session -/

section Session

variable (config : CertzConfig) (cwd : Location)

/-- The directory of the active lists. -/
def crlDir : Location := locate cwd (config.crlPath defaultProfile)

/-- The directory of their copy. -/
def flushDir : Location := locate cwd (config.crlPath defaultProfile ++ "_flush")

/-- The location of the metadata. -/
def metaFile : Location := locate cwd config.certzMetaFile

/-- What belongs to the lists and the metadata. -/
def Reserved (loc : Location) : Prop :=
  IsEntry (crlDir config cwd) loc ∨ IsEntry (flushDir config cwd) loc ∨ loc = metaFile config cwd

instance (loc : Location) : Decidable (Reserved config cwd loc) :=
  inferInstanceAs (Decidable (_ ∨ _))

/-- Nothing else that is configured is reserved. -/
structure CrlSetting (now : Nat) : Prop where
  names : ∀ name ∈ cwd, ProperName name
  links : ∀ loc, IsLink config cwd loc → ¬ Reserved config cwd loc
  policy : ¬ Reserved config cwd (locate cwd config.fedPolicyFile)
  backup : ¬ Reserved config cwd (locate cwd (config.fedPolicyFile ++ ".bak"))
  policyDir : (locate cwd (config.fedPolicyFile ++ ".bak")).dropLast =
    (locate cwd config.fedPolicyFile).dropLast
  metaCrl : ¬ IsEntry (crlDir config cwd) (metaFile config cwd)
  metaFlush : ¬ IsEntry (flushDir config cwd) (metaFile config cwd)
  undated : Undated now (metaFile config cwd)

/-- The entities of a type are of that type, and a last one that may come back is
final. -/
structure EntityShape (t : CertzType) (active last : GenericEntity) : Prop where
  eType : active.eType = t
  previous : active.final = false → last.final = true ∧ last.eType = t
  policy : t = .authPolicy → active.final = false → active.certPath = config.fedPolicyFile
  paths : ∀ path ∈ kept t active last, ¬ Reserved config cwd (locate cwd path)

/-- What holds during a session that started with some files. -/
structure CrlInv (start : FileSystem) (st : CertzState) (profile : CertzProfile) : Prop where
  found : st.profiles.lookup defaultProfile = some profile
  only : ∀ id, id ≠ defaultProfile → st.profiles.lookup id = none
  here : st.host.fs.cwd = cwd
  setting : CrlSetting config cwd st.clock
  intact : st.host.fs.Shut (Reserved config cwd)
  shape : ∀ t, EntityShape config cwd t (profile.active.get t) (profile.last.get t)
  copy : ∀ loc, IsEntry (flushDir config cwd) loc → st.host.fs.node loc = start.node loc
  metadata : st.host.fs.node (metaFile config cwd) = start.node (metaFile config cwd)
  plain : ∀ loc target, IsEntry (crlDir config cwd) loc → st.host.fs.node loc ≠ some (.link target)
  lists : profile.active.crlBundle.final = true →
    ∀ loc, IsEntry (crlDir config cwd) loc → st.host.fs.node loc = start.node loc

variable {config cwd} {now : Nat} {start fs : FileSystem} {st st' : CertzState}
  {profile profile' : CertzProfile} {t : CertzType} {msg : EntityMsg}

theorem CrlInv.loc (h : CrlInv config cwd start st profile) (path : String) :
    st.host.fs.loc path = locate cwd path :=
  loc_of_cwd h.here path

theorem CrlSetting.mono {later : Nat} (h : CrlSetting config cwd now) (hlater : now ≤ later) :
    CrlSetting config cwd later :=
  { h with undated := h.undated.mono hlater }

theorem crlDir_ne_flushDir : crlDir config cwd ≠ flushDir config cwd :=
  (locate_append_ne cwd _ (by decide) (by decide)).symm

variable {loc : Location} {active entity last : GenericEntity}

theorem crlPath_ne_empty : config.crlPath defaultProfile ≠ "" := by
  unfold CertzConfig.crlPath joinPath
  split
  · decide
  · rw [if_neg (by decide)]
    intro h
    have hlength := congrArg (fun s : String => s.toList.length) h
    simp [String.toList_append] at hlength

section

variable (h : CrlInv config cwd start st profile)
include h

theorem CrlInv.kept (hfound : st'.profiles.lookup defaultProfile = some profile')
    (honly : ∀ id, id ≠ defaultProfile → st'.profiles.lookup id = none)
    (hclock : st.clock ≤ st'.clock) (hkeeps : st.host.fs.Keeps st'.host.fs (Reserved config cwd))
    (hshape : ∀ t, EntityShape config cwd t (profile'.active.get t) (profile'.last.get t))
    (hlists : profile'.active.crlBundle.final = true → profile.active.crlBundle.final = true) :
    CrlInv config cwd start st' profile' where
  found := hfound
  only := honly
  here := hkeeps.cwd.trans h.here
  setting := h.setting.mono hclock
  intact := hkeeps.intact
  shape := hshape
  copy := fun loc hloc => (hkeeps.same loc (.inr (.inl hloc))).trans (h.copy loc hloc)
  metadata := (hkeeps.same _ (.inr (.inr rfl))).trans h.metadata
  plain := fun loc target hloc => by
    rw [hkeeps.same loc (.inl hloc)]
    exact h.plain loc target hloc
  lists := fun hfinal loc hloc =>
    (hkeeps.same loc (.inl hloc)).trans (h.lists (hlists hfinal) loc hloc)

theorem CrlInv.keeps (hprofiles : st'.profiles = st.profiles.insert defaultProfile profile')
    (hclock : st.clock ≤ st'.clock) (hkeeps : st.host.fs.Keeps st'.host.fs (Reserved config cwd))
    (hshape : ∀ t, EntityShape config cwd t (profile'.active.get t) (profile'.last.get t))
    (hlists : profile'.active.crlBundle.final = true → profile.active.crlBundle.final = true) :
    CrlInv config cwd start st' profile' :=
  h.kept (by rw [hprofiles, lookup_insert])
    (fun id hid => by rw [hprofiles, lookup_insert_ne hid, h.only id hid]) hclock hkeeps
    hshape hlists

theorem CrlInv.files {later : Nat}
    (hlater : st.clock ≤ later) (hkeeps : st.host.fs.Keeps fs (Reserved config cwd)) :
    CrlInv config cwd start { st with host := { st.host with fs := fs }, clock := later } profile :=
  h.kept h.found h.only hlater hkeeps h.shape id

theorem CrlInv.policy :
    ¬ Reserved config cwd (st.host.fs.loc config.fedPolicyFile) ∧
      ¬ Reserved config cwd (st.host.fs.loc (config.fedPolicyFile ++ ".bak")) ∧
      (st.host.fs.loc (config.fedPolicyFile ++ ".bak")).dropLast =
        (st.host.fs.loc config.fedPolicyFile).dropLast := by
  rw [h.loc, h.loc]
  exact ⟨h.setting.policy, h.setting.backup, h.setting.policyDir⟩

theorem CrlInv.keeps_setLinks
    (hpaths : ∀ path ∈ entityPaths t entity, ¬ Reserved config cwd (locate cwd path)) :
    st.host.fs.Keeps (setLinks config st.host.fs t entity).2 (Reserved config cwd) := by
  refine Gnsi.keeps_setLinks h.intact ?_ ?_ fun path hpath => ?_
  · rw [h.here]
    exact h.setting.names
  · rw [h.here]
    exact h.setting.links
  · rw [h.loc]
    exact hpaths path hpath

theorem CrlInv.onlyIn (hprofiles : st'.profiles = st.profiles.insert defaultProfile profile')
    (hclock : st.clock ≤ st'.clock) (honly : OnlyIn (crlDir config cwd) st.host.fs st'.host.fs)
    (hshape : ∀ t, EntityShape config cwd t (profile'.active.get t) (profile'.last.get t))
    (hlists : profile'.active.crlBundle.final = true →
      ∀ loc, IsEntry (crlDir config cwd) loc → st'.host.fs.node loc = start.node loc) :
    CrlInv config cwd start st' profile' where
  found := by rw [hprofiles, lookup_insert]
  only := fun id hid => by rw [hprofiles, lookup_insert_ne hid, h.only id hid]
  here := honly.cwd.trans h.here
  setting := h.setting.mono hclock
  intact := honly.intact h.intact
  shape := hshape
  copy := fun loc hloc => (honly.outside loc fun hentry => crlDir_ne_flushDir
    (hentry.2.symm.trans hloc.2)).trans (h.copy loc hloc)
  metadata := (honly.outside _ h.setting.metaCrl).trans h.metadata
  plain := honly.plain
  lists := hlists

end

/-! ## Uploads -/

/-- The uploads of a message keep away from the lists, and a bundle of lists is
accepted or rejected as a whole. -/
structure EntityMsg.Orderly (config : CertzConfig) (cwd : Location) (msg : EntityMsg) : Prop where
  outside : msg.Outside config cwd
  whole : ∀ crls, msg.body = .crlBundle crls → CrlWhole config.parseCrl crls

/-- All uploads of an event are orderly. -/
def CertzEvent.Orderly (config : CertzConfig) (cwd : Location) : CertzEvent → Prop
  | .request _ (.certificates entities) _ _ => ∀ msg ∈ entities, msg.Orderly config cwd
  | _ => True

theorem EntityShape.upload (h : EntityShape config cwd t active last) (htype : entity.eType = t)
    (hpending : entity.final = false)
    (hpolicy : t = .authPolicy → entity.certPath = config.fedPolicyFile)
    (hpaths : ∀ path ∈ entityPaths t entity, ¬ Reserved config cwd (locate cwd path)) :
    EntityShape config cwd t entity (if active.final then active else last) where
  eType := htype
  previous := fun _ => by
    rcases hfinal : active.final with _ | _
    · exact h.previous hfinal
    · exact ⟨hfinal, h.eType⟩
  policy := fun ht _ => hpolicy ht
  paths := fun path hpath => (mem_kept_upload hpending hpath).elim (hpaths path) (h.paths path)

section

variable (h : CrlInv config cwd start st profile)
include h

theorem CrlInv.activateShape (hpending : entity.final = false)
    (hpolicy : entity.eType = .authPolicy → entity.certPath = config.fedPolicyFile)
    (hpaths : ∀ path ∈ entityPaths entity.eType entity, ¬ Reserved config cwd (locate cwd path))
    (t : CertzType) :
    EntityShape config cwd t ((profile.activate entity).active.get t)
      ((profile.activate entity).last.get t) := by
  by_cases ht : t = entity.eType
  · subst ht
    rw [(activate_same entity).1, (activate_same entity).2]
    exact (h.shape entity.eType).upload rfl hpending hpolicy hpaths
  · rw [(activate_rest entity ht).1, (activate_rest entity ht).2]
    exact h.shape t

theorem CrlInv.activateEntity (ht : entity.eType ≠ .crl) (hpending : entity.final = false)
    (hpolicy : entity.eType = .authPolicy → entity.certPath = config.fedPolicyFile)
    (hpaths : ∀ path ∈ entityPaths entity.eType entity, ¬ Reserved config cwd (locate cwd path)) :
    ∃ profile', CrlInv config cwd start (activateEntity config st defaultProfile entity).2
      profile' := by
  have hlinks := h.keeps_setLinks hpaths
  unfold Gnsi.activateEntity
  rw [h.found]
  rcases hset : setLinks config st.host.fs entity.eType entity with ⟨e | done, after⟩ <;>
    rw [hset] at hlinks
  · exact ⟨profile, h.files le_rfl hlinks⟩
  refine ⟨profile.activate entity, h.keeps rfl le_rfl ?_
    (h.activateShape hpending hpolicy hpaths) fun hfinal => ?_⟩
  · rw [fs_writeEntityFreshness]
    exact hlinks
  · have hcrl : (profile.activate entity).active.get .crl = profile.active.get .crl :=
      (activate_rest entity (Ne.symm ht)).1
    exact (congrArg final hcrl).symm.trans hfinal

/-- An accepted bundle of lists becomes active. -/
theorem CrlInv.activateLists
    {saved : FileSystem} (hsaved : OnlyIn (crlDir config cwd) st.host.fs saved)
    (htype : entity.eType = .crl) (hpending : entity.final = false) :
    ∃ profile', CrlInv config cwd start
      (Gnsi.activateEntity config { st with host := { st.host with fs := saved } } defaultProfile
        entity).2 profile' := by
  have hrun : (Gnsi.activateEntity config { st with host := { st.host with fs := saved } }
      defaultProfile entity).2 =
      { st with
        profiles := st.profiles.insert defaultProfile (profile.activate entity)
        host := writeEntityFreshness config { st.host with fs := saved } defaultProfile entity } := by
    simp [Gnsi.activateEntity, h.found, htype, setLinks]
  rw [hrun]
  refine ⟨profile.activate entity, h.onlyIn rfl le_rfl (by simpa using hsaved)
    (h.activateShape hpending (by rw [htype]; rintro ⟨⟩) ?_) fun hfinal => ?_⟩
  · rw [htype]
    exact fun path hpath => absurd hpath not_mem_nil
  have hactive : (profile.activate entity).active.get entity.eType = entity :=
    (activate_same entity).1
  rw [htype] at hactive
  have hopen := (congrArg final hactive).trans hpending
  rw [show (profile.activate entity).active.crlBundle.final = false from hopen] at hfinal
  cases hfinal

theorem CrlInv.uploadEntity (overwrite : Bool) (hmsg : msg.Orderly config cwd) :
    ∃ profile', CrlInv config cwd start
      (uploadEntity config st overwrite defaultProfile msg).2 profile' := by
  refine uploadEntity_keeps (fun st => ∃ profile, CrlInv config cwd start st profile) overwrite
    ⟨profile, h⟩ fun eType time entity hbody htime hentity htype hpending => ?_
  have htick : CrlInv config cwd start { st with clock := time } profile :=
    h.files (by omega) (refl h.intact)
  refine ⟨⟨profile, htick⟩, fun result saved hsave => ?_⟩
  by_cases hcrl : eType = .crl
  · subst hcrl
    obtain ⟨crls, hcrls⟩ : ∃ crls, msg.body = .crlBundle crls := by
      cases hcase : msg.body <;> rw [hcase] at hbody <;> cases hbody
      exact ⟨_, rfl⟩
    have hdir : st.host.fs.loc (config.crlPath defaultProfile) = crlDir config cwd := h.loc _
    have hpath : entity.certPath = config.crlPath defaultProfile := by
      rw [hentity]
      rfl
    have hrotate := rotateCRLBundle_whole crlPath_ne_empty (hmsg.whole crls hcrls)
      (by rw [hdir]; exact h.plain)
    simp only [saveEntities, hcrls, hpath] at hsave
    rcases hrotate with ⟨after, hresult, hsaved⟩ | ⟨fault, hresult⟩ <;> rw [hresult] at hsave <;>
      cases hsave
    · rw [hdir] at hsaved
      exact ⟨fun _ => htick.activateLists hsaved htype hpending, fun hnot => absurd rfl hnot⟩
    · exact ⟨by rintro ⟨⟩, fun _ => ⟨profile, htick⟩⟩
  · have hpaths : ∀ path ∈ entityPaths eType entity, ¬ Reserved config cwd (locate cwd path) := by
      rw [hentity]
      intro path hpath
      obtain ⟨base, kind, hkind, rfl, hzero⟩ := newGenericEntity_path hpath
      obtain ⟨hcrl, hflush⟩ := hmsg.outside _ hbody _ hzero
      rw [isEntry_pemEnding cwd base 0 _ hkind] at hcrl hflush
      rintro (hin | hin | hin)
      · exact hcrl hin
      · exact hflush hin
      · exact h.setting.undated _ kind (by omega) hkind (hin ▸ dated_locate cwd base _ hkind)
    have hpolicy : eType = .authPolicy → entity.certPath = config.fedPolicyFile := by
      rintro rfl
      rw [hentity]
      rfl
    have hkeeps := saveEntities_rule (st.host.fs.Keeps · _) (refl h.intact) hbody
      (fun _ hmid path hpath => keeps_saveFile hmid (h.loc path ▸ hpaths path hpath))
      (fun ht => absurd ht hcrl) (fun ht serialized => by
        obtain ⟨hfile, hbackup, hdir⟩ := h.policy
        rw [hpolicy ht]
        exact saveAuthPolicy_rule (st.host.fs.Keeps · _) (refl h.intact)
          (fun _ => keeps_rename (refl h.intact) hfile hbackup hdir.symm)
          (fun _ hmid => keeps_saveFile hmid hfile serialized)
          fun _ hmid => keeps_restoreAuthPolicy hmid hfile hbackup hdir) hsave
    subst htype
    exact ⟨fun _ => (htick.files le_rfl hkeeps).activateEntity hcrl hpending hpolicy hpaths,
      fun _ => ⟨profile, htick.files le_rfl hkeeps⟩⟩

end

theorem crlInv_kept : KeptByRequests config (·.Orderly config cwd)
    fun st => ∃ profile, CrlInv config cwd start st profile where
  only := fun ⟨_, h⟩ => h.only
  found := fun ⟨profile, h⟩ => ⟨profile, h.found⟩
  key := by
    rintro st profile key ⟨other, h⟩ hfound
    obtain rfl : other = profile := Option.some.inj (h.found.symm.trans hfound)
    exact ⟨_, h.keeps rfl le_rfl (refl h.intact) h.shape id⟩
  upload := fun overwrite ⟨_, h⟩ hmsg => h.uploadEntity overwrite hmsg

/-! ## The end of a session -/

/-- Both directories hold the same regular files. -/
def CrlMirrored (config : CertzConfig) (cwd : Location) (fs : FileSystem) : Prop :=
  ∀ name, fs.node (crlDir config cwd ++ [name]) = fs.node (flushDir config cwd ++ [name]) ∧
    ∀ target, fs.node (flushDir config cwd ++ [name]) ≠ some (.link target)

theorem isEntry_eq_concat {dir : Location} (h : IsEntry dir loc) : ∃ name, loc = dir ++ [name] := by
  obtain ⟨hne, rfl⟩ := h
  exact ⟨loc.getLast hne, (dropLast_append_getLast hne).symm⟩

theorem EntityShape.of_final (htype : active.eType = t) (hfinal : active.final = true)
    (hpaths : ∀ path ∈ entityPaths t active, ¬ Reserved config cwd (locate cwd path)) :
    EntityShape config cwd t active last := by
  refine ⟨htype, fun hnot => ?_, fun _ hnot => ?_, fun path hpath => ?_⟩
  · rw [hfinal] at hnot
    cases hnot
  · rw [hfinal] at hnot
    cases hnot
  · simp only [kept, hfinal, if_true, append_nil] at hpath
    exact hpaths path hpath

theorem EntityShape.revert (h : EntityShape config cwd t active last)
    (hfinal : active.final = false) : EntityShape config cwd t last last := by
  obtain ⟨hlast, htype⟩ := h.previous hfinal
  exact .of_final htype hlast fun path hpath => h.paths path (last_subset_kept hfinal hpath)

section

variable (h : CrlInv config cwd start st profile)
include h

theorem CrlInv.revertShape (hfinal : (profile.active.get t).final = false) (u : CertzType) :
    EntityShape config cwd u ((profile.active.set t (profile.last.get t)).get u)
      (profile.last.get u) := by
  rw [get_set]
  split
  · rename_i hu
    subst hu
    exact (h.shape u).revert hfinal
  · exact h.shape u

/-- One type is reverted; the lists come back from their copy. -/
theorem CrlInv.revertEntity (hmirror : CrlMirrored config cwd start) (t : CertzType) :
    ∃ profile', CrlInv config cwd start (revertEntity config defaultProfile st t) profile' ∧
      (profile'.active.get t).final = true ∧
      ∀ u, u ≠ t → profile'.active.get u = profile.active.get u := by
  rcases hfinal : (profile.active.get t).final with _ | _
  · have hlast := ((h.shape t).previous hfinal).1
    refine ⟨{ profile with active := profile.active.set t (profile.last.get t) }, ?_,
      by simpa using hlast, fun u hu => by simp [hu]⟩
    simp only [Gnsi.revertEntity, h.found, hfinal, Bool.false_eq_true, if_false]
    by_cases ht : t = .crl
    · subst ht
      have hdir : st.host.fs.loc (config.crlPath defaultProfile) = crlDir config cwd := h.loc _
      have hflush : st.host.fs.loc (config.crlPath defaultProfile ++ "_flush") =
          flushDir config cwd := h.loc _
      have honly := onlyIn_copyCRLBundle st.host.fs (config.crlPath defaultProfile ++ "_flush")
        (config.crlPath defaultProfile)
      rw [hdir] at honly
      have hcopied : ∀ name, (copyCRLBundle st.host.fs (config.crlPath defaultProfile ++ "_flush")
          (config.crlPath defaultProfile)).node (crlDir config cwd ++ [name]) =
          start.node (crlDir config cwd ++ [name]) := by
        intro name
        have hplain : ∀ loc target, IsEntry (flushDir config cwd) loc →
            st.host.fs.node loc ≠ some (.link target) := by
          intro loc target hloc
          obtain ⟨other, rfl⟩ := isEntry_eq_concat hloc
          rw [h.copy _ hloc]
          exact (hmirror other).2 target
        have hnode := node_copyCRLBundle (config.crlPath defaultProfile ++ "_flush")
          (config.crlPath defaultProfile) (by rw [hflush]; exact hplain)
          (by rw [hflush, hdir]; exact crlDir_ne_flushDir.symm) name
        rw [hdir, hflush] at hnode
        rw [hnode, h.copy _ (isEntry_concat _ _)]
        exact (hmirror name).1.symm
      refine h.onlyIn rfl le_rfl (by rw [fs_writeEntityFreshness]; exact honly)
        (h.revertShape hfinal) fun _ loc hloc => ?_
      rw [fs_writeEntityFreshness]
      obtain ⟨name, rfl⟩ := isEntry_eq_concat hloc
      exact hcopied name
    · refine h.keeps rfl le_rfl ?_ (h.revertShape hfinal) fun hcrl => ?_
      · rw [fs_writeEntityFreshness]
        have hshape := h.shape t
        have hremove : st.host.fs.Keeps (removeEntityFiles
            (setLinks config st.host.fs t (profile.last.get t)).2 (profile.active.get t))
            (Reserved config cwd) := by
          have hlinks := h.keeps_setLinks fun path hpath =>
            hshape.paths path (last_subset_kept hfinal hpath)
          refine keeps_removeEntityFiles hlinks fun path hpath => ?_
          rw [hshape.eType] at hpath
          rw [h.loc]
          exact hshape.paths path (entityPaths_subset_kept _ hpath)
        unfold revertFiles
        cases t with
        | cert | trustBundle => exact hremove
        | crl => exact absurd rfl ht
        | authPolicy =>
          obtain ⟨hfile, hbackup, hdir⟩ := h.policy
          rw [hshape.policy rfl hfinal]
          exact keeps_restoreAuthPolicy (refl h.intact) hfile hbackup hdir
      · have hsame : (profile.active.set t (profile.last.get t)).get .crl =
            profile.active.get .crl := by
          rw [get_set, if_neg (Ne.symm ht)]
        exact (congrArg final hsame).symm.trans hcrl
  · refine ⟨profile, ?_, hfinal, fun _ _ => rfl⟩
    simp only [Gnsi.revertEntity, h.found, hfinal, if_true]
    exact h

/-- After a revert the lists are as they were at the start. -/
theorem CrlInv.revertProfile (hmirror : CrlMirrored config cwd start) {profileID : String}
    (hready : profileID = defaultProfile ∨ profile.active.crlBundle.final = true)
    (hloc : IsEntry (crlDir config cwd) loc) :
    (revertProfile config st profileID).host.fs.node loc = start.node loc := by
  by_cases hid : (if profileID = "" then defaultProfile else profileID) = defaultProfile
  · rw [Gnsi.revertProfile, hid]
    obtain ⟨profile₁, h₁, -, -⟩ := h.revertEntity hmirror .cert
    obtain ⟨profile₂, h₂, -, -⟩ := h₁.revertEntity hmirror .trustBundle
    obtain ⟨profile₃, h₃, hfinal, -⟩ := h₂.revertEntity hmirror .crl
    obtain ⟨profile₄, h₄, -, hrest⟩ := h₃.revertEntity hmirror .authPolicy
    refine h₄.lists ?_ loc hloc
    exact (congrArg final (hrest .crl (by decide))).trans hfinal
  · obtain ⟨hne, hsame⟩ := revertProfile_other h.only hid
    rw [hsame]
    exact h.lists (hready.resolve_left hne) loc hloc

end

/-- No link is made. -/
def NoNewLink (fs after : FileSystem) : Prop :=
  after.cwd = fs.cwd ∧ ∀ loc target, after.node loc = some (.link target) →
    fs.node loc = some (.link target)

theorem noNewLink_removeLogged (fs : FileSystem) (path : String) :
    NoNewLink fs (removeLogged fs path) := by
  unfold removeLogged
  rcases hremove : fs.remove path with e | after
  · exact ⟨rfl, fun _ _ => id⟩
  rw [remove_ok hremove]
  refine ⟨rfl, fun loc target hlink => ?_⟩
  rw [node_set] at hlink
  split at hlink
  · cases hlink
  · exact hlink

theorem NoNewLink.trans {after last : FileSystem} (hfirst : NoNewLink fs after)
    (hsecond : NoNewLink after last) : NoNewLink fs last :=
  ⟨hsecond.1.trans hfirst.1, fun loc target h => hfirst.2 loc target (hsecond.2 loc target h)⟩

theorem noNewLink_finalizeEntity (config : CertzConfig) (st : CertzState) (t : CertzType) :
    NoNewLink st.host.fs (finalizeEntity config defaultProfile st t).host.fs := by
  have hremove : ∀ entity, NoNewLink st.host.fs (removeEntityFiles st.host.fs entity) :=
    fun entity => removeEntityFiles_rule (NoNewLink st.host.fs) ⟨rfl, fun _ _ => id⟩
      fun fs hfs path _ => hfs.trans (noNewLink_removeLogged fs path)
  unfold finalizeEntity
  split
  · exact ⟨rfl, fun _ _ => id⟩
  dsimp only
  split
  · split <;> exact ⟨rfl, fun _ _ => id⟩
  cases t with
  | cert | trustBundle => exact hremove _
  | crl =>
    have honly := onlyIn_copyCRLBundle st.host.fs (config.crlPath defaultProfile)
      (config.crlPath defaultProfile ++ "_flush")
    refine ⟨honly.cwd, fun loc target hlink => ?_⟩
    rw [← honly.outside loc fun hloc => honly.plain loc target hloc hlink]
    exact hlink
  | authPolicy => exact noNewLink_removeLogged _ _

/-- A Finalize for the default profile succeeds when the metadata is not a
link. -/
theorem CrlInv.finalizeProfile (h : CrlInv config cwd start st profile)
    (hmeta : ∀ target, start.node (metaFile config cwd) ≠ some (.link target)) :
    (finalizeProfile config st defaultProfile).1 = .ok () := by
  have hlinks := (((noNewLink_finalizeEntity config st .cert).trans
    (noNewLink_finalizeEntity config _ .trustBundle)).trans
    (noNewLink_finalizeEntity config _ .crl)).trans
    (noNewLink_finalizeEntity config _ .authPolicy)
  unfold Gnsi.finalizeProfile
  rw [h.found]
  simp only [foldl_cons, foldl_nil]
  generalize Gnsi.finalizeEntity config defaultProfile (Gnsi.finalizeEntity config defaultProfile
    (Gnsi.finalizeEntity config defaultProfile (Gnsi.finalizeEntity config defaultProfile st .cert)
      .trustBundle) .crl) .authPolicy = last at hlinks
  have hfollow : last.host.fs.follow config.certzMetaFile =
      some (last.host.fs.loc config.certzMetaFile) := by
    refine follow_of_not_link fun target hlink => hmeta target ?_
    rw [← h.metadata, ← hlinks.2 _ target hlink, loc_of_cwd (hlinks.1.trans h.here)]
    rfl
  simp [saveCertzMetadata, saveFile, attemptWrite, writeFile, hfollow]

theorem CrlInv.certzLoop (h : CrlInv config cwd start st profile)
    (hmirror : CrlMirrored config cwd start)
    (hmeta : ∀ target, start.node (metaFile config cwd) ≠ some (.link target))
    {events : List CertzEvent} {profileId : String}
    (hready : profileId = defaultProfile ∨ profile.active.crlBundle.final = true)
    (hevents : ∀ event ∈ events, event.Orderly config cwd) {status : Status}
    (hend : (certzLoop config profileId events st).1 = .failed status)
    (hloc : IsEntry (crlDir config cwd) loc) :
    (certzLoop config profileId events st).2.host.fs.node loc = start.node loc := by
  obtain ⟨last, id, ⟨profile', hlast⟩, hid, hcases⟩ := crlInv_kept.certzLoop ⟨profile, h⟩ profileId
      fun event hevent sslProfileId entities overwrite sendError heq => by
        subst heq
        exact hevents _ hevent
  have hdone : id = defaultProfile ∨ profile'.active.crlBundle.final = true := by
    refine hid.imp_right fun ⟨hne, heq⟩ => ?_
    subst heq
    obtain rfl : profile' = profile := Option.some.inj (hlast.found.symm.trans h.found)
    exact hready.resolve_left hne
  rcases hcases with ⟨reason, hcase⟩ | ⟨status, hcase⟩ | ⟨-, hcase⟩
  · rw [hcase] at hend
    cases hend
  · rw [hcase]
    exact hlast.revertProfile hmirror hdone hloc
  rw [hcase] at hend ⊢
  unfold Gnsi.certzLoop at hend ⊢
  by_cases hdefault : id = defaultProfile
  · subst hdefault
    have hok := hlast.finalizeProfile hmeta
    rcases hresult : Gnsi.finalizeProfile config last defaultProfile with ⟨fault | done, after⟩
    · rw [hresult] at hok
      cases hok
    · rw [hresult] at hend
      cases hend
  · simp only [Gnsi.finalizeProfile, hlast.only id hdefault, statusError]
    exact hlast.lists (hdone.resolve_left hdefault) loc hloc

end Session

/-! ## Failed sessions -/

/-- A server between sessions whose revocation lists are safe: the copy is up to
date, and the directories of the lists are used for nothing else. -/
structure CrlReady (config : CertzConfig) (st : CertzState) (profile : CertzProfile) : Prop where
  found : st.profiles.lookup defaultProfile = some profile
  only : ∀ id, id ≠ defaultProfile → st.profiles.lookup id = none
  eType : ∀ t, (profile.active.get t).eType = t
  final : ∀ t, (profile.active.get t).final = true
  paths : ∀ t, ∀ path ∈ entityPaths t (profile.active.get t),
    ¬ Reserved config st.host.fs.cwd (st.host.fs.loc path)
  setting : CrlSetting config st.host.fs.cwd st.clock
  intact : st.host.fs.Sealed (Reserved config st.host.fs.cwd)
  metadata : ∀ target, st.host.fs.node (metaFile config st.host.fs.cwd) ≠ some (.link target)
  mirrored : CrlMirrored config st.host.fs.cwd st.host.fs

theorem CrlReady.crlInv {config : CertzConfig} {st : CertzState} {profile : CertzProfile}
    (h : CrlReady config st profile) : CrlInv config st.host.fs.cwd st.host.fs st profile where
  found := h.found
  only := h.only
  here := rfl
  setting := h.setting
  intact := h.intact.shut
  shape := fun t => .of_final (h.eType t) (h.final t) (h.paths t)
  copy := fun _ _ => rfl
  metadata := rfl
  plain := fun loc target hloc => by
    obtain ⟨name, rfl⟩ := isEntry_eq_concat hloc
    rw [(h.mirrored name).1]
    exact (h.mirrored name).2 target
  lists := fun _ _ _ => rfl

deriving instance DecidableEq for CertzEnd

def crlStart (copy : Option Node) : CertzState :=
  { firstStart "/keys/ca.crt" with
    host :=
      { fs := ((firstStart "/keys/ca.crt").host.fs.set ["keys", "crls", "crl", "old"]
          (some (.file "list"))).set ["keys", "crls", "crl_flush", "old"] copy } }

def crlUpload (crls : List CrlMsg) : CertzEvent :=
  .request "" (.certificates [{ createdOn := 1, version := "V2", body := .crlBundle crls }]) true
    none

theorem keysConfig_crlSetting (now : Nat) : CrlSetting keysConfig [] now where
  names := fun name h => absurd h not_mem_nil
  links := by
    rintro loc (rfl | rfl | rfl) <;> decide +kernel
  policy := by decide +kernel
  backup := by decide +kernel
  policyDir := by decide +kernel
  metaCrl := by decide +kernel
  metaFlush := by decide +kernel
  undated := undated_of_not_pem now (by decide +kernel)

theorem crlStart_ready :
    CrlReady keysConfig (crlStart (some (.file "list"))) (firstProfile "/keys/ca.crt") where
  found := lookup_insert _
  only := fun id hid => (lookup_insert_ne hid).trans rfl
  eType := fun t => by cases t <;> rfl
  final := fun t => by cases t <;> rfl
  paths := by
    have hpaths : ∀ path ∈ ["/keys/server.crt", "/keys/server.key", "/keys/ca.crt"],
        ¬ Reserved keysConfig [] (locate [] path) := by decide +kernel
    intro t path hpath
    refine hpaths path ?_
    cases t <;> simp only [entityPaths, EntityGroup.get, firstProfile, List.mem_cons,
      not_mem_nil, or_false] at hpath ⊢
    · exact hpath.imp_right .inl
    · exact .inr (.inr hpath)
  setting := keysConfig_crlSetting 1
  intact := by
    have hlinks : ∀ target ∈ ["/keys/server.crt", "/keys/server.key", "/keys/ca.crt"],
        ¬ Reserved keysConfig [] (locate ["keys"] target) := by decide +kernel
    intro loc target hnode
    simp only [crlStart, firstStart, node_set] at hnode
    split_ifs at hnode with h₁ h₂ h₃ h₄ h₅ h₆ h₇ h₈
    all_goals cases hnode
    all_goals subst loc; exact hlinks _ (by simp)
  metadata := by
    intro target h
    cases h
  mirrored := by
    have hdirs : crlDir keysConfig [] = ["keys", "crls", "crl"] ∧
        flushDir keysConfig [] = ["keys", "crls", "crl_flush"] := by decide +kernel
    intro name
    rw [show (crlStart (some (.file "list"))).host.fs.cwd = [] from rfl, hdirs.1, hdirs.2]
    by_cases hname : name = "old"
    · subst hname
      exact ⟨by decide, fun target h => by cases h⟩
    · simp [crlStart, firstStart, node_set, hname]

end SonicGnmi.Gnsi
