import SonicGnmi.Gnsi.CertzCrl

/-!
# What a failed rotation puts back

A session that is not finalized reverts to the entities it started with.  The files of
those entities are never removed in between, the links are set back to them, and the
policy comes back from its backup.  Only the name of a revocation list is not checked:
it is joined to the directory of the lists, and may lead out of it.

* `Precious` — what must not be written over: links, policy, backup, active files;
* `FilesHeld` — what the files have to do with the active entities during a session,
  with one lemma for each kind of change;
* `RestoreInv` — the invariant of a session;
* `certz_failed_session_restores` — the entities, the links, the files and the policy
  after a session that failed.
-/

namespace SonicGnmi.Gnsi

open Foundation Grpc FileSystem AList List

/-! ## Lists that stay outside of a region -/

section Frame

variable {start fs after : FileSystem} {region : Location → Prop} {path : String}

theorem OnlyIn.keeps {dir : Location} (h : OnlyIn dir fs after) (hkeeps : start.Keeps fs region)
    (hentries : ∀ loc, region loc → ¬ IsEntry dir loc) : start.Keeps after region :=
  hkeeps.trans
    ⟨h.cwd, fun loc hloc => h.outside loc (hentries loc hloc), h.intact hkeeps.intact⟩

theorem keeps_writeCrl (h : start.Keeps fs region) {crl : CrlMsg}
    (hid : ¬ region (start.loc (joinPath path crl.id))) :
    start.Keeps (writeCrl fs path crl).2 region := by
  unfold writeCrl attemptWrite
  dsimp only
  split
  · exact h
  · rcases hwrite : fs.writeFile (joinPath path crl.id) crl.list with e | after
    · exact h
    · exact keeps_writeFile h hid hwrite

end Frame

/-! ## What is to be put back -/

section Restore

variable (config : CertzConfig) (cwd : Location) (group : EntityGroup)

/-- The links, the policy with its backup, and the files of some entities. -/
def Precious (loc : Location) : Prop :=
  IsLink config cwd loc ∨ loc = locate cwd config.fedPolicyFile ∨
    loc = locate cwd (config.fedPolicyFile ++ ".bak") ∨
    ∃ t, ∃ path ∈ entityPaths t (group.get t), loc = locate cwd path

/-- The names of uploaded lists do not lead to any of these. -/
def EntityMsg.Harmless (msg : EntityMsg) : Prop :=
  ∀ crls, msg.body = .crlBundle crls → ∀ crl ∈ crls,
    ¬ Precious config cwd group (locate cwd (joinPath (config.crlPath defaultProfile) crl.id))

/-- All uploads of an event are harmless, and it is no Finalize. -/
def CertzEvent.Harmless : CertzEvent → Prop
  | .request _ (.certificates entities) _ _ => ∀ msg ∈ entities, msg.Harmless config cwd group
  | .finalizeRotation => False
  | _ => True

/-- What is precious is not in each other's way, has no name that will be generated, and is not
among the lists. -/
structure RestoreSetting (now : Nat) : Prop where
  names : ∀ name ∈ cwd, ProperName name
  distinct : DistinctLinks config cwd
  undated : ∀ loc, Precious config cwd group loc → Undated now loc
  lists : ∀ loc, Precious config cwd group loc → ¬ IsEntry (crlDir config cwd) loc
  policy : ¬ IsLink config cwd (locate cwd config.fedPolicyFile)
  backup : ¬ IsLink config cwd (locate cwd (config.fedPolicyFile ++ ".bak"))
  files : ∀ t, ∀ path ∈ entityPaths t (group.get t), ¬ IsLink config cwd (locate cwd path) ∧
    locate cwd path ≠ locate cwd config.fedPolicyFile ∧
    locate cwd path ≠ locate cwd (config.fedPolicyFile ++ ".bak")

/-- The policy is the one of the start, or a new one with the old one as its backup. -/
def PolicyHeld (start fs : FileSystem) (active : GenericEntity) : Prop :=
  if active.final then
    fs.node (locate cwd config.fedPolicyFile) = start.node (locate cwd config.fedPolicyFile) ∧
      fs.node (locate cwd (config.fedPolicyFile ++ ".bak")) = none
  else
    (∃ content, fs.node (locate cwd config.fedPolicyFile) = some (.file content)) ∧
      (start.node (locate cwd config.fedPolicyFile)).isSome = true ∧
      fs.node (locate cwd (config.fedPolicyFile ++ ".bak")) =
        start.node (locate cwd config.fedPolicyFile)

/-- The files of a session that started with some entities, when others are active. -/
structure FilesHeld (start fs : FileSystem) (active : EntityGroup) : Prop where
  here : fs.cwd = cwd
  shut : fs.Shut (Precious config cwd group)
  files : ∀ t, ∀ path ∈ entityPaths t (group.get t),
    fs.node (locate cwd path) = start.node (locate cwd path)
  points : ∀ t, ∀ pair ∈ linked config t (active.get t), PointsTo fs pair.1 pair.2
  policy : PolicyHeld config cwd start fs active.authPolicy

/-- The entity of the start is active, or it is the last one before a new one. -/
def Held (t : CertzType) (active last : GenericEntity) : Prop :=
  active = group.get t ∨
    active.final = false ∧ active.eType = t ∧ last = group.get t ∧
      (∀ path ∈ entityPaths t active, ¬ Precious config cwd group (locate cwd path)) ∧
      (t = .authPolicy → active.certPath = config.fedPolicyFile)

/-- What holds during a session. -/
structure RestoreInv (start : FileSystem) (st : CertzState) (profile : CertzProfile) : Prop where
  found : st.profiles.lookup defaultProfile = some profile
  only : ∀ id, id ≠ defaultProfile → st.profiles.lookup id = none
  setting : RestoreSetting config cwd group st.clock
  final : ∀ t, (group.get t).final = true
  held : ∀ t, Held config cwd group t (profile.active.get t) (profile.last.get t)
  sound : FilesHeld config cwd group start st.host.fs profile.active

variable {config cwd group} {now : Nat} {start fs after : FileSystem} {active : EntityGroup}
  {entity : GenericEntity} {st : CertzState} {profile : CertzProfile} {t : CertzType}

theorem RestoreSetting.mono {later : Nat} (h : RestoreSetting config cwd group now)
    (hlater : now ≤ later) : RestoreSetting config cwd group later :=
  { h with undated := fun loc hloc => (h.undated loc hloc).mono hlater }

/-! ## The files -/

theorem PointsTo.of_node {link path : String} (h : PointsTo fs link path)
    (hcwd : after.cwd = fs.cwd) (hnode : after.node (fs.loc link) = fs.node (fs.loc link)) :
    PointsTo after link path := by
  have hloc : ∀ name, after.loc name = fs.loc name := loc_of_cwd hcwd
  obtain ⟨target, hlink, htarget⟩ := h
  refine ⟨target, ?_, ?_⟩
  · rw [hloc, hnode, hlink]
  · rw [hloc, hloc, htarget]

theorem PolicyHeld.of_node (h : PolicyHeld config cwd start fs entity)
    (hpolicy : after.node (locate cwd config.fedPolicyFile) =
      fs.node (locate cwd config.fedPolicyFile))
    (hbackup : after.node (locate cwd (config.fedPolicyFile ++ ".bak")) =
      fs.node (locate cwd (config.fedPolicyFile ++ ".bak"))) :
    PolicyHeld config cwd start after entity := by
  unfold PolicyHeld at h ⊢
  rw [hpolicy, hbackup]
  exact h

theorem FilesHeld.loc (h : FilesHeld config cwd group start fs active) (path : String) :
    fs.loc path = locate cwd path :=
  loc_of_cwd h.here path

theorem policy_ne_backup (config : CertzConfig) (cwd : Location) :
    locate cwd config.fedPolicyFile ≠ locate cwd (config.fedPolicyFile ++ ".bak") :=
  (locate_append_ne cwd _ (by decide) (by decide)).symm

section

variable (h : FilesHeld config cwd group start fs active)
include h

theorem FilesHeld.keeps
    (hkeeps : fs.Keeps after (Precious config cwd group)) :
    FilesHeld config cwd group start after active where
  here := hkeeps.cwd.trans h.here
  shut := hkeeps.intact
  files := fun t path hpath =>
    (hkeeps.same _ (.inr (.inr (.inr ⟨t, path, hpath, rfl⟩)))).trans (h.files t path hpath)
  points := fun t pair hpair => (h.points t pair hpair).of_node hkeeps.cwd (hkeeps.same _ (.inl
    (by rw [h.loc]; exact isLink_of_linked hpair)))
  policy := h.policy.of_node (hkeeps.same _ (.inr (.inl rfl)))
    (hkeeps.same _ (.inr (.inr (.inl rfl))))

section

variable (hsetting : RestoreSetting config cwd group now)
include hsetting

theorem FilesHeld.relink
    (ht : t ≠ .authPolicy)
    (entity : GenericEntity) :
    ∃ after, setLinks config fs t entity = (.ok (), after) ∧
      FilesHeld config cwd group start after (active.set t entity) := by
  obtain ⟨after, hset, hcwd, hlinks, hrest⟩ :=
    setLinks_linked (by rw [h.here]; exact hsetting.distinct) entity (h.points t)
  have hother : ∀ loc, ¬ IsLink config cwd loc → after.node loc = fs.node loc := by
    refine fun loc hloc => hrest loc fun pair hpair heq => hloc ?_
    rw [heq, h.loc]
    exact isLink_of_linked hpair
  refine ⟨after, hset, ?_⟩
  exact
    { here := hcwd.trans h.here
      shut := fun loc target houtside hnode => by
        rw [hother loc fun hlink => houtside (.inl hlink)] at hnode
        exact h.shut loc target houtside hnode
      files := fun u path hpath =>
        (hother _ (hsetting.files u path hpath).1).trans (h.files u path hpath)
      points := fun u pair hpair => by
        rw [EntityGroup.get_set] at hpair
        split at hpair <;> rename_i hu
        · subst hu
          refine pointsTo_of_text (by rw [hcwd, h.here]; exact hsetting.names) ?_
          rw [FileSystem.loc, FileSystem.loc, hcwd]
          exact hlinks pair hpair
        · refine (h.points u pair hpair).of_node hcwd (hrest _ fun other hother' => ?_)
          rw [h.loc, h.loc]
          exact linked_apart hsetting.distinct hu hpair hother'
      policy := by
        have hsame : (active.set t entity).authPolicy = active.authPolicy := by
          cases t <;> first | rfl | exact absurd rfl ht
        rw [hsame]
        exact h.policy.of_node (hother _ hsetting.policy) (hother _ hsetting.backup) }

theorem FilesHeld.setPolicy
    (hcwd : after.cwd = fs.cwd)
    (hrest : ∀ loc, loc ≠ locate cwd config.fedPolicyFile →
      loc ≠ locate cwd (config.fedPolicyFile ++ ".bak") → after.node loc = fs.node loc)
    (hpolicy : PolicyHeld config cwd start after entity) :
    FilesHeld config cwd group start after (active.set .authPolicy entity) where
  here := hcwd.trans h.here
  shut := fun loc target houtside hnode => by
    rw [hrest loc (fun heq => houtside (.inr (.inl heq)))
      (fun heq => houtside (.inr (.inr (.inl heq))))] at hnode
    exact h.shut loc target houtside hnode
  files := fun t path hpath =>
    (hrest _ (hsetting.files t path hpath).2.1 (hsetting.files t path hpath).2.2).trans
      (h.files t path hpath)
  points := fun t pair hpair => by
    have hsame : linked config t ((active.set .authPolicy entity).get t) =
        linked config t (active.get t) := by cases t <;> rfl
    rw [hsame] at hpair
    have hlink : IsLink config cwd (fs.loc pair.1) := by
      rw [h.loc]
      exact isLink_of_linked hpair
    exact (h.points t pair hpair).of_node hcwd (hrest _ (fun heq => hsetting.policy (heq ▸ hlink))
      fun heq => hsetting.backup (heq ▸ hlink))
  policy := hpolicy

/-- A new policy is saved next to the old one, unless there is none to be replaced. -/
theorem FilesHeld.saveAuthPolicy
    (serialized : String)
    (hpending : entity.final = false) :
    (∃ fault, saveAuthPolicy fs config.fedPolicyFile serialized = (.error fault, fs)) ∨
      ∃ saved, saveAuthPolicy fs config.fedPolicyFile serialized = (.ok (), saved) ∧
        FilesHeld config cwd group start saved (active.set .authPolicy entity) := by
  have hloc := h.loc
  have hne := policy_ne_backup config cwd
  have hheld := h.policy
  unfold PolicyHeld at hheld
  split at hheld
  · obtain ⟨hpolicy, hbackup⟩ := hheld
    cases hnode : fs.node (locate cwd config.fedPolicyFile) with
    | none =>
      left
      simp [Gnsi.saveAuthPolicy, backupAuthPolicy, lstat, rename, hloc, hbackup, hnode]
    | some node =>
      right
      refine ⟨((fs.set (locate cwd config.fedPolicyFile) none).set
        (locate cwd (config.fedPolicyFile ++ ".bak")) (some node)).set
        (locate cwd config.fedPolicyFile) (some (.file serialized)), ?_, ?_⟩
      · simp [Gnsi.saveAuthPolicy, backupAuthPolicy, lstat, rename, saveFile, attemptWrite,
          writeFile, follow, FileSystem.resolve, hloc, hbackup, hnode, node_set, hne]
      · refine h.setPolicy hsetting rfl (fun loc h₁ h₂ => by simp [node_set, h₁, h₂]) ?_
        simp [PolicyHeld, hpending, node_set, hne.symm, ← hpolicy, hnode]
  · obtain ⟨⟨content, hpolicy⟩, hsome, hbackup⟩ := hheld
    right
    refine ⟨fs.set (locate cwd config.fedPolicyFile) (some (.file serialized)), ?_, ?_⟩
    · obtain ⟨node, hnode⟩ := Option.isSome_iff_exists.1 hsome
      simp [Gnsi.saveAuthPolicy, backupAuthPolicy, lstat, saveFile, attemptWrite, writeFile, follow,
        FileSystem.resolve, hloc, hbackup, hnode, hpolicy]
    · refine h.setPolicy hsetting rfl (fun loc h₁ _ => by simp [node_set, h₁]) ?_
      simp [PolicyHeld, hpending, node_set, hne.symm, hsome, hbackup]

/-- The backup takes the place of a new policy. -/
theorem FilesHeld.restoreAuthPolicy
    (hpending : active.authPolicy.final = false)
    (hfinal : entity.final = true) :
    FilesHeld config cwd group start (restoreAuthPolicy fs config.fedPolicyFile)
      (active.set .authPolicy entity) := by
  have hheld := h.policy
  rw [PolicyHeld, hpending, if_neg Bool.false_ne_true] at hheld
  obtain ⟨-, hsome, hbackup⟩ := hheld
  obtain ⟨node, hnode⟩ := Option.isSome_iff_exists.1 hsome
  have hrun : Gnsi.restoreAuthPolicy fs config.fedPolicyFile =
      (fs.set (locate cwd (config.fedPolicyFile ++ ".bak")) none).set
        (locate cwd config.fedPolicyFile) (some node) := by
    simp [Gnsi.restoreAuthPolicy, rename, h.loc, hbackup, hnode]
  rw [hrun]
  refine h.setPolicy hsetting rfl (fun loc h₁ h₂ => by simp [node_set, h₁, h₂]) ?_
  simp [PolicyHeld, hfinal, node_set, (policy_ne_backup config cwd).symm, hnode]

end

end

/-! ## Uploads -/

section

variable (h : RestoreInv config cwd group start st profile)
include h

theorem RestoreInv.files {later : Nat}
    (hlater : st.clock ≤ later)
    (hsound : FilesHeld config cwd group start fs profile.active) :
    RestoreInv config cwd group start
      { st with clock := later, host := { st.host with fs := fs } } profile :=
  { h with
    setting := h.setting.mono hlater
    sound := hsound }

/-- A new entity becomes active over the one of the start. -/
theorem RestoreInv.activate {later : Nat}
    (hlater : st.clock ≤ later) (hpending : entity.final = false)
    (hpaths : ∀ path ∈ entityPaths entity.eType entity,
      ¬ Precious config cwd group (locate cwd path))
    (hpolicy : entity.eType = .authPolicy → entity.certPath = config.fedPolicyFile)
    (hset : setLinks config fs entity.eType entity = (.ok (), after))
    (hsound : FilesHeld config cwd group start after (profile.active.set entity.eType entity)) :
    ∃ profile', RestoreInv config cwd group start (activateEntity config
      { st with clock := later, host := { st.host with fs := fs } } defaultProfile entity).2
      profile' := by
  have hheld : ∀ t, Held config cwd group t ((profile.activate entity).active.get t)
      ((profile.activate entity).last.get t) := by
    intro t
    by_cases ht : t = entity.eType
    · subst ht
      rw [(activate_same entity).1, (activate_same entity).2]
      refine .inr ⟨hpending, rfl, ?_, hpaths, hpolicy⟩
      rcases h.held entity.eType with hsame | ⟨hopen, -, hlast, -⟩
      · rw [hsame, h.final, if_pos rfl]
      · rw [hopen, if_neg Bool.false_ne_true, hlast]
    · rw [(activate_rest entity ht).1, (activate_rest entity ht).2]
      exact h.held t
  simp only [activateEntity, h.found, hset]
  exact ⟨profile.activate entity,
    { found := lookup_insert _
      only := fun id hid => (lookup_insert_ne hid).trans (h.only id hid)
      setting := h.setting.mono hlater
      final := h.final
      held := hheld
      sound := by rw [fs_writeEntityFreshness]; exact hsound }⟩

theorem RestoreInv.uploadEntity
    (overwrite : Bool) {msg : EntityMsg} (hmsg : msg.Harmless config cwd group) :
    ∃ profile', RestoreInv config cwd group start
      (uploadEntity config st overwrite defaultProfile msg).2 profile' := by
  refine uploadEntity_keeps (fun st => ∃ profile, RestoreInv config cwd group start st profile)
    overwrite ⟨profile, h⟩ fun eType time entity hbody htime hentity htype hpending => ?_
  have hlater : st.clock ≤ time := by omega
  have hpolicy : eType = .authPolicy → entity.certPath = config.fedPolicyFile := by
    rintro rfl
    rw [hentity]
    rfl
  have hpaths : ∀ path ∈ entityPaths eType entity,
      ¬ Precious config cwd group (locate cwd path) := by
    rw [hentity]
    intro path hpath hprecious
    obtain ⟨base, kind, hkind, rfl, -⟩ := newGenericEntity_path hpath
    exact h.setting.undated _ hprecious _ kind (by omega) hkind (dated_locate cwd base _ hkind)
  refine ⟨⟨profile, h.files hlater h.sound⟩, fun result saved hsave => ?_⟩
  subst htype
  by_cases hauth : entity.eType = .authPolicy
  · obtain ⟨serialized, hcase⟩ : ∃ serialized, msg.body = .authenticationPolicy serialized := by
      rw [hauth] at hbody
      cases hcase : msg.body <;> rw [hcase] at hbody <;> cases hbody
      exact ⟨_, rfl⟩
    simp only [saveEntities, hcase, hpolicy hauth] at hsave
    rcases h.sound.saveAuthPolicy h.setting serialized hpending with ⟨fault, hrun⟩ |
      ⟨after, hrun, hsound⟩ <;> rw [hrun] at hsave <;> cases hsave
    · exact ⟨by rintro ⟨⟩, fun _ => ⟨profile, h.files hlater h.sound⟩⟩
    · have hset : setLinks config saved entity.eType entity = (.ok (), saved) := by
        rw [hauth]
        rfl
      refine ⟨fun _ => h.activate hlater hpending hpaths hpolicy hset ?_,
        fun hnot => absurd rfl hnot⟩
      rw [hauth]
      exact hsound
  · have hkeeps : st.host.fs.Keeps saved (Precious config cwd group) := by
      refine saveEntities_rule (st.host.fs.Keeps · _) (Keeps.refl h.sound.shut) hbody
        (fun _ hmid path hpath => keeps_saveFile hmid (h.sound.loc path ▸ hpaths path hpath))
        (fun hcrl crls hcase => ?_) (fun ht => absurd ht hauth) hsave
      have hpath : entity.certPath = config.crlPath defaultProfile := by
        rw [hentity, hcrl]
        rfl
      rw [hpath]
      refine rotateCRLBundle_rule (st.host.fs.Keeps · _) (Keeps.refl h.sound.shut)
        (fun _ hmid crl hcrl => keeps_writeCrl hmid (h.sound.loc _ ▸ hmsg crls hcase crl hcrl))
        fun mid hmid => (onlyIn_clearDir mid _).keeps hmid ?_
      rw [hmid.loc, h.sound.loc]
      exact h.setting.lists
    have hsound := h.sound.keeps hkeeps
    obtain ⟨after, hset, hlinked⟩ := hsound.relink h.setting hauth entity
    exact ⟨fun _ => h.activate hlater hpending hpaths hpolicy hset hlinked,
      fun _ => ⟨profile, h.files hlater hsound⟩⟩

end

theorem restoreInv_kept : KeptByRequests config (·.Harmless config cwd group)
    fun st => ∃ profile, RestoreInv config cwd group start st profile where
  only := fun ⟨_, h⟩ => h.only
  found := fun ⟨profile, h⟩ => ⟨profile, h.found⟩
  key := by
    rintro st profile key ⟨other, h⟩ hfound
    obtain rfl : other = profile := Option.some.inj (h.found.symm.trans hfound)
    exact ⟨_, lookup_insert _, fun id hid => (lookup_insert_ne hid).trans (h.only id hid),
      h.setting, h.final, h.held, h.sound⟩
  upload := fun overwrite ⟨_, h⟩ hmsg => h.uploadEntity overwrite hmsg

/-! ## The revert -/

section

variable (h : RestoreInv config cwd group start st profile)
include h

theorem RestoreInv.revertFiles
    (hpending : (profile.active.get t).final = false) :
    FilesHeld config cwd group start
      (revertFiles config st.host.fs defaultProfile t (profile.active.get t) (group.get t))
      (profile.active.set t (group.get t)) := by
  obtain ⟨-, htype, -, hpaths, hpolicy⟩ := (h.held t).resolve_left fun hsame => by
    rw [hsame, h.final] at hpending
    cases hpending
  have hremove : t ≠ .authPolicy → FilesHeld config cwd group start
      (removeEntityFiles (setLinks config st.host.fs t (group.get t)).2 (profile.active.get t))
      (profile.active.set t (group.get t)) := by
    intro ht
    obtain ⟨after, hset, hsound⟩ := h.sound.relink h.setting ht (group.get t)
    rw [hset]
    refine hsound.keeps (keeps_removeEntityFiles (Keeps.refl hsound.shut) fun path hpath => ?_)
    rw [hsound.loc]
    rw [htype] at hpath
    exact hpaths path hpath
  unfold Gnsi.revertFiles
  cases t with
  | cert | trustBundle => exact hremove (by decide)
  | crl =>
    obtain ⟨after, hset, hsound⟩ := h.sound.relink h.setting (by decide : CertzType.crl ≠ _)
      (group.get .crl)
    cases hset
    refine hsound.keeps ((onlyIn_copyCRLBundle _ _ _).keeps (Keeps.refl h.sound.shut) ?_)
    rw [h.sound.loc]
    exact h.setting.lists
  | authPolicy =>
    rw [hpolicy rfl]
    exact h.sound.restoreAuthPolicy h.setting hpending (h.final .authPolicy)

/-- One type is reverted to the entity of the start. -/
theorem RestoreInv.revertEntity (t : CertzType) :
    ∃ profile', RestoreInv config cwd group start (revertEntity config defaultProfile st t)
        profile' ∧ profile'.active = profile.active.set t (group.get t) := by
  have hset : ∀ active : EntityGroup, active.get t = group.get t →
      active.set t (group.get t) = active := by
    rintro active hsame
    rw [← hsame]
    cases t <;> rfl
  rcases hfinal : (profile.active.get t).final with _ | _
  · have hlast : profile.last.get t = group.get t := by
      rcases h.held t with hsame | ⟨-, -, hlast, -⟩
      · rw [hsame, h.final] at hfinal
        cases hfinal
      · exact hlast
    simp only [Gnsi.revertEntity, h.found, hfinal, Bool.false_eq_true, if_false, hlast]
    refine ⟨_, ⟨lookup_insert _, fun id hid => (lookup_insert_ne hid).trans
      (h.only id hid), h.setting, h.final, fun u => ?_, ?_⟩, rfl⟩
    · rw [EntityGroup.get_set]
      split
      · rename_i hu
        exact .inl (hu ▸ rfl)
      · exact h.held u
    · rw [fs_writeEntityFreshness]
      exact h.revertFiles hfinal
  · have hsame : profile.active.get t = group.get t := by
      rcases h.held t with hsame | ⟨hopen, -⟩
      · exact hsame
      · rw [hfinal] at hopen
        cases hopen
    simp only [Gnsi.revertEntity, h.found, hfinal, if_true]
    exact ⟨profile, h, (hset _ hsame).symm⟩

theorem RestoreInv.revertProfile
    {profileID : String} (hready : profileID = defaultProfile ∨ profile.active = group) :
    ∃ profile', RestoreInv config cwd group start (revertProfile config st profileID) profile' ∧
      profile'.active = group := by
  by_cases hid : (if profileID = "" then defaultProfile else profileID) = defaultProfile
  · rw [Gnsi.revertProfile, hid]
    obtain ⟨profile₁, h₁, hactive₁⟩ := h.revertEntity .cert
    obtain ⟨profile₂, h₂, hactive₂⟩ := h₁.revertEntity .trustBundle
    obtain ⟨profile₃, h₃, hactive₃⟩ := h₂.revertEntity .crl
    obtain ⟨profile₄, h₄, hactive₄⟩ := h₃.revertEntity .authPolicy
    refine ⟨profile₄, h₄, ?_⟩
    rw [hactive₄, hactive₃, hactive₂, hactive₁]
    rfl
  · obtain ⟨hne, hsame⟩ := revertProfile_other h.only hid
    rw [hsame]
    exact ⟨profile, h, hready.resolve_left hne⟩

end

end Restore

/-! ## Failed sessions -/

/-- The entities, the links, the files they lead to and the policy are those of the start. -/
structure CertzRestored (config : CertzConfig) (st after : CertzState) (profile : CertzProfile) :
    Prop where
  active : ∃ profile', after.profiles.lookup defaultProfile = some profile' ∧
    profile'.active = profile.active
  certLink : PointsTo after.host.fs config.srvCertLnk profile.active.cert.certPath
  keyLink : PointsTo after.host.fs config.srvKeyLnk profile.active.cert.keyPath
  caLink : PointsTo after.host.fs config.caCertLnk profile.active.trustBundle.certPath
  contents : ∀ path ∈ [profile.active.cert.certPath, profile.active.cert.keyPath,
    profile.active.trustBundle.certPath, config.fedPolicyFile],
    after.host.fs.readFile path = st.host.fs.readFile path
  backup : after.host.fs.node (after.host.fs.loc (config.fedPolicyFile ++ ".bak")) = none

/-- There is only the default profile, nothing is in the way of what a session puts back, no link
leads there from elsewhere, and the files are not links themselves. -/
structure CertzGuarded (config : CertzConfig) (st : CertzState) (profile : CertzProfile) :
    Prop where
  only : ∀ id, id ≠ defaultProfile → st.profiles.lookup id = none
  setting : RestoreSetting config st.host.fs.cwd profile.active st.clock
  shut : st.host.fs.Shut (Precious config st.host.fs.cwd profile.active)
  plain : ∀ path ∈ [profile.active.cert.certPath, profile.active.cert.keyPath,
    profile.active.trustBundle.certPath, config.fedPolicyFile],
    ∀ target, st.host.fs.node (st.host.fs.loc path) ≠ some (.link target)

theorem CertzConsistent.restoreInv {config : CertzConfig} {st : CertzState}
    {profile : CertzProfile} (h : CertzConsistent config st profile)
    (hguard : CertzGuarded config st profile)
    (hbackup : st.host.fs.node (st.host.fs.loc (config.fedPolicyFile ++ ".bak")) = none) :
    RestoreInv config st.host.fs.cwd profile.active st.host.fs st profile where
  found := h.found
  only := hguard.only
  setting := hguard.setting
  final := h.final
  held := fun _ => .inl rfl
  sound :=
    { here := rfl
      shut := hguard.shut
      files := fun _ _ _ => rfl
      points := fun t pair hpair => by
        cases t <;> simp only [linked, mem_cons, not_mem_nil, or_false] at hpair
        · rcases hpair with rfl | rfl
          · exact h.certLink
          · exact h.keyLink
        · exact hpair ▸ h.caLink
      policy := by
        rw [PolicyHeld, if_pos (show profile.active.authPolicy.final = true from h.final .authPolicy)]
        exact ⟨rfl, hbackup⟩ }

theorem RestoreInv.restored {config : CertzConfig} {st after : CertzState}
    {profile profile' : CertzProfile} (hguard : CertzGuarded config st profile)
    (h : RestoreInv config st.host.fs.cwd profile.active st.host.fs after profile')
    (hactive : profile'.active = profile.active) : CertzRestored config st after profile := by
  have hsound := h.sound
  rw [hactive] at hsound
  have hpolicy := hsound.policy
  rw [PolicyHeld, if_pos (show profile.active.authPolicy.final = true from h.final .authPolicy)]
    at hpolicy
  have hnode : ∀ path ∈ [profile.active.cert.certPath, profile.active.cert.keyPath,
      profile.active.trustBundle.certPath, config.fedPolicyFile],
      after.host.fs.node (after.host.fs.loc path) = st.host.fs.node (st.host.fs.loc path) := by
    intro path hpath
    rw [hsound.loc]
    simp only [mem_cons, not_mem_nil, or_false] at hpath
    rcases hpath with rfl | rfl | rfl | rfl
    · exact hsound.files .cert _ (by simp [entityPaths, EntityGroup.get])
    · exact hsound.files .cert _ (by simp [entityPaths, EntityGroup.get])
    · exact hsound.files .trustBundle _ (by simp [entityPaths, EntityGroup.get])
    · exact hpolicy.1
  exact
    { active := ⟨profile', h.found, hactive⟩
      certLink := hsound.points .cert (_, _) (by simp [linked, EntityGroup.get])
      keyLink := hsound.points .cert (_, _) (by simp [linked, EntityGroup.get])
      caLink := hsound.points .trustBundle (_, _) (by simp [linked, EntityGroup.get])
      contents := fun path hpath => by
        have hplain := hguard.plain path hpath
        have hplain' := hplain
        rw [← hnode path hpath] at hplain'
        rw [readFile, readFile, follow_of_not_link hplain, follow_of_not_link hplain']
        simp [hnode path hpath]
      backup := by
        rw [hsound.loc]
        exact hpolicy.2 }

def policyStart : CertzState :=
  { firstStart "/keys/ca.crt" with
    host :=
      { fs := (firstStart "/keys/ca.crt").host.fs.set ["keys", "policy.json"]
          (some (.file "policy V1")) } }

/-- A certificate, a policy and a list are uploaded; then the stream ends. -/
def mixedSession : List CertzEvent :=
  [certUpload "V2",
    .request "" (.certificates [⟨1, "V2", .authenticationPolicy "policy V2", "", 0⟩]) true none,
    crlUpload [⟨true, true, "new", "list"⟩], .eof]

theorem policyStart_consistent :
    CertzConsistent keysConfig policyStart (firstProfile "/keys/ca.crt") where
  found := lookup_insert _
  final := fun t => by cases t <;> rfl
  certLink := ⟨"/keys/server.crt", by decide +kernel, by decide +kernel⟩
  keyLink := ⟨"/keys/server.key", by decide +kernel, by decide +kernel⟩
  caLink := ⟨"/keys/ca.crt", by decide +kernel, by decide +kernel⟩
  certFile := by decide +kernel
  keyFile := by decide +kernel
  caFile := by decide +kernel

/-- What is precious on this server. -/
def keysPrecious : List Location :=
  ["server_cert.lnk", "server_key.lnk", "ca_cert.lnk", "policy.json", "policy.json.bak",
    "server.crt", "server.key", "ca.crt"].map (["keys", ·])

theorem mem_keysPrecious {loc : Location}
    (h : Precious keysConfig [] (firstProfile "/keys/ca.crt").active loc) :
    loc ∈ keysPrecious := by
  rcases h with (rfl | rfl | rfl) | rfl | rfl | ⟨t, path, hpath, rfl⟩
  iterate 5 decide +kernel
  cases t <;> simp only [entityPaths, EntityGroup.get, firstProfile, List.mem_cons,
    not_mem_nil, or_false] at hpath
  · rcases hpath with rfl | rfl <;> decide +kernel
  · subst hpath
    decide +kernel

theorem policyStart_guarded : CertzGuarded keysConfig policyStart (firstProfile "/keys/ca.crt") where
  only := fun id hid => (lookup_insert_ne hid).trans rfl
  setting :=
    { names := fun name h => absurd h not_mem_nil
      distinct := ⟨by decide +kernel, by decide +kernel, by decide +kernel⟩
      undated := fun loc hloc => undated_of_not_pem _ ((by decide +kernel : ∀ loc ∈ keysPrecious,
        GoText.hasSuffix (loc.getLastD "") ".pem" = false) loc (mem_keysPrecious hloc))
      lists := fun loc hloc => (by decide +kernel : ∀ loc ∈ keysPrecious,
        ¬ IsEntry (crlDir keysConfig []) loc) loc (mem_keysPrecious hloc)
      policy := by decide +kernel
      backup := by decide +kernel
      files := fun t path hpath => by
        cases t <;> simp only [entityPaths, EntityGroup.get, firstProfile, List.mem_cons,
          not_mem_nil, or_false] at hpath
        · rcases hpath with rfl | rfl <;> decide +kernel
        · subst hpath
          decide +kernel }
  shut := by
    intro loc target houtside hnode
    simp only [policyStart, firstStart, node_set] at hnode
    split_ifs at hnode with h₁ h₂ h₃ h₄
    all_goals cases hnode
    · exact absurd (.inl (.inl (h₂.trans (by decide +kernel)))) houtside
    · exact absurd (.inl (.inr (.inl (h₃.trans (by decide +kernel))))) houtside
    · exact absurd (.inl (.inr (.inr (h₄.trans (by decide +kernel))))) houtside
  plain := by
    have hfiles : ∀ path ∈ ["/keys/server.crt", "/keys/server.key", "/keys/ca.crt",
        "/keys/policy.json"], ∃ content ∈ ["certificate V1", "key V1", "bundle V1", "policy V1"],
        policyStart.host.fs.node (policyStart.host.fs.loc path) = some (.file content) := by
      decide +kernel
    intro path hpath target hlink
    obtain ⟨content, -, hfile⟩ := hfiles path hpath
    cases hfile.symm.trans hlink

end SonicGnmi.Gnsi
