import SonicGnmi.Gnsi.CertzInvariant

/-!
# Sessions of certificate rotation

Every operation of the service keeps `RotationInv`, and both ends of a session
make all active entities final, so a server that starts consistent is consistent
after every session.

* `RotationInv.uploadEntity`, `revertEntity`, `finalizeEntity` — one step each;
* `foldl_settles` — the loops of `revertProfile` and `finalizeProfile`;
* `certzLoop_settles` — one session, and `certz_sessions_consistent` — all of
  them, for a trust bundle that does not share a file with the certificate.
-/

namespace SonicGnmi.Gnsi

open Foundation Grpc FileSystem List

section Rotation

variable (config : CertzConfig) (cwd : Location)

/-! ## Conditions -/

/-- The files an upload is stored in are not entries of the directories of the
revocation lists.  The time in their names does not matter for that. -/
def EntityMsg.Outside (msg : EntityMsg) : Prop :=
  ∀ eType, msg.body.eType = some eType →
    ∀ path ∈ entityPaths eType (newGenericEntity config eType defaultProfile msg 0),
      ¬ IsEntry (locate cwd (config.crlPath defaultProfile)) (locate cwd path) ∧
        ¬ IsEntry (locate cwd (config.crlPath defaultProfile ++ "_flush")) (locate cwd path)

/-- All uploads of an event are stored outside of the revocation lists. -/
def CertzEvent.Outside : CertzEvent → Prop
  | .request _ (.certificates entities) _ _ => ∀ msg ∈ entities, msg.Outside config cwd
  | _ => True

/-- What holds between any two operations of the service. -/
structure RotationInv (st : CertzState) (profile : CertzProfile) : Prop where
  found : st.profiles.lookup defaultProfile = some profile
  only : ∀ id, id ≠ defaultProfile → st.profiles.lookup id = none
  setting : Setting config cwd st.clock
  sound : ProfileSound config cwd st.clock st.host.fs profile

variable {config cwd} {st st' : CertzState} {profile profile' : CertzProfile} {fs : FileSystem}
  {t : CertzType} {msg : EntityMsg}

section

variable (h : RotationInv config cwd st profile)
include h

theorem RotationInv.insert
    (hprofiles : st'.profiles = st.profiles.insert defaultProfile profile')
    (hclock : st.clock ≤ st'.clock)
    (hsound : ProfileSound config cwd st'.clock st'.host.fs profile') :
    RotationInv config cwd st' profile' where
  found := by rw [hprofiles, AList.lookup_insert]
  only := fun id hid => by rw [hprofiles, AList.lookup_insert_ne hid, h.only id hid]
  setting := h.setting.mono hclock
  sound := hsound

theorem RotationInv.swept
    (hspares : st.host.fs.Spares fs (Swept config cwd)) :
    RotationInv config cwd { st with host := { st.host with fs := fs } } profile :=
  ⟨h.found, h.only, h.setting, h.sound.swept h.setting hspares⟩

theorem RotationInv.tick {later : Nat}
    (hlater : st.clock ≤ later) : RotationInv config cwd { st with clock := later } profile :=
  ⟨h.found, h.only, h.setting.mono hlater, h.sound.mono hlater⟩

end

/-! ## New entities -/

variable {time now : Nat} {active last : GenericEntity}

theorem newGenericEntity_path {path : String}
    (h : path ∈ entityPaths t (newGenericEntity config t defaultProfile msg time)) :
    ∃ base kind, kind ∈ pemKinds ∧ path = base ++ pemEnding time kind ∧
      base ++ pemEnding 0 kind ∈ entityPaths t (newGenericEntity config t defaultProfile msg 0) := by
  cases t with
  | cert =>
    simp only [entityPaths, newGenericEntity, mem_cons, not_mem_nil, or_false] at h ⊢
    rcases h with rfl | rfl
    · exact ⟨_, "_cert.pem", by decide, rfl, .inl rfl⟩
    · exact ⟨_, "_key.pem", by decide, rfl, .inr rfl⟩
  | trustBundle =>
    simp only [entityPaths, newGenericEntity, mem_cons, not_mem_nil, or_false] at h ⊢
    exact ⟨_, "_bundle.pem", by decide, h, rfl⟩
  | crl | authPolicy => exact absurd h not_mem_nil

theorem undated_backup (now : Nat) (path : String) : Undated now (locate cwd (path ++ ".bak")) := by
  rw [(locate_append cwd path (by decide : '/' ∉ ".bak".toList) (by decide)).2]
  refine undated_of_not_pem now ?_
  rw [getLastD_concat, Bool.eq_false_iff, ne_eq, GoText.hasSuffix_iff]
  rintro ⟨start, heq⟩
  have hlast := congrArg (fun s : String => s.toList.reverse.take 1) heq
  simp [String.toList_append] at hlast

/-- A generated location is safe when it is outside of the lists. -/
theorem safe_of_dated {kind : String} {loc : Location}
    (hsetting : Setting config cwd now) (htime : now < time) (hkind : kind ∈ pemKinds)
    (hdated : Dated time kind loc)
    (hcrl : ¬ IsEntry (locate cwd (config.crlPath defaultProfile)) loc)
    (hflush : ¬ IsEntry (locate cwd (config.crlPath defaultProfile ++ "_flush")) loc) :
    Safe config cwd time loc where
  unswept := by
    rintro (rfl | rfl | h | h)
    · exact hsetting.policy time kind htime hkind hdated
    · exact undated_backup now _ time kind htime hkind hdated
    · exact hcrl h
    · exact hflush h
  unlinked := fun h => hsetting.undated loc h time kind htime hkind hdated
  undated := Undated.of_dated hkind hdated

theorem newGenericEntity_fresh (hsetting : Setting config cwd now)
    (htime : now < time) (hbody : msg.body.eType = some t) (hmsg : msg.Outside config cwd) :
    Fresh config cwd now time t (newGenericEntity config t defaultProfile msg time) where
  eType := newGenericEntity_eType ..
  pending := newGenericEntity_final ..
  safe := by
    intro path hpath
    obtain ⟨base, kind, hkind, rfl, hzero⟩ := newGenericEntity_path hpath
    obtain ⟨hcrl, hflush⟩ := hmsg t hbody _ hzero
    rw [isEntry_pemEnding cwd base 0 time hkind] at hcrl hflush
    exact safe_of_dated hsetting htime hkind (dated_locate cwd base time hkind) hcrl hflush
  dated := by
    intro path hpath hundated
    obtain ⟨base, kind, hkind, rfl, -⟩ := newGenericEntity_path hpath
    exact hundated time kind htime hkind (dated_locate cwd base time hkind)
  policy := by
    rintro rfl
    rfl

/-! ## Uploads -/

/-- Saving an entity removes at most what is swept. -/
theorem saveEntities_spares {generatedKey : Option String} {result : Except Fault Unit}
    {saved : FileSystem} (hbody : msg.body.eType = some t)
    (h : saveEntities config fs generatedKey msg
      (newGenericEntity config t defaultProfile msg time) = (result, saved)) :
    fs.Spares saved (Swept config fs.cwd) := by
  refine saveEntities_rule (fs.Spares · (Swept config fs.cwd)) (Spares.refl fs _) hbody
    (fun mid hmid path _ data => ?_) ?_ ?_ h
  · exact hmid.trans ((spares_saveFile mid path data).mono fun _ h => h.elim)
  · rintro rfl crls -
    exact (spares_rotateCRLBundle fs _ config.parseCrl crls).mono fun _ h =>
      .inr (.inr (.inl h))
  · rintro rfl serialized
    exact (spares_saveAuthPolicy fs config.fedPolicyFile serialized).mono fun _ h =>
      h.imp_right .inl

theorem saveEntities_present {generatedKey : Option String} {saved : FileSystem}
    (hbody : msg.body.eType = some t)
    (h : saveEntities config fs generatedKey msg
      (newGenericEntity config t defaultProfile msg time) = (.ok (), saved)) :
    ∀ path ∈ entityPaths t (newGenericEntity config t defaultProfile msg time),
      (saved.node (fs.loc path)).isSome = true := by
  generalize newGenericEntity config t defaultProfile msg time = entity at h
  unfold saveEntities at h
  cases hcase : msg.body with
  | certificateChain chain =>
    rw [hcase] at h hbody
    cases hbody
    dsimp only at h
    rcases hread : readCertChain generatedKey chain with fault | ⟨cert, key⟩ <;> rw [hread] at h
    · cases h
    dsimp only at h
    rcases hkey : saveFile fs entity.keyPath key with ⟨fault | done, mid⟩ <;> rw [hkey] at h
    · cases h
    change saveFile mid entity.certPath cert = (.ok (), saved) at h
    have hfirst := spares_saveFile fs entity.keyPath key
    rw [hkey] at hfirst
    have hsecond := spares_saveFile mid entity.certPath cert
    rw [h] at hsecond
    intro path hpath
    simp only [entityPaths, mem_cons, not_mem_nil, or_false] at hpath
    rcases hpath with rfl | rfl
    · rw [← hfirst.loc]
      exact isSome_saveFile h
    · exact hsecond.present _ id (isSome_saveFile hkey)
  | trustBundle certificate =>
    rw [hcase] at h hbody
    cases hbody
    intro path hpath
    simp only [entityPaths, mem_cons, not_mem_nil, or_false] at hpath
    subst hpath
    cases certificate with
    | none => cases h
    | some tb =>
      dsimp only at h
      split at h
      · cases h
      split at h
      · cases h
      · split at h
        · cases h
        · exact isSome_saveFile h
  | crlBundle crls | authenticationPolicy serialized =>
    rw [hcase] at hbody
    cases hbody
    exact fun path hpath => absurd hpath not_mem_nil
  | other =>
    rw [hcase] at hbody
    cases hbody

theorem RotationInv.activateEntity {entity : GenericEntity}
    (h : RotationInv config cwd st profile) (hsetting : Setting config cwd now)
    (hsound : ProfileSound config cwd now st.host.fs profile) (hclock : now ≤ st.clock)
    (hfresh : Fresh config cwd now st.clock entity.eType entity)
    (hsaved : ∀ path ∈ entityPaths entity.eType entity,
      (st.host.fs.node (locate cwd path)).isSome = true) :
    ∃ profile', (activateEntity config st defaultProfile entity).1 = .ok () ∧
      RotationInv config cwd (activateEntity config st defaultProfile entity).2 profile' := by
  obtain ⟨after, hset, hspares, hnew⟩ := (hsound.entity entity.eType).upload hsetting hsound.here
    hclock hfresh hsaved
  have hrun : Gnsi.activateEntity config st defaultProfile entity = (.ok (), { st with
        profiles := st.profiles.insert defaultProfile (profile.activate entity)
        host := writeEntityFreshness config { st.host with fs := after } defaultProfile entity }) := by
    simp [Gnsi.activateEntity, h.found, hset]
  rw [hrun]
  refine ⟨profile.activate entity, rfl, h.insert rfl le_rfl ?_⟩
  rw [fs_writeEntityFreshness]
  refine hsound.update hsetting entity.eType hclock (hspares.mono fun _ => .inl)
    (fun u hu => activate_rest entity hu) ?_ fun path hpath => ?_
  · rw [(activate_same entity).1, (activate_same entity).2]
    exact hnew
  · rw [(activate_same entity).1, (activate_same entity).2] at hpath
    exact (mem_kept_upload hfresh.pending hpath).symm.imp_right (hfresh.dated path)

theorem RotationInv.uploadEntity (h : RotationInv config cwd st profile) (overwrite : Bool)
    (hmsg : msg.Outside config cwd) :
    ∃ profile', RotationInv config cwd
      (uploadEntity config st overwrite defaultProfile msg).2 profile' := by
  refine uploadEntity_keeps (fun st => ∃ profile, RotationInv config cwd st profile) overwrite
    ⟨profile, h⟩ fun eType time entity hbody htime hentity htype _ => ?_
  have hclock : st.clock ≤ time := by omega
  have hfresh := newGenericEntity_fresh h.setting (by omega : st.clock < time) hbody hmsg
  rw [← hentity] at hfresh
  refine ⟨⟨profile, h.tick hclock⟩, fun result fs hsave => ?_⟩
  have hspares := saveEntities_spares hbody (hentity ▸ hsave)
  rw [h.sound.here] at hspares
  refine ⟨fun hok => ?_, fun _ => ⟨profile, (h.tick hclock).swept hspares⟩⟩
  subst hok
  have hpresent := saveEntities_present hbody (hentity ▸ hsave)
  rw [← hentity] at hpresent
  subst htype
  obtain ⟨profile', -, hinv⟩ := ((h.tick hclock).swept hspares).activateEntity h.setting
    (h.sound.swept h.setting hspares) hclock hfresh fun path hpath => by
      rw [← h.sound.here]
      exact hpresent path hpath
  exact ⟨profile', hinv⟩

theorem rotationInv_kept : KeptByRequests config (·.Outside config cwd)
    fun st => ∃ profile, RotationInv config cwd st profile where
  only := fun ⟨_, h⟩ => h.only
  found := fun ⟨profile, h⟩ => ⟨profile, h.found⟩
  key := by
    rintro st profile key ⟨other, h⟩ hfound
    obtain rfl : other = profile := Option.some.inj (h.found.symm.trans hfound)
    exact ⟨_, h.insert rfl le_rfl ⟨h.sound.here, h.sound.entity, h.sound.apart⟩⟩
  upload := fun overwrite ⟨_, h⟩ hmsg => h.uploadEntity overwrite hmsg

/-! ## The end of a session -/

/-- What is left of the files of a type after a revert or a finalize. -/
def GivenUp (config : CertzConfig) (cwd : Location) (t : CertzType) (entity : GenericEntity)
    (loc : Location) : Prop :=
  Swept config cwd loc ∨ ∃ path ∈ entityPaths t entity, loc = locate cwd path

theorem removeEntityFiles_spares {entity : GenericEntity} (htype : entity.eType = t) :
    fs.Spares (removeEntityFiles fs entity) (GivenUp config fs.cwd t entity) := by
  refine removeEntityFiles_rule (fs.Spares · _) (Spares.refl fs _) fun mid hmid path hpath => ?_
  refine hmid.trans ((spares_removeLogged mid path).mono fun loc hloc => .inr ⟨path, ?_, ?_⟩)
  · exact htype ▸ hpath
  · rw [hloc, hmid.loc]
    rfl

/-- After the links are set back, a revert removes at most the active files. -/
theorem revertFiles_spares {after : FileSystem}
    (hset : setLinks config fs t last = (.ok (), after)) (htype : active.eType = t)
    (hpolicy : t = .authPolicy → active.certPath = config.fedPolicyFile) :
    after.Spares (revertFiles config fs defaultProfile t active last)
      (GivenUp config after.cwd t active) := by
  unfold revertFiles
  cases t with
  | cert | trustBundle =>
    rw [hset]
    exact removeEntityFiles_spares htype
  | crl =>
    cases hset
    exact (spares_copyCRLBundle _ _ _).mono fun _ h => .inl (.inr (.inr (.inl h)))
  | authPolicy =>
    cases hset
    rw [hpolicy rfl]
    exact (spares_restoreAuthPolicy _ _).mono fun _ h => .inl (h.imp_right .inl)

/-- A finalize removes at most the last files. -/
theorem finalizeFiles_spares (htype : last.eType = t)
    (hpolicy : t = .authPolicy → active.certPath = config.fedPolicyFile) :
    fs.Spares (finalizeFiles config fs defaultProfile t active last)
      (GivenUp config fs.cwd t last) := by
  unfold finalizeFiles
  cases t with
  | cert | trustBundle => exact removeEntityFiles_spares htype
  | crl => exact (spares_copyCRLBundle _ _ _).mono fun _ h => .inl (.inr (.inr (.inr h)))
  | authPolicy =>
    rw [hpolicy rfl]
    exact (spares_removeLogged _ _).mono fun _ h => .inl (.inr (.inl h))

/-- Giving up files of one entity does not harm another one that needs none of
them. -/
theorem EntitySound.givenUp {after : FileSystem} {lost : GenericEntity}
    (hsetting : Setting config cwd now) (hcwd : fs.cwd = cwd)
    (h : EntitySound config cwd now fs t active last)
    (hspares : fs.Spares after (GivenUp config cwd t lost))
    (hsafe : ∀ path ∈ entityPaths t lost, Safe config cwd now (locate cwd path))
    (happart : ∀ path ∈ kept t active last, ∀ other ∈ entityPaths t lost,
      locate cwd path ≠ locate cwd other) :
    EntitySound config cwd now after t active last := by
  refine h.spares hcwd hspares ?_ fun path hpath => ?_
  · rintro loc ⟨pair, hpair, rfl⟩ (hswept | ⟨path, hpath, heq⟩)
    · exact hsetting.unswept _ (isLink_of_linked hpair) hswept
    · exact (hsafe path hpath).unlinked (heq ▸ isLink_of_linked hpair)
  · rintro (hswept | ⟨other, hother, heq⟩)
    · exact (h.safe path hpath).unswept hswept
    · exact happart path hpath other hother heq

/-- All active entities of a type are final. -/
def Settled (st : CertzState) (t : CertzType) : Prop :=
  ∀ profile, st.profiles.lookup defaultProfile = some profile →
    (profile.active.get t).final = true

theorem RotationInv.settled_iff (h : RotationInv config cwd st profile) :
    Settled st t ↔ (profile.active.get t).final = true := by
  constructor
  · exact fun hsettled => hsettled profile h.found
  · intro hfinal other hother
    rw [h.found, Option.some.injEq] at hother
    exact hother ▸ hfinal

/-- A step of the loops that end a session: it keeps the invariant and makes one
type final, and no final type open again. -/
def Settles (config : CertzConfig) (cwd : Location)
    (step : CertzState → CertzType → CertzState) : Prop :=
  ∀ st t, (∃ profile, RotationInv config cwd st profile) →
    (∃ profile, RotationInv config cwd (step st t) profile) ∧ Settled (step st t) t ∧
      ∀ u, Settled st u → Settled (step st t) u

theorem foldl_settles {step : CertzState → CertzType → CertzState}
    (hstep : Settles config cwd step) (types : List CertzType)
    (h : ∃ profile, RotationInv config cwd st profile) :
    (∃ profile, RotationInv config cwd (types.foldl step st) profile) ∧
      ∀ u, u ∈ types ∨ Settled st u → Settled (types.foldl step st) u := by
  induction types generalizing st with
  | nil => exact ⟨h, fun u hu => hu.resolve_left not_mem_nil⟩
  | cons t rest ih =>
    obtain ⟨hinv, hsettled, hkept⟩ := hstep st t h
    obtain ⟨hlast, hall⟩ := ih hinv
    refine ⟨hlast, fun u hu => hall u ?_⟩
    rcases hu with hmem | hold
    · rcases mem_cons.1 hmem with rfl | hrest
      · exact .inr hsettled
      · exact .inl hrest
    · exact .inr (hkept u hold)

theorem RotationInv.revert (h : RotationInv config cwd st profile)
    (hfinal : (profile.active.get t).final = false) :
    ProfileSound config cwd st.clock
      (revertFiles config st.host.fs defaultProfile t (profile.active.get t) (profile.last.get t))
      { profile with active := profile.active.set t (profile.last.get t) } := by
  have hentity := h.sound.entity t
  obtain ⟨hlast, -, hdiffer⟩ := hentity.last hfinal
  obtain ⟨mid, hset, hlinks, hmid⟩ := hentity.revert h.setting h.sound.here hfinal
  have hcwd : mid.cwd = cwd := hlinks.cwd.trans h.sound.here
  have hfiles := revertFiles_spares hset hentity.eType fun htype => hentity.policy htype hfinal
  rw [hcwd] at hfiles
  have hkept : kept t (profile.last.get t) (profile.last.get t) =
      entityPaths t (profile.last.get t) := by simp [kept, hlast]
  have hnew := hmid.givenUp h.setting hcwd hfiles
    (fun path hpath => hentity.safe path (entityPaths_subset_kept _ hpath)) (by
      rw [hkept]
      exact fun path hpath other hother heq => hdiffer other hother path hpath heq.symm)
  refine h.sound.update h.setting t le_rfl ?_ (fun u hu => by simp [hu]) (by simpa using hnew) ?_
  · refine (hlinks.mono fun _ => .inl).trans (hfiles.mono fun loc hloc => .inr ?_)
    rcases hloc with hswept | ⟨path, hpath, heq⟩
    · exact .inr hswept
    · exact .inl ⟨path, entityPaths_subset_kept _ hpath, heq⟩
  · intro path hpath
    simp only [EntityGroup.get_set, if_true, hkept] at hpath
    exact .inl (last_subset_kept hfinal hpath)

theorem RotationInv.finalize (h : RotationInv config cwd st profile)
    (hfinal : (profile.active.get t).final = false) :
    ProfileSound config cwd st.clock
      (finalizeFiles config st.host.fs defaultProfile t (profile.active.get t) (profile.last.get t))
      { profile with
        active := profile.active.set t { profile.active.get t with final := true }
        last := profile.last.set t { profile.active.get t with final := true } } := by
  have hentity := h.sound.entity t
  obtain ⟨-, htype, hdiffer⟩ := hentity.last hfinal
  have hfiles : st.host.fs.Spares (finalizeFiles config st.host.fs defaultProfile t
      (profile.active.get t) (profile.last.get t)) _ :=
    finalizeFiles_spares htype fun ht => hentity.policy ht hfinal
  rw [h.sound.here] at hfiles
  have hkept : ∀ other, kept t { profile.active.get t with final := true } other =
      entityPaths t (profile.active.get t) := by
    intro other
    cases t <;> simp [kept, entityPaths]
  have hnew := (hentity.finalize { profile.active.get t with final := true }).givenUp h.setting
    h.sound.here hfiles (fun path hpath => hentity.safe path (last_subset_kept hfinal hpath)) (by
      rw [hkept]
      exact hdiffer)
  refine h.sound.update h.setting t le_rfl ?_ (fun u hu => by simp [hu]) (by simpa using hnew) ?_
  · refine hfiles.mono fun loc hloc => .inr ?_
    rcases hloc with hswept | ⟨path, hpath, heq⟩
    · exact .inr hswept
    · exact .inl ⟨path, last_subset_kept hfinal hpath, heq⟩
  · intro path hpath
    simp only [EntityGroup.get_set, if_true, hkept] at hpath
    exact .inl (entityPaths_subset_kept _ hpath)

theorem revertEntity_settles : Settles config cwd (revertEntity config defaultProfile) := by
  rintro st t ⟨profile, h⟩
  rcases hfinal : (profile.active.get t).final with _ | _
  · have hlast := ((h.sound.entity t).last hfinal).1
    have hinv : RotationInv config cwd (revertEntity config defaultProfile st t)
        { profile with active := profile.active.set t (profile.last.get t) } := by
      simp only [revertEntity, h.found, hfinal, Bool.false_eq_true, if_false]
      refine h.insert rfl le_rfl ?_
      rw [fs_writeEntityFreshness]
      exact h.revert hfinal
    refine ⟨⟨_, hinv⟩, hinv.settled_iff.2 (by simpa using hlast), fun u hu => ?_⟩
    refine hinv.settled_iff.2 ?_
    by_cases hut : u = t
    · simpa [hut] using hlast
    · simpa [hut] using h.settled_iff.1 hu
  · have hsame : revertEntity config defaultProfile st t = st := by
      simp [revertEntity, h.found, hfinal]
    rw [hsame]
    exact ⟨⟨profile, h⟩, h.settled_iff.2 hfinal, fun _ hu => hu⟩

theorem finalizeEntity_settles : Settles config cwd (finalizeEntity config defaultProfile) := by
  rintro st t ⟨profile, h⟩
  rcases hfinal : (profile.active.get t).final with _ | _
  · have hinv : RotationInv config cwd (finalizeEntity config defaultProfile st t)
        { profile with
          active := profile.active.set t { profile.active.get t with final := true }
          last := profile.last.set t { profile.active.get t with final := true } } := by
      simp only [finalizeEntity, h.found, hfinal, Bool.false_eq_true, if_false]
      exact h.insert rfl le_rfl (h.finalize hfinal)
    refine ⟨⟨_, hinv⟩, hinv.settled_iff.2 (by simp), fun u hu => ?_⟩
    refine hinv.settled_iff.2 ?_
    by_cases hut : u = t
    · simp [hut]
    · simpa [hut] using h.settled_iff.1 hu
  · by_cases hcrl : t = .crl
    · subst hcrl
      have hsame : finalizeEntity config defaultProfile st .crl = st := by
        simp [finalizeEntity, h.found, hfinal]
      rw [hsame]
      exact ⟨⟨profile, h⟩, h.settled_iff.2 hfinal, fun _ hu => hu⟩
    · have hinv : RotationInv config cwd (finalizeEntity config defaultProfile st t)
          { profile with last := profile.last.set t (profile.active.get t) } := by
        simp only [finalizeEntity, h.found, hfinal, hcrl, if_true, if_false]
        refine h.insert rfl le_rfl (h.sound.update h.setting t le_rfl (Spares.refl _ _)
          (fun u hu => by simp [hu]) ?_ fun path hpath => .inl ?_)
        · exact (h.sound.entity t).of_final hfinal
        · simpa [kept, hfinal] using hpath
      exact ⟨⟨_, hinv⟩, hinv.settled_iff.2 hfinal, fun u hu =>
        hinv.settled_iff.2 (h.settled_iff.1 hu)⟩

theorem mem_types (t : CertzType) : t ∈ [CertzType.cert, .trustBundle, .crl, .authPolicy] := by
  cases t <;> decide

section

variable (h : ∃ profile, RotationInv config cwd st profile)
include h

/-- A revert makes everything final.  For an unknown profile it does nothing,
and then there was nothing to revert. -/
theorem revertProfile_settles {profileID : String}
    (hready : profileID = defaultProfile ∨ ∀ t, Settled st t) :
    (∃ profile, RotationInv config cwd (revertProfile config st profileID) profile) ∧
      ∀ t, Settled (revertProfile config st profileID) t := by
  by_cases hid : (if profileID = "" then defaultProfile else profileID) = defaultProfile
  · rw [revertProfile, hid]
    obtain ⟨hinv, hall⟩ := foldl_settles revertEntity_settles
      [CertzType.cert, .trustBundle, .crl, .authPolicy] h
    exact ⟨hinv, fun t => hall t (.inl (mem_types t))⟩
  · obtain ⟨profile, hprofile⟩ := h
    obtain ⟨hne, hsame⟩ := revertProfile_other hprofile.only hid
    rw [hsame]
    exact ⟨⟨profile, hprofile⟩, hready.resolve_left hne⟩

/-- A finalize makes everything final, also when the metadata cannot be saved. -/
theorem finalizeProfile_settles {profileID : String}
    (hready : profileID = defaultProfile ∨ ∀ t, Settled st t) :
    (∃ profile, RotationInv config cwd (finalizeProfile config st profileID).2 profile) ∧
      ∀ t, Settled (finalizeProfile config st profileID).2 t := by
  unfold finalizeProfile
  by_cases hid : profileID = defaultProfile
  · subst hid
    obtain ⟨⟨profile, hinv⟩, hall⟩ := foldl_settles finalizeEntity_settles
      [CertzType.cert, .trustBundle, .crl, .authPolicy] h
    obtain ⟨start, hstart⟩ := h
    rw [hstart.found]
    exact ⟨⟨profile, hinv.swept ((spares_saveFile _ _ _).mono fun _ h => h.elim)⟩,
      fun t => hall t (.inl (mem_types t))⟩
  · obtain ⟨profile, hprofile⟩ := h
    rw [hprofile.only profileID hid]
    exact ⟨⟨profile, hprofile⟩, hready.resolve_left hid⟩

/-- A session keeps the invariant, and if it comes to an end everything is
final. -/
theorem certzLoop_settles {events : List CertzEvent} {profileId : String}
    (hready : profileId = defaultProfile ∨ ∀ t, Settled st t)
    (hevents : ∀ event ∈ events, event.Outside config cwd) :
    (∃ profile, RotationInv config cwd (certzLoop config profileId events st).2 profile) ∧
      ((∀ reason, (certzLoop config profileId events st).1 ≠ .crashed reason) →
        ∀ t, Settled (certzLoop config profileId events st).2 t) := by
  obtain ⟨last, id, hlast, hid, hend⟩ := rotationInv_kept.certzLoop h profileId
    fun event hevent sslProfileId entities overwrite sendError heq => by
      subst heq
      exact hevents _ hevent
  have hdone : id = defaultProfile ∨ ∀ t, Settled last t :=
    hid.imp_right fun ⟨hne, heq⟩ => heq ▸ hready.resolve_left hne
  rcases hend with ⟨reason, hend⟩ | ⟨status, hend⟩ | ⟨-, hend⟩
  · rw [hend]
    exact ⟨hlast, fun hnone => absurd rfl (hnone reason)⟩
  · obtain ⟨hinv, hall⟩ := revertProfile_settles hlast hdone
    rw [hend]
    exact ⟨hinv, fun _ => hall⟩
  · obtain ⟨hinv, hall⟩ := finalizeProfile_settles hlast hdone
    rw [hend]
    unfold certzLoop
    rcases hresult : finalizeProfile config last id with ⟨fault | done, after⟩
    all_goals
      rw [hresult] at hinv hall
      exact ⟨hinv, fun _ => hall⟩

theorem certzSessions_settles {sessions : List (List CertzEvent)} {after : CertzState}
    (hsettled : ∀ t, Settled st t)
    (hevents : ∀ events ∈ sessions, ∀ event ∈ events, event.Outside config cwd)
    (hrun : certzSessions config sessions st = some after) :
    (∃ profile, RotationInv config cwd after profile) ∧ ∀ t, Settled after t := by
  induction sessions generalizing st with
  | nil =>
    cases hrun
    exact ⟨h, hsettled⟩
  | cons events rest ih =>
    obtain ⟨hinv, hall⟩ := certzLoop_settles h (.inr hsettled : "" = defaultProfile ∨ _)
      (hevents events mem_cons_self)
    have hrest := fun other hother => hevents other (mem_cons_of_mem _ hother)
    unfold certzSessions certzRotate at hrun
    rcases hresult : certzLoop config "" events st with ⟨finalized | status | reason, next⟩
    · rw [hresult] at hrun hinv hall
      exact ih hinv (hall fun reason hcrash => by cases hcrash) hrest hrun
    · rw [hresult] at hrun hinv hall
      exact ih hinv (hall fun reason hcrash => by cases hcrash) hrest hrun
    · rw [hresult] at hrun
      cases hrun

end

end Rotation

/-! ## Consistency -/

/-- The active entities are final, the links point to their files, and the files
exist. -/
structure CertzConsistent (config : CertzConfig) (st : CertzState) (profile : CertzProfile) :
    Prop where
  found : st.profiles.lookup defaultProfile = some profile
  final : ∀ t, (profile.active.get t).final = true
  certLink : PointsTo st.host.fs config.srvCertLnk profile.active.cert.certPath
  keyLink : PointsTo st.host.fs config.srvKeyLnk profile.active.cert.keyPath
  caLink : PointsTo st.host.fs config.caCertLnk profile.active.trustBundle.certPath
  certFile : (st.host.fs.node (st.host.fs.loc profile.active.cert.certPath)).isSome = true
  keyFile : (st.host.fs.node (st.host.fs.loc profile.active.cert.keyPath)).isSome = true
  caFile : (st.host.fs.node (st.host.fs.loc profile.active.trustBundle.certPath)).isSome = true

/-- There is only the default profile, and its files are not in the way of each
other, of the links and of what a rotation sweeps or generates. -/
structure CertzApart (config : CertzConfig) (st : CertzState) (profile : CertzProfile) : Prop where
  only : ∀ id, id ≠ defaultProfile → st.profiles.lookup id = none
  eType : ∀ t, (profile.active.get t).eType = t
  setting : Setting config st.host.fs.cwd st.clock
  safe : ∀ t, ∀ path ∈ entityPaths t (profile.active.get t),
    Safe config st.host.fs.cwd st.clock (st.host.fs.loc path)
  certCa : st.host.fs.loc profile.active.cert.certPath ≠
    st.host.fs.loc profile.active.trustBundle.certPath
  keyCa : st.host.fs.loc profile.active.cert.keyPath ≠
    st.host.fs.loc profile.active.trustBundle.certPath

theorem CertzConsistent.rotationInv {config : CertzConfig} {st : CertzState}
    {profile : CertzProfile} (h : CertzConsistent config st profile)
    (hapart : CertzApart config st profile) :
    RotationInv config st.host.fs.cwd st profile := by
  have hkept : ∀ t, kept t (profile.active.get t) (profile.last.get t) =
      entityPaths t (profile.active.get t) := fun t => by simp [kept, h.final t]
  refine ⟨h.found, hapart.only, hapart.setting, rfl, fun t => ?_, fun t u htu => ?_⟩
  · refine ⟨hapart.eType t, ?_, ?_, ?_, fun hnot => ?_, fun _ hnot => ?_⟩
    · cases t with
      | cert => simpa [linked, EntityGroup.get] using And.intro h.certLink h.keyLink
      | trustBundle => simpa [linked, EntityGroup.get] using h.caLink
      | crl | authPolicy => simp [linked]
    · rw [hkept]
      cases t with
      | cert =>
        simpa [entityPaths, EntityGroup.get, FileSystem.loc] using And.intro h.certFile h.keyFile
      | trustBundle => simpa [entityPaths, EntityGroup.get, FileSystem.loc] using h.caFile
      | crl | authPolicy => simp [entityPaths]
    · rw [hkept]
      exact hapart.safe t
    all_goals
      rw [h.final t] at hnot
      cases hnot
  · rw [hkept, hkept]
    have hcert := hapart.certCa
    have hkey := hapart.keyCa
    simp only [FileSystem.loc] at hcert hkey
    cases t <;> cases u <;> simp [entityPaths, EntityGroup.get, hcert, hkey, Ne.symm hcert,
      Ne.symm hkey] at htu ⊢

theorem RotationInv.consistent {config : CertzConfig} {cwd : Location} {st : CertzState}
    {profile : CertzProfile} (h : RotationInv config cwd st profile)
    (hsettled : ∀ t, Settled st t) : CertzConsistent config st profile := by
  have hpoints := fun t => (h.sound.entity t).points
  have hpresent : ∀ t, ∀ path ∈ entityPaths t (profile.active.get t),
      (st.host.fs.node (st.host.fs.loc path)).isSome = true := by
    intro t path hpath
    rw [FileSystem.loc, h.sound.here]
    exact (h.sound.entity t).present path (entityPaths_subset_kept _ hpath)
  exact
    { found := h.found
      final := fun t => h.settled_iff.1 (hsettled t)
      certLink := hpoints .cert (_, _) (by simp [linked, EntityGroup.get])
      keyLink := hpoints .cert (_, _) (by simp [linked, EntityGroup.get])
      caLink := hpoints .trustBundle (_, _) (by simp [linked, EntityGroup.get])
      certFile := hpresent .cert _ (by simp [entityPaths, EntityGroup.get])
      keyFile := hpresent .cert _ (by simp [entityPaths, EntityGroup.get])
      caFile := hpresent .trustBundle _ (by simp [entityPaths, EntityGroup.get]) }

/-- A server that starts consistent, with files that are not in each other's
way, is consistent after every session. -/
theorem certz_sessions_consistent (config : CertzConfig) (st after : CertzState)
    (profile : CertzProfile) (sessions : List (List CertzEvent))
    (hstart : CertzConsistent config st profile) (hapart : CertzApart config st profile)
    (huploads : ∀ events ∈ sessions, ∀ event ∈ events, event.Outside config st.host.fs.cwd)
    (hrun : certzSessions config sessions st = some after) :
    ∃ profile', CertzConsistent config after profile' := by
  have hinv := hstart.rotationInv hapart
  have hsettled : ∀ t, Settled st t := fun t => hinv.settled_iff.2 (hstart.final t)
  obtain ⟨⟨profile', hafter⟩, hall⟩ := certzSessions_settles ⟨profile, hinv⟩ hsettled huploads hrun
  exact ⟨profile', hafter.consistent hall⟩

/-! ## A certificate that is its own trust bundle -/

def keysConfig : CertzConfig where
  srvCertLnk := "/keys/server_cert.lnk"
  srvKeyLnk := "/keys/server_key.lnk"
  caCertLnk := "/keys/ca_cert.lnk"
  certCRLConfig := "/keys/crls"
  fedPolicyFile := "/keys/policy.json"
  certzMetaFile := "/keys/certz.json"
  marshal := fun _ => ""
  parseCrl := fun _ => .valid

/-- The profile after the first start of a server, with a file for the trust
bundle. -/
def firstProfile (caFile : String) : CertzProfile where
  id := defaultProfile
  active :=
    { cert :=
        { eType := .cert, version := "V1", certPath := "/keys/server.crt"
          keyPath := "/keys/server.key", final := true }
      trustBundle := { eType := .trustBundle, version := "V1", certPath := caFile, final := true }
      crlBundle := { eType := .crl, version := "V1", certPath := "/keys/crls", final := true }
      authPolicy :=
        { eType := .authPolicy, version := "V1", certPath := "/keys/policy.json", final := true } }

def firstStart (caFile : String) : CertzState where
  profiles := (∅ : GoMap String CertzProfile).insert defaultProfile (firstProfile caFile)
  host :=
    { fs :=
        { node := fun loc =>
            if loc = ["keys", "server_cert.lnk"] then some (.link "/keys/server.crt")
            else if loc = ["keys", "server_key.lnk"] then some (.link "/keys/server.key")
            else if loc = ["keys", "ca_cert.lnk"] then some (.link caFile)
            else if loc = ["keys", "server.crt"] then some (.file "certificate V1")
            else if loc = ["keys", "server.key"] then some (.file "key V1")
            else if loc = ["keys", "ca.crt"] then some (.file "bundle V1")
            else none } }
  clock := 1

def certUpload (version : String) : CertzEvent :=
  .request ""
    (.certificates
      [{ createdOn := 1, version := version
         body := .certificateChain
          { certificate := some { certificate := some "certificate", privateKey := some "key" } } }])
    false none

theorem firstStart_consistent {caFile : String}
    (hca : caFile ∈ ["/keys/server.crt", "/keys/ca.crt"]) :
    CertzConsistent keysConfig (firstStart caFile) (firstProfile caFile) := by
  simp only [mem_cons, not_mem_nil, or_false] at hca
  rcases hca with rfl | rfl <;> exact
    { found := AList.lookup_insert _
      final := fun t => by cases t <;> rfl
      certLink := ⟨"/keys/server.crt", by decide +kernel, by decide +kernel⟩
      keyLink := ⟨"/keys/server.key", by decide +kernel, by decide +kernel⟩
      caLink := ⟨_, rfl, by decide +kernel⟩
      certFile := by decide +kernel
      keyFile := by decide +kernel
      caFile := by decide +kernel }

/-- One certificate serves as the trust bundle too.  A session replaces the
certificate and is finalized; the file of the trust bundle, which is still
active, is removed with the old certificate. -/
theorem finalize_removes_shared_bundle :
    CertzConsistent keysConfig (firstStart "/keys/server.crt") (firstProfile "/keys/server.crt") ∧
      ∃ after, certzSessions keysConfig [[certUpload "V2", .finalizeRotation]]
          (firstStart "/keys/server.crt") = some after ∧
        ∀ profile, ¬ CertzConsistent keysConfig after profile := by
  refine ⟨firstStart_consistent (by simp), ?_⟩
  have hbundle : (certzSessions keysConfig [[certUpload "V2", .finalizeRotation]]
      (firstStart "/keys/server.crt")).map (fun st =>
        (st.profiles.lookup defaultProfile).map fun profile =>
          (st.host.fs.node (st.host.fs.loc profile.active.trustBundle.certPath)).isSome) =
      some (some false) := by decide +kernel
  rcases hrun : certzSessions keysConfig [[certUpload "V2", .finalizeRotation]]
    (firstStart "/keys/server.crt") with _ | after
  · rw [hrun] at hbundle
    cases hbundle
  · refine ⟨after, rfl, fun profile h => ?_⟩
    rw [hrun, Option.map_some, h.found, Option.map_some, h.caFile] at hbundle
    cases hbundle

theorem keysConfig_setting (now : Nat) : Setting keysConfig [] now where
  names := fun name h => absurd h not_mem_nil
  distinct := ⟨by decide +kernel, by decide +kernel, by decide +kernel⟩
  unswept := by
    rintro loc (rfl | rfl | rfl) <;> decide +kernel
  undated := by
    rintro loc (rfl | rfl | rfl)
    all_goals exact undated_of_not_pem now (by decide +kernel)
  policy := undated_of_not_pem now (by decide +kernel)

theorem firstStart_apart :
    CertzApart keysConfig (firstStart "/keys/ca.crt") (firstProfile "/keys/ca.crt") where
  only := fun id hid => (AList.lookup_insert_ne hid).trans rfl
  eType := fun t => by cases t <;> rfl
  setting := keysConfig_setting 1
  safe := by
    have hsafe : ∀ path ∈ ["/keys/server.crt", "/keys/server.key", "/keys/ca.crt"],
        Safe keysConfig [] 1 (locate [] path) := by
      intro path hpath
      simp only [mem_cons, not_mem_nil, or_false] at hpath
      rcases hpath with rfl | rfl | rfl <;>
        exact ⟨by decide +kernel, by decide +kernel, undated_of_not_pem 1 (by decide +kernel)⟩
    intro t path hpath
    refine hsafe path ?_
    cases t <;> simp only [entityPaths, EntityGroup.get, firstProfile, List.mem_cons,
      not_mem_nil, or_false] at hpath ⊢
    · exact hpath.imp_right .inl
    · exact .inr (.inr hpath)
  certCa := by decide +kernel
  keyCa := by decide +kernel

/-- With a bundle of its own the server stays consistent, over a session that is
cut off and one that is finalized. -/
theorem certz_sessions_consistent_own_bundle :
    ∃ after profile, certzSessions keysConfig
        [[certUpload "V2", .eof], [certUpload "V3", .finalizeRotation]]
        (firstStart "/keys/ca.crt") = some after ∧ CertzConsistent keysConfig after profile := by
  obtain ⟨after, hafter⟩ := Option.isSome_iff_exists.1 (by decide +kernel :
    (certzSessions keysConfig [[certUpload "V2", .eof], [certUpload "V3", .finalizeRotation]]
      (firstStart "/keys/ca.crt")).isSome = true)
  obtain ⟨profile, hconsistent⟩ := certz_sessions_consistent keysConfig (firstStart "/keys/ca.crt")
    after (firstProfile "/keys/ca.crt") _ (firstStart_consistent (by simp)) firstStart_apart
    (by
      have hupload : ∀ version ∈ ["V2", "V3"], (certUpload version).Outside keysConfig [] := by
        intro version hversion msg hmsg eType htype path hpath
        simp only [List.mem_cons, List.not_mem_nil, or_false] at hversion hmsg
        subst hmsg
        cases htype
        simp only [entityPaths, List.mem_cons, List.not_mem_nil, or_false] at hpath
        rcases hversion with rfl | rfl <;> rcases hpath with rfl | rfl <;> decide +kernel
      intro events hevents event hevent
      simp only [List.mem_cons, List.not_mem_nil, or_false] at hevents
      rcases hevents with rfl | rfl <;>
        simp only [List.mem_cons, List.not_mem_nil, or_false] at hevent <;>
        rcases hevent with rfl | rfl
      · exact hupload "V2" (by decide)
      · trivial
      · exact hupload "V3" (by decide)
      · trivial)
    hafter
  exact ⟨after, profile, hafter, hconsistent⟩

end SonicGnmi.Gnsi
