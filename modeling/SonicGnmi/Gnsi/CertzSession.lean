import SonicGnmi.Gnsi.CertzServer

/-!
# Invariants of a certificate session

The requests of a session only generate keys and upload entities.  A property that
both keep holds whenever the session comes to an end, and a session ends with a panic,
with a revert or with a Finalize.

* `uploadEntity_keeps` — the cases of one upload;
* `KeptByRequests` — a property that the requests of a session keep;
* `KeptByRequests.certzLoop` — how a session ends, and what holds there.
-/

namespace SonicGnmi.Gnsi

open Foundation Grpc

variable {config : CertzConfig} {st : CertzState} {profile : CertzProfile} (entity : GenericEntity)

@[simp] theorem fs_writeEntityFreshness (host : Host) (profileID : String) :
    (writeEntityFreshness config host profileID entity).fs = host.fs := by
  unfold writeEntityFreshness writeCredentialsMetadataToDB
  cases config.dbError <;> rfl

@[simp] theorem EntityGroup.get_set (group : EntityGroup) (t u : CertzType) :
    (group.set t entity).get u = if u = t then entity else group.get u := by
  cases t <;> cases u <;> rfl

theorem activate_rest {u : CertzType} (hu : u ≠ entity.eType) :
    (profile.activate entity).active.get u = profile.active.get u ∧
      (profile.activate entity).last.get u = profile.last.get u := by
  unfold CertzProfile.activate
  cases hfinal : (profile.active.get entity.eType).final <;> simp [hu, hfinal]

theorem activate_same :
    (profile.activate entity).active.get entity.eType = entity ∧
      (profile.activate entity).last.get entity.eType =
        if (profile.active.get entity.eType).final then profile.active.get entity.eType
        else profile.last.get entity.eType := by
  unfold CertzProfile.activate
  cases hfinal : (profile.active.get entity.eType).final <;> simp [hfinal]

theorem newGenericEntity_eType (t : CertzType) (profileID : String) (msg : EntityMsg) (time : Nat) :
    (newGenericEntity config t profileID msg time).eType = t := by
  cases t <;> rfl

theorem newGenericEntity_final (t : CertzType) (profileID : String) (msg : EntityMsg) (time : Nat) :
    (newGenericEntity config t profileID msg time).final = false := by
  cases t <;> rfl

/-- Only the default profile exists: for another one there is nothing to revert. -/
theorem revertProfile_other {profileID : String}
    (honly : ∀ id, id ≠ defaultProfile → st.profiles.lookup id = none)
    (hid : (if profileID = "" then defaultProfile else profileID) ≠ defaultProfile) :
    profileID ≠ defaultProfile ∧ revertProfile config st profileID = st := by
  have hsame : ∀ t, revertEntity config (if profileID = "" then defaultProfile else profileID)
      st t = st := by
    intro t
    simp [revertEntity, honly _ hid]
  refine ⟨?_, by simp [revertProfile, hsame]⟩
  rintro rfl
  exact hid rfl

theorem doGenerateCsr_ok {profile' : CertzProfile} {suite : Option CsrSuite}
    {generated : Except Status String} (h : doGenerateCsr profile suite generated = .ok profile') :
    ∃ key, generated = .ok key ∧ profile' = { profile with generatedKey := some key } := by
  unfold doGenerateCsr at h
  cases suite with
  | none => cases h
  | some suite =>
    dsimp only at h
    split at h
    · cases h
    split at h
    · cases h
    cases generated with
    | error status => cases h
    | ok key =>
      cases h
      exact ⟨key, rfl, rfl⟩

section Rule

variable {Inv : CertzState → Prop} {ok : EntityMsg → Prop} {msg : EntityMsg}

/-- An upload is refused at once, or it takes a time stamp.  Then the entity is active already, or
it is saved, and activated if that went well. -/
theorem uploadEntity_keeps (Inv : CertzState → Prop) {profileID : String} (overwrite : Bool)
    (hst : Inv st)
    (hsave : ∀ eType time entity, msg.body.eType = some eType → time = st.clock + msg.elapsed + 1 →
      entity = newGenericEntity config eType profileID msg time →
      entity.eType = eType → entity.final = false → Inv { st with clock := time } ∧
        ∀ result fs, saveEntities config st.host.fs
            ((st.profiles.lookup profileID).bind (·.generatedKey)) msg entity = (result, fs) →
          (result = .ok () → Inv (activateEntity config
            { st with clock := time, host := { st.host with fs := fs } } profileID entity).2) ∧
          (result ≠ .ok () → Inv { st with clock := time, host := { st.host with fs := fs } })) :
    Inv (uploadEntity config st overwrite profileID msg).2 := by
  unfold uploadEntity
  split
  · exact hst
  split
  · exact hst
  split
  · exact hst
  rcases hbody : msg.body.eType with _ | eType
  · exact hst
  obtain ⟨htick, hsaved⟩ := hsave eType _ _ hbody rfl rfl (newGenericEntity_eType ..)
    (newGenericEntity_final ..)
  dsimp only
  split
  · exact htick
  rcases hresult : saveEntities config st.host.fs
    ((st.profiles.lookup profileID).bind (·.generatedKey)) msg
    (newGenericEntity config eType profileID msg (st.clock + msg.elapsed + 1)) with ⟨fault | done, fs⟩
  · exact (hsaved _ _ hresult).2 nofun
  have hactive := (hsaved _ _ hresult).1 rfl
  dsimp only
  split
  all_goals
    rename_i hactivate
    rw [hactivate] at hactive
    exact hactive

/-- The requests of a session keep a property of the state, as long as the uploads meet a
condition.  There is only the default profile. -/
structure KeptByRequests (config : CertzConfig) (ok : EntityMsg → Prop)
    (Inv : CertzState → Prop) : Prop where
  only : ∀ {st}, Inv st → ∀ id, id ≠ defaultProfile → st.profiles.lookup id = none
  found : ∀ {st}, Inv st → ∃ profile, st.profiles.lookup defaultProfile = some profile
  key : ∀ {st profile} key, Inv st → st.profiles.lookup defaultProfile = some profile →
    Inv { st with
      profiles := st.profiles.insert defaultProfile { profile with generatedKey := some key } }
  upload : ∀ {st msg} overwrite, Inv st → ok msg →
    Inv (uploadEntity config st overwrite defaultProfile msg).2

theorem KeptByRequests.uploadEntities (h : KeptByRequests config ok Inv) (hst : Inv st)
    (overwrite : Bool) {entities : List EntityMsg} (hmsgs : ∀ msg ∈ entities, ok msg) :
    Inv (uploadEntities config overwrite defaultProfile st entities).2 := by
  induction entities generalizing st with
  | nil => exact hst
  | cons msg rest ih =>
    have hstep := h.upload overwrite hst (hmsgs msg List.mem_cons_self)
    unfold Gnsi.uploadEntities
    rcases hresult : uploadEntity config st overwrite defaultProfile msg with ⟨fault | done, next⟩ <;>
      rw [hresult] at hstep
    · exact hstep
    · exact ih hstep fun other hother => hmsgs other (List.mem_cons_of_mem _ hother)

theorem KeptByRequests.processCertzRequest (h : KeptByRequests config ok Inv) (hst : Inv st)
    (profileID : String) (body : CertzBody) (overwrite : Bool)
    (hbody : ∀ entities, body = .certificates entities → ∀ msg ∈ entities, ok msg) :
    Inv (processCertzRequest config st profileID body overwrite).2 := by
  unfold Gnsi.processCertzRequest
  by_cases hid : profileID = defaultProfile
  · subst hid
    obtain ⟨profile, hfound⟩ := h.found hst
    rw [hfound]
    cases body with
    | generateCsr suite generated =>
      dsimp only
      rcases hcsr : doGenerateCsr profile suite generated with fault | keyed
      · exact hst
      · obtain ⟨key, -, rfl⟩ := doGenerateCsr_ok hcsr
        exact h.key key hst hfound
    | certificates entities =>
      cases entities with
      | nil => exact hst
      | cons msg rest => exact h.uploadEntities hst overwrite (hbody _ rfl)
    | other typeName => exact hst
  · rw [h.only hst profileID hid]
    exact hst

/-- A session ends in a state that has the property: with a panic, with a revert, or as a
Finalize there would end.  If this is for another profile, nothing has happened. -/
theorem KeptByRequests.certzLoop (h : KeptByRequests config ok Inv) (hst : Inv st)
    (profileId : String)
    {events : List CertzEvent} (hevents : ∀ event ∈ events, ∀ sslProfileId entities overwrite sendError,
      event = .request sslProfileId (.certificates entities) overwrite sendError →
      ∀ msg ∈ entities, ok msg) :
    ∃ last id, Inv last ∧ (id = defaultProfile ∨ profileId ≠ defaultProfile ∧ last = st) ∧
      ((∃ reason, certzLoop config profileId events st = (.crashed reason, last)) ∨
        (∃ status, certzLoop config profileId events st =
          (.failed status, revertProfile config last id)) ∨
        CertzEvent.finalizeRotation ∈ events ∧ certzLoop config profileId events st =
          certzLoop config id [.finalizeRotation] last) := by
  have hhere : ∀ id (st : CertzState), id = defaultProfile ∨ id ≠ defaultProfile ∧ st = st :=
    fun id st => (em (id = defaultProfile)).imp_right fun hne => ⟨hne, rfl⟩
  induction events generalizing st profileId with
  | nil => exact ⟨st, profileId, hst, hhere _ _, .inr (.inl ⟨_, rfl⟩)⟩
  | cons event rest ih =>
    cases event with
    | eof | recvError message => exact ⟨st, profileId, hst, hhere _ _, .inr (.inl ⟨_, rfl⟩)⟩
    | finalizeRotation =>
      exact ⟨st, profileId, hst, hhere _ _, .inr (.inr ⟨List.mem_cons_self, rfl⟩)⟩
    | request sslProfileId body overwrite sendError =>
      have hnext := h.processCertzRequest hst (sessionProfile profileId sslProfileId) body
        overwrite (by
          rintro entities rfl
          exact hevents _ List.mem_cons_self _ entities _ _ rfl)
      have hother : sessionProfile profileId sslProfileId = defaultProfile ∨
          profileId ≠ defaultProfile ∧ (Gnsi.processCertzRequest config st
            (sessionProfile profileId sslProfileId) body overwrite).2 = st := by
        by_cases hid : sessionProfile profileId sslProfileId = defaultProfile
        · exact .inl hid
        · refine .inr ⟨?_, by simp [Gnsi.processCertzRequest, h.only hst _ hid]⟩
          rintro rfl
          exact hid (if_pos (by decide))
      unfold Gnsi.certzLoop
      dsimp only
      rcases hresult : Gnsi.processCertzRequest config st
        (sessionProfile profileId sslProfileId) body overwrite with ⟨fault | done, next⟩ <;>
        rw [hresult] at hnext hother
      · refine ⟨next, _, hnext, hother, ?_⟩
        cases fault with
        | panic reason => exact .inl ⟨reason, rfl⟩
        | status status | plain text => exact .inr (.inl ⟨_, rfl⟩)
      · cases sendError with
        | some e => exact ⟨next, _, hnext, hother, .inr (.inl ⟨_, rfl⟩)⟩
        | none =>
          obtain ⟨last, id, hlast, hid, hend⟩ := ih hnext _ fun event hevent =>
            hevents event (List.mem_cons_of_mem _ hevent)
          refine ⟨last, id, hlast, ?_, hend.imp_right (.imp_right fun ⟨hmem, heq⟩ =>
            ⟨List.mem_cons_of_mem _ hmem, heq⟩)⟩
          rcases hid with hid | ⟨hne, hsame⟩
          · exact .inl hid
          · obtain ⟨hprofile, hstart⟩ := hother.resolve_left hne
            exact .inr ⟨hprofile, hsame.trans hstart⟩

end Rule

end SonicGnmi.Gnsi
