import SonicGnmi.Gnoi.Device

/-!
# Calls of a peer that may only read

Every handler asks `authenticate` for read access, so a peer whose role is `gnoi_readonly`
passes and changes the device.  What keeps the device as it is are the other checks of
the handlers: a call that one of them rejects before its first change has no effect.

* `Services.rejects` — the checks, on the request and the state before the call;
* `rejected_run_unchanged` — a run of rejected calls leaves the device as it is;
* `readonly_peer_changes_device` — a peer that may only read removes a file and replaces a
  policy.
-/

namespace SonicGnmi.Gnoi

open Foundation Grpc GnmiServer Gnsi Device.Same Services

/-! ## The checks -/

/-- No session has left an entity of a profile unfinished. -/
def settled (st : CertzState) (profileID : String) : Bool :=
  match st.profiles.lookup profileID with
  | none => true
  | some profile =>
    [CertzType.cert, .trustBundle, .crl, .authPolicy].all fun eType =>
      (profile.active.get eType).final

/-- The checks of an entity before it is saved. -/
def rejectsEntity (config : CertzConfig) (msg : EntityMsg) : Bool :=
  msg.createdOn = 0 || msg.version = "" || msg.body.eType.isNone ||
    (msg.body.eType = some .crl && config.certCRLConfig = "")

/-- The checks of a certificate request. -/
def rejectsBody (config : CertzConfig) (profile : CertzProfile) : CertzBody → Bool
  | .generateCsr suite generated => !(doGenerateCsr profile suite generated).isOk
  | .certificates [] => true
  | .certificates (msg :: _) => rejectsEntity config msg
  | .other _ => true

/-- A rotation of certificates that ends with its first event, and has nothing to
revert. -/
def rejectsCertz (config : CertzConfig) (st : CertzState) : List CertzEvent → Bool
  | [] | .eof :: _ | .recvError _ :: _ => settled st defaultProfile
  | .finalizeRotation :: _ => (st.profiles.lookup "").isNone
  | .request sslProfileId body _ _ :: _ =>
    match st.profiles.lookup (sessionProfile "" sslProfileId) with
    | none => true
    | some profile =>
      settled st (sessionProfile "" sslProfileId) && rejectsBody config profile body

/-- An installation that ends before a chunk is written or an image removed. -/
def rejectsInstall (config : OsConfig) (st : OsState) (events : List InstallEvent) : Bool :=
  match installStart config events with
  | .done _ _ => true
  | .transfer _ version rest =>
    match rest with
    | .message (.transferRequest _) _ _ :: _ => true
    | .message .transferEnd _ _ :: _ => !imageExists st (config.getVersionPath version)
    | .message _ _ _ :: _ => imageExists st (config.getVersionPath version)
    | _ => true

/-- The other call holds the lock. -/
def InstallLock.isHeld : InstallLock → Bool
  | .held _ => true
  | .free => false

/-- The checks that a call fails before its first change. -/
def Services.rejects (services : Services) (incoming : Incoming) (d : Device) : Rpc → Bool
  | .certzRotate events => d.locks.certz || rejectsCertz services.certz d.certzState events
  | .pathzRotate _ _ =>
    d.locks.pathz || !(fileCheck d.host.fs services.pathz.pathzPolicyFile).isOk
  | .authzRotate _ _ => d.locks.authz
  | .osInstall events => d.locks.install.isHeld || rejectsInstall services.os d.osState events
  | .filePut events _ => !(putTarget events).isOk
  | .fileRemove request =>
    match removeTarget request with
    | .error _ => true
    | .ok remoteFile =>
      (d.host.fs.node (d.host.fs.loc (services.files.translatePathForContainer remoteFile))).isNone
  | .transferToRemote request _ _ =>
    (dpuIndex incoming.metadata).isSome || !(transferTarget request).isOk

/-! ## Certificates -/

variable {config : CertzConfig} {profileID : String} {st : CertzState}

theorem revertEntity_of_final {eType : CertzType} (h : settled st profileID = true) :
    revertEntity config profileID st eType = st := by
  rw [settled] at h
  rw [revertEntity]
  cases hlookup : st.profiles.lookup profileID with
  | none => rfl
  | some profile =>
    rw [hlookup] at h
    have hfinal : (profile.active.get eType).final = true := by
      rw [List.all_eq_true] at h
      exact h eType (by cases eType <;> decide)
    simp [hfinal]

theorem revertProfile_of_settled
    (h : settled st (if profileID = "" then defaultProfile else profileID) = true) :
    revertProfile config st profileID = st := by
  simp [revertProfile, revertEntity_of_final h]

theorem sessionProfile_ne_empty (sslProfileId : String) : sessionProfile "" sslProfileId ≠ "" := by
  unfold sessionProfile
  split_ifs
  · assumption
  · assumption
  · decide

theorem uploadEntity_rejected (st : CertzState) (overwrite : Bool)
    (profileID : String) {msg : EntityMsg} (h : rejectsEntity config msg = true) :
    ∃ fault, uploadEntity config st overwrite profileID msg = (.error fault, st) := by
  simp only [rejectsEntity, Bool.or_eq_true, Bool.and_eq_true, decide_eq_true_eq] at h
  unfold uploadEntity
  split_ifs with hcreated hversion hcrl
  · exact ⟨_, rfl⟩
  · exact ⟨_, rfl⟩
  · exact ⟨_, rfl⟩
  all_goals
    have hnone : msg.body.eType.isNone = true := by
      simpa only [hcreated, hversion, hcrl, false_or, or_false] using h
    rw [Option.isNone_iff_eq_none.1 hnone]
    exact ⟨_, rfl⟩

theorem processCertzRequest_rejected {profile : CertzProfile} {body : CertzBody} (overwrite : Bool)
    (hlookup : st.profiles.lookup profileID = some profile)
    (h : rejectsBody config profile body = true) :
    ∃ fault, processCertzRequest config st profileID body overwrite = (.error fault, st) := by
  rw [processCertzRequest, hlookup]
  cases body with
  | generateCsr suite generated =>
    cases hcsr : doGenerateCsr profile suite generated with
    | error fault => exact ⟨fault, by simp [hcsr]⟩
    | ok generatedProfile =>
      rw [rejectsBody, hcsr] at h
      cases h
  | certificates entities =>
    cases entities with
    | nil => exact ⟨_, rfl⟩
    | cons msg rest =>
      obtain ⟨fault, hupload⟩ := uploadEntity_rejected st overwrite profileID h
      exact ⟨fault, by simp [doUpload, uploadEntities, hupload]⟩
  | other typeName => exact ⟨_, rfl⟩

/-- A session whose first event is rejected leaves everything as it is. -/
theorem certzLoop_rejected {events : List CertzEvent}
    (h : rejectsCertz config st events = true) : (certzLoop config "" events st).2 = st := by
  have hdefault (hsettled : settled st defaultProfile = true) : revertProfile config st "" = st :=
    revertProfile_of_settled hsettled
  rcases events with _ | ⟨event, rest⟩
  · exact hdefault h
  cases event with
  | eof | recvError message => exact hdefault h
  | finalizeRotation =>
    have hnone : st.profiles.lookup "" = none := Option.isNone_iff_eq_none.1 h
    simp only [certzLoop, finalizeProfile, hnone]
    rfl
  | request sslProfileId body overwrite sendError =>
    have hfault : ∃ fault, processCertzRequest config st (sessionProfile "" sslProfileId) body
        overwrite = (.error fault, st) ∧ settled st (sessionProfile "" sslProfileId) = true := by
      rw [rejectsCertz] at h
      cases hlookup : st.profiles.lookup (sessionProfile "" sslProfileId) with
      | none =>
        refine ⟨_, by rw [processCertzRequest, hlookup]; rfl, ?_⟩
        rw [settled, hlookup]
      | some profile =>
        rw [hlookup, Bool.and_eq_true] at h
        obtain ⟨fault, hprocess⟩ := processCertzRequest_rejected overwrite hlookup h.2
        exact ⟨fault, hprocess, h.1⟩
    obtain ⟨fault, hprocess, hsettled⟩ := hfault
    simp only [certzLoop, hprocess]
    cases fault with
    | panic reason => rfl
    | status status | plain text =>
      refine revertProfile_of_settled ?_
      rw [if_neg (sessionProfile_ne_empty sslProfileId)]
      exact hsettled

/-! ## Images -/

theorem removeIncompleteTransfer_of_absent {st : OsState} {imgPath : String}
    (h : imageExists st imgPath = false) : removeIncompleteTransfer st imgPath = st := by
  rw [removeIncompleteTransfer, h]
  rfl

theorem installEnd_of_absent {config : OsConfig} {imgPath : String} (answer : BackendAnswer)
    (sendError : Option String) {st : OsState} (h : imageExists st imgPath = false) :
    (installEnd config imgPath answer sendError st).state = st := by
  unfold installEnd
  cases sendError with
  | some e => exact removeIncompleteTransfer_of_absent h
  | none =>
    dsimp only
    split
    · exact removeIncompleteTransfer_of_absent h
    · rfl

/-- A transfer that is rejected at its second message has no effect. -/
theorem install_rejected {config : OsConfig} {st : OsState} {events : List InstallEvent}
    (h : rejectsInstall config st events = true) : (install config .free events st).state = st := by
  rw [rejectsInstall] at h
  rw [install]
  cases hstart : installStart config events with
  | done sent result => rfl
  | transfer sent version rest =>
    rw [hstart] at h
    -- no chunk is processed, so the deferred removal is not armed
    have hloop : installLoop config (config.getVersionPath version) rest false st =
        (false, (installLoop config (config.getVersionPath version) rest false st).2) ∧
          (installLoop config (config.getVersionPath version) rest false st).2.state = st := by
      rcases rest with _ | ⟨event, rest⟩
      · exact ⟨rfl, rfl⟩
      cases event with
      | eof | recvError message => exact ⟨rfl, rfl⟩
      | message request answer sendError =>
        cases request with
        | transferRequest version' => exact ⟨rfl, rfl⟩
        | transferEnd =>
          rw [Bool.not_eq_true'] at h
          exact ⟨rfl, installEnd_of_absent answer sendError h⟩
        | transferContent content | empty =>
          simp [installLoop, h]
    dsimp only
    rw [hloop.1]
    exact hloop.2

/-! ## One call, and a run -/

section

variable (services : Services) (incoming : Incoming)

theorem Device.same_setFiles {d : Device} {files : FileState} (h : files = d.files) :
    d.Same (d.setFiles files) := by
  subst h
  exact refl d

theorem handle_rejected (d : Device) (rpc : Rpc) (h : services.rejects incoming d rpc = true) :
    d.Same (services.handle incoming d rpc) := by
  cases rpc with
  | certzRotate events =>
    have hstate : (certzRotate services.certz d.locks.certz events d.certzState).2 =
        d.certzState := by
      rw [certzRotate]
      split
      · rfl
      · rename_i hlock
        refine certzLoop_rejected ?_
        rw [rejects, Bool.or_eq_true] at h
        exact h.resolve_left hlock
    rw [handle]
    split <;> rename_i heq <;> rw [heq] at hstate <;> subst hstate <;>
      exact ⟨fun _ => rfl, rfl, rfl, rfl⟩
  | pathzRotate checkpointError events =>
    have hstate : (pathzRotate services.pathz d.locks.pathz checkpointError events
        { srv := d.pathz, host := d.host }).2 = { srv := d.pathz, host := d.host } := by
      rw [pathzRotate]
      split
      · rfl
      rename_i hlock
      rw [rejects, Bool.or_eq_true] at h
      have hcheck := h.resolve_left hlock
      split
      · rfl
      · rename_i hok
        rw [hok] at hcheck
        cases hcheck
    rw [handle, hstate]
    exact refl d
  | authzRotate copyFault events =>
    have hlock : d.locks.authz = true := h
    rw [handle, authzRotate, if_pos hlock]
    exact refl d
  | osInstall events =>
    have hstate : (install services.os d.locks.install events d.osState).state = d.osState := by
      rw [rejects, Bool.or_eq_true] at h
      cases hlock : d.locks.install with
      | held sendError => cases sendError <;> rfl
      | free =>
        rw [hlock] at h
        exact install_rejected (h.resolve_left (by decide))
    rw [handle, hstate]
    exact refl d
  | filePut events sendError =>
    refine Device.same_setFiles ?_
    rw [rejects] at h
    cases htarget : putTarget events with
    | error e => simp only [FileEnv.handlePut, htarget]
    | ok target =>
      rw [htarget] at h
      cases h
  | fileRemove request =>
    refine Device.same_setFiles ?_
    rw [rejects] at h
    cases htarget : removeTarget request with
    | error e => rw [FileEnv.handleFileRemove, htarget]
    | ok remoteFile =>
      rw [htarget] at h
      have hnone : d.files.fs.node (d.files.fs.loc
          (services.files.translatePathForContainer remoteFile)) = none :=
        Option.isNone_iff_eq_none.1 h
      simp [FileEnv.handleFileRemove, htarget, FileState.remove, FileSystem.remove, hnone]
  | transferToRemote request http dpu =>
    refine Device.same_setFiles ?_
    rw [rejects, Bool.or_eq_true] at h
    rw [FileEnv.handleTransferToRemote]
    cases hdpu : dpuIndex incoming.metadata with
    | some index =>
      dsimp only
      split <;> rfl
    | none =>
      rw [hdpu] at h
      cases htarget : transferTarget request with
      | error e => simp only [FileEnv.handleTransferToRemoteLocal, htarget]
      | ok target =>
        rw [htarget] at h
        rcases h with h | h <;> cases h

/-- The condition on a run: before each call the server is down, or `authenticate` refuses
the peer, or a check of the handler rejects the call. -/
def Services.Rejects (d : Device) : List Rpc → Prop
  | [] => True
  | rpc :: rest =>
    (d.crashed = true ∨ (authenticate services.auth services.config incoming.context "gnoi" false
        d.store).1.isOk = false ∨
      services.rejects incoming d rpc = true) ∧
    Rejects (services.serve incoming d rpc) rest

theorem serve_rejected (d : Device) (rpc : Rpc) (h : d.crashed = true ∨
      (authenticate services.auth services.config incoming.context "gnoi" false
        d.store).1.isOk = false ∨
      services.rejects incoming d rpc = true) : d.Same (services.serve incoming d rpc) := by
  rw [serve]
  split
  · exact refl d
  rename_i hrunning
  split
  · exact ⟨fun _ => rfl, rfl, rfl, rfl⟩
  rename_i ctx store hauth
  rcases h with h | h | h
  · exact absurd h hrunning
  · rw [hauth] at h
    cases h
  have hchecks : services.rejects incoming { d with store := store } rpc =
      services.rejects incoming d rpc := by cases rpc <;> rfl
  rw [← hchecks] at h
  have hstore : d.Same { d with store := store } := ⟨fun _ => rfl, rfl, rfl, rfl⟩
  exact hstore.trans (handle_rejected services incoming _ rpc h)

/-- A run of calls each of which is refused or rejected leaves the credentials, the
policies and the files of the device as they were. -/
theorem rejected_run_unchanged (d : Device) (rpcs : List Rpc)
    (h : services.Rejects incoming d rpcs) : d.Same (services.run incoming d rpcs) := by
  induction rpcs generalizing d with
  | nil => exact Device.Same.refl d
  | cons rpc rest ih =>
    exact (serve_rejected services incoming d rpc h.1).trans (ih _ h.2)

end

/-! ## A peer with the role `gnoi_readonly` -/

def viewerBackend : AuthBackend where
  userRoles := fun _ => none
  userPwAuth := fun _ _ => false
  parseWithClaims := fun _ => .error "token is malformed"
  getEntry := fun _ key =>
    if key = "viewer" then AList.singleton "role@" "gnoi_readonly" else ∅
  verifyCertCrl := fun _ => .ok ()

def viewerServices : Services where
  auth := viewerBackend
  config := { userAuth := AList.singleton "cert" true, configTableName := "GNMI_CLIENT_CERT" }
  certz :=
    { srvCertLnk := "/keys/server_cert.lnk"
      srvKeyLnk := "/keys/server_key.lnk"
      caCertLnk := "/keys/ca_cert.lnk"
      certCRLConfig := "/keys/crls"
      fedPolicyFile := "/keys/policy.json"
      certzMetaFile := "/keys/certz.json"
      marshal := fun _ => ""
      parseCrl := fun _ => .valid }
  pathz :=
    { pathzPolicyFile := "/keys/pathz_policy"
      pathzMetaFile := "/keys/pathz_meta"
      marshalTextString := fun _ => ""
      encode := fun metadata => metadata.pathzVersion }
  authz :=
    { authzPolicyFile := "/keys/authz_policy"
      authzMetaFile := "/keys/authz_meta"
      jsonValid := fun _ => true
      encode := fun metadata => metadata.authzVersion }
  files := { md5 := fun content => content }
  os := { imgDir := "/tmp", reqStr := fun _ => "" }

def viewer : Incoming where
  peer := some
    { addr := some (.tcp "10.0.0.3:4000")
      tls := some { verifiedChains := [[{ commonName := "viewer" }]] } }

def imageDevice : Device where
  host :=
    { fs :=
        { node := fun loc =>
            if loc = ["tmp", "image.bin"] then some (.file "image")
            else if loc = ["keys", "authz_policy"] then some (.file "deny") else none } }

def rejectedCalls : List Rpc :=
  [.fileRemove (some "/keys/authz_policy"), .fileRemove (some "/tmp/other.bin"),
    .filePut [.message (.openFile "/keys/authz_policy" 0)] none, .certzRotate [],
    .pathzRotate none [], .osInstall [.message (.transferRequest "") (.unimplemented "") none]]

theorem rejected_run_unchanged_viewer :
    imageDevice.Same (viewerServices.run viewer imageDevice rejectedCalls) := by
  refine rejected_run_unchanged viewerServices viewer imageDevice rejectedCalls ?_
  refine ⟨.inr (.inr ?_), .inr (.inr ?_), .inr (.inr ?_), .inr (.inr ?_), .inr (.inr ?_),
    .inr (.inr ?_), trivial⟩
  all_goals decide +kernel

def replacePolicy : List AuthzEvent :=
  [.request (.upload { version := "2", policy := "allow" } false) {} none,
    .request .finalizeRotation {} none]

/-- The peer is denied write access, and still it removes a file and replaces the
authorization policy. -/
theorem readonly_peer_changes_device :
    (authenticate viewerServices.auth viewerServices.config viewer.context "gnoi" true
      imageDevice.store).1.isOk = false ∧
    ¬ imageDevice.Same
      (viewerServices.run viewer imageDevice [.fileRemove (some "/tmp/image.bin")]) ∧
    (viewerServices.run viewer imageDevice [.authzRotate none replacePolicy]).host.fs.node
      ["keys", "authz_policy"] = some (.file "allow") := by
  refine ⟨by decide +kernel, fun h => ?_, by decide +kernel⟩
  have hgone : (viewerServices.run viewer imageDevice
      [.fileRemove (some "/tmp/image.bin")]).host.fs.node ["tmp", "image.bin"] = none := by
    decide +kernel
  rw [h.fs] at hgone
  exact absurd hgone (by decide +kernel)

end SonicGnmi.Gnoi
