import SonicGnmi.Gnsi.AuthzServer

/-!
# What a failed rotation of the authorization policy leaves behind

A session without Finalize copies the backup over the policy file and writes the metadata
of the checkpoint to both tables.  This restores the metadata in memory.  It restores the
file if the backup is the one of this session or happens to have the same content; if
there is no backup, the file stays as the uploads have left it.  The tables are restored
if they agreed with the memory at the start.

* `replacements` — the policies that the uploads of a session put in place;
* `InAuthzSession` — what every state of a session has in common with its start;
* `authzRotate_unchanged_iff` — the failed sessions that leave nothing behind.
-/

namespace SonicGnmi.Gnsi

open Foundation Grpc FileSystem

/-! ## What is compared -/

/-- The tables of the metadata. -/
def authzTables : List String := ["AUTHZ_POLICY|p4rt", "AUTHZ_POLICY|gnxi"]

/-- A field of the metadata. -/
def AuthzMetadata.get (metadata : AuthzMetadata) : AuthzField → String
  | .version => metadata.authzVersion
  | .createdOn => metadata.authzCreatedOn

/-- A field of the metadata in a table. -/
def AuthzState.tableField (st : AuthzState) (table : String) (field : AuthzField) : Option String :=
  st.host.stateDb.content (credentialsTbl ++ "|" ++ table, field.text)

/-- Policy file, metadata and tables are the same. -/
structure AuthzUnchanged (config : AuthzConfig) (before after : AuthzState) : Prop where
  policy : after.host.fs.readFile config.authzPolicyFile =
    before.host.fs.readFile config.authzPolicyFile
  metadata : after.authzMetadata = before.authzMetadata
  tables : ∀ table ∈ authzTables, ∀ field,
    after.tableField table field = before.tableField table field

/-! ## The condition on the messages -/

section Messages

variable (config : AuthzConfig)

/-- The upload passes the checks. -/
def AuthzUpload.admitted (request : AuthzUpload) (forceOverwrite : Bool) (version : String) :
    Bool :=
  decide (request.policy ≠ "") && decide (request.version ≠ "") &&
    config.jsonValid request.policy && (decide (version ≠ request.version) || forceOverwrite)

/-- A field reaches both tables. -/
def TableFaults.written (faults : TableFaults) : Bool := faults.p4rt.isNone && faults.gnxi.isNone

/-- Both fields are written and the file is renamed. -/
def AuthzFaults.renamed (faults : AuthzFaults) : Bool :=
  faults.version.written && faults.createdOn.written && faults.beforeRename.isNone

/-- The policies that replace the policy file, in this order, in a session that starts with
a version. -/
def replacements : String → List AuthzEvent → List String
  | version, .request (.upload policyReq forceOverwrite) faults sendError :: rest =>
    if policyReq.admitted config forceOverwrite version && faults.renamed then
      policyReq.policy ::
        -- the session goes on after an upload that is confirmed
        (if faults.afterRename.isNone && sendError.isNone then
          replacements policyReq.version rest
        else [])
    else []
  | _, _ => []

/-- The copy of the policy file is in place. -/
def copied : Option CopyFault → Bool
  | some (.beforeRename _) => false
  | _ => true

end Messages

/-! ## The tables -/

section Tables

variable {st : AuthzState}

/-- The files and the checkpoint of the metadata are the same. -/
def SameFiles (st next : AuthzState) : Prop :=
  next.host.fs = st.host.fs ∧ next.authzMetadataCopy = st.authzMetadataCopy

variable (st : AuthzState)

theorem writeAuthzMetadataToDB_cases (fld : AuthzField) (val : String) (faults : TableFaults) :
    (faults.written = false ∧ ∃ e next,
      writeAuthzMetadataToDB st fld val faults = (.error e, next) ∧ SameFiles st next) ∨
    (faults.written = true ∧ ∃ next,
      writeAuthzMetadataToDB st fld val faults = (.ok (), next) ∧ SameFiles st next ∧
        next.authzMetadata = st.authzMetadata.set val fld) := by
  obtain ⟨p4rt, gnxi⟩ := faults
  cases p4rt with
  | some e => exact .inl ⟨rfl, e, _, rfl, rfl, rfl⟩
  | none =>
    cases gnxi with
    | some e => exact .inl ⟨rfl, e, _, rfl, rfl, rfl⟩
    | none => exact .inr ⟨rfl, _, rfl, ⟨rfl, rfl⟩, rfl⟩

/-- A write that succeeds sets the field in both tables. -/
theorem tableField_writeAuthzMetadataToDB (fld : AuthzField) (val : String)
    {table : String} (htable : table ∈ authzTables) (other : AuthzField) :
    (writeAuthzMetadataToDB st fld val {}).2.tableField table other =
      if other.text = fld.text then some val else st.tableField table other := by
  have hwrite : (writeAuthzMetadataToDB st fld val {}).2.host =
      (writeCredentialsMetadataToDB
        (writeCredentialsMetadataToDB st.host "AUTHZ_POLICY|p4rt" "" fld.text val none).2
        "AUTHZ_POLICY|gnxi" "" fld.text val none).2 := rfl
  unfold AuthzState.tableField
  rw [hwrite, content_writeCredentials, content_writeCredentials]
  by_cases hfield : other.text = fld.text
  · rw [if_pos hfield, hfield]
    rcases List.mem_cons.1 htable with rfl | hgnxi
    · rw [if_neg fun h => absurd (Prod.mk.inj h).1 (by decide), if_pos rfl]
    · rw [List.mem_singleton.1 hgnxi, if_pos rfl]
  · rw [if_neg hfield, if_neg fun h => hfield (Prod.mk.inj h).2,
      if_neg fun h => hfield (Prod.mk.inj h).2]

/-- The revert of the metadata writes the checkpoint to the tables and to the memory. -/
theorem revertAuthzFileFreshness_spec :
    (revertAuthzFileFreshness st).host.fs = st.host.fs ∧
      (revertAuthzFileFreshness st).authzMetadata = st.authzMetadataCopy ∧
      ∀ table ∈ authzTables, ∀ field, (revertAuthzFileFreshness st).tableField table field =
          some (st.authzMetadataCopy.get field) := by
  -- the writes of the revert have no faults
  obtain ⟨hwritten, -⟩ | ⟨-, first, hfirst, ⟨hfs, hcopy⟩, hversion⟩ :=
    writeAuthzMetadataToDB_cases st .version st.authzMetadataCopy.authzVersion {}
  · cases hwritten
  obtain ⟨hwritten, -⟩ | ⟨-, last, hlast, ⟨hfs', -⟩, hcreatedOn⟩ :=
    writeAuthzMetadataToDB_cases first .createdOn first.authzMetadataCopy.authzCreatedOn {}
  · cases hwritten
  have hrevert : revertAuthzFileFreshness st = last := by
    rw [revertAuthzFileFreshness, hfirst, hlast]
  rw [hrevert]
  refine ⟨hfs'.trans hfs, ?_, fun table htable field => ?_⟩
  · rw [hcreatedOn, hversion, hcopy]
    rfl
  have hsecond := tableField_writeAuthzMetadataToDB first .createdOn
    first.authzMetadataCopy.authzCreatedOn htable field
  rw [hlast] at hsecond
  have hold := tableField_writeAuthzMetadataToDB st .version
    st.authzMetadataCopy.authzVersion htable field
  rw [hfirst] at hold
  rw [hsecond, hold, hcopy]
  cases field with
  | version => rw [if_neg (by decide), if_pos rfl, AuthzMetadata.get]
  | createdOn => rw [if_pos rfl, AuthzMetadata.get]

end Tables

/-! ## States of a session -/

section Session

variable {config : AuthzConfig}

/-- A state of a session: the checkpoint of the metadata, the content of the policy file and
the backup. -/
structure InAuthzSession (config : AuthzConfig) (metadata : AuthzMetadata) (content : String)
    (backup : Option String) (st : AuthzState) : Prop where
  copy : st.authzMetadataCopy = metadata
  policy : st.host.fs.node (st.host.fs.loc config.authzPolicyFile) = some (.file content)
  backup : st.host.fs.node (st.host.fs.loc config.backup) = backup.map .file

theorem AuthzConfig.loc_backup_ne (config : AuthzConfig) (fs : FileSystem) :
    fs.loc config.backup ≠ fs.loc config.authzPolicyFile :=
  locate_append_ne fs.cwd config.authzPolicyFile (by decide) (by decide)

variable {metadata : AuthzMetadata} {content : String} {backup : Option String} {st : AuthzState}

section

variable (h : InAuthzSession config metadata content backup st)
include h

theorem InAuthzSession.of_sameFiles {next : AuthzState} (hsame : SameFiles st next) :
    InAuthzSession config metadata content backup next := by
  obtain ⟨hfs, hcopy⟩ := hsame
  refine ⟨hcopy.trans h.copy, ?_, ?_⟩ <;> rw [hfs]
  · exact h.policy
  · exact h.backup

theorem InAuthzSession.replace (policy : String) :
    InAuthzSession config metadata policy backup
      { st with host := { st.host with
        fs := st.host.fs.set (st.host.fs.loc config.authzPolicyFile) (some (.file policy)) } } := by
  refine ⟨h.copy, ?_, ?_⟩ <;> dsimp only
  · rw [loc_set, node_set, if_pos rfl]
  · rw [loc_set, node_set, if_neg (config.loc_backup_ne st.host.fs)]
    exact h.backup

/-- The checks are those of the message, since the policy file is there. -/
theorem checkAuthzUpload_ok_iff (policyReq : AuthzUpload) (forceOverwrite : Bool) :
    checkAuthzUpload config st policyReq forceOverwrite = .ok () ↔
      policyReq.admitted config forceOverwrite st.authzMetadata.authzVersion = true := by
  have hfile : fileCheck st.host.fs config.authzPolicyFile = .ok () := by
    rw [fileCheck, lstat, h.policy]
  unfold checkAuthzUpload AuthzUpload.admitted
  rw [hfile]
  by_cases hpolicy : policyReq.policy = ""
  · simp [hpolicy]
  by_cases hversion : policyReq.version = ""
  · simp [hpolicy, hversion]
  cases hvalid : config.jsonValid policyReq.policy with
  | false => simp [hpolicy, hversion]
  | true =>
    cases forceOverwrite with
    | false =>
      by_cases hsame : st.authzMetadata.authzVersion = policyReq.version
      all_goals simp [hpolicy, hversion, hsame]
    | true => simp [hpolicy, hversion]

/-- An upload fails and leaves the policy file alone, or it replaces the policy file; then
only the change of its mode can fail. -/
theorem InAuthzSession.process
    (policyReq : AuthzUpload) (forceOverwrite : Bool) (faults : AuthzFaults) :
    ((policyReq.admitted config forceOverwrite st.authzMetadata.authzVersion &&
        faults.renamed) = false ∧ ∃ e next,
      processAuthzRequest config st (.upload policyReq forceOverwrite) faults = (.error e, next) ∧
        InAuthzSession config metadata content backup next) ∨
    ((policyReq.admitted config forceOverwrite st.authzMetadata.authzVersion &&
        faults.renamed) = true ∧
      ∃ next, InAuthzSession config metadata policyReq.policy backup next ∧
      ((∃ e, faults.afterRename = some e ∧
          processAuthzRequest config st (.upload policyReq forceOverwrite) faults =
            (.error ⟨.aborted, e⟩, next)) ∨
        (faults.afterRename = none ∧ next.authzMetadata.authzVersion = policyReq.version ∧
          processAuthzRequest config st (.upload policyReq forceOverwrite) faults =
            (.ok (), next)))) := by
  have hadmitted := checkAuthzUpload_ok_iff h policyReq forceOverwrite
  rw [processAuthzRequest]
  cases hcheck : checkAuthzUpload config st policyReq forceOverwrite with
  | error e =>
    rw [hcheck] at hadmitted
    refine .inl ⟨?_, e, st, rfl, h⟩
    rw [Bool.eq_false_iff.2 fun hall => (nomatch hadmitted.2 hall), Bool.false_and]
  | ok accepted =>
    rw [hadmitted.1 hcheck, Bool.true_and, AuthzFaults.renamed]
    obtain ⟨hfault, e, next, hwrite, hsame⟩ | ⟨hwritten, first, hwrite, hsame, hversion⟩ :=
      writeAuthzMetadataToDB_cases st .version policyReq.version faults.version
    · rw [hfault, hwrite]
      exact .inl ⟨rfl, _, next, rfl, h.of_sameFiles hsame⟩
    have hfirst := h.of_sameFiles hsame
    rw [hwritten, hwrite]
    dsimp only
    obtain ⟨hfault, e, next, hwrite, hsame⟩ | ⟨hwritten, second, hwrite, hsame, hcreatedOn⟩ :=
      writeAuthzMetadataToDB_cases first .createdOn (toString policyReq.createdOn.toNat)
        faults.createdOn
    · rw [hfault, hwrite]
      exact .inl ⟨rfl, _, next, rfl, hfirst.of_sameFiles hsame⟩
    have hsecond := hfirst.of_sameFiles hsame
    rw [hwritten, hwrite]
    unfold saveToAuthzFile
    cases hbefore : faults.beforeRename with
    | some e => exact .inl ⟨rfl, _, second, rfl, hsecond⟩
    | none =>
      refine .inr ⟨rfl, _, hsecond.replace policyReq.policy, ?_⟩
      cases hafter : faults.afterRename with
      | some e => exact .inl ⟨e, rfl, rfl⟩
      | none =>
        refine .inr ⟨rfl, ?_, rfl⟩
        rw [hcreatedOn, hversion]
        rfl

end

/-- A session that fails ends with a revert, and the policy file then has the content of the
last upload that replaced it. -/
theorem authzLoop_failed (events : List AuthzEvent) :
    ∀ {content : String} {st : AuthzState}, InAuthzSession config metadata content backup st →
      ∀ {e : Status} {after : AuthzState}, authzLoop config events st = (.error e, after) →
        ∃ last, after = revertAuthz config last ∧ InAuthzSession config metadata
            ((replacements config st.authzMetadata.authzVersion events).getLastD content) backup
            last := by
  induction events with
  | nil =>
    intro content st h e after hloop
    cases hloop
    exact ⟨st, rfl, h⟩
  | cons event rest ih =>
    intro content st h e after hloop
    cases event with
    | eof | recvError message =>
      cases hloop
      exact ⟨st, rfl, h⟩
    | request req faults sendError =>
      cases req with
      | finalizeRotation => cases hloop
      | empty =>
        cases hloop
        exact ⟨st, rfl, h⟩
      | upload policyReq forceOverwrite =>
        simp only [authzLoop] at hloop
        rw [replacements]
        obtain ⟨hkept, e', next, hprocess, hnext⟩ |
          ⟨hreplaced, next, hnext, ⟨e', hafter, hprocess⟩ | ⟨hafter, hversion, hprocess⟩⟩ :=
          h.process policyReq forceOverwrite faults <;> rw [hprocess] at hloop
        · cases hloop
          rw [hkept]
          exact ⟨next, rfl, hnext⟩
        · cases hloop
          rw [if_pos hreplaced, hafter]
          exact ⟨next, rfl, hnext⟩
        · rw [if_pos hreplaced, hafter, List.getLastD_cons]
          cases sendError with
          | some message =>
            cases hloop
            exact ⟨next, rfl, hnext⟩
          | none =>
            rw [← hversion]
            exact ih hnext hloop

/-- The backup, if there is one, is copied over the policy file. -/
theorem InAuthzSession.revert (h : InAuthzSession config metadata content backup st) :
    (revertAuthz config st).host.fs.readFile config.authzPolicyFile = .ok (backup.getD content) ∧
      (revertAuthz config st).authzMetadata = metadata ∧
      ∀ table ∈ authzTables, ∀ field,
        (revertAuthz config st).tableField table field = some (metadata.get field) := by
  have hcopied : ∃ next, revertAuthz config st = revertAuthzFileFreshness next ∧
      InAuthzSession config metadata (backup.getD content) backup next := by
    rw [revertAuthz, copyFile]
    cases backup with
    | none =>
      have hread : st.host.fs.readFile config.backup =
          .error ("open " ++ config.backup ++ ": no such file or directory") := by
        have hfollow : st.host.fs.follow config.backup = some (st.host.fs.loc config.backup) := by
          refine follow_of_not_link fun target => ?_
          rw [h.backup]
          nofun
        rw [readFile, hfollow]
        dsimp only
        rw [h.backup]
        rfl
      rw [hread]
      exact ⟨st, rfl, h⟩
    | some old =>
      rw [readFile_of_file h.backup]
      exact ⟨_, rfl, h.replace old⟩
  obtain ⟨next, hrevert, hnext⟩ := hcopied
  obtain ⟨hfs, hmetadata, htables⟩ := revertAuthzFileFreshness_spec next
  rw [hnext.copy] at hmetadata htables
  rw [hrevert, hfs]
  exact ⟨readFile_of_file hnext.policy, hmetadata, htables⟩

theorem inAuthzSession_checkpoint
    (hpolicy : st.host.fs.node (st.host.fs.loc config.authzPolicyFile) = some (.file content))
    (hbackup : st.host.fs.node (st.host.fs.loc config.backup) = backup.map .file)
    (copyFault : Option CopyFault) :
    InAuthzSession config st.authzMetadata content
      (if copied copyFault then some content else backup)
      (checkpointAuthz config st copyFault) := by
  have hstart : InAuthzSession config st.authzMetadata content backup
      { st with authzMetadataCopy := st.authzMetadata } := ⟨rfl, hpolicy, hbackup⟩
  have hcopy : InAuthzSession config st.authzMetadata content (some content)
      { st with
        authzMetadataCopy := st.authzMetadata
        host := { st.host with
          fs := st.host.fs.set (st.host.fs.loc config.backup) (some (.file content)) } } := by
    refine ⟨rfl, ?_, ?_⟩ <;> dsimp only
    · rw [loc_set, node_set, if_neg (config.loc_backup_ne st.host.fs).symm]
      exact hpolicy
    · rw [loc_set, node_set, if_pos rfl]
      rfl
  unfold checkpointAuthz copyFile
  dsimp only
  rw [readFile_of_file hpolicy]
  cases copyFault with
  | none => exact hcopy
  | some fault =>
    cases fault with
    | beforeRename e => exact hstart
    | afterRename e => exact hcopy

end Session

/-! ## Failed sessions -/

/-- The tables have the metadata of the memory. -/
def TablesAgree (st : AuthzState) : Prop :=
  ∀ table ∈ authzTables, ∀ field, st.tableField table field = some (st.authzMetadata.get field)

/-- The policy file is restored: its copy was made; or there was one with the same content
already; or there is none, and the uploads leave this content. -/
def PolicyRestored (config : AuthzConfig) (st : AuthzState) (copyFault : Option CopyFault)
    (events : List AuthzEvent) (content : String) (backup : Option String) : Prop :=
  copied copyFault = true ∨ backup = some content ∨
    (backup = none ∧
      (replacements config st.authzMetadata.authzVersion events).getLastD content = content)

/-- The sessions without Finalize that leave nothing behind. -/
theorem authzRotate_unchanged_iff (config : AuthzConfig) (locked : Bool)
    (copyFault : Option CopyFault) (events : List AuthzEvent) (st after : AuthzState)
    (content : String) (backup : Option String) (e : Status)
    (hpolicy : st.host.fs.node (st.host.fs.loc config.authzPolicyFile) = some (.file content))
    (hbackup : st.host.fs.node (st.host.fs.loc config.backup) = backup.map .file)
    (hfailed : authzRotate config locked copyFault events st = (.error e, after)) :
    AuthzUnchanged config st after ↔
      locked = true ∨
        (TablesAgree st ∧ PolicyRestored config st copyFault events content backup) := by
  rw [authzRotate] at hfailed
  cases locked with
  | true =>
    cases hfailed
    exact ⟨fun _ => .inl rfl, fun _ => ⟨rfl, rfl, fun _ _ _ => rfl⟩⟩
  | false =>
    have hversion : (checkpointAuthz config st copyFault).authzMetadata = st.authzMetadata := by
      unfold checkpointAuthz
      dsimp only
      split
      · rfl
      · split <;> rfl
    obtain ⟨last, hlast, hsession⟩ := authzLoop_failed events
      (inAuthzSession_checkpoint hpolicy hbackup copyFault) hfailed
    obtain ⟨hread, hmetadata, htables⟩ := hsession.revert
    rw [← hlast] at hread hmetadata htables
    rw [hversion] at hread
    have hfile : after.host.fs.readFile config.authzPolicyFile =
        st.host.fs.readFile config.authzPolicyFile ↔
          PolicyRestored config st copyFault events content backup := by
      rw [hread, FileSystem.readFile_of_file hpolicy, Except.ok.injEq, PolicyRestored]
      cases copied copyFault with
      | true => simp
      | false => cases backup <;> simp
    have hagree : (∀ table ∈ authzTables, ∀ field,
        after.tableField table field = st.tableField table field) ↔ TablesAgree st := by
      refine forall₂_congr fun table htable => forall_congr' fun field => ?_
      rw [htables table htable field]
      exact eq_comm
    constructor
    · intro h
      exact .inr ⟨hagree.1 h.tables, hfile.1 h.policy⟩
    · rintro (hlocked | ⟨htables, hrestored⟩)
      · cases hlocked
      · exact ⟨hfile.2 hrestored, hmetadata, hagree.2 htables⟩

/-! ## Two sessions -/

def sampleAuthz : AuthzConfig where
  authzPolicyFile := "/keys/authz_policy"
  authzMetaFile := "/keys/authz_meta"
  jsonValid := fun _ => true
  encode := fun metadata => metadata.authzVersion

def sampleAuthzState : AuthzState :=
  revertAuthzFileFreshness
    { host := { fs := FileSystem.set {} ["keys", "authz_policy"] (some (.file "old")) } }

def uploadAuthz : List AuthzEvent :=
  [.request (.upload { version := "2", createdOn := 7, policy := "new" } false) {} none, .eof]

theorem authzRotate_unchanged_copied :
    ∃ e after, authzRotate sampleAuthz false none uploadAuthz sampleAuthzState = (.error e, after) ∧
      AuthzUnchanged sampleAuthz sampleAuthzState after := by
  refine ⟨_, _, rfl, ?_⟩
  refine (authzRotate_unchanged_iff sampleAuthz false none uploadAuthz sampleAuthzState _ "old" none
    _ (by decide +kernel) (by decide +kernel) rfl).2 (.inr ⟨?_, .inl rfl⟩)
  exact (revertAuthzFileFreshness_spec _).2.2

def staleAuthzState : AuthzState :=
  { sampleAuthzState with
    host := { sampleAuthzState.host with
      fs := sampleAuthzState.host.fs.set ["keys", "authz_policy.bak"] (some (.file "older")) } }

def noSpace : Option CopyFault := some (.beforeRename "no space left on device")

/-- If the copy fails, the session leaves the new policy in place.  If there is an old
backup, then even a session without an upload puts it in place. -/
theorem authzRotate_changes_policy :
    ¬ AuthzUnchanged sampleAuthz sampleAuthzState
        (authzRotate sampleAuthz false noSpace uploadAuthz sampleAuthzState).2 ∧
      ¬ AuthzUnchanged sampleAuthz staleAuthzState
        (authzRotate sampleAuthz false noSpace [] staleAuthzState).2 := by
  have hnew : (authzRotate sampleAuthz false noSpace uploadAuthz
      sampleAuthzState).2.host.fs.readFile "/keys/authz_policy" = .ok "new" := by decide +kernel
  have holder : (authzRotate sampleAuthz false noSpace []
      staleAuthzState).2.host.fs.readFile "/keys/authz_policy" = .ok "older" := by decide +kernel
  constructor <;> intro h
  · exact absurd (hnew.symm.trans h.policy) (by decide +kernel)
  · exact absurd (holder.symm.trans h.policy) (by decide +kernel)

end SonicGnmi.Gnsi
