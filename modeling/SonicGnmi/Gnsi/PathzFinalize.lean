import SonicGnmi.Gnsi.PathzRevert

/-!
# What a finalized rotation of the path policy leaves behind

After a Finalize, the policy of the processor, the policy file, the metadata in memory, in
the database and in its file should all be those of the last upload, no backup should be
left, and a server that starts from these files should decide as this one does.

This is so unless the metadata path leads to the policy file or to its backup, or the
removal of the backup fails, which nobody notices.

* `newGNSIPathzServer` — the start of a server;
* `PathzConsistent` — what a finalized session should leave behind;
* `InRotation` — the states of a session that goes on, with the last upload;
* `pathzRotate_consistent_iff` — the finalized sessions that do this.
-/

namespace SonicGnmi.Gnsi

open Foundation Grpc Pathz Gnmi FileSystem

/-! ## The start of a server -/

/-- The decoders that a start uses. -/
structure PathzLoader where
  /-- `proto.UnmarshalText`. -/
  unmarshalText : String → Except String AuthorizationPolicy
  /-- `json.Unmarshal` into a record; an error leaves whatever it leaves. -/
  unmarshalMetadata : String → PathzMetadata → PathzMetadata

def updatePolicyFromFile (loader : PathzLoader) (processor : GnmiAuthzProcessor) (fs : FileSystem)
    (policyFile : String) : Except String GnmiAuthzProcessor :=
  match fs.readFile policyFile with
  | .error e => .error e
  | .ok content =>
    match loader.unmarshalText content with
    | .error e => .error e
    | .ok policy => processor.updatePolicyFromProto (some policy)

/-- `loadPathzFreshness`, whose error is only logged. -/
def loadPathzFreshness (loader : PathzLoader) (fs : FileSystem) (path : String) : PathzMetadata :=
  match fs.readFile path with
  | .error _ => {}
  | .ok content => loader.unmarshalMetadata content {}

/-- A server with its metadata and without a policy. -/
def PathzState.fresh (metadata : PathzMetadata) (host : Host) : PathzState where
  srv := { records := fun _ => metadata }
  host := host

/-- `NewGNSIPathzServer`; errors are only logged. -/
def newGNSIPathzServer (config : PathzConfig) (loader : PathzLoader) (pathzPolicy : Bool)
    (host : Host) (faults : PathzFaults) : PathzState :=
  let metadata := loadPathzFreshness loader host.fs config.pathzMetaFile
  let st := (writePathzMetadataToDB (.fresh metadata host) faults).2
  if pathzPolicy then
    match updatePolicyFromFile loader st.srv.pathzProcessor st.host.fs config.pathzPolicyFile with
    | .error _ => st
    | .ok processor => { st with srv := { st.srv with pathzProcessor := processor } }
  else st

/-! ## What is expected -/

/-- The last upload before the Finalize. -/
def lastUpload : List PathzEvent → Option PathzUpload
  | .request (.upload policyReq _) _ _ :: rest => (lastUpload rest).or (some policyReq)
  | _ => none

/-- The faults of the Finalize. -/
def finalFaults : List PathzEvent → Option PathzFaults
  | .request (.upload _ _) _ _ :: rest => finalFaults rest
  | .request .finalizeRotation faults _ :: _ => some faults
  | _ => none

/-- A field of the metadata in the database. -/
def PathzState.tableField (st : PathzState) (field : String) : Option String :=
  st.host.stateDb.content (credentialsTbl ++ "|PATHZ_POLICY|ACTIVE", field)

/-- Policy, metadata and files are those of an upload. -/
structure PathzConsistent (config : PathzConfig) (loader : PathzLoader) (upload : PathzUpload)
    (st : PathzState) : Prop where
  policy : st.srv.pathzProcessor.policy = upload.policy
  policyFile : st.host.fs.readFile config.pathzPolicyFile =
    .ok (config.marshalTextString upload.policy)
  metadata : st.srv.metadata = upload.metadata
  version : st.tableField "pathz_version" = some upload.metadata.pathzVersion
  createdOn : st.tableField "pathz_created_on" = some upload.metadata.pathzCreatedOn
  metaFile : st.host.fs.readFile config.pathzMetaFile = .ok (config.encode upload.metadata)
  noBackup : st.host.fs.node (st.host.fs.loc config.pathzPolicyBackup) = none
  restart : ∀ faults user path mode iteration,
    (newGNSIPathzServer config loader true st.host faults).srv.pathzProcessor.authorize user path
      mode iteration = st.srv.pathzProcessor.authorize user path mode iteration

/-- Where the metadata path leads when the backup is a regular file. -/
def metaPlace (config : PathzConfig) (fs : FileSystem) : Option Location :=
  (fs.set (fs.loc config.pathzPolicyBackup) (some (.file ""))).follow config.pathzMetaFile

/-- The metadata has a file of its own, and the backup can be removed. -/
structure FinalizeClean (config : PathzConfig) (fs : FileSystem) (events : List PathzEvent)
    (upload : PathzUpload) : Prop where
  removed : ∀ faults, finalFaults events = some faults → faults.removeBackup = none
  notBackup : metaPlace config fs ≠ some (fs.loc config.pathzPolicyBackup)
  notPolicy : metaPlace config fs = some (fs.loc config.pathzPolicyFile) →
    config.encode upload.metadata = config.marshalTextString upload.policy

/-! ## A session that goes on -/

section Session

variable {config : PathzConfig} {start st after : PathzState}

/-- The policy and the metadata of an upload are in place. -/
structure Uploaded (config : PathzConfig) (st : PathzState) (upload : PathzUpload) : Prop where
  processor : ∀ other : GnmiAuthzProcessor,
    other.updatePolicyFromProto upload.policy = .ok st.srv.pathzProcessor
  policy : st.srv.pathzProcessor.policy = upload.policy
  file : st.host.fs.node (st.host.fs.loc config.pathzPolicyFile) =
    some (.file (config.marshalTextString upload.policy))
  metadata : st.srv.metadata = upload.metadata

/-- A state of a session with its last upload; only the policy file and the backup have
changed. -/
structure InRotation (config : PathzConfig) (start st : PathzState)
    (last : Option PathzUpload) : Prop extends InSession config start st where
  elsewhere : ∀ loc, loc ≠ start.host.fs.loc config.pathzPolicyFile →
    loc ≠ start.host.fs.loc config.pathzPolicyBackup → st.host.fs.node loc = start.host.fs.node loc
  updated : st.srv.policyUpdated = last.isSome
  uploaded : ∀ upload, last = some upload → Uploaded config st upload

variable {content : String} {faults : PathzFaults}

theorem InSession.loc_eq (h : InSession config start st) (path : String) :
    st.host.fs.loc path = start.host.fs.loc path := by
  rw [loc, h.cwd]
  rfl

theorem inRotation_checkpoint {copyError : Option String}
    (hcontent : st.host.fs.node (st.host.fs.loc config.pathzPolicyFile) = some (.file content))
    (h : createCheckpoint config st copyError = (.ok (), after)) :
    InRotation config st after none := by
  have hafter : after = checkpoint config st content := by
    unfold createCheckpoint copyFile at h
    dsimp only at h
    rw [readFile_of_file hcontent] at h
    cases copyError with
    | some e => cases h
    | none =>
      cases h
      rfl
  rw [hafter]
  refine ⟨inSession_checkpoint hcontent, fun loc _ hbackup => ?_, rfl, by rintro _ ⟨⟩⟩
  change (st.host.fs.set _ _).node loc = _
  rw [node_set, if_neg hbackup]

theorem savePathzPolicy_ok
    (hnoLink : ∀ target, st.host.fs.node (st.host.fs.loc config.pathzPolicyFile) ≠
      some (.link target)) (h : savePathzPolicy config st content faults = (.ok (), after)) :
    after = { st with host := { st.host with
      fs := st.host.fs.set (st.host.fs.loc config.pathzPolicyFile) (some (.file content)) } } := by
  unfold savePathzPolicy attemptWrite at h
  cases hwrite : faults.write with
  | some failure =>
    rw [hwrite] at h
    cases h
  | none =>
    rw [hwrite, writeFile, follow_of_not_link hnoLink] at h
    cases hread : faults.read with
    | some e =>
      rw [hread] at h
      cases h
    | none =>
      rw [hread] at h
      dsimp only at h
      split at h
      · cases h
      · split at h <;> cases h
        rfl

theorem processRotateRequest_ok {policyReq : PathzUpload} {forceOverwrite : Bool}
    (hnoLink : ∀ target, st.host.fs.node (st.host.fs.loc config.pathzPolicyFile) ≠
      some (.link target))
    (h : processRotateRequest config st (.upload policyReq forceOverwrite) faults =
      (.ok (), after)) :
    ∃ processor, st.srv.pathzProcessor.updatePolicyFromProto policyReq.policy = .ok processor ∧
      after = PathzState.setUpdated
        { srv := { (st.setMetadata policyReq.metadata).srv with pathzProcessor := processor }
          host := { st.host with
            fs := st.host.fs.set (st.host.fs.loc config.pathzPolicyFile)
              (some (.file (config.marshalTextString policyReq.policy))) } } := by
  rw [processRotateRequest] at h
  split at h
  · cases h
  split at h
  · cases h
  rw [updatePolicy] at h
  rcases hsave : savePathzPolicy config (st.setMetadata policyReq.metadata)
    (config.marshalTextString policyReq.policy) faults with ⟨e | _, saved⟩
  · rw [hsave] at h
    cases h
  have hsaved : saved = { st.setMetadata policyReq.metadata with host := { st.host with
      fs := st.host.fs.set (st.host.fs.loc config.pathzPolicyFile)
        (some (.file (config.marshalTextString policyReq.policy))) } } :=
    savePathzPolicy_ok hnoLink hsave
  rw [hsave] at h
  dsimp only at h
  have hprocessor : saved.srv.pathzProcessor = st.srv.pathzProcessor := by
    rw [hsaved]
    rfl
  rw [hprocessor] at h
  rcases hupdate : st.srv.pathzProcessor.updatePolicyFromProto policyReq.policy with _ | processor <;>
    rw [hupdate] at h
  · cases h
  cases h
  exact ⟨processor, rfl, by rw [hsaved]⟩

theorem InRotation.upload {last : Option PathzUpload} (h : InRotation config start st last)
    {policyReq : PathzUpload} {forceOverwrite : Bool}
    (hprocess : processRotateRequest config st (.upload policyReq forceOverwrite) faults =
      (.ok (), after)) : InRotation config start after (some policyReq) := by
  obtain ⟨processor, hupdate, rfl⟩ := processRotateRequest_ok h.noLink hprocess
  obtain ⟨hpolicy, hsome, hall⟩ := GnmiAuthzProcessor.updatePolicyFromProto_ok hupdate
  have hsession := ((h.toInSession.setMetadata policyReq.metadata).setPolicyFile
    (some (.file (config.marshalTextString policyReq.policy))) (by rintro _ ⟨⟩)).setUpdated processor
      (by rwa [hpolicy])
  refine ⟨hsession, fun loc hfile hbackup => ?_, rfl, ?_⟩
  · change (st.host.fs.set _ _).node loc = _
    rw [node_set, h.loc_eq, if_neg hfile]
    exact h.elsewhere loc hfile hbackup
  · rintro upload hupload
    cases hupload
    refine ⟨hall, hpolicy, ?_, ?_⟩
    · change (st.host.fs.set _ _).node _ = _
      rw [node_set]
      exact if_pos rfl
    · exact Function.update_self _ _ _

/-- A session whose Finalize is accepted: the last upload is in place when the changes are
committed. -/
theorem pathzLoop_accepted (events : List PathzEvent) :
    ∀ {st : PathzState} {last : Option PathzUpload}, InRotation config start st last →
      pathzLoop config events st = (.accepted (.ok ()), after) →
        ∃ upload faults ready committed, (lastUpload events).or last = some upload ∧
          finalFaults events = some faults ∧ InRotation config start ready (some upload) ∧
          commitChanges config ready faults = (.ok (), committed) ∧
          after = removePathzBackup config committed faults.removeBackup := by
  have hreverted : ∀ {status : Status} {st : PathzState},
      revertWith config status st ≠ (.accepted (.ok ()), after) := by rintro _ _ ⟨⟩
  induction events with
  | nil =>
    intro st last h hloop
    rw [pathzLoop] at hloop
    split at hloop <;> cases hloop
  | cons event rest ih =>
    intro st last h hloop
    cases event with
    | eof =>
      rw [pathzLoop] at hloop
      split at hloop <;> cases hloop
    | recvError message => exact (hreverted hloop).elim
    | request req faults sendError =>
      cases req with
      | empty => exact (hreverted hloop).elim
      | finalizeRotation =>
        rw [pathzLoop] at hloop
        cases hupdated : st.srv.policyUpdated with
        | false =>
          rw [hupdated] at hloop
          exact (hreverted hloop).elim
        | true =>
          rw [hupdated, if_neg (by decide)] at hloop
          rcases hcommit : commitChanges config st faults with ⟨e | _, committed⟩ <;>
            rw [hcommit] at hloop
          · cases hloop
          cases hloop
          have hsome := h.updated.symm.trans hupdated
          obtain ⟨upload, hlast⟩ := Option.isSome_iff_exists.1 hsome
          rw [hlast] at h
          exact ⟨upload, faults, st, committed, hlast, rfl, h, hcommit, rfl⟩
      | upload policyReq forceOverwrite =>
        simp only [pathzLoop] at hloop
        rcases hprocess : processRotateRequest config st (.upload policyReq forceOverwrite)
          faults with ⟨e | _, next⟩ <;> rw [hprocess] at hloop
        · exact (hreverted hloop).elim
        cases sendError with
        | some message => exact (hreverted hloop).elim
        | none =>
          obtain ⟨upload, final, ready, committed, hlast, hrest⟩ := ih (h.upload hprocess) hloop
          refine ⟨upload, final, ready, committed, ?_, hrest⟩
          rw [lastUpload, Option.or_assoc, Option.some_or, hlast]

theorem writePathzMetadataToDB_keeps (st : PathzState) (faults : PathzFaults) :
    (writePathzMetadataToDB st faults).2.srv = st.srv ∧
      (writePathzMetadataToDB st faults).2.host.fs = st.host.fs := by
  unfold writePathzMetadataToDB
  cases faults.dbVersion with
  | some e => exact ⟨rfl, rfl⟩
  | none =>
    cases faults.dbCreatedOn with
    | some e | none => exact ⟨rfl, rfl⟩

theorem writePathzMetadataToDB_ok (h : writePathzMetadataToDB st faults = (.ok (), after)) :
    after.tableField "pathz_version" = some st.srv.metadata.pathzVersion ∧
      after.tableField "pathz_created_on" = some st.srv.metadata.pathzCreatedOn := by
  unfold writePathzMetadataToDB at h
  cases hversion : faults.dbVersion with
  | some e =>
    rw [hversion] at h
    cases h
  | none =>
    cases hcreatedOn : faults.dbCreatedOn with
    | some e =>
      rw [hversion, hcreatedOn] at h
      cases h
    | none =>
      rw [hversion, hcreatedOn] at h
      have hhost : after.host = (writeCredentialsMetadataToDB
          (writeCredentialsMetadataToDB st.host "PATHZ_POLICY|ACTIVE" "" "pathz_version"
            st.srv.metadata.pathzVersion none).2
          "PATHZ_POLICY|ACTIVE" "" "pathz_created_on" st.srv.metadata.pathzCreatedOn
          none).2 := by
        cases h
        rfl
      have hfields : ("pathz_version" : String) ≠ "pathz_created_on" := by decide
      unfold PathzState.tableField
      rw [hhost]
      constructor
      · rw [content_writeCredentials, if_neg fun h => hfields (Prod.mk.inj h).2,
          content_writeCredentials]
        exact if_pos rfl
      · rw [content_writeCredentials]
        exact if_pos rfl

/-- A commit that succeeds: the metadata is in the table and in the file its path leads
to. -/
theorem commitChanges_ok (h : commitChanges config st faults = (.ok (), after)) :
    ∃ place, st.host.fs.follow config.pathzMetaFile = some place ∧ after.srv = st.srv ∧
      after.host.fs = st.host.fs.set place (some (.file (config.encode st.srv.metadata))) ∧
      after.tableField "pathz_version" = some st.srv.metadata.pathzVersion ∧
      after.tableField "pathz_created_on" = some st.srv.metadata.pathzCreatedOn := by
  rw [commitChanges] at h
  obtain ⟨hsrv, hfs⟩ := writePathzMetadataToDB_keeps st faults
  rcases hwrite : writePathzMetadataToDB st faults with ⟨e | _, next⟩
  · rw [hwrite] at h
    cases h
  obtain ⟨hversion, hcreatedOn⟩ := writePathzMetadataToDB_ok hwrite
  rw [hwrite] at h hsrv hfs
  dsimp only at h hsrv hfs
  unfold attemptWrite writeFile at h
  rw [hfs, hsrv] at h
  cases hmeta : faults.metaFile with
  | some failure =>
    rw [hmeta] at h
    cases h
  | none =>
    rw [hmeta] at h
    rcases hplace : st.host.fs.follow config.pathzMetaFile with _ | place <;> rw [hplace] at h
    · cases h
    cases h
    exact ⟨place, rfl, rfl, rfl, hversion, hcreatedOn⟩

/-! ## The end of the session -/

theorem InRotation.follow_metaFile {last : Option PathzUpload} (h : InRotation config start st last)
    (hfile : start.host.fs.node (start.host.fs.loc config.pathzPolicyFile) = some (.file content)) :
    st.host.fs.follow config.pathzMetaFile = metaPlace config start.host.fs := by
  unfold metaPlace follow
  rw [h.loc_eq, loc_set]
  refine resolve_congr (fun loc target => ?_) _ _
  rw [node_set]
  by_cases hbackup : loc = start.host.fs.loc config.pathzPolicyBackup
  · have hnode := h.backup
    rw [h.loc_eq, hfile] at hnode
    rw [if_pos hbackup, hbackup, hnode]
    exact iff_of_false (by rintro ⟨⟩) (by rintro ⟨⟩)
  · rw [if_neg hbackup]
    by_cases hpolicy : loc = start.host.fs.loc config.pathzPolicyFile
    · have hnoLink := h.noLink target
      rw [h.loc_eq] at hnoLink
      rw [hpolicy, hfile]
      exact iff_of_false hnoLink (by rintro ⟨⟩)
    · rw [h.elsewhere loc hpolicy hbackup]

/-- A server that starts from the policy file of an upload decides as after the upload. -/
theorem Uploaded.restart {loader : PathzLoader} {upload : PathzUpload}
    {policy : AuthorizationPolicy} (h : Uploaded config st upload)
    (hpolicy : upload.policy = some policy)
    (htext : loader.unmarshalText (config.marshalTextString upload.policy) = .ok policy)
    {host : Host} (hread : host.fs.readFile config.pathzPolicyFile =
      .ok (config.marshalTextString upload.policy)) (faults : PathzFaults) :
    (newGNSIPathzServer config loader true host faults).srv.pathzProcessor =
      st.srv.pathzProcessor := by
  rw [newGNSIPathzServer]
  generalize loadPathzFreshness loader host.fs config.pathzMetaFile = metadata
  obtain ⟨-, hfs⟩ := writePathzMetadataToDB_keeps (.fresh metadata host) faults
  change _ = host.fs at hfs
  rw [if_pos rfl]
  rw [updatePolicyFromFile, hfs, hread]
  dsimp only
  rw [htext]
  dsimp only
  rw [← hpolicy, h.processor]

/-- The files after the metadata is written and the backup is removed. -/
theorem files_committed {fs : FileSystem} {place : Location} {policyText backupText : String}
    (metaText : String) (hplace : fs.follow config.pathzMetaFile = some place)
    (hpolicy : fs.node (fs.loc config.pathzPolicyFile) = some (.file policyText))
    (hbackup : fs.node (fs.loc config.pathzPolicyBackup) = some (.file backupText)) :
    let written := fs.set place (some (.file metaText))
    let after := written.set (fs.loc config.pathzPolicyBackup) none
    (after.readFile config.pathzPolicyFile =
        .ok (if fs.loc config.pathzPolicyFile = place then metaText else policyText)) ∧
      (after.readFile config.pathzMetaFile = .ok metaText ↔
        place ≠ fs.loc config.pathzPolicyBackup) := by
  intro written after
  have hne := (loc_backup_ne config fs).symm
  have hnode : ∀ loc, after.node loc = if loc = fs.loc config.pathzPolicyBackup then none
      else if loc = place then some (.file metaText) else fs.node loc := fun loc => by
    rw [node_set, node_set]
  constructor
  · refine readFile_of_file ?_
    change after.node (fs.loc config.pathzPolicyFile) = _
    rw [hnode, if_neg hne]
    split
    · rfl
    · exact hpolicy
  · -- neither the place of the metadata nor the backup is a link
    have hwritten : ∀ fuel loc, written.resolve fuel loc = fs.resolve fuel loc :=
      fs.resolve_set (fs.resolve_not_link hplace) fun _ => by rintro ⟨⟩
    have hnoLink : ∀ target, written.node (fs.loc config.pathzPolicyBackup) ≠
        some (.link target) := fun target => by
      rw [node_set]
      split
      · rintro ⟨⟩
      · rw [hbackup]
        rintro ⟨⟩
    have hfollow : after.follow config.pathzMetaFile = some place := by
      have hafter : ∀ fuel loc, after.resolve fuel loc = written.resolve fuel loc :=
        written.resolve_set hnoLink fun _ => by rintro ⟨⟩
      exact (hafter _ _).trans ((hwritten _ _).trans hplace)
    rw [readFile, hfollow]
    dsimp only
    rw [hnode]
    by_cases hplaceBackup : place = fs.loc config.pathzPolicyBackup
    · rw [if_pos hplaceBackup]
      exact iff_of_false (by rintro ⟨⟩) fun h => h hplaceBackup
    · rw [if_neg hplaceBackup, if_pos rfl]
      exact iff_of_true rfl hplaceBackup

/-- What a finalized session leaves in the files, and whether this is what is expected. -/
theorem InRotation.consistent_iff {loader : PathzLoader} {upload : PathzUpload}
    {policy : AuthorizationPolicy} {committed : PathzState}
    (h : InRotation config start st (some upload))
    (hfile : start.host.fs.node (start.host.fs.loc config.pathzPolicyFile) = some (.file content))
    (hpolicy : upload.policy = some policy)
    (htext : loader.unmarshalText (config.marshalTextString upload.policy) = .ok policy)
    (hcommit : commitChanges config st faults = (.ok (), committed)) :
    PathzConsistent config loader upload (removePathzBackup config committed faults.removeBackup) ↔
      faults.removeBackup = none ∧
        metaPlace config start.host.fs ≠ some (start.host.fs.loc config.pathzPolicyBackup) ∧
        (metaPlace config start.host.fs = some (start.host.fs.loc config.pathzPolicyFile) →
          config.encode upload.metadata = config.marshalTextString upload.policy) := by
  have huploaded := h.uploaded upload rfl
  have hbackup := h.backup.trans hfile
  obtain ⟨place, hplace, hsrv, hfs, hversion, hcreatedOn⟩ := commitChanges_ok hcommit
  rw [huploaded.metadata] at hfs hversion hcreatedOn
  rw [← h.follow_metaFile hfile, hplace, ← h.loc_eq, ← h.loc_eq]
  have hleft : ∃ left, committed.host.fs.node (st.host.fs.loc config.pathzPolicyBackup) =
      some (.file left) := by
    rw [hfs, node_set]
    split
    · exact ⟨_, rfl⟩
    · exact ⟨_, hbackup⟩
  obtain ⟨left, hleft⟩ := hleft
  have hcommitted : committed.host.fs.loc config.pathzPolicyBackup =
      st.host.fs.loc config.pathzPolicyBackup := by
    rw [hfs, loc_set]
  cases hfailure : faults.removeBackup with
  | some e =>
    -- the backup is still there
    refine iff_of_false (fun hconsistent => ?_) fun hclean => nomatch hclean.1
    have hnone := hconsistent.noBackup
    change committed.host.fs.node (committed.host.fs.loc config.pathzPolicyBackup) = none at hnone
    rw [hcommitted, hleft] at hnone
    cases hnone
  | none =>
    have hremove : removePathzBackup config committed none =
        { committed with host := { committed.host with
          fs := committed.host.fs.set (st.host.fs.loc config.pathzPolicyBackup) none } } := by
      rw [removePathzBackup, remove, hcommitted, hleft]
    obtain ⟨hpolicyFile, hmetaFile⟩ :=
      files_committed (config.encode upload.metadata) hplace huploaded.file hbackup
    rw [hremove, hfs]
    constructor
    · intro hconsistent
      refine ⟨rfl, fun heq => hmetaFile.1 hconsistent.metaFile (Option.some.inj heq), fun heq => ?_⟩
      have hsame := hpolicyFile.symm.trans hconsistent.policyFile
      rw [if_pos (Option.some.inj heq).symm] at hsame
      exact Except.ok.inj hsame
    · rintro ⟨-, hne, hsame⟩
      have hread : ((st.host.fs.set place (some (.file (config.encode upload.metadata)))).set
          (st.host.fs.loc config.pathzPolicyBackup) none).readFile config.pathzPolicyFile =
            .ok (config.marshalTextString upload.policy) := by
        rw [hpolicyFile]
        split
        · rename_i heq
          rw [hsame (congrArg some heq.symm)]
        · rfl
      refine ⟨?_, hread, ?_, hversion, hcreatedOn,
        hmetaFile.2 fun heq => hne (congrArg some heq), ?_,
        fun faults user path mode iteration => ?_⟩ <;> dsimp only
      · rw [hsrv]
        exact huploaded.policy
      · rw [hsrv]
        exact huploaded.metadata
      · rw [loc_set, loc_set, node_set, if_pos rfl]
      · rw [huploaded.restart hpolicy htext hread, hsrv]

end Session

/-- The finalized sessions that leave everything consistent with the last upload. -/
theorem pathzRotate_consistent_iff (config : PathzConfig) (loader : PathzLoader) (locked : Bool)
    (checkpointError : Option String) (events : List PathzEvent) (st after : PathzState)
    (hrotate : pathzRotate config locked checkpointError events st = (.accepted (.ok ()), after))
    (htext : ∀ upload policy, lastUpload events = some upload → upload.policy = some policy →
      loader.unmarshalText (config.marshalTextString upload.policy) = .ok policy) :
    ∃ upload, lastUpload events = some upload ∧
      (PathzConsistent config loader upload after ↔
        FinalizeClean config st.host.fs events upload) := by
  rw [pathzRotate] at hrotate
  cases locked with
  | true => cases hrotate
  | false =>
    rcases hcheck : fileCheck st.host.fs config.pathzPolicyFile with _ | passed <;>
      rw [hcheck] at hrotate
    · cases hrotate
    obtain ⟨content, hcontent⟩ := fileCheck_ok hcheck
    rcases hcheckpoint : createCheckpoint config st checkpointError with ⟨e | _, next⟩ <;>
      rw [hcheckpoint] at hrotate
    · cases hrotate
    have hstart := inRotation_checkpoint hcontent hcheckpoint
    obtain ⟨upload, faults, ready, committed, hlast, hfaults, hready, hcommit, rfl⟩ :=
      pathzLoop_accepted events hstart hrotate
    rw [Option.or_none] at hlast
    have hsome := (GnmiAuthzProcessor.updatePolicyFromProto_ok
      ((hready.uploaded upload rfl).processor {})).2.1
    obtain ⟨policy, hpolicy⟩ := Option.ne_none_iff_exists'.1 hsome
    refine ⟨upload, hlast, ?_⟩
    rw [hready.consistent_iff hcontent hpolicy (htext upload policy hlast hpolicy) hcommit]
    constructor
    · rintro ⟨hremoved, hbackup, hpolicyFile⟩
      refine ⟨fun other hother => ?_, hbackup, hpolicyFile⟩
      rw [hfaults] at hother
      cases hother
      exact hremoved
    · intro hclean
      exact ⟨hclean.removed faults hfaults, hclean.notBackup, hclean.notPolicy⟩

/-! ## Finalized sessions on a small server -/

deriving instance DecidableEq for PathzEnd

def demoLoader : PathzLoader where
  unmarshalText := fun _ => .ok (readPolicy "bob")
  unmarshalMetadata := fun text metadata => { metadata with pathzVersion := text }

def bobUpload : PathzUpload where
  version := "v2"
  createdOn := 7
  policy := some (readPolicy "bob")

def uploadThenFinalize (removeBackup : Option String) : List PathzEvent :=
  [.request (.upload bobUpload false) {} none,
    .request .finalizeRotation { removeBackup := removeBackup } none]

theorem pathzRotate_consistent_upload :
    (pathzRotate demoPathz false none (uploadThenFinalize none) (pathzStart {})).1 =
        .accepted (.ok ()) ∧
      PathzConsistent demoPathz demoLoader bobUpload
        (pathzRotate demoPathz false none (uploadThenFinalize none) (pathzStart {})).2 := by
  have haccepted : (pathzRotate demoPathz false none (uploadThenFinalize none)
      (pathzStart {})).1 = .accepted (.ok ()) := by
    decide +kernel
  have htext : ∀ upload policy, lastUpload (uploadThenFinalize none) = some upload →
      upload.policy = some policy →
        demoLoader.unmarshalText (demoPathz.marshalTextString upload.policy) = .ok policy := by
    intro upload policy hupload hpolicy
    cases hupload
    cases hpolicy
    rfl
  refine ⟨haccepted, ?_⟩
  obtain ⟨upload, hupload, hiff⟩ := pathzRotate_consistent_iff demoPathz demoLoader false none
    (uploadThenFinalize none) (pathzStart {}) _ (Prod.ext haccepted rfl) htext
  cases hupload
  refine hiff.2 ⟨fun faults hfaults => ?_, by decide +kernel, fun h => absurd h (by decide +kernel)⟩
  cases hfaults
  rfl

def linkedPathzStart : PathzState where
  srv := {}
  host :=
    { fs := (FileSystem.set {} ["etc", "pathz_policy"] (some (.file "old"))).set
        ["etc", "pathz_meta"] (some (.link "/etc/pathz_policy")) }

/-- The backup is left when its removal fails, and a metadata path that leads to the policy
file overwrites the policy; both sessions are accepted. -/
theorem finalized_not_consistent :
    (pathzRotate demoPathz false none (uploadThenFinalize (some "permission denied"))
        (pathzStart {})).1 = .accepted (.ok ()) ∧
      ¬ PathzConsistent demoPathz demoLoader bobUpload
        (pathzRotate demoPathz false none (uploadThenFinalize (some "permission denied"))
          (pathzStart {})).2 ∧
      (pathzRotate demoPathz false none (uploadThenFinalize none) linkedPathzStart).1 =
        .accepted (.ok ()) ∧
      ¬ PathzConsistent demoPathz demoLoader bobUpload
        (pathzRotate demoPathz false none (uploadThenFinalize none) linkedPathzStart).2 := by
  have hbackup : (pathzRotate demoPathz false none (uploadThenFinalize (some "permission denied"))
      (pathzStart {})).2.host.fs.node ["etc", "pathz_policy.backup"] = some (.file "old") := by
    decide +kernel
  have hpolicy : (pathzRotate demoPathz false none (uploadThenFinalize none)
      linkedPathzStart).2.host.fs.readFile "/etc/pathz_policy" = .ok "v2" := by
    decide +kernel
  refine ⟨by decide +kernel, fun h => ?_, by decide +kernel, fun h => ?_⟩
  · have hloc : (pathzRotate demoPathz false none (uploadThenFinalize (some "permission denied"))
        (pathzStart {})).2.host.fs.loc demoPathz.pathzPolicyBackup =
          ["etc", "pathz_policy.backup"] := by
      decide +kernel
    have hnone := h.noBackup
    rw [hloc, hbackup] at hnone
    cases hnone
  · exact absurd (hpolicy.symm.trans h.policyFile) (by decide +kernel)

end SonicGnmi.Gnsi
