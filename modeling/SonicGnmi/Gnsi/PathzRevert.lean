import SonicGnmi.Gnsi.PathzServer

/-!
# What a failed rotation of the path policy leaves behind

A session that does not end in an accepted Finalize is reverted.  The revert
restores the policy file, but not always the rest: the checkpoint of the
metadata is the live record itself, and a processor that had no policy cannot be
given none again.

* `InSession` — what every state of a session has in common with its start;
* `revertPolicy_unchanged_iff` — when a revert leads back to the start;
* `pathzRotate_unchanged_iff` — the sessions that leave nothing behind.
-/

namespace SonicGnmi.Gnsi

open Foundation Grpc Pathz FileSystem PathzEvent PathzState

variable (config : PathzConfig)

/-! ## The condition on the messages -/

/-- The upload passes the checks of its version. -/
def PathzUpload.admitted (request : PathzUpload) (forceOverwrite : Bool)
    (metadata : PathzMetadata) : Bool :=
  decide (request.version.length ≠ 0) &&
    (decide (metadata.pathzVersion ≠ request.version) || forceOverwrite)

/-- The event is an upload whose policy becomes active. -/
def PathzEvent.applies (metadata : PathzMetadata) : PathzEvent → Bool
  | .request (.upload policyReq forceOverwrite) faults _ =>
    policyReq.admitted forceOverwrite metadata && faults.write.isNone && faults.read.isNone &&
      (createNewPolicy policyReq.policy).isOk
  | _ => false

/-- The metadata of the last upload that passes the checks of its version. -/
def lastMetadata (metadata : PathzMetadata) : List PathzEvent → PathzMetadata
  | .request (.upload policyReq forceOverwrite) faults sendError :: rest =>
    if policyReq.admitted forceOverwrite metadata then
      -- The session goes on after an upload that is applied and confirmed.
      if (PathzEvent.request (.upload policyReq forceOverwrite) faults sendError).applies
          metadata && sendError.isNone then
        lastMetadata policyReq.metadata rest
      else
        policyReq.metadata
    else
      metadata
  | _ => metadata

/-- The first message of the session is applied. -/
def firstApplies (metadata : PathzMetadata) (events : List PathzEvent) : Bool :=
  (events.head?.map fun event => event.applies metadata).getD false

/-! ## States of a session -/

/-- Policy, policy file and metadata are the same. -/
structure Unchanged (before after : PathzState) : Prop where
  policy : after.srv.pathzProcessor = before.srv.pathzProcessor
  file : after.host.fs.node (after.host.fs.loc config.pathzPolicyFile) =
    before.host.fs.node (before.host.fs.loc config.pathzPolicyFile)
  metadata : after.srv.metadata = before.srv.metadata

/-- A state between the checkpoint and the end of a session. -/
structure InSession (start st : PathzState) : Prop where
  pointer : st.srv.pathzMetadata = start.srv.pathzMetadata
  copy : st.srv.pathzMetadataCopy = start.srv.pathzMetadata
  policyCopy : st.srv.policyCopy = start.srv.pathzProcessor.policy
  cwd : st.host.fs.cwd = start.host.fs.cwd
  backup : st.host.fs.node (st.host.fs.loc config.pathzPolicyBackup) =
    start.host.fs.node (start.host.fs.loc config.pathzPolicyFile)
  noLink : ∀ target, st.host.fs.node (st.host.fs.loc config.pathzPolicyFile) ≠
    some (.link target)
  kept : st.srv.policyUpdated = false → st.srv.pathzProcessor = start.srv.pathzProcessor
  replaced : st.srv.policyUpdated = true → st.srv.pathzProcessor.policy ≠ none

theorem loc_backup_ne (fs : FileSystem) :
    fs.loc config.pathzPolicyBackup ≠ fs.loc config.pathzPolicyFile :=
  locate_append_ne fs.cwd config.pathzPolicyFile (by decide) (by decide)

/-- The state after the checkpoint. -/
def checkpoint (st : PathzState) (content : String) : PathzState :=
  { srv := { st.srv with
      policyCopy := st.srv.pathzProcessor.policy
      policyUpdated := false
      pathzMetadataCopy := st.srv.pathzMetadata }
    host := { st.host with
      fs := st.host.fs.set (st.host.fs.loc config.pathzPolicyBackup) (some (.file content)) } }

section Session

variable {config} {start st : PathzState}

theorem inSession_checkpoint {content : String}
    (hcontent : st.host.fs.node (st.host.fs.loc config.pathzPolicyFile) = some (.file content)) :
    InSession config st (checkpoint config st content) := by
  refine ⟨rfl, rfl, rfl, rfl, ?_, ?_, fun _ => rfl, by simp [checkpoint]⟩
  · simp [checkpoint, node_set, hcontent]
  · intro target
    simp [checkpoint, node_set, (loc_backup_ne config st.host.fs).symm, hcontent]

section

variable (h : InSession config start st)
include h

theorem InSession.setPolicyFile (node : Option Node)
    (hnode : ∀ target, node ≠ some (.link target)) :
    InSession config start { st with host := { st.host with
      fs := st.host.fs.set (st.host.fs.loc config.pathzPolicyFile) node } } := by
  refine ⟨h.pointer, h.copy, h.policyCopy, h.cwd, ?_, ?_, h.kept, h.replaced⟩
  · simp only [loc_set, node_set, if_neg (loc_backup_ne config st.host.fs)]
    exact h.backup
  · intro target
    simp only [loc_set, node_set]
    exact hnode target

theorem InSession.setMetadata (metadata : PathzMetadata) :
    InSession config start (st.setMetadata metadata) :=
  ⟨h.pointer, h.copy, h.policyCopy, h.cwd, h.backup, h.noLink, h.kept, h.replaced⟩

theorem InSession.setUpdated (processor : GnmiAuthzProcessor) (hpolicy : processor.policy ≠ none) :
    InSession config start
      (setUpdated { st with srv := { st.srv with pathzProcessor := processor } }) :=
  ⟨h.pointer, h.copy, h.policyCopy, h.cwd, h.backup, h.noLink,
    by simp [PathzState.setUpdated], fun _ => hpolicy⟩

/-- Saving the policy changes only the policy file; it succeeds exactly when
nothing fails. -/
theorem savePathzPolicy_spec (content : String) (faults : PathzFaults) :
    ∃ node, (∀ target, node ≠ some (Node.link target)) ∧
      (savePathzPolicy config st content faults).2 = { st with host := { st.host with
        fs := st.host.fs.set (st.host.fs.loc config.pathzPolicyFile) node } } ∧
      ((savePathzPolicy config st content faults).1 = .ok () ↔
        faults.write = none ∧ faults.read = none) := by
  cases hwrite : faults.write with
  | some failure =>
    refine ⟨failure.left.map Node.file, ?_, ?_, ?_⟩
    · cases failure.left <;> simp
    · simp [savePathzPolicy, hwrite, attemptWrite]
    · simp [savePathzPolicy, hwrite, attemptWrite]
  | none =>
    have hfollow : st.host.fs.follow config.pathzPolicyFile =
        some (st.host.fs.loc config.pathzPolicyFile) :=
      follow_of_not_link h.noLink
    have hread : (st.host.fs.set (st.host.fs.loc config.pathzPolicyFile)
        (some (.file content))).readFile config.pathzPolicyFile = .ok content := by
      apply readFile_of_file
      simp [node_set]
    refine ⟨some (.file content), by simp, ?_, ?_⟩ <;>
      simp [savePathzPolicy, hwrite, attemptWrite, writeFile, hfollow, hread]
    all_goals cases faults.read <;> simp

end

theorem processRotateRequest_rejected (config : PathzConfig) {policyReq : PathzUpload} {forceOverwrite : Bool}
    (hrejected : policyReq.admitted forceOverwrite st.srv.metadata = false)
    (faults : PathzFaults) :
    ∃ e, processRotateRequest config st (.upload policyReq forceOverwrite) faults =
      (.error e, st) := by
  simp only [processRotateRequest]
  split
  · exact ⟨_, rfl⟩
  split
  · exact ⟨_, rfl⟩
  rename_i hversion hexists
  exfalso
  simp only [PathzUpload.admitted, hversion, not_false_eq_true, decide_true, Bool.true_and,
    Bool.or_eq_false_iff, decide_eq_false_iff_not, not_not, ne_eq] at hrejected
  exact hexists ⟨hrejected.1, by simp [hrejected.2]⟩

/-- An upload that passes them replaces the metadata; its policy becomes active
exactly when the event applies. -/
theorem processRotateRequest_admitted (h : InSession config start st) {policyReq : PathzUpload}
    {forceOverwrite : Bool} (hadmitted : policyReq.admitted forceOverwrite st.srv.metadata = true)
    (faults : PathzFaults) (sendError : Option String) :
    ∃ result st', processRotateRequest config st (.upload policyReq forceOverwrite) faults =
        (result, st') ∧
      InSession config start st' ∧ st'.srv.metadata = policyReq.metadata ∧
      ((request (.upload policyReq forceOverwrite) faults sendError).applies
            st.srv.metadata = true ∧ result = .ok () ∧ st'.srv.policyUpdated = true ∨
        (request (.upload policyReq forceOverwrite) faults sendError).applies
            st.srv.metadata = false ∧ (∃ e, result = .error e) ∧
          st'.srv.policyUpdated = st.srv.policyUpdated) := by
  have hchecks := hadmitted
  simp only [PathzUpload.admitted, Bool.and_eq_true, Bool.or_eq_true, decide_eq_true_eq] at hchecks
  have hexists : ¬ (st.srv.metadata.pathzVersion = policyReq.version ∧
      (!forceOverwrite) = true) := by
    rintro ⟨hsame, hforce⟩
    rcases hchecks.2 with hnew | hnew
    · exact hnew hsame
    · rw [hnew] at hforce
      contradiction
  have h₁ := h.setMetadata policyReq.metadata
  have hrecord : (st.setMetadata policyReq.metadata).srv.metadata = policyReq.metadata := by
    simp [setMetadata, PathzServer.metadata]
  obtain ⟨node, hnode, hsaved, hok⟩ :=
    savePathzPolicy_spec h₁ (config.marshalTextString policyReq.policy) faults
  have h₂ := h₁.setPolicyFile node hnode
  rcases hsave : savePathzPolicy config (st.setMetadata policyReq.metadata)
    (config.marshalTextString policyReq.policy) faults with ⟨e | ⟨⟩, st₂⟩ <;>
    rw [hsave] at hsaved hok <;> subst hsaved
  · refine ⟨.error ⟨.aborted, e⟩, _, ?_, h₂, hrecord, Or.inr ⟨?_, ⟨_, rfl⟩, rfl⟩⟩
    · simp only [processRotateRequest, if_neg hchecks.1, if_neg hexists, updatePolicy, hsave]
    have hfault : ¬ (faults.write = none ∧ faults.read = none) := by
      rw [← hok]
      simp
    simp only [applies, hadmitted, Bool.true_and]
    cases hw : faults.write <;> cases hr : faults.read <;> simp [hw, hr] at hfault ⊢
  · obtain ⟨hw, hr⟩ := hok.1 rfl
    have haccepted := st.srv.pathzProcessor.updatePolicyFromProto_isOk policyReq.policy
    cases hupdate : st.srv.pathzProcessor.updatePolicyFromProto policyReq.policy with
    | error e =>
      have hrefused : (createNewPolicy policyReq.policy).isOk = false := by
        rw [← haccepted, hupdate]
        rfl
      refine ⟨.error ⟨.aborted, e⟩, _, ?_, h₂, hrecord, Or.inr ⟨?_, ⟨_, rfl⟩, rfl⟩⟩
      · simp only [processRotateRequest, if_neg hchecks.1, if_neg hexists, updatePolicy, hsave,
          setMetadata_processor, hupdate]
      · simp [applies, hrefused]
    | ok processor =>
      have htaken : (createNewPolicy policyReq.policy).isOk = true := by
        rw [← haccepted, hupdate]
        rfl
      obtain ⟨hpolicy, hsome, -⟩ := GnmiAuthzProcessor.updatePolicyFromProto_ok hupdate
      refine ⟨.ok (), _, ?_, h₂.setUpdated processor (by rwa [hpolicy]), hrecord,
        Or.inl ⟨?_, rfl, rfl⟩⟩
      · simp only [processRotateRequest, if_neg hchecks.1, if_neg hexists, updatePolicy, hsave,
          setMetadata_processor, hupdate]
      · simp [applies, hadmitted, hw, hr, htaken]

/-! ## The end of a session -/

section

variable (hfile : fileCheck start.host.fs config.pathzPolicyFile = .ok ())
include hfile

/-- The policy file comes back; the metadata record stays as it is. -/
theorem restoreFiles_spec (h : InSession config start st) :
    (restoreFiles config st).2.srv.pathzProcessor = st.srv.pathzProcessor ∧
      (restoreFiles config st).2.srv.metadata = st.srv.metadata ∧
      (restoreFiles config st).2.host.fs.node
          ((restoreFiles config st).2.host.fs.loc config.pathzPolicyFile) =
        start.host.fs.node (start.host.fs.loc config.pathzPolicyFile) := by
  obtain ⟨content, hcontent⟩ := fileCheck_ok hfile
  have hbackup := h.backup
  rw [hcontent] at hbackup
  have hmetadata : st.srv.records st.srv.pathzMetadataCopy = st.srv.metadata := by
    rw [PathzServer.metadata, h.copy, h.pointer]
  simp only [restoreFiles, rename, hbackup]
  refine ⟨trivial, hmetadata, ?_⟩
  simp [node_set, hcontent]

/-- A revert leads back to the start exactly when the metadata did not change
and there is a policy to go back to, if one is needed. -/
theorem revertPolicy_unchanged_iff (h : InSession config start st)
    (hloaded : start.srv.pathzProcessor.Loaded) :
    Unchanged config start (revertPolicy config st).2 ↔ st.srv.metadata = start.srv.metadata ∧
        (start.srv.pathzProcessor.policy ≠ none ∨ st.srv.policyUpdated = false) := by
  cases hupdated : st.srv.policyUpdated with
  | false =>
    obtain ⟨hprocessor, hmetadata, hnode⟩ := restoreFiles_spec hfile h
    simp only [revertPolicy, hupdated, Bool.false_eq_true, if_false, or_true, and_true]
    constructor
    · intro hunchanged
      rw [← hmetadata]
      exact hunchanged.metadata
    · intro hsame
      exact ⟨hprocessor.trans (h.kept hupdated), hnode, hmetadata.trans hsame⟩
  | true =>
    simp only [revertPolicy, hupdated, if_true, Bool.true_eq_false, or_false]
    by_cases hpolicy : start.srv.pathzProcessor.policy = none
    · -- No policy to go back to: the processor keeps the new one.
      refine iff_of_false ?_ fun hboth => hboth.2 hpolicy
      intro hunchanged
      have hkept : st.srv.pathzProcessor = start.srv.pathzProcessor := by
        rw [← hunchanged.policy, h.policyCopy, hpolicy,
          GnmiAuthzProcessor.updatePolicyFromProto_none]
        simp only
        split <;> rfl
      apply h.replaced hupdated
      rw [hkept, hpolicy]
    · have hback := hloaded.made hpolicy st.srv.pathzProcessor
      rw [← h.policyCopy] at hback
      have hsession : InSession config start { st with srv := { st.srv with
          policyUpdated := false, pathzProcessor := start.srv.pathzProcessor } } :=
        ⟨h.pointer, h.copy, h.policyCopy, h.cwd, h.backup, h.noLink, fun _ => rfl, by simp⟩
      obtain ⟨hprocessor, hmetadata, hnode⟩ := restoreFiles_spec hfile hsession
      simp only [hback, hpolicy, not_false_eq_true, and_true, ne_eq]
      constructor
      · intro hunchanged
        exact hmetadata.symm.trans hunchanged.metadata
      · intro hsame
        exact ⟨hprocessor, hnode, hmetadata.trans hsame⟩

/-- The rest of a session leads back to its start exactly when the last
metadata written is the old one and there is a policy to go back to, if one is
needed. -/
theorem pathzLoop_unchanged_iff (hloaded : start.srv.pathzProcessor.Loaded)
    (h : InSession config start st) {events : List PathzEvent} {status : Status}
    (hend : (pathzLoop config events st).1 = .reverted status) :
    Unchanged config start (pathzLoop config events st).2 ↔
      lastMetadata st.srv.metadata events = start.srv.metadata ∧
        (start.srv.pathzProcessor.policy ≠ none ∨
          st.srv.policyUpdated = false ∧ firstApplies st.srv.metadata events = false) := by
  -- what there is to show when the session is reverted at its first message
  have hstop : ∀ {events : List PathzEvent} {st st' : PathzState},
      (pathzLoop config events st).2 = (revertPolicy config st').2 → InSession config start st' →
      lastMetadata st.srv.metadata events = st'.srv.metadata →
      (st'.srv.policyUpdated = false ↔
        st.srv.policyUpdated = false ∧ firstApplies st.srv.metadata events = false) →
      (Unchanged config start (pathzLoop config events st).2 ↔
        lastMetadata st.srv.metadata events = start.srv.metadata ∧
          (start.srv.pathzProcessor.policy ≠ none ∨
            st.srv.policyUpdated = false ∧ firstApplies st.srv.metadata events = false)) := by
    intro events st st' hst h' hmetadata hupdated
    rw [hst, revertPolicy_unchanged_iff hfile h' hloaded, hmetadata, hupdated]
  induction events generalizing st with
  | nil =>
    exact hstop (by rw [pathzLoop]; split <;> simp [*]) h rfl (by simp [firstApplies])
  | cons event rest ih =>
    cases event with
    | eof =>
      exact hstop (by rw [pathzLoop]; split <;> simp [*]) h rfl
        (by simp [firstApplies, applies])
    | recvError message =>
      exact hstop rfl h rfl (by simp [firstApplies, applies])
    | request req faults sendError =>
      cases req with
      | finalizeRotation =>
        cases hupdated : st.srv.policyUpdated with
        | true =>
          exfalso
          simp only [pathzLoop, hupdated, Bool.not_true, Bool.false_eq_true, if_false] at hend
          split at hend <;> contradiction
        | false =>
          have hst : (pathzLoop config (.request .finalizeRotation faults sendError :: rest) st).2 =
              (revertPolicy config st).2 := by simp [pathzLoop, hupdated, revertWith]
          simpa only [hupdated] using hstop hst h rfl (by simp [firstApplies, applies])
      | empty =>
        exact hstop (by simp [pathzLoop, processRotateRequest, revertWith]) h rfl
          (by simp [firstApplies, applies])
      | upload policyReq forceOverwrite =>
        cases hadmitted : policyReq.admitted forceOverwrite st.srv.metadata with
        | false =>
          obtain ⟨e, hprocess⟩ := processRotateRequest_rejected config hadmitted faults
          exact hstop (by simp [pathzLoop, hprocess, revertWith]) h
            (by simp [lastMetadata, hadmitted]) (by simp [firstApplies, applies, hadmitted])
        | true =>
          obtain ⟨result, st', hprocess, h', hmetadata, hcases⟩ :=
            processRotateRequest_admitted h hadmitted faults sendError
          rcases hcases with ⟨happlies, rfl, hupdated⟩ | ⟨hfails, ⟨e, rfl⟩, hupdated⟩
          · cases sendError with
            | some message =>
              exact hstop (by simp [pathzLoop, hprocess, revertWith]) h'
                (by simp [lastMetadata, hadmitted, hmetadata])
                (by simp [firstApplies, happlies, hupdated])
            | none =>
              have hgo : pathzLoop config (.request (.upload policyReq forceOverwrite)
                  faults none :: rest) st = pathzLoop config rest st' := by
                simp [pathzLoop, hprocess]
              rw [hgo] at hend ⊢
              refine (ih h' hend).trans ?_
              simp [lastMetadata, firstApplies, hadmitted, happlies, hupdated, hmetadata]
          · exact hstop (by simp [pathzLoop, hprocess, revertWith]) h'
              (by simp [lastMetadata, hadmitted, hfails, hmetadata])
              (by simp [firstApplies, hfails, hupdated])

end

end Session

/-- A session that is reverted leaves nothing behind exactly when the last
upload past the version check names the old version and time, or there is none,
and the server had a policy or the first message was not applied. -/
theorem pathzRotate_unchanged_iff (st : PathzState) (events : List PathzEvent) {status : Status}
    (hloaded : st.srv.pathzProcessor.Loaded)
    (hfile : fileCheck st.host.fs config.pathzPolicyFile = .ok ())
    (hend : (pathzRotate config false none events st).1 = .reverted status) :
    Unchanged config st (pathzRotate config false none events st).2 ↔
      lastMetadata st.srv.metadata events = st.srv.metadata ∧
        (st.srv.pathzProcessor.policy ≠ none ∨ firstApplies st.srv.metadata events = false) := by
  obtain ⟨content, hcontent⟩ := fileCheck_ok hfile
  have hread := FileSystem.readFile_of_file hcontent
  have hcopy : createCheckpoint config st none = (.ok (), checkpoint config st content) := by
    simp [createCheckpoint, copyFile, hread, checkpoint]
  have hrun : pathzRotate config false none events st =
      pathzLoop config events (checkpoint config st content) := by
    simp [pathzRotate, hfile, hcopy]
  rw [hrun] at hend ⊢
  refine (pathzLoop_unchanged_iff hfile hloaded (inSession_checkpoint hcontent) hend).trans ?_
  simp [checkpoint, PathzServer.metadata]

/-! ## Sessions on a small server -/

def demoPathz : PathzConfig where
  pathzPolicyFile := "/etc/pathz_policy"
  pathzMetaFile := "/etc/pathz_meta"
  marshalTextString := fun policy => if policy.isSome then "rules" else ""
  encode := fun metadata => metadata.pathzVersion

def readPolicy (user : String) : AuthorizationPolicy where
  groups := []
  rules := [{ id := "1", principal := some (.user user), action := .permit, mode := .read
              path := { elem := [{ name := "a" }] } }]

def pathzStart (processor : GnmiAuthzProcessor) : PathzState where
  srv := { pathzProcessor := processor }
  host := { fs := FileSystem.set {} ["etc", "pathz_policy"] (some (.file "old")) }

def loadedWith (policy : AuthorizationPolicy) : GnmiAuthzProcessor :=
  match ({} : GnmiAuthzProcessor).updatePolicyFromProto (some policy) with
  | .error _ => {}
  | .ok processor => processor

theorem loadedWith_loaded (policy : AuthorizationPolicy) : (loadedWith policy).Loaded := by
  unfold loadedWith
  split
  · exact .fresh
  · rename_i hupdate
    exact .update _ .fresh hupdate

def uploadThenEof : List PathzEvent :=
  [.request (.upload { version := "v2", createdOn := 7, policy := some (readPolicy "bob") } false)
    {} none]

/-- The stream ends after an upload: the metadata stays that of the upload, and
without an old policy the new one stays active as well. -/
theorem eof_after_upload_leaves_traces :
    (pathzStart (loadedWith (readPolicy "alice"))).srv.metadata.pathzVersion = "unknown" ∧
      (pathzRotate demoPathz false none uploadThenEof
        (pathzStart (loadedWith (readPolicy "alice")))).2.srv.metadata =
          { pathzVersion := "v2", pathzCreatedOn := "7" } ∧
      ¬ Unchanged demoPathz (pathzStart (loadedWith (readPolicy "alice")))
        (pathzRotate demoPathz false none uploadThenEof
          (pathzStart (loadedWith (readPolicy "alice")))).2 ∧
      (pathzRotate demoPathz false none uploadThenEof
        (pathzStart {})).2.srv.pathzProcessor.policy.isSome = true ∧
      (pathzRotate demoPathz false none uploadThenEof (pathzStart {})).2.host.fs.node
        ["etc", "pathz_policy"] = some (.file "rules") := by
  have hmetadata : (pathzRotate demoPathz false none uploadThenEof
      (pathzStart (loadedWith (readPolicy "alice")))).2.srv.metadata =
        { pathzVersion := "v2", pathzCreatedOn := "7" } := by
    decide +kernel
  refine ⟨rfl, hmetadata, ?_, by decide +kernel, by decide +kernel⟩
  intro hunchanged
  have hsame := hunchanged.metadata
  rw [hmetadata] at hsame
  contradiction

/-- A stream that ends at once leaves nothing behind. -/
theorem pathzRotate_unchanged_eof :
    Unchanged demoPathz (pathzStart (loadedWith (readPolicy "alice")))
      (pathzRotate demoPathz false none [] (pathzStart (loadedWith (readPolicy "alice")))).2 := by
  have hend : (pathzRotate demoPathz false none []
      (pathzStart (loadedWith (readPolicy "alice")))).1 =
        .reverted ⟨.aborted, "No Finalize message"⟩ := by
    rfl
  exact (pathzRotate_unchanged_iff demoPathz _ [] (loadedWith_loaded _) (by decide +kernel)
    hend).2 ⟨rfl, Or.inr rfl⟩

end SonicGnmi.Gnsi
