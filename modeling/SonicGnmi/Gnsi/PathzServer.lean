import SonicGnmi.Gnsi.Host
import SonicGnmi.Grpc.Status
import SonicGnmi.Pathz.Model

/-!
# Rotation of the path policy

`GNSIPathzServer.Rotate` of `gnsi_pathz.go`.  A session starts with a
checkpoint, replaces the policy with each upload, and ends with a Finalize or
with a revert.

The metadata record is shared: the server and its checkpoint hold pointers, so
the records live in a heap and a pointer is a number.  What the stream delivers
and which operations of the machine fail is a list of events; a stream whose
list is used up delivers EOF.
-/

namespace SonicGnmi.Gnsi

open Foundation Grpc Pathz

structure PathzMetadata where
  pathzVersion : String := "unknown"
  pathzCreatedOn : String := "0"
  deriving DecidableEq

/-- The settings of the service, with the encoders of policy and metadata. -/
structure PathzConfig where
  pathzPolicyFile : String
  pathzMetaFile : String
  /-- `proto.MarshalTextString`. -/
  marshalTextString : Option AuthorizationPolicy → String
  /-- The JSON text of the metadata. -/
  encode : PathzMetadata → String

/-- `pathzV1PolicyBackup`. -/
def PathzConfig.pathzPolicyBackup (config : PathzConfig) : String :=
  config.pathzPolicyFile ++ ".backup"

/-- `GNSIPathzServer`, with the heap of the metadata records. -/
structure PathzServer where
  pathzProcessor : GnmiAuthzProcessor := {}
  records : Nat → PathzMetadata := fun _ => {}
  pathzMetadata : Nat := 0
  pathzMetadataCopy : Nat := 0
  policyCopy : Option AuthorizationPolicy := none
  policyUpdated : Bool := false

/-- The metadata the server points to. -/
def PathzServer.metadata (srv : PathzServer) : PathzMetadata := srv.records srv.pathzMetadata

/-- The service on its machine. -/
structure PathzState where
  srv : PathzServer
  host : Host

/-! ## Messages and faults -/

/-- `pathz.UploadRequest`. -/
structure PathzUpload where
  version : String := ""
  createdOn : UInt64 := 0
  policy : Option AuthorizationPolicy := none

/-- `pathz.RotateRequest`. -/
inductive PathzRequest where
  | upload (request : PathzUpload) (forceOverwrite : Bool)
  | finalizeRotation
  | empty

/-- The operations of the machine that fail while a message is processed. -/
structure PathzFaults where
  write : Option WriteFailure := none
  read : Option String := none
  dbVersion : Option String := none
  dbCreatedOn : Option String := none
  metaFile : Option WriteFailure := none
  removeBackup : Option String := none

/-- What the stream delivers next. -/
inductive PathzEvent where
  | eof
  | recvError (message : String)
  | request (req : PathzRequest) (faults : PathzFaults) (sendError : Option String)

/-- How a session ends: its Finalize was accepted, with the result of the
commit, or it was reverted. -/
inductive PathzEnd where
  | accepted (result : Except Status Unit)
  | reverted (status : Status)

section Service

variable (config : PathzConfig)

/-! ## The steps of a session -/

variable (st : PathzState)

def writePathzMetadataToDB (faults : PathzFaults) : Except String Unit × PathzState :=
  match writeCredentialsMetadataToDB st.host "PATHZ_POLICY|ACTIVE" "" "pathz_version"
      st.srv.metadata.pathzVersion faults.dbVersion with
  | (.error e, host) => (.error e, { st with host := host })
  | (.ok (), host) =>
    let (result, host) := writeCredentialsMetadataToDB host "PATHZ_POLICY|ACTIVE" ""
      "pathz_created_on" st.srv.metadata.pathzCreatedOn faults.dbCreatedOn
    (result, { st with host := host })

/-- `savePathzPolicyToFile` and `verifyPathzFile`: the file holds the text that
was written. -/
def savePathzPolicy (st : PathzState) (content : String) (faults : PathzFaults) :
    Except String Unit × PathzState :=
  match attemptWrite st.host.fs config.pathzPolicyFile content faults.write with
  | (.error e, fs) => (.error e, { st with host := { st.host with fs := fs } })
  | (.ok (), fs) =>
    let st := { st with host := { st.host with fs := fs } }
    match faults.read with
    | some e => (.error e, st)
    | none =>
      match fs.readFile config.pathzPolicyFile with
      | .error e => (.error e, st)
      | .ok found =>
        if content ≠ found then
          (.error ("Pathz file " ++ config.pathzPolicyFile ++ " contains error."), st)
        else
          (.ok (), st)

def updatePolicy (policy : Option AuthorizationPolicy) (faults : PathzFaults) :
    Except String Unit × PathzState :=
  match savePathzPolicy config st (config.marshalTextString policy) faults with
  | (.error e, st) => (.error e, st)
  | (.ok (), st) =>
    match st.srv.pathzProcessor.updatePolicyFromProto policy with
    | .error e => (.error e, st)
    | .ok processor => (.ok (), { st with srv := { st.srv with pathzProcessor := processor } })

/-- `createCheckpoint`.  The copy of the metadata is the same pointer. -/
def createCheckpoint (st : PathzState) (copyError : Option String) : Except String Unit × PathzState :=
  let st := { st with srv := { st.srv with
    policyCopy := st.srv.pathzProcessor.policy
    policyUpdated := false
    pathzMetadataCopy := st.srv.pathzMetadata } }
  match copyError with
  | some e => (.error e, st)
  | none =>
    match copyFile st.host.fs config.pathzPolicyFile config.pathzPolicyBackup with
    | .error e => (.error e, st)
    | .ok fs => (.ok (), { st with host := { st.host with fs := fs } })

/-- The end of `revertPolicy`: metadata and policy file. -/
def restoreFiles : Except String Unit × PathzState :=
  let st := { st with srv := { st.srv with pathzMetadata := st.srv.pathzMetadataCopy } }
  match st.host.fs.rename config.pathzPolicyBackup config.pathzPolicyFile with
  | .error e => (.error e, st)
  | .ok fs => (.ok (), { st with host := { st.host with fs := fs } })

/-- `revertPolicy`.  It gives up when the policy of the checkpoint is not
accepted. -/
def revertPolicy (st : PathzState) : Except String Unit × PathzState :=
  if st.srv.policyUpdated then
    let st := { st with srv := { st.srv with policyUpdated := false } }
    match st.srv.pathzProcessor.updatePolicyFromProto st.srv.policyCopy with
    | .error e =>
      match st.host.fs.remove config.pathzPolicyBackup with
      | .error _ => (.error e, st)
      | .ok fs => (.error e, { st with host := { st.host with fs := fs } })
    | .ok processor =>
      restoreFiles config { st with srv := { st.srv with pathzProcessor := processor } }
  else
    restoreFiles config st

def commitChanges (faults : PathzFaults) : Except String Unit × PathzState :=
  match writePathzMetadataToDB st faults with
  | (.error e, st) => (.error e, st)
  | (.ok (), st) =>
    let (result, fs) := attemptWrite st.host.fs config.pathzMetaFile
      (config.encode st.srv.metadata) faults.metaFile
    (result, { st with host := { st.host with fs := fs } })

/-- The metadata of an upload. -/
def PathzUpload.metadata (request : PathzUpload) : PathzMetadata where
  pathzVersion := request.version
  pathzCreatedOn := toString request.createdOn.toNat

/-- Write the fields of the metadata record. -/
def PathzState.setMetadata (metadata : PathzMetadata) : PathzState :=
  { st with srv := { st.srv with
    records := Function.update st.srv.records st.srv.pathzMetadata metadata } }

@[simp] theorem PathzState.setMetadata_processor (metadata : PathzMetadata) :
    (st.setMetadata metadata).srv.pathzProcessor = st.srv.pathzProcessor := rfl

/-- `srv.policyUpdated = true`. -/
def PathzState.setUpdated : PathzState :=
  { st with srv := { st.srv with policyUpdated := true } }

/-- `processRotateRequest`.  The metadata changes before the policy is
written. -/
def processRotateRequest (st : PathzState) (req : PathzRequest) (faults : PathzFaults) :
    Except Status Unit × PathzState :=
  match req with
  | .finalizeRotation => (.error ⟨.aborted, "Unknown request: "⟩, st)
  | .empty => (.error ⟨.aborted, "Unknown request: "⟩, st)
  | .upload policyReq forceOverwrite =>
    if policyReq.version.length = 0 then
      (.error ⟨.aborted, "Pathz policy version cannot be empty"⟩, st)
    else if st.srv.metadata.pathzVersion = policyReq.version ∧ !forceOverwrite then
      (.error ⟨.alreadyExists,
        "Pathz with version `" ++ policyReq.version ++ "` already exists"⟩, st)
    else
      match updatePolicy config (st.setMetadata policyReq.metadata) policyReq.policy faults with
      | (.error e, st) => (.error ⟨.aborted, e⟩, st)
      | (.ok (), st) => (.ok (), st.setUpdated)

/-- End a session with a revert.  The result of the revert shows only after an
EOF. -/
def revertWith (status : Status) (st : PathzState) : PathzEnd × PathzState :=
  (.reverted status, (revertPolicy config st).2)

/-- The removal of the backup at the end of a session; its error is ignored. -/
def removePathzBackup (failure : Option String) : PathzState :=
  match failure with
  | some _ => st
  | none =>
    match st.host.fs.remove config.pathzPolicyBackup with
    | .error _ => st
    | .ok fs => { st with host := { st.host with fs := fs } }

/-- The loop of `Rotate`. -/
def pathzLoop : List PathzEvent → PathzState → PathzEnd × PathzState
  | [], st | .eof :: _, st =>
    match revertPolicy config st with
    | (.error e, st) => (.reverted ⟨.aborted, "Error in reverting policy: " ++ e⟩, st)
    | (.ok (), st) => (.reverted ⟨.aborted, "No Finalize message"⟩, st)
  | .recvError message :: _, st => revertWith config ⟨.aborted, message⟩ st
  | .request .finalizeRotation faults _ :: _, st =>
    if !st.srv.policyUpdated then
      revertWith config
        ⟨.aborted, "Received finalize message without successful rotation"⟩ st
    else
      match commitChanges config st faults with
      | (.error e, st) =>
        (.accepted (.error ⟨.aborted, "Final policy commit fails: " ++ e⟩), st)
      | (.ok (), st) =>
        (.accepted (.ok ()), removePathzBackup config st faults.removeBackup)
  | .request req faults sendError :: rest, st =>
    match processRotateRequest config st req faults with
    | (.error e, st) => revertWith config e st
    | (.ok (), st) =>
      match sendError with
      | some message => revertWith config ⟨.aborted, message⟩ st
      | none => pathzLoop rest st

/-- `Rotate` after authentication.  A session that cannot start is refused. -/
def pathzRotate (locked : Bool) (checkpointError : Option String) (events : List PathzEvent) (st : PathzState) :
    PathzEnd × PathzState :=
  if locked then
    (.reverted ⟨.aborted, "Concurrent Pathz RPCs are not allowed"⟩, st)
  else
    match fileCheck st.host.fs config.pathzPolicyFile with
    | .error e =>
      (.reverted ⟨.notFound, "Error in reading file " ++ config.pathzPolicyFile ++ ": " ++ e⟩, st)
    | .ok () =>
      match createCheckpoint config st checkpointError with
      | (.error e, st) => (.reverted ⟨.aborted, "Error in creating checkpoint: " ++ e⟩, st)
      | (.ok (), st) => pathzLoop config events st

end Service

end SonicGnmi.Gnsi
