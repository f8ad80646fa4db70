import SonicGnmi.Gnsi.Host
import SonicGnmi.Grpc.Status

/-!
# Rotation of the authorization policy

`GNSIAuthzServer.Rotate` of `gnsi_authz.go`.  A session starts with a checkpoint of the
policy file and of the metadata, replaces both with each upload, and ends with a Finalize
or with a revert.

What the stream delivers and which operations of an upload fail is a list of events; a
stream whose list is used up delivers EOF.
-/

namespace SonicGnmi.Gnsi

open Foundation Grpc

structure AuthzMetadata where
  authzVersion : String := "unknown"
  authzCreatedOn : String := "0"
  deriving DecidableEq

/-- The settings of the service, with the JSON functions it uses. -/
structure AuthzConfig where
  authzPolicyFile : String
  authzMetaFile : String
  /-- `json.Valid`. -/
  jsonValid : String → Bool
  /-- The JSON text of the metadata. -/
  encode : AuthzMetadata → String

/-- The copy of the policy file. -/
def AuthzConfig.backup (config : AuthzConfig) : String := config.authzPolicyFile ++ ".bak"

/-- `GNSIAuthzServer` on its machine. -/
structure AuthzState where
  authzMetadata : AuthzMetadata := {}
  authzMetadataCopy : AuthzMetadata := {}
  host : Host

/-! ## Messages and faults -/

/-- `authz.UploadRequest`. -/
structure AuthzUpload where
  version : String := ""
  createdOn : UInt64 := 0
  policy : String := ""

/-- `authz.RotateAuthzRequest`. -/
inductive AuthzRequest where
  | upload (request : AuthzUpload) (forceOverwrite : Bool)
  | finalizeRotation
  | empty

/-- The errors of the two tables that a field is written to. -/
structure TableFaults where
  p4rt : Option String := none
  gnxi : Option String := none

/-- The operations of the machine that fail during an upload.  The policy file is
replaced by a rename; an operation before it or the `chmod` after it may fail. -/
structure AuthzFaults where
  version : TableFaults := {}
  createdOn : TableFaults := {}
  beforeRename : Option String := none
  afterRename : Option String := none

/-- An operation of `copyFile` that fails; the destination is replaced by a rename. -/
inductive CopyFault where
  | beforeRename (error : String)
  | afterRename (error : String)

/-- What the stream delivers next. -/
inductive AuthzEvent where
  | eof
  | recvError (message : String)
  | request (req : AuthzRequest) (faults : AuthzFaults) (sendError : Option String)

section Service

variable (config : AuthzConfig)

/-! ## The steps of a session -/

/-- The fields of the metadata. -/
inductive AuthzField where
  | version
  | createdOn

def AuthzField.text : AuthzField → String
  | .version => "authz_version"
  | .createdOn => "authz_created_on"

def AuthzMetadata.set (metadata : AuthzMetadata) (val : String) : AuthzField → AuthzMetadata
  | .version => { metadata with authzVersion := val }
  | .createdOn => { metadata with authzCreatedOn := val }

/-- `writeAuthzMetadataToDB`: both tables, and then the metadata in memory. -/
def writeAuthzMetadataToDB (st : AuthzState) (fld : AuthzField) (val : String)
    (faults : TableFaults) : Except String Unit × AuthzState :=
  match writeCredentialsMetadataToDB st.host "AUTHZ_POLICY|p4rt" "" fld.text val faults.p4rt with
  | (.error e, host) => (.error e, { st with host := host })
  | (.ok (), host) =>
    match writeCredentialsMetadataToDB host "AUTHZ_POLICY|gnxi" "" fld.text val faults.gnxi with
    | (.error e, host) => (.error e, { st with host := host })
    | (.ok (), host) =>
      (.ok (), { st with host := host, authzMetadata := st.authzMetadata.set val fld })

variable (st : AuthzState)

def saveToAuthzFile (policy : String) (faults : AuthzFaults) : Except String Unit × AuthzState :=
  match faults.beforeRename with
  | some e => (.error e, st)
  | none =>
    let fs := st.host.fs.set (st.host.fs.loc config.authzPolicyFile) (some (.file policy))
    let st := { st with host := { st.host with fs := fs } }
    match faults.afterRename with
    | some e => (.error e, st)
    | none => (.ok (), st)

/-- The checks of `processRotateRequest`. -/
def checkAuthzUpload (policyReq : AuthzUpload) (forceOverwrite : Bool) : Except Status Unit :=
  if policyReq.policy = "" then .error ⟨.aborted, "Authz policy cannot be empty!"⟩
  else if policyReq.version = "" then .error ⟨.aborted, "Authz policy version cannot be empty!"⟩
  else if !config.jsonValid policyReq.policy then
    .error ⟨.aborted, "Authz policy `" ++ policyReq.policy ++ "` is malformed"⟩
  else
    match fileCheck st.host.fs config.authzPolicyFile with
    | .error e =>
      .error ⟨.notFound, "Error in reading file " ++ config.authzPolicyFile ++ ": " ++ e ++
        ". Please try Install."⟩
    | .ok () =>
      if st.authzMetadata.authzVersion = policyReq.version ∧ !forceOverwrite then
        .error ⟨.alreadyExists, "Authz with version `" ++ policyReq.version ++ "` already exists"⟩
      else .ok ()

/-- `processRotateRequest`. -/
def processAuthzRequest (req : AuthzRequest) (faults : AuthzFaults) :
    Except Status Unit × AuthzState :=
  match req with
  | .finalizeRotation => (.error ⟨.aborted, "Unknown request: "⟩, st)
  | .empty => (.error ⟨.aborted, "Unknown request: "⟩, st)
  | .upload policyReq forceOverwrite =>
    match checkAuthzUpload config st policyReq forceOverwrite with
    | .error e => (.error e, st)
    | .ok () =>
      match writeAuthzMetadataToDB st .version policyReq.version faults.version with
      | (.error e, st) => (.error ⟨.aborted, e⟩, st)
      | (.ok (), st) =>
        match writeAuthzMetadataToDB st .createdOn (toString policyReq.createdOn.toNat)
            faults.createdOn with
        | (.error e, st) => (.error ⟨.aborted, e⟩, st)
        | (.ok (), st) =>
          match saveToAuthzFile config st policyReq.policy faults with
          | (.error e, st) => (.error ⟨.aborted, e⟩, st)
          | (.ok (), st) => (.ok (), st)

/-- `checkpointAuthzFreshness` and `checkpointAuthzFile`; the error of the copy is only
logged. -/
def checkpointAuthz (st : AuthzState) (copyFault : Option CopyFault) : AuthzState :=
  let st := { st with authzMetadataCopy := st.authzMetadata }
  match copyFault with
  | some (.beforeRename _) => st
  | _ =>
    match copyFile st.host.fs config.authzPolicyFile config.backup with
    | .error _ => st
    | .ok fs => { st with host := { st.host with fs := fs } }

def revertAuthzFileFreshness : AuthzState :=
  let st := (writeAuthzMetadataToDB st .version st.authzMetadataCopy.authzVersion {}).2
  (writeAuthzMetadataToDB st .createdOn st.authzMetadataCopy.authzCreatedOn {}).2

/-- The end of a session without Finalize. -/
def revertAuthz : AuthzState :=
  revertAuthzFileFreshness
    (match copyFile st.host.fs config.backup config.authzPolicyFile with
      | .error _ => st
      | .ok fs => { st with host := { st.host with fs := fs } })

/-- `commitAuthzFileChanges`, whose errors are ignored: the backup is removed if there is
a policy file. -/
def commitAuthzFileChanges (fs : FileSystem) : FileSystem :=
  match fs.readFile config.authzPolicyFile with
  | .error _ => fs
  | .ok _ =>
    match fs.readFile config.backup with
    | .error _ => fs
    | .ok _ =>
      match fs.remove config.backup with
      | .error _ => fs
      | .ok fs => fs

/-- `saveAuthzFileFreshess`, whose error is ignored. -/
def saveAuthzFileFreshness : AuthzState :=
  match st.host.fs.writeFile config.authzMetaFile (config.encode st.authzMetadata) with
  | .error _ =>
    match st.host.fs.remove config.authzMetaFile with
    | .error _ => st
    | .ok fs => { st with host := { st.host with fs := fs } }
  | .ok fs => { st with host := { st.host with fs := fs } }

/-- The loop of `Rotate`. -/
def authzLoop : List AuthzEvent → AuthzState → Except Status Unit × AuthzState
  | [], st | .eof :: _, st => (.error ⟨.aborted, "No Finalize message"⟩, revertAuthz config st)
  | .recvError message :: _, st => (.error ⟨.aborted, message⟩, revertAuthz config st)
  | .request .finalizeRotation _ _ :: _, st =>
    let fs := commitAuthzFileChanges config st.host.fs
    (.ok (), saveAuthzFileFreshness config { st with host := { st.host with fs := fs } })
  | .request req faults sendError :: rest, st =>
    match processAuthzRequest config st req faults with
    | (.error e, st) => (.error e, revertAuthz config st)
    | (.ok (), st) =>
      match sendError with
      | some message => (.error ⟨.aborted, message⟩, revertAuthz config st)
      | none => authzLoop rest st

/-- `Rotate` after the authentication, when another call may hold the lock. -/
def authzRotate (locked : Bool) (copyFault : Option CopyFault) (events : List AuthzEvent)
    (st : AuthzState) : Except Status Unit × AuthzState :=
  if locked then
    (.error ⟨.aborted, "concurrent authz.Rotate RPCs are not allowed"⟩, st)
  else authzLoop config events (checkpointAuthz config st copyFault)

end Service

end SonicGnmi.Gnsi
