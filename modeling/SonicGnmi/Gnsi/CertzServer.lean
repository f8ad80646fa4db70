import SonicGnmi.Foundation.GoMap
import SonicGnmi.Gnsi.CertzFiles

/-!
# Rotation of certificates

`GNSICertzServer.Rotate` of `gnsi_certz.go`.  A session uploads certificates,
trust bundles, revocation lists and authentication policies; each becomes active
at once, and the session ends with a Finalize or with a revert.

The source keeps entities behind pointers.  Only the `Final` flag of an active
entity is ever changed through one, and no other pointer to that entity exists
as long as the flag is false, so entities are values here.  What the stream
delivers is a list of events; a stream whose list is used up delivers EOF.

The clock is part of the state and moves on by at least one nanosecond at each
reading.  The certificate library, the JSON encoder and the state of the
database are parameters.
-/

namespace SonicGnmi.Gnsi

open Foundation Grpc

inductive CertzType where
  | cert
  | trustBundle
  | crl
  | authPolicy
  deriving DecidableEq

/-- `CertzType.String`. -/
def CertzType.text : CertzType → String
  | .cert => "Certificate"
  | .trustBundle => "TrustBundle"
  | .crl => "CRLBundle"
  | .authPolicy => "AuthPolicy"

structure GenericEntity where
  eType : CertzType := .cert
  createdOn : UInt64 := 0
  version : String := ""
  certPath : String := ""
  keyPath : String := ""
  final : Bool := false
  deriving DecidableEq

structure EntityGroup where
  cert : GenericEntity := {}
  trustBundle : GenericEntity := {}
  crlBundle : GenericEntity := {}
  authPolicy : GenericEntity := {}
  deriving DecidableEq

/-- `profile`. -/
structure CertzProfile where
  id : String
  active : EntityGroup
  last : EntityGroup := {}
  generatedKey : Option String := none
  deriving DecidableEq

def defaultProfile : String := "gnxi"

/-- The settings of the service and what it gets from libraries. -/
structure CertzConfig extends LinkConfig where
  certCRLConfig : String
  fedPolicyFile : String
  certzMetaFile : String
  /-- `json.Marshal` of the profiles. -/
  marshal : GoMap String CertzProfile → String
  /-- `pem.Decode` and `x509.ParseRevocationList`. -/
  parseCrl : String → CrlParse
  /-- The error of the database, if it is not available. -/
  dbError : Option String := none

/-- The service on its machine. -/
structure CertzState where
  profiles : GoMap String CertzProfile
  host : Host
  clock : Nat

/-! ## Messages -/

/-- `certz.Certificate`. -/
structure CertificateMsg where
  x509 : Bool := true
  pem : Bool := true
  certificate : Option String := none
  privateKey : Option String := none

/-- `certz.CertificateChain`: a certificate, and those of its parents. -/
structure CertificateChain where
  certificate : Option CertificateMsg
  parents : List (Option CertificateMsg) := []

/-- The `oneof` of `certz.Entity`. -/
inductive EntityBody where
  | certificateChain (chain : CertificateChain)
  | trustBundle (certificate : Option CertificateMsg)
  | crlBundle (crls : List CrlMsg)
  | authenticationPolicy (serialized : String)
  | other

/-- `certz.Entity`, and the time that passes before its name is made. -/
structure EntityMsg where
  createdOn : UInt64
  version : String
  body : EntityBody
  /-- The text that `%+v` prints for the message. -/
  text : String := ""
  elapsed : Nat := 0

/-- `x509.SignatureAlgorithm`, as far as a suite leads to it. -/
inductive SignatureAlgorithm where
  | rsa (hash : Nat)
  | ecdsa (hash : Nat)
  | pureEd25519
  | unknown
  deriving DecidableEq

/-- `SignatureAlgorithm.String` of the algorithms that are not supported. -/
def SignatureAlgorithm.text : SignatureAlgorithm → String
  | .rsa hash => "SHA" ++ toString hash ++ "-RSA"
  | .ecdsa hash => "ECDSA-SHA" ++ toString hash
  | .pureEd25519 => "Ed25519"
  | .unknown => "0"

inductive CsrSuite where
  | rsa (bits : Nat) (hash : Nat)
  | ecdsa (bits : Nat) (hash : Nat)
  | eddsa
  | unspecified
  deriving DecidableEq

/-- `parseCSRSuite`.  Longer RSA keys with SHA-256 get SHA-512. -/
def parseCSRSuite : CsrSuite → Nat × SignatureAlgorithm
  | .rsa bits hash =>
    if bits ≠ 2048 ∧ hash = 256 then (bits, .rsa 512) else (bits, .rsa hash)
  | .ecdsa bits hash => (bits, .ecdsa hash)
  | .eddsa => (256, .pureEd25519)
  | .unspecified => (0, .unknown)

/-- The `oneof` of `certz.RotateCertificateRequest` without Finalize.  A request
for a signing request comes with its suite, if it has parameters, and with what
the key generation gives: a key, or an error. -/
inductive CertzBody where
  | generateCsr (suite : Option CsrSuite) (generated : Except Status String)
  | certificates (entities : List EntityMsg)
  | other (typeName : String)

/-- What the stream delivers next. -/
inductive CertzEvent where
  | eof
  | recvError (message : String)
  | finalizeRotation
  | request (sslProfileId : String) (body : CertzBody) (forceOverwrite : Bool)
      (sendError : Option String)

/-- How a session ends: finalized, with an error, or with a panic, which ends
the server. -/
inductive CertzEnd where
  | finalized
  | failed (status : Status)
  | crashed (reason : String)

section Service

variable (config : CertzConfig)

/-! ## Entities -/

/-- The directory of the active revocation lists. -/
def CertzConfig.crlPath (profileID : String) : String :=
  joinPath config.certCRLConfig (if profileID = defaultProfile then "crl" else profileID)

/-- The endings of generated file names. -/
def pemEnding (t : Nat) (kind : String) : String := "_" ++ toString t ++ kind

/-- `newGenericEntity`, at a time. -/
def newGenericEntity (eType : CertzType) (profileID : String) (msg : EntityMsg) (t : Nat) :
    GenericEntity :=
  let ver := String.ofList (msg.version.toList.map fun c => if c = ' ' then '-' else c)
  let entity : GenericEntity := { eType := eType, createdOn := msg.createdOn, version := msg.version }
  match eType with
  | .cert =>
    { entity with
      certPath := dirPath config.srvCertLnk ++ "/" ++ profileID ++ "_" ++ ver ++
        pemEnding t "_cert.pem"
      keyPath := dirPath config.srvKeyLnk ++ "/" ++ profileID ++ "_" ++ ver ++
        pemEnding t "_key.pem" }
  | .trustBundle =>
    { entity with
      certPath := dirPath config.caCertLnk ++ "/ca_" ++ profileID ++ "_" ++ ver ++
        pemEnding t "_bundle.pem" }
  | .crl => { entity with certPath := config.crlPath profileID }
  | .authPolicy => { entity with certPath := config.fedPolicyFile }

/-- The type of an uploaded entity. -/
def EntityBody.eType : EntityBody → Option CertzType
  | .certificateChain _ => some .cert
  | .trustBundle _ => some .trustBundle
  | .crlBundle _ => some .crl
  | .authenticationPolicy _ => some .authPolicy
  | .other => none

/-- The entity of a group with a type. -/
def EntityGroup.get (group : EntityGroup) : CertzType → GenericEntity
  | .cert => group.cert
  | .trustBundle => group.trustBundle
  | .crl => group.crlBundle
  | .authPolicy => group.authPolicy

/-- Replace the entity of a type. -/
def EntityGroup.set (group : EntityGroup) (eType : CertzType) (entity : GenericEntity) :
    EntityGroup :=
  match eType with
  | .cert => { group with cert := entity }
  | .trustBundle => { group with trustBundle := entity }
  | .crl => { group with crlBundle := entity }
  | .authPolicy => { group with authPolicy := entity }

variable (st : CertzState)

def entityAlreadyActive (profileID : String) (entity : GenericEntity) : Except Fault Unit :=
  match st.profiles.lookup profileID with
  | none => .ok ()
  | some profile =>
    if entity.version = (profile.active.get entity.eType).version then
      statusError .alreadyExists (entity.eType.text ++ " with profile=`" ++ profileID ++
        "` and version=`" ++ entity.version ++ "` already exists")
    else .ok ()

def CertzType.field : CertzType → String
  | .cert => "certificate"
  | .trustBundle => "ca_trust_bundle"
  | .crl => "certificate_revocation_list_bundle"
  | .authPolicy => "authentication_policy"

/-- `writeEntityFreshness`; errors of the database are only logged. -/
def writeEntityFreshness (host : Host) (profileID : String) (entity : GenericEntity) : Host :=
  let created := toString entity.createdOn.toNat ++ "000000000"
  let host := (writeCredentialsMetadataToDB host "CERT" profileID
    (entity.eType.field ++ "_created_on") created config.dbError).2
  (writeCredentialsMetadataToDB host "CERT" profileID
    (entity.eType.field ++ "_version") entity.version config.dbError).2

/-! ## Saving an entity -/

/-- The certificates of the parents, each with a line end. -/
def readParents : List (Option CertificateMsg) → Except Fault String
  | [] => .ok ""
  | none :: _ => .error (.panic "invalid memory address or nil pointer dereference")
  | some msg :: rest =>
    if msg.x509 = false then statusError .invalidArgument "certificate type has to be X.509"
    else if msg.pem = false then
      statusError .invalidArgument "certificate encoding has to be PEM"
    else
      match readParents rest with
      | .error fault => .error fault
      | .ok text => .ok (msg.certificate.getD "" ++ "\n" ++ text)

/-- `readCertChain`: the certificates and the key. -/
def readCertChain (generatedKey : Option String) (chain : CertificateChain) :
    Except Fault (String × String) :=
  match chain.certificate with
  | none => statusError .invalidArgument "Missing Certificate"
  | some msg =>
    if msg.x509 = false then statusError .invalidArgument "certificate type has to be X.509"
    else if msg.pem = false then
      statusError .invalidArgument "certificate encoding has to be PEM"
    else
      match msg.certificate with
      | none => statusError .invalidArgument "Missing Cert data"
      | some certificate =>
        match msg.privateKey.or generatedKey with
        | none => statusError .invalidArgument "Missing Key"
        | some key =>
          match readParents chain.parents with
          | .error fault => .error fault
          | .ok parents => .ok (certificate ++ "\n" ++ parents, key)

variable (fs : FileSystem)

/-- `attemptWrite`, with its error as a fault. -/
def saveFile (name data : String) : Except Fault Unit × FileSystem :=
  match attemptWrite fs name data none with
  | (.error e, fs) => (.error (.plain e), fs)
  | (.ok (), fs) => (.ok (), fs)

/-- The backup of the policy that is replaced; an older backup stays. -/
def backupAuthPolicy (path : String) : Except String FileSystem :=
  match fs.lstat (path ++ ".bak") with
  | .ok _ => .ok fs
  | .error _ => fs.rename path (path ++ ".bak")

/-- The backup takes the place of the policy; an error is only logged. -/
def restoreAuthPolicy (path : String) : FileSystem :=
  match fs.rename (path ++ ".bak") path with
  | .error _ => fs
  | .ok fs => fs

/-- `saveEntities` for an authentication policy. -/
def saveAuthPolicy (path serialized : String) : Except Fault Unit × FileSystem :=
  match backupAuthPolicy fs path with
  | .error e => (.error (.plain e), fs)
  | .ok fs =>
    match saveFile fs path serialized with
    | (.error fault, fs) => (.error fault, restoreAuthPolicy fs path)
    | (.ok (), fs) => (.ok (), fs)

def saveEntities (generatedKey : Option String) (msg : EntityMsg)
    (entity : GenericEntity) : Except Fault Unit × FileSystem :=
  match msg.body with
  | .certificateChain chain =>
    match readCertChain generatedKey chain with
    | .error fault => (.error fault, fs)
    | .ok (cert, key) =>
      match saveFile fs entity.keyPath key with
      | (.error fault, fs) => (.error fault, fs)
      | (.ok (), fs) => saveFile fs entity.certPath cert
  | .trustBundle certificate =>
    match certificate with
    | none => (.error (.panic "invalid memory address or nil pointer dereference"), fs)
    | some tb =>
      if tb.x509 = false then
        (statusError .invalidArgument "trustBundle type has to be X.509", fs)
      else if tb.pem = false then
        (statusError .invalidArgument "trustBundle encoding has to be PEM", fs)
      else if tb.certificate.getD "" = "" then
        (statusError .invalidArgument "trustBundle cannot be empty", fs)
      else saveFile fs entity.certPath (tb.certificate.getD "")
  | .crlBundle crls =>
    match rotateCRLBundle config.parseCrl fs crls entity.certPath with
    | (.error fault, fs) => (.error (fault.withCode .aborted), fs)
    | (.ok (), fs) => (.ok (), fs)
  | .authenticationPolicy serialized => saveAuthPolicy fs entity.certPath serialized
  | .other =>
    (statusError .internal ("failed to find entity type: " ++ msg.text), fs)

/-! ## Activating an entity -/

/-- The links of a type point to an entity. -/
def setLinks (eType : CertzType) (entity : GenericEntity) : Except String Unit × FileSystem :=
  match eType with
  | .cert => atomicSetSrvCertKeyPair config.toLinkConfig fs entity.certPath entity.keyPath {}
  | .trustBundle => atomicSetCACert config.toLinkConfig fs entity.certPath {}
  | _ => (.ok (), fs)

/-- The active entity of a type is replaced; a final one becomes the last. -/
def CertzProfile.activate (profile : CertzProfile) (entity : GenericEntity) : CertzProfile :=
  let active := profile.active.get entity.eType
  { profile with
    last := if active.final then profile.last.set entity.eType active else profile.last
    active := profile.active.set entity.eType entity }

variable (profileID : String)

def activateEntity (entity : GenericEntity) : Except Fault Unit × CertzState :=
  match st.profiles.lookup profileID with
  | none =>
    (statusError .invalidArgument ("Rotate requested with invalid ssl_profile_id: " ++ profileID),
      st)
  | some profile =>
    match setLinks config st.host.fs entity.eType entity with
    | (.error e, fs) => (.error (.plain e), { st with host := { st.host with fs := fs } })
    | (.ok (), fs) =>
      (.ok (), { st with
          profiles := st.profiles.insert profileID (profile.activate entity)
          host := writeEntityFreshness config { st.host with fs := fs } profileID entity })

/-! ## Requests -/

/-- One round of the loop of `doUpload`. -/
def uploadEntity (overwrite : Bool) (profileID : String) (msg : EntityMsg) :
    Except Fault Unit × CertzState :=
  if msg.createdOn = 0 then (statusError .invalidArgument "created_on cannot be empty", st)
  else if msg.version = "" then (statusError .invalidArgument "version cannot be empty", st)
  else if msg.body.eType = some .crl ∧ config.certCRLConfig = "" then
    (statusError .aborted "CRL not configured", st)
  else
    match msg.body.eType with
    | none => (statusError .internal ("failed to find entity type: " ++ msg.text), st)
    | some eType =>
      let t := st.clock + msg.elapsed + 1
      let st := { st with clock := t }
      let entity := newGenericEntity config eType profileID msg t
      match if overwrite then .ok () else entityAlreadyActive st profileID entity with
      | .error fault => (.error fault, st)
      | .ok () =>
        match saveEntities config st.host.fs
            ((st.profiles.lookup profileID).bind (·.generatedKey)) msg entity with
        | (.error fault, fs) =>
          (.error (fault.wrap .aborted "Entity save err: "),
            { st with host := { st.host with fs := fs } })
        | (.ok (), fs) =>
          match activateEntity config { st with host := { st.host with fs := fs } } profileID
              entity with
          | (.error fault, st) => (.error (fault.wrap .aborted "Entity activate err: "), st)
          | (.ok (), st) => (.ok (), st)

/-- The loop of `doUpload`. -/
def uploadEntities (overwrite : Bool) (profileID : String) :
    CertzState → List EntityMsg → Except Fault Unit × CertzState
  | st, [] => (.ok (), st)
  | st, msg :: rest =>
    match uploadEntity config st overwrite profileID msg with
    | (.error fault, st) => (.error fault, st)
    | (.ok (), st) => uploadEntities overwrite profileID st rest

def doUpload (entities : List EntityMsg) (overwrite : Bool)
    (profileID : String) : Except Fault Unit × CertzState :=
  match entities with
  | [] => (statusError .invalidArgument "entity cannot be empty", st)
  | _ => uploadEntities config overwrite profileID st entities

/-- `doGenerateCsr`, for a profile. -/
def doGenerateCsr (profile : CertzProfile) (suite : Option CsrSuite)
    (generated : Except Status String) : Except Fault CertzProfile :=
  match suite with
  | none => .error (.panic "invalid memory address or nil pointer dereference")
  | some suite =>
    let (keySize, sigAlgo) := parseCSRSuite suite
    if sigAlgo = .pureEd25519 ∨ sigAlgo = .unknown then
      statusError .invalidArgument ("Unsupported Algorithm: " ++ sigAlgo.text)
    else if (∃ hash ∈ [256, 384, 512], sigAlgo = .ecdsa hash) ∧ keySize ∉ [256, 384, 521] then
      statusError .invalidArgument ("Unsupported key size for ECDSA: " ++ toString keySize)
    else
      match generated with
      | .error status => .error (.status status)
      | .ok key => .ok { profile with generatedKey := some key }

/-- `processRotateRequest`. -/
def processCertzRequest (body : CertzBody) (overwrite : Bool) : Except Fault Unit × CertzState :=
  match st.profiles.lookup profileID with
  | none =>
    (statusError .invalidArgument
      ("Rotate requested with invalid ssl_profile_id: " ++ profileID), st)
  | some profile =>
    match body with
    | .generateCsr suite generated =>
      match doGenerateCsr profile suite generated with
      | .error fault => (.error fault, st)
      | .ok profile => (.ok (), { st with profiles := st.profiles.insert profileID profile })
    | .certificates entities => doUpload config st entities overwrite profileID
    | .other typeName => (statusError .aborted ("Invalid RotateRequest: " ++ typeName), st)

/-! ## The end of a session -/

/-- `os.Remove`, whose error is only logged. -/
def removeLogged (path : String) : FileSystem :=
  match fs.remove path with
  | .error _ => fs
  | .ok fs => fs

def removeEntityFiles (entity : GenericEntity) : FileSystem :=
  match entity.eType with
  | .cert => removeLogged (removeLogged fs entity.certPath) entity.keyPath
  | .trustBundle => removeLogged fs entity.certPath
  | _ => fs

/-- The file operations of `revertProfile` for one type. -/
def revertFiles (eType : CertzType) (active last : GenericEntity) : FileSystem :=
  match eType with
  | .cert => removeEntityFiles (setLinks config fs .cert last).2 active
  | .trustBundle => removeEntityFiles (setLinks config fs .trustBundle last).2 active
  | .crl =>
    copyCRLBundle fs (config.crlPath profileID ++ "_flush") (config.crlPath profileID)
  | .authPolicy => restoreAuthPolicy fs active.certPath

/-- `revertProfile` for one type: an entity that is not final gives way to the
last one. -/
def revertEntity (st : CertzState) (eType : CertzType) : CertzState :=
  match st.profiles.lookup profileID with
  | none => st
  | some profile =>
    let active := profile.active.get eType
    let last := profile.last.get eType
    if active.final then st
    else
      { st with
        profiles := st.profiles.insert profileID
          { profile with active := profile.active.set eType last }
        host := writeEntityFreshness config
          { st.host with fs := revertFiles config st.host.fs profileID eType active last }
          profileID last }

def revertProfile : CertzState :=
  let profileID := if profileID = "" then defaultProfile else profileID
  [CertzType.cert, .trustBundle, .crl, .authPolicy].foldl (revertEntity config profileID) st

/-- The file operations of `finalizeProfile` for one type. -/
def finalizeFiles (eType : CertzType) (active last : GenericEntity) : FileSystem :=
  match eType with
  | .cert => removeEntityFiles fs last
  | .trustBundle => removeEntityFiles fs last
  | .crl => copyCRLBundle fs (config.crlPath profileID) (config.crlPath profileID ++ "_flush")
  | .authPolicy => removeLogged fs (active.certPath ++ ".bak")

/-- `finalizeProfile` for one type: the active entity becomes final, and also
the last one. -/
def finalizeEntity (st : CertzState) (eType : CertzType) : CertzState :=
  match st.profiles.lookup profileID with
  | none => st
  | some profile =>
    let active := profile.active.get eType
    if active.final then
      -- the last list bundle is only replaced by a new one
      if eType = .crl then st
      else
        { st with
          profiles := st.profiles.insert profileID
            { profile with last := profile.last.set eType active } }
    else
      let final := { active with final := true }
      { st with
        profiles := st.profiles.insert profileID
          { profile with
            active := profile.active.set eType final
            last := profile.last.set eType final }
        host := { st.host with
          fs := finalizeFiles config st.host.fs profileID eType active (profile.last.get eType) } }

def saveCertzMetadata : Except Fault Unit × CertzState :=
  match saveFile st.host.fs config.certzMetaFile (config.marshal st.profiles) with
  | (result, fs) => (result, { st with host := { st.host with fs := fs } })

def finalizeProfile : Except Fault Unit × CertzState :=
  match st.profiles.lookup profileID with
  | none =>
    (statusError .invalidArgument
      ("Finalize requested with invalid ssl_profile_id: " ++ profileID), st)
  | some _ =>
    saveCertzMetadata config
      ([CertzType.cert, .trustBundle, .crl, .authPolicy].foldl (finalizeEntity config profileID) st)

/-! ## The session -/

/-- The end of a session with a fault. -/
def endWith (head : String) (code : Code) (fault : Fault) : CertzEnd :=
  match fault.wrap code head with
  | .status status => .failed status
  | .plain text => .failed ⟨code, text⟩
  | .panic reason => .crashed reason

/-- The profile of a session is the one of its first request. -/
def sessionProfile (profileId sslProfileId : String) : String :=
  if profileId ≠ "" then profileId
  else if sslProfileId ≠ "" then sslProfileId
  else defaultProfile

/-- The loop of `Rotate`. -/
def certzLoop : String → List CertzEvent → CertzState → CertzEnd × CertzState
  | profileId, [], st =>
    (.failed ⟨.aborted, "No Finalize message"⟩, revertProfile config st profileId)
  | profileId, .eof :: _, st =>
    (.failed ⟨.aborted, "No Finalize message"⟩, revertProfile config st profileId)
  | profileId, .recvError message :: _, st =>
    (.failed ⟨.aborted, "Stream recv err: " ++ message⟩, revertProfile config st profileId)
  | profileId, .finalizeRotation :: _, st =>
    match finalizeProfile config st profileId with
    | (.error fault, st) =>
      (endWith "Failed to remove the old credentials: " .unknown fault, st)
    | (.ok (), st) => (.finalized, st)
  | profileId, .request sslProfileId body overwrite sendError :: rest, st =>
    let profileId := sessionProfile profileId sslProfileId
    match processCertzRequest config st profileId body overwrite with
    | (.error (.panic reason), st) => (.crashed reason, st)
    | (.error fault, st) =>
      (endWith "Process err: " .aborted fault, revertProfile config st profileId)
    | (.ok (), st) =>
      match sendError with
      | some e =>
        (.failed ⟨.aborted, "Stream send err: " ++ e⟩, revertProfile config st profileId)
      | none => certzLoop profileId rest st

/-- `Rotate` after the authentication, when another call may hold the lock. -/
def certzRotate (locked : Bool) (events : List CertzEvent) (st : CertzState) :
    CertzEnd × CertzState :=
  if locked then
    (.failed ⟨.aborted, "concurrent certz.Rotate RPCs are not allowed"⟩, st)
  else certzLoop config "" events st

/-- Sessions one after another; a panic ends the server. -/
def certzSessions : List (List CertzEvent) → CertzState → Option CertzState
  | [], st => some st
  | events :: rest, st =>
    match certzRotate config false events st with
    | (.crashed _, _) => none
    | (_, st) => certzSessions rest st

end Service

end SonicGnmi.Gnsi
