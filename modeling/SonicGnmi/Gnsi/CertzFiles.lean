import SonicGnmi.Gnsi.Host
import SonicGnmi.Grpc.Status

/-!
# The links and directories of the certificate service

The functions of `gnsi_certz.go` that replace the links to the server
certificate, its key and the trust bundle, and those that fill the directories
of the revocation lists.

Each operation inside the replacement of the links can fail; `PairFaults` and
`BundleFaults` say which ones do.  Clean-up steps whose errors the source ignores
return only the file system.
-/

namespace SonicGnmi.Gnsi

open Foundation Grpc FileSystem

/-! ## Links -/

/-- The operations of `rmSymlink` that fail. -/
structure RmFaults where
  readlink : Option String := none
  remove : Option String := none

/-- `rmSymlink`: the old target, empty when there was nothing. -/
def rmSymlink (fs : FileSystem) (path : String) (faults : RmFaults) :
    Except String String × FileSystem :=
  match fs.node (fs.loc path) with
  | none => (.ok "", fs)
  | some _ =>
    match faults.readlink with
    | some e => (.error e, fs)
    | none =>
      match fs.readlink path with
      | .error e => (.error e, fs)
      | .ok old =>
        match faults.remove with
        | some e => (.error e, fs)
        | none =>
          match fs.remove path with
          | .error e => (.error e, fs)
          | .ok fs => (.ok old, fs)

/-- `restoreSymlink`, whose error every caller ignores. -/
def restoreSymlink (fs : FileSystem) (oldTarget link : String) : FileSystem :=
  if oldTarget = "" then fs
  else
    match (fs.follow oldTarget).bind fs.node with
    | none => fs
    | some _ =>
      match rmSymlink fs link {} with
      | (.error _, fs) => fs
      | (.ok _, fs) =>
        match fs.symlink oldTarget link with
        | .error _ => fs
        | .ok fs => fs

/-- `os.Symlink`, unless it fails. -/
def symlinkOr (fs : FileSystem) (target link : String) (failure : Option String) :
    Except String FileSystem :=
  match failure with
  | some e => .error e
  | none => fs.symlink target link

/-- The paths of the three links. -/
structure LinkConfig where
  srvCertLnk : String
  srvKeyLnk : String
  caCertLnk : String

/-- The operations of `atomicSetSrvCertKeyPair` that fail. -/
structure PairFaults where
  absCert : Option String := none
  absKey : Option String := none
  rmCert : RmFaults := {}
  rmKey : RmFaults := {}
  symlinkCert : Option String := none
  symlinkKey : Option String := none

def atomicSetSrvCertKeyPair (cfg : LinkConfig) (fs : FileSystem) (sCert sKey : String)
    (faults : PairFaults) : Except String Unit × FileSystem :=
  match faults.absCert, faults.absKey with
  | some e, _ => (.error e, fs)
  | none, some e => (.error e, fs)
  | none, none =>
    let cert := (fs.loc sCert).text
    let key := (fs.loc sKey).text
    match rmSymlink fs cfg.srvCertLnk faults.rmCert with
    | (.error e, fs) => (.error e, fs)
    | (.ok oldCert, fs) =>
      match rmSymlink fs cfg.srvKeyLnk faults.rmKey with
      | (.error e, fs) => (.error e, restoreSymlink fs oldCert cfg.srvCertLnk)
      | (.ok oldKey, fs) =>
        match symlinkOr fs cert cfg.srvCertLnk faults.symlinkCert with
        | .error e =>
          (.error e, restoreSymlink (restoreSymlink fs oldCert cfg.srvCertLnk) oldKey cfg.srvKeyLnk)
        | .ok fs =>
          match symlinkOr fs key cfg.srvKeyLnk faults.symlinkKey with
          | .error e =>
            (.error e, restoreSymlink (restoreSymlink fs oldCert cfg.srvCertLnk) oldKey
              cfg.srvKeyLnk)
          | .ok fs => (.ok (), fs)

/-- The operations of `atomicSetCACert` that fail. -/
structure BundleFaults where
  abs : Option String := none
  rm : RmFaults := {}
  symlink : Option String := none

def atomicSetCACert (cfg : LinkConfig) (fs : FileSystem) (caCert : String)
    (faults : BundleFaults) : Except String Unit × FileSystem :=
  match faults.abs with
  | some e => (.error e, fs)
  | none =>
    let cert := (fs.loc caCert).text
    match rmSymlink fs cfg.caCertLnk faults.rm with
    | (.error e, fs) => (.error e, fs)
    | (.ok oldCert, fs) =>
      match symlinkOr fs cert cfg.caCertLnk faults.symlink with
      | .error e => (.error e, restoreSymlink fs oldCert cfg.caCertLnk)
      | .ok fs => (.ok (), fs)

variable {fs : FileSystem}

theorem rmSymlink_link {path target : String} (h : fs.node (fs.loc path) = some (.link target)) :
    rmSymlink fs path {} = (.ok target, fs.set (fs.loc path) none) := by
  simp [rmSymlink, readlink, remove, h]

/-- Both links exist and are different: both are replaced. -/
theorem atomicSetSrvCertKeyPair_links {cfg : LinkConfig} (sCert sKey : String)
    {oldCert oldKey : String} (hcert : fs.node (fs.loc cfg.srvCertLnk) = some (.link oldCert))
    (hkey : fs.node (fs.loc cfg.srvKeyLnk) = some (.link oldKey))
    (hne : fs.loc cfg.srvCertLnk ≠ fs.loc cfg.srvKeyLnk) :
    ∃ after, atomicSetSrvCertKeyPair cfg fs sCert sKey {} = (.ok (), after) ∧
      after.cwd = fs.cwd ∧
      ∀ loc, after.node loc =
        if loc = fs.loc cfg.srvKeyLnk then some (.link (fs.loc sKey).text)
        else if loc = fs.loc cfg.srvCertLnk then some (.link (fs.loc sCert).text)
        else fs.node loc := by
  have hkey' : (fs.set (fs.loc cfg.srvCertLnk) none).node
      ((fs.set (fs.loc cfg.srvCertLnk) none).loc cfg.srvKeyLnk) = some (.link oldKey) := by
    rw [loc_set, node_set, if_neg (Ne.symm hne), hkey]
  have hrm := rmSymlink_link hkey'
  refine ⟨(((fs.set (fs.loc cfg.srvCertLnk) none).set (fs.loc cfg.srvKeyLnk) none).set
    (fs.loc cfg.srvCertLnk) (some (.link (fs.loc sCert).text))).set (fs.loc cfg.srvKeyLnk)
    (some (.link (fs.loc sKey).text)), ?_, rfl, fun loc => ?_⟩
  · simp [atomicSetSrvCertKeyPair, rmSymlink_link hcert, hrm, symlinkOr, symlink, loc_set, node_set,
      if_neg hne.symm]
  by_cases hk : loc = fs.loc cfg.srvKeyLnk
  · simp [node_set, hk]
  · by_cases hc : loc = fs.loc cfg.srvCertLnk
    · simp [node_set, hc, hne]
    · simp [node_set, hk, hc]

theorem atomicSetCACert_link {cfg : LinkConfig} (caCert : String) {old : String}
    (hlink : fs.node (fs.loc cfg.caCertLnk) = some (.link old)) :
    ∃ after, atomicSetCACert cfg fs caCert {} = (.ok (), after) ∧ after.cwd = fs.cwd ∧
      ∀ loc, after.node loc =
        if loc = fs.loc cfg.caCertLnk then some (.link (fs.loc caCert).text)
        else fs.node loc := by
  refine ⟨(fs.set (fs.loc cfg.caCertLnk) none).set (fs.loc cfg.caCertLnk)
    (some (.link (fs.loc caCert).text)), ?_, rfl, fun loc => ?_⟩
  · simp [atomicSetCACert, rmSymlink_link hlink, symlinkOr, symlink, loc_set, node_set]
  · by_cases hl : loc = fs.loc cfg.caCertLnk <;> simp [node_set, hl]

/-! ## Revocation lists -/

/-- What decoding and parsing a list gives. -/
inductive CrlParse where
  | notPem
  | invalid (error : String)
  | valid

/-- `certz.CertificateRevocationList`. -/
structure CrlMsg where
  x509 : Bool
  pem : Bool
  id : String
  list : String

/-- A write of a list.  The directory itself and those above it cannot be
written. -/
def writeCrl (fs : FileSystem) (path : String) (crl : CrlMsg) : Except Fault Unit × FileSystem :=
  let name := joinPath path crl.id
  let failed := fun e : String =>
    Fault.status ⟨.failedPrecondition, "CRL " ++ crl.id ++ " write failed: " ++ e⟩
  if fs.loc name <+: fs.loc path then
    (.error (failed ("Write " ++ name ++ " failed: open " ++ name ++
      ": is a directory; Cleanup failed")), fs)
  else
    match attemptWrite fs name crl.list none with
    | (.error e, fs) => (.error (failed e), fs)
    | (.ok (), fs) => (.ok (), fs)

/-- The checks on one list. -/
def checkCrl (parse : String → CrlParse) (index : Nat) (crl : CrlMsg) : Except Fault Unit :=
  if crl.x509 = false then statusError .invalidArgument "CRL type has to be X.509"
  else if crl.pem = false then statusError .invalidArgument "CRL encoding has to be PEM"
  else if crl.list = "" then
    statusError .invalidArgument ("CRL #" ++ toString index ++ " is empty")
  else
    match parse crl.list with
    | .notPem => .error (.panic "invalid memory address or nil pointer dereference")
    | .invalid e => statusError .invalidArgument ("CRL failed to parse: " ++ e)
    | .valid => .ok ()

/-- The first loop of `rotateCRLBundle`: check and write. -/
def checkAndWrite (parse : String → CrlParse) (path : String) :
    FileSystem → Nat → List CrlMsg → Except Fault Unit × FileSystem
  | fs, _, [] => (.ok (), fs)
  | fs, index, crl :: rest =>
    match checkCrl parse index crl with
    | .error fault => (.error fault, fs)
    | .ok () =>
      match writeCrl fs path crl with
      | (.error fault, fs) => (.error fault, fs)
      | (.ok (), fs) => checkAndWrite parse path fs (index + 1) rest

/-- The last loop of `rotateCRLBundle`. -/
def writeCrls (path : String) : FileSystem → List CrlMsg → Except Fault Unit × FileSystem
  | fs, [] => (.ok (), fs)
  | fs, crl :: rest =>
    match writeCrl fs path crl with
    | (.error fault, fs) => (.error fault, fs)
    | (.ok (), fs) => writeCrls path fs rest

def rotateCRLBundle (parse : String → CrlParse) (fs : FileSystem) (crls : List CrlMsg)
    (path : String) : Except Fault Unit × FileSystem :=
  if crls = [] then
    (statusError .invalidArgument "CRL bundle cannot be empty", fs)
  else
    match checkAndWrite parse path fs 0 crls with
    | (.error fault, fs) => (.error fault, fs)
    | (.ok (), fs) => writeCrls path (fs.clearDir (fs.loc path)) crls

def copyCRLBundle (fs : FileSystem) (srcPath dstPath : String) : FileSystem :=
  (fs.clearDir (fs.loc dstPath)).copyDir (fs.loc srcPath) (fs.loc dstPath)

end SonicGnmi.Gnsi
