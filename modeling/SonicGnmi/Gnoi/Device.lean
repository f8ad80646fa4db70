import SonicGnmi.GnmiServer.Auth
import SonicGnmi.Gnoi.Os
import SonicGnmi.Gnsi.AuthzServer
import SonicGnmi.Gnsi.CertzServer
import SonicGnmi.Gnsi.PathzServer

/-!
# The services that change the device

The rotations of certificates, path policy and authorization policy, the installation of
an image and the three file calls, over one device.  Each of them calls `authenticate`
for the target `gnoi` first, and asks for read access only.

* `Device`, `Services`, `Rpc` — the state, the settings and the calls;
* `Services.serve`, `Services.run` — one call, and calls one after another;
* `Device.Same` — what the calls of a peer without write access must not change.
-/

namespace SonicGnmi.Gnoi

open Foundation Grpc GnmiServer Gnsi

/-- The locks of the services, which calls of other peers may hold. -/
structure Locks where
  certz : Bool := false
  pathz : Bool := false
  authz : Bool := false
  install : InstallLock := .free

/-- The server and the machine it runs on. -/
structure Device where
  host : Host := {}
  mode : Location → Nat := fun _ => 0
  profiles : GoMap String CertzProfile := ∅
  clock : Nat := 0
  pathz : PathzServer := {}
  authzMetadata : AuthzMetadata := {}
  authzMetadataCopy : AuthzMetadata := {}
  totalBytesReceived : String → Nat := fun _ => 0
  locks : Locks := {}
  store : ContextStore := {}
  crashed : Bool := false

/-- The settings of the services. -/
structure Services where
  auth : AuthBackend
  config : Config
  certz : CertzConfig
  pathz : PathzConfig
  authz : AuthzConfig
  files : FileEnv
  os : OsConfig

/-- A call, with what its stream delivers and what other machines answer. -/
inductive Rpc where
  | certzRotate (events : List CertzEvent)
  | pathzRotate (checkpointError : Option String) (events : List PathzEvent)
  | authzRotate (copyFault : Option CopyFault) (events : List AuthzEvent)
  | osInstall (events : List InstallEvent)
  | filePut (events : List PutEvent) (sendError : Option Status)
  | fileRemove (request : Option String)
  | transferToRemote (request : Option TransferRequest) (http : String → HttpOutcome)
      (dpu : String → String → String → Except Status String)

namespace Device

variable (d : Device)

/-- What the certificate service works on. -/
def certzState : CertzState :=
  { profiles := d.profiles, host := d.host, clock := d.clock }

/-- The device after the certificate service. -/
def setCertz (st : CertzState) : Device :=
  { d with profiles := st.profiles, host := st.host, clock := st.clock }

/-- What the authorization service works on. -/
def authzState : AuthzState :=
  { authzMetadata := d.authzMetadata, authzMetadataCopy := d.authzMetadataCopy, host := d.host }

/-- The files of the device. -/
def files (d : Device) : FileState := { fs := d.host.fs, mode := d.mode }

/-- The device with other files. -/
def setFiles (files : FileState) : Device :=
  { d with host := { d.host with fs := files.fs }, mode := files.mode }

/-- What the installation works on. -/
def osState : OsState :=
  { files := d.files, totalBytesReceived := d.totalBytesReceived }

end Device

section

variable (services : Services) (incoming : Incoming)

/-- The handlers behind `authenticate`. -/
def Services.handle (d : Device) : Rpc → Device
  | .certzRotate events =>
    match certzRotate services.certz d.locks.certz events d.certzState with
    | (.crashed _, st) => { d.setCertz st with crashed := true }
    | (_, st) => d.setCertz st
  | .pathzRotate checkpointError events =>
    let st := (pathzRotate services.pathz d.locks.pathz checkpointError events
      { srv := d.pathz, host := d.host }).2
    { d with pathz := st.srv, host := st.host }
  | .authzRotate copyFault events =>
    let st := (authzRotate services.authz d.locks.authz copyFault events d.authzState).2
    { d with
      authzMetadata := st.authzMetadata
      authzMetadataCopy := st.authzMetadataCopy
      host := st.host }
  | .osInstall events =>
    let st := (install services.os d.locks.install events d.osState).state
    { d.setFiles st.files with totalBytesReceived := st.totalBytesReceived }
  | .filePut events sendError => d.setFiles (services.files.handlePut events sendError d.files).2
  | .fileRemove request => d.setFiles (services.files.handleFileRemove request d.files).2
  | .transferToRemote request http dpu =>
    d.setFiles (services.files.handleTransferToRemote http dpu incoming.metadata request d.files).2

/-- One call of a peer; a server that has crashed answers nothing. -/
def Services.serve (d : Device) (rpc : Rpc) : Device :=
  if d.crashed then d
  else
    match authenticate services.auth services.config incoming.context "gnoi" false d.store with
    | (.error _, _, store) => { d with store := store }
    | (.ok (), _, store) => services.handle incoming { d with store := store } rpc

/-- Calls of one peer, one after another. -/
def Services.run (d : Device) (rpcs : List Rpc) : Device := rpcs.foldl (services.serve incoming) d

end

/-- The credentials, policies and files of a device are the same: the active entities of
every profile, the path policy, and every file with its permissions. -/
structure Device.Same (d after : Device) : Prop where
  active : ∀ id, (after.profiles.lookup id).map (·.active) = (d.profiles.lookup id).map (·.active)
  policy : after.pathz.pathzProcessor = d.pathz.pathzProcessor
  fs : after.host.fs = d.host.fs
  mode : after.mode = d.mode

namespace Device.Same

theorem refl (d : Device) : d.Same d := ⟨fun _ => rfl, rfl, rfl, rfl⟩

theorem trans {d mid after : Device} (hfirst : d.Same mid) (hsecond : mid.Same after) :
    d.Same after where
  active := fun id => (hsecond.active id).trans (hfirst.active id)
  policy := hsecond.policy.trans hfirst.policy
  fs := hsecond.fs.trans hfirst.fs
  mode := hsecond.mode.trans hfirst.mode

end Device.Same

end SonicGnmi.Gnoi
