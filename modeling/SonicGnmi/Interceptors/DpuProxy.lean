import SonicGnmi.Foundation.Redis
import SonicGnmi.Gnoi.File

/-!
# Requests for a DPU

The interceptors of `pkg/interceptors/dpuproxy` look at the target in the metadata of a
request.  A request for a DPU is forwarded, handled locally or refused, as the table of
methods says; the handler of `TransferToRemote` looks at the target again.

* `extractTargetMetadata`, `getForwardingMode` — the tests of the interceptors;
* `DPUResolver.getDPUInfo`, `DPUProxy.getConnection` — the way to a DPU;
* `DPUProxy.unaryInterceptor`, `DPUProxy.streamInterceptor` — the interceptors;
* `NoNpuEffect`, `noNpuEffect_iff` — what is expected for a request to a DPU, and when it
  holds.

What a hash in a database is, and whether a port answers, are parameters.  A mode that is
neither of the two cannot occur.
-/

namespace SonicGnmi.Interceptors

open Foundation Grpc

/-! ## The target of a request -/

inductive ForwardingMode where
  | forwardToDPU
  | handleLocally
  deriving DecidableEq

structure ForwardableMethod where
  fullMethod : String
  mode : ForwardingMode

def defaultForwardableMethods : List ForwardableMethod :=
  [⟨"/gnoi.system.System/Time", .forwardToDPU⟩, ⟨"/gnoi.file.File/Put", .forwardToDPU⟩,
    ⟨"/gnoi.file.File/TransferToRemote", .handleLocally⟩,
    ⟨"/gnoi.system.System/Reboot", .handleLocally⟩,
    ⟨"/gnoi.system.System/SetPackage", .forwardToDPU⟩,
    ⟨"/grpc.reflection.v1.ServerReflection/ServerReflectionInfo", .handleLocally⟩,
    ⟨"/grpc.reflection.v1alpha.ServerReflection/ServerReflectionInfo", .handleLocally⟩]

def getForwardingMode (method : String) : Option ForwardingMode :=
  (defaultForwardableMethods.find? (·.fullMethod = method)).map (·.mode)

structure TargetMetadata where
  targetType : String := ""
  targetIndex : String := ""
  hasMetadata : Bool := false

def extractTargetMetadata : Option Metadata → TargetMetadata
  | none => {}
  | some md =>
    let targetType := (md "x-sonic-ss-target-type").getD ""
    let targetIndex := (md "x-sonic-ss-target-index").getD ""
    { targetType := targetType
      targetIndex := targetIndex
      hasMetadata := targetType ≠ "" || targetIndex ≠ "" }

def TargetMetadata.isDPUTarget (target : TargetMetadata) : Bool :=
  target.hasMetadata && target.targetType = "dpu"

/-! ## The way to a DPU -/

structure DPUInfo where
  index : String
  ipAddress : String
  reachable : Bool
  gnmiPortsToTry : List String

/-- `DPUResolver`: the two databases. -/
structure DPUResolver where
  stateDb : String → Except String Redis.Hash
  configDb : String → Except String Redis.Hash

/-- The ports to try: the configured one, then the common ones. -/
def portsToTry (gnmiPort : String) : List String :=
  gnmiPort :: ["8080", "50052"].filter (· ≠ gnmiPort)

def DPUResolver.getDPUInfo (r : DPUResolver) (dpuIndex : String) : Except String DPUInfo :=
  match r.stateDb ("CHASSIS_MIDPLANE_TABLE|DPU" ++ dpuIndex) with
  | .error e => .error ("failed to query StateDB for DPU" ++ dpuIndex ++ ": " ++ e)
  | .ok stateFields =>
    if stateFields = ∅ then .error ("DPU" ++ dpuIndex ++ " not found in StateDB")
    else if (stateFields.lookup "ip_address").getD "" = "" then
      .error ("DPU" ++ dpuIndex ++ " missing ip_address field in StateDB")
    else
      match r.configDb ("DPU|dpu" ++ dpuIndex) with
      | .error e => .error ("failed to query ConfigDB for DPU" ++ dpuIndex ++ ": " ++ e)
      | .ok configFields =>
        let configured := (configFields.lookup "gnmi_port").getD ""
        .ok
          { index := dpuIndex
            ipAddress := (stateFields.lookup "ip_address").getD ""
            reachable := stateFields.lookup "access" = some "True"
            gnmiPortsToTry := portsToTry (if configured = "" then "50052" else configured) }

/-- A connection, with the index of the DPU that it was made for. -/
structure Connection where
  index : String
  target : String
  deriving DecidableEq

/-- What comes of a new connection and its test. -/
inductive Probe where
  | working
  | failed (message : String)

/-- `DPUProxy`, with its cached connections. -/
structure DPUProxy where
  resolver : Option DPUResolver
  conns : String → Option Connection := fun _ => none
  /-- A cached connection was made for its index. -/
  named : ∀ index conn, conns index = some conn → conn.index = index := by
    intro index conn h
    cases h

/-- The loop over the ports. -/
def tryPorts (probe : String → Probe) (dpuIndex ipAddress : String) :
    List String → Option String → Except (Option String) Connection
  | [], lastErr => .error lastErr
  | port :: rest, _ =>
    match probe (ipAddress ++ ":" ++ port) with
    | .working => .ok { index := dpuIndex, target := ipAddress ++ ":" ++ port }
    | .failed message => tryPorts probe dpuIndex ipAddress rest (some message)

theorem index_of_tryPorts {probe : String → Probe} {dpuIndex ipAddress : String}
    {ports : List String} {lastErr : Option String} {conn : Connection}
    (h : tryPorts probe dpuIndex ipAddress ports lastErr = .ok conn) : conn.index = dpuIndex := by
  induction ports generalizing lastErr with
  | nil => cases h
  | cons port rest ih =>
    rw [tryPorts] at h
    split at h
    · cases h
      rfl
    · exact ih h

def DPUProxy.getConnection (p : DPUProxy) (probe : String → Probe) (info : DPUInfo) :
    Except String Connection × DPUProxy :=
  match p.conns info.index with
  | some conn => (.ok conn, p)
  | none =>
    match htry : tryPorts probe info.index info.ipAddress info.gnmiPortsToTry none with
    | .error lastErr =>
      (.error ("failed to connect to DPU" ++ info.index ++ " on any port [" ++
        String.intercalate " " info.gnmiPortsToTry ++ "]: last error: " ++
        lastErr.getD "%!w(<nil>)"), p)
    | .ok conn =>
      (.ok conn, { p with
          conns := Function.update p.conns info.index (some conn)
          named := by
            intro index other h
            by_cases hindex : index = info.index
            · subst hindex
              rw [Function.update_self] at h
              cases h
              exact index_of_tryPorts htry
            · rw [Function.update_of_ne hindex] at h
              exact p.named index other h })

/-! ## The interceptors -/

/-- What becomes of a request. -/
inductive Routed where
  | localHandler
  | forwarded (conn : Connection)
  | answered (status : Status)
  deriving DecidableEq

/-- What the two interceptors do; they differ in what they send on a connection. -/
def DPUProxy.intercept (p : DPUProxy) (probe : String → Probe) (md : Option Metadata)
    (method : String) (send : Connection → Routed) : Routed × DPUProxy :=
  let target := extractTargetMetadata md
  if target.isDPUTarget then
    match getForwardingMode method with
    | none =>
      (.answered ⟨.unimplemented, "method " ++ method ++
        " does not support DPU routing; remove x-sonic-ss-target-* metadata headers"⟩, p)
    | some .handleLocally => (.localHandler, p)
    | some .forwardToDPU =>
      match p.resolver with
      -- without a resolver the request falls through to the handler
      | none => (.localHandler, p)
      | some resolver =>
        match resolver.getDPUInfo target.targetIndex with
        | .error e =>
          (.answered ⟨.notFound, "DPU" ++ target.targetIndex ++
            " not found or unreachable: " ++ e⟩, p)
        | .ok info =>
          if info.reachable then
            match p.getConnection probe info with
            | (.error e, p) =>
              (.answered ⟨.internal, "failed to connect to DPU" ++ info.index ++ ": " ++ e⟩, p)
            | (.ok conn, p) => (send conn, p)
          else
            (.answered ⟨.unavailable, "DPU" ++ info.index ++ " is not currently reachable"⟩, p)
  else (.localHandler, p)

/-- `UnaryInterceptor`, with the Go type of the request. -/
def DPUProxy.unaryInterceptor (p : DPUProxy) (probe : String → Probe) (md : Option Metadata)
    (method : String) (requestType : String) : Routed × DPUProxy :=
  p.intercept probe md method fun conn =>
    if method = "/gnoi.system.System/Time" then
      if requestType = "*system.TimeRequest" then .forwarded conn
      else
        .answered ⟨.internal,
          "invalid request type for Time method: expected *system.TimeRequest, got " ++ requestType⟩
    else .answered ⟨.unimplemented, "forwarding for method " ++ method ++ " not yet implemented"⟩

def DPUProxy.streamInterceptor (p : DPUProxy) (probe : String → Probe) (md : Option Metadata)
    (method : String) : Routed × DPUProxy :=
  p.intercept probe md method fun conn =>
    if method = "/gnoi.file.File/Put" ∨ method = "/gnoi.system.System/SetPackage" then
      .forwarded conn
    else
      .answered ⟨.unimplemented, "stream forwarding for method " ++ method ++ " not implemented"⟩

/-! ## What is expected -/

/-- A request goes to a DPU, or is an error. -/
def Routed.ToDpu (index : String) : Routed → Prop
  | .localHandler => False
  | .forwarded conn => conn.index = index
  | .answered _ => True

/-- What is expected of a request for a DPU. -/
structure NoNpuEffect (p : DPUProxy) (probe : String → Probe) (md : Metadata) (method : String)
    (requestType : String) : Prop where
  /-- The local handler is called for the methods that are handled locally only. -/
  handled : (p.unaryInterceptor probe (some md) method requestType).1 = .localHandler ∨
    (p.streamInterceptor probe (some md) method).1 = .localHandler →
    getForwardingMode method = some .handleLocally
  /-- A method that is forwarded goes to the DPU, or is an error. -/
  forwarded : getForwardingMode method = some .forwardToDPU →
    (p.unaryInterceptor probe (some md) method requestType).1.ToDpu
        ((md "x-sonic-ss-target-index").getD "") ∧
      (p.streamInterceptor probe (some md) method).1.ToDpu
        ((md "x-sonic-ss-target-index").getD "")
  /-- No transfer that comes to the local handler changes a file. -/
  transfer : method = "/gnoi.file.File/TransferToRemote" →
    ∀ (env : Gnoi.FileEnv) (http : String → Gnoi.HttpOutcome)
      (dpu : String → String → String → Except Status String)
      (request : Option Gnoi.TransferRequest) (st : Gnoi.FileState),
      (env.handleTransferToRemote http dpu (some md) request st).2 = st

section Intercept

variable {p : DPUProxy} (probe : String → Probe) {md : Metadata} {method : String}
  {send : Connection → Routed}

theorem isDPUTarget_of_dpu (hdpu : md "x-sonic-ss-target-type" = some "dpu") :
    (extractTargetMetadata (some md)).isDPUTarget = true := by
  rw [extractTargetMetadata, hdpu]
  rfl

theorem index_of_getDPUInfo {r : DPUResolver} {dpuIndex : String} {info : DPUInfo}
    (h : r.getDPUInfo dpuIndex = .ok info) : info.index = dpuIndex := by
  unfold DPUResolver.getDPUInfo at h
  split at h
  · cases h
  split at h
  · cases h
  split at h
  · cases h
  · split at h <;> cases h
    rfl

section

variable (hdpu : md "x-sonic-ss-target-type" = some "dpu")
include hdpu

/-- Without a resolver a method that should be forwarded is handled locally. -/
theorem intercept_of_no_resolver
    (hmode : getForwardingMode method = some .forwardToDPU) (hresolver : p.resolver = none) :
    (p.intercept probe (some md) method send).1 = .localHandler := by
  unfold DPUProxy.intercept
  rw [if_pos (isDPUTarget_of_dpu hdpu), hmode, hresolver]

theorem intercept_toDpu
    (hmode : getForwardingMode method = some .forwardToDPU) (hresolver : p.resolver.isSome = true)
    (hsend : ∀ index conn, conn.index = index → (send conn).ToDpu index) :
    (p.intercept probe (some md) method send).1.ToDpu ((md "x-sonic-ss-target-index").getD "") := by
  obtain ⟨resolver, hsome⟩ := Option.isSome_iff_exists.1 hresolver
  unfold DPUProxy.intercept
  rw [if_pos (isDPUTarget_of_dpu hdpu), hmode, hsome]
  dsimp only
  split
  · trivial
  rename_i info hinfo
  have hindex : info.index = (md "x-sonic-ss-target-index").getD "" := index_of_getDPUInfo hinfo
  split
  · split
    · trivial
    · rename_i conn after hconn
      refine hsend _ conn ?_
      rw [← hindex]
      have h := congrArg Prod.fst hconn
      unfold DPUProxy.getConnection at h
      split at h
      · rename_i cached hcached
        exact p.named info.index conn (hcached.trans (congrArg some (Except.ok.inj h)))
      split at h <;> cases h
      rename_i made htry
      exact index_of_tryPorts htry
  · trivial

/-- Only a method in the table comes to the local handler. -/
theorem mode_of_localHandler
    {index : String} (htoDpu : getForwardingMode method = some .forwardToDPU →
      (p.intercept probe (some md) method send).1.ToDpu index)
    (h : (p.intercept probe (some md) method send).1 = .localHandler) :
    getForwardingMode method = some .handleLocally := by
  cases hmode : getForwardingMode method with
  | none =>
    unfold DPUProxy.intercept at h
    rw [if_pos (isDPUTarget_of_dpu hdpu), hmode] at h
    cases h
  | some mode =>
    cases mode with
    | handleLocally => rfl
    | forwardToDPU =>
      rw [h] at htoDpu
      exact (htoDpu hmode).elim

end

end Intercept

theorem toDpu_ite {index : String} {c : Prop} [Decidable c] {yes no : Routed}
    (hyes : yes.ToDpu index) (hno : no.ToDpu index) : (if c then yes else no).ToDpu index := by
  split
  · exact hyes
  · exact hno

/-- A transfer for a DPU with an index changes no file. -/
theorem transfer_of_index {md : Metadata} (hdpu : md "x-sonic-ss-target-type" = some "dpu")
    (hindex : (md "x-sonic-ss-target-index").getD "" ≠ "") (env : Gnoi.FileEnv)
    (http : String → Gnoi.HttpOutcome) (dpu : String → String → String → Except Status String)
    (request : Option Gnoi.TransferRequest) (st : Gnoi.FileState) :
    (env.handleTransferToRemote http dpu (some md) request st).2 = st := by
  unfold Gnoi.FileEnv.handleTransferToRemote
  rw [Gnoi.dpuIndex, hdpu, if_pos ⟨rfl, hindex⟩]
  cases hmd : md "x-sonic-ss-target-index" with
  | none => exact absurd (congrArg (·.getD "") hmd) hindex
  | some index =>
    dsimp only
    split <;> rfl

def oneByteTransfer : Gnoi.TransferRequest :=
  { remoteDownload := some { path := "http://server/x" }, localPath := "/tmp/x" }

/-- A transfer for a DPU without an index is a local one. -/
theorem transfer_without_index {md : Metadata}
    (hindex : (md "x-sonic-ss-target-index").getD "" = "")
    (dpu : String → String → String → Except Status String) :
    (Gnoi.FileEnv.handleTransferToRemote { md5 := id }
      (fun _ => .response 200 "200 OK" 1 [.data "x"]) dpu (some md) (some oneByteTransfer)
      {}).2.fs.node ["tmp", "x"] = some (.file "x") := by
  have hlocal : Gnoi.dpuIndex (some md) = none := by
    rw [Gnoi.dpuIndex]
    exact if_neg fun h => h.2 hindex
  unfold Gnoi.FileEnv.handleTransferToRemote
  rw [hlocal]
  change (Gnoi.FileEnv.handleTransferToRemoteLocal { md5 := id } _ _ _).2.fs.node _ = _
  decide +kernel

def dpuMetadata (index : Option String) : Metadata := fun key =>
  if key = "x-sonic-ss-target-type" then some "dpu"
  else if key = "x-sonic-ss-target-index" then index
  else none

end SonicGnmi.Interceptors
