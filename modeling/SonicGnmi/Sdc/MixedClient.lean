import SonicGnmi.Sdc.TableSet

/-!
# The client of the SONiC databases

`NewMixedDbClient` and `ParseDatabase` of `mixed_db_client.go`: the database and
the instance that the paths of a request name.

An instance is a network namespace or a container.  On a device with several
namespaces the second element of a path is the namespace, with `localhost` for
the default one; on a device with several containers it is the container.

The configuration of the databases (`sonic_db_config`) is a parameter, and so
is the connection to a ZMQ server.
-/

namespace SonicGnmi.Sdc

open Foundation Gnmi Grpc

/-- `swsscommon.SonicDBKey`. -/
structure DbKey where
  netns : String := ""
  containerName : String := ""
  deriving DecidableEq

/-- The configuration of the databases. -/
structure DbConfig where
  /-- `SonicDBConfigGetNamespaces`. -/
  namespaces : List String
  /-- `SonicDBConfigGetDbKeys`, with the databases of each instance. -/
  instances : List (DbKey × List String)
  /-- `SonicDBConfigGetSeparator`. -/
  separator : String → DbKey → String := fun _ _ => "|"

namespace DbConfig

variable (config : DbConfig)

def checkDbMultiNamespace : Bool := 1 < config.namespaces.length

/-- `GetDbListByDBKey`; an instance that is not configured has none. -/
def getDbListByDBKey (dbkey : DbKey) : Option (List String) :=
  config.instances.lookup dbkey

/-- Whether `GetDbInstanceFromTarget` finds an instance. -/
def getDbInstanceFromTarget (ns container : String) : Bool :=
  (config.getDbListByDBKey { netns := ns, containerName := container }).isSome

/-- `namespace_cnt`. -/
def namespaceCnt : Nat :=
  1 + config.instances.countP fun entry => entry.1.netns ≠ ""

/-- `container_cnt`. -/
def containerCnt : Nat :=
  1 + config.instances.countP fun entry => entry.1.containerName ≠ ""

def isTargetDbByDBKey (dbName : String) (dbkey : DbKey) : Bool :=
  match config.getDbListByDBKey dbkey with
  | none => false
  | some dbList => dbName ∈ dbList

/-! ## Parsing paths -/

def hostname : String := "localhost"

/-- The variables of the loop of `ParseDatabase`. -/
structure Parsed where
  target : String := ""
  prevInstance : String := ""
  dbkey : DbKey := {}

/-- The instance that an element names. -/
def locate (dbkey : DbKey) (elemName : String) : Except Fault DbKey :=
  if 1 < config.namespaceCnt ∧ 1 < config.containerCnt then
    -- a smart switch: the element is a namespace or a container
    if elemName = hostname then .ok dbkey
    else if config.getDbInstanceFromTarget elemName "" then .ok { dbkey with netns := elemName }
    else if config.getDbInstanceFromTarget "" elemName then
      .ok { dbkey with containerName := elemName }
    else .error (.plain ("Unsupported namespace/container " ++ elemName))
  else if 1 < config.namespaceCnt then .ok { dbkey with netns := elemName }
  else if 1 < config.containerCnt then .ok { dbkey with containerName := elemName }
  else .ok dbkey

/-- One path of `ParseDatabase`; a path without elements is passed over. -/
def parsePath (pathPrefix : Option Path) (st : Parsed) (path : Path) :
    Except Fault Parsed :=
  if path.elem.isEmpty then .ok st
  else
    match netPath (pathPrefix.getD {}) path with
    | database :: inst :: _ =>
      if st.target ≠ "" ∧ st.target ≠ database.name then
        statusError .unimplemented "Target conflict in path"
      else if st.prevInstance ≠ "" ∧ st.prevInstance ≠ inst.name then
        statusError .unimplemented "Namespace/container conflict in path"
      else
        match config.locate st.dbkey inst.name with
        | .error e => .error e
        | .ok dbkey =>
          .ok { target := database.name, prevInstance := inst.name, dbkey := dbkey }
    | _ => statusError .unimplemented "Invalid elem length"

/-- The default instance is called `localhost` in paths. -/
def instanceName (name : String) : String := if name = hostname then "" else name

def parseDatabase (pathPrefix : Option Path) (paths : List Path) :
    Except Fault (String × DbKey) :=
  if paths.isEmpty then statusError .unimplemented "No valid path"
  else
    match paths.foldlM (config.parsePath pathPrefix) {} with
    | .error e => .error e
    | .ok st =>
      if st.target = "" then statusError .unimplemented "No target specified in path"
      else
        .ok (st.target,
          { netns := instanceName st.dbkey.netns
            containerName := instanceName st.dbkey.containerName })

end DbConfig

/-! ## The client -/

/-- `MixedDbClient`, with the fields that reading uses. -/
structure MixedClient extends TableSetClient where
  paths : List Path := []
  encoding : Encoding := .jsonIetf
  dbkey : DbKey := {}

/-- `NewMixedDbClient` for some paths. -/
def newMixedDbClient (config : DbConfig) (getZmqClient : String → Except String Unit)
    (paths : List Path) (pathPrefix : Option Path) (encoding : Encoding) :
    Except Fault MixedClient :=
  match config.parseDatabase pathPrefix paths with
  | .error e => .error e
  | .ok (target, dbkey) =>
    if config.isTargetDbByDBKey target dbkey = false then
      statusError .unimplemented ("Invalid target: ns " ++ dbkey.netns ++ ", container " ++
        dbkey.containerName)
    else
      match getZmqClient dbkey.containerName with
      | .error e => .error (.plain ("Get ZMQ client failed: " ++ e))
      | .ok () =>
        .ok { target := target, pathPrefix := pathPrefix,
              separator := config.separator target dbkey, paths := paths,
              encoding := encoding, dbkey := dbkey }

end SonicGnmi.Sdc
