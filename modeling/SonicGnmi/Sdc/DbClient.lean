import SonicGnmi.Sdc.StreamRun
import SonicGnmi.Sdc.VirtualPaths

/-!
# The table paths of a `DbClient`

`NewDbClient` of `db_client.go` finds the table paths of every path of a request before
a stream starts.  A path that the trie of virtual paths knows gets the table paths of its
translator; all other paths, and those whose translator fails, are read as paths of rows
that exist.

The goroutines of `StreamRun` read the first table path of their path.  A virtual path
whose names are missing from the name maps is accepted without a table path, and then the
goroutine panics.

* `Databases.isTargetDb`, `Databases.realPath` — the target and the paths of rows;
* `Databases.populateDbtablePath`, `Databases.newDbClient` — the constructor;
* `accepted_paths_mapped_iff` — which accepted requests have a table path for every path.
-/

namespace SonicGnmi.Sdc

open Foundation Gnmi Grpc

namespace RedisClient

/-- `Exists` of one key. -/
def hasKey (client : RedisClient) (key : String) : Except String Bool :=
  match client with
  | .error err => .error err
  | .ok db => .ok (db.hash key ≠ ∅)

def hExists (client : RedisClient) (key field : String) : Except String Bool :=
  match client with
  | .error err => .error err
  | .ok db => .ok ((db.hash key).lookup field).isSome

end RedisClient

/-- The results of `IsTargetDb`. -/
structure TargetDb where
  dbName : String
  valid : Bool
  dbNamespace : String := ""
  dbNameSpaceExist : Bool := false

namespace Databases

variable (databases : Databases)

def isTargetDb (target : String) : TargetDb :=
  let targetname := GoText.split target '/'
  let dbName := targetname.headD ""
  if 2 < targetname.length then { dbName := dbName, valid := false }
  else if databases.config.checkDbMultiNamespace = true ∧ 1 < targetname.length then
    { dbName := dbName, valid := dbName ∈ targetNames, dbNamespace := targetname.getD 1 "",
      dbNameSpaceExist := true }
  else { dbName := dbName, valid := dbName ∈ targetNames }

def getDbNamespaceFromTarget (target : String) : Option String :=
  if target = "" ∨ target ∈ databases.nonDefaultNamespaces then some target else none

/-- The key and the field that the elements after the table stand for. -/
def rowOf (client : RedisClient) (target dbName separator dbPath : String) :
    List String → Except Fault (String × String)
  | [table] =>
    match client.keys databases.reply (table ++ "*") with
    | .error (.plain err) =>
      .error (.plain ("redis Keys op failed for " ++ target ++ " " ++ dbPath ++ ", got err " ++
        err ++ " []"))
    | .error fault => .error fault
    | .ok _ => .ok ("", "")
  | [table, key] =>
    match client.hasKey (table ++ separator ++ key) with
    | .error _ => .error (.plain ("redis Exists op failed for " ++ dbPath))
    | .ok true => .ok (key, "")
    | .ok false =>
      if dbName = "APPL_DB" then
        match client.hExists table key with
        | .error _ => .error (.plain ("redis HExists op failed for " ++ dbPath))
        | .ok true => .ok ("", key)
        -- a key that does not exist yet
        | .ok false => .ok (key, "")
      else .ok ("", key)
  | [table, key, last] =>
    match client.hasKey (table ++ separator ++ (key ++ separator ++ last)) with
    | .error _ => .error (.plain ("redis Exists op failed for " ++ dbPath))
    | .ok true => .ok (key ++ separator ++ last, "")
    | .ok false => .ok (key, last)
  | [_, key, second, field] => .ok (key ++ separator ++ second, field)
  | _ => .error (.plain ("Invalid db table Path " ++ dbPath))

/-- The part of `populateDbtablePath` for paths that are not virtual. -/
def realPath (target dbName ns : String) (names : List String) : Except Fault DbTablePath :=
  match databases.target2RedisDb ns dbName with
  | none =>
    .error (.plain ("Redis Client not present for dbName " ++ dbName ++ " dbNamespace " ++ ns))
  | some client =>
    let separator := databases.tableKeySeparator dbName ns
    let dbPath := separator.intercalate names
    match databases.rowOf client target dbName separator dbPath names with
    | .error fault => .error fault
    | .ok (tableKey, field) =>
      let tblPath :=
        buildTablePath ns dbName (names.headD "") tableKey separator field "" "" ""
      if dbName ≠ "APPL_DB" ∧ tableKey ≠ "" ∧
          client.hasKey (tblPath.dbKey tableKey) ≠ .ok true then
        .error (.plain ("No valid entry found on " ++ dbPath ++ " with key " ++
          tblPath.dbKey tableKey))
      else .ok tblPath

variable (pathPrefix : Option Path)

/-- The names of `gnmiFullPath`; a path without elements drops those of the prefix. -/
def fullNames (path : Path) : List String :=
  if path.elem.isEmpty then [] else (netPath (pathPrefix.getD {}) path).map PathElem.name

/-- The part of `populateDbtablePath` after the name maps are read. -/
def tablePaths (maps : NameMaps) (target : String) (db : TargetDb) (ns : String)
    (names : List String) : Except Fault (List DbTablePath) :=
  match lookupV2R databases maps (db.dbName :: names) with
  | .ok tblPaths =>
    if db.dbNameSpaceExist then
      .error (.plain ("Target having " ++ ns ++ " namespace is not supported for V2R Dataset"))
    else .ok tblPaths
  | .error (.panic reason) => .error (.panic reason)
  | .error _ => (databases.realPath target db.dbName ns names).map fun tblPath => [tblPath]

/-- The name maps are read for paths of the counters database only. -/
def initFor (dbName : String) : Init := fun maps =>
  if dbName = "COUNTERS_DB" then databases.initMaps maps else (maps, .ok ())

def populateDbtablePath (path : Path) (maps : NameMaps) :
    NameMaps × Except Fault (List DbTablePath) :=
  let target := (pathPrefix.getD {}).target
  let db := databases.isTargetDb target
  if db.valid = false then (maps, .error (.plain ("Invalid target dbName " ++ db.dbName)))
  else
    match databases.getDbNamespaceFromTarget db.dbNamespace with
    | none => (maps, .error (.plain ("Invalid target dbNameSpace " ++ db.dbNamespace)))
    | some ns =>
      match databases.initFor db.dbName maps with
      | (maps, .error fault) => (maps, .error fault)
      | (maps, .ok ()) =>
        (maps, databases.tablePaths maps target db ns (fullNames pathPrefix path))

/-- `populateAllDbtablePath`, with the entries of `pathG2S`. -/
def populateAllDbtablePath (pathPrefix : Option Path) :
    List Path → NameMaps → NameMaps × Except Fault (List (Path × List DbTablePath))
  | [], maps => (maps, .ok [])
  | path :: rest, maps =>
    match databases.populateDbtablePath pathPrefix path maps with
    | (maps, .error fault) => (maps, .error fault)
    | (maps, .ok tblPaths) =>
      match populateAllDbtablePath pathPrefix rest maps with
      | (maps, .error fault) => (maps, .error fault)
      | (maps, .ok pathG2S) => (maps, .ok ((path, tblPaths) :: pathG2S))

/-- `NewDbClient`, with the map `pathG2S` of the client. -/
def newDbClient (paths : List Path) (pathPrefix : Option Path) (maps : NameMaps) :
    NameMaps × Except Fault (List (Path × List DbTablePath)) :=
  databases.populateAllDbtablePath pathPrefix paths maps

/-! ## Accepted paths -/

/-- The name maps that a request sees. -/
def mapsFor (maps : NameMaps) : NameMaps :=
  (databases.initFor (databases.isTargetDb (pathPrefix.getD {}).target).dbName maps).1

/-- The elements of a path, after the name of the database. -/
def stringSlice (path : Path) : List String :=
  (databases.isTargetDb (pathPrefix.getD {}).target).dbName :: fullNames pathPrefix path

variable {tblPaths : List DbTablePath} {maps after : NameMaps}

theorem realPath_ne_nil {target dbName ns : String} {names : List String}
    (h : (databases.realPath target dbName ns names).map (fun tblPath => [tblPath]) =
      .ok tblPaths) : tblPaths ≠ [] := by
  cases hreal : databases.realPath target dbName ns names <;> rw [hreal] at h <;> cases h
  exact List.cons_ne_nil _ _

theorem tablePaths_ne_nil_iff {target : String} {db : TargetDb} {ns : String} {names : List String}
    (h : databases.tablePaths maps target db ns names = .ok tblPaths) :
    tblPaths ≠ [] ↔ Mapped databases maps (db.dbName :: names) := by
  have hyields := lookupV2R_yields databases maps (db.dbName :: names)
  unfold tablePaths at h
  cases hlookup : lookupV2R databases maps (db.dbName :: names) with
  | ok found =>
    rw [hlookup] at h hyields
    dsimp only at h
    split at h <;> cases h
    exact hyields
  | error fault =>
    -- the translator fails, so the path is read as the path of a row
    rw [hlookup] at h hyields
    cases fault with
    | status status | plain text =>
      exact iff_of_true (databases.realPath_ne_nil h)
        (hyields.resolve_left fun ⟨_, hpanic⟩ => by cases hpanic)
    | panic reason => cases h

theorem initFor_again {dbName : String} (h : databases.initFor dbName maps = (after, .ok ())) :
    databases.initFor dbName after = (after, .ok ()) := by
  unfold initFor at h ⊢
  split at h <;> rename_i hname
  · rw [if_pos hname]
    exact databases.initMaps_again h
  · rw [if_neg hname]

/-- A path that is accepted has a table path when the name maps have something for it. -/
theorem populateDbtablePath_ok {pathPrefix : Option Path} {path : Path}
    (h : databases.populateDbtablePath pathPrefix path maps = (after, .ok tblPaths)) :
    databases.initFor (databases.isTargetDb (pathPrefix.getD {}).target).dbName maps =
        (after, .ok ()) ∧
      (tblPaths ≠ [] ↔ Mapped databases after (databases.stringSlice pathPrefix path)) := by
  unfold populateDbtablePath at h
  dsimp only at h
  split at h
  · cases h
  split at h
  · cases h
  split at h
  · cases h
  rename_i loaded hinit
  obtain ⟨rfl, hpaths⟩ := Prod.mk.inj h
  exact ⟨hinit, databases.tablePaths_ne_nil_iff hpaths⟩

theorem populateAllDbtablePath_ok {pathPrefix : Option Path} {paths : List Path}
    {pathG2S : List (Path × List DbTablePath)}
    (h : databases.populateAllDbtablePath pathPrefix paths maps = (after, .ok pathG2S)) :
    pathG2S.map Prod.fst = paths ∧ ∀ entry ∈ pathG2S, entry.2 ≠ [] ↔
        Mapped databases (databases.mapsFor pathPrefix maps)
          (databases.stringSlice pathPrefix entry.1) := by
  induction paths generalizing maps pathG2S with
  | nil =>
    cases h
    exact ⟨rfl, fun entry hentry => by cases hentry⟩
  | cons path rest ih =>
    rw [populateAllDbtablePath] at h
    split at h
    · cases h
    rename_i loaded tblPaths hpath
    split at h
    · cases h
    rename_i final others hrest
    cases h
    obtain ⟨hinit, hmapped⟩ := databases.populateDbtablePath_ok hpath
    obtain ⟨hpaths, hothers⟩ := ih hrest
    have hloaded : databases.mapsFor pathPrefix maps = loaded := by
      rw [mapsFor, hinit]
    have hkept : databases.mapsFor pathPrefix loaded = loaded := by
      rw [mapsFor, databases.initFor_again hinit]
    rw [hkept] at hothers
    rw [hloaded]
    refine ⟨by rw [List.map_cons, hpaths], ?_⟩
    rw [List.forall_mem_cons]
    exact ⟨hmapped, hothers⟩

end Databases

/-- An accepted request has a table path for each of its paths exactly when the name maps
have something for each of them. -/
theorem accepted_paths_mapped_iff (databases : Databases) (paths : List Path)
    (pathPrefix : Option Path) (maps after : NameMaps)
    (pathG2S : List (Path × List DbTablePath))
    (h : databases.newDbClient paths pathPrefix maps = (after, .ok pathG2S)) :
    pathG2S.map Prod.fst = paths ∧
      ((∀ entry ∈ pathG2S, entry.2 ≠ []) ↔
        ∀ path ∈ paths, Mapped databases (databases.mapsFor pathPrefix maps)
          (databases.stringSlice pathPrefix path)) := by
  obtain ⟨hpaths, hentries⟩ := databases.populateAllDbtablePath_ok h
  refine ⟨hpaths, ?_⟩
  rw [← hpaths, List.forall_mem_map]
  exact forall₂_congr hentries

def oneNamespace (counters config : Redis.Db) : Databases where
  config :=
    { namespaces := [""], instances := [],
      separator := fun db _ => if db = "COUNTERS_DB" then ":" else "|" }
  target2RedisDb := fun ns db =>
    if ns = "" ∧ db = "COUNTERS_DB" then some (.ok counters)
    else if ns = "" ∧ db = "CONFIG_DB" then some (.ok config)
    else none
  reply := .sorted
  range := .sorted

def onePort : Databases :=
  oneNamespace (Redis.Db.single "COUNTERS_PORT_NAME_MAP" "Ethernet0" "oid:0x1")
    (Redis.Db.single "PORT|Ethernet0" "alias" "Ethernet1/1")

def namedPath (names : List String) : Path := { elem := names.map fun name => { name := name } }

/-- A request for all ports of a device with a port is accepted and has a table path. -/
theorem accepted_port_mapped :
    ∃ pathG2S,
      (onePort.newDbClient [namedPath ["COUNTERS", "Ethernet*"]]
        (some { target := "COUNTERS_DB" }) {}).2 = .ok pathG2S ∧
      ∀ entry ∈ pathG2S, entry.2 ≠ [] := by
  have hok : (onePort.newDbClient [namedPath ["COUNTERS", "Ethernet*"]]
      (some { target := "COUNTERS_DB" }) {}).2.toOption.isSome = true := by
    decide +kernel
  rcases hrun : onePort.newDbClient [namedPath ["COUNTERS", "Ethernet*"]]
      (some { target := "COUNTERS_DB" }) {} with ⟨after, fault | pathG2S⟩
  · rw [hrun] at hok
    cases hok
  refine ⟨pathG2S, rfl, ?_⟩
  rw [(accepted_paths_mapped_iff _ _ _ _ _ _ hrun).2]
  intro path hpath translator hfind
  cases List.mem_singleton.1 hpath
  have htranslator : v2rTrie.find (onePort.stringSlice (some { target := "COUNTERS_DB" })
      (namedPath ["COUNTERS", "Ethernet*"])) = some .ethPortStats := by
    decide +kernel
  rw [htranslator] at hfind
  cases hfind
  intro _
  decide +kernel

/-- The goroutine of a path without a table path panics. -/
theorem StreamClient.begin_nil (client : StreamClient) (updatesOnly : Bool)
    (subscription : Subscription) (reads : Reads) (hinterval : subscription.mode = .sample →
      ∃ interval, validateSampleInterval subscription = .ok interval) :
    client.begin updatesOnly { subscription := subscription, tblPaths := .ok [] } reads =
      .panic "index out of range [0] with length 0" := by
  unfold StreamClient.begin
  cases hmode : subscription.mode with
  | sample =>
    obtain ⟨interval, hvalid⟩ := hinterval hmode
    rw [hvalid]
    rfl
  | onChange | targetDefined | other number => rfl

/-- Paths of all translators with a star are accepted when the databases are empty, and so
are the watchdog and the queues of a port without queues.  Their goroutines panic. -/
theorem accepted_without_table_path :
    ((oneNamespace .empty .empty).newDbClient
        ([["COUNTERS", "Ethernet*"], ["COUNTERS", "Ethernet*", "SAI_PORT_STAT_IF_IN_OCTETS"],
          ["COUNTERS", "Ethernet*", "Queues"], ["COUNTERS", "Ethernet*", "Pfcwd"],
          ["COUNTERS", "PORT*"], ["PERIODIC_WATERMARKS", "Ethernet*", "PriorityGroups"],
          ["USER_WATERMARKS", "Ethernet*", "Queues"], ["COUNTERS", "SWITCH*"],
          ["COUNTERS", "SID*"], ["COUNTERS", "ACL_RULE*"], ["PORT_PHY_ATTR", "Ethernet*"],
          ["PORT_PHY_ATTR", "Ethernet*", "phy_rx_signal_detect"]].map namedPath)
        (some { target := "COUNTERS_DB" }) {}).2.toOption.map (List.map Prod.snd) =
      some (List.replicate 12 []) ∧
    (onePort.newDbClient
        ([["COUNTERS", "Ethernet0", "Pfcwd"], ["COUNTERS", "Ethernet1/1", "Queues"],
          ["USER_WATERMARKS", "Ethernet0", "Queues"]].map namedPath)
        (some { target := "COUNTERS_DB" }) {}).2.toOption.map (List.map Prod.snd) =
      some (List.replicate 3 []) ∧
    ∀ (updatesOnly : Bool) (reads : Reads),
      ({ table := .db } : StreamClient).begin updatesOnly
          { subscription := { mode := .onChange }, tblPaths := .ok [] } reads =
        .panic "index out of range [0] with length 0" ∧
      ({ table := .db } : StreamClient).begin updatesOnly
          { subscription := { mode := .sample }, tblPaths := .ok [] } reads =
        .panic "index out of range [0] with length 0" := by
  refine ⟨by decide +kernel, by decide +kernel, fun updatesOnly reads => ⟨?_, ?_⟩⟩
  · exact StreamClient.begin_nil _ _ _ _ fun hmode => by cases hmode
  · exact StreamClient.begin_nil _ _ _ _ fun _ => ⟨_, rfl⟩

end SonicGnmi.Sdc
