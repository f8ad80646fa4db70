import SonicGnmi.Foundation.StringMap
import SonicGnmi.Sdc.MixedClient

/-!
# The name maps of the counters database

The counters database stores its rows under object ids.  `virtual_db.go` keeps maps from
names (of ports, queues, priority groups, fabric ports, switches, segment ids and rules)
to object ids in package variables.  The maps are read from the databases when the first
path of the database is populated.

A map is read under a `sync.Once`: an error is returned to the first caller only, and
later callers go on with what is in the map then.

* `Databases` — the clients `Target2RedisDb` of all namespaces;
* `getCountersMap`, `getFabricCountersMap`, `getSwitchStatMap`, `getAliasMap`,
  `getPfcwdMap` — reading the maps;
* `NameMaps`, `Databases.initMaps` — the package variables, and what
  `populateDbtablePath` does with them for `COUNTERS_DB`;
* `initMaps_again` — the second caller finds the maps of the first one.
-/

namespace SonicGnmi.Sdc

open Foundation Gnmi Grpc

/-! ## Redis clients -/

/-- A Redis client: every command fails with the same error, or reaches a database. -/
abbrev RedisClient := Except String Redis.Db

namespace RedisClient

def ping (client : RedisClient) : Except Fault Unit :=
  match client with
  | .error err => .error (.plain err)
  | .ok _ => .ok ()

def keys (client : RedisClient) (order : Redis.ReplyOrder) (pattern : String) :
    Except Fault (List String) :=
  match client with
  | .error err => .error (.plain err)
  | .ok db => .ok ((order.keys db).filter (Glob.globMatch pattern))

def hGetAll (client : RedisClient) (key : String) : Except Fault Redis.Hash :=
  match client with
  | .error err => .error (.plain err)
  | .ok db => .ok (db.hash key)

/-- `HGet`; a field that does not exist is the error `redis.Nil`. -/
def hGet (client : RedisClient) (key field : String) : Except Fault String :=
  match client with
  | .error err => .error (.plain err)
  | .ok db =>
    match (db.hash key).lookup field with
    | none => .error (.plain "redis: nil")
    | some value => .ok value

end RedisClient

/-- The databases of a device, and the orders in which a process sees them. -/
structure Databases where
  config : DbConfig
  /-- `Target2RedisDb`: the client of a namespace and a database. -/
  target2RedisDb : String → String → Option RedisClient
  reply : Redis.ReplyOrder
  range : MapOrder
  /-- Whether the variable `UNIT_TEST` of the environment is 1. -/
  unitTest : Bool := false

/-- The keys of `Target_value`. -/
def targetNames : List String :=
  ["APPL_DB", "ASIC_DB", "COUNTERS_DB", "CONFIG_DB", "PFC_WD_DB", "FLEX_COUNTER_DB", "STATE_DB",
    "CHASSIS_STATE_DB", "OTHERS"]

/-- A map from names to object ids. -/
abbrev NameMap := StringMap String

/-- `key[n:]`. -/
def sliceFrom (key : String) (n : Nat) : Except Fault String :=
  if key.length < n then
    .error (.panic ("slice bounds out of range [" ++ toString n ++ ":" ++ toString key.length ++
      "]"))
  else .ok (String.ofList (key.toList.drop n))

namespace Databases

variable (databases : Databases)

/-- `GetTableKeySeparator`, without its error. -/
def tableKeySeparator (target ns : String) : String :=
  if target ∈ targetNames then databases.config.separator target { netns := ns } else ""

/-- `GetDbNonDefaultNamespaces`. -/
def nonDefaultNamespaces : List String :=
  databases.config.namespaces.filter fun ns => ns ≠ ""

/-- `GetRedisClientsForDb`. -/
def redisClientsForDb (target : String) : StringMap RedisClient :=
  (if databases.config.checkDbMultiNamespace then databases.nonDefaultNamespaces else [""]).foldl
    (fun clients ns =>
      match databases.target2RedisDb ns target with
      | none => clients
      | some client => clients.insert ns client) ∅

/-- The loop over the clients of a database. -/
def overClients {State : Type} (target : String)
    (body : State → String × RedisClient → Except Fault State) (start : State) :
    Except Fault State :=
  (databases.range.visit (databases.redisClientsForDb target)).foldlM body start

/-! ## Reading the maps -/

def addmap (a b : NameMap) : NameMap := b ∪ a

variable (tableName : String)

def getCountersMap : Except Fault NameMap :=
  databases.overClients "COUNTERS_DB"
    (fun counterMap entry => do
      let fv ← entry.2.hGetAll tableName
      return addmap counterMap fv) ∅

/-- The names of a namespace, which are not unique in the device. -/
def withNamespace (ns : String) (fv : NameMap) : NameMap :=
  (databases.range.visit fv).foldl
    (fun namespaceFv entry =>
      namespaceFv.insert (entry.1 ++ if ns ≠ "" then "-" ++ ns else "") entry.2) ∅

/-- The maps whose names carry their namespace. -/
def getNamespacedMap : Except Fault NameMap :=
  databases.overClients "COUNTERS_DB"
    (fun counterMap entry => do
      let fv ← entry.2.hGetAll tableName
      return addmap counterMap (databases.withNamespace entry.1 fv)) ∅

def getFabricCountersMap : Except Fault NameMap :=
  databases.getNamespacedMap tableName

def getSwitchStatMap : Except Fault NameMap :=
  databases.getNamespacedMap tableName

end Databases

/-- The maps between the names of ports, their vendor aliases and their namespaces. -/
structure AliasMaps where
  alias2nameMap : NameMap := ∅
  name2aliasMap : NameMap := ∅
  port2namespaceMap : NameMap := ∅

namespace Databases

variable (databases : Databases)

/-- One key of the table `PORT`. -/
def addAlias (ns : String) (client : RedisClient) (maps : AliasMaps) (key : String) :
    Except Fault AliasMaps := do
  let vendorAlias ← client.hGet key "alias"
  let name ← sliceFrom key 5
  return {
    alias2nameMap := maps.alias2nameMap.insert vendorAlias name
    name2aliasMap := maps.name2aliasMap.insert name vendorAlias
    port2namespaceMap := maps.port2namespaceMap.insert name ns }

def getAliasMap : Except Fault AliasMaps :=
  databases.overClients "CONFIG_DB"
    (fun maps entry => do
      entry.2.ping
      let resp ← entry.2.keys databases.reply
        ("PORT" ++ databases.tableKeySeparator "CONFIG_DB" entry.1 ++ "*")
      resp.foldlM (addAlias entry.1 entry.2) maps) {}

/-- Keys that stand for no port. -/
def isGlobal (key : String) : Bool := GoText.contains key "GLOBAL" || GoText.contains key "global"

variable (queueNameMap : NameMap)

/-- The queues of one port, in the loop over the indices of the enabled queues. -/
def pfcwdQueues (port separator : String) (indices : List String) :
    NameMap → Except Fault NameMap :=
  indices.foldlM fun queues indice =>
    let queueKey := port ++ separator ++ indice
    match queueNameMap.lookup queueKey with
    | none => .error (.plain ("key " ++ queueKey ++ " not exists in COUNTERS_QUEUE_NAME_MAP"))
    | some oid => .ok (queues.insert queueKey oid)

/-- `GetPfcwdMap` for one namespace.  Without a value the function returns no map. -/
def pfcwdNamespace (ns : String) (client : RedisClient)
    (pfcwdNameMap : StringMap NameMap) : Except Fault (Option (StringMap NameMap)) := do
  let separator := databases.tableKeySeparator "CONFIG_DB" ns
  client.ping
  let keyName := "PFC_WD" ++ separator ++ "*"
  let resp ← client.keys databases.reply keyName
  if resp = [] then return none
  let pfcwdNameMap ← (resp.filter fun key => !isGlobal key).foldlM
    (fun (m : StringMap NameMap) key => do
      let name ← sliceFrom key (keyName.length - 1)
      return m.insert name ∅) pfcwdNameMap
  let resp ← client.keys databases.reply "PORT_QOS_MAP*"
  if resp = [] then return none
  let qosKey := (resp.find? fun key => !isGlobal key).getD ""
  let priorities ← client.hGet qosKey "pfc_enable"
  let pfcQueueMap ← client.hGetAll ("MAP_PFC_PRIORITY_TO_QUEUE" ++ separator ++ "AZURE")
  let indices := (GoText.split priorities ',').filterMap fun p => pfcQueueMap.lookup p
  if queueNameMap = ∅ then return none
  let queueSeparator := databases.tableKeySeparator "COUNTERS_DB" ns
  -- the ports of the namespaces before this one are visited again
  let pfcwdNameMap ← (databases.range.visit pfcwdNameMap).foldlM
    (fun (m : StringMap NameMap) entry => do
      let queues ← pfcwdQueues queueNameMap entry.1 queueSeparator indices entry.2
      return m.insert entry.1 queues) pfcwdNameMap
  return some pfcwdNameMap

/-- The loop of `GetPfcwdMap`. -/
def pfcwdLoop (queueNameMap : NameMap) :
    List (String × RedisClient) → StringMap NameMap → Except Fault (StringMap NameMap)
  | [], pfcwdNameMap => .ok pfcwdNameMap
  | (ns, client) :: rest, pfcwdNameMap =>
    match databases.pfcwdNamespace queueNameMap ns client pfcwdNameMap with
    | .error fault => .error fault
    | .ok none => .ok ∅
    | .ok (some pfcwdNameMap) => pfcwdLoop queueNameMap rest pfcwdNameMap

def getPfcwdMap : Except Fault (StringMap NameMap) :=
  databases.pfcwdLoop queueNameMap
    (databases.range.visit (databases.redisClientsForDb "CONFIG_DB")) ∅

end Databases

/-! ## The package variables -/

/-- A variable that a `sync.Once` fills. -/
structure Once (Value : Type) where
  value : Value
  done : Bool := false

namespace Once

variable {Value : Type}

/-- `once.Do`, with the value and the error of the function. -/
def fill (once : Once Value) (load : Value → Value × Except Fault Unit) :
    Once Value × Except Fault Unit :=
  if once.done then (once, .ok ())
  else ({ value := (load once.value).1, done := true }, (load once.value).2)

theorem done_fill (once : Once Value) (load : Value → Value × Except Fault Unit) :
    (once.fill load).1.done = true := by
  unfold fill
  split
  · assumption
  · rfl

theorem fill_of_done {once : Once Value} (hdone : once.done = true)
    (load : Value → Value × Except Fault Unit) : once.fill load = (once, .ok ()) := if_pos hdone

end Once

/-- A function that returns no map with an error. -/
def assign {Value : Type} (none : Value) (loaded : Except Fault Value) (_old : Value) :
    Value × Except Fault Unit :=
  match loaded with
  | .error fault => (none, .error fault)
  | .ok value => (value, .ok ())

/-- `countersPGNameMap`: the priority groups of a port are entered one by one, so that a
port in the map has one. -/
structure PGNameMap where
  ports : StringMap NameMap := ∅
  nonempty : ∀ port groups, ports.lookup port = some groups → groups ≠ ∅ := by
    intro port groups h
    rw [Finmap.lookup_empty] at h
    cases h

theorem StringMap.insert_ne_empty {Value : Type} (m : StringMap Value) (key : String)
    (value : Value) : m.insert key value ≠ ∅ := by
  intro h
  have hlookup := Finmap.lookup_insert m (a := key) (b := value)
  rw [h, Finmap.lookup_empty] at hlookup
  cases hlookup

/-- Enter one priority group. -/
def PGNameMap.enter (m : PGNameMap) (port index oid : String) : PGNameMap where
  ports := m.ports.insert port (((m.ports.lookup port).getD ∅).insert index oid)
  nonempty := by
    intro other groups h
    by_cases hother : other = port
    · subst hother
      rw [Finmap.lookup_insert] at h
      cases h
      exact StringMap.insert_ne_empty _ _ _
    · rw [Finmap.lookup_insert_of_ne _ hother] at h
      exact m.nonempty other groups h

/-- The loop of `initCountersPGNameMap`; what was entered before an error stays. -/
def PGNameMap.enterAll : List (String × String) → PGNameMap → PGNameMap × Except Fault Unit
  | [], m => (m, .ok ())
  | (pg, oid) :: rest, m =>
    match GoText.split pg ':' with
    | [port, index] => enterAll rest (m.enter port index oid)
    | _ => (m, .error (.plain ("invalid pg name " ++ pg)))

/-- The package variables. -/
structure NameMaps where
  countersPortNameMap : Once NameMap := { value := ∅ }
  countersQueueNameMap : Once NameMap := { value := ∅ }
  countersPGNameMap : Once PGNameMap := { value := {} }
  aliasMaps : Once AliasMaps := { value := {} }
  countersPfcwdNameMap : Once (StringMap NameMap) := { value := ∅ }
  countersFabricPortNameMap : Once NameMap := { value := ∅ }
  countersDebugNameSwitchStatMap : NameMap := ∅
  countersSidMap : Once NameMap := { value := ∅ }
  countersAclRuleMap : Once NameMap := { value := ∅ }

/-- A step of the initialisation: the variables after it, and its error. -/
abbrev Init := NameMaps → NameMaps × Except Fault Unit

/-- An error ends the initialisation. -/
def Init.andThen (first second : Init) : Init := fun maps =>
  match first maps with
  | (maps, .error fault) => (maps, .error fault)
  | (maps, .ok ()) => second maps

/-- An error is only logged; a panic stays one. -/
def Init.logged (init : Init) : Init := fun maps =>
  match init maps with
  | (maps, .error (.panic reason)) => (maps, .error (.panic reason))
  | (maps, _) => (maps, .ok ())

namespace Databases

variable (databases : Databases)

def initCountersPortNameMap : Init := fun maps =>
  let filled := maps.countersPortNameMap.fill
    (assign ∅ (databases.getCountersMap "COUNTERS_PORT_NAME_MAP"))
  ({ maps with countersPortNameMap := filled.1 }, filled.2)

def initCountersQueueNameMap : Init := fun maps =>
  let filled := maps.countersQueueNameMap.fill
    (assign ∅ (databases.getCountersMap "COUNTERS_QUEUE_NAME_MAP"))
  ({ maps with countersQueueNameMap := filled.1 }, filled.2)

def initCountersPGNameMap : Init := fun maps =>
  let filled := maps.countersPGNameMap.fill fun m =>
    match databases.getCountersMap "COUNTERS_PG_NAME_MAP" with
    | .error fault => (m, .error fault)
    | .ok pgOidMap => PGNameMap.enterAll (databases.range.visit pgOidMap) m
  ({ maps with countersPGNameMap := filled.1 }, filled.2)

def initAliasMap : Init := fun maps =>
  let filled := maps.aliasMaps.fill (assign {} databases.getAliasMap)
  ({ maps with aliasMaps := filled.1 }, filled.2)

def initCountersPfcwdNameMap : Init := fun maps =>
  let filled := maps.countersPfcwdNameMap.fill
    (assign ∅ (databases.getPfcwdMap maps.countersQueueNameMap.value))
  ({ maps with countersPfcwdNameMap := filled.1 }, filled.2)

def initCountersFabricPortNameMap : Init := fun maps =>
  let filled := maps.countersFabricPortNameMap.fill
    (assign ∅ (databases.getFabricCountersMap "COUNTERS_FABRIC_PORT_NAME_MAP"))
  ({ maps with countersFabricPortNameMap := filled.1 }, filled.2)

/-- The map of the switch counters has no `sync.Once`: an empty one is read again. -/
def reloadSwitchStat (m : NameMap) : NameMap × Except Fault Unit :=
  if m = ∅ ∨ databases.unitTest = true then
    assign ∅ (databases.getSwitchStatMap "COUNTERS_DEBUG_NAME_SWITCH_STAT_MAP") m
  else (m, .ok ())

def initDebugNameSwitchStatMap : Init := fun maps =>
  let filled := databases.reloadSwitchStat maps.countersDebugNameSwitchStatMap
  ({ maps with countersDebugNameSwitchStatMap := filled.1 }, filled.2)

def initCountersSidMap : Init := fun maps =>
  let filled := maps.countersSidMap.fill
    (assign ∅ (databases.getCountersMap "COUNTERS_SRV6_NAME_MAP"))
  ({ maps with countersSidMap := filled.1 }, filled.2)

def initCountersAclRuleMap : Init := fun maps =>
  let filled := maps.countersAclRuleMap.fill
    (assign ∅ (databases.getCountersMap "ACL_COUNTER_RULE_MAP"))
  ({ maps with countersAclRuleMap := filled.1 }, filled.2)

/-- The calls of `populateDbtablePath` for `COUNTERS_DB`. -/
def initMaps : Init :=
  databases.initCountersPortNameMap.andThen <|
  databases.initCountersQueueNameMap.andThen <|
  databases.initCountersPGNameMap.andThen <|
  databases.initAliasMap.andThen <|
  databases.initCountersPfcwdNameMap.logged.andThen <|
  databases.initCountersFabricPortNameMap.logged.andThen <|
  databases.initDebugNameSwitchStatMap.logged.andThen <|
  databases.initCountersSidMap.logged.andThen <|
  databases.initCountersAclRuleMap.logged

end Databases

/-! ## The second caller -/

/-- The functions under a `sync.Once` have all run. -/
structure NameMaps.Filled (maps : NameMaps) : Prop where
  port : maps.countersPortNameMap.done = true
  queue : maps.countersQueueNameMap.done = true
  priorityGroup : maps.countersPGNameMap.done = true
  aliases : maps.aliasMaps.done = true
  pfcwd : maps.countersPfcwdNameMap.done = true
  fabric : maps.countersFabricPortNameMap.done = true
  sid : maps.countersSidMap.done = true
  aclRule : maps.countersAclRuleMap.done = true

variable {after maps : NameMaps}

theorem Init.andThen_ok_iff {first second : Init} :
    first.andThen second maps = (after, .ok ()) ↔
      ∃ between, first maps = (between, .ok ()) ∧ second between = (after, .ok ()) := by
  unfold Init.andThen
  rcases first maps with ⟨between, fault | ⟨⟨⟩⟩⟩ <;> simp

theorem Init.logged_ok_iff {init : Init} :
    init.logged maps = (after, .ok ()) ↔
      (init maps).1 = after ∧ ∀ reason, (init maps).2 ≠ .error (.panic reason) := by
  unfold Init.logged
  rcases init maps with ⟨other, (status | text | reason) | ⟨⟨⟩⟩⟩ <;> simp

theorem Init.logged_of_ok {init : Init}
    (h : init maps = (after, .ok ())) : init.logged maps = (after, .ok ()) := by
  rw [Init.logged_ok_iff, h]
  exact ⟨rfl, fun _ hpanic => by cases hpanic⟩

namespace Databases

variable (databases : Databases)

theorem reloadSwitchStat_again (m : NameMap) :
    (databases.reloadSwitchStat (databases.reloadSwitchStat m).1).1 =
        (databases.reloadSwitchStat m).1 ∧
      ((databases.reloadSwitchStat (databases.reloadSwitchStat m).1).2 = .ok () ∨
        (databases.reloadSwitchStat (databases.reloadSwitchStat m).1).2 =
          (databases.reloadSwitchStat m).2) := by
  unfold reloadSwitchStat
  split_ifs
  · exact ⟨rfl, .inr rfl⟩
  · exact ⟨rfl, .inl rfl⟩
  · exact ⟨rfl, .inl rfl⟩

variable {after maps : NameMaps}

theorem initDebugNameSwitchStatMap_again {later : NameMaps}
    (h : databases.initDebugNameSwitchStatMap.logged maps = (after, .ok ()))
    (hlater : later.countersDebugNameSwitchStatMap = after.countersDebugNameSwitchStatMap) :
    databases.initDebugNameSwitchStatMap.logged later = (later, .ok ()) := by
  obtain ⟨rfl, hpanic⟩ := Init.logged_ok_iff.1 h
  obtain ⟨hvalue, hfault⟩ := databases.reloadSwitchStat_again maps.countersDebugNameSwitchStatMap
  have hvalue' : (databases.reloadSwitchStat later.countersDebugNameSwitchStatMap).1 =
      later.countersDebugNameSwitchStatMap := by
    rw [hlater]
    exact hvalue
  rw [Init.logged_ok_iff]
  constructor
  · show { later with countersDebugNameSwitchStatMap :=
      (databases.reloadSwitchStat later.countersDebugNameSwitchStatMap).1 } = later
    rw [hvalue']
  · intro reason hreason
    have hsecond : (databases.reloadSwitchStat
        (databases.reloadSwitchStat maps.countersDebugNameSwitchStatMap).1).2 =
          .error (.panic reason) := by
      rw [← show later.countersDebugNameSwitchStatMap =
        (databases.reloadSwitchStat maps.countersDebugNameSwitchStatMap).1 from hlater]
      exact hreason
    rcases hfault with hok | hsame
    · rw [hok] at hsecond
      cases hsecond
    · rw [hsame] at hsecond
      exact hpanic reason hsecond

theorem initMaps_filled (h : databases.initMaps maps = (after, .ok ())) :
    after.Filled ∧ databases.initDebugNameSwitchStatMap.logged after = (after, .ok ()) := by
  simp only [initMaps, Init.andThen_ok_iff] at h
  obtain ⟨m₁, h₁, m₂, h₂, m₃, h₃, m₄, h₄, m₅, h₅, m₆, h₆, m₇, h₇, m₈, h₈, h₉⟩ := h
  have hswitch := h₇
  -- every step changes its own variable, so the results of the nine can be put together
  obtain rfl := congrArg Prod.fst h₁
  obtain rfl := congrArg Prod.fst h₂
  obtain rfl := congrArg Prod.fst h₃
  obtain rfl := congrArg Prod.fst h₄
  obtain ⟨rfl, -⟩ := Init.logged_ok_iff.1 h₅
  obtain ⟨rfl, -⟩ := Init.logged_ok_iff.1 h₆
  obtain ⟨rfl, -⟩ := Init.logged_ok_iff.1 h₇
  obtain ⟨rfl, -⟩ := Init.logged_ok_iff.1 h₈
  obtain ⟨rfl, -⟩ := Init.logged_ok_iff.1 h₉
  refine ⟨?_, databases.initDebugNameSwitchStatMap_again hswitch rfl⟩
  constructor <;> exact Once.done_fill _ _

/-- After a caller without an error the maps stay what they are. -/
theorem initMaps_again (h : databases.initMaps maps = (after, .ok ())) :
    databases.initMaps after = (after, .ok ()) := by
  obtain ⟨hfilled, hswitch⟩ := databases.initMaps_filled h
  simp only [initMaps, Init.andThen_ok_iff]
  refine ⟨after, ?_, after, ?_, after, ?_, after, ?_, after, Init.logged_of_ok ?_, after,
    Init.logged_of_ok ?_, after, hswitch, after, Init.logged_of_ok ?_, Init.logged_of_ok ?_⟩
  · rw [initCountersPortNameMap, Once.fill_of_done hfilled.port]
  · rw [initCountersQueueNameMap, Once.fill_of_done hfilled.queue]
  · rw [initCountersPGNameMap, Once.fill_of_done hfilled.priorityGroup]
  · rw [initAliasMap, Once.fill_of_done hfilled.aliases]
  · rw [initCountersPfcwdNameMap, Once.fill_of_done hfilled.pfcwd]
  · rw [initCountersFabricPortNameMap, Once.fill_of_done hfilled.fabric]
  · rw [initCountersSidMap, Once.fill_of_done hfilled.sid]
  · rw [initCountersAclRuleMap, Once.fill_of_done hfilled.aclRule]

end Databases
end SonicGnmi.Sdc
