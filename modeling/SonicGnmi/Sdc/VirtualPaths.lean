import SonicGnmi.Foundation.Trie
import SonicGnmi.Sdc.NameMaps

/-!
# Virtual paths

`virtual_db.go`: a path of the counters database that names ports instead of object ids
is translated into table paths.  A trie finds the translator of a path, and a key that
ends in a star stands for all names of a map.

* `Translator`, `pathTransFuncTbl`, `v2rTrie` — the translators and their paths;
* `v2rEthPortStats`, ..., `lookupV2R` — the translations;
* `Translator.Fills`, `translate_yields` — when a translation has a table path;

The translators of port counters differ in whether they translate vendor aliases and in
whether the path has a field; the other families differ in their map and their texts.
-/

namespace SonicGnmi.Sdc

open Foundation Gnmi Grpc Yields

/-- `tablePath`, with the fields that only a `DbClient` uses. -/
structure DbTablePath extends TablePath where
  dbNamespace : String := ""
  jsonTableName : String := ""
  deriving DecidableEq

def buildTablePath (ns dbName tableName tableKey separator field jsonTableName jsonTableKey
    jsonField : String) : DbTablePath where
  dbNamespace := ns
  dbName := dbName
  tableName := tableName
  tableKey := tableKey
  delimitor := separator
  field := field
  jsonTableName := jsonTableName
  jsonTableKey := jsonTableKey
  jsonField := jsonField

def dbIdx : Nat := 0

def tblIdx : Nat := 1

def keyIdx : Nat := 2

def fieldIdx : Nat := 3

/-- `paths[idx]`; the paths of a translator have the element. -/
def element (paths : List String) (idx : Nat) : String := paths.getD idx ""

/-- `names[idx]` of a name that was split. -/
def nameAt (names : List String) (idx : Nat) : Except Fault String :=
  match names[idx]? with
  | none =>
    .error (.panic ("index out of range [" ++ toString idx ++ "] with length " ++
      toString names.length))
  | some name => .ok name

/-! ## Names of ports -/

namespace NameMaps

variable (maps : NameMaps)

/-- The namespace of a port, or an error. -/
def portNamespace (port text : String) : Except Fault String :=
  match maps.aliasMaps.value.port2namespaceMap.lookup port with
  | none => .error (.plain text)
  | some ns => .ok ns

/-- The namespace of a port in the translators that look it up themselves. -/
def namespaceOf (port : String) : Except Fault String :=
  maps.portNamespace port (port ++ " does not have namespace associated")

def getPortNamespace (port : String) : Except Fault String :=
  maps.portNamespace port (port ++ " does not have an associated namespace")

def getVendorPortName (port : String) : String :=
  (maps.aliasMaps.value.name2aliasMap.lookup port).getD port

def getSonicPortName (port : String) : String :=
  (maps.aliasMaps.value.alias2nameMap.lookup port).getD port

end NameMaps

/-! ## The translators -/

section Translators

variable (databases : Databases) (maps : NameMaps) (paths : List String)

/-- The table path of a row. -/
def rowPath (ns oid jsonTableKey field jsonField : String) : DbTablePath :=
  buildTablePath ns (element paths dbIdx) (element paths tblIdx) oid
    (databases.tableKeySeparator (element paths dbIdx) ns) field "" jsonTableKey jsonField

/-- The translation of port counters.  `aliases` says whether vendor aliases are
translated and `field` is the field of the path. -/
def portStats (aliases : Bool) (field : String) (invalid : String → String → String) :
    Except Fault (List DbTablePath) :=
  if GoText.hasSuffix (element paths keyIdx) "*" then
    gather
      (fun entry =>
        match maps.namespaceOf entry.1 with
        | .error fault => .error fault
        | .ok ns =>
          .ok [rowPath databases paths ns entry.2
            (if aliases then maps.getVendorPortName entry.1 else entry.1) field field])
      (databases.range.visit maps.countersPortNameMap.value)
  else
    let name :=
      if aliases then maps.getSonicPortName (element paths keyIdx) else element paths keyIdx
    match maps.countersPortNameMap.value.lookup name with
    | none => .error (.plain (invalid name (element paths keyIdx)))
    | some oid =>
      match maps.namespaceOf name with
      | .error fault => .error fault
      | .ok ns => .ok [rowPath databases paths ns oid "" field ""]

def v2rEthPortStats : Except Fault (List DbTablePath) :=
  portStats databases maps paths true "" fun name vendorAlias =>
    name ++ " not a valid sonic interface. Vendor alias is " ++ vendorAlias

def v2rEthPortFieldStats : Except Fault (List DbTablePath) :=
  portStats databases maps paths true (element paths fieldIdx) fun name vendorAlias =>
    " " ++ name ++ " not a valid sonic interface. Vendor alias is " ++ vendorAlias ++ " "

def v2rPortPhyAttrStats : Except Fault (List DbTablePath) :=
  portStats databases maps paths false "" fun name _ => name ++ " not a valid sonic interface"

def v2rPortPhyAttrFieldStats : Except Fault (List DbTablePath) :=
  portStats databases maps paths false (element paths fieldIdx) fun name _ =>
    name ++ " not a valid sonic interface"

/-- The namespace at the end of a name. -/
def nameSuffix (name : String) : String :=
  if GoText.contains name "-" then (GoText.split name '-').getD 1 "" else ""

/-- The translation of counters whose names carry their namespace. -/
def namespacedStats (names : NameMap) (invalid : String → String) :
    Except Fault (List DbTablePath) :=
  if GoText.hasSuffix (element paths keyIdx) "*" then
    gather (fun entry => .ok [rowPath databases paths (nameSuffix entry.1) entry.2 entry.1 "" ""])
      (databases.range.visit names)
  else
    let port := element paths keyIdx
    match names.lookup port with
    | none => .error (.plain (invalid port))
    | some oid => .ok [rowPath databases paths (nameSuffix port) oid "" "" ""]

def v2rFabricPortStats : Except Fault (List DbTablePath) :=
  namespacedStats databases paths maps.countersFabricPortNameMap.value fun port =>
    port ++ " not a valid sonic fabric interface."

def v2rSwitchPacketIntegrityDrop : Except Fault (List DbTablePath) :=
  namespacedStats databases paths maps.countersDebugNameSwitchStatMap fun port =>
    port ++ " not a valid sonic SWITCH ID."

/-- The translation of counters whose keys begin with the kind of their names. -/
def prefixedStats (names : NameMap) (head : String) (format : String) :
    Except Fault (List DbTablePath) :=
  if GoText.hasSuffix (element paths keyIdx) "*" then
    gather (fun entry => .ok [rowPath databases paths "" entry.2 entry.1 "" ""])
      (databases.range.visit names)
  else if GoText.hasPrefix (element paths keyIdx) head = false then
    .error (.plain ("Key " ++ element paths keyIdx ++ " is not a valid " ++ format ++ " format!"))
  else
    let name := GoText.trimPrefix (element paths keyIdx) head
    match names.lookup name with
    | none => .error (.plain (head ++ name ++ " doesn't exist in counter oid map!"))
    | some oid => .ok [rowPath databases paths "" oid "" "" ""]

def v2rSRv6SidStats : Except Fault (List DbTablePath) :=
  prefixedStats databases paths maps.countersSidMap.value "SID:" "SRv6 SID"

def v2rAclRuleStats : Except Fault (List DbTablePath) :=
  prefixedStats databases paths maps.countersAclRuleMap.value "ACL_RULE:" "ACL rule"

def v2rEthPortPfcwdStats : Except Fault (List DbTablePath) :=
  if GoText.hasSuffix (element paths keyIdx) "*" then
    gather
      (fun port => do
        let ns ← maps.namespaceOf port.1
        let separator := databases.tableKeySeparator (element paths dbIdx) ns
        gather
          (fun queue => do
            let names := GoText.splitString queue.1 separator
            let name ← nameAt names 0
            let index ← nameAt names 1
            return [rowPath databases paths ns queue.2
              (maps.getVendorPortName name ++ separator ++ index) "" ""])
          (databases.range.visit port.2))
      (databases.range.visit maps.countersPfcwdNameMap.value)
  else do
    let vendorAlias := element paths keyIdx
    let name := maps.getSonicPortName vendorAlias
    let ns ← maps.namespaceOf name
    match maps.countersPortNameMap.value.lookup name with
    | none =>
      .error (.plain (name ++ " not a valid SONiC interface. Vendor alias is " ++ vendorAlias))
    | some _ =>
      let separator := databases.tableKeySeparator (element paths dbIdx) ns
      match maps.countersPfcwdNameMap.value.lookup name with
      | none => .ok []
      | some pfcqueues =>
        gather
          (fun queue => do
            let index ← nameAt (GoText.splitString queue.1 separator) 1
            return [rowPath databases paths ns queue.2 (vendorAlias ++ separator ++ index) "" ""])
          (databases.range.visit pfcqueues)

/-- The table paths of a queue in `v2rEthPortQueStats`: its counters, and its watermark
from another table. -/
def queuePaths (ns oid separator que : String) : List DbTablePath :=
  let field := "SAI_QUEUE_STAT_SHARED_WATERMARK_BYTES"
  [buildTablePath ns (element paths dbIdx) (element paths tblIdx) oid separator "" "" que "",
    buildTablePath ns (element paths dbIdx) "PERIODIC_WATERMARKS" oid separator field
      (element paths tblIdx) (que ++ separator ++ "periodic") field]

def v2rEthPortQueStats : Except Fault (List DbTablePath) :=
  let separator := databases.tableKeySeparator (element paths dbIdx) ""
  if GoText.hasSuffix (element paths keyIdx) "*" then
    gather
      (fun queue => do
        let names := GoText.splitString queue.1 separator
        let name ← nameAt names 0
        let ns ← maps.namespaceOf name
        let index ← nameAt names 1
        return queuePaths paths ns queue.2 separator
          (maps.getVendorPortName name ++ separator ++ index))
      (databases.range.visit maps.countersQueueNameMap.value)
  else do
    let vendorAlias := element paths keyIdx
    let name := maps.getSonicPortName vendorAlias
    let ns ← maps.namespaceOf name
    gather
      (fun queue => do
        let names := GoText.splitString queue.1 separator
        let port ← nameAt names 0
        if name ≠ port then return []
        let index ← nameAt names 1
        return queuePaths paths ns queue.2 separator (vendorAlias ++ separator ++ index))
      (databases.range.visit maps.countersQueueNameMap.value)

def v2rEthPortPGPeriodicWMs : Except Fault (List DbTablePath) :=
  let separator := databases.tableKeySeparator (element paths dbIdx) ""
  let groupPath (ns port : String) (group : String × String) : DbTablePath :=
    buildTablePath ns (element paths dbIdx) (element paths tblIdx) group.2 separator "" ""
      (port ++ separator ++ group.1) ""
  if GoText.hasSuffix (element paths keyIdx) "*" then
    gather
      (fun port => do
        let ns ← maps.getPortNamespace port.1
        gather (fun group => .ok [groupPath ns (maps.getVendorPortName port.1) group])
          (databases.range.visit port.2))
      (databases.range.visit maps.countersPGNameMap.value.ports)
  else do
    let port := maps.getSonicPortName (element paths keyIdx)
    let ns ← maps.getPortNamespace port
    match maps.countersPGNameMap.value.ports.lookup port with
    | none => .error (.plain ("No priority groups associated with " ++ port))
    | some groups =>
      gather (fun group => .ok [groupPath ns (element paths keyIdx) group])
        (databases.range.visit groups)

def v2rEthPortQueueWMs : Except Fault (List DbTablePath) :=
  let separator := databases.tableKeySeparator (element paths dbIdx) ""
  let queuePath (ns : String) (queue : String × String) : DbTablePath :=
    buildTablePath ns (element paths dbIdx) (element paths tblIdx) queue.2 separator "" ""
      queue.1 ""
  if GoText.hasSuffix (element paths keyIdx) "*" then
    gather
      (fun queue => do
        let port ← nameAt (GoText.splitString queue.1 separator) 0
        let ns ← maps.getPortNamespace port
        return [queuePath ns queue])
      (databases.range.visit maps.countersQueueNameMap.value)
  else do
    let port := maps.getSonicPortName (element paths keyIdx)
    let ns ← maps.getPortNamespace port
    gather
      (fun queue => do
        let name ← nameAt (GoText.splitString queue.1 separator) 0
        if name ≠ port then return []
        return [queuePath ns queue])
      (databases.range.visit maps.countersQueueNameMap.value)

end Translators

/-- The functions of `pathTransFuncTbl`. -/
inductive Translator where
  | ethPortStats
  | ethPortFieldStats
  | ethPortQueStats
  | ethPortPfcwdStats
  | fabricPortStats
  | ethPortPGPeriodicWMs
  | ethPortQueueWMs
  | switchPacketIntegrityDrop
  | srv6SidStats
  | aclRuleStats
  | portPhyAttrStats
  | portPhyAttrFieldStats
  deriving DecidableEq

def pathTransFuncTbl : List (List String × Translator) :=
  [(["COUNTERS_DB", "COUNTERS", "Ethernet*"], .ethPortStats),
    (["COUNTERS_DB", "COUNTERS", "Ethernet*", "*"], .ethPortFieldStats),
    (["COUNTERS_DB", "COUNTERS", "Ethernet*", "Queues"], .ethPortQueStats),
    (["COUNTERS_DB", "COUNTERS", "Ethernet*", "Pfcwd"], .ethPortPfcwdStats),
    (["COUNTERS_DB", "COUNTERS", "PORT*"], .fabricPortStats),
    (["COUNTERS_DB", "PERIODIC_WATERMARKS", "Ethernet*", "PriorityGroups"], .ethPortPGPeriodicWMs),
    (["COUNTERS_DB", "USER_WATERMARKS", "Ethernet*", "Queues"], .ethPortQueueWMs),
    (["COUNTERS_DB", "PERSISTENT_WATERMARKS", "Ethernet*", "Queues"], .ethPortQueueWMs),
    (["COUNTERS_DB", "RATES", "Ethernet*"], .ethPortStats),
    (["COUNTERS_DB", "RATES", "Ethernet*", "*"], .ethPortFieldStats),
    (["COUNTERS_DB", "COUNTERS", "SWITCH*"], .switchPacketIntegrityDrop),
    (["COUNTERS_DB", "COUNTERS", "SID*"], .srv6SidStats),
    (["COUNTERS_DB", "COUNTERS", "ACL_RULE*"], .aclRuleStats),
    (["COUNTERS_DB", "PORT_PHY_ATTR", "Ethernet*"], .portPhyAttrStats),
    (["COUNTERS_DB", "PORT_PHY_ATTR", "Ethernet*", "*"], .portPhyAttrFieldStats)]

/-- `v2rTrie`.  No name begins with two of the texts before the stars of one node, so the
order in which a node tries them does not matter. -/
def v2rTrie : Trie.Node Translator := Trie.ofTable pathTransFuncTbl

example : ["Ethernet", "PORT", "SWITCH", "SID", "ACL_RULE"].Pairwise fun stem other =>
    GoText.hasPrefix stem other = false ∧ GoText.hasPrefix other stem = false := by
  decide

/-- The call of a translator. -/
def Translator.translate (databases : Databases) (maps : NameMaps) (paths : List String) :
    Translator → Except Fault (List DbTablePath)
  | .ethPortStats => v2rEthPortStats databases maps paths
  | .ethPortFieldStats => v2rEthPortFieldStats databases maps paths
  | .ethPortQueStats => v2rEthPortQueStats databases maps paths
  | .ethPortPfcwdStats => v2rEthPortPfcwdStats databases maps paths
  | .fabricPortStats => v2rFabricPortStats databases maps paths
  | .ethPortPGPeriodicWMs => v2rEthPortPGPeriodicWMs databases maps paths
  | .ethPortQueueWMs => v2rEthPortQueueWMs databases maps paths
  | .switchPacketIntegrityDrop => v2rSwitchPacketIntegrityDrop databases maps paths
  | .srv6SidStats => v2rSRv6SidStats databases maps paths
  | .aclRuleStats => v2rAclRuleStats databases maps paths
  | .portPhyAttrStats => v2rPortPhyAttrStats databases maps paths
  | .portPhyAttrFieldStats => v2rPortPhyAttrFieldStats databases maps paths

def lookupV2R (databases : Databases) (maps : NameMaps) (paths : List String) :
    Except Fault (List DbTablePath) :=
  match v2rTrie.find paths with
  | some translator => translator.translate databases maps paths
  | none => .error (.plain ("[" ++ " ".intercalate paths ++ "] not found in virtual path tree"))

/-! ## Translations with a table path -/

/-- The key of a path stands for all names. -/
def Starred (paths : List String) : Prop := GoText.hasSuffix (element paths keyIdx) "*" = true

/-- The name maps have something for a path: an entry when the key ends in a star, and
otherwise a queue for a port that has a namespace. -/
def Translator.Fills (databases : Databases) (maps : NameMaps) (paths : List String) :
    Translator → Prop
  | .ethPortStats | .ethPortFieldStats | .portPhyAttrStats | .portPhyAttrFieldStats =>
    Starred paths → maps.countersPortNameMap.value ≠ ∅
  | .fabricPortStats => Starred paths → maps.countersFabricPortNameMap.value ≠ ∅
  | .switchPacketIntegrityDrop => Starred paths → maps.countersDebugNameSwitchStatMap ≠ ∅
  | .srv6SidStats => Starred paths → maps.countersSidMap.value ≠ ∅
  | .aclRuleStats => Starred paths → maps.countersAclRuleMap.value ≠ ∅
  | .ethPortPGPeriodicWMs => Starred paths → maps.countersPGNameMap.value.ports ≠ ∅
  | .ethPortQueStats | .ethPortQueueWMs =>
    (Starred paths → maps.countersQueueNameMap.value ≠ ∅) ∧
      (¬ Starred paths →
        maps.getSonicPortName (element paths keyIdx) ∈ maps.aliasMaps.value.port2namespaceMap →
        ∃ que oid, maps.countersQueueNameMap.value.lookup que = some oid ∧
          (GoText.splitString que (databases.tableKeySeparator (element paths dbIdx) ""))[0]? =
            some (maps.getSonicPortName (element paths keyIdx)))
  | .ethPortPfcwdStats =>
    (Starred paths → ∃ port queues, maps.countersPfcwdNameMap.value.lookup port = some queues ∧
        (port ∈ maps.aliasMaps.value.port2namespaceMap → queues ≠ ∅)) ∧
      (¬ Starred paths →
        maps.getSonicPortName (element paths keyIdx) ∈ maps.aliasMaps.value.port2namespaceMap →
        maps.getSonicPortName (element paths keyIdx) ∈ maps.countersPortNameMap.value →
        ∃ queues, maps.countersPfcwdNameMap.value.lookup
            (maps.getSonicPortName (element paths keyIdx)) = some queues ∧ queues ≠ ∅)

/-- A panic does not return to the caller. -/
def IsPanic (fault : Fault) : Prop := ∃ reason, fault = .panic reason

variable {names : List String}

theorem isPanic_of_nameAt {idx : Nat} {fault : Fault}
    (h : nameAt names idx = .error fault) : IsPanic fault := by
  unfold nameAt at h
  split at h <;> cases h
  exact ⟨_, rfl⟩

theorem nameAt_eq_ok_iff {idx : Nat} {name : String} :
    nameAt names idx = .ok name ↔ names[idx]? = some name := by
  unfold nameAt
  cases names[idx]? <;> simp

namespace NameMaps

variable {maps : NameMaps} {port text : String}

theorem mem_of_portNamespace {ns : String} (h : maps.portNamespace port text = .ok ns) :
    port ∈ maps.aliasMaps.value.port2namespaceMap := by
  unfold portNamespace at h
  split at h <;> cases h
  rename_i hlookup
  exact Finmap.mem_iff.2 ⟨ns, hlookup⟩

theorem not_mem_of_portNamespace {fault : Fault} (h : maps.portNamespace port text = .error fault) :
    port ∉ maps.aliasMaps.value.port2namespaceMap := by
  unfold portNamespace at h
  intro hmem
  obtain ⟨found, hlookup⟩ := Finmap.mem_iff.1 hmem
  rw [hlookup] at h
  cases h

end NameMaps

section Yields

variable {databases : Databases} {maps : NameMaps} {paths : List String}

theorem yields_visit {Value : Type} (order : MapOrder) (m : StringMap Value)
    {body : String × Value → Except Fault (List DbTablePath)}
    (hbody : ∀ entry, Yields IsPanic (body entry) True) :
    Yields IsPanic (gather body (order.visit m)) (m ≠ ∅) := by
  refine (gather fun entry _ => hbody entry).congr ?_
  simp only [and_true]
  exact order.exists_mem_visit m

theorem starred_iff {holds : Prop} :
    (Starred paths → holds) ∧ (¬ Starred paths → True) ↔ (Starred paths → holds) := by
  simp

variable (databases maps paths) in
theorem portStats_yields (aliases : Bool) (field : String) (invalid : String → String → String) :
    Yields IsPanic (portStats databases maps paths aliases field invalid)
      (Starred paths → maps.countersPortNameMap.value ≠ ∅) := by
  refine (Yields.ite (fun _ => yields_visit _ _ fun entry => ?_) fun _ => ?_).congr starred_iff
  · cases maps.namespaceOf entry.1 with
    | error fault => exact of_error (.inr trivial)
    | ok ns => exact of_cons _ _
  · dsimp only
    split
    · exact of_error (.inr trivial)
    · split
      · exact of_error (.inr trivial)
      · exact of_cons _ _

variable (databases paths) in
theorem namespacedStats_yields (names : NameMap) (invalid : String → String) :
    Yields IsPanic (namespacedStats databases paths names invalid) (Starred paths → names ≠ ∅) := by
  refine (Yields.ite (fun _ => yields_visit _ _ fun entry => of_cons _ _)
    fun _ => ?_).congr starred_iff
  dsimp only
  split
  · exact of_error (.inr trivial)
  · exact of_cons _ _

variable {next : String → Except Fault (List DbTablePath)}

theorem yields_nameAt {idx : Nat} {condition : Prop}
    (hnext : ∀ name, names[idx]? = some name → Yields IsPanic (next name) condition) :
    Yields IsPanic (nameAt names idx >>= next) condition :=
  bind (fun _ hfault => .inl (isPanic_of_nameAt hfault)) fun name hname =>
    hnext name (nameAt_eq_ok_iff.1 hname)

theorem yields_portNamespace {port text : String} {holds : Prop}
    (hnext : ∀ ns, Yields IsPanic (next ns) holds) :
    Yields IsPanic (maps.portNamespace port text >>= next)
      (port ∈ maps.aliasMaps.value.port2namespaceMap → holds) := by
  refine bind (fun fault hfault => .inr fun hmem => ?_) fun ns hns => ?_
  · exact absurd hmem (NameMaps.not_mem_of_portNamespace hfault)
  · exact (hnext ns).congr ⟨fun h _ => h, fun h => h (NameMaps.mem_of_portNamespace hns)⟩

theorem v2rEthPortPfcwdStats_yields : Yields IsPanic (v2rEthPortPfcwdStats databases maps paths)
      (Translator.ethPortPfcwdStats.Fills databases maps paths) := by
  refine Yields.ite (fun _ => ?_) fun _ => ?_
  · have hports := databases.range.exists_mem_visit_iff maps.countersPfcwdNameMap.value
      fun port queues => port ∈ maps.aliasMaps.value.port2namespaceMap → queues ≠ ∅
    refine (gather fun port _ => yields_portNamespace fun ns => ?_).congr hports
    refine yields_visit _ _ fun queue => yields_nameAt fun name _ => yields_nameAt fun index _ => ?_
    exact of_cons _ _
  · refine yields_portNamespace fun ns => ?_
    cases hport : maps.countersPortNameMap.value.lookup
        (maps.getSonicPortName (element paths keyIdx)) with
    | none =>
      refine of_error (.inr fun hmem => ?_)
      obtain ⟨oid, hlookup⟩ := Finmap.mem_iff.1 hmem
      rw [hport] at hlookup
      cases hlookup
    | some oid =>
      have hmem : maps.getSonicPortName (element paths keyIdx) ∈
          maps.countersPortNameMap.value := Finmap.mem_iff.2 ⟨oid, hport⟩
      cases hqueues : maps.countersPfcwdNameMap.value.lookup
          (maps.getSonicPortName (element paths keyIdx)) with
      | none => exact iff_of_false (fun hne => hne rfl) (by simp [hmem])
      | some queues =>
        refine (yields_visit _ _ fun queue => yields_nameAt fun index _ =>
          of_cons _ _).congr ?_
        simp [hmem]

/-- The loop of a port over all queues passes over the queues of other ports. -/
theorem yields_queues {separator port : String}
    {body : String × String → String → Except Fault (List DbTablePath)}
    (hother : ∀ queue name, name ≠ port → Yields IsPanic (body queue name) False)
    (hsame : ∀ queue, Yields IsPanic (body queue port) True) :
    Yields IsPanic
      (gather (fun queue => nameAt (GoText.splitString queue.1 separator) 0 >>= body queue)
        (databases.range.visit maps.countersQueueNameMap.value))
      (∃ que oid, maps.countersQueueNameMap.value.lookup que = some oid ∧
        (GoText.splitString que separator)[0]? = some port) := by
  have hqueues := databases.range.exists_mem_visit_iff maps.countersQueueNameMap.value
    fun que _ => (GoText.splitString que separator)[0]? = some port
  refine (gather fun queue _ => yields_nameAt fun name hname => ?_).congr hqueues
  by_cases hport : name = port
  · subst hport
    exact (hsame queue).congr (iff_of_true trivial hname)
  · refine (hother queue name hport).congr (iff_of_false id ?_)
    rw [hname, Option.some.injEq]
    exact hport

theorem v2rEthPortQueStats_yields : Yields IsPanic (v2rEthPortQueStats databases maps paths)
      (Translator.ethPortQueStats.Fills databases maps paths) := by
  refine Yields.ite (fun _ => ?_) fun _ => ?_
  · refine yields_visit _ _ fun queue => yields_nameAt fun name _ => ?_
    refine (yields_portNamespace fun ns => yields_nameAt fun index _ => ?_).congr
      (iff_of_true (fun _ => trivial) trivial)
    exact of_cons _ _
  · refine yields_portNamespace fun ns => yields_queues (fun queue name hname => ?_) fun queue => ?_
    · rw [if_pos (Ne.symm hname)]
      exact of_nil
    · rw [if_neg (fun hne => hne rfl)]
      exact yields_nameAt fun index _ => of_cons _ _

theorem v2rEthPortQueueWMs_yields : Yields IsPanic (v2rEthPortQueueWMs databases maps paths)
      (Translator.ethPortQueueWMs.Fills databases maps paths) := by
  refine Yields.ite (fun _ => ?_) fun _ => ?_
  · refine yields_visit _ _ fun queue => yields_nameAt fun name _ => ?_
    refine (yields_portNamespace fun ns => ?_).congr (iff_of_true (fun _ => trivial) trivial)
    exact of_cons _ _
  · refine yields_portNamespace fun ns => yields_queues (fun queue name hname => ?_) fun queue => ?_
    · rw [if_pos hname]
      exact of_nil
    · rw [if_neg (fun hne => hne rfl)]
      exact of_cons _ _

/-- When a translator returns table paths. -/
theorem translate_yields (translator : Translator) :
    Yields IsPanic (translator.translate databases maps paths)
      (translator.Fills databases maps paths) := by
  cases translator with
  | ethPortStats | ethPortFieldStats | portPhyAttrStats | portPhyAttrFieldStats =>
    simp only [Translator.translate, v2rEthPortStats, v2rEthPortFieldStats, v2rPortPhyAttrStats,
      v2rPortPhyAttrFieldStats]
    exact portStats_yields _ _ _ _ _ _
  | fabricPortStats | switchPacketIntegrityDrop =>
    simp only [Translator.translate, v2rFabricPortStats, v2rSwitchPacketIntegrityDrop]
    exact namespacedStats_yields _ _ _ _
  | srv6SidStats | aclRuleStats =>
    simp only [Translator.translate, v2rSRv6SidStats, v2rAclRuleStats]
    refine (Yields.ite (fun _ => yields_visit _ _ fun entry => of_cons _ _)
      fun _ => ?_).congr starred_iff
    split
    · exact of_error (.inr trivial)
    · dsimp only
      split
      · exact of_error (.inr trivial)
      · exact of_cons _ _
  | ethPortQueStats => exact v2rEthPortQueStats_yields
  | ethPortPfcwdStats => exact v2rEthPortPfcwdStats_yields
  | ethPortPGPeriodicWMs =>
    refine (Yields.ite (fun _ => ?_) fun _ => ?_).congr starred_iff
    · have hports := databases.range.exists_mem_visit_iff maps.countersPGNameMap.value.ports
        fun port groups => port ∈ maps.aliasMaps.value.port2namespaceMap → groups ≠ ∅
      refine (gather fun port _ => yields_portNamespace fun ns => ?_).congr (hports.trans ?_)
      · exact yields_visit _ _ fun group => of_cons _ _
      rw [← databases.range.exists_mem_visit]
      constructor
      · rintro ⟨port, groups, hlookup, -⟩
        exact ⟨_, (databases.range.mem_visit _ port groups).2 hlookup⟩
      · rintro ⟨⟨port, groups⟩, hentry⟩
        have hlookup := (databases.range.mem_visit _ port groups).1 hentry
        exact ⟨port, groups, hlookup,
          fun _ => maps.countersPGNameMap.value.nonempty port groups hlookup⟩
    · refine (yields_portNamespace fun ns => ?_).congr (iff_of_true (fun _ => trivial) trivial)
      cases hgroups : maps.countersPGNameMap.value.ports.lookup
          (maps.getSonicPortName (element paths keyIdx)) with
      | none => exact of_error (.inr trivial)
      | some groups =>
        refine (yields_visit _ _ fun group => of_cons _ _).congr ?_
        exact iff_of_true (maps.countersPGNameMap.value.nonempty _ groups hgroups) trivial
  | ethPortQueueWMs => exact v2rEthPortQueueWMs_yields

end Yields

/-- The name maps have something for a path, or the path is not a virtual one. -/
def Mapped (databases : Databases) (maps : NameMaps) (paths : List String) : Prop :=
  ∀ translator, v2rTrie.find paths = some translator → translator.Fills databases maps paths

theorem lookupV2R_yields (databases : Databases) (maps : NameMaps) (paths : List String) :
    Yields IsPanic (lookupV2R databases maps paths) (Mapped databases maps paths) := by
  unfold lookupV2R Mapped
  cases v2rTrie.find paths with
  | none => exact of_error (.inr fun translator h => by cases h)
  | some translator =>
    refine (translate_yields translator).congr ?_
    constructor
    · rintro hfills other ⟨⟩
      exact hfills
    · intro h
      exact h translator rfl

end SonicGnmi.Sdc
