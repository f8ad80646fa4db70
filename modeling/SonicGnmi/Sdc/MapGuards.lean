import SonicGnmi.Sdc.NameMaps

/-!
# Whether a guarded map is complete

The `sync.Once` of a map is used up by its first call, also when the read of
that call fails.  The calls that follow return no error and leave what the
failed read has left.

* `Guarded` — the maps under a guard, with their functions and their reads;
* `Guarded.Complete` — a call without an error leaves the result of a read
  that one of the calls has made;
* `complete_iff` — this holds unless a call follows a read that failed.
-/

namespace SonicGnmi.Sdc

open Foundation Grpc

/-- The maps that are read under a `sync.Once`. -/
inductive Guarded where
  | port
  | queue
  | priorityGroup
  | sid
  | aclRule
  | aliases
  | pfcwd
  | fabricPort

namespace Guarded

def Map : Guarded → Type
  | .priorityGroup => PGNameMap
  | .aliases => AliasMaps
  | .pfcwd => StringMap NameMap
  | _ => NameMap

def init (databases : Databases) : Guarded → Init
  | .port => databases.initCountersPortNameMap
  | .queue => databases.initCountersQueueNameMap
  | .priorityGroup => databases.initCountersPGNameMap
  | .sid => databases.initCountersSidMap
  | .aclRule => databases.initCountersAclRuleMap
  | .aliases => databases.initAliasMap
  | .pfcwd => databases.initCountersPfcwdNameMap
  | .fabricPort => databases.initCountersFabricPortNameMap

def var (maps : NameMaps) : (g : Guarded) → Once g.Map
  | .port => maps.countersPortNameMap
  | .queue => maps.countersQueueNameMap
  | .priorityGroup => maps.countersPGNameMap
  | .sid => maps.countersSidMap
  | .aclRule => maps.countersAclRuleMap
  | .aliases => maps.aliasMaps
  | .pfcwd => maps.countersPfcwdNameMap
  | .fabricPort => maps.countersFabricPortNameMap

def assignVar (maps : NameMaps) : (g : Guarded) → Once g.Map → NameMaps
  | .port, once => { maps with countersPortNameMap := once }
  | .queue, once => { maps with countersQueueNameMap := once }
  | .priorityGroup, once => { maps with countersPGNameMap := once }
  | .sid, once => { maps with countersSidMap := once }
  | .aclRule, once => { maps with countersAclRuleMap := once }
  | .aliases, once => { maps with aliasMaps := once }
  | .pfcwd, once => { maps with countersPfcwdNameMap := once }
  | .fabricPort, once => { maps with countersFabricPortNameMap := once }

/-- What a call finds: the databases, and the variables that other functions set. -/
structure Call where
  databases : Databases
  others : NameMaps := {}

/-- The whole read of the priority groups; it also fails at a malformed name. -/
def readPG (databases : Databases) : Except Fault PGNameMap :=
  match databases.getCountersMap "COUNTERS_PG_NAME_MAP" with
  | .error fault => .error fault
  | .ok pgOidMap =>
    match PGNameMap.enterAll (databases.range.visit pgOidMap) {} with
    | (_, .error fault) => .error fault
    | (m, .ok ()) => .ok m

/-- The whole read of a map. -/
def read (call : Call) : (g : Guarded) → Except Fault g.Map
  | .port => call.databases.getCountersMap "COUNTERS_PORT_NAME_MAP"
  | .queue => call.databases.getCountersMap "COUNTERS_QUEUE_NAME_MAP"
  | .priorityGroup => readPG call.databases
  | .sid => call.databases.getCountersMap "COUNTERS_SRV6_NAME_MAP"
  | .aclRule => call.databases.getCountersMap "ACL_COUNTER_RULE_MAP"
  | .aliases => call.databases.getAliasMap
  | .pfcwd => call.databases.getPfcwdMap call.others.countersQueueNameMap.value
  | .fabricPort => call.databases.getFabricCountersMap "COUNTERS_FABRIC_PORT_NAME_MAP"

variable (g : Guarded)

/-- One call: the variable after it, and its error. -/
def call (once : Once g.Map) (call : Call) : Once g.Map × Except Fault Unit :=
  let after := g.init call.databases (g.assignVar call.others once)
  (g.var after.1, after.2)

/-- The variable after a sequence of calls. -/
def run (calls : List Call) : Once g.Map :=
  calls.foldl (fun once call => (g.call once call).1) (g.var {})

/-- A call without an error leaves the result of a read made by it or by a call before it. -/
def Complete (calls : List Call) : Prop :=
  ∀ earlier call, earlier ++ [call] <+: calls → (g.call (g.run earlier) call).2 = .ok () →
    ∃ before reader after, earlier ++ [call] = before ++ reader :: after ∧
      (g.run before).done = false ∧ g.read reader = .ok (g.call (g.run earlier) call).1.value

variable {g}

theorem call_of_done {once : Once g.Map} (hdone : once.done = true) (call : Call) :
    g.call once call = (once, .ok ()) := by
  have hfill := fun load => Once.fill_of_done hdone load
  cases g <;> exact congrArg₂ Prod.mk (congrArg Prod.fst (hfill _)) (congrArg Prod.snd (hfill _))

/-- A guard that is not used up passes on what the function has loaded. -/
theorem fill_ok_iff {Value : Type} {load : Value → Value × Except Fault Unit} {old m : Value} :
    Once.fill { value := old } load = ({ value := m, done := true }, .ok ()) ↔
      load old = (m, .ok ()) := by
  rcases hload : load old with ⟨after, _ | _⟩ <;> simp [Once.fill, hload]

theorem assign_ok_iff {Value : Type} {loaded : Except Fault Value} {none old m : Value} :
    assign none loaded old = (m, .ok ()) ↔ loaded = .ok m := by
  cases loaded <;> simp [assign]

theorem initCountersPGNameMap_ok_iff (databases : Databases) (others : NameMaps) (m : PGNameMap) :
    let after :=
      databases.initCountersPGNameMap { others with countersPGNameMap := { value := {} } }
    (after.1.countersPGNameMap, after.2) = ({ value := m, done := true }, .ok ()) ↔
      readPG databases = .ok m := by
  dsimp only [Databases.initCountersPGNameMap]
  rw [fill_ok_iff]
  unfold readPG
  cases databases.getCountersMap "COUNTERS_PG_NAME_MAP" with
  | error fault => simp
  | ok pgOidMap =>
    dsimp only
    split <;> simp_all

/-- The first call uses up the guard, and succeeds exactly with its read. -/
theorem call_first (call : Call) :
    (g.call (g.var {}) call).1.done = true ∧
      ∀ m, g.call (g.var {}) call = ({ value := m, done := true }, .ok ()) ↔
        g.read call = .ok m := by
  cases g with
  | priorityGroup =>
    exact ⟨Once.done_fill _ _, initCountersPGNameMap_ok_iff call.databases call.others⟩
  | _ => exact ⟨Once.done_fill _ _, fun m => fill_ok_iff.trans assign_ok_iff⟩

/-- After its first call a variable stays what it is. -/
theorem run_cons (first : Call) (rest : List Call) :
    g.run (first :: rest) = (g.call (g.var {}) first).1 := by
  rw [run, List.foldl_cons]
  induction rest with
  | nil => rfl
  | cons call rest ih => rw [List.foldl_cons, call_of_done (call_first first).1, ih]

/-- The second call goes on with what the first has left. -/
theorem Complete.read_first {first second : Call} {rest : List Call}
    (hcomplete : g.Complete (first :: second :: rest)) : ∃ m, g.read first = .ok m := by
  have hdone : (g.run [first]).done = true := (call_first first).1
  obtain ⟨before, reader, after, hsplit, hunread, hread⟩ := hcomplete [first] second
    ⟨rest, rfl⟩ (by rw [call_of_done hdone])
  cases before with
  | nil =>
    cases hsplit
    exact ⟨_, hread⟩
  | cons call before =>
    -- the guard was used up before the reader
    rw [run_cons, (call_first call).1] at hunread
    cases hunread

variable (g)

/-- The calls of a function leave complete maps unless a call follows a first one whose read
has failed. -/
theorem complete_iff (calls : List Call) :
    g.Complete calls ↔ ∀ first second rest, calls = first :: second :: rest →
      ∃ m, g.read first = .ok m := by
  constructor
  · rintro hcomplete first second rest rfl
    exact hcomplete.read_first
  · intro hfirst earlier call hcalls hok
    have hunread : (g.run []).done = false := by cases g <;> rfl
    cases earlier with
    | nil =>
      refine ⟨[], call, [], rfl, hunread, ((call_first call).2 _).1 ?_⟩
      exact Prod.ext (congrArg (Once.mk _) (call_first call).1) hok
    | cons first earlier =>
      refine ⟨[], first, earlier ++ [call], rfl, hunread, ?_⟩
      obtain ⟨rest, rfl⟩ := hcalls
      obtain ⟨m, hread⟩ : ∃ m, g.read first = .ok m := by
        cases earlier with
        | nil => exact hfirst first call rest rfl
        | cons second earlier => exact hfirst first second (earlier ++ [call] ++ rest) rfl
      rw [run_cons, call_of_done (call_first first).1, ((call_first first).2 m).2 hread]
      exact hread

/-- A device whose counters database cannot be reached, or has one queue. -/
def queueCall (reachable : Bool) : Call where
  databases := {
    config := { namespaces := [""], instances := [] }
    target2RedisDb := fun _ _ => some <|
      if reachable then
        .ok (Redis.Db.empty.hset "COUNTERS_QUEUE_NAME_MAP"
          (Finmap.singleton "Ethernet0:0" "oid:0x1"))
      else .error "connection refused"
    reply := Redis.ReplyOrder.sorted
    range := MapOrder.sorted }

/-- A call after a failed one returns no error and leaves an empty map. -/
theorem queue_empty_after_failure :
    (queue.call (queue.run []) (queueCall false)).2 = .error (.plain "connection refused") ∧
      queue.call (queue.run [queueCall false]) (queueCall true) =
        ({ value := (∅ : NameMap), done := true }, .ok ()) ∧
      queue.read (queueCall true) = .ok (Finmap.singleton "Ethernet0:0" "oid:0x1" : NameMap) ∧
      ¬ queue.Complete [queueCall false, queueCall true] := by
  refine ⟨rfl, rfl, rfl, fun hcomplete => ?_⟩
  obtain ⟨m, hread⟩ := hcomplete.read_first
  cases hread

end Guarded
end SonicGnmi.Sdc
