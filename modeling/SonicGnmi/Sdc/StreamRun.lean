import SonicGnmi.Foundation.Channel
import SonicGnmi.Foundation.PriorityQueue
import SonicGnmi.Sdc.TableStream

/-!
# The goroutines of `StreamRun`

`StreamRun` of `DbClient` and of `MixedDbClient` starts a goroutine for each
subscription and waits in `synced.Wait` until each of them has put its first values
on the queue.  Then it puts the sync message there.  The wait group `w` counts the
goroutines that still run.

* `StreamClient.begin` — what a goroutine does before its first value is ready;
* `Routine.act`, `StreamRun.act`, `Listener.act` — the actions of the goroutine of a
  subscription, of `StreamRun` itself, and of `dbSingleTableKeySubscribe`;
* `Effect`, `StreamRunState.apply` — what an action does to the shared state;
* `StreamRunState.step` — one action of one of them, of the receiver, or of `Close`.

A call without a list of subscriptions serves all paths of the client as ON_CHANGE.

A step reads the clock, puts one item on the queue or changes one wait group, so a list
of actions is an interleaving.  The values that a goroutine reads before its first
message are left to the databases that it meets, and so are the values of its later
messages.  The clock gives a larger time at every call, and the queue returns an item
with the smallest timestamp.  A panic ends the run.
-/

namespace SonicGnmi.Sdc

open Foundation Gnmi Grpc

/-! ## Before the first value -/

/-- `MinSampleInterval`, in nanoseconds. -/
def minSampleInterval : Int := 1000000000

/-- The conversion of a `uint64` to a `time.Duration`. -/
def toDuration (n : UInt64) : Int :=
  if n.toNat < 2 ^ 63 then n.toNat else n.toNat - 2 ^ 64

def validateSampleInterval (sub : Subscription) : Except String Int :=
  let requestedInterval := toDuration sub.sampleInterval
  if requestedInterval = 0 then .ok minSampleInterval
  else if requestedInterval < minSampleInterval then
    .error ("invalid interval: " ++ GoText.duration requestedInterval ++
      ". It cannot be less than " ++ GoText.duration minSampleInterval)
  else .ok requestedInterval

/-- A subscription with the table paths that its path stands for: the entry of
`pathG2S` for `DbClient`, the result of `getDbtablePath` for `MixedDbClient`. -/
structure StreamSubscription where
  subscription : Subscription
  tblPaths : Except Fault (List TablePath)

/-- A client with streams. -/
structure StreamClient where
  table : TableClient
  /-- The part of the keys of `RedisDbMap` before the name of the database. -/
  mapkey : String := ""

/-- What a goroutine meets when it reads a field: no connection for the database, an
error of Redis, or a database. -/
inductive FieldRead where
  | missing
  | error
  | reply (db : Redis.Db)

/-- What a goroutine meets when it subscribes to a table and reads it. -/
inductive TableRead where
  | missing
  | psubscribeFails
  | reply (order : Redis.ReplyOrder) (db : Redis.Db)

/-- What a goroutine meets for the table paths of its subscription, one after the
other. -/
structure Reads where
  fields : Nat → FieldRead
  tables : Nat → TableRead

/-- The value of a message. -/
inductive StreamValue where
  | table (value : TableValue)
  | stringVal (text : String)
  deriving DecidableEq

/-- The three bodies: `dbFieldSubscribe`, `dbFieldMultiSubscribe` and
`dbTableKeySubscribe`. -/
inductive RoutineKind where
  | field
  | fields
  | table
  deriving DecidableEq

/-- A goroutine has its first value, or a fatal message, or panics. -/
inductive Begin where
  | send (kind : RoutineKind) (value : StreamValue)
  | fatal (text : String)
  | panic (reason : String)
  deriving DecidableEq

/-- The fatal message for an error. -/
def Begin.ofFault (head : String) : Fault → Begin
  | .status s => .fatal (head ++ "rpc error: code = " ++ s.code.text ++ " desc = " ++ s.message)
  | .plain text => .fatal (head ++ text)
  | .panic reason => .panic reason

/-- The key that a field is read from. -/
def TablePath.fieldKey (tblPath : TablePath) : String :=
  if tblPath.tableKey ≠ "" then tblPath.dbKey tblPath.tableKey else tblPath.tableName

/-- `readVal` of `dbFieldSubscribe`. -/
def readVal (tblPath : TablePath) : FieldRead → String
  | .reply db => ((db.hash tblPath.fieldKey).lookup tblPath.field).getD ""
  | _ => ""

variable (client : StreamClient)

/-- The error when `RedisDbMap` has no entry; `Target2RedisDb` gives a nil client. -/
def StreamClient.missing (tblPath : TablePath) : Fault :=
  match client.table with
  | .db => .panic "invalid memory address or nil pointer dereference"
  | .mixed _ => .plain ("RedisDbMap not exist:  " ++ client.mapkey ++ ":" ++ tblPath.dbName)

/-- `readVal` of `dbFieldMultiSubscribe`, with the values that it has saved. -/
def StreamClient.readVals (client : StreamClient) (onChange updateOnly : Bool) :
    List TablePath → (Nat → FieldRead) → List (TablePath × String) → Msi → Except Fault Msi
  | [], _, _, msi => .ok msi
  | tblPath :: rest, reads, path2ValueMap, msi =>
    let next := client.readVals onChange updateOnly rest fun i => reads (i + 1)
    let save (val : String) : Except Fault Msi :=
      if (onChange || updateOnly) ∧ path2ValueMap.lookup tblPath = some val then
        next path2ValueMap msi
      else
        next ((tblPath, val) :: path2ValueMap)
          (msi.insert tblPath.jsonTableKey
            (.object (Finmap.insert tblPath.jsonField (.text val) ∅)))
    match reads 0 with
    | .missing => .error (client.missing tblPath)
    | .error => save ""
    | .reply db =>
      match (db.hash tblPath.fieldKey).lookup tblPath.field with
      | some val => save val
      -- a field that a virtual path names need not exist
      | none => if tblPath.jsonField ≠ "" then next path2ValueMap msi else save ""

/-- The pattern of the subscription to a table path. -/
def TablePath.channelPattern (tblPath : TablePath) : String :=
  if tblPath.subData.wholeTable then tblPath.subData.head ++ "*" else tblPath.subData.head

/-- The loop of `dbTableKeySubscribe` that subscribes to the table paths and reads
them. -/
def StreamClient.readTables (client : StreamClient) :
    List TablePath → (Nat → TableRead) → Msi → Except Fault Msi
  | [], _, msiAll => .ok msiAll
  | tblPath :: rest, reads, msiAll =>
    match reads 0 with
    | .missing => .error (client.missing tblPath)
    | .psubscribeFails =>
      .error (.plain ("psubscribe to " ++ tblPath.channelPattern ++ " failed for "))
    | .reply order db =>
      match client.table.read order db tblPath false msiAll with
      | .error fault => .error fault
      | .ok msiAll => client.readTables rest (fun i => reads (i + 1)) msiAll

/-- The first message of a table, from the map that was read. -/
def StreamClient.sendMsi (kind : RoutineKind) (msi : Msi) : Begin :=
  match client.table.encode msi with
  | .error fault => .ofFault "" fault
  | .ok value => .send kind (.table value)

/-- The three bodies up to their first message. -/
def StreamClient.subscribe (tblPaths : List TablePath)
    (onChange updateOnly : Bool) (reads : Reads) : Begin :=
  match tblPaths with
  | [] => .panic "index out of range [0] with length 0"
  | tblPath :: rest =>
    if tblPath.field = "" then
      match client.readTables tblPaths reads.tables ∅ with
      | .error fault => .ofFault "" fault
      | .ok msiAll => client.sendMsi .table msiAll
    else if client.table = .db ∧ rest ≠ [] then
      match client.readVals onChange updateOnly tblPaths reads.fields [] ∅ with
      | .error fault => .ofFault "" fault
      | .ok msi => client.sendMsi .fields msi
    else
      match reads.fields 0 with
      | .missing => .ofFault "" (client.missing tblPath)
      | read => .send .field (.stringVal (readVal tblPath read))

variable (updatesOnly : Bool)

/-- `streamSampleSubscription` and `streamOnChangeSubscription` up to the first
message. -/
def StreamClient.begin (sub : StreamSubscription) (reads : Reads) : Begin :=
  match sub.subscription.mode with
  | .sample =>
    match validateSampleInterval sub.subscription with
    | .error text => .fatal text
    | .ok _ =>
      match sub.tblPaths with
      | .error fault => .ofFault "" fault
      | .ok tblPaths => client.subscribe tblPaths false updatesOnly reads
  | _ =>
    match sub.tblPaths with
    | .error fault => .ofFault "streamOnChangeSubscription error:  " fault
    | .ok tblPaths => client.subscribe tblPaths true false reads

/-! ## The shared state -/

/-- Who put an item on the queue. -/
inductive Source where
  | streamRun
  | routine (index : Nat)
  | listener (index : Nat)
  deriving DecidableEq

/-- The contents of an item. -/
inductive Payload where
  | value (value : StreamValue)
  | fatal (text : String)
  | syncResponse
  deriving DecidableEq

/-- A `Value` on the queue. -/
structure StreamItem where
  timestamp : Nat
  source : Source
  payload : Payload
  deriving DecidableEq

/-- What an action does to the shared state. -/
inductive Effect where
  | internal
  /-- `time.Now`. -/
  | now
  | put (item : StreamItem)
  | syncedAdd
  | syncedDone
  | wAdd
  | wDone
  /-- Start the goroutine of the next subscription. -/
  | goRoutine
  /-- Start goroutines that listen to tables. -/
  | goListeners (count : Nat)
  | crash

/-- The error of a disposed queue. -/
def errDisposed : String := "queue: disposed"

/-! ## The goroutine of a subscription -/

/-- Where the goroutine is.  `signalled` says whether it has called `synced.Done`. -/
inductive RoutineStage where
  | entry
  | stampingFirst (kind : RoutineKind) (value : StreamValue)
  | puttingFirst (kind : RoutineKind) (value : StreamValue) (timestamp : Nat)
  | stampingFatal (text : String) (signalled : Bool)
  | puttingFatal (text : String) (timestamp : Nat) (signalled : Bool)
  /-- Before `synced.Done`, and in which loop it goes on, if it does. -/
  | signalling (next : Option RoutineKind)
  /-- Before the goroutines of `dbTableKeySubscribe` are started. -/
  | listening
  | serving (kind : RoutineKind)
  | stampingUpdate (kind : RoutineKind) (value : StreamValue)
  | puttingUpdate (kind : RoutineKind) (value : StreamValue) (timestamp : Nat)
  /-- Before `w.Done`. -/
  | leaving
  | finished
  deriving DecidableEq

/-- What a goroutine does not decide itself. -/
inductive RoutineChoice where
  | begin (reads : Reads)
  | proceed
  /-- A tick or a change, with the value to send. -/
  | update (value : StreamValue)
  /-- A value that cannot be encoded. -/
  | encodeFails (text : String)
  /-- A tick without a change, or an update that is kept for the next tick. -/
  | idle
  /-- The channel is closed. -/
  | stop

/-- After the first message: the wait group, or a fatal message when the queue does not
take it. -/
def RoutineKind.afterFirst (kind : RoutineKind) (disposed : Bool) : RoutineStage :=
  if disposed then
    match kind with
    | .field => .stampingFatal errDisposed false
    | .fields => .signalling none
    | .table => .stampingFatal ("Queue error:  " ++ errDisposed) false
  else .signalling (some kind)

/-- After a later message. -/
def RoutineKind.afterUpdate (kind : RoutineKind) (disposed : Bool) : RoutineStage :=
  if disposed then
    match kind with
    | .table => .stampingFatal ("Queue error:  " ++ errDisposed) true
    | _ => .leaving
  else .serving kind

/-- After `synced.Done`. -/
def afterSignal : Option RoutineKind → RoutineStage
  | some .table => .listening
  | some kind => .serving kind
  | none => .leaving

/-- One action of the goroutine with a number, at a time of the clock. -/
def RoutineStage.act (sub : StreamSubscription) (index clock : Nat) (disposed stopped : Bool) :
    RoutineStage → RoutineChoice → Option (Effect × RoutineStage)
  | .entry, .begin reads =>
    match client.begin updatesOnly sub reads with
    | .send kind value => some (.internal, .stampingFirst kind value)
    | .fatal text => some (.internal, .stampingFatal text false)
    | .panic _ => some (.crash, .entry)
  | .stampingFirst kind value, .proceed => some (.now, .puttingFirst kind value (clock + 1))
  | .puttingFirst kind value timestamp, .proceed =>
    some (.put ⟨timestamp, .routine index, .value value⟩, kind.afterFirst disposed)
  | .stampingFatal text signalled, .proceed =>
    some (.now, .puttingFatal text (clock + 1) signalled)
  | .puttingFatal text timestamp signalled, .proceed =>
    some (.put ⟨timestamp, .routine index, .fatal text⟩,
      if signalled then .leaving else .signalling none)
  | .signalling next, .proceed => some (.syncedDone, afterSignal next)
  | .listening, .proceed =>
    some (.goListeners (sub.tblPaths.toOption.getD []).length, .serving .table)
  | .serving kind, .update value => some (.internal, .stampingUpdate kind value)
  | .serving kind, .encodeFails text =>
    if kind = .field then none else some (.internal, .stampingFatal text true)
  | .serving kind, .idle => some (.internal, .serving kind)
  | .serving _, .stop => if stopped then some (.internal, .leaving) else none
  | .stampingUpdate kind value, .proceed => some (.now, .puttingUpdate kind value (clock + 1))
  | .puttingUpdate kind value timestamp, .proceed =>
    some (.put ⟨timestamp, .routine index, .value value⟩, kind.afterUpdate disposed)
  | .leaving, .proceed => some (.wDone, .finished)
  | _, _ => none

/-- A goroutine, with the number of its calls of `synced.Done` and of `w.Done`. -/
structure Routine where
  stage : RoutineStage := .entry
  syncedDones : Nat := 0
  wDones : Nat := 0
  deriving DecidableEq

/-- Count a call of `Done`. -/
def Routine.count (r : Routine) (effect : Effect) (stage : RoutineStage) : Routine :=
  match effect with
  | .syncedDone => { r with stage := stage, syncedDones := r.syncedDones + 1 }
  | .wDone => { r with stage := stage, wDones := r.wDones + 1 }
  | _ => { r with stage := stage }

/-! ## `dbSingleTableKeySubscribe` -/

/-- Where a goroutine that listens to a table is. -/
inductive Listener where
  | listening
  | stampingFatal (text : String)
  | puttingFatal (text : String) (timestamp : Nat)
  | finished
  deriving DecidableEq

/-- It reads a table and fails, goes on, or stops. -/
inductive ListenerChoice where
  | fail (text : String)
  | proceed
  | stop

/-- One action of a goroutine that listens to a table. -/
def Listener.act (index clock : Nat) (stopped : Bool) :
    Listener → ListenerChoice → Option (Effect × Listener)
  | .listening, .fail text => some (.internal, .stampingFatal text)
  | .stampingFatal text, .proceed => some (.now, .puttingFatal text (clock + 1))
  | .puttingFatal text timestamp, .proceed =>
    some (.put ⟨timestamp, .listener index, .fatal text⟩, .finished)
  | .listening, .stop => if stopped then some (.internal, .finished) else none
  | _, _ => none

/-! ## `StreamRun` -/

/-- Where `StreamRun` is. -/
inductive MainStage where
  | loop
  /-- After `w.Add` and before `synced.Add`. -/
  | addedW
  /-- After `synced.Add` and before the goroutine is started. -/
  | addedSynced
  | stampingFatal (text : String)
  | puttingFatal (text : String) (timestamp : Nat)
  /-- In `synced.Wait`. -/
  | waiting
  | stampingSync
  | puttingSync (timestamp : Nat)
  /-- At the channel. -/
  | stopping
  /-- Before the deferred `w.Done`. -/
  | leaving
  | returned
  deriving DecidableEq

/-- The text for a mode that streams do not have. -/
def unsupportedMode (mode : SubscriptionMode) : String :=
  "unsupported subscription mode, " ++
    match mode with
    | .targetDefined => "TARGET_DEFINED"
    | .onChange => "ON_CHANGE"
    | .sample => "SAMPLE"
    | .other number => toString number

/-- One action of `StreamRun`; `next` is the next subscription of its loop. -/
def MainStage.act (next : Option StreamSubscription) (clock : Nat) (synced : Int)
    (stopped : Bool) : MainStage → Option (Effect × MainStage)
  | .loop =>
    match next with
    | none => some (.internal, .waiting)
    | some sub =>
      match sub.subscription.mode with
      | .sample | .onChange => some (.wAdd, .addedW)
      | mode => some (.internal, .stampingFatal (unsupportedMode mode))
  | .addedW => some (.syncedAdd, .addedSynced)
  | .addedSynced => some (.goRoutine, .loop)
  | .stampingFatal text => some (.now, .puttingFatal text (clock + 1))
  | .puttingFatal text timestamp => some (.put ⟨timestamp, .streamRun, .fatal text⟩, .leaving)
  | .waiting => if synced = 0 then some (.internal, .stampingSync) else none
  | .stampingSync => some (.now, .puttingSync (clock + 1))
  | .puttingSync timestamp =>
    some (.put ⟨timestamp, .streamRun, .syncResponse⟩, .stopping)
  | .stopping => if stopped then some (.internal, .leaving) else none
  | .leaving => some (.wDone, .returned)
  | .returned => none

/-! ## The system -/

/-- The clock, the queue, the two wait groups, the channel, and the goroutines. -/
structure StreamRunState where
  clock : Nat := 0
  queue : PriorityQueue StreamItem := {}
  synced : Int := 0
  w : Int
  stopped : Bool := false
  main : MainStage := .loop
  routines : List Routine := []
  listeners : List Listener := []
  crashed : Bool := false

/-- The call of `StreamRun`: its caller has counted it in `w`, beside others. -/
def StreamRunState.start (others : Nat) : StreamRunState where
  w := others + 1

/-- What an action does to the shared state. -/
def StreamRunState.apply (s : StreamRunState) : Effect → StreamRunState
  | .internal => s
  | .now => { s with clock := s.clock + 1 }
  | .put item => { s with queue := s.queue.put item }
  | .syncedAdd => { s with synced := s.synced + 1 }
  | .syncedDone => { s with synced := s.synced - 1 }
  | .wAdd => { s with w := s.w + 1 }
  | .wDone => { s with w := s.w - 1 }
  | .goRoutine => { s with routines := s.routines ++ [{}] }
  | .goListeners count =>
    { s with listeners := s.listeners ++ List.replicate count .listening }
  | .crash => { s with crashed := true }

/-- An action of one goroutine, of the receiver, or of `Close`. -/
inductive StreamAction where
  | main
  | routine (index : Nat) (choice : RoutineChoice)
  | listener (index : Nat) (choice : ListenerChoice)
  /-- The receiver takes the item at a place. -/
  | get (index : Nat)
  | dispose
  /-- The channel is closed. -/
  | stop

/-- One step. -/
def StreamRunState.step (subs : List StreamSubscription) (s : StreamRunState)
    (action : StreamAction) : Option StreamRunState :=
  if s.crashed then none
  else
    match action with
    | .main =>
      (s.main.act subs[s.routines.length]? s.clock s.synced s.stopped).map fun next =>
        { s.apply next.1 with main := next.2 }
    | .routine index choice =>
      match s.routines[index]?, subs[index]? with
      | some r, some sub =>
        (r.stage.act client updatesOnly sub index s.clock s.queue.disposed s.stopped
            choice).map fun next =>
          { s.apply next.1 with
            routines := s.routines.set index (r.count next.1 next.2) }
      | _, _ => none
    | .listener index choice =>
      match s.listeners[index]? with
      | none => none
      | some l =>
        (l.act index s.clock s.stopped choice).map fun next =>
          { s.apply next.1 with listeners := s.listeners.set index next.2 }
    | .get index =>
      (s.queue.get StreamItem.timestamp index).map fun queue => { s with queue := queue }
    | .dispose => some { s with queue := s.queue.dispose }
    | .stop => some { s with stopped := true }

/-- The states of a call of `StreamRun`. -/
abbrev StreamRuns (subs : List StreamSubscription)
    (others : Nat) : StreamRunState → Prop :=
  Reach (StreamRunState.step client updatesOnly subs) (fun _ _ => True) (StreamRunState.start others)

end SonicGnmi.Sdc
