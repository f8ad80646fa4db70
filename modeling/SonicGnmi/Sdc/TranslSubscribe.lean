import SonicGnmi.Sdc.TranslClient

/-!
# The translib client: Subscribe

`StreamRun`, `PollRun` and `OnceRun` of `TranslClient` with `doSample` and
`doOnChange` of `transl_subscriber.go`, as far as they talk to translib: the
requests they make and the fatal messages they put into the queue of the RPC.
When a ticker fires and how often the collector polls is a schedule of the
environment.  A panic is recovered and ends the run with a fatal message.
-/

namespace SonicGnmi.Sdc

open Gnmi Grpc

variable {Device : Type} (lib : Translib Device)

/-- A run so far. -/
structure StreamState (Device : Type) where
  world : World (Logged Device)
  fatal : List String := []
  /-- The intervals of the tickers, each with the path to sample. -/
  timers : List (Int × String) := []
  onChange : List String := []

/-- `enqueFatalMsgTranslib`. -/
def StreamState.enqueueFatal (st : StreamState Device) (message : String) : StreamState Device :=
  { st with fatal := st.fatal ++ [message] }

/-- `recoverSubscribe`. -/
def StreamState.recover (st : StreamState Device) (reason : String) : StreamState Device :=
  st.enqueueFatal
    ("Subscribe operation failed with error =rpc error: code = Internal desc = " ++ reason)

variable (c : TranslClient)

/-- `parseVersion`.  The test of the error is the wrong way round: a version
that parses is refused, one that does not is used. -/
def TranslClient.parseVersion : Except String (Option Version) :=
  match getBundleVersion c.extensions with
  | none => .ok none
  | some bv =>
    match lib.newVersion bv with
    | (version, some _) => .ok (some version)
    | (_, none) => .error ("Invalid bundle version: " ++ bv)

variable (version : Option Version)

/-- The requests of `doSample` and `doOnChange` name neither a user nor
whether authentication is enabled. -/
def subscribeRequest (call : Call) : TranslibRequest where
  call := call
  clientVersion := version.getD {}

def doSample (path : String) (st : StreamState Device) : StreamState Device :=
  match issue lib.stream (subscribeRequest version (.stream [path])) st.world with
  | (none, world) => { st with world := world }
  | (some e, world) =>
    { st with world := world }.enqueueFatal
      ("Subscribe operation failed with error = " ++ e)

/-- `doSample` for one path after the other. -/
def doSamples (paths : List String) (st : StreamState Device) : StreamState Device :=
  paths.foldl (fun st path => doSample lib version path st) st

def doOnChange (paths : List String) (st : StreamState Device) : StreamState Device :=
  match issue lib.stream (subscribeRequest version (.subscribe paths)) st.world with
  | (none, world) => { st with world := world }
  | (some e, world) =>
    { st with world := world }.enqueueFatal ("Subscribe operation failed with error: " ++ e)

/-- `addTimer`.  `time.NewTicker` panics for an interval that is not positive. -/
def addTimer (interval : Int) (path : String) (st : StreamState Device) :
    Except (StreamState Device) (StreamState Device) :=
  if interval ≤ 0 then
    .error (st.recover "non-positive interval for NewTicker")
  else
    .ok { st with timers := st.timers ++ [(interval, path)] }

def getTranslNotificationType : SubscriptionMode → NotificationType
  | .onChange => .onChange
  | .sample => .sample
  | _ => .targetDefined

/-- Whether a subscription is served on change, or the message that refuses
its mode. -/
def servedOnChange (sub : Subscription) (pInfo : IsSubscribeResponse) : Except String Bool :=
  match sub.mode with
  | .targetDefined => .ok (pInfo.isOnChangeSupported && decide (pInfo.preferredType = .onChange))
  | .onChange =>
    if pInfo.isOnChangeSupported then
      .ok true
    else
      .error ("ON_CHANGE Streaming mode invalid for " ++ pInfo.path)
  | .sample => .ok false
  | .other number => .error ("Invalid Subscription Mode " ++ toString number)

/-- The heartbeat timer of a subscription, if it has one. -/
def addHeartbeat (wanted : Bool) (sub : Subscription) (path : String) (st : StreamState Device) :
    Except (StreamState Device) (StreamState Device) :=
  if wanted && decide (sub.heartbeatInterval > 0) then
    addTimer sub.heartbeatInterval.toInt64.toInt path st
  else
    .ok st

/-- The sample interval in nanoseconds, or the message that refuses it. -/
def sampleInterval (sub : Subscription) (minInterval : Int) : Except String Int :=
  let interval := sub.sampleInterval.toInt64.toInt
  let least := (Int64.ofInt minInterval * 1000000000).toInt
  if interval = 0 then
    .ok least
  else if interval < least then
    .error ("Invalid SampleInterval " ++ toString (interval.tdiv 1000000000) ++
      "s, minimum interval is " ++ toString minInterval ++ "s")
  else
    .ok interval

variable (subscribe : SubscriptionList)

/-- One turn of the loop over the answer of `IsSubscribeSupported`; an error
ends the run. -/
def startSubscription (version : Option Version) (pInfo : IsSubscribeResponse)
    (st : StreamState Device) : Except (StreamState Device) (StreamState Device) :=
  match subscribe.subscription[pInfo.id]? with
  | none =>
    .error (st.recover ("runtime error: index out of range [" ++ toString pInfo.id ++
      "] with length " ++ toString subscribe.subscription.length))
  | some sub =>
    match servedOnChange sub pInfo with
    | .error message => .error (st.enqueueFatal message)
    | .ok onChange =>
      let minInterval :=
        if pInfo.minInterval ≤ 0 then lib.minSubscribeInterval else pInfo.minInterval
      let hb := sub.heartbeatInterval
      if hb > 0 ∧ hb < UInt64.ofInt minInterval * 1000000000 then
        .error (st.enqueueFatal ("Invalid Heartbeat Interval " ++
          toString (hb / 1000000000) ++ "s, minimum interval is " ++
          toString minInterval ++ "s"))
      else if onChange then
        addHeartbeat true sub pInfo.path
          { st with onChange := st.onChange ++ [pInfo.path] }
      else
        match sampleInterval sub minInterval with
        | .error message => .error (st.enqueueFatal message)
        | .ok interval =>
          -- The first sample fills the cache before the ticker is made.
          match addTimer interval pInfo.path (doSample lib version pInfo.path st) with
          | .error st => .error st
          | .ok st => addHeartbeat sub.suppressRedundant sub pInfo.path st

/-- The loop over the answer of `IsSubscribeSupported`. -/
def startSubscriptions (subscribe : SubscriptionList) (version : Option Version) :
    List IsSubscribeResponse → StreamState Device →
      Except (StreamState Device) (StreamState Device)
  | [], st => .ok st
  | pInfo :: rest, st =>
    match startSubscription lib subscribe version pInfo st with
    | .error st => .error st
    | .ok st => startSubscriptions subscribe version rest st

/-- The samples of one tick: every path with a ticker of this interval. -/
def tick (version : Option Version) (st : StreamState Device) (interval : Int) :
    StreamState Device :=
  doSamples lib version ((st.timers.filter (·.1 = interval)).map (·.2)) st

/-- What the environment decides about a run. -/
structure Schedule where
  /-- The intervals of the tickers in the order in which they fire. -/
  ticks : List Int := []
  /-- The number of polls that are served. -/
  polls : Nat := 1
  order : Nat → PathOrder := fun _ => .requested

/-- The paths that `StreamRun` asks about. -/
def TranslClient.translPaths : List IsSubscribePath :=
  subscribe.subscription.mapIdx fun i sub =>
    { id := i
      path := (c.path2URI[i]?.map (·.2)).getD ""
      mode := getTranslNotificationType sub.mode }

def TranslClient.streamRun (schedule : Schedule) (store : ContextStore)
    (world : World (Logged Device)) : ContextStore × StreamState Device :=
  match c.parseVersion lib with
  | .error message => (store, StreamState.enqueueFatal { world := world } message)
  | .ok version =>
    let (cell, _, store) := getContext c.ctx store
    let rc := store.cell cell
    let req : TranslibRequest :=
      { subscribeRequest version (.isSubscribeSupported (c.translPaths subscribe)) with
        user := { name := rc.auth.user, roles := rc.auth.roles } }
    match issue lib.isSubscribeSupported req world with
    | (.error e, world) =>
      (store, StreamState.enqueueFatal { world := world }
        ("Subscribe operation failed with error =" ++ e))
    | (.ok subSupport, world) =>
      match startSubscriptions lib subscribe version subSupport { world := world } with
      | .error st => (store, st)
      | .ok st =>
        let st := if st.onChange = [] then st else doOnChange lib version st.onChange st
        (store, schedule.ticks.foldl (tick lib version) st)

/-- The polls of `PollRun` from the n-th on. -/
def TranslClient.pollLoop (c : TranslClient) (subscribe : SubscriptionList)
    (version : Option Version) (order : Nat → PathOrder) :
    Nat → Nat → StreamState Device → StreamState Device
  | 0, _, st => st
  | polls + 1, n, st =>
    let synced := n ≠ 0
    let st :=
      if synced ∨ !subscribe.updatesOnly then
        doSamples lib version (((order n).visit c.path2URI).map (·.2)) st
      else
        st
    c.pollLoop subscribe version order polls (n + 1) st

def TranslClient.pollRun
    (schedule : Schedule) (world : World (Logged Device)) : StreamState Device :=
  match c.parseVersion lib with
  | .error message => StreamState.enqueueFatal { world := world } message
  | .ok version =>
    c.pollLoop lib subscribe version schedule.order schedule.polls 0 { world := world }

/-- `OnceRun`.  The channel holds one value from the start, so the run never
finds it closed. -/
def TranslClient.onceRun (schedule : Schedule)
    (world : World (Logged Device)) : StreamState Device :=
  match c.parseVersion lib with
  | .error message => StreamState.enqueueFatal { world := world } message
  | .ok version =>
    doSamples lib version (((schedule.order 0).visit c.path2URI).map (·.2)) { world := world }

end SonicGnmi.Sdc
