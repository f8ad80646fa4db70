import SonicGnmi.GnmiServer.Set
import SonicGnmi.Sdc.TranslSubscribe

/-!
# The Subscribe RPC

`Client.Run` of `client_subscribe.go` up to the start of the data client, and
the run of the translib client.  The goroutines that exchange messages with the
collector are not part of this module.
-/

namespace SonicGnmi.GnmiServer

open Gnmi Grpc Sdc

/-- The services that `Client.Run` calls besides translib: the other data
clients, with the database name the mixed client reports. -/
structure SubscribeBackend where
  auth : AuthBackend
  newMixedDbClient : List (Option Path) → Option Path → String → Except String String
  newNonDbClient : List (Option Path) → Option Path → Except String Unit
  newEventClient : List (Option Path) → Option Path → Except String Unit
  newDbClient : List (Option Path) → Option Path → Except String Unit
  isTargetDb : String → Option String
  /-- `connectionManager.Add`. -/
  addConnection : SubscribeRequest → Bool

/-- The data client of a session. -/
inductive SubscribeClient where
  | transl (client : TranslClient)
  | mixedDb
  | nonDb
  | event
  | db

section Handler

variable {Device : Type} (backend : SubscribeBackend) (lib : Translib Device) (config : Config)

/-- The origin of a session: those of the prefix and of the paths must not
contradict each other. -/
def subscribeOrigin (list : SubscriptionList) : Except Fault String :=
  match parseOrigin (list.subscription.map (·.path)) with
  | .error e => .error e
  | .ok o =>
    let origin := list.getPrefix.origin
    if origin = "" then
      .ok o
    else if o ≠ "" ∧ o ≠ origin then
      statusError .invalidArgument "Origin conflict between prefix and paths"
    else
      .ok origin

/-- `NewTranslClient` for a session, with its authentication target. -/
def subscribeTransl (ctx : Context) (list : SubscriptionList) (extensions : List Extension) :
    Except Fault (SubscribeClient × String) :=
  match newTranslClient lib list.pathPrefix
      (some (list.subscription.map fun sub => sub.path.getD {})) ctx extensions true with
  | .error e => .error (e.withCode .notFound)
  | .ok client => .ok (.transl client, "gnmi")

/-- Another data client of a session, with its authentication target. -/
def subscribeOther (client : SubscribeClient) (created : Except String String) :
    Except Fault (SubscribeClient × String) :=
  match created with
  | .error e => statusError .notFound e
  | .ok authTarget => .ok (client, authTarget)

/-- The choice of the data client. -/
def subscribeClient (ctx : Context) (list : SubscriptionList) (extensions : List Extension)
    (origin : String) : Except Fault (SubscribeClient × String) :=
  let target := list.getPrefix.target
  let paths := list.subscription.map (·.path)
  if origin = "openconfig" then
    subscribeTransl lib ctx list extensions
  else if isNativeOrigin origin then
    subscribeOther .mixedDb
      ((backend.newMixedDbClient paths list.pathPrefix origin).map ("gnmi_" ++ ·))
  else if origin ≠ "" then
    statusError .unimplemented ("Unsupported origin: " ++ origin)
  else if target = "" then
    statusError .unimplemented "Empty target data not supported"
  else if target = "OTHERS" then
    subscribeOther .nonDb
      ((backend.newNonDbClient paths list.pathPrefix).map fun _ => "gnmi_others")
  else if target = "SHOW" then
    statusError .unimplemented "SHOW does not support subscribe operations"
  else if target = "EVENTS" ∧ list.mode = .stream then
    subscribeOther .event
      ((backend.newEventClient paths list.pathPrefix).map fun _ => "gnmi_events")
  else
    match backend.isTargetDb target with
    | some targetDbName =>
      subscribeOther .db
        ((backend.newDbClient paths list.pathPrefix).map fun _ => "gnmi_" ++ targetDbName)
    | none => subscribeTransl lib ctx list extensions

/-- `Client.Run` before authentication: the subscription list, the data client
and the authentication target. -/
def openSession (ctx : Context) (query : SubscribeRequest) :
    Except Fault (SubscriptionList × SubscribeClient × String) :=
  match query.subscribe with
  | none =>
    statusError .invalidArgument ("first message must be SubscriptionList: " ++ query.text)
  | some list =>
    if list.subscription = [] then
      statusError .notFound ("Invalid subscription path: No Subscription " ++ query.text)
    else
      match subscribeOrigin list with
      | .error e => .error e
      | .ok origin =>
        if !backend.addConnection query then
          statusError .unavailable "Server connections are at capacity."
        else
          match subscribeClient backend lib ctx list query.extension origin with
          | .error e => .error e
          | .ok (client, authTarget) => .ok (list, client, authTarget)

/-- The run of the translib client in the mode of the session, and the fatal
messages and requests it makes.  A poll of APPL_DB does nothing at all. -/
def runTransl (c : TranslClient) (list : SubscriptionList) (schedule : Schedule)
    (store : ContextStore) (world : World (Logged Device)) : ContextStore × StreamState Device :=
  match list.mode with
  | .stream => c.streamRun lib list schedule store world
  | .poll =>
    let target := list.getPrefix.target
    if target = "APPL_DB" ∨ Foundation.GoText.hasPrefix target "APPL_DB/" then
      (store, { world := world })
    else
      (store, c.pollRun lib list schedule world)
  | .once => (store, c.onceRun lib schedule world)
  | .other _ => (store, { world := world })

/-- A finished session, as far as translib sees it. -/
structure SubscribeRun (Device : Type) where
  refusal : Option Fault := none
  store : ContextStore
  state : StreamState Device

/-- `Client.Run` for a session, with the context of the stream. -/
def subscribe (ctx : Context) (query : SubscribeRequest) (schedule : Schedule)
    (store : ContextStore) (world : World (Logged Device)) : SubscribeRun Device :=
  match openSession backend lib ctx query with
  | .error e => { refusal := some e, store, state := { world } }
  | .ok (list, client, authTarget) =>
    match authenticate backend.auth config ctx authTarget false store with
    | (.error e, _, store) => { refusal := some (.status e), store, state := { world } }
    | (.ok (), _, store) =>
      match list.mode, client with
      | .other _, _ =>
        { refusal := some (.status ⟨.invalidArgument,
            "Unkown subscription mode: " ++ query.text⟩), store, state := { world } }
      | _, .transl c =>
        let (store, state) := runTransl lib c list schedule store world
        { store, state }
      | _, _ => { store, state := { world } }

end Handler

end SonicGnmi.GnmiServer
