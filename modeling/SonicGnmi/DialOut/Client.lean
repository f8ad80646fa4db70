import SonicGnmi.Foundation.GoMap
import SonicGnmi.Foundation.GoText
import Mathlib.Logic.Function.Basic

/-!
# The dial-out client

`processTelemetryClientConfig` of `dialout_client.go` keeps three maps: the destinations of
a group, the subscription of a name, and the names of the subscriptions that use a group.
A subscription that is set up has a goroutine of its own, `publishRun`.

A notification is handled under one lock, so the maps do not change meanwhile and the
operations of the handler are known when it starts (`plan`).  The goroutines run between
these operations.  Two values of a subscription can share a stop channel, because
`setupDestGroupClients` copies the value.

* `ClientSubscription`, `Clients` — the values and the state;
* `Clients.publishStep` — the steps of `publishRun`;
* `plan`, `Clients.runOp` — what a notification leads to, and its operations;
* `Clients.step` — the steps of the whole.

Whether a connection, a data client or a send fails and whether a context is done are
choices.  Every region under the lock of a subscription is one step, and so is the copy of
a subscription.
-/

namespace SonicGnmi.DialOut

open Foundation

/-! ## Subscriptions -/

inductive ReportType where
  | unknown
  | once
  | periodic
  | stream
  deriving DecidableEq

def newReportType (s : String) : ReportType :=
  if s = "once" then .once
  else if s = "periodic" then .periodic
  else if s = "stream" then .stream
  else .unknown

/-- `clientSubscription`; the stop channel is known by its number. -/
structure ClientSubscription where
  name : String
  destGroupName : String := ""
  target : String := ""
  reportType : ReportType := .unknown
  hasClient : Bool := false
  stop : Option Nat := none
  opened : Bool := false
  deriving DecidableEq

/-- How far a `publishRun` is. -/
inductive PublishStage where
  | restarting
  | dialing
  | dialed
  | publishing
  | running
  /-- About to call `Close`, and then to start again or to return. -/
  | closing (again : Bool)
  | returned
  deriving DecidableEq

/-- A goroutine `publishRun`: the subscription, by its number, and the destinations. -/
structure Publisher where
  sub : Nat
  dests : List String
  destIdx : Nat := 0
  stage : PublishStage := .restarting
  deriving DecidableEq

/-- What a `publishRun` does not decide itself. -/
inductive PublishChoice where
  | go
  | ctxDone
  | dialFailed
  | publishFailed
  | sendFailed
  | stopped

/-- An operation of the handler. -/
inductive HandlerOp where
  | close (name : String)
  | setup (name : String)
  | setDests (group : String) (dests : List String)
  | deleteDests (group : String)
  | unlist (name : String)
  | enlist (cs : ClientSubscription)
  | nilDereference
  deriving DecidableEq

/-- The values of the subscriptions, whether each stop channel is closed, the maps, the
goroutines, and the operations that the handler has yet to do. -/
structure Clients where
  subs : List ClientSubscription := []
  closed : List Bool := []
  destGrpNameMap : GoMap String (List String) := ∅
  clientSubscriptionNameMap : String → Option Nat := fun _ => none
  destGrp2ClientSubMap : String → Option (List String) := fun _ => none
  publishers : List Publisher := []
  pending : List HandlerOp := []
  panicked : Bool := false

namespace Clients

variable (d : Clients)

def crash : Clients := { d with panicked := true }

def setSub (id : Nat) (cs : ClientSubscription) : Clients := { d with subs := d.subs.set id cs }

def close (id : Nat) (cs : ClientSubscription) : Clients :=
  if cs.opened then
    match cs.stop with
    | none => d.setSub id { cs with opened := false }
    | some channel =>
      if d.closed[channel]? = some true then d.crash
      else
        { d.setSub id { cs with opened := false } with closed := d.closed.set channel true }
  else d

/-- A goroutine at another stage. -/
def setPublisher (index : Nat) (p : Publisher) : Clients :=
  { d with publishers := d.publishers.set index p }

/-- A step of `publishRun` at the label `restart`: a new stop channel. -/
def restart (id : Nat) (cs : ClientSubscription) : Clients :=
  { d.setSub id { cs with stop := some d.closed.length, opened := true, hasClient := false } with
    closed := d.closed ++ [false] }

/-- A step of `publishRun`. -/
def publishStep (index : Nat) (p : Publisher) (cs : ClientSubscription) :
    PublishChoice → Option Clients
  | .go =>
    match p.stage with
    | .restarting => some ((d.restart p.sub cs).setPublisher index { p with stage := .dialing })
    | .dialing =>
      match p.dests[p.destIdx]? with
      | none => some d.crash
      | some _ =>
        some (d.setPublisher index
          { p with destIdx := (p.destIdx + 1) % p.dests.length, stage := .dialed })
    | .dialed => some (d.setPublisher index { p with stage := .publishing })
    | .publishing =>
      if cs.hasClient then some (d.setPublisher index { p with stage := .returned })
      else
        some ((d.setSub p.sub { cs with hasClient := true }).setPublisher index
          { p with stage := .running })
    | .running =>
      match cs.reportType with
      | .periodic => some d
      | .stream => some (d.setPublisher index { p with stage := .closing true })
      | _ => some (d.setPublisher index { p with stage := .returned })
    | .closing again =>
      some ((d.close p.sub cs).setPublisher index
        { p with stage := if again then .restarting else .returned })
    | .returned => none
  | .ctxDone =>
    if p.stage = .dialed then some (d.setPublisher index { p with stage := .closing false })
    else none
  | .dialFailed =>
    if p.stage = .dialed then some (d.setPublisher index { p with stage := .restarting })
    else none
  | .publishFailed =>
    if p.stage = .dialed then some (d.setPublisher index { p with stage := .closing true })
    else none
  | .sendFailed =>
    if p.stage = .running ∧ (cs.reportType = .periodic ∨ cs.reportType = .stream) then
      some (d.setPublisher index { p with stage := .closing true })
    else none
  | .stopped =>
    if p.stage = .running ∧ (cs.reportType = .periodic ∨ cs.reportType = .stream) ∧
        (cs.stop.bind (d.closed[·]?)) = some true then
      some (d.setPublisher index { p with stage := .returned })
    else none

/-! ## The handler -/

/-- `NewInstance`; the data client may not be made. -/
def newInstance (id : Nat) (cs : ClientSubscription) (dataClient : Bool) : Clients :=
  if cs.destGroupName = "" then d
  else
    match d.destGrpNameMap.lookup cs.destGroupName with
    | none => d
    | some dests =>
      if cs.target = "" then d
      else if dataClient then
        { d with publishers := d.publishers ++ [{ sub := id, dests := dests }] }
      else d

def sub (name : String) : Option (Nat × ClientSubscription) :=
  (d.clientSubscriptionNameMap name).bind fun id => (d.subs[id]?).map fun cs => (id, cs)

/-- The group of a subscription. -/
def groupOf (name : String) : Option String := (d.sub name).map (·.2.destGroupName)

def users (group : String) : List String := (d.destGrp2ClientSubMap group).getD []

/-- Put a new value in the map and start its goroutine. -/
def place (name : String) (cs : ClientSubscription) (dataClient : Bool) : Clients :=
  Clients.newInstance
    { d with
      subs := d.subs ++ [cs]
      clientSubscriptionNameMap :=
        Function.update d.clientSubscriptionNameMap name (some d.subs.length) }
    d.subs.length cs dataClient

/-- One operation of the handler. -/
def runOp (dataClient : Bool) : HandlerOp → Clients
  | .close name =>
    match d.sub name with
    | none => d.crash
    | some (id, cs) => d.close id cs
  | .setup name =>
    match d.sub name with
    | none => d.crash
    | some (_, cs) => d.place name cs dataClient
  | .setDests group dests => { d with destGrpNameMap := d.destGrpNameMap.insert group dests }
  | .deleteDests group => { d with destGrpNameMap := d.destGrpNameMap.erase group }
  | .unlist name =>
    match d.sub name with
    | none => d.crash
    | some (_, cs) =>
      { d with
        destGrp2ClientSubMap :=
          Function.update d.destGrp2ClientSubMap cs.destGroupName
            (some ((d.users cs.destGroupName).erase name))
        clientSubscriptionNameMap := Function.update d.clientSubscriptionNameMap name none }
  | .enlist cs =>
    Clients.place
      (if cs.name ∈ d.users cs.destGroupName then d
      else
        { d with
          destGrp2ClientSubMap :=
            Function.update d.destGrp2ClientSubMap cs.destGroupName
              (some (d.users cs.destGroupName ++ [cs.name])) })
      cs.name cs dataClient
  | .nilDereference => d.crash

end Clients

/-! ## Notifications -/

/-- The operation of a notification. -/
inductive Op where
  | hset
  | hdel
  deriving DecidableEq

/-- A notification with what the hash is when it is handled, in the order in which a loop
visits it, and the order in which a loop visits the groups. -/
structure Notification where
  key : String
  op : Op
  fields : Except String (List (String × String)) := .ok []
  order : RangeOrder String (List String) := .stored

/-- What a key is about. -/
inductive Target where
  | global
  | group (name : String)
  | subscription (name : String)
  | other
  deriving DecidableEq

/-- The tests of a key. -/
def target (key : String) : Target :=
  if key = "Global" then .global
  else if GoText.hasPrefix key "DestinationGroup_" then
    .group (GoText.trimPrefix key "DestinationGroup_")
  else if GoText.hasPrefix key "Subscription_" then
    .subscription (GoText.trimPrefix key "Subscription_")
  else .other

/-- The destinations in a list of addresses; none may be empty. -/
def parseDests : List (String × String) → Except String (List String)
  | [] => .ok []
  | (field, value) :: rest =>
    if field = "dst_addr" then
      let addrs := GoText.split value ','
      if "" ∈ addrs then
        .error ("Invalid destination address [" ++ String.intercalate " " addrs ++ "]")
      else
        match parseDests rest with
        | .error e => .error e
        | .ok dests => .ok (addrs ++ dests)
    else .error ("Invalid DestinationGroup value " ++ value)

/-- The loop over the fields of a subscription. -/
def parseSubscription (validPath : String → Bool) :
    ClientSubscription → List (String × String) → Except String ClientSubscription
  | cs, [] => .ok cs
  | cs, (field, value) :: rest =>
    if field = "dst_group" then parseSubscription validPath { cs with destGroupName := value } rest
    else if field = "report_type" then
      parseSubscription validPath { cs with reportType := newReportType value } rest
    else if field = "report_interval" then parseSubscription validPath cs rest
    else if field = "path_target" then
      parseSubscription validPath { cs with target := value } rest
    else if field = "paths" then
      if (GoText.split value ',').all validPath then parseSubscription validPath cs rest
      else .error ("Invalid paths " ++ value)
    else .error ("Invalid field " ++ field ++ " value " ++ value)

section Plan

variable (validPath : String → Bool) (d : Clients)

def closeDestGroupClient (group : String) : List HandlerOp := (d.users group).map .close

def setupDestGroupClients (group : String) : List HandlerOp := (d.users group).map .setup

/-- A notification for all groups. -/
def planGlobal (order : RangeOrder String (List String)) :
    Op → List HandlerOp × Except String Unit
  | .hdel => ([], .error "Invalid delete operation for TELEMETRY_CLIENT|Global")
  | .hset =>
    ((order.visit d.destGrpNameMap).flatMap fun entry =>
      closeDestGroupClient d entry.1 ++ setupDestGroupClients d entry.1, .ok ())

/-- A notification for a group. -/
def planGroup (key group : String) (fields : List (String × String)) :
    Op → List HandlerOp × Except String Unit
  | op =>
    if group = "" then ([], .error ("Empty  Destination Group name " ++ key))
    else
      match op with
      | .hdel =>
        if (d.destGrp2ClientSubMap group).isSome then
          (closeDestGroupClient d group, .error (group ++ " is being used"))
        else (closeDestGroupClient d group ++ [.deleteDests group], .ok ())
      | .hset =>
        match parseDests fields with
        | .error e => (closeDestGroupClient d group, .error e)
        | .ok dests =>
          (closeDestGroupClient d group ++ .setDests group dests ::
            setupDestGroupClients d group, .ok ())

/-- A notification for a subscription. -/
def planSubscription (key name : String) (fields : List (String × String)) :
    Op → List HandlerOp × Except String Unit
  | op =>
    if name = "" then ([], .error ("Empty Subscription_ name " ++ key))
    else
      let closing := if (d.sub name).isSome then [HandlerOp.close name] else []
      match op with
      | .hdel =>
        if (d.sub name).isSome then (closing ++ [.unlist name], .ok ())
        else ([.nilDereference], .ok ())
      | .hset =>
        match parseSubscription validPath { name := name } fields with
        | .error e => (closing, .error e)
        | .ok cs =>
          if cs.destGroupName = "" then (closing, .ok ())
          else (closing ++ [.enlist cs], .ok ())

/-- `processTelemetryClientConfig`: the operations on the state and the result. -/
def plan (n : Notification) : List HandlerOp × Except String Unit :=
  match n.fields with
  | .error e =>
    ([], .error ("redis HGetAll failed for TELEMETRY_CLIENT|" ++ n.key ++ " with error " ++ e))
  | .ok fields =>
    match target n.key with
    | .global => planGlobal d n.order n.op
    | .group group => planGroup d n.key group fields n.op
    | .subscription name => planSubscription validPath d n.key name fields n.op
    | .other => ([], .ok ())

end Plan

/-! ## The whole -/

/-- A step: a notification arrives, the handler does its next operation, or a goroutine
goes on. -/
inductive Action where
  | notify (n : Notification)
  | handle (dataClient : Bool)
  | publish (index : Nat) (choice : PublishChoice)

/-- One step; after a panic there is none. -/
def Clients.step (validPath : String → Bool) (d : Clients) : Action → Option Clients
  | .notify n =>
    if d.panicked = true ∨ d.pending ≠ [] then none
    else some { d with pending := (plan validPath d n).1 }
  | .handle dataClient =>
    if d.panicked then none
    else
      match d.pending with
      | [] => none
      | op :: rest => some (Clients.runOp { d with pending := rest } dataClient op)
  | .publish index choice =>
    if d.panicked then none
    else
      match d.publishers[index]? with
      | none => none
      | some p =>
        match d.subs[p.sub]? with
        | none => none
        | some cs => d.publishStep index p cs choice

end SonicGnmi.DialOut
