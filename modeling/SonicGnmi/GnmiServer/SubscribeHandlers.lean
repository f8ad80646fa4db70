import SonicGnmi.Foundation.GoMap
import SonicGnmi.Foundation.Threads
import SonicGnmi.GnmiServer.ConnectionManager

/-!
# The Subscribe handlers of a server

Every Subscribe call runs `Server.Subscribe` of `server.go` in a goroutine of its
own.  The handler sets up the connection manager, puts its client into the map of
the server under `cMu`, closing a client with the same address that is there
already, calls `Client.Run`, and removes the entry of its address again under
`cMu`.  The system is any number of such handlers over the map and the connection
managers; the handler with number `n` is the `n`-th that was called, and the map
holds these numbers.

`started` is kept beside the state: the clients in the order in which they were
put into the map, the latest first.
-/

namespace SonicGnmi.GnmiServer

open Foundation

/-- The map of the clients, the holder of `cMu`, and the order of the entries. -/
structure Registry where
  clients : GoMap String Nat := ∅
  holder : Option Nat := none
  started : List (String × Nat) := []

/-- What the handlers share. -/
structure SubscribeServer where
  registry : Registry := {}
  connections : Connections := {}

/-- Where a handler is in `Server.Subscribe`. -/
inductive Stage where
  | setup (stage : Setup)
  | locking
  | entering
  /-- In `Close` of the client that has the address. -/
  | closing (old : Nat)
  | dropping
  | installing
  | unlocking
  | run (stage : RunStage)
  /-- `Run` has returned. -/
  | leaving
  | exiting
  | exitUnlocking
  | finished
  deriving DecidableEq

/-- A handler: the peer address and the text of the first message of its stream. -/
structure Handler where
  addr : String
  query : String
  stage : Stage := .setup .testing
  deriving DecidableEq

/-- A handler at a stage. -/
abbrev Handler.moveTo (h : Handler) (stage : Stage) : Handler := { h with stage := stage }

/-- One step of a handler that concerns the map of the clients. -/
def Registry.step (r : Registry) (self : Nat) (addr : String) : Stage → Option (Registry × Stage)
  | .locking =>
    if r.holder = none then some ({ r with holder := some self }, .entering) else none
  | .entering =>
    some (r, match r.clients.lookup addr with
      | some old => .closing old
      | none => .installing)
  | .closing _ => some (r, .dropping)
  | .dropping => some ({ r with clients := r.clients.erase addr }, .installing)
  | .installing =>
    some ({ r with
      clients := r.clients.insert addr self
      started := (addr, self) :: r.started }, .unlocking)
  | .unlocking => some ({ r with holder := none }, .run .starting)
  | .leaving =>
    if r.holder = none then some ({ r with holder := some self }, .exiting) else none
  | .exiting => some ({ r with clients := r.clients.erase addr }, .exitUnlocking)
  | .exitUnlocking => some ({ r with holder := none }, .finished)
  | _ => none

/-- One step of a handler. -/
def Handler.act (threshold : Nat) (self : Nat) (server : SubscribeServer) (h : Handler)
    (choice : Choice) : Option (SubscribeServer × Handler) :=
  match h.stage with
  | .setup stage =>
    (stage.step threshold server.connections choice).map fun next =>
      ({ server with connections := next.1 }, h.moveTo (next.2.elim .locking .setup))
  | .run stage =>
    (stage.step h.addr h.query server.connections choice).map fun next =>
      ({ server with connections := next.1 }, h.moveTo (next.2.elim .leaving .run))
  | stage =>
    if choice = .proceed then
      (server.registry.step self h.addr stage).map fun next =>
        ({ server with registry := next.1 }, h.moveTo next.2)
    else none

/-- The handlers of a server with a threshold.  A call brings its peer address and its
first message. -/
def handlers (threshold : Nat) : Program SubscribeServer Handler (String × String) Choice where
  init := fun call => { addr := call.1, query := call.2 }
  act := Handler.act threshold

/-- A server that has just been started, with the fields that STATE_DB still has. -/
def SubscribeServer.start (table : Finset String) : Threads SubscribeServer Handler where
  shared := { connections := { table := table } }

/-- A step of a handler is one of `setConnectionManager`, of `Client.Run` or of the
registry. -/
theorem Handler.act_cases {threshold self : Nat} {server : SubscribeServer} {h : Handler}
    {choice : Choice} {next : SubscribeServer × Handler} (hact : h.act threshold self server choice = some next) :
    (∃ stage connections rest, h.stage = .setup stage ∧
      stage.step threshold server.connections choice = some (connections, rest) ∧
      next = ({ server with connections := connections }, h.moveTo (rest.elim .locking .setup))) ∨
    (∃ stage connections rest, h.stage = .run stage ∧
      stage.step h.addr h.query server.connections choice = some (connections, rest) ∧
      next = ({ server with connections := connections }, h.moveTo (rest.elim .leaving .run))) ∨
    ∃ registry stage, server.registry.step self h.addr h.stage = some (registry, stage) ∧
      next = ({ server with registry := registry }, h.moveTo stage) := by
  unfold Handler.act at hact
  split at hact
  · rename_i stage hstage
    obtain ⟨result, hstep, rfl⟩ := Option.map_eq_some_iff.1 hact
    exact .inl ⟨stage, result.1, result.2, hstage, hstep, rfl⟩
  · rename_i stage hstage
    obtain ⟨result, hstep, rfl⟩ := Option.map_eq_some_iff.1 hact
    exact .inr (.inl ⟨stage, result.1, result.2, hstage, hstep, rfl⟩)
  · split at hact
    · obtain ⟨result, hstep, rfl⟩ := Option.map_eq_some_iff.1 hact
      exact .inr (.inr ⟨result.1, result.2, hstep, rfl⟩)
    · cases hact

/-- The moves of a handler that puts its client into the map, with or without another
client in its place. -/
def enterMoves (index : Nat) (replaces : Bool) : List (Move (String × String) Choice) :=
  List.replicate (if replaces then 6 else 4) (.act index .proceed)

/-- The moves of the first handler of a server, which makes the connection manager. -/
def setupMoves (index : Nat) : List (Move (String × String) Choice) :=
  [.act index .proceed, .act index .proceed, .act index (.result true),
    .act index (.result true), .act index .proceed]

end SonicGnmi.GnmiServer
