import Mathlib.Data.Finset.Card
import Mathlib.Data.String.Basic

/-!
# The connection manager

`connection_manager.go` limits the number of Subscribe sessions.  A session is
registered in a map of the manager and in a hash of STATE_DB under a key made of
the peer address, the text of its first message and the time.  The manager and
the Redis client are package variables that every session reads and may replace.

Each step below is what one session does without being interrupted: a section
under `mu`, one Redis command, or one access to a package variable.

* `createKey` — the key of a session;
* `Setup.step` — `setConnectionManager` and `PrepareRedis`;
* `RunStage.step` — `Client.Run` with its calls of `Add` and `Remove`.
-/

namespace SonicGnmi.GnmiServer

/-! ## Keys -/

/-- A reading of the clock, in UTC. -/
structure UtcTime where
  year : Nat
  month : Nat
  day : Nat
  hour : Nat
  minute : Nat
  second : Nat
  nanosecond : Nat
  deriving DecidableEq

/-- A number in decimal with leading zeros. -/
def padded (width n : Nat) : String :=
  let digits := Nat.toDigits 10 n
  String.ofList (List.replicate (width - digits.length) '0' ++ digits)

/-- `Format(time.RFC3339)`: the nanoseconds are not shown. -/
def UtcTime.rfc3339 (t : UtcTime) : String :=
  padded 4 t.year ++ "-" ++ padded 2 t.month ++ "-" ++ padded 2 t.day ++ "T" ++
    padded 2 t.hour ++ ":" ++ padded 2 t.minute ++ ":" ++ padded 2 t.second ++ "Z"

/-- The characters that the expression of `createKey` captures. -/
def isKeyChar (c : Char) : Bool :=
  c.isAlphanum || c = '-' || c = '_' || c = '*'

/-- A match of `createKey`'s expression at the start of a text: what it captures
and the length of the match. -/
def keyMatch (chars : List Char) : Option (List Char × Nat) :=
  let after (word : List Char) : Option (List Char × Nat) :=
    if word.isPrefixOf chars then
      let tail := chars.drop word.length
      let name := tail.takeWhile isKeyChar
      if (tail.drop name.length).head? = some '"' then
        some (name, word.length + name.length + 1)
      else none
    else none
  (after "target:\"".toList).or (after "element:\"".toList)

/-- `FindAllStringSubmatch`: the captures of the matches from left to right, none
of which begins before the one before it has ended. -/
def keyMatches : Nat → List Char → List (List Char)
  | _, [] => []
  | skip + 1, _ :: rest => keyMatches skip rest
  | 0, c :: rest =>
    match keyMatch (c :: rest) with
    | some (name, length) => name :: keyMatches (length - 1) rest
    | none => keyMatches 0 rest

def createKey (addr query : String) (now : UtcTime) : String :=
  (keyMatches 0 query.toList).foldl (fun key name => key ++ String.ofList name ++ "|")
    (addr ++ "|") ++ now.rfc3339

example :
    createKey "10.0.0.1" "prefix:<target:\"OTHERS\"> path:<element:\"proc\" element:\"uptime\">"
        { year := 2017, month := 7, day := 4, hour := 0, minute := 47, second := 20,
          nanosecond := 5 } =
      "10.0.0.1|OTHERS|proc|uptime|2017-07-04T00:47:20Z" := by
  decide +kernel

/-! ## The managers -/

/-- A `ConnectionManager`: the keys of its map and its limit. -/
structure ConnectionManager where
  connections : Finset String := ∅
  threshold : Nat
  deriving DecidableEq

/-- The managers that were made, the package variables `connectionManager` and
`rclient`, and the fields of `TELEMETRY_CONNECTIONS` in STATE_DB. -/
structure Connections where
  managers : List ConnectionManager := []
  connectionManager : Option Nat := none
  rclient : Bool := false
  table : Finset String := ∅
  deriving DecidableEq

/-- The keys in the map of a manager. -/
def Connections.keys (c : Connections) (manager : Nat) : Finset String :=
  (c.managers[manager]?).elim ∅ ConnectionManager.connections

/-- Change the map of a manager. -/
def Connections.change (c : Connections) (manager : Nat)
    (f : Finset String → Finset String) : Connections :=
  { c with
    managers := c.managers.modify manager fun cm => { cm with connections := f cm.connections } }

/-- What a session does not decide itself: whether a call succeeds, the order of a
loop over a map, and the time. -/
inductive Choice where
  | proceed
  | result (ok : Bool)
  | field (name : String) (ok : Bool)
  | clock (now : UtcTime)
  deriving DecidableEq

/-! ## `setConnectionManager` -/

/-- Where a session is in `setConnectionManager`: before its test, before the
assignment, and in `PrepareRedis`. -/
inductive Setup where
  | testing
  | creating
  | preparing
  | reading
  | clearing (fields : Finset String)
  deriving DecidableEq

/-- One step of `setConnectionManager`; nothing remains when it returns. -/
def Setup.step (threshold : Nat) (c : Connections) :
    Setup → Choice → Option (Connections × Option Setup)
  | .testing, .proceed =>
    if (c.connectionManager.bind (c.managers[·]?)).any (threshold = ·.threshold) then
      some (c, none)
    else
      some (c, some .creating)
  | .creating, .proceed =>
    some ({ c with
      managers := c.managers ++ [{ threshold := threshold }]
      connectionManager := some c.managers.length }, some .preparing)
  -- the address and the number of STATE_DB, without which the client stays as it is
  | .preparing, .result ok =>
    if ok then some ({ c with rclient := true }, some .reading) else some (c, none)
  | .reading, .result ok => some (c, if ok then some (.clearing c.table) else none)
  | .clearing fields, .field name ok =>
    if name ∈ fields then
      some ({ c with table := if ok then c.table.erase name else c.table },
        some (.clearing (fields.erase name)))
    else none
  | .clearing fields, .proceed => if fields = ∅ then some (c, none) else none
  | _, _ => none

/-! ## `Client.Run`, `Add` and `Remove` -/

/-- Where a session is in `Client.Run`: before `Add`, in `Add` of a manager, between
`Add` and `Remove`, and in `Remove` of a manager. -/
inductive RunStage where
  | starting
  | adding
  | checking (manager : Nat)
  | keying (manager : Nat)
  | writing (manager : Nat) (key : String)
  | storing (manager : Nat) (key : String)
  /-- `Add` has returned, and `defer` is about to read the variable again. -/
  | deferring (manager : Nat) (key : String)
  | serving (added manager : Nat) (key : String)
  | removing (manager : Nat) (key : String)
  | deleting (manager : Nat) (key : String)
  | unstoring (key : String)
  deriving DecidableEq

/-- One step of `Client.Run`; nothing remains when it returns. -/
def RunStage.step (addr query : String) (c : Connections) :
    RunStage → Choice → Option (Connections × Option RunStage)
  -- the first message and its checks
  | .starting, .result ok => some (c, if ok then some .adding else none)
  | .adding, .proceed => c.connectionManager.map fun manager => (c, some (.checking manager))
  | .checking manager, .proceed =>
    (c.managers[manager]?).map fun cm =>
      if cm.threshold ≤ cm.connections.card ∧ cm.threshold ≠ 0 then (c, none)
      else (c, some (.keying manager))
  | .keying manager, .clock now => some (c, some (.writing manager (createKey addr query now)))
  | .writing manager key, .proceed =>
    some (c.change manager (insert key), some (.storing manager key))
  | .storing manager key, .result ok =>
    some ({ c with table := if c.rclient ∧ ok then insert key c.table else c.table },
      some (.deferring manager key))
  | .deferring added key, .proceed =>
    c.connectionManager.map fun manager => (c, some (.serving added manager key))
  | .serving _ manager key, .proceed => some (c, some (.removing manager key))
  | .removing manager key, .proceed =>
    some (c, some (if key ∈ c.keys manager then .deleting manager key else .unstoring key))
  | .deleting manager key, .proceed =>
    some (c.change manager (·.erase key), some (.unstoring key))
  | .unstoring key, .result ok =>
    some ({ c with table := if c.rclient ∧ ok then c.table.erase key else c.table }, none)
  | _, _ => none

end SonicGnmi.GnmiServer
