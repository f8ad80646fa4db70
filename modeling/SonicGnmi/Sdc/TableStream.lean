import SonicGnmi.Sdc.TableData

/-!
# Change streams of tables

The ON_CHANGE side of `dbTableKeySubscribe` and the routine
`dbSingleTableKeySubscribe` that turns the keyspace notifications of one table
into messages, for `DbClient` and for `MixedDbClient`.

The routine remembers the last message that it made for an `hset`, and does not
send the same message twice in a row.  A deletion sends an empty object (with a
`delete` entry beside it for `MixedDbClient`) and leaves the remembered message
as it is.

A run executes Redis commands one by one and processes the notifications of each
command before the next one.  The database that a command goes to is the one the
path names.
-/

namespace SonicGnmi.Sdc

open Foundation Gnmi Grpc

/-- `redisSubData`; the pattern of the subscription is given by its part before
the star. -/
structure RedisSubData where
  tblPath : TablePath
  head : String
  wholeTable : Bool

/-- `prefixLen`: where the key starts in a channel name. -/
def RedisSubData.prefixLen (rsd : RedisSubData) : Nat := rsd.head.toList.length

/-- The subscription to the keyspace events of a path. -/
def TablePath.subData (tblPath : TablePath) : RedisSubData :=
  let head := Redis.keyspaceChannel (targetValue tblPath.dbName) tblPath.tableName ++
    (if tblPath.keyless then "" else tblPath.delimitor)
  { tblPath := tblPath
    head := if tblPath.tableKey ≠ "" then head ++ tblPath.tableKey else head
    wholeTable := tblPath.tableKey = "" }

/-- Whether a channel matches the pattern. -/
def RedisSubData.matches (rsd : RedisSubData) (channel : String) : Bool :=
  Glob.globMatch (if rsd.wholeTable then rsd.head ++ "*" else rsd.head) channel

/-- One message of `dbSingleTableKeySubscribe`, for a client that reads tables
with `read` and reports a deleted key with `deletion`: what is put on the update
channel, and the message to remember. -/
def singleTableKeySubscribe (read : TablePath → Bool → Msi → Except Fault Msi)
    (deletion : String → Msi) (rsd : RedisSubData) (message : Redis.Message) (msi : Msi) :
    Except Fault (Option Msi × Msi) :=
  let tooShort := message.channel.toList.length < rsd.prefixLen
  let key := String.ofList (message.channel.toList.drop rsd.prefixLen)
  if message.payload = "del" ∨ message.payload = "hdel" then
    if rsd.tblPath.tableKey ≠ "" ∨ tooShort then .ok (none, msi)
    else .ok (some (deletion key), msi)
  else if message.payload = "hset" then
    if rsd.tblPath.tableKey = "" ∧ tooShort then .ok (none, msi)
    else
      match
        if rsd.tblPath.tableKey ≠ "" then read rsd.tblPath false ∅
        else read { rsd.tblPath with tableKey := key } true ∅
      with
      | .error fault => .error fault
      | .ok newMsi =>
        if newMsi = msi then .ok (none, msi)
        else .ok (if newMsi = ∅ then none else some newMsi, newMsi)
  else
    .ok (none, msi)

/-- The clients with change streams. -/
inductive TableClient where
  | db
  | mixed (encoding : Encoding)
  deriving DecidableEq

variable (client : TableClient)

/-- The table reader of a client. -/
def TableClient.read (order : Redis.ReplyOrder) (db : Redis.Db) :
    TablePath → Bool → Msi → Except Fault Msi :=
  match client with
  | .db => tableData2Msi order db
  | .mixed encoding => MixedDbClient.tableData2Msi encoding order db

/-- The message for a deleted key. -/
def TableClient.deletion (key : String) : Msi :=
  match client with
  | .db => Finmap.insert key (.object ∅) ∅
  | .mixed _ =>
    Finmap.insert "delete" (.leaf (.text "null_value")) (Finmap.insert key (.object ∅) ∅)

/-- The value that is put on the queue for a message. -/
def TableClient.encode : Msi → Except Fault TableValue :=
  match client with
  | .db => msi2TypedValue
  | .mixed encoding => MixedDbClient.msi2TypedValue encoding

/-- `dbSingleTableKeySubscribe` of a client, for one message. -/
def TableClient.dbSingleTableKeySubscribe (order : Redis.ReplyOrder)
    (db : Redis.Db) : RedisSubData → Redis.Message → Msi → Except Fault (Option Msi × Msi) :=
  singleTableKeySubscribe (client.read order db) client.deletion

/-- The database, the remembered message of the routine, the values on the
queue, and the fault that ended the stream, if one did. -/
structure TableStream where
  db : Redis.Db
  msi : Msi := ∅
  sent : List TableValue := []
  fault : Option Fault := none

/-- `sendMsiData`. -/
def TableStream.send (st : TableStream) (msi : Msi) : TableStream :=
  match client.encode msi with
  | .error fault => { st with fault := some fault }
  | .ok value => { st with sent := st.sent ++ [value] }

variable (tblPath : TablePath)

/-- `dbTableKeySubscribe` up to its loop: the available data is sent. -/
def TableClient.dbTableKeySubscribe (order : Redis.ReplyOrder) (db : Redis.Db) : TableStream :=
  match client.read order db tblPath false ∅ with
  | .error fault => { db := db, fault := some fault }
  | .ok msiAll => TableStream.send client { db := db } msiAll

/-- One message, from the subscription to the queue. -/
def TableStream.process (rsd : RedisSubData) (order : Redis.ReplyOrder)
    (st : TableStream) (message : Redis.Message) : TableStream :=
  if st.fault.isSome then st
  else
    match client.dbSingleTableKeySubscribe order st.db rsd message st.msi with
    | .error fault => { st with fault := some fault }
    | .ok (none, msi) => { st with msi := msi }
    | .ok (some newMsi, msi) => TableStream.send client { st with msi := msi } newMsi

/-- One command and its notifications.  The routine sees only the channels of
its pattern. -/
def TableStream.step (st : TableStream) (input : Redis.Command × Redis.ReplyOrder) : TableStream :=
  let channel := Redis.keyspaceChannel (targetValue tblPath.dbName) input.1.key
  let messages := (st.db.events input.1).map fun payload => Redis.Message.mk channel payload
  (messages.filter fun message => tblPath.subData.matches message.channel).foldl
    (TableStream.process client tblPath.subData input.2) { st with db := st.db.exec input.1 }

/-- A whole run: the snapshot, then the commands. -/
def TableClient.stream (order : Redis.ReplyOrder)
    (db : Redis.Db) (inputs : List (Redis.Command × Redis.ReplyOrder)) : TableStream :=
  inputs.foldl (TableStream.step client tblPath) (client.dbTableKeySubscribe tblPath order db)

/-! ## The collector -/

/-- The contents of an entry of a message; anything but an object marks a
deleted key. -/
def MsiValue.contents : MsiValue → MsiObject
  | .object fields => fields
  | _ => ∅

/-- A collector keeps, for each key, the contents of the last message that
mentions it; the empty object stands for an absent key. -/
def collect (view : String → MsiObject) (value : TableValue) : String → MsiObject :=
  match value with
  | .jsonIetf message => fun key =>
    match message.lookup key with
    | none => view key
    | some entry => entry.contents
  | .protoBytes _ => view

/-- What a collector has after all values on the queue. -/
def TableStream.collected (st : TableStream) : String → MsiObject :=
  st.sent.foldl collect fun _ => ∅

/-- A rendered object shows a field: as text, or as the list that a field with
`@` at the end stands for. -/
def MsiObject.ShowsField (fields : MsiObject) (field value : String) : Prop :=
  fields.lookup field = some (.text value) ∨
    ∃ name items, field = name ++ "@" ∧ value = String.intercalate "," items ∧
      fields.lookup name = some (.list items)

/-- A rendered object shows exactly the fields of a hash. -/
def MsiObject.Shows (fields : MsiObject) (h : Redis.Hash) : Prop :=
  ∀ field value, fields.ShowsField field value ↔ h.lookup field = some value

/-- The collector has, for every key of the table, the hash that Redis has. -/
def TableStream.InSync (st : TableStream) : Prop :=
  ∀ key, MsiObject.Shows (st.collected key) (st.db.hash (tblPath.dbKey key))

end SonicGnmi.Sdc
