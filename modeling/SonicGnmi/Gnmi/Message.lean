import SonicGnmi.Gnmi.Json
import SonicGnmi.Gnmi.Path

/-!
# gNMI messages

The fields of the Get, Set and Subscribe messages that the server reads.  A sub-message that the
client left out is `none`; repeated fields never hold missing messages.
-/

namespace SonicGnmi.Gnmi

/-- `gnmipb.TypedValue`; kinds the server does not look into are `other`. -/
inductive TypedValue where
  | stringVal (value : String)
  | intVal (value : Int)
  | uintVal (value : Nat)
  | boolVal (value : Bool)
  | jsonIetfVal (value : JsonText)
  | protoBytes (value : String)
  | other (kind : String)

/-- `GetJsonIetfVal` of an optional value: no bytes for any other kind. -/
def TypedValue.getJsonIetfVal : Option TypedValue → JsonText
  | some (.jsonIetfVal text) => text
  | _ => .empty

structure Update where
  path : Option Path := none
  val : Option TypedValue := none

/-- The path of an update, empty when it is missing. -/
def Update.getPath (u : Update) : Path := u.path.getD {}

/-- An election id of the master arbitration extension. -/
structure Uint128 where
  high : UInt64 := 0
  low : UInt64 := 0
  deriving DecidableEq

/-- The master arbitration extension. -/
structure MasterArbitration where
  electionId : Option Uint128 := none
  role : Option String := none

/-- An extension of a request. -/
inductive Extension where
  | masterArbitration (arbitration : MasterArbitration)
  | registered (id : Nat) (text : String)

structure SetRequest where
  pathPrefix : Option Path := none
  delete : List Path := []
  replace : List Update := []
  update : List Update := []
  extension : List Extension := []

/-- The prefix of a request, empty when it is missing. -/
def SetRequest.getPrefix (req : SetRequest) : Path := req.pathPrefix.getD {}

/-- `gnmipb.UpdateResult_Operation`. -/
inductive Operation where
  | delete
  | replace
  | update
  deriving DecidableEq

structure UpdateResult where
  path : Option Path
  op : Operation

structure SetResponse where
  pathPrefix : Option Path
  response : List UpdateResult

/-- `gnmipb.GetRequest_DataType`. -/
inductive DataType where
  | all
  | config
  | state
  | operational
  deriving DecidableEq

/-- `gnmipb.Encoding`; other numbers have no name. -/
inductive Encoding where
  | json
  | bytes
  | proto
  | ascii
  | jsonIetf
  | other (number : Int)
  deriving DecidableEq

structure GetRequest where
  pathPrefix : Option Path := none
  path : List Path := []
  type : DataType := .all
  encoding : Encoding := .json
  extension : List Extension := []

/-- A notification of a Get response: the prefix and its one update. -/
structure Notification where
  pathPrefix : Option Path
  update : Update

inductive SubscriptionMode where
  | targetDefined
  | onChange
  | sample
  | other (number : Int)
  deriving DecidableEq

structure Subscription where
  path : Option Path := none
  mode : SubscriptionMode := .targetDefined
  sampleInterval : UInt64 := 0
  heartbeatInterval : UInt64 := 0
  suppressRedundant : Bool := false

/-- `gnmipb.SubscriptionList_Mode`. -/
inductive SubscriptionListMode where
  | stream
  | once
  | poll
  | other (number : Int)
  deriving DecidableEq

structure SubscriptionList where
  pathPrefix : Option Path := none
  subscription : List Subscription := []
  mode : SubscriptionListMode := .stream
  updatesOnly : Bool := false

/-- The prefix of a subscription list, empty when it is missing. -/
def SubscriptionList.getPrefix (list : SubscriptionList) : Path := list.pathPrefix.getD {}

/-- The first message of a Subscribe stream, with the text it is printed as. -/
structure SubscribeRequest where
  subscribe : Option SubscriptionList := none
  extension : List Extension := []
  text : String := ""

end SonicGnmi.Gnmi
