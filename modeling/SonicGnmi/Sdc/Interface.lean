import SonicGnmi.Foundation.Redis
import SonicGnmi.Gnmi.Message
import SonicGnmi.Grpc.Context

/-!
# Data clients

The interface `Client` of `sonic_data_client` as the Get and Set handlers use
it.  A data client may create and change request contexts, and it may change
everything on the device.
-/

namespace SonicGnmi.Sdc

open Foundation Gnmi Grpc

/-- What a handler can change: CONFIG_DB and everything else on the device. -/
structure World (Device : Type) where
  configDb : Redis.Db
  device : Device

/-- `spb.Value` as a Get returns it. -/
structure SpbValue where
  pathPrefix : Option Path
  path : Path
  val : Option TypedValue

/-- The `Get` and `Set` methods of a data client. -/
structure DataClient (Device : Type) where
  get : ContextStore → World Device →
    Except Fault (List (Option SpbValue)) × ContextStore × World Device
  set : List Path → List Update → List Update → ContextStore → World Device →
    Except Fault Unit × ContextStore × World Device

end SonicGnmi.Sdc
