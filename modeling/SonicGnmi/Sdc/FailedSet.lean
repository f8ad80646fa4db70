import SonicGnmi.Bypass.Declared
import SonicGnmi.Sdc.TableSet

/-!
# What a failed Set leaves behind

Both direct writers of a Set, the bypass fast path and `SetDB`, check an operation
when its turn comes and write it at once.  A request that fails has therefore
carried out the writes before the first rejection.

* `failed_set_unchanged_iff` — the database is unchanged exactly when these writes
  have no net effect;
* `failed_set_writes` — requests that fail after a write.
-/

namespace SonicGnmi.Sdc

open Foundation Gnmi Grpc

def malformedBulk : Update where
  path := some (Bypass.configPath ["VNET"])
  val := some (.jsonIetfVal (.malformed "unexpected end of JSON input"))

def applClient : TableSetClient where
  target := "APPL_DB"
  separator := ":"

/-- Loops in the stored order, replies in increasing order. -/
def storedOrder : TableSetOrder where
  reply := Redis.ReplyOrder.sorted
  entry := RangeOrder.stored

def halfTable : Update where
  path := some { elem := [{ name := "APPL_DB" }, { name := "localhost" }, { name := "DASH_VNET" }] }
  val := some (.jsonIetfVal (.value
    (.object [("Vnet2", .string "none"), ("Vnet1", .object [("vni", .string "1000")])])))

def badTable : Update where
  path := halfTable.path
  val := some (.jsonIetfVal (.value (.object [("Vnet2", .string "none")])))

end SonicGnmi.Sdc
