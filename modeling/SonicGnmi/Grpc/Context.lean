import Mathlib.Logic.Function.Basic
import SonicGnmi.Grpc.Status

/-!
# Request contexts

The values a handler reads from its `context.Context`: the peer, the incoming
metadata, and the `RequestContext` of `common_utils/context.go`.  The last is a
pointer stored in the context, created by the first `GetContext` call in the
context that this call returns; contexts derived earlier do not see it.  The
records live in a `ContextStore` and a context holds a reference into it.
-/

namespace SonicGnmi.Grpc

/-- The fields of an x509 certificate that the server reads. -/
structure Certificate where
  commonName : String
  crlDistributionPoints : List String := []
  deriving DecidableEq

/-- A SPIFFE id, `spiffe://` followed by trust domain and path. -/
structure SpiffeId where
  trustDomain : String
  path : String
  deriving DecidableEq

structure TlsInfo where
  verifiedChains : List (List Certificate) := []
  spiffeId : Option SpiffeId := none
  deriving DecidableEq

/-- `net.Addr` of a peer. -/
inductive Addr where
  | unix (path : String)
  | tcp (text : String)
  deriving DecidableEq

/-- `peer.Peer`; transport credentials other than TLS are no `tls`. -/
structure Peer where
  addr : Option Addr := none
  tls : Option TlsInfo := none
  deriving DecidableEq

/-- Incoming metadata.  A key that is present has at least one value, and the
server only ever reads the first. -/
abbrev Metadata := String → Option String

/-- What an RPC brings with it. -/
structure Incoming where
  peer : Option Peer := none
  metadata : Option Metadata := none

/-- A `context.Context`: the incoming values and the request context stored in
it, if any. -/
structure Context extends Incoming where
  request : Option Nat := none

/-- The context a handler is called with. -/
def Incoming.context (incoming : Incoming) : Context where
  toIncoming := incoming

structure AuthInfo where
  user : String := ""
  authEnabled : Bool := false
  roles : List String := []
  deriving DecidableEq

structure RequestContext where
  id : String := ""
  auth : AuthInfo := {}
  bundleVersion : Option String := none
  deriving DecidableEq

/-- The request contexts created so far, and their number. -/
structure ContextStore where
  requestCounter : Nat := 0
  cell : Nat → RequestContext := fun _ => {}

/-- `GetContext`: the request context of a context, created when missing. -/
def getContext (ctx : Context) (store : ContextStore) : Nat × Context × ContextStore :=
  match ctx.request with
  | some rc => (rc, ctx, store)
  | none =>
    let rc := store.requestCounter
    let fresh : RequestContext := { id := "TELEMETRY-" ++ toString (rc + 1) }
    (rc, { ctx with request := some rc },
      { requestCounter := rc + 1, cell := Function.update store.cell rc fresh })

/-- Write the authentication part of a request context. -/
def ContextStore.setAuth (store : ContextStore) (rc : Nat) (auth : AuthInfo) : ContextStore :=
  { store with cell := Function.update store.cell rc { store.cell rc with auth := auth } }

/-- Write the bundle version of a request context. -/
def ContextStore.setBundleVersion (store : ContextStore) (rc : Nat) (version : String) :
    ContextStore :=
  { store with
    cell := Function.update store.cell rc { store.cell rc with bundleVersion := some version } }

@[simp] theorem ContextStore.setAuth_auth (store : ContextStore) (rc : Nat) (auth : AuthInfo) :
    ((store.setAuth rc auth).cell rc).auth = auth := by
  simp [ContextStore.setAuth]

@[simp] theorem getContext_incoming (incoming : Incoming) (store : ContextStore) :
    getContext incoming.context store =
      (store.requestCounter, { incoming.context with request := some store.requestCounter },
        { requestCounter := store.requestCounter + 1
          cell := Function.update store.cell store.requestCounter
            { id := "TELEMETRY-" ++ toString (store.requestCounter + 1) } }) := rfl

theorem getContext_of_request {ctx : Context} {rc : Nat} (h : ctx.request = some rc)
    (store : ContextStore) : getContext ctx store = (rc, ctx, store) := by
  simp [getContext, h]

end SonicGnmi.Grpc
