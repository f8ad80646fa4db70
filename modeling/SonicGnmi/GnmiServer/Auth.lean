import SonicGnmi.Foundation.GoMap
import SonicGnmi.Foundation.GoText
import SonicGnmi.Grpc.Context

/-!
# Authentication

`authenticate` of `server.go` and the three methods it tries in turn: a
password, a JSON web token and the client certificate.  All of them write to
the one `AuthInfo` of the request context.

The user database, the password check, the token parser, the role table and the
revocation check are not part of this code; an `AuthBackend` stands for them.
-/

namespace SonicGnmi.GnmiServer

open Foundation Grpc

@[simp] theorem isOk_ok {ε α : Type} (a : α) : (Except.ok a : Except ε α).isOk = true := rfl

@[simp] theorem isOk_error {ε α : Type} (e : ε) : (Except.error e : Except ε α).isOk = false := rfl

/-- `AuthTypes`, the user-auth modes that are switched on. -/
abbrev AuthTypes := GoMap String Bool

/-- The fields of `Config` that the modelled handlers read. -/
structure Config where
  userAuth : AuthTypes := ∅
  enableTranslibWrite : Bool := false
  enableNativeWrite : Bool := false
  configTableName : String := ""
  enableCrl : Bool := false
  pathzPolicy : Bool := false

/-- A mode that is present in the map with the value true. -/
def AuthTypes.isSet (modes : AuthTypes) (mode : String) : Bool :=
  (modes.lookup mode).getD false

def AuthTypes.any (modes : AuthTypes) : Bool :=
  !modes.isSet "none" && modes.entries.any (·.2)

def AuthTypes.enabled (modes : AuthTypes) (mode : String) : Bool :=
  !modes.isSet "none" && modes.isSet mode

/-- The claims of a parsed token. -/
structure TokenClaims where
  username : String
  roles : List String

/-- The services the authentication methods call. -/
structure AuthBackend where
  /-- The group names of a user; `none` when the user or a group is unknown. -/
  userRoles : String → Option (List String)
  /-- `UserPwAuth`. -/
  userPwAuth : String → String → Bool
  /-- `jwt.ParseWithClaims` and the `Valid` flag of its token. -/
  parseWithClaims : String → Except String (TokenClaims × Bool)
  /-- `Get_entry` of the configuration database, by table and key. -/
  getEntry : String → String → GoMap String String
  /-- `VerifyCertCrl`. -/
  verifyCertCrl : List (List Certificate) → Except Status Unit

/-- A method reads the context, updates the `AuthInfo` and accepts or not. -/
abbrev AuthMethod := Context → AuthInfo → AuthInfo × Except Status Unit

variable (backend : AuthBackend)

/-- `PopulateAuthStruct`; an error leaves the `AuthInfo` as it is. -/
def populateAuthStruct (username : String) (auth : AuthInfo) (r : List String) : Option AuthInfo :=
  if r = [] then
    match backend.userRoles username with
    | none => none
    | some roles => some { auth with roles := roles, user := username }
  else
    some { auth with roles := r, user := username }

def basicAuthenAndAuthor : AuthMethod := fun ctx auth =>
  match ctx.metadata with
  | none => (auth, .error ⟨.unknown, "Invalid context"⟩)
  | some md =>
    match md "username" with
    | none => (auth, .error ⟨.unauthenticated, "No Username Provided"⟩)
    | some username =>
      match md "password" with
      | none => (auth, .error ⟨.unauthenticated, "No Password Provided"⟩)
      | some passwd =>
        match populateAuthStruct backend username auth [] with
        | none => (auth, .error ⟨.unauthenticated, ""⟩)
        | some auth =>
          if backend.userPwAuth username passwd then
            (auth, .ok ())
          else
            (auth, .error ⟨.permissionDenied, "Invalid Password"⟩)

def jwtAuthenAndAuthor : AuthMethod := fun ctx auth =>
  match ctx.metadata with
  | none => (auth, .error ⟨.unknown, "Invalid context"⟩)
  | some md =>
    match md "access_token" with
    | none => (auth, .error ⟨.unauthenticated, "No JWT Token Provided"⟩)
    | some token =>
      match backend.parseWithClaims token with
      | .error e => (auth, .error ⟨.unauthenticated, e⟩)
      | .ok (claims, valid) =>
        if valid then
          match populateAuthStruct backend claims.username auth claims.roles with
          | none => (auth, .error ⟨.unauthenticated, ""⟩)
          | some auth => (auth, .ok ())
        else
          (auth, .error ⟨.unauthenticated, "Invalid JWT Token"⟩)

/-- The roles an entry of the role table assigns; `role` is the schema with a
single role. -/
def entryRoles (entry : GoMap String String) : Option (List String) :=
  match entry.lookup "role@" with
  | some role => some (GoText.split role ',')
  | none =>
    match entry.lookup "role" with
    | some role => some [role]
    | none => none

/-- `PopulateAuthStructByCommonName`: only the roles are written, and only when
the entry has some. -/
def populateAuthStructByCommonName (certCommonName : String)
    (auth : AuthInfo) (serviceConfigTableName : String) : AuthInfo × Except Status Unit :=
  if serviceConfigTableName = "" then
    (auth, .error ⟨.unauthenticated, "Service config table name should not be empty"⟩)
  else
    let fieldValuePairs := backend.getEntry serviceConfigTableName certCommonName
    let auth :=
      match entryRoles fieldValuePairs with
      | some roles => { auth with roles := roles }
      | none => auth
    if auth.roles = [] then
      (auth, .error ⟨.unauthenticated,
        "Invalid cert cname:'" ++ certCommonName ++ "', not a trusted cert common name."⟩)
    else
      (auth, .ok ())

/-- The common name of the leaf of the first verified chain. -/
def peerCommonName (ctx : Context) : Except Status (String × List (List Certificate)) :=
  match ctx.peer with
  | none => .error ⟨.unauthenticated, "no peer found"⟩
  | some p =>
    match p.tls with
    | none => .error ⟨.unauthenticated, "unexpected peer transport credentials"⟩
    | some tls =>
      match tls.verifiedChains with
      | (leaf :: _) :: _ =>
        if leaf.commonName = "" then
          .error ⟨.unauthenticated, "invalid username in certificate common name."⟩
        else
          .ok (leaf.commonName, tls.verifiedChains)
      | _ => .error ⟨.unauthenticated, "could not verify peer certificate"⟩

def clientCertAuthenAndAuthor (serviceConfigTableName : String)
    (enableCrl : Bool) : AuthMethod := fun ctx auth =>
  match peerCommonName ctx with
  | .error e => (auth, .error e)
  | .ok (username, chains) =>
    let populated : AuthInfo × Except Status Unit :=
      if serviceConfigTableName ≠ "" then
        populateAuthStructByCommonName backend username auth serviceConfigTableName
      else
        match populateAuthStruct backend username auth [] with
        | none => (auth, .error ⟨.unauthenticated, ""⟩)
        | some auth => (auth, .ok ())
    match populated with
    | (auth, .error e) => (auth, .error e)
    | (auth, .ok ()) =>
      if enableCrl then (auth, backend.verifyCertCrl chains) else (auth, .ok ())

def noAccessMode : String := "noaccess"

def readOnlyMode : String := "readonly"

def writeAccessMode : String := "readwrite"

/-- The loop over the roles: whether one of them gives access to the target, or
the error that ends the loop. -/
def roleLoop (user target : String) (writeAccess : Bool) : List String → Except Status Bool
  | [] => .ok false
  | role :: rest =>
    let role := GoText.trimSpace role
    if GoText.hasPrefix role target then
      let access := GoText.trimPrefix (GoText.trimPrefix role target) "_"
      if access = noAccessMode then
        .error (plainError (user ++ " does not have access, target " ++ target ++
          ", role " ++ role))
      else if access = readOnlyMode then
        if writeAccess then
          .error (plainError (user ++ " does not have access, target " ++ target ++
            ", role " ++ role))
        else
          .ok true
      else if access = writeAccessMode then
        .ok true
      else
        roleLoop user target writeAccess rest
    else
      roleLoop user target writeAccess rest

/-- The role decision for write or read access. -/
def checkRoles (auth : AuthInfo) (target : String) (writeAccess : Bool) : Except Status Unit :=
  let target := target.toLower
  match roleLoop auth.user target writeAccess auth.roles with
  | .error e => .error e
  | .ok found =>
    if !found && writeAccess then
      .error (plainError (auth.user ++ " does not have write access, target " ++ target))
    else
      .ok ()

/-- The certificate method followed by the role decision, which is made when a
role table is configured. -/
def certMethod (config : Config) (target : String)
    (writeAccess : Bool) : AuthMethod := fun ctx auth =>
  match clientCertAuthenAndAuthor backend config.configTableName config.enableCrl ctx auth with
  | (auth, .error _) => (auth, .error ⟨.unauthenticated, "Unauthenticated"⟩)
  | (auth, .ok ()) =>
    if config.configTableName ≠ "" then
      (auth, checkRoles auth target writeAccess)
    else
      (auth, .ok ())

/-- The peer is connected through a Unix domain socket. -/
def isUnixPeer (ctx : Context) : Bool :=
  match ctx.peer with
  | some { addr := some (.unix _), .. } => true
  | _ => false

/-- Run a method if it is enabled and no method has accepted yet. -/
def attempt (enabled : Bool) (method : AuthMethod) (ctx : Context) (tried : AuthInfo × Bool) :
    AuthInfo × Bool :=
  if !tried.2 && enabled then
    let (auth, result) := method ctx tried.1
    (auth, result.isOk)
  else
    tried

/-- The password and the token method, starting from this `AuthInfo`. -/
def tryLogins (config : Config) (ctx : Context) (auth : AuthInfo) : AuthInfo × Bool :=
  attempt (config.userAuth.enabled "jwt") (jwtAuthenAndAuthor backend) ctx
    (attempt (config.userAuth.enabled "password") (basicAuthenAndAuthor backend) ctx (auth, false))

/-- `authenticate` on the `AuthInfo` of the request: the enabled methods in
turn, until one accepts. -/
def authenticateInfo (config : Config) (target : String)
    (writeAccess : Bool) : AuthMethod := fun ctx auth =>
  -- Security of Unix sockets is enforced by the file system.
  if isUnixPeer ctx then
    ({ auth with authEnabled := false }, .ok ())
  else if !config.userAuth.any then
    ({ auth with authEnabled := false }, .ok ())
  else
    let (auth, success) := tryLogins backend config ctx { auth with authEnabled := true }
    if !success && config.userAuth.enabled "cert" then
      certMethod backend config target writeAccess ctx auth
    else if success then
      (auth, .ok ())
    else
      (auth, .error ⟨.unauthenticated, "Unauthenticated"⟩)

/-- `authenticate`.  The methods call `GetContext` again and find the request
context that this call made sure of. -/
def authenticate (backend : AuthBackend) (config : Config) (ctx : Context) (target : String)
    (writeAccess : Bool) (store : ContextStore) : Except Status Unit × Context × ContextStore :=
  let (rc, ctx, store) := getContext ctx store
  let (auth, result) :=
    authenticateInfo backend config target writeAccess ctx (store.cell rc).auth
  (result, ctx, store.setAuth rc auth)

end SonicGnmi.GnmiServer
