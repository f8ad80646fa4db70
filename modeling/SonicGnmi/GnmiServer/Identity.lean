import SonicGnmi.GnmiServer.Auth

/-!
# Whose identity a request gets

An accepted request should carry the user and roles of one method that accepts
it, as if the others had not been tried.  The password method writes user and
roles before it checks the password, and the certificate method with a role
table neither writes the user nor, when the table has no roles for the
certificate, the roles.

* `EstablishedBy`, `NoInfluence` — the identity is that of one method alone;
* `StaleLogin` — a wrong password whose user or roles survive;
* `authenticate_noInfluence_iff` — the identity is that of one method unless
  authentication is switched off or a stale login survives.
-/

namespace SonicGnmi.GnmiServer

open Foundation Grpc Option

/-- The three methods. -/
inductive Method where
  | password
  | jwt
  | cert
  deriving DecidableEq

/-- The mode that enables a method. -/
def Method.mode : Method → String
  | .password => "password"
  | .jwt => "jwt"
  | .cert => "cert"

variable (backend : AuthBackend) (config : Config) (target : String) (writeAccess : Bool)

/-- A method alone; the certificate method includes the role decision. -/
def Method.run : Method → AuthMethod
  | .password => basicAuthenAndAuthor backend
  | .jwt => jwtAuthenAndAuthor backend
  | .cert => certMethod backend config target writeAccess

/-- The user and roles are those that one enabled method establishes when it
is run alone, from an empty `AuthInfo`. -/
def EstablishedBy (ctx : Context) (auth : AuthInfo) : Prop :=
  ∃ method : Method, config.userAuth.enabled method.mode = true ∧
    ∃ alone, method.run backend config target writeAccess ctx {} = (alone, .ok ()) ∧
      auth.user = alone.user ∧ auth.roles = alone.roles

/-- The context of a request from a TCP peer. -/
def tcpContext (addr : String) (tls : Option TlsInfo) (metadata : Option Metadata) : Context :=
  Incoming.context { peer := some { addr := some (.tcp addr), tls := tls }, metadata := metadata }

/-- If `authenticate` accepts, the request context holds the identity that one
method alone establishes. -/
def NoInfluence (ctx : Context) (store : ContextStore) : Prop :=
  (authenticate backend config ctx target writeAccess store).1 = .ok () →
    ∃ rc, (authenticate backend config ctx target writeAccess store).2.1.request = some rc ∧
      EstablishedBy backend config target writeAccess ctx
        ((authenticate backend config ctx target writeAccess store).2.2.cell rc).auth

/-! ## The methods -/

/-- A known user name sent with a wrong password, and the roles of the user. -/
def failedLogin (ctx : Context) : Option (String × List String) :=
  match ctx.metadata with
  | none => none
  | some md =>
    match md "username", md "password" with
    | some username, some passwd =>
      match backend.userRoles username with
      | some roles => if backend.userPwAuth username passwd then none else some (username, roles)
      | none => none
    | _, _ => none

/-- The `AuthInfo` after a method has written user and roles. -/
def withIdentity (auth : AuthInfo) (user : String) (roles : List String) : AuthInfo :=
  { auth with roles := roles, user := user }

/-- A method that writes user and roles, or nothing, and accepts exactly when it
wrote them. -/
def Clean (method : AuthMethod) (ctx : Context) : Prop :=
  (∃ user roles, ∀ auth, method ctx auth = (withIdentity auth user roles, .ok ())) ∨
    ∃ e, ∀ auth, method ctx auth = (auth, .error e)

variable (ctx : Context)

/-- The password method: clean, except that a failed login is written. -/
theorem basicAuthenAndAuthor_cases :
    (failedLogin backend ctx = none ∧ Clean (basicAuthenAndAuthor backend) ctx) ∨
      ∃ user roles e, failedLogin backend ctx = some (user, roles) ∧
        ∀ auth, basicAuthenAndAuthor backend ctx auth =
          (withIdentity auth user roles, .error e) := by
  unfold failedLogin Clean basicAuthenAndAuthor populateAuthStruct
  cases ctx.metadata with
  | none => exact .inl ⟨rfl, .inr ⟨_, fun _ => rfl⟩⟩
  | some md =>
    dsimp only
    cases md "username" with
    | none => exact .inl ⟨rfl, .inr ⟨_, fun _ => rfl⟩⟩
    | some username =>
      cases md "password" with
      | none => exact .inl ⟨rfl, .inr ⟨_, fun _ => rfl⟩⟩
      | some passwd =>
        dsimp only
        cases backend.userRoles username with
        | none => exact .inl ⟨rfl, .inr ⟨_, fun _ => rfl⟩⟩
        | some roles =>
          cases backend.userPwAuth username passwd with
          | true => exact .inl ⟨rfl, .inl ⟨username, roles, fun _ => rfl⟩⟩
          | false => exact .inr ⟨username, roles, _, rfl, fun _ => rfl⟩

theorem populateAuthStruct_cases (username : String) (r : List String) :
    (∃ roles, ∀ auth, populateAuthStruct backend username auth r =
        some (withIdentity auth username roles)) ∨
      ∀ auth, populateAuthStruct backend username auth r = none := by
  unfold populateAuthStruct
  by_cases hr : r = []
  · simp only [if_pos hr]
    cases hroles : backend.userRoles username with
    | none => exact .inr fun _ => rfl
    | some roles => exact .inl ⟨roles, fun _ => rfl⟩
  · simp only [if_neg hr]
    exact .inl ⟨r, fun _ => rfl⟩

theorem jwtAuthenAndAuthor_clean : Clean (jwtAuthenAndAuthor backend) ctx := by
  unfold Clean jwtAuthenAndAuthor
  cases ctx.metadata with
  | none => exact .inr ⟨_, fun _ => rfl⟩
  | some md =>
    dsimp only
    cases md "access_token" with
    | none => exact .inr ⟨_, fun _ => rfl⟩
    | some token =>
      dsimp only
      rcases backend.parseWithClaims token with e | ⟨claims, valid⟩
      · exact .inr ⟨_, fun _ => rfl⟩
      cases valid with
      | false => exact .inr ⟨_, fun _ => rfl⟩
      | true =>
        rcases populateAuthStruct_cases backend claims.username claims.roles with
          ⟨roles, hpopulate⟩ | hpopulate
        · exact .inl ⟨claims.username, roles, fun auth => by simp [hpopulate]⟩
        · exact .inr ⟨⟨.unauthenticated, ""⟩, fun auth => by simp [hpopulate]⟩

/-- What the certificate and its revocation check say, without the `AuthInfo`:
the common name of an accepted certificate. -/
def acceptedCommonName (ctx : Context) : Option String :=
  match peerCommonName ctx with
  | .error _ => none
  | .ok (username, chains) =>
    if config.enableCrl && !(backend.verifyCertCrl chains).isOk then none else some username

theorem certMethod_clean (htable : config.configTableName = "") :
    (∃ user roles, ∀ auth, certMethod backend config target writeAccess ctx auth =
        (withIdentity auth user roles, .ok ())) ∨
      ∀ auth, (certMethod backend config target writeAccess ctx auth).2.isOk = false := by
  unfold certMethod clientCertAuthenAndAuthor
  rcases peerCommonName ctx with e | ⟨username, chains⟩
  · exact .inr fun _ => rfl
  rcases populateAuthStruct_cases backend username [] with ⟨roles, hpopulate⟩ | hpopulate <;>
    simp [htable, hpopulate]
  · cases config.enableCrl with
    | false => exact .inl ⟨username, roles, fun _ => rfl⟩
    | true =>
      rcases backend.verifyCertCrl chains with e | ⟨⟩
      · exact .inr fun _ => rfl
      · exact .inl ⟨username, roles, fun _ => rfl⟩

/-- Whether the roles give access does not depend on the user, who only stands
in the error text. -/
theorem roleLoop_isOk (user user' : String) (lower : String) (roles : List String) :
    (roleLoop user lower writeAccess roles).toOption =
      (roleLoop user' lower writeAccess roles).toOption := by
  induction roles with
  | nil => rfl
  | cons role rest ih =>
    simp only [roleLoop]
    split_ifs
    all_goals first
      | exact ih
      | rfl

/-- The roles that the certificate method works with: those of the table, or
what it finds in the `AuthInfo`. -/
def rolesFor (commonName : String) (found : List String) : List String :=
  (entryRoles (backend.getEntry config.configTableName commonName)).getD found

/-- The roles give the requested access to the target. -/
def RolesAllow (roles : List String) : Prop :=
  (checkRoles { roles := roles } target writeAccess).isOk = true

variable (auth : AuthInfo)

theorem checkRoles_ok_iff :
    checkRoles auth target writeAccess = .ok () ↔ RolesAllow target writeAccess auth.roles := by
  have hsame := roleLoop_isOk writeAccess auth.user "" target.toLower auth.roles
  unfold RolesAllow checkRoles
  simp only
  generalize roleLoop auth.user target.toLower writeAccess auth.roles = own at hsame ⊢
  generalize roleLoop "" target.toLower writeAccess auth.roles = anonymous at hsame ⊢
  cases own with
  | error e =>
    cases anonymous with
    | error e' => simp
    | ok found' => simp [Except.toOption] at hsame
  | ok found =>
    cases anonymous with
    | error e' => simp [Except.toOption] at hsame
    | ok found' =>
      simp only [Except.toOption, Option.some.injEq] at hsame
      subst hsame
      simp only
      split <;> simp

theorem populateAuthStructByCommonName_eq (htable : config.configTableName ≠ "")
    (commonName : String) (auth : AuthInfo) :
    populateAuthStructByCommonName backend commonName auth config.configTableName =
      ({ auth with roles := rolesFor backend config commonName auth.roles },
        if rolesFor backend config commonName auth.roles = [] then
          .error ⟨.unauthenticated,
            "Invalid cert cname:'" ++ commonName ++ "', not a trusted cert common name."⟩
        else .ok ()) := by
  cases hentry : entryRoles (backend.getEntry config.configTableName commonName) with
  | none =>
    simp only [populateAuthStructByCommonName, if_neg htable, rolesFor, hentry, getD_none]
    split <;> rfl
  | some roles =>
    simp only [populateAuthStructByCommonName, if_neg htable, rolesFor, hentry, getD_some]
    split <;> rfl

/-- With a role table the certificate method keeps the user it finds. -/
theorem certMethod_ok_iff (htable : config.configTableName ≠ "") (auth result : AuthInfo) :
    certMethod backend config target writeAccess ctx auth = (result, .ok ()) ↔
      ∃ commonName, acceptedCommonName backend config ctx = some commonName ∧
        rolesFor backend config commonName auth.roles ≠ [] ∧
        RolesAllow target writeAccess (rolesFor backend config commonName auth.roles) ∧
        result = { auth with roles := rolesFor backend config commonName auth.roles } := by
  rcases hpeer : peerCommonName ctx with e | ⟨username, chains⟩
  · simp [certMethod, clientCertAuthenAndAuthor, acceptedCommonName, hpeer]
  have hcheck := checkRoles_ok_iff target writeAccess
    { auth with roles := rolesFor backend config username auth.roles }
  simp only [certMethod, clientCertAuthenAndAuthor, acceptedCommonName, hpeer, ne_eq, htable,
    not_false_eq_true, if_true,
    populateAuthStructByCommonName_eq backend config htable username auth]
  by_cases hempty : rolesFor backend config username auth.roles = []
  · -- No roles: the certificate is not trusted.
    simp only [hempty, if_true]
    constructor
    · intro h
      cases h
    rintro ⟨cn, hcn, hne, -⟩
    split at hcn <;> cases hcn
    exact absurd hempty hne
  · simp only [hempty, if_false]
    cases henable : config.enableCrl with
    | false =>
      simp only [Bool.false_eq_true, if_false, Bool.false_and, Prod.mk.injEq,
        some.injEq, exists_eq_left', hempty, not_false_eq_true, true_and, hcheck]
      exact ⟨fun h => ⟨h.2, h.1.symm⟩, fun h => ⟨h.2.symm, h.1⟩⟩
    | true =>
      rcases hverify : backend.verifyCertCrl chains with e | ⟨⟩
      · simp
      · simp only [if_true, Bool.true_and, isOk_ok, Bool.not_true,
          Bool.false_eq_true, if_false, Prod.mk.injEq, Option.some.injEq, exists_eq_left',
          hempty, not_false_eq_true, true_and, hcheck]
        exact ⟨fun h => ⟨h.2, h.1.symm⟩, fun h => ⟨h.2.symm, h.1⟩⟩

/-! ## The sequence of methods -/

/-- What the password method leaves behind without accepting. -/
def leftover (ctx : Context) : Option (String × List String) :=
  if config.userAuth.enabled "password" then failedLogin backend ctx else none

/-- The `AuthInfo` with a leftover login in it. -/
def withLeftover : Option (String × List String) → AuthInfo
  | none => auth
  | some (user, roles) => withIdentity auth user roles

/-- The token method is enabled and accepts. -/
def JwtAccepts (ctx : Context) : Prop :=
  config.userAuth.enabled "jwt" = true ∧ (jwtAuthenAndAuthor backend ctx {}).2.isOk = true

/-- A login with a wrong password whose user or roles end up in a request that
the certificate method accepts with a role table. -/
def StaleLogin (ctx : Context) : Prop :=
  ¬ JwtAccepts backend config ctx ∧ config.userAuth.enabled "cert" = true ∧
    config.configTableName ≠ "" ∧
    ∃ user roles commonName,
      leftover backend config ctx = some (user, roles) ∧
      acceptedCommonName backend config ctx = some commonName ∧
      rolesFor backend config commonName roles ≠ [] ∧
      RolesAllow target writeAccess (rolesFor backend config commonName roles) ∧
      (user ≠ "" ∨ entryRoles (backend.getEntry config.configTableName commonName) = none)

/-- A method accepts with this identity, whatever the `AuthInfo` was. -/
def Accepts (method : AuthMethod) (ctx : Context) (user : String) (roles : List String) : Prop :=
  ∀ auth, method ctx auth = (withIdentity auth user roles, .ok ())

/-- A method rejects, whatever the `AuthInfo` was. -/
def Rejects (method : AuthMethod) (ctx : Context) : Prop :=
  ∀ auth, ∃ info e, method ctx auth = (info, .error e)

theorem attempt_password :
    (config.userAuth.enabled "password" = true ∧ ∃ user roles,
        Accepts (basicAuthenAndAuthor backend) ctx user roles ∧
        attempt (config.userAuth.enabled "password") (basicAuthenAndAuthor backend) ctx
          (auth, false) = (withIdentity auth user roles, true) ∧
        leftover backend config ctx = none) ∨
      (attempt (config.userAuth.enabled "password") (basicAuthenAndAuthor backend) ctx
          (auth, false) = (withLeftover auth (leftover backend config ctx), false) ∧
        (config.userAuth.enabled "password" = true →
          Rejects (basicAuthenAndAuthor backend) ctx)) := by
  cases henabled : config.userAuth.enabled "password" with
  | false =>
    right
    simp [attempt, leftover, henabled, withLeftover]
  | true =>
    rcases basicAuthenAndAuthor_cases backend ctx with
      ⟨hnone, ⟨user, roles, haccept⟩ | ⟨e, hreject⟩⟩ | ⟨user, roles, e, hsome, hreject⟩
    · refine Or.inl ⟨rfl, user, roles, haccept, ?_, by simp [leftover, henabled, hnone]⟩
      simp [attempt, haccept]
    · refine Or.inr ⟨?_, fun _ auth => ⟨auth, e, hreject auth⟩⟩
      simp [attempt, hreject, leftover, henabled, hnone, withLeftover]
    · refine Or.inr ⟨?_, fun _ auth => ⟨_, e, hreject auth⟩⟩
      simp [attempt, hreject, leftover, henabled, hsome, withLeftover]

theorem attempt_jwt :
    (JwtAccepts backend config ctx ∧ ∃ user roles,
        Accepts (jwtAuthenAndAuthor backend) ctx user roles ∧
        attempt (config.userAuth.enabled "jwt") (jwtAuthenAndAuthor backend) ctx
          (auth, false) = (withIdentity auth user roles, true)) ∨
      (¬ JwtAccepts backend config ctx ∧
        attempt (config.userAuth.enabled "jwt") (jwtAuthenAndAuthor backend) ctx
          (auth, false) = (auth, false) ∧
        (config.userAuth.enabled "jwt" = true → Rejects (jwtAuthenAndAuthor backend) ctx)) := by
  cases henabled : config.userAuth.enabled "jwt" with
  | false =>
    right
    simp [JwtAccepts, attempt, henabled]
  | true =>
    rcases jwtAuthenAndAuthor_clean backend ctx with ⟨user, roles, haccept⟩ | ⟨e, hreject⟩
    · refine Or.inl ⟨⟨henabled, by simp [haccept]⟩, user, roles,
        haccept, ?_⟩
      simp [attempt, haccept]
    · refine .inr ⟨?_, ?_, fun _ auth => ⟨auth, e, hreject auth⟩⟩
      · simp [JwtAccepts, hreject]
      · simp [attempt, hreject]

theorem establishedBy_of_accepts {ctx : Context} (method : Method) {auth : AuthInfo}
    {user : String} {roles : List String} (henabled : config.userAuth.enabled method.mode = true)
    (haccept : Accepts (method.run backend config target writeAccess) ctx user roles) :
    EstablishedBy backend config target writeAccess ctx (withIdentity auth user roles) :=
  ⟨method, henabled, withIdentity {} user roles, haccept {}, rfl, rfl⟩

theorem not_ok_of_rejects {method : AuthMethod} {ctx : Context} (h : Rejects method ctx)
    {auth alone : AuthInfo} : method ctx auth ≠ (alone, .ok ()) := by
  obtain ⟨info, e, hrun⟩ := h auth
  rw [hrun]
  simp

theorem entryRoles_ne_nil {entry : GoMap String String} {roles : List String}
    (h : entryRoles entry = some roles) : roles ≠ [] := by
  unfold entryRoles at h
  split at h
  · cases h
    exact GoText.split_ne_nil _ _
  · split at h <;> cases h
    exact List.cons_ne_nil _ _

/-- After failed logins the certificate method establishes its own identity
exactly when no stale login survives. -/
theorem certMethod_established_iff {auth : AuthInfo} (hauth : auth.user = "" ∧ auth.roles = [])
    (hcert : config.userAuth.enabled "cert" = true) (hjwt : ¬ JwtAccepts backend config ctx)
    (hpassword : config.userAuth.enabled "password" = true →
      Rejects (basicAuthenAndAuthor backend) ctx)
    (htoken : config.userAuth.enabled "jwt" = true → Rejects (jwtAuthenAndAuthor backend) ctx) :
    (∀ result, certMethod backend config target writeAccess ctx
        (withLeftover auth (leftover backend config ctx)) = (result, .ok ()) →
        EstablishedBy backend config target writeAccess ctx result) ↔
      ¬ StaleLogin backend config target writeAccess ctx := by
  by_cases htable : config.configTableName = ""
  · refine iff_of_true ?_ fun h => h.2.2.1 htable
    intro result hok
    rcases certMethod_clean backend config target writeAccess ctx htable with
      ⟨user, roles, haccept⟩ | hreject
    · rw [haccept, Prod.mk.injEq] at hok
      rw [← hok.1]
      exact establishedBy_of_accepts backend config target writeAccess .cert hcert haccept
    · have hfalse := hreject (withLeftover auth (leftover backend config ctx))
      rw [hok] at hfalse
      simp at hfalse
  · have hok_iff := certMethod_ok_iff backend config target writeAccess ctx htable
    -- The other methods do not accept, so only the certificate alone is left.
    have hestablished : ∀ result, EstablishedBy backend config target writeAccess ctx result ↔
        ∃ alone, certMethod backend config target writeAccess ctx {} = (alone, .ok ()) ∧
          result.user = alone.user ∧ result.roles = alone.roles := by
      intro result
      constructor
      · rintro ⟨method, henabled, alone, hrun, hsame⟩
        cases method with
        | password => exact absurd hrun (not_ok_of_rejects (hpassword henabled))
        | jwt => exact absurd hrun (not_ok_of_rejects (htoken henabled))
        | cert => exact ⟨alone, hrun, hsame⟩
      · rintro ⟨alone, hrun, hsame⟩
        exact ⟨.cert, hcert, alone, hrun, hsame⟩
    constructor
    · rintro hall ⟨-, -, -, user, roles, cn, hleft, hcn, hne, hallow, hstale⟩
      rw [hleft] at hall
      have haccepted := (hok_iff (withIdentity auth user roles) _).2 ⟨cn, hcn, hne, hallow, rfl⟩
      obtain ⟨alone, hrun, huser, hroles⟩ := (hestablished _).1 (hall _ haccepted)
      obtain ⟨cn', hcn', hne', -, rfl⟩ := (hok_iff {} alone).1 hrun
      cases hcn.symm.trans hcn'
      rcases hstale with hstale | hstale
      · exact hstale huser
      · simp [rolesFor, hstale] at hne'
    · intro hfresh result hok
      rw [hestablished]
      obtain ⟨cn, hcn, hne, hallow, rfl⟩ := (hok_iff _ result).1 hok
      cases hentry : entryRoles (backend.getEntry config.configTableName cn) with
      | none =>
        -- The roles come from a failed login.
        exfalso
        cases hleft : leftover backend config ctx with
        | none =>
          rw [hleft] at hne
          simp [rolesFor, hentry, withLeftover, hauth.2] at hne
        | some login =>
          rw [hleft] at hne hallow
          exact hfresh ⟨hjwt, hcert, htable, login.1, login.2, cn, hleft, hcn, hne, hallow,
            .inr hentry⟩
      | some entry =>
        have hsame : ∀ found, rolesFor backend config cn found = entry := by
          intro found
          simp [rolesFor, hentry]
        rw [hsame] at hallow
        refine ⟨{ roles := entry }, ?_, ?_, by simp [hsame]⟩
        · rw [hok_iff]
          refine ⟨cn, hcn, ?_, ?_, ?_⟩ <;> rw [hsame]
          · exact entryRoles_ne_nil hentry
          · exact hallow
        · cases hleft : leftover backend config ctx with
          | none => exact hauth.1
          | some login =>
            by_contra huser
            refine hfresh ⟨hjwt, hcert, htable, login.1, login.2, cn, hleft, hcn, ?_, ?_,
              .inl huser⟩ <;> rw [hsame]
            · exact entryRoles_ne_nil hentry
            · exact hallow

/-- On an incoming request `authenticate` works on a fresh `AuthInfo`. -/
theorem authenticate_incoming (incoming : Incoming) (store : ContextStore) :
    (authenticate backend config incoming.context target writeAccess store).1 =
        (authenticateInfo backend config target writeAccess incoming.context {}).2 ∧
      (authenticate backend config incoming.context target writeAccess store).2.1.request =
        some store.requestCounter ∧
      ((authenticate backend config incoming.context target writeAccess store).2.2.cell
          store.requestCounter).auth =
        (authenticateInfo backend config target writeAccess incoming.context {}).1 := by
  -- The methods read peer and metadata, which `GetContext` keeps.
  have hsame : ∀ auth, authenticateInfo backend config target writeAccess
        { incoming.context with request := some store.requestCounter } auth =
      authenticateInfo backend config target writeAccess incoming.context auth := fun _ => rfl
  simp [authenticate, getContext_incoming, hsame, ContextStore.setAuth_auth]

theorem any_of_enabled {modes : AuthTypes} {mode : String} (h : modes.enabled mode = true) :
    modes.any = true := by
  obtain ⟨hnone, hset⟩ := Bool.and_eq_true_iff.1 h
  refine Bool.and_eq_true_iff.2 ⟨hnone, List.any_eq_true.2 ?_⟩
  rw [AuthTypes.isSet] at hset
  cases hlookup : modes.lookup mode with
  | none =>
    rw [hlookup] at hset
    cases hset
  | some value =>
    rw [hlookup, getD_some] at hset
    exact ⟨⟨mode, value⟩, AList.mem_lookup_iff.1 hlookup, hset⟩

/-- The logins in turn: one of them accepts with its own identity, or both
reject and leave at most a failed login behind. -/
theorem tryLogins_cases :
    (∃ method : Method, config.userAuth.enabled method.mode = true ∧ ∃ user roles before,
        Accepts (method.run backend config target writeAccess) ctx user roles ∧
        tryLogins backend config ctx auth = (withIdentity before user roles, true) ∧
        ¬ StaleLogin backend config target writeAccess ctx) ∨
      (¬ JwtAccepts backend config ctx ∧ tryLogins backend config ctx auth =
          (withLeftover auth (leftover backend config ctx), false) ∧
        (config.userAuth.enabled "password" = true → Rejects (basicAuthenAndAuthor backend) ctx) ∧
        (config.userAuth.enabled "jwt" = true → Rejects (jwtAuthenAndAuthor backend) ctx)) := by
  unfold tryLogins
  rcases attempt_password backend config ctx auth with
    ⟨henabled, user, roles, haccept, hrun, hleft⟩ | ⟨hrun, hpassword⟩
  · refine .inl ⟨.password, henabled, user, roles, auth, haccept, ?_, ?_⟩
    · rw [hrun]
      rfl
    · rintro ⟨-, -, -, u, r, cn, h, -⟩
      rw [hleft] at h
      contradiction
  · rw [hrun]
    rcases attempt_jwt backend config ctx (withLeftover auth (leftover backend config ctx)) with
      ⟨hjwt, user, roles, haccept, hrun'⟩ | ⟨hjwt, hrun', htoken⟩
    · exact .inl ⟨.jwt, hjwt.1, user, roles, _, haccept, hrun', fun h => h.1 hjwt⟩
    · exact .inr ⟨hjwt, hrun', hpassword, htoken⟩

/-- An accepted request of a TCP peer carries the identity of one method alone,
exactly when authentication is on and no stale login survives. -/
theorem authenticate_noInfluence_iff (addr : String) (tls : Option TlsInfo)
    (metadata : Option Metadata) (store : ContextStore) :
    NoInfluence backend config target writeAccess (tcpContext addr tls metadata) store ↔
      config.userAuth.any = true ∧
        ¬ StaleLogin backend config target writeAccess (tcpContext addr tls metadata) := by
  obtain ⟨hresult, hrequest, hauth⟩ := authenticate_incoming backend config target writeAccess
    { peer := some { addr := some (.tcp addr), tls := tls }, metadata := metadata } store
  have hinfluence : NoInfluence backend config target writeAccess
        (tcpContext addr tls metadata) store ↔
      ((authenticateInfo backend config target writeAccess (tcpContext addr tls metadata) {}).2 =
          .ok () →
        EstablishedBy backend config target writeAccess (tcpContext addr tls metadata)
          (authenticateInfo backend config target writeAccess
            (tcpContext addr tls metadata) {}).1) := by
    unfold NoInfluence tcpContext
    rw [hresult, hrequest]
    refine imp_congr_right fun _ => ⟨?_, fun h => ⟨_, rfl, by rw [hauth]; exact h⟩⟩
    rintro ⟨rc, hrc, h⟩
    cases hrc
    rwa [hauth] at h
  rw [hinfluence]
  generalize hctx : tcpContext addr tls metadata = ctx
  have htcp : isUnixPeer ctx = false := by
    rw [← hctx]
    rfl
  cases hany : config.userAuth.any with
  | false =>
    -- Authentication is off: accepted, but by no method.
    refine iff_of_false ?_ (by simp)
    intro h
    obtain ⟨method, henabled, -⟩ := h (by simp [authenticateInfo, htcp, hany])
    rw [any_of_enabled henabled] at hany
    contradiction
  | true =>
    simp only [authenticateInfo, htcp, hany, Bool.false_eq_true, if_false, Bool.not_true, true_and]
    rcases tryLogins_cases backend config target writeAccess ctx { authEnabled := true } with
      ⟨method, henabled, user, roles, before, haccept, hrun, hstale⟩ |
        ⟨hjwt, hrun, hpassword, htoken⟩ <;> rw [hrun]
    · refine iff_of_true (fun _ => ?_) hstale
      exact establishedBy_of_accepts backend config target writeAccess method henabled haccept
    · cases hcert : config.userAuth.enabled "cert" with
      | false =>
        refine iff_of_true (by simp) fun h => ?_
        have henabled := h.2.1
        rw [hcert] at henabled
        contradiction
      | true =>
        have hclean : ({ authEnabled := true } : AuthInfo).user = "" ∧
            ({ authEnabled := true } : AuthInfo).roles = [] := ⟨rfl, rfl⟩
        rw [← certMethod_established_iff backend config target writeAccess ctx hclean hcert
          hjwt hpassword htoken]
        constructor
        · intro h result hok
          rw [hok] at h
          exact h rfl
        · intro h hok
          exact h _ (Prod.ext rfl hok)

/-! ## A guessed password next to a certificate -/

def guestCertificate : AuthBackend where
  userRoles := fun user =>
    if user = "admin" then some ["sudo"] else if user = "guest" then some ["users"] else none
  userPwAuth := fun user passwd => user = "admin" && passwd = "secret"
  parseWithClaims := fun _ => .error "token is malformed"
  getEntry := fun _ key =>
    if key = "guest" then AList.singleton "role@" "gnmi_readwrite" else ∅
  verifyCertCrl := fun _ => .ok ()

def passwordOrCert : Config where
  userAuth := AList.insert "password" true (AList.singleton "cert" true)
  configTableName := "GNMI_CLIENT_CERT"

/-- The guest's certificate with the name of the administrator and a wrong
password. -/
def guestAsAdmin : Context :=
  tcpContext "10.0.0.3:4000" (some { verifiedChains := [[{ commonName := "guest" }]] })
    (some fun key =>
      if key = "username" then some "admin"
      else if key = "password" then some "guess" else none)

/-- The request of the guest is accepted and recorded as one of the
administrator. -/
theorem wrong_password_sets_user :
    (authenticate guestCertificate passwordOrCert guestAsAdmin "gnmi" true {}).1 = .ok () ∧
      ((authenticate guestCertificate passwordOrCert guestAsAdmin "gnmi" true {}).2.2.cell
        0).auth.user = "admin" ∧
      ¬ NoInfluence guestCertificate passwordOrCert "gnmi" true guestAsAdmin {} := by
  have hok : (authenticate guestCertificate passwordOrCert guestAsAdmin "gnmi" true {}).1 =
      .ok () := by
    decide +kernel
  have hauth : ((authenticate guestCertificate passwordOrCert guestAsAdmin "gnmi" true {}).2.2.cell
      0).auth = { user := "admin", authEnabled := true, roles := ["gnmi_readwrite"] } := by
    decide +kernel
  have hrequest : (authenticate guestCertificate passwordOrCert guestAsAdmin "gnmi" true
      {}).2.1.request = some 0 := by
    decide +kernel
  -- Alone, the password and the token are refused and the certificate sets no user.
  have halone : ∀ method : Method,
      (method.run guestCertificate passwordOrCert "gnmi" true guestAsAdmin {}).2.isOk = false ∨
        (method.run guestCertificate passwordOrCert "gnmi" true guestAsAdmin {}).1.user = "" := by
    intro method
    cases method <;> decide +kernel
  refine ⟨hok, by rw [hauth], fun h => ?_⟩
  obtain ⟨rc, hrc, method, -, alone, hrun, huser, -⟩ := h hok
  rw [hrequest, some.injEq] at hrc
  rw [← hrc, hauth] at huser
  have hmethod := halone method
  rw [hrun, ← huser] at hmethod
  simp at hmethod

end SonicGnmi.GnmiServer
