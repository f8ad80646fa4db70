import SonicGnmi.GnmiServer.Get
import SonicGnmi.GnmiServer.SetGuard

/-!
# The path policy on Get

With the path policy on, `Server.Get` is meant to go on with the permitted paths
of a request and to refuse it when there are none.  The handler looks every path
up but never adds one to the list it goes on with.

* `handedPaths`, `get_congr` — the list a Get hands to its data client, and that a
  run depends on the data clients through this list only;
* `permittedPaths` — the paths that the policy permits;
* `get_filters_paths_iff` — the requests for which the two fit together.
-/

namespace SonicGnmi.GnmiServer

open Foundation Gnmi Grpc Sdc

variable {Device : Type} (backend : GetBackend Device) (s : Server)

/-! ## The paths handed to a data client -/

/-- The list that Get hands to a data client after the path policy block. -/
def handedByTarget (ctx : Context) (req : GetRequest) (store : ContextStore) : Option (List Path) :=
  match checkEncodingAndModel req.encoding with
  | .error _ => none
  | .ok () =>
    let target := (req.pathPrefix.getD {}).target
    if target = "OPERATIONAL" then
      match authenticate backend.auth s.config ctx "gnoi" false store with
      | (.error _, _) => none
      | (.ok (), _) => some req.path
    else if (targetClient backend req target).isSome then
      some req.path
    else
      match getOrigin req with
      | .error _ => none
      | .ok _ => some req.path

/-- The list that Get hands to a data client, if it gets that far. -/
def handedPaths (ctx : Context) (req : GetRequest) (store : ContextStore) : Option (List Path) :=
  if req.type ≠ .all then
    none
  else if s.config.pathzPolicy && decide (req.path ≠ []) then
    match getUsername ctx with
    | .error _ => none
    | .ok _ =>
      let newPaths : List Path := []
      if newPaths.length = 0 then
        none
      else
        handedByTarget backend s ctx { req with path := newPaths } store
  else
    handedByTarget backend s ctx req store

/-- Two backends with the same authentication and targets whose data clients are
the same for these paths. -/
structure AgreeAt (paths : Option (List Path)) (b b' : GetBackend Device) : Prop where
  auth : b.auth = b'.auth
  isTargetDb : b.isTargetDb = b'.isTargetDb
  nonDb : ∀ p ∈ paths, b.newNonDbClient p = b'.newNonDbClient p
  showClient : ∀ p ∈ paths, b.newShowClient p = b'.newShowClient p
  db : ∀ p ∈ paths, b.newDbClient p = b'.newDbClient p
  operational : ∀ p ∈ paths, b.newOperationalHandler p = b'.newOperationalHandler p
  mixed : ∀ p ∈ paths, b.newMixedDbClient (p.map some) = b'.newMixedDbClient (p.map some)
  transl : ∀ p ∈ paths, ∀ pathPrefix ctx extensions,
    b.newTranslClient pathPrefix (some p) ctx extensions =
      b'.newTranslClient pathPrefix (some p) ctx extensions

variable {backend s}

variable {b b' : GetBackend Device}

theorem getWithClient_congr (hauth : b.auth = b'.auth) (ctx : Context) (req : GetRequest)
    (authTarget : String) (dc : DataClient Device) (store : ContextStore) (world : World Device) :
    getWithClient b s ctx req authTarget dc store world =
      getWithClient b' s ctx req authTarget dc store world := by
  unfold getWithClient
  rw [hauth]

theorem targetClient_isSome_congr
    (htarget : b.isTargetDb = b'.isTargetDb) (req : GetRequest) (target : String) :
    (targetClient b req target).isSome = (targetClient b' req target).isSome := by
  unfold targetClient
  split
  · rfl
  · split
    · rfl
    · rw [htarget, Option.isSome_map, Option.isSome_map]

theorem getByTarget_congr {ctx : Context} {req : GetRequest} {store : ContextStore}
    (h : AgreeAt (handedByTarget b s ctx req store) b b') (world : World Device) :
    getByTarget b s ctx req store world = getByTarget b' s ctx req store world := by
  unfold getByTarget
  simp only
  unfold handedByTarget at h
  cases hencoding : checkEncodingAndModel req.encoding with
  | error e => rfl
  | ok =>
    simp only [hencoding] at h ⊢
    by_cases hoperational : (req.pathPrefix.getD {}).target = "OPERATIONAL"
    · simp only [hoperational, if_true] at h ⊢
      unfold handleOperationalGet
      rw [← h.auth]
      rcases hauth : authenticate b.auth s.config ctx "gnoi" false store with
        ⟨e | ⟨⟩, ctx', store'⟩
      · rfl
      · rw [hauth] at h
        simp [h.operational req.path rfl]
    · simp only [hoperational, if_false] at h ⊢
      by_cases hclient : (targetClient b req (req.pathPrefix.getD {}).target).isSome = true
      · simp only [hclient, if_true] at h
        have hsame : targetClient b req (req.pathPrefix.getD {}).target =
            targetClient b' req (req.pathPrefix.getD {}).target := by
          unfold targetClient
          rw [h.nonDb req.path rfl, h.showClient req.path rfl, h.db req.path rfl, h.isTargetDb]
        rw [hsame]
        obtain ⟨⟨e | dc, authTarget⟩, hsome⟩ := Option.isSome_iff_exists.1 (hsame ▸ hclient)
        · rw [hsome]
        · rw [hsome]
          exact getWithClient_congr h.auth ctx req authTarget dc store world
      · have hclient' := hclient
        rw [targetClient_isSome_congr h.isTargetDb] at hclient'
        simp only [hclient, Bool.false_eq_true, if_false] at h
        rw [Option.not_isSome_iff_eq_none.1 hclient, Option.not_isSome_iff_eq_none.1 hclient']
        cases horigin : getOrigin req with
        | error e => rfl
        | ok origin =>
          rw [horigin] at h
          have hsame : originClient b ctx req origin = originClient b' ctx req origin := by
            unfold originClient
            rw [h.mixed req.path rfl, h.transl req.path rfl]
          simp only [hsame]
          rcases originClient b' ctx req origin with e | ⟨dc, authTarget⟩
          · rfl
          · exact getWithClient_congr h.auth ctx req authTarget dc store world

/-- A Get depends on the data clients only through the list it hands to them. -/
theorem get_congr {ctx : Context} {req : GetRequest}
    {store : ContextStore} (h : AgreeAt (handedPaths b s ctx req store) b b')
    (world : World Device) : get b s ctx req store world = get b' s ctx req store world := by
  unfold handedPaths at h
  unfold get
  by_cases htype : req.type ≠ .all
  · rw [if_pos htype, if_pos htype]
  rw [if_neg htype] at h
  rw [if_neg htype, if_neg htype]
  by_cases hpolicy : (s.config.pathzPolicy && decide (req.path ≠ [])) = true
  · rw [if_pos hpolicy, if_pos hpolicy]
    cases getUsername ctx <;> rfl
  · rw [if_neg hpolicy] at h
    rw [if_neg hpolicy, if_neg hpolicy]
    exact getByTarget_congr h world

/-- The requested paths that the policy permits the user to read, in the order
of the request. -/
def permittedPaths (s : Server) (user : String) (req : GetRequest)
    (iteration : Nat → Pathz.Iteration) : List Path :=
  (req.path.mapIdx fun i path =>
      (path, s.pathzProcessor.authorizeWithPrefix user (req.pathPrefix.getD {}) path .read
        (iteration i))).filterMap fun lookup =>
    match lookup.2 with
    | .ok result => if result.action = .permit then some lookup.1 else none
    | .error _ => none

/-- The answer is a status with the code `PermissionDenied`. -/
def GetDenied (run : GetRun Device) : Prop :=
  ∃ message, run.answer = statusError .permissionDenied message

/-- A data client gets exactly the permitted paths, and the request is refused
exactly when there are none. -/
def FiltersPaths (run : GetRun Device) (handed : Option (List Path)) (permitted : List Path) :
    Prop :=
  (∀ paths, handed = some paths → paths = permitted) ∧ (GetDenied run ↔ permitted = [])

/-- **The path policy on Get.**  The handler refuses every request of the
supported type: it filters the paths as it should exactly when none of them is
permitted.  A request of another type is never refused by the policy. -/
theorem get_filters_paths_iff (backend : GetBackend Device) (s : Server) (ctx : Context)
    (req : GetRequest) (user : String) (iteration : Nat → Pathz.Iteration)
    (store : ContextStore) (world : World Device) (hpolicy : s.config.pathzPolicy = true)
    (huser : getUsername ctx = .ok user) (hpaths : req.path ≠ []) :
    FiltersPaths (get backend s ctx req store world) (handedPaths backend s ctx req store)
        (permittedPaths s user req iteration) ↔
      (req.type = .all ↔ permittedPaths s user req iteration = []) := by
  by_cases htype : req.type = .all
  · have hhanded : handedPaths backend s ctx req store = none := by
      simp [handedPaths, htype, hpolicy, hpaths, huser]
    have hdenied : GetDenied (get backend s ctx req store world) := by
      refine ⟨"Unauthorized request. Rejected by pathz policy.", ?_⟩
      simp [get, htype, hpolicy, hpaths, huser]
    simp [FiltersPaths, hhanded, hdenied, htype]
  · have hhanded : handedPaths backend s ctx req store = none := by
      simp [handedPaths, htype]
    have hanswered : ¬ GetDenied (get backend s ctx req store world) := by
      rintro ⟨message, h⟩
      simp [get, htype, statusError] at h
    simp [FiltersPaths, hhanded, hanswered, htype]

def emptyBackend : GetBackend Nat where
  toBackend := countingBackend
  newNonDbClient := fun _ _ => .error "no client"
  newShowClient := fun _ _ => .error "no client"
  newDbClient := fun _ _ => .error "no client"
  isTargetDb := fun _ => none
  newOperationalHandler := fun _ _ => .error "no handler"

def readerServer : Server where
  config := { enableTranslibWrite := true, pathzPolicy := true }
  pathzProcessor := loadedProcessor
    [{ id := "1", principal := some (.user "alice"), action := .permit, mode := .read
       path := { elem := [{ name := "b" }] } }]

def readRequest (name : String) : GetRequest where
  path := [{ elem := [{ name := name }] }]

/-- Alice reads the path that the policy permits, and the request is refused. -/
theorem get_refuses_permitted_path :
    getUsername aliceContext = .ok "alice" ∧
      (permittedPaths readerServer "alice" (readRequest "b")
        fun _ => Pathz.Iteration.stored).length = 1 ∧
      GetDenied (get emptyBackend readerServer aliceContext (readRequest "b") {} quietWorld) ∧
      ¬ FiltersPaths (get emptyBackend readerServer aliceContext (readRequest "b") {} quietWorld)
        (handedPaths emptyBackend readerServer aliceContext (readRequest "b") {})
        (permittedPaths readerServer "alice" (readRequest "b")
          fun _ => Pathz.Iteration.stored) := by
  have hlength : (permittedPaths readerServer "alice" (readRequest "b")
      fun _ => Pathz.Iteration.stored).length = 1 := by
    decide +kernel
  have hdenied : GetDenied
      (get emptyBackend readerServer aliceContext (readRequest "b") {} quietWorld) :=
    ⟨"Unauthorized request. Rejected by pathz policy.", rfl⟩
  refine ⟨by decide +kernel, hlength, hdenied, ?_⟩
  rintro ⟨-, hiff⟩
  rw [hiff.1 hdenied] at hlength
  contradiction

/-- For a path that the policy does not permit the answer is right. -/
theorem get_filters_unpermitted_path :
    FiltersPaths (get emptyBackend readerServer aliceContext (readRequest "a") {} quietWorld)
      (handedPaths emptyBackend readerServer aliceContext (readRequest "a") {})
      (permittedPaths readerServer "alice" (readRequest "a") fun _ => Pathz.Iteration.stored) := by
  refine (get_filters_paths_iff emptyBackend readerServer aliceContext (readRequest "a") "alice"
    (fun _ => Pathz.Iteration.stored) {} quietWorld rfl (by decide +kernel) (by decide)).2 ?_
  refine iff_of_true rfl ?_
  rw [← List.length_eq_zero_iff]
  decide +kernel

end SonicGnmi.GnmiServer
