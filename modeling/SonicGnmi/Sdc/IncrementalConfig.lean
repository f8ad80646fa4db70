import SonicGnmi.Gnmi.Message
import SonicGnmi.Grpc.Status
import SonicGnmi.Sdc.JsonClient

/-!
# Incremental configuration

`SetIncrementalConfig` of `mixed_db_client.go`.  Every delete, replace and
update of a Set is carried out twice: on the shadow document of the JSON client,
which decides whether it is accepted, and as an operation of a JSON patch, which
is what the configuration service gets.

The checkpoint file, the services reached over D-Bus and the order in which a
loop visits the keys of a path element are parameters.
-/

namespace SonicGnmi.Sdc

open Foundation Gnmi Grpc

/-! ## Paths -/

/-- `gnmiFullPath`: the elements after the database and the instance.  A path
without elements has none, even if the prefix has some. -/
def gnmiFullPath (pathPrefix : Option Path) (path : Path) :
    Except String (Option (List PathElem)) :=
  if path.elem.isEmpty then
    .ok none
  else
    let elems := netPath (pathPrefix.getD {}) path
    if elems.length < 2 then
      .error ("Invalid gnmi path: length " ++ toString elems.length)
    else
      .ok (some (elems.drop 2))

/-- `gnmiFullPath` of the path of an update.  It reads the origin of the path
when the prefix has none, which panics when there is no path. -/
def updateFullPath (pathPrefix : Option Path) (path : Option Path) :
    Except Fault (Option (List PathElem)) :=
  match path with
  | none => if (pathPrefix.getD {}).origin = "" then .error (.panic "nil path") else .ok none
  | some path =>
    match gnmiFullPath pathPrefix path with
    | .error e => .error (.plain e)
    | .ok elems => .ok elems

variable (order : RangeOrder String String)

/-- The text of one element: its name, its keys and a slash. -/
def elemText (e : PathElem) : String :=
  e.name ++
    (order.visit e.key).foldl (fun text entry => text ++ "[" ++ entry.1 ++ "=" ++ entry.2 ++ "]")
      "" ++ "/"

/-- The path of a patch operation: the elements are joined as they are. -/
def jsonPath (elems : List PathElem) : String :=
  GoText.trimSuffix (elems.foldl (fun text e => text ++ elemText order e) "/") "/"

/-- The value of a patch operation. -/
def patchValue (t : Option TypedValue) : Except String (Option Json) :=
  match t with
  | none => .ok none
  | some t =>
    match TypedValue.getJsonIetfVal (some t) with
    | .empty => .error "Value encoding is not IETF JSON"
    | text =>
      match text.unmarshal .ok with
      | .error e => .error ("JSON unmarshalling error: " ++ e)
      | .ok json => .ok (some json)

/-- `ConvertToJsonPatch` on the elements of a full path. -/
def convertToJsonPatch (elems : Option (List PathElem))
    (t : Option TypedValue) (operation : PatchOperation) : Except String PatchOp :=
  match patchValue t with
  | .error e => .error e
  | .ok value => .ok { op := operation, path := jsonPath order (elems.getD []), value := value }

/-! ## The three loops -/

/-- The fields of the client that an incremental Set reads: the prefix and, on a
device with several namespaces, the one of the request. -/
structure PatchClient where
  pathPrefix : Option Path := none
  namespaceName : Option String := none
  keyOrder : RangeOrder String String

/-- The shadow document and the patch so far. -/
structure PatchState where
  jsonData : JsonClient.Members
  patchList : List PatchOp := []

variable (c : PatchClient)

/-- Put the path of an operation below the namespace. -/
def PatchClient.inNamespace (op : PatchOp) : PatchOp :=
  match c.namespaceName with
  | none => op
  | some name => { op with path := "/" ++ name ++ op.path }

/-- Emit the operation of an accepted edit. -/
def PatchClient.emit (jsonData : JsonClient.Members)
    (patchList : List PatchOp) (elems : Option (List PathElem)) (t : Option TypedValue)
    (operation : PatchOperation) : Except Fault PatchState :=
  match convertToJsonPatch c.keyOrder elems t operation with
  | .error e => .error (.plain e)
  | .ok op => .ok { jsonData := jsonData, patchList := patchList ++ [c.inNamespace op] }

/-- The names of the elements, `stringSlice`. -/
def elemNames (elems : List PathElem) : List String := elems.map (·.name)

variable (st : PatchState)

/-- One turn of the DELETE loop.  A removal that fails is passed over. -/
def PatchClient.deleteStep (path : Path) : Except Fault PatchState :=
  match gnmiFullPath c.pathPrefix path with
  | .error e => .error (.plain e)
  | .ok none => c.emit st.jsonData st.patchList none none .remove
  | .ok (some elems) =>
    match JsonClient.remove st.jsonData (elemNames elems) with
    | .error _ => .ok st
    | .ok jsonData => c.emit jsonData st.patchList (some elems) none .remove

/-- One turn of the REPLACE loop.  Without a value the shadow document removes
the target, and a removal that fails is passed over. -/
def PatchClient.replaceStep (u : Update) : Except Fault PatchState :=
  match updateFullPath c.pathPrefix u.path with
  | .error e => .error e
  | .ok none => c.emit st.jsonData st.patchList none u.val .replace
  | .ok (some elems) =>
    match u.val with
    | none =>
      match JsonClient.remove st.jsonData (elemNames elems) with
      | .error _ => .ok st
      | .ok jsonData => c.emit jsonData st.patchList (some elems) none .replace
    | some t =>
      match JsonClient.replace st.jsonData (elemNames elems)
          (TypedValue.getJsonIetfVal (some t)) with
      | .error e => .error (.plain e)
      | .ok jsonData => c.emit jsonData st.patchList (some elems) (some t) .replace

/-- One turn of the UPDATE loop. -/
def PatchClient.updateStep (u : Update) : Except Fault PatchState :=
  match updateFullPath c.pathPrefix u.path with
  | .error e => .error e
  | .ok none => c.emit st.jsonData st.patchList none u.val .add
  | .ok (some elems) =>
    match u.val with
    | none => .error (.plain "Invalid update ")
    | some t =>
      match JsonClient.add st.jsonData (elemNames elems)
          (TypedValue.getJsonIetfVal (some t)) with
      | .error e => .error (.plain e)
      | .ok jsonData => c.emit jsonData st.patchList (some elems) (some t) .add

/-- The loops over the three lists of a request. -/
def PatchClient.patchLoops (delete : List Path)
    (replace update : List Update) : Except Fault PatchState :=
  match delete.foldlM c.deleteStep st with
  | .error e => .error e
  | .ok st =>
    match replace.foldlM c.replaceStep st with
    | .error e => .error e
    | .ok st => update.foldlM c.updateStep st

/-- `CHECK_POINT_PATH + "/config.cp.json"`. -/
def checkPointFile : String := "/etc/sonic/config.cp.json"

/-- `SetIncrementalConfig` up to the patch: the shadow document of the checkpoint
and the three loops. -/
def PatchClient.buildPatch (checkpoint : Json) (delete : List Path)
    (replace update : List Update) : Except Fault PatchState :=
  match JsonClient.newJsonClient checkPointFile checkpoint (c.namespaceName.getD "") with
  | .error e => .error (.plain e)
  | .ok jsonData => c.patchLoops { jsonData := jsonData } delete replace update

/-! ## The services -/

/-- The services that an incremental Set calls. -/
structure ConfigService where
  newDbusClient : Except String Unit := .ok ()
  checkDbMultiNamespace : Except String Bool := .ok false
  createCheckPoint : Except String Unit := .ok ()
  /-- The checkpoint file, as it is decoded. -/
  checkPoint : Except String Json
  writePatchFile : Except String Unit := .ok ()
  applyPatchDb : List PatchOp → Except String Unit
  configSave : Except String Unit := .ok ()

/-- A call that changes something outside of the server. -/
inductive ServiceCall where
  | createCheckPoint
  | applyPatchDb (patch : List PatchOp)
  | configSave
  | deleteCheckPoint

variable (service : ConfigService)

/-- The end of `SetIncrementalConfig`: the patch goes to the service. -/
def applyPatchList (origin : String) (patchList : List PatchOp) :
    List ServiceCall × Except Fault Unit :=
  if patchList.isEmpty then
    -- No need to apply patch.
    ([], .ok ())
  else
    match service.writePatchFile with
    | .error e => ([], .error (.plain e))
    | .ok () =>
      let (calls, result) :=
        if origin = "sonic-db" then
          ([ServiceCall.applyPatchDb patchList], service.applyPatchDb patchList)
        else
          ([], .ok ())
      match result with
      | .error e => (calls, .error (.plain e))
      | .ok () =>
        match service.configSave with
        | .error e => (calls ++ [.configSave], .error (.plain e))
        | .ok () => (calls ++ [.configSave], .ok ())

/-- The name of the namespace in the checkpoint: the default one is called
`localhost` there. -/
def gcuNamespace (netns : String) : String := if netns = "" then "localhost" else netns

/-- `SetIncrementalConfig` between the creation and the deletion of the
checkpoint. -/
def patchCheckPoint (c : PatchClient) (origin : String)
    (delete : List Path) (replace update : List Update) : List ServiceCall × Except Fault Unit :=
  match service.checkPoint with
  | .error e => ([], .error (.plain e))
  | .ok checkpoint =>
    match c.buildPatch checkpoint delete replace update with
    | .error e => ([], .error e)
    | .ok st => applyPatchList service origin st.patchList

def setIncrementalConfig (order : RangeOrder String String)
    (origin netns : String) (pathPrefix : Option Path) (delete : List Path)
    (replace update : List Update) : List ServiceCall × Except Fault Unit :=
  match service.newDbusClient with
  | .error e => ([], .error (.plain e))
  | .ok () =>
    match service.checkDbMultiNamespace with
    | .error e => ([], .error (.plain e))
    | .ok multiNs =>
      let c : PatchClient :=
        { pathPrefix := pathPrefix
          namespaceName := if multiNs then some (gcuNamespace netns) else none
          keyOrder := order }
      match service.createCheckPoint with
      | .error e => ([.createCheckPoint], .error (.plain e))
      | .ok () =>
        let (calls, result) := patchCheckPoint service c origin delete replace update
        (.createCheckPoint :: calls ++ [.deleteCheckPoint], result)

theorem applyPatchDb_mem_applyPatchList {service : ConfigService} {origin : String}
    {patchList patch : List PatchOp}
    (h : .applyPatchDb patch ∈ (applyPatchList service origin patchList).1) :
    patchList = patch := by
  unfold applyPatchList at h
  split at h
  · cases h
  split at h
  · cases h
  by_cases horigin : origin = "sonic-db"
  · simp only [horigin, if_true] at h
    split at h
    · simpa [eq_comm] using h
    · split at h <;> simpa [eq_comm] using h
  · simp only [horigin, if_false] at h
    split at h <;> simp at h

/-- The patch service gets the patch of the three loops and nothing else. -/
theorem applyPatchDb_mem_calls {service : ConfigService} {order : RangeOrder String String}
    {origin netns : String} {pathPrefix : Option Path} {delete : List Path}
    {replace update : List Update} {patch : List PatchOp}
    (h : .applyPatchDb patch ∈ (setIncrementalConfig service order origin netns pathPrefix delete
      replace update).1) :
    ∃ multiNs checkpoint st, service.checkDbMultiNamespace = .ok multiNs ∧
      service.checkPoint = .ok checkpoint ∧
      ({ pathPrefix := pathPrefix
         namespaceName := if multiNs then some (gcuNamespace netns) else none
         keyOrder := order } : PatchClient).buildPatch checkpoint delete replace update =
        .ok st ∧ st.patchList = patch := by
  unfold setIncrementalConfig at h
  cases hbus : service.newDbusClient with
  | error e => simp [hbus] at h
  | ok =>
    cases hmulti : service.checkDbMultiNamespace with
    | error e => simp [hbus, hmulti] at h
    | ok multiNs =>
      cases hcreate : service.createCheckPoint with
      | error e => simp [hbus, hmulti, hcreate] at h
      | ok =>
        simp only [hbus, hmulti, hcreate] at h
        generalize hc : ({ pathPrefix := pathPrefix
                           namespaceName :=
                             if multiNs then some (gcuNamespace netns) else none
                           keyOrder := order } : PatchClient) = c at h ⊢
        have hcall : .applyPatchDb patch ∈
            (patchCheckPoint service c origin delete replace update).1 := by
          simpa using h
        cases hpoint : service.checkPoint with
        | error e => simp [patchCheckPoint, hpoint] at hcall
        | ok checkpoint =>
          cases hbuild : c.buildPatch checkpoint delete replace update with
          | error e => simp [patchCheckPoint, hpoint, hbuild] at hcall
          | ok st =>
            simp only [patchCheckPoint, hpoint, hbuild] at hcall
            exact ⟨multiNs, checkpoint, st, rfl, rfl, by rw [hc, hbuild],
              applyPatchDb_mem_applyPatchList hcall⟩

end SonicGnmi.Sdc
