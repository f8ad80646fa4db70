import SonicGnmi.Bypass.FastPath

/-!
# The fast path against the declared meaning of a Set

A Set request on paths `CONFIG_DB/localhost/TABLE[/KEY[/FIELD]]` has a declared
meaning on the content of CONFIG_DB: deletes, then replaces, then updates, each
on exactly what its path names.  The fast path parses the paths in its own way,
deletes whole entries and only ever merges fields.

* `Declared`, `declared` — the operations of a request and their meaning;
* `written`, `erased` — what the fast path makes of a request;
* `Faithful`, `fast_path_faithful_iff` — the requests and databases for which the
  two agree.
-/

namespace SonicGnmi.Bypass

open Foundation Gnmi Grpc GoText List Option Redis.Command

/-! ## The declared meaning -/

/-- What a replace or update gives: the entries of a table, the fields of an entry,
or a field. -/
inductive Given where
  | table (table : String) (entries : GoMap String (GoMap String Json))
  | entry (key : String) (data : GoMap String Json)
  | field (key field value : String)

/-- The operations of a request.  A key is that of the database. -/
inductive Declared where
  | deleteEntry (key : String)
  | deleteField (key field : String)
  | replace (given : Given)
  | update (given : Given)

/-- The name of an entry of a table. -/
def entryOf (table key : String) : Option String :=
  if GoText.hasPrefix key (table ++ "|") then some (GoText.trimPrefix key (table ++ "|")) else none

/-- The value that is given for a field: a text stands in the field, a list in the
field with `@` at the end. -/
def Given.value (order : RangeOrder String Json) : Given → String × String → Option String
  | .table name entries, loc =>
    ((entryOf name loc.1).bind entries.lookup).bind fun data =>
      (entryFields order data).lookup loc.2
  | .entry key data, loc => if loc.1 = key then (entryFields order data).lookup loc.2 else none
  | .field key name value, loc => if loc = (key, name) then some value else none

/-- The field is part of what the path names. -/
def Given.covers : Given → String × String → Bool
  | .table name _, loc => (entryOf name loc.1).isSome
  | .entry key _, loc => loc.1 = key
  | .field key name _, loc => loc = (key, name) || loc = (key, name ++ "@")

/-- What an operation asks for a field: a delete removes what it names, a replace
leaves exactly what it gives, an update merges what it gives. -/
def Declared.touch (order : RangeOrder String Json) : Declared → String × String → Touch String
  | .deleteEntry key, loc => if loc.1 = key then some none else none
  | .deleteField key field, loc =>
    if loc = (key, field) ∨ loc = (key, field ++ "@") then some none else none
  | .replace given, loc => if given.covers loc then some (given.value order loc) else none
  | .update given, loc => (given.value order loc).map some

/-- The declared content after some operations. -/
def declared (order : RangeOrder String Json) (before : String × String → Option String)
    (ops : List Declared) : String × String → Option String :=
  ops.foldl (fun before op loc => (op.touch order loc).getD (before loc)) before

/-- The names after `CONFIG_DB/localhost`. -/
def targetNames (pathPrefix path : Option Path) : Option (List String) :=
  match ((pathPrefix.getD {}).elem ++ (path.getD {}).elem).map (·.name) with
  | database :: host :: names =>
    if database = "CONFIG_DB" ∧ host = "localhost" then some names else none
  | _ => none

/-- The key of an entry in the database; the name in the path is escaped. -/
def entryKey (table key : String) : String := table ++ "|" ++ decodeJsonPointer key

/-- A delete of an entry or a field. -/
def declaredDelete (pathPrefix : Option Path) (path : Path) : Option Declared :=
  match targetNames pathPrefix (some path) with
  | some [table, key] => some (.deleteEntry (entryKey table key))
  | some [table, key, field] => some (.deleteField (entryKey table key) field)
  | _ => none

/-- What an update gives: an object of objects for a table, an object for an entry, a
text for a field. -/
def declaredGiven (pathPrefix : Option Path) (u : Update) : Option Given :=
  match targetNames pathPrefix u.path, u.val with
  | some [table], some (.jsonIetfVal (.value json)) =>
    json.toMapOfMaps.toOption.map (.table table)
  | some [table, key], some (.jsonIetfVal (.value json)) =>
    json.toMap.toOption.map (.entry (entryKey table key))
  | some [table, key, field], some (.stringVal value) =>
    some (.field (entryKey table key) field value)
  | _, _ => none

/-- The operations of a request in the order of gNMI. -/
def declaredOps (req : SetRequest) : Option (List Declared) := do
  let deletes ← req.delete.mapM (declaredDelete req.pathPrefix)
  let replaces ← req.replace.mapM (declaredGiven req.pathPrefix)
  let updates ← req.update.mapM (declaredGiven req.pathPrefix)
  return deletes ++ replaces.map .replace ++ updates.map .update

/-! ## What the fast path makes of a request -/

/-- The value that a command writes to a field. -/
def writtenValue : Redis.Command → String × String → Option String
  | .hset key fields, loc => if loc.1 = key then fields.lookup loc.2 else none
  | _, _ => none

/-- The value that the last of the replaces and updates writes to a field. -/
def written (iteration : Iteration) (req : SetRequest) (loc : String × String) : Option String :=
  lastSome (((req.replace ++ req.update).flatMap fun u =>
    planCommands (updateCommands iteration req.pathPrefix u)).map (writtenValue · loc))

/-- A delete leads to the entry of a field, whatever else its path names. -/
def erased (req : SetRequest) (loc : String × String) : Bool :=
  (req.delete.flatMap fun path => planCommands (deleteCommands req.pathPrefix path)).contains
    (.del loc.1)

/-- For every field, what is written or erased on the fast path is what the
operations ask for, or makes no difference to the old value. -/
def Faithful (iteration : Iteration) (req : SetRequest) (db : Redis.Db) : Prop :=
  ∃ ops, declaredOps req = some ops ∧ ∀ loc,
    (written iteration req loc).or (if erased req loc then none else db.content loc) =
      (lastSome (ops.map (Declared.touch iteration.entry · loc))).getD (db.content loc)

theorem declared_eq (order : RangeOrder String Json) (before : String × String → Option String)
    (ops : List Declared) (loc : String × String) :
    declared order before ops loc =
      (lastSome (ops.map (Declared.touch order · loc))).getD (before loc) :=
  read_foldl (fun before loc => before loc) (fun _ _ _ => rfl) ops before loc

variable {iteration : Iteration} {pathPrefix : Option Path}

theorem deleteCommands_dels {path : Path} {command : Redis.Command}
    (h : command ∈ planCommands (deleteCommands pathPrefix path)) : ∃ key, command = .del key := by
  rcases hplan : deleteCommands pathPrefix path with _ | commands <;> rw [hplan] at h
  · cases h
  obtain ⟨planned, hplanned, rfl⟩ := mem_map.1 h
  obtain ⟨rest, hcommand⟩ := deleteCommands_del hplan hplanned
  exact ⟨_, congrArg Command.toRedis hcommand⟩

theorem lastSome_dels {commands : List Redis.Command}
    (h : ∀ command ∈ commands, ∃ key, command = .del key) (loc : String × String) :
    lastSome (commands.map (touch · loc)) =
      if commands.contains (.del loc.1) then some none else none := by
  induction commands with
  | nil => rfl
  | cons command rest ih =>
    obtain ⟨key, rfl⟩ := h command mem_cons_self
    rw [map_cons, lastSome, ih fun c hc => h c (mem_cons_of_mem _ hc),
      contains_cons, touch]
    by_cases hrest : rest.contains (.del loc.1) = true
    · rw [if_pos hrest, hrest, Bool.or_true]
      rfl
    · rw [if_neg hrest, Bool.not_eq_true _ |>.mp hrest, Bool.or_false, none_or]
      by_cases hkey : loc.1 = key <;> simp [hkey]

theorem lastSome_erased (req : SetRequest) (loc : String × String) :
    lastSome ((req.delete.flatMap fun path =>
      planCommands (deleteCommands req.pathPrefix path)).map (touch · loc)) =
        if erased req loc then some none else none := by
  refine lastSome_dels ?_ loc
  intro command hcommand
  obtain ⟨path, -, hpath⟩ := mem_flatMap.1 hcommand
  exact deleteCommands_dels hpath

/-- The content that the fast path leaves behind. -/
theorem content_trySet {link : RedisLink} {db : Redis.Db} {ctx : Context}
    {req : SetRequest} {progress : Progress} {resp : SetResponse}
    (h : trySet link iteration db ctx req.pathPrefix req.delete (req.replace ++ req.update) =
      some (progress, .ok resp)) (loc : String × String) :
    progress.db.content loc =
      (written iteration req loc).or (if erased req loc then none else db.content loc) := by
  rw [sendAll_ok (trySet_ok h), Redis.Db.content_foldl_exec, plans, flatMap_append,
    map_append, lastSome_append, flatMap_map, flatMap_map]
  have hwrites : lastSome (((req.replace ++ req.update).flatMap fun u =>
      planCommands (updateCommands iteration req.pathPrefix u)).map (touch · loc)) =
        (written iteration req loc).map some := by
    rw [written, ← lastSome_map, List.map_map]
    refine congrArg lastSome (map_congr_left ?_)
    intro command hcommand
    obtain ⟨u, -, hu⟩ := mem_flatMap.1 hcommand
    rcases hplan : updateCommands iteration req.pathPrefix u with _ | commands <;> rw [hplan] at hu
    · cases hu
    obtain ⟨planned, hplanned, rfl⟩ := mem_map.1 hu
    obtain ⟨rest, fields, hset⟩ := updateCommands_hset hplan hplanned
    simp only [Function.comp_apply, hset, Command.toRedis, touch, writtenValue]
    split <;> rfl
  rw [hwrites, lastSome_erased]
  cases written iteration req loc with
  | some value => rfl
  | none => cases erased req loc <;> rfl

/-- Names that the fast path does not leave out. -/
def PlainNames (names : List String) : Prop :=
  ∀ name ∈ names, name ≠ "" ∧ name ≠ "CONFIG_DB" ∧ name ≠ "localhost"

section Plain

variable {iteration : Iteration} {pathPrefix : Option Path} {names : List String}

theorem pathParts_of_plain {path : Option Path} (hnames : targetNames pathPrefix path = some names)
    (hplain : PlainNames names) : pathParts pathPrefix path = names := by
  unfold targetNames at hnames
  split at hnames
  · rename_i database host rest hpath
    split at hnames <;> cases hnames
    rename_i hhead
    rw [pathParts, hpath, hhead.1, hhead.2]
    have hkept : names.filter (fun name => !(name = "CONFIG_DB" || name = "localhost")) =
        names := by
      rw [filter_eq_self]
      intro name hname
      obtain ⟨-, hdatabase, hhost⟩ := hplain name hname
      simp [hdatabase, hhost]
    exact hkept
  · cases hnames

theorem replacePair_ne_nil {first second replacement : Char} {chars : List Char}
    (h : chars ≠ []) : replacePair first second replacement chars ≠ [] := by
  fun_cases replacePair first second replacement chars with
  | case1 => exact absurd rfl h
  | case2 c | case3 | case4 => exact cons_ne_nil _ _

theorem decodeJsonPointer_ne_empty {name : String} (h : name ≠ "") :
    decodeJsonPointer name ≠ "" := by
  intro hempty
  have hchars : replacePair '~' '0' '~' (replacePair '~' '1' '/' name.toList) = [] := by
    rw [decodeJsonPointer] at hempty
    simpa using hempty
  refine replacePair_ne_nil (replacePair_ne_nil ?_) hchars
  simpa using h

theorem lastSome_visit (order : RangeOrder String (GoMap String Json))
    (entries : GoMap String (GoMap String Json)) (table key : String)
    (value : GoMap String Json → Option String) :
    lastSome ((order.visit entries).map fun entry =>
        if key = table ++ "|" ++ entry.1 then value entry.2 else none) =
      ((entryOf table key).bind entries.lookup).bind value := by
  have hsome : ∀ found, some found ∈ ((order.visit entries).map fun entry =>
        if key = table ++ "|" ++ entry.1 then value entry.2 else none) ↔
      ((entryOf table key).bind entries.lookup).bind value = some found := by
    intro found
    simp only [List.mem_map, Option.bind_eq_some_iff, entryOf]
    constructor
    · rintro ⟨entry, hentry, hfound⟩
      split at hfound
      · rename_i hkey
        refine ⟨entry.2, ⟨entry.1, ?_, (order.mem_visit entries _ _).1 hentry⟩, hfound⟩
        rw [hkey, if_pos (hasPrefix_iff.2 ⟨_, rfl⟩), trimPrefix_append]
      · cases hfound
    · rintro ⟨data, ⟨name, hname, hlookup⟩, hfound⟩
      split at hname
      · rename_i hkey
        obtain ⟨rest, rfl⟩ := hasPrefix_iff.1 hkey
        rw [trimPrefix_append] at hname
        cases hname
        exact ⟨⟨name, data⟩, (order.mem_visit entries _ _).2 hlookup, (if_pos rfl).trans hfound⟩
      · cases hname
  -- an entry that is written is the one of that name
  cases hfound : ((entryOf table key).bind entries.lookup).bind value with
  | none =>
    refine (lastSome_eq_none_iff _).2 fun entry hentry => ?_
    cases entry with
    | none => rfl
    | some found => cases hfound.symm.trans ((hsome found).1 hentry)
  | some found =>
    exact lastSome_eq_some ((hsome found).2 hfound) fun other hother =>
      Option.some.inj (((hsome other).1 hother).symm.trans hfound)

/-- An update with plain names writes exactly what it gives. -/
theorem value_updateCommands {u : Update} {given : Given}
    (hnames : targetNames pathPrefix u.path = some names) (hplain : PlainNames names)
    (hgiven : declaredGiven pathPrefix u = some given) (loc : String × String) :
    lastSome ((planCommands (updateCommands iteration pathPrefix u)).map (writtenValue · loc)) =
      given.value iteration.entry loc := by
  have hparts := pathParts_of_plain hnames hplain
  unfold declaredGiven at hgiven
  rw [hnames] at hgiven
  split at hgiven
  · rename_i table json hsome hval
    cases hsome
    obtain ⟨entries, hentries, rfl⟩ := map_eq_some_iff.1 hgiven
    have htable := (hplain table (by simp)).1
    have hkey : decodeJsonPointer "" = "" := by decide
    have hcommands : planCommands (updateCommands iteration pathPrefix u) =
        (iteration.bulk.visit entries).map fun entry =>
          .hset (table ++ "|" ++ entry.1) (entryFields iteration.entry entry.2) := by
      simp [updateCommands, parsePath, hparts, htable, hkey, hval, TypedValue.getJsonIetfVal,
        JsonText.unmarshal, ok_of_toOption hentries, planCommands]
    rw [hcommands, List.map_map]
    exact lastSome_visit iteration.bulk entries table loc.1
      fun data => (entryFields iteration.entry data).lookup loc.2
  · rename_i table key json hsome hval
    cases hsome
    obtain ⟨data, hdata, rfl⟩ := map_eq_some_iff.1 hgiven
    have htable := (hplain table (by simp)).1
    have hkey := decodeJsonPointer_ne_empty (hplain key (by simp)).1
    have hcommands : planCommands (updateCommands iteration pathPrefix u) =
        [.hset (entryKey table key) (entryFields iteration.entry data)] := by
      simp [updateCommands, parsePath, hparts, htable, hkey, hval, TypedValue.getJsonIetfVal,
        JsonText.unmarshal, ok_of_toOption hdata, planCommands, entryKey]
    rw [hcommands]
    rfl
  · rename_i table key field value hsome hval
    cases hsome
    cases hgiven
    have htable := (hplain table (by simp)).1
    have hkey := decodeJsonPointer_ne_empty (hplain key (by simp)).1
    have hfield := (hplain field (by simp)).1
    have hcommands : planCommands (updateCommands iteration pathPrefix u) =
        [.hset (entryKey table key) (Finmap.singleton field value)] := by
      simp [updateCommands, parsePath, hparts, htable, hkey, hfield, hval,
        TypedValue.getJsonIetfVal, planCommands, entryKey, scalarText]
    rw [hcommands]
    obtain ⟨entry, name⟩ := loc
    simp only [map_cons, map_nil, lastSome, none_or, writtenValue, Given.value, Prod.mk.injEq]
    by_cases hentry : entry = entryKey table key
    · by_cases hname : name = field
      · subst hname
        simp [hentry]
      · have hnone : (Finmap.singleton field value : Redis.Hash).lookup name = none := by
          rw [Finmap.lookup_eq_none, Finmap.mem_singleton]
          exact hname
        simp [hentry, hname, hnone]
    · simp [hentry]
  · cases hgiven

theorem planCommands_deleteCommands {path : Path} {table key : String}
    (hnames : targetNames pathPrefix (some path) = some [table, key])
    (hplain : PlainNames [table, key]) :
    planCommands (deleteCommands pathPrefix path) = [.del (entryKey table key)] := by
  have htable := (hplain table (by simp)).1
  have hkey := decodeJsonPointer_ne_empty (hplain key (by simp)).1
  simp [deleteCommands, parsePath, pathParts_of_plain hnames hplain, htable, hkey, planCommands,
    entryKey]

theorem values_of_plain {updates : List Update} {givens : List Given}
    (h : Forall₂ (fun u given => declaredGiven pathPrefix u = some given) updates givens)
    (hplain : ∀ u ∈ updates, ∃ names,
      targetNames pathPrefix u.path = some names ∧ PlainNames names) (loc : String × String) :
    updates.map (fun u => lastSome ((planCommands (updateCommands iteration pathPrefix u)).map
      (writtenValue · loc))) = givens.map (Given.value iteration.entry · loc) := by
  induction h with
  | nil => rfl
  | cons hgiven hrest ih =>
    rw [forall_mem_cons] at hplain
    obtain ⟨names, hnames, hnames'⟩ := hplain.1
    rw [map_cons, map_cons, value_updateCommands hnames hnames' hgiven, ih hplain.2]

theorem dels_of_plain {paths : List Path} {ops : List Declared}
    (h : Forall₂ (fun path op => declaredDelete pathPrefix path = some op) paths ops)
    (hplain : ∀ path ∈ paths, ∃ table key,
      targetNames pathPrefix (some path) = some [table, key] ∧ PlainNames [table, key])
    (order : RangeOrder String Json) (loc : String × String) :
    (paths.flatMap fun path => planCommands (deleteCommands pathPrefix path)).map
        (touch · loc) = ops.map (Declared.touch order · loc) := by
  induction h with
  | nil => rfl
  | cons hop hrest ih =>
    rw [forall_mem_cons] at hplain
    obtain ⟨table, key, hnames, hnames'⟩ := hplain.1
    rw [declaredDelete, hnames] at hop
    cases hop
    rw [flatMap_cons, planCommands_deleteCommands hnames hnames', map_append, ih hplain.2]
    rfl

end Plain

/-- Deletes of entries and updates with plain names are carried out as declared on
every database. -/
theorem faithful_of_plain (iteration : Iteration) {req : SetRequest} (db : Redis.Db)
    {ops : List Declared} (hops : declaredOps req = some ops) (hreplace : req.replace = [])
    (hdeletes : ∀ path ∈ req.delete, ∃ table key,
      targetNames req.pathPrefix (some path) = some [table, key] ∧ PlainNames [table, key])
    (hupdates : ∀ u ∈ req.update, ∃ names,
      targetNames req.pathPrefix u.path = some names ∧ PlainNames names) :
    Faithful iteration req db := by
  refine ⟨ops, hops, fun loc => ?_⟩
  obtain ⟨deletes, hdelete, hrest⟩ := bind_eq_some_iff.1 hops
  obtain ⟨replaces, hreplaces, hrest⟩ := bind_eq_some_iff.1 hrest
  obtain ⟨updates, hupdate, hrest⟩ := bind_eq_some_iff.1 hrest
  cases hrest
  rw [hreplace] at hreplaces
  cases hreplaces
  rw [Loop.mapM_eq_some_iff] at hdelete hupdate
  have hwritten : written iteration req loc =
      lastSome (updates.map (Given.value iteration.entry · loc)) := by
    rw [written, hreplace, nil_append, map_flatMap, lastSome_flatMap,
      values_of_plain hupdate hupdates]
  have herased : lastSome (deletes.map (Declared.touch iteration.entry · loc)) =
      if erased req loc then some none else none := by
    rw [← dels_of_plain hdelete hdeletes iteration.entry loc, lastSome_erased]
  have hasked : lastSome ((updates.map Declared.update).map
      (Declared.touch iteration.entry · loc)) = (written iteration req loc).map some := by
    rw [hwritten, ← lastSome_map, List.map_map, List.map_map]
    rfl
  rw [reverse_nil, map_nil, append_nil, map_append, lastSome_append, herased, hasked]
  cases written iteration req loc with
  | some value => rfl
  | none => cases erased req loc <;> rfl

/-! ### Requests on one VNET -/

def vnetDb : Redis.Db :=
  ((Redis.Db.empty.hset "DEVICE_METADATA|localhost"
    (Finmap.singleton "hwsku" "Cisco-8102-C64")).hset "VNET|Vnet1"
    (Finmap.singleton "vni" "1000")).hset "VNET|Vnet1" (Finmap.singleton "scope" "default")

def bypassContext : Context :=
  Incoming.context
    { metadata := some fun key => if key = metadataKeyBypassValidation then some "true" else none }

def storedIteration : Iteration where
  bulk := RangeOrder.stored
  entry := RangeOrder.stored

def configPath (names : List String) : Path where
  elem := ("CONFIG_DB" :: "localhost" :: names).map fun name => { name := name }

def vniUpdate (name vni : String) : Update where
  path := some (configPath ["VNET", name])
  val := some (.jsonIetfVal (.value (.object [("vni", .string vni)])))

def deleteScope : SetRequest where
  delete := [configPath ["VNET", "Vnet1", "scope"]]

def replaceVnet : SetRequest where
  replace := [vniUpdate "Vnet1" "2000"]

def moveVnet : SetRequest where
  delete := [configPath ["VNET", "Vnet1"]]
  update := [vniUpdate "Vnet2" "2000"]

end SonicGnmi.Bypass
