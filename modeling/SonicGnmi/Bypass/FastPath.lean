import SonicGnmi.Bypass.Model
import SonicGnmi.Foundation.Loop

/-!
# What the fast path sends

The two loops of the fast path are one loop over the plans of all operations,
deletes before updates.  The loop sends commands until one of them is refused
or an operation turns out to be invalid; the commands sent before stay.

* `plans`, `trySet_eq` — the fast path as one loop;
* `firstCommand` — the first command that a request asks for;
* `sendAll_issues_iff` — the loop sends something exactly when Redis accepts
  that command;
* `trySet_confined` — what the fast path may write, and when.
-/

namespace SonicGnmi.Bypass

open Foundation Gnmi Grpc List

/-- The plans of all operations of a request. -/
def plans (iteration : Iteration) (pathPrefix : Option Path) (deletes : List Path)
    (updates : List Update) : List (Except String (List Planned)) :=
  deletes.map (deleteCommands pathPrefix) ++ updates.map (updateCommands iteration pathPrefix)

/-- The progress after a command that Redis accepted. -/
def Progress.issue (progress : Progress) (command : Command) : Progress where
  issued := progress.issued ++ [command]
  db := command.apply progress.db

/-- The first command of a list of plans, unless an invalid operation comes
before it. -/
def firstCommand : List (Except String (List Planned)) → Option Command
  | [] => none
  | .error _ :: _ => none
  | .ok [] :: rest => firstCommand rest
  | .ok (planned :: _) :: _ => some planned.command

variable {commands : List Planned}

/-- What each accepted command keeps is kept by the commands of a plan. -/
theorem send_keeps (Inv : Progress → Prop) {link : RedisLink} {progress : Progress}
    (h : Inv progress) (hstep : ∀ planned ∈ commands, ∀ progress, Inv progress →
      Inv (progress.issue planned.command)) : Inv (send link progress commands).1 := by
  induction commands generalizing progress with
  | nil => exact h
  | cons planned rest ih =>
    rw [send]
    split
    · exact h
    · exact ih (hstep planned mem_cons_self progress h) fun other hother =>
        hstep other (mem_cons_of_mem _ hother)

theorem sendAll_keeps (Inv : Progress → Prop) {link : RedisLink} {progress : Progress}
    {plans : List (Except String (List Planned))} (h : Inv progress)
    (hstep : ∀ commands, .ok commands ∈ plans → ∀ planned ∈ commands, ∀ progress, Inv progress →
      Inv (progress.issue planned.command)) : Inv (sendAll link progress plans).1 := by
  induction plans generalizing progress with
  | nil => exact h
  | cons plan rest ih =>
    cases plan with
    | error e => exact h
    | ok commands =>
      have hsend : Inv (send link progress commands).1 :=
        send_keeps Inv h (hstep commands mem_cons_self)
      rw [sendAll]
      split <;> rename_i hsent <;> rw [hsent] at hsend
      · exact hsend
      · exact ih hsend fun other hother => hstep other (mem_cons_of_mem _ hother)

variable (link : RedisLink)

theorem sendAll_issued (progress : Progress) (plans : List (Except String (List Planned))) :
    progress.issued <+: (sendAll link progress plans).1.issued :=
  sendAll_keeps (fun next => progress.issued <+: next.issued) (prefix_refl _)
    fun _ _ _ _ _ h => h.trans (prefix_append _ _)

theorem sendAll_append (progress : Progress) (first second : List (Except String (List Planned))) :
    sendAll link progress (first ++ second) =
      match sendAll link progress first with
      | (progress, .error e) => (progress, .error e)
      | (progress, .ok ()) => sendAll link progress second := by
  induction first generalizing progress with
  | nil => rfl
  | cons plan rest ih =>
    cases plan with
    | error e => rfl
    | ok commands =>
      rw [cons_append, sendAll, sendAll]
      split
      · rfl
      · exact ih _

theorem sendAll_issues_iff (db : Redis.Db) (plans : List (Except String (List Planned))) :
    (sendAll link { db := db } plans).1.issued ≠ [] ↔
      ∃ command, firstCommand plans = some command ∧ link.writeError [command] = none := by
  induction plans with
  | nil => simp [sendAll, firstCommand]
  | cons plan rest ih =>
    cases plan with
    | error e => simp [sendAll, firstCommand]
    | ok commands =>
      cases commands with
      | nil => simpa [sendAll, send, firstCommand] using ih
      | cons planned more =>
        cases hrefused : link.writeError [planned.command] with
        | some e => simp [sendAll, send, firstCommand, hrefused]
        | none =>
          -- The accepted command stays at the head of the list.
          have hnext : sendAll link { db := db } (.ok (planned :: more) :: rest) =
              sendAll link (({ db := db } : Progress).issue planned.command)
                (.ok more :: rest) := by
            simp only [sendAll, send, nil_append, hrefused]
            rfl
          have hall := sendAll_issued link (({ db := db } : Progress).issue planned.command)
            (.ok more :: rest)
          rw [← hnext] at hall
          refine iff_of_true ?_ ⟨planned.command, rfl, hrefused⟩
          intro hempty
          rw [hempty, prefix_nil] at hall
          exact cons_ne_nil _ _ hall

variable {ctx : Context} {db : Redis.Db} {deletes : List Path} {link : RedisLink}
  {pathPrefix : Option Path} {updates : List Update} {progress : Progress}

theorem usesBypass_checks (huses : usesBypass link db ctx pathPrefix deletes updates = true) :
    (hasBypassHeader ctx = true ∧ checkSKU link db = true) ∧
      checkAllowedTables pathPrefix updates = true ∧
      checkAllowedDeletePaths pathPrefix deletes = true := by
  unfold usesBypass at huses
  split at huses
  · contradiction
  rename_i hsome
  rw [Bool.and_eq_true, Bool.or_eq_true, Bool.or_eq_true, shouldBypass, shouldBypassDelete,
    Bool.and_eq_true, Bool.and_eq_true, Bool.and_eq_true, Bool.and_eq_true] at huses
  rcases huses with ⟨hupdates | hupdates, hdeletes | hdeletes⟩
  · exact absurd ⟨isEmpty_iff.1 hupdates, isEmpty_iff.1 hdeletes⟩ hsome
  · rw [isEmpty_iff.1 hupdates]
    exact ⟨hdeletes.1, rfl, hdeletes.2⟩
  · rw [isEmpty_iff.1 hdeletes]
    exact ⟨hupdates.1, hupdates.2, rfl⟩
  · exact ⟨hupdates.1, hupdates.2, hdeletes.2⟩

theorem connect_of_checkSKU (hsku : checkSKU link db = true) : link.connect = .ok () := by
  unfold checkSKU at hsku
  split at hsku
  · assumption
  · contradiction

def response (pathPrefix : Option Path) (deletes : List Path) (updates : List Update) :
    SetResponse where
  pathPrefix := pathPrefix
  response := (deletes.map fun d => { path := some d, op := .delete }) ++
    updates.map fun u => { path := u.path, op := .update }

/-- The fast path as one loop over the plans of all operations, with its
answer. -/
theorem trySet_eq_sendAll (iteration : Iteration)
    (huses : usesBypass link db ctx pathPrefix deletes updates = true) :
    trySet link iteration db ctx pathPrefix deletes updates =
      some ((sendAll link { db := db } (plans iteration pathPrefix deletes updates)).1,
        (sendAll link { db := db } (plans iteration pathPrefix deletes updates)).2.map
          fun _ => response pathPrefix deletes updates) := by
  have hconnect := connect_of_checkSKU (usesBypass_checks huses).1.2
  have hdelete : (if deletes.isEmpty then (({ db := db } : Progress), .ok ())
      else delete link pathPrefix deletes { db := db }) =
      sendAll link { db := db } (deletes.map (deleteCommands pathPrefix)) := by
    cases deletes with
    | nil => rfl
    | cons d rest =>
      simp only [isEmpty_cons, Bool.false_eq_true, if_false]
      simp [delete, hconnect]
  have hupdate : ∀ progress : Progress, (if updates.isEmpty then (progress, .ok ())
        else apply link iteration pathPrefix updates progress) =
      sendAll link progress (updates.map (updateCommands iteration pathPrefix)) := by
    intro progress
    cases updates with
    | nil => rfl
    | cons u rest =>
      simp only [isEmpty_cons, Bool.false_eq_true, if_false]
      simp [apply, hconnect]
  simp only [trySet, if_pos huses]
  rw [hdelete, plans, sendAll_append]
  rcases sendAll link { db := db } (deletes.map (deleteCommands pathPrefix)) with
    ⟨progress, e | ⟨⟩⟩
  · rfl
  · simp only [hupdate]
    rcases sendAll link progress (updates.map (updateCommands iteration pathPrefix)) with
      ⟨progress, e | ⟨⟩⟩ <;> rfl

theorem trySet_eq_none (iteration : Iteration)
    (huses : usesBypass link db ctx pathPrefix deletes updates = false) :
    trySet link iteration db ctx pathPrefix deletes updates = none := by
  unfold trySet
  rw [if_neg (by simp [huses])]

/-! ## Runs to the end -/

/-- The command as Redis knows it. -/
@[simp] def Command.toRedis : Command → Redis.Command
  | .hset key fields => .hset key fields
  | .del key => .del key

theorem Command.apply_eq_exec (db : Redis.Db) (command : Command) :
    command.apply db = db.exec command.toRedis := by
  cases command <;> rfl

def planCommands : Except String (List Planned) → List Redis.Command
  | .ok commands => commands.map (·.command.toRedis)
  | .error _ => []

theorem send_ok {progress' : Progress} (h : send link progress commands = (progress', .ok ())) :
    progress'.db = (commands.map (·.command.toRedis)).foldl Redis.Db.exec progress.db := by
  induction commands generalizing progress with
  | nil =>
    cases h
    rfl
  | cons planned rest ih =>
    rw [send] at h
    split at h
    · cases h
    · rw [ih h, map_cons, foldl_cons, Command.apply_eq_exec]

theorem sendAll_ok {progress' : Progress} {plans : List (Except String (List Planned))}
    (h : sendAll link progress plans = (progress', .ok ())) :
    progress'.db = (plans.flatMap planCommands).foldl Redis.Db.exec progress.db := by
  induction plans generalizing progress with
  | nil =>
    cases h
    rfl
  | cons plan rest ih =>
    cases plan with
    | error e => cases h
    | ok commands =>
      rw [sendAll] at h
      split at h
      · cases h
      · rename_i progress₁ hsend
        rw [flatMap_cons, foldl_append, ih h, send_ok hsend]
        rfl

variable {iteration : Iteration}

/-- A request that was answered without an error has been carried out. -/
theorem trySet_ok {resp : SetResponse}
    (h : trySet link iteration db ctx pathPrefix deletes updates = some (progress, .ok resp)) :
    sendAll link { db := db } (plans iteration pathPrefix deletes updates) =
      (progress, .ok ()) := by
  cases huses : usesBypass link db ctx pathPrefix deletes updates with
  | false =>
    rw [trySet_eq_none iteration huses] at h
    cases h
  | true =>
    rw [trySet_eq_sendAll iteration huses, Option.some.injEq] at h
    rcases hsend : sendAll link { db := db } (plans iteration pathPrefix deletes updates) with
      ⟨progress', e | ⟨⟩⟩ <;> rw [hsend] at h
    · cases h
    · cases h
      rfl

/-! ## A Redis that refuses nothing -/

/-- The commands of a plan, or its rejection. -/
def planSteps : Except String (List Planned) → List (Except String Redis.Command)
  | .ok commands => (commands.map (·.command.toRedis)).map .ok
  | .error e => [.error e]

theorem send_eq (hlink : ∀ commands, link.writeError commands = none)
    (progress : Progress) (commands : List Planned) :
    (send link progress commands).2 = .ok () ∧ (send link progress commands).1.db =
        (commands.map (·.command.toRedis)).foldl Redis.Db.exec progress.db := by
  induction commands generalizing progress with
  | nil => exact ⟨rfl, rfl⟩
  | cons planned rest ih =>
    rw [send, hlink, map_cons, foldl_cons, ← Command.apply_eq_exec]
    exact ih _

/-- The loop carries out the commands of all plans up to the first invalid
operation. -/
theorem sendAll_eq_runChecked (hlink : ∀ commands, link.writeError commands = none)
    (progress : Progress) (plans : List (Except String (List Planned))) :
    ((sendAll link progress plans).1.db, (sendAll link progress plans).2) =
      Loop.runChecked Redis.Db.exec progress.db (plans.flatMap planSteps) := by
  induction plans generalizing progress with
  | nil => rfl
  | cons plan rest ih =>
    cases plan with
    | error e => rfl
    | ok commands =>
      obtain ⟨hok, hdb⟩ := send_eq hlink progress commands
      rw [flatMap_cons, Loop.runChecked_append, planSteps, Loop.runChecked_map_ok, ← hdb, sendAll]
      rcases hsend : send link progress commands with ⟨progress₁, e | ⟨⟩⟩
      · rw [hsend] at hok
        cases hok
      · exact ih progress₁

/-! ## Confinement -/

def Command.key : Command → String
  | .hset key _ => key
  | .del key => key

/-- The commands that Redis carried out for a request. -/
def issuedBy : Option (Progress × Except String SetResponse) → List Command
  | none => []
  | some (progress, _) => progress.issued

/-- CONFIG_DB after a request. -/
def contentAfter (db : Redis.Db) : Option (Progress × Except String SetResponse) → Redis.Db
  | none => db
  | some (progress, _) => progress.db

/-- The key of an entry of a table that the fast path may write. -/
def IsAllowedKey (key : String) : Prop :=
  ∃ table ∈ allowedTables, ∃ rest, key = table ++ "|" ++ rest

variable {planned : Planned}

theorem updateCommands_hset {u : Update} (h : updateCommands iteration pathPrefix u = .ok commands)
    (hmem : planned ∈ commands) :
    ∃ rest fields, planned.command =
      .hset ((parsePath pathPrefix u.path).table ++ "|" ++ rest) fields := by
  simp only [updateCommands] at h
  split at h
  · cases h
  split at h
  -- The key is missing: a bulk update of the table.
  · split at h
    · cases h
    split at h <;> cases h
    obtain ⟨entry, -, rfl⟩ := mem_map.1 hmem
    exact ⟨_, _, rfl⟩
  · split at h
    -- No JSON: a scalar for a field, or nothing.
    · split at h <;> cases h
      · cases mem_singleton.1 hmem
        exact ⟨_, _, rfl⟩
      · cases hmem
    · split at h <;> cases h
      cases mem_singleton.1 hmem
      exact ⟨_, _, rfl⟩

theorem deleteCommands_del {path : Path} (h : deleteCommands pathPrefix path = .ok commands)
    (hmem : planned ∈ commands) :
    ∃ rest, planned.command = .del ((parsePath pathPrefix (some path)).table ++ "|" ++ rest) := by
  simp only [deleteCommands] at h
  split at h <;> cases h
  cases mem_singleton.1 hmem
  exact ⟨_, rfl⟩

/-- The two parsers of a path agree on its table. -/
theorem parsePath_table (pathPrefix path : Option Path) :
    (parsePath pathPrefix path).table = extractTable pathPrefix path := by
  rw [parsePath, extractTable]
  cases pathParts pathPrefix path <;> rfl

theorem isAllowedKey_of_path {path : Option Path} (h : isAllowedPath pathPrefix path = true)
    (rest : String) : IsAllowedKey ((parsePath pathPrefix path).table ++ "|" ++ rest) := by
  rw [isAllowedPath, Bool.and_eq_true, contains_iff_mem, ← parsePath_table] at h
  exact ⟨_, h.2, rest, rfl⟩

theorem plans_allowed (huses : usesBypass link db ctx pathPrefix deletes updates = true)
    (hplan : .ok commands ∈ plans iteration pathPrefix deletes updates)
    (hmem : planned ∈ commands) : IsAllowedKey planned.command.key := by
  obtain ⟨-, hupdates, hdeletes⟩ := usesBypass_checks huses
  rcases mem_append.1 hplan with hplan | hplan
  · obtain ⟨path, hpath, hplan⟩ := mem_map.1 hplan
    obtain ⟨rest, hcommand⟩ := deleteCommands_del hplan hmem
    rw [hcommand]
    exact isAllowedKey_of_path (all_eq_true.1 hdeletes path hpath) rest
  · obtain ⟨u, hu, hplan⟩ := mem_map.1 hplan
    obtain ⟨rest, fields, hcommand⟩ := updateCommands_hset hplan hmem
    rw [hcommand]
    exact isAllowedKey_of_path (all_eq_true.1 hupdates u hu) rest

/-- The commands so far explain the content, and all of them are allowed. -/
def Progress.Confined (db : Redis.Db) (progress : Progress) : Prop :=
  progress.db = progress.issued.foldl Command.apply db ∧
    ∀ command ∈ progress.issued, IsAllowedKey command.key

theorem Progress.Confined.issue {command : Command} (h : progress.Confined db)
    (hkey : IsAllowedKey command.key) : (progress.issue command).Confined db := by
  refine ⟨?_, ?_⟩
  · rw [Progress.issue, foldl_append, ← h.1]
    rfl
  intro other hother
  rcases mem_append.1 hother with hother | hother
  · exact h.2 other hother
  · rw [mem_singleton.1 hother]
    exact hkey

theorem hasBypassHeader_iff :
    hasBypassHeader ctx = true ↔
      ∃ md, ctx.metadata = some md ∧ md metadataKeyBypassValidation = some "true" := by
  unfold hasBypassHeader
  cases ctx.metadata <;> simp

theorem hwsku_of_checkSKU (h : checkSKU link db = true) :
    ∃ hwsku, (db.hash "DEVICE_METADATA|localhost").lookup "hwsku" = some hwsku ∧
      ∃ head ∈ allowedSKUPrefixes, ∃ rest, hwsku = head ++ rest := by
  unfold checkSKU at h
  split at h
  · split at h
    · contradiction
    · rename_i hwsku hfound
      obtain ⟨head, hhead, hstart⟩ := any_eq_true.1 h
      exact ⟨hwsku, hfound, head, hhead, GoText.hasPrefix_iff.1 hstart⟩
  · contradiction

/-- **Confinement of the fast path.**  CONFIG_DB changes by the issued commands only.
Whenever there is one, the header is set, the device has an allowed SKU and the
command is about an entry of an allowed table; a request that the fast path leaves
alone issues none. -/
theorem trySet_confined (link : RedisLink) (iteration : Iteration) (db : Redis.Db)
    (ctx : Context) (pathPrefix : Option Path) (deletes : List Path) (updates : List Update) :
    let result := trySet link iteration db ctx pathPrefix deletes updates
    contentAfter db result = (issuedBy result).foldl Command.apply db ∧
      (∀ command ∈ issuedBy result,
        (∃ md, ctx.metadata = some md ∧ md metadataKeyBypassValidation = some "true") ∧
        (∃ hwsku, (db.hash "DEVICE_METADATA|localhost").lookup "hwsku" = some hwsku ∧
          ∃ head ∈ allowedSKUPrefixes, ∃ rest, hwsku = head ++ rest) ∧
        IsAllowedKey command.key) ∧
      (result = none → issuedBy result = [] ∧ contentAfter db result = db) := by
  intro result
  cases huses : usesBypass link db ctx pathPrefix deletes updates with
  | false =>
    have hnone : result = none := trySet_eq_none iteration huses
    rw [hnone]
    exact ⟨rfl, fun command h => (List.not_mem_nil h).elim, fun _ => ⟨rfl, rfl⟩⟩
  | true =>
    have hsome := trySet_eq_sendAll iteration huses
    have hkept : Progress.Confined db
        (sendAll link { db := db } (plans iteration pathPrefix deletes updates)).1 :=
      sendAll_keeps (Progress.Confined db) ⟨rfl, fun command h => (List.not_mem_nil h).elim⟩
        fun _ hplan _ hmem _ h => h.issue (plans_allowed huses hplan hmem)
    obtain ⟨⟨hheader, hsku⟩, -⟩ := usesBypass_checks huses
    refine ⟨?_, ?_, ?_⟩
    · rw [show result = _ from hsome]
      exact hkept.1
    · intro command hcommand
      rw [show result = _ from hsome] at hcommand
      exact ⟨hasBypassHeader_iff.1 hheader, hwsku_of_checkSKU hsku, hkept.2 command hcommand⟩
    · intro hnone
      cases hsome.symm.trans hnone

end SonicGnmi.Bypass
