import SonicGnmi.Gnoi.File

/-!
# A verified file is put in place by a rename

`HandlePut` writes what it receives to a temporary file beside the target and renames
this file once the MD5 sum is right.  The temporary file is opened through a link if its
path names one, and then the contents go to where the link leads.

* `received`, `Verified` — what a stream sends, and when its hash is right;
* `putLoop_spec` — the loop writes what is received;
* `AtomicPut` — what a client expects of a call;
* `handlePut_atomic_iff` — exactly when a call does this.
-/

namespace SonicGnmi.Gnoi

open Foundation Grpc FileState FileSystem Function Option

/-! ## What a stream sends -/

/-- The contents at the beginning of a stream. -/
def received : List PutEvent → String
  | .message (.contents chunk) :: rest => chunk ++ received rest
  | _ => ""

/-- A stream sends the contents of a body in chunks, and then its hash. -/
def Verified (md5 : String → String) (events : List PutEvent) (body : String) : Prop :=
  ∃ chunks rest, events = (chunks.map fun chunk => .message (.contents chunk)) ++
      .message (.hash (md5 body)) :: rest ∧ String.join chunks = body

variable {events : List PutEvent} {md5 : String → String} {file : Location} {path : String}
  {st : FileState}

theorem Verified.received_eq {body : String}
    (h : Verified md5 events body) : received events = body := by
  obtain ⟨chunks, rest, rfl, rfl⟩ := h
  generalize md5 (String.join chunks) = value
  induction chunks with
  | nil => rfl
  | cons chunk chunks ih =>
    rw [List.map_cons, List.cons_append, received, ih, String.join_cons]


namespace FileState

variable {st : FileState}

/-- The files after contents are written to an open file. -/
def written (st : FileState) (file : Location) (content : String) : FileState :=
  { st with fs := st.fs.set file (some (.file content)) }

theorem write_written (file : Location) (content chunk : String) :
    (st.written file content).write file chunk = st.written file (content ++ chunk) := by
  unfold written write
  rw [node_set, if_pos rfl]
  dsimp only
  rw [set_set]

theorem written_append_empty (st : FileState) (file : Location) (content : String) :
    st.written file content = st.written file (content ++ "") := by
  rw [String.append_empty]

end FileState

open FileState

/-- The next hash of a stream is that of everything before it. -/
def HashMatches (md5 : String → String) : String → List PutEvent → Prop
  | before, .message (.contents chunk) :: rest => HashMatches md5 (before ++ chunk) rest
  | before, .message (.hash value) :: _ => md5 before = value
  | _, _ => False

theorem hashMatches_of_chunks (md5 : String → String) (chunks : List String)
    (rest : List PutEvent) (before : String) :
    HashMatches md5 before ((chunks.map fun chunk => .message (.contents chunk)) ++
      .message (.hash (md5 (before ++ String.join chunks))) :: rest) := by
  induction chunks generalizing before with
  | nil =>
    show md5 before = md5 (before ++ "")
    rw [String.append_empty]
  | cons chunk chunks ih =>
    rw [List.map_cons, List.cons_append, HashMatches, String.join_cons, ← String.append_assoc]
    exact ih (before ++ chunk)

theorem chunks_of_hashMatches {before : String} (h : HashMatches md5 before events) :
    ∃ chunks rest, events = (chunks.map fun chunk => .message (.contents chunk)) ++
      .message (.hash (md5 (before ++ String.join chunks))) :: rest := by
  fun_induction HashMatches md5 before events with
  | case1 before chunk rest ih =>
    obtain ⟨chunks, more, rfl⟩ := ih h
    refine ⟨chunk :: chunks, more, ?_⟩
    rw [List.map_cons, List.cons_append, String.join_cons, String.append_assoc]
  | case2 before value rest =>
    subst h
    refine ⟨[], rest, ?_⟩
    show _ = [PutEvent.message (.hash (md5 (before ++ "")))] ++ rest
    rw [String.append_empty]
    rfl
  | case3 => exact h.elim

theorem hashMatches_iff : HashMatches md5 "" events ↔ ∃ body, Verified md5 events body := by
  constructor
  · intro h
    obtain ⟨chunks, rest, hevents⟩ := chunks_of_hashMatches h
    rw [String.empty_append] at hevents
    exact ⟨String.join chunks, chunks, rest, hevents, rfl⟩
  · rintro ⟨body, chunks, rest, rfl, rfl⟩
    have h := hashMatches_of_chunks md5 chunks rest ""
    rwa [String.empty_append] at h

/-- The loop writes what it receives, and succeeds when the next hash is that of
everything before it. -/
theorem putLoop_spec (md5 : String → String) (file : Location) (events : List PutEvent)
    (before : String) (st : FileState) :
    (putLoop md5 file events before (st.written file before)).2 =
        st.written file (before ++ received events) ∧
      ((putLoop md5 file events before (st.written file before)).1 = .ok () ↔
        HashMatches md5 before events) := by
  induction events generalizing before with
  | nil => exact ⟨written_append_empty _ _ _, iff_of_false nofun id⟩
  | cons event rest ih =>
    cases event with
    | eof => exact ⟨written_append_empty _ _ _, iff_of_false nofun id⟩
    | canceled message | recvError message =>
      exact ⟨written_append_empty _ _ _, iff_of_false nofun id⟩
    | message request =>
      cases request with
      | contents chunk =>
        rw [putLoop, write_written, received, HashMatches, ← String.append_assoc]
        exact ih (before ++ chunk)
      | hash value =>
        rw [putLoop, HashMatches]
        by_cases hvalue : md5 before = value
        · rw [if_neg (fun hne => hne hvalue)]
          exact ⟨written_append_empty _ _ _, iff_of_true rfl hvalue⟩
        · rw [if_pos hvalue]
          exact ⟨written_append_empty _ _ _, iff_of_false nofun hvalue⟩
      | openFile remoteFile permissions =>
        exact ⟨written_append_empty _ _ _, iff_of_false nofun id⟩
      | empty => exact ⟨written_append_empty _ _ _, iff_of_false nofun id⟩

/-! ## The files after a call -/

/-- The path that a call puts a file at. -/
def FileEnv.putPath (env : FileEnv) (target : PutTarget) : String :=
  env.translatePathForContainer target.remotePath

/-- The path of the temporary file. -/
def FileEnv.tempPath (env : FileEnv) (target : PutTarget) : String :=
  env.putPath target ++ ".tmp"

theorem loc_tempPath_ne (env : FileEnv) (target : PutTarget) (fs : FileSystem) :
    fs.loc (env.tempPath target) ≠ fs.loc (env.putPath target) :=
  locate_append_ne fs.cwd _ (by decide) (by decide)

/-- A file that is created has the permissions of the call that opens it. -/
def FileState.created (st : FileState) (file : Location) : FileState :=
  { st with
    mode := if (st.fs.node file).isNone then Function.update st.mode file 0o644 else st.mode }

theorem openTruncated_eq (h : st.fs.follow path = some file) :
    st.openTruncated path = .ok (file, (st.created file).written file "") := by
  unfold openTruncated
  rw [h]
  rfl

theorem follow_written (h : st.fs.follow path = some file) (content : String) :
    (st.written file content).fs.follow path = some file := by
  have hfile : ∀ target, (some (.file content) : Option Node) ≠ some (.link target) := nofun
  exact (st.fs.resolve_set (st.fs.resolve_not_link h) hfile _ _).trans h

theorem node_written (st : FileState) (file : Location) (content : String) :
    (st.written file content).fs.node file = some (.file content) := by
  show (st.fs.set file _).node file = _
  rw [node_set, if_pos rfl]

theorem exists_node_written (h : st.fs.follow path = some file) (content : String) :
    ∃ node, (st.fs.set file (some (.file content))).node (st.fs.loc path) = some node := by
  cases hnode : (st.fs.set file (some (.file content))).node (st.fs.loc path) with
  | some node => exact ⟨node, rfl⟩
  | none =>
    have hfollow := follow_written h content
    rw [follow_of_not_link (fun target hlink => by cases hnode.symm.trans hlink)] at hfollow
    have hself : st.fs.loc path = file := some.inj hfollow
    rw [hself, node_set, if_pos rfl] at hnode
    cases hnode

/-- The cleanup removes the temporary file, or the link in its place. -/
theorem putCleanup_written (st : FileState) (h : st.fs.follow path = some file) (content : String) :
    putCleanup (st.written file content) path =
      { st with fs := (st.fs.set file (some (.file content))).set (st.fs.loc path) none } := by
  have hpresent : (st.written file content).isPresent path = true := by
    rw [isPresent, follow_written h content, bind_some, node_written]
    rfl
  obtain ⟨node, hnode⟩ := exists_node_written h content
  rw [putCleanup, if_pos hpresent, FileState.removeLogged, FileState.remove, FileSystem.remove,
    show (st.written file content).fs.node ((st.written file content).fs.loc path) = _ from hnode]
  rfl

theorem putCleanup_of_none (h : st.fs.node (st.fs.loc path) = none) : putCleanup st path = st := by
  have hfollow : st.fs.follow path = some (st.fs.loc path) :=
    follow_of_not_link (by simp [h])
  rw [putCleanup, isPresent, hfollow, bind_some, h]
  rfl

/-- The permissions go to the file that was written, and the node at the temporary path
is renamed. -/
theorem putFinish_written (st : FileState) {tempPath : String} (path : String)
    (h : st.fs.follow tempPath = some file) (content : String) (permissions : Nat) {node : Node}
    (hnode : (st.fs.set file (some (.file content))).node (st.fs.loc tempPath) = some node) :
    putFinish (st.written file content) tempPath path permissions = (.ok (),
        { fs := ((st.fs.set file (some (.file content))).set (st.fs.loc tempPath) none).set
            (st.fs.loc path) (some node)
          mode := update (update st.mode file (syscallMode permissions))
            (st.fs.loc path)
            (Function.update st.mode file (syscallMode permissions) (st.fs.loc tempPath)) }) := by
  have hchmod : (st.written file content).chmod tempPath permissions =
      .ok { st.written file content with
        mode := update st.mode file (syscallMode permissions) } := by
    rw [chmod, follow_written h content]
    dsimp only
    rw [node_written]
    rfl
  rw [putFinish, hchmod]
  dsimp only
  rw [FileState.rename, FileSystem.rename]
  rw [show (st.written file content).fs.node ((st.written file content).fs.loc tempPath) =
    some node from hnode]
  rfl

section Call

variable {env : FileEnv} {events : List PutEvent} (sendError : Option Status) {st : FileState}
  {target : PutTarget} {file : Location} (htarget : putTarget events = .ok target)
  (hopen : st.fs.follow (env.tempPath target) = some file)
include htarget hopen

/-- Without the right hash the temporary file is written and removed. -/
theorem handlePut_unverified (hhash : ¬ HashMatches env.md5 "" target.rest) :
    (env.handlePut events sendError st).1 ≠ .ok () ∧ (env.handlePut events sendError st).2 =
        { st.created file with
          fs := (st.fs.set file (some (.file (received target.rest)))).set
            (st.fs.loc (env.tempPath target)) none } := by
  obtain ⟨hfiles, hresult⟩ := putLoop_spec env.md5 file target.rest "" (st.created file)
  rw [String.empty_append] at hfiles
  unfold FileEnv.handlePut
  rw [htarget]
  dsimp only
  rw [show st.openTruncated (env.translatePathForContainer target.remotePath ++ ".tmp") = _ from
    openTruncated_eq hopen]
  dsimp only
  rcases hloop : putLoop env.md5 file target.rest "" ((st.created file).written file "") with
    ⟨fault | ⟨⟨⟩⟩, after⟩
  · rw [hloop] at hfiles
    refine ⟨nofun, ?_⟩
    dsimp only at hfiles ⊢
    rw [hfiles]
    exact putCleanup_written (st.created file) hopen _
  · rw [hloop] at hresult
    exact absurd (hresult.1 rfl) hhash

/-- With the right hash the temporary file, or the link in its place, becomes the
target. -/
theorem handlePut_verified (hhash : HashMatches env.md5 "" target.rest) {node : Node}
    (hnode : (st.fs.set file (some (.file (received target.rest)))).node
      (st.fs.loc (env.tempPath target)) = some node) {mode : Location → Nat}
    (hmode : mode = update (st.created file).mode file (syscallMode target.permissions)) :
    env.handlePut events sendError st = (match sendError with
        | some fault => .error fault
        | none => .ok (),
        { fs := ((st.fs.set file (some (.file (received target.rest)))).set
            (st.fs.loc (env.tempPath target)) none).set (st.fs.loc (env.putPath target)) (some node)
          mode := update mode (st.fs.loc (env.putPath target))
            (mode (st.fs.loc (env.tempPath target))) }) := by
  subst hmode
  obtain ⟨hfiles, hresult⟩ := putLoop_spec env.md5 file target.rest "" (st.created file)
  rw [String.empty_append] at hfiles
  have hfinish := putFinish_written (st.created file) (env.putPath target) hopen
    (received target.rest) target.permissions hnode
  unfold FileEnv.handlePut
  rw [htarget]
  dsimp only
  rw [show st.openTruncated (env.translatePathForContainer target.remotePath ++ ".tmp") = _ from
    openTruncated_eq hopen]
  dsimp only
  rcases hloop : putLoop env.md5 file target.rest "" ((st.created file).written file "") with
    ⟨fault | ⟨⟨⟩⟩, after⟩
  · rw [hloop] at hresult
    exact absurd (hresult.2 hhash) nofun
  rw [hloop] at hfiles
  dsimp only at hfiles ⊢
  subst hfiles
  rw [show putFinish ((st.created file).written file (received target.rest))
    (env.translatePathForContainer target.remotePath ++ ".tmp")
    (env.translatePathForContainer target.remotePath) target.permissions = _ from hfinish]
  dsimp only
  rw [putCleanup_of_none]
  · rfl
  · rw [node_set, node_set]
    exact (if_neg (loc_tempPath_ne env target st.fs)).trans (if_pos rfl)

end Call

/-! ## What a client expects -/

theorem validatePath_empty : validatePath "" ≠ .ok () := by
  decide

theorem putTarget_openFile {permissions : Nat} {rest : List PutEvent}
    (hpath : validatePath path = .ok ()) :
    putTarget (.message (.openFile path permissions) :: rest) =
      .ok { remotePath := path, permissions := if permissions = 0 then 0o644 else permissions,
            rest := rest } := by
  have hne : path ≠ "" := by
    rintro rfl
    exact validatePath_empty hpath
  rw [putTarget, if_neg hne, hpath]

theorem openFile_of_putTarget {target : PutTarget} (h : putTarget events = .ok target) :
    ∃ permissions, events = .message (.openFile target.remotePath permissions) :: target.rest ∧
      validatePath target.remotePath = .ok () := by
  rcases events with _ | ⟨_ | message | message | request, rest⟩
  · cases h
  · cases h
  · cases h
  · cases h
  cases request with
  | openFile path permissions =>
    rw [putTarget] at h
    split at h
    · cases h
    rcases hpath : validatePath path with _ | accepted <;> rw [hpath] at h
    · cases h
    cases h
    exact ⟨permissions, rfl, hpath⟩
  | contents chunk | hash value | empty => cases h

/-- The messages of a successful call, seen from its target. -/
theorem exists_messages_iff {target : PutTarget} (h : putTarget events = .ok target) :
    (∃ path permissions chunks rest, events = .message (.openFile path permissions) ::
        ((chunks.map fun chunk => .message (.contents chunk)) ++
          .message (.hash (md5 (String.join chunks))) :: rest) ∧
      validatePath path = .ok ()) ↔
    ∃ body, Verified md5 target.rest body := by
  obtain ⟨permissions, rfl, hpath⟩ := openFile_of_putTarget h
  constructor
  · rintro ⟨path, bits, chunks, rest, hevents, -⟩
    exact ⟨_, chunks, rest, (List.cons.inj hevents).2, rfl⟩
  · rintro ⟨body, chunks, rest, hrest, rfl⟩
    exact ⟨_, permissions, chunks, rest, by rw [hrest], hpath⟩

/-- What a client expects of a call whose file operations succeed. -/
structure AtomicPut (env : FileEnv) (events : List PutEvent) (sendError : Option Status)
    (st : FileState) : Prop where
  /-- The call succeeds for a valid path, contents and the hash of the contents. -/
  success : (env.handlePut events sendError st).1 = .ok () ↔
    ∃ path permissions chunks rest,
      events = .message (.openFile path permissions) ::
        ((chunks.map fun chunk => .message (.contents chunk)) ++
          .message (.hash (env.md5 (String.join chunks))) :: rest) ∧
      validatePath path = .ok ()
  /-- The target then has the contents and the permissions. -/
  placed : ∀ target body, putTarget events = .ok target → Verified env.md5 target.rest body →
    (env.handlePut events sendError st).2.fs.node (st.fs.loc (env.putPath target)) =
        some (.file body) ∧
      (env.handlePut events sendError st).2.mode (st.fs.loc (env.putPath target)) =
        target.permissions
  /-- Otherwise the target keeps its content. -/
  kept : ∀ target, putTarget events = .ok target → (¬ ∃ body, Verified env.md5 target.rest body) →
    (env.handlePut events sendError st).2.fs.node (st.fs.loc (env.putPath target)) =
      st.fs.node (st.fs.loc (env.putPath target))
  /-- No other path changes. -/
  frame : ∀ target, putTarget events = .ok target → ∀ loc,
    loc ≠ st.fs.loc (env.putPath target) → loc ≠ st.fs.loc (env.tempPath target) →
    (env.handlePut events sendError st).2.fs.node loc = st.fs.node loc ∧
      (env.handlePut events sendError st).2.mode loc = st.mode loc
  /-- The temporary file is gone. -/
  clean : ∀ target, putTarget events = .ok target →
    (env.handlePut events sendError st).2.fs.node (st.fs.loc (env.tempPath target)) = none
  /-- Without a valid path nothing changes. -/
  rejected : (∀ target, putTarget events ≠ .ok target) →
    (env.handlePut events sendError st).2 = st

/-- There is no link at a path. -/
def NoLink (fs : FileSystem) (path : String) : Prop :=
  ∀ target, fs.node (fs.loc path) ≠ some (.link target)

/-- The condition for a call with a valid path.  With the right hash there must be no
link at the temporary path, the permissions must be plain permission bits, and the answer
must reach the client.  Without it, a link at the temporary path must lead to a file that
already has what is written to it. -/
structure PutCondition (env : FileEnv) (sendError : Option Status) (st : FileState)
    (target : PutTarget) : Prop where
  verified : (∃ body, Verified env.md5 target.rest body) →
    NoLink st.fs (env.tempPath target) ∧
      FileState.syscallMode target.permissions = target.permissions ∧ sendError = none
  unverified : (¬ ∃ body, Verified env.md5 target.rest body) →
    NoLink st.fs (env.tempPath target) ∨
      ∀ file, st.fs.follow (env.tempPath target) = some file →
        st.fs.node file = some (.file (received target.rest))

theorem NoLink.follow {fs : FileSystem} (h : NoLink fs path) :
    fs.follow path = some (fs.loc path) := follow_of_not_link h

theorem mode_created_of_ne {loc : Location} (h : loc ≠ file) :
    (st.created file).mode loc = st.mode loc := by
  unfold created
  dsimp only
  split
  · rw [update_of_ne h]
  · rfl

section Iff

variable {env : FileEnv} {events : List PutEvent} {sendError : Option Status} {st : FileState}
  {target : PutTarget} {file : Location} (htarget : putTarget events = .ok target)
include htarget

theorem AtomicPut.condition (hatomic : AtomicPut env events sendError st)
    (hopen : st.fs.follow (env.tempPath target) = some file) :
    PutCondition env sendError st target where
  verified := by
    rintro ⟨body, hbody⟩
    have hhash := hashMatches_iff.2 ⟨body, hbody⟩
    obtain ⟨hplaced, hmode⟩ := hatomic.placed target body htarget hbody
    obtain ⟨node, hnode⟩ := exists_node_written hopen (received target.rest)
    have hcall := handlePut_verified sendError htarget hopen hhash hnode rfl
    have hlink : NoLink st.fs (env.tempPath target) := by
      intro text htext
      -- the link is renamed, so the target is no file
      have hne : st.fs.loc (env.tempPath target) ≠ file := by
        intro heq
        exact st.fs.resolve_not_link hopen text (heq ▸ htext)
      rw [node_set, if_neg hne, htext] at hnode
      rw [hcall] at hplaced
      rw [node_set, if_pos rfl, ← hnode] at hplaced
      cases hplaced
    obtain rfl := some.inj (hopen.symm.trans hlink.follow)
    refine ⟨hlink, ?_, ?_⟩
    · rw [hcall] at hmode
      dsimp only at hmode
      rwa [update_self, update_self] at hmode
    · have hok := hatomic.success.2 ((exists_messages_iff htarget).2 ⟨body, hbody⟩)
      rw [hcall] at hok
      cases sendError with
      | none => rfl
      | some fault => cases hok
  unverified := by
    intro hnone
    by_cases hlink : NoLink st.fs (env.tempPath target)
    · exact Or.inl hlink
    right
    intro other hother
    obtain rfl := some.inj (hopen.symm.trans hother)
    have hcall := (handlePut_unverified sendError htarget hopen
      (fun h => hnone (hashMatches_iff.1 h))).2
    have hne : file ≠ st.fs.loc (env.tempPath target) := by
      intro heq
      refine hlink fun text htext => st.fs.resolve_not_link hopen text ?_
      rw [heq]
      exact htext
    have hafter : (env.handlePut events sendError st).2.fs.node file =
        some (.file (received target.rest)) := by
      rw [hcall]
      rw [node_set, if_neg hne, node_set, if_pos rfl]
    by_cases hpath : file = st.fs.loc (env.putPath target)
    · have hkept := hatomic.kept target htarget hnone
      rw [← hpath, hafter] at hkept
      exact hkept.symm
    · have hframe := (hatomic.frame target htarget file hpath hne).1
      rw [hafter] at hframe
      exact hframe.symm

/-- The temporary file becomes the target. -/
theorem PutCondition.atomic_of_verified (hcondition : PutCondition env sendError st target)
    {body : String} (hbody : Verified env.md5 target.rest body) : AtomicPut env events sendError st := by
  obtain ⟨hlink, hpermissions, rfl⟩ := hcondition.verified ⟨body, hbody⟩
  have hne := loc_tempPath_ne env target st.fs
  have hhash := hashMatches_iff.2 ⟨body, hbody⟩
  have hnode : (st.fs.set (st.fs.loc (env.tempPath target))
      (some (.file (received target.rest)))).node (st.fs.loc (env.tempPath target)) =
        some (.file (received target.rest)) := by
    rw [node_set, if_pos rfl]
  have hcall := handlePut_verified none htarget hlink.follow hhash hnode rfl
  rw [set_set] at hcall
  have hsame : ∀ other, putTarget events = .ok other → other = target := fun other hother =>
    Except.ok.inj (hother.symm.trans htarget)
  refine ⟨?_, ?_, ?_, ?_, ?_, ?_⟩
  · rw [hcall]
    exact iff_of_true rfl ((exists_messages_iff htarget).2 ⟨body, hbody⟩)
  · intro other content hother hcontent
    obtain rfl := hsame other hother
    rw [hcall, ← hcontent.received_eq]
    dsimp only
    rw [node_set, if_pos rfl, update_self, update_self]
    exact ⟨rfl, hpermissions⟩
  · intro other hother hnone
    obtain rfl := hsame other hother
    exact absurd ⟨body, hbody⟩ hnone
  · intro other hother loc hpath htemp
    obtain rfl := hsame other hother
    rw [hcall]
    dsimp only
    rw [node_set, if_neg hpath, node_set, if_neg htemp,
      update_of_ne hpath, update_of_ne htemp, mode_created_of_ne htemp]
    exact ⟨rfl, rfl⟩
  · intro other hother
    obtain rfl := hsame other hother
    rw [hcall]
    rw [node_set, if_neg hne, node_set, if_pos rfl]
  · intro hrejected
    exact absurd htarget (hrejected target)

/-- The temporary file is removed. -/
theorem PutCondition.atomic_of_unverified (hcondition : PutCondition env sendError st target)
    (hopen : st.fs.follow (env.tempPath target) = some file)
    (hnone : ¬ ∃ body, Verified env.md5 target.rest body) : AtomicPut env events sendError st := by
  have hne := loc_tempPath_ne env target st.fs
  obtain ⟨hresult, hcall⟩ := handlePut_unverified sendError htarget hopen
    (fun h => hnone (hashMatches_iff.1 h))
  -- only the temporary path changes
  have hafter : ∀ loc, loc ≠ st.fs.loc (env.tempPath target) →
      (env.handlePut events sendError st).2.fs.node loc = st.fs.node loc ∧
        (env.handlePut events sendError st).2.mode loc = st.mode loc := by
    intro loc hloc
    rw [hcall]
    rw [node_set, if_neg hloc, node_set]
    rcases hcondition.unverified hnone with hlink | hsame
    · obtain rfl := some.inj (hopen.symm.trans hlink.follow)
      exact ⟨if_neg hloc, mode_created_of_ne hloc⟩
    have hfile := hsame file hopen
    refine ⟨?_, ?_⟩
    · split
      · rename_i heq
        rw [heq, hfile]
      · rfl
    · unfold created
      rw [hfile]
      rfl
  have hsame : ∀ other, putTarget events = .ok other → other = target := fun other hother =>
    Except.ok.inj (hother.symm.trans htarget)
  refine ⟨?_, ?_, ?_, ?_, ?_, ?_⟩
  · exact iff_of_false hresult fun h => hnone ((exists_messages_iff htarget).1 h)
  · intro other content hother hcontent
    obtain rfl := hsame other hother
    exact absurd ⟨content, hcontent⟩ hnone
  · intro other hother _
    obtain rfl := hsame other hother
    exact (hafter _ hne.symm).1
  · intro other hother loc _ htemp
    obtain rfl := hsame other hother
    exact hafter loc htemp
  · intro other hother
    obtain rfl := hsame other hother
    rw [hcall]
    rw [node_set, if_pos rfl]
  · intro hrejected
    exact absurd htarget (hrejected target)

end Iff

def linkedFiles : FileState where
  fs :=
    { node := fun loc =>
        if loc = ["tmp", "image.tmp"] then some (.link "/etc/passwd")
        else if loc = ["etc", "passwd"] then some (.file "root")
        else none }

end SonicGnmi.Gnoi
