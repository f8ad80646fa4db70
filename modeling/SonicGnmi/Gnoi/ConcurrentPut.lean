import SonicGnmi.Foundation.Inodes
import SonicGnmi.Foundation.Threads
import SonicGnmi.Gnoi.File

/-!
# Put sessions that run together

Every call of `HandlePut` is a session of its own.  Its file operations are steps, and the
steps of any number of sessions interleave.  A session knows its open file by the inode
and the offset, and its temporary file by its name; another session can truncate this
file, or give the name to another one.

* `PutStage`, `FileEnv.putAct` — the stages of a session and its steps;
* `PutsApart` — what is expected of sessions that run together;
* `OrderlyPut` — the condition on a step;
* `FileEnv.putAct_spec` — what a step of a session does under the condition;
* `PutInv`, `puts_apart_of_orderly` — the invariant of a run and what follows from it.
-/

namespace SonicGnmi.Gnoi

open Foundation Grpc FileEnv List

/-! ## Sessions -/

/-- The first message of a session, with a path that is accepted. -/
structure PutOpen where
  path : String
  permissions : Nat := 0
  valid : validatePath path = .ok ()

/-- How far a session is. -/
inductive PutStage where
  | opening
  /-- In the loop: the open file, the offset in it, and what has been hashed. -/
  | receiving (inode offset : Nat) (received : String)
  /-- The hash is right and the file is closed. -/
  | closed (received : String)
  | permitted (received : String)
  | answering
  /-- In the deferred function. -/
  | checking (outcome : Except Status Unit)
  | removing (outcome : Except Status Unit)
  | ended (outcome : Except Status Unit)

/-- A session.  `placed` records the bytes that a session has verified and what its target
led to right after the rename. -/
structure PutSession where
  request : PutOpen
  stage : PutStage := .opening
  placed : Option (String × Option (Held Location)) := none

namespace PutSession

def goto (s : PutSession) (stage : PutStage) : PutSession := { s with stage := stage }

/-- The session has tried to open its temporary file. -/
def started (s : PutSession) : Bool :=
  match s.stage with
  | .opening => false
  | _ => true

/-- The session is between the opening of its temporary file and its end. -/
def active (s : PutSession) : Bool :=
  match s.stage with
  | .opening | .ended _ => false
  | _ => true

end PutSession

/-- The location of the target. -/
def FileEnv.targetOf (env : FileEnv) (s : PutSession) : Location :=
  locate [] (env.translatePathForContainer s.request.path)

/-- The location of the temporary file. -/
def FileEnv.tempOf (env : FileEnv) (s : PutSession) : Location :=
  locate [] (env.translatePathForContainer s.request.path ++ ".tmp")

theorem FileEnv.tempOf_ne (env : FileEnv) (s : PutSession) : env.tempOf s ≠ env.targetOf s :=
  locate_append_ne [] _ (by decide) (by decide)

/-- What a session does not decide itself: whether its next operation fails, what its
stream delivers, and whether its answer reaches the client. -/
inductive PutChoice where
  | proceed
  | fail (message : String)
  | receive (event : PutEvent)
  | answer (error : Option Status)

/-- One turn of the loop. -/
def putReceive (md5 : String → String) (fs : Inodes Location) (s : PutSession)
    (inode offset : Nat) (received : String) : PutEvent → Inodes Location × PutSession
  | .eof =>
    (fs, s.goto (.checking (.error ⟨.invalidArgument, "unexpected end of stream before hash"⟩)))
  | .canceled message =>
    (fs, s.goto (.checking (.error ⟨.canceled, "stream canceled: " ++ message⟩)))
  | .recvError message =>
    (fs, s.goto (.checking (.error ⟨.internal, "failed to receive chunk: " ++ message⟩)))
  | .message (.contents chunk) =>
    (fs.writeAt inode offset chunk,
      s.goto (.receiving inode (offset + chunk.length) (received ++ chunk)))
  | .message (.hash value) =>
    if md5 received ≠ value then
      (fs, s.goto (.checking (.error ⟨.dataLoss, "hash mismatch: file corrupted during transfer"⟩)))
    else (fs, s.goto (.closed received))
  | .message _ =>
    (fs, s.goto (.checking (.error ⟨.invalidArgument, "message must contain contents or hash"⟩)))

/-- One step of `HandlePut`. -/
def FileEnv.putAct (env : FileEnv) (fs : Inodes Location) (s : PutSession) :
    PutChoice → Option (Inodes Location × PutSession)
  | .proceed =>
    match s.stage with
    | .opening =>
      match fs.openTruncated (env.tempOf s) 0o644 with
      | none =>
        some (fs, s.goto (.ended (.error ⟨.internal,
          "failed to create temp file: too many levels of symbolic links"⟩)))
      | some (inode, fs) => some (fs, s.goto (.receiving inode 0 ""))
    | .closed received =>
      let permissions := if s.request.permissions = 0 then 0o644 else s.request.permissions
      match fs.chmod (env.tempOf s) (FileState.syscallMode permissions) with
      | none =>
        some (fs, s.goto (.checking (.error ⟨.internal,
          "failed to set permissions: no such file or directory"⟩)))
      | some fs => some (fs, s.goto (.permitted received))
    | .permitted received =>
      match fs.rename (env.tempOf s) (env.targetOf s) with
      | none =>
        some (fs, s.goto (.checking (.error ⟨.internal,
          "failed to rename file: no such file or directory"⟩)))
      | some fs =>
        some (fs, { s with
          stage := .answering
          placed := some (received, fs.holds (env.targetOf s)) })
    | .checking outcome =>
      some (fs, s.goto (if fs.present (env.tempOf s) then .removing outcome else .ended outcome))
    | .removing outcome => some (fs.remove (env.tempOf s), s.goto (.ended outcome))
    | _ => none
  | .fail message =>
    match s.stage with
    | .opening =>
      some (fs, s.goto (.ended (.error ⟨.internal, "failed to create temp file: " ++ message⟩)))
    | .receiving _ _ _ =>
      some (fs, s.goto (.checking (.error ⟨.internal, "failed to write chunk: " ++ message⟩)))
    | .closed _ =>
      some (fs, s.goto (.checking (.error ⟨.internal, "failed to set permissions: " ++ message⟩)))
    | .permitted _ =>
      some (fs, s.goto (.checking (.error ⟨.internal, "failed to rename file: " ++ message⟩)))
    | .removing outcome => some (fs, s.goto (.ended outcome))
    | _ => none
  | .receive event =>
    match s.stage with
    | .receiving inode offset received =>
      some (putReceive env.md5 fs s inode offset received event)
    | _ => none
  | .answer error =>
    match s.stage with
    | .answering =>
      some (fs, s.goto (.checking (match error with
        | some e => .error e
        | none => .ok ())))
    | _ => none

/-- The sessions as threads. -/
def FileEnv.putProgram (env : FileEnv) : Program (Inodes Location) PutSession PutOpen PutChoice where
  init request := { request := request }
  act _ fs s choice := env.putAct fs s choice

/-! ## What is expected -/

/-- What is expected of sessions that run together. -/
structure PutsApart (env : FileEnv) (init : Inodes Location)
    (s : Threads (Inodes Location) PutSession) : Prop where
  /-- The target of a session that reports success has led to the verified bytes. -/
  placed : ∀ t ∈ s.threads, t.stage = .ended (.ok ()) →
    ∃ body, t.placed = some (body, some (.file body))
  /-- When all sessions have ended, a target leads to the verified bytes of a successful
  session, or, if there is none, to what it has led to at first. -/
  final : (∀ t ∈ s.threads, ∃ outcome, t.stage = .ended outcome) → ∀ t ∈ s.threads,
    (∃ u ∈ s.threads, env.targetOf u = env.targetOf t ∧ u.stage = .ended (.ok ()) ∧
      ∃ body held, u.placed = some (body, held) ∧
        s.shared.holds (env.targetOf t) = some (.file body)) ∨
    ((∀ u ∈ s.threads, env.targetOf u = env.targetOf t → u.stage ≠ .ended (.ok ())) ∧
      s.shared.holds (env.targetOf t) = init.holds (env.targetOf t))

/-- Two sessions that have started keep apart: none writes to the target of the other, and
none opens the temporary file of the other while this one is active. -/
def Apart (env : FileEnv) (t u : PutSession) : Prop :=
  env.tempOf t ≠ env.targetOf u ∧ env.tempOf u ≠ env.targetOf t ∧
    (u.active = true → env.tempOf t ≠ env.tempOf u)

/-- The condition on a step.  A session opens its temporary file when it keeps apart from
all sessions that have started, and when its temporary file is no link and has no other
name; and the answer of a session reaches the client. -/
def OrderlyPut (env : FileEnv) (s : Threads (Inodes Location) PutSession) :
    Move PutOpen PutChoice → Prop
  | .spawn _ => True
  | .act index choice =>
    ∀ t, s.threads[index]? = some t →
      (t.stage = .opening → (∀ u ∈ s.threads, u.started = true → Apart env t u) ∧
          s.shared.Private (env.tempOf t)) ∧
      (t.stage = .answering → choice = .answer none)

/-! ## A session -/

/-- What the files are for a session at a stage. -/
def StageOk (env : FileEnv) (fs : Inodes Location) (s : PutSession) : Prop :=
  match s.stage with
  | .opening => s.placed = none
  | .receiving inode offset received =>
    fs.entry (env.tempOf s) = some (.file inode) ∧ fs.data inode = received ∧
      offset = received.length ∧ s.placed = none
  | .closed received | .permitted received =>
    (∃ inode, fs.entry (env.tempOf s) = some (.file inode) ∧ fs.data inode = received) ∧
      s.placed = none
  | .answering => s.placed.isSome = true
  | .checking outcome | .removing outcome | .ended outcome =>
    outcome = .ok () ↔ s.placed.isSome = true

/-- A session is as it should be: the temporary file has what has been received and
belongs to the session, and the target has led to what was verified. -/
structure SessionOk (env : FileEnv) (fs : Inodes Location) (s : PutSession) : Prop where
  stage : StageOk env fs s
  own : s.active = true → fs.Private (env.tempOf s)
  placed : ∀ body held, s.placed = some (body, held) → held = some (.file body)

variable {env : FileEnv} {s : PutSession}

theorem SessionOk.of_spares {fs after : Inodes Location} (hok : SessionOk env fs s)
    (hspares : s.active = true → fs.Spares after (env.tempOf s)) : SessionOk env after s := by
  refine ⟨?_, fun hactive => (hspares hactive).stays (hok.own hactive), hok.placed⟩
  have hstage := hok.stage
  unfold StageOk at hstage ⊢
  unfold PutSession.active at hspares
  cases hcase : s.stage with
  | receiving inode offset received =>
    rw [hcase] at hstage hspares
    obtain ⟨hentry, hdata, hrest⟩ := hstage
    exact ⟨(hspares rfl).entry.trans hentry, ((hspares rfl).data inode hentry).trans hdata, hrest⟩
  | closed received | permitted received =>
    rw [hcase] at hstage hspares
    obtain ⟨⟨inode, hentry, hdata⟩, hrest⟩ := hstage
    exact ⟨⟨inode, (hspares rfl).entry.trans hentry,
      ((hspares rfl).data inode hentry).trans hdata⟩, hrest⟩
  | opening | answering | checking outcome | removing outcome | ended outcome =>
    rw [hcase] at hstage
    exact hstage

/-- What a step of a session does: it leaves everything but the temporary file alone, and
the target unless it places the verified bytes there. -/
structure PutMove (env : FileEnv) (fs : Inodes Location) (s : PutSession)
    (after : Inodes Location) (next : PutSession) : Prop where
  request : next.request = s.request
  started : next.started = true
  ok : SessionOk env after next
  spares : ∀ name, name ≠ env.tempOf s → (name = env.targetOf s → next.placed = s.placed) →
    fs.Spares after name
  placed : next.placed = s.placed ∨ ∃ body held, next.placed = some (body, held) ∧
    after.holds (env.targetOf s) = some (.file body)

section Step

variable {env : FileEnv} {fs after : Inodes Location} {s next : PutSession}

/-- A step that places nothing. -/
theorem putMove_keep {stage : PutStage} (hstarted : (s.goto stage).started = true)
    (hok : SessionOk env after (s.goto stage))
    (hspares : ∀ name ≠ env.tempOf s, fs.Spares after name) :
    PutMove env fs s after (s.goto stage) where
  request := rfl
  started := hstarted
  ok := hok
  spares name hname _ := hspares name hname
  placed := .inl rfl

theorem putMove_goto (hok : SessionOk env fs s) {stage : PutStage}
    (hstarted : (s.goto stage).started = true) (hstage : StageOk env fs (s.goto stage))
    (hown : (s.goto stage).active = true → fs.Private (env.tempOf s)) :
    PutMove env fs s fs (s.goto stage) :=
  putMove_keep hstarted ⟨hstage, hown, hok.placed⟩ fun name _ => .refl fs name

theorem error_eq_ok_iff (hplaced : s.placed = none) (fault : Status) :
    Except.error fault = .ok () ↔ s.placed.isSome = true :=
  iff_of_false nofun (by simp [hplaced])

theorem putMove_fault (hok : SessionOk env fs s) (hactive : s.active = true)
    (hplaced : s.placed = none) (fault : Status) :
    PutMove env fs s fs (s.goto (.checking (.error fault))) :=
  putMove_goto hok rfl (error_eq_ok_iff hplaced fault) fun _ => hok.own hactive

theorem putMove_unopened (hok : SessionOk env fs s) (hplaced : s.placed = none) (fault : Status) :
    PutMove env fs s fs (s.goto (.ended (.error fault))) :=
  putMove_goto hok rfl (error_eq_ok_iff hplaced fault) nofun

theorem putMove_open (hok : SessionOk env fs s) (hplaced : s.placed = none)
    (hprivate : fs.Private (env.tempOf s)) {inode : Nat}
    (hopen : fs.openTruncated (env.tempOf s) 0o644 = some (inode, after)) :
    PutMove env fs s after (s.goto (.receiving inode 0 "")) := by
  obtain ⟨hentry, hdata, hstays, hspares⟩ := Inodes.spares_openTruncated hprivate hopen
  exact putMove_keep rfl ⟨⟨hentry, hdata, rfl, hplaced⟩, fun _ => hstays, hok.placed⟩ hspares

variable {received : String}

theorem putMove_receive (hok : SessionOk env fs s) {inode offset : Nat}
    (hstage : s.stage = .receiving inode offset received) (event : PutEvent) :
    PutMove env fs s (putReceive env.md5 fs s inode offset received event).1
      (putReceive env.md5 fs s inode offset received event).2 := by
  have hactive : s.active = true := by
    rw [PutSession.active, hstage]
  have hown := hok.own hactive
  have hfiles := hok.stage
  rw [StageOk, hstage] at hfiles
  obtain ⟨hentry, hdata, rfl, hplaced⟩ := hfiles
  cases event with
  | eof | canceled message | recvError message => exact putMove_fault hok hactive hplaced _
  | message request =>
    cases request with
    | openFile path permissions | empty => exact putMove_fault hok hactive hplaced _
    | hash value =>
      rw [putReceive]
      by_cases hvalue : env.md5 received ≠ value
      · rw [if_pos hvalue]
        exact putMove_fault hok hactive hplaced _
      · rw [if_neg hvalue]
        exact putMove_goto hok rfl ⟨⟨inode, hentry, hdata⟩, hplaced⟩ fun _ => hown
    | contents chunk =>
      -- the offset is the end of the file, so the chunk is appended
      have hwritten : (fs.writeAt inode received.length chunk).data inode = received ++ chunk := by
        rw [Inodes.writeAt]
        dsimp only
        rw [Function.update_self, hdata, overwrite_end]
      exact putMove_keep rfl ⟨⟨hentry, hwritten, (String.length_append ..).symm, hplaced⟩,
        fun _ => ⟨hown.noLink, hown.alone⟩, hok.placed⟩
        fun name hname => Inodes.spares_writeAt hown hentry _ _ hname

theorem putMove_chmod (hok : SessionOk env fs s) (hstage : s.stage = .closed received) {mode : Nat}
    (hchmod : fs.chmod (env.tempOf s) mode = some after) :
    PutMove env fs s after (s.goto (.permitted received)) := by
  have hown := hok.own (by rw [PutSession.active, hstage])
  have hspares := Inodes.spares_chmod hchmod
  have hfiles := hok.stage
  rw [StageOk, hstage] at hfiles
  obtain ⟨⟨inode, hentry, hdata⟩, hplaced⟩ := hfiles
  have htemp := (hspares (env.tempOf s)).1
  exact putMove_keep rfl
    ⟨⟨⟨inode, htemp.entry.trans hentry, (htemp.data inode hentry).trans hdata⟩, hplaced⟩,
      fun _ => htemp.stays hown, hok.placed⟩ fun name _ => (hspares name).1

/-- The rename puts the verified bytes in place. -/
theorem putMove_rename (hok : SessionOk env fs s) (hstage : s.stage = .permitted received)
    (hrename : fs.rename (env.tempOf s) (env.targetOf s) = some after) :
    PutMove env fs s after
      { s with stage := .answering, placed := some (received, after.holds (env.targetOf s)) } := by
  have hown := hok.own (by rw [PutSession.active, hstage])
  have hfiles := hok.stage
  rw [StageOk, hstage] at hfiles
  obtain ⟨⟨inode, hentry, rfl⟩, hplaced⟩ := hfiles
  obtain ⟨hgone, hheld, hspares⟩ := Inodes.spares_rename hown hentry (env.tempOf_ne s) hrename
  refine ⟨rfl, rfl, ⟨rfl, fun _ => .of_none hgone, ?_⟩, ?_, .inr ⟨_, _, rfl, hheld⟩⟩
  · intro body held hbody
    cases hbody
    exact hheld
  · intro name htemp htarget
    refine hspares name htemp fun heq => ?_
    have hsame := htarget heq
    rw [hplaced] at hsame
    cases hsame

/-- What a step of a session does. -/
theorem FileEnv.putAct_spec (hok : SessionOk env fs s) {choice : PutChoice}
    (hprivate : s.stage = .opening → fs.Private (env.tempOf s))
    (hanswer : s.stage = .answering → choice = .answer none)
    (hact : env.putAct fs s choice = some (after, next)) : PutMove env fs s after next := by
  have hfiles := hok.stage
  have hown := hok.own
  unfold StageOk at hfiles
  unfold PutSession.active at hown
  cases choice with
  | proceed =>
    rw [putAct] at hact
    generalize hstage : s.stage = stage at hact hfiles hown
    cases stage with
    | opening =>
      dsimp only at hact
      split at hact
      · cases hact
        exact putMove_unopened hok hfiles _
      · rename_i inode opened hopen
        cases hact
        exact putMove_open hok hfiles (hprivate hstage) hopen
    | closed received =>
      dsimp only at hact
      split at hact
      · cases hact
        exact putMove_fault hok (by rw [PutSession.active, hstage]) hfiles.2 _
      · rename_i changed hchmod
        cases hact
        exact putMove_chmod hok hstage hchmod
    | permitted received =>
      dsimp only at hact
      split at hact
      · cases hact
        exact putMove_fault hok (by rw [PutSession.active, hstage]) hfiles.2 _
      · rename_i renamed hrename
        cases hact
        exact putMove_rename hok hstage hrename
    | checking outcome =>
      cases hact
      split
      all_goals exact putMove_goto hok rfl hfiles fun _ => hown rfl
    | removing outcome =>
      cases hact
      exact putMove_keep rfl ⟨hfiles, nofun, hok.placed⟩ fun name hname => fs.spares_remove hname
    | _ => cases hact
  | fail message =>
    rw [putAct] at hact
    generalize hstage : s.stage = stage at hact hfiles
    cases stage with
    | opening =>
      cases hact
      exact putMove_unopened hok hfiles _
    | receiving inode offset received =>
      cases hact
      exact putMove_fault hok (by rw [PutSession.active, hstage]) hfiles.2.2.2 _
    | closed received | permitted received =>
      cases hact
      exact putMove_fault hok (by rw [PutSession.active, hstage]) hfiles.2 _
    | removing outcome =>
      cases hact
      exact putMove_goto hok rfl hfiles nofun
    | _ => cases hact
  | receive event =>
    rw [putAct] at hact
    split at hact
    · rename_i inode offset received hstage
      have hmove := putMove_receive hok hstage event
      rw [Option.some.inj hact] at hmove
      exact hmove
    · cases hact
  | answer error =>
    unfold putAct at hact
    dsimp only at hact
    split at hact
    · rename_i hstage
      cases hanswer hstage
      cases hact
      rw [hstage] at hfiles hown
      exact putMove_goto hok rfl (iff_of_true rfl hfiles) fun _ => hown rfl
    · cases hact

end Step

/-! ## All sessions -/

/-- Two sessions that have started keep apart as long as they are active. -/
def StartedApart (env : FileEnv) (t u : PutSession) : Prop :=
  t.started = true → u.started = true →
    env.tempOf t ≠ env.targetOf u ∧ env.tempOf u ≠ env.targetOf t ∧
      (t.active = true → u.active = true → env.tempOf t ≠ env.tempOf u)

theorem StartedApart.symm (t u : PutSession) (h : StartedApart env t u) : StartedApart env u t := by
  intro hu ht
  obtain ⟨htu, hut, htemp⟩ := h ht hu
  exact ⟨hut, htu, fun hactive hother => (htemp hother hactive).symm⟩

/-- Where a name leads: it is a temporary file, or a session has put its bytes there, or
none has and it leads to what it has led to at first. -/
def NameOk (env : FileEnv) (init : Inodes Location) (s : Threads (Inodes Location) PutSession)
    (name : Location) : Prop :=
  (∃ (i : Nat) (u : PutSession), s.threads[i]? = some u ∧ u.started = true ∧ env.tempOf u = name) ∨
    (∃ (i : Nat) (u : PutSession), s.threads[i]? = some u ∧ env.targetOf u = name ∧
      ∃ body held, u.placed = some (body, held) ∧ s.shared.holds name = some (.file body)) ∨
    ((∀ (i : Nat) (u : PutSession), s.threads[i]? = some u → env.targetOf u = name →
      u.placed = none) ∧ s.shared.holds name = init.holds name)

/-- The invariant of orderly sessions. -/
structure PutInv (env : FileEnv) (init : Inodes Location)
    (s : Threads (Inodes Location) PutSession) : Prop where
  sessions : ∀ (i : Nat) (t : PutSession), s.threads[i]? = some t → SessionOk env s.shared t
  apart : PairwiseThreads (StartedApart env) s.threads
  names : ∀ name, NameOk env init s name

theorem PutSession.started_iff : s.started = true ↔ s.stage ≠ .opening := by
  unfold PutSession.started
  cases s.stage <;> simp

theorem PutSession.active_iff :
    s.active = true ↔ s.started = true ∧ ∀ outcome, s.stage ≠ .ended outcome := by
  unfold PutSession.active PutSession.started
  cases s.stage <;> simp

theorem active_of_putAct {fs : Inodes Location} {choice : PutChoice}
    {after : Inodes Location × PutSession} (hact : env.putAct fs s choice = some after)
    (hstarted : s.started = true) : s.active = true := by
  refine PutSession.active_iff.2 ⟨hstarted, fun outcome hstage => ?_⟩
  unfold putAct at hact
  rw [hstage] at hact
  cases choice <;> cases hact

section Run

variable {env : FileEnv} {init : Inodes Location} {s : Threads (Inodes Location) PutSession}

theorem putInv_init : PutInv env init { shared := init } where
  sessions i t ht := by cases ht
  apart i t ht := by cases ht
  names name := .inr (.inr ⟨fun i u hu => (by cases hu), rfl⟩)

section

variable (hinv : PutInv env init s)
include hinv

theorem PutInv.spawn (request : PutOpen) :
    PutInv env init { s with threads := s.threads ++ [{ request := request }] } where
  sessions := forall_spawn hinv.sessions
    ⟨rfl, fun h => (by cases h), fun body held h => (by cases h)⟩
  apart := hinv.apart.spawn StartedApart.symm fun u hu hstarted => by cases hstarted
  names name := by
    have hkeep : ∀ {i : Nat} {u : PutSession}, s.threads[i]? = some u →
        (s.threads ++ [{ request := request }])[i]? = some u := fun hu =>
      List.getElem?_append_left (List.getElem?_eq_some_iff.1 hu).1 ▸ hu
    rcases hinv.names name with ⟨i, u, hu, htemp⟩ | ⟨i, u, hu, hplaced⟩ | ⟨hnone, hheld⟩
    · exact .inl ⟨i, u, hkeep hu, htemp⟩
    · exact .inr (.inl ⟨i, u, hkeep hu, hplaced⟩)
    · exact .inr (.inr ⟨forall_spawn hnone fun _ => rfl, hheld⟩)

theorem PutInv.act {index : Nat} {t next : PutSession} {after : Inodes Location}
    (ht : s.threads[index]? = some t) (hmove : PutMove env s.shared t after next)
    (hapart : ∀ (j : Nat) (u : PutSession), j ≠ index → s.threads[j]? = some u →
      u.started = true → Apart env t u) :
    PutInv env init { shared := after, threads := s.threads.set index next } := by
  have htemp : env.tempOf next = env.tempOf t := by
    rw [tempOf, hmove.request]
    rfl
  have htarget : env.targetOf next = env.targetOf t := by
    rw [targetOf, hmove.request]
    rfl
  have hself : (s.threads.set index next)[index]? = some next :=
    List.getElem?_set_self (List.getElem?_eq_some_iff.1 ht).1
  refine ⟨forall_act hmove.ok ?_, hinv.apart.act StartedApart.symm ?_, fun name => ?_⟩
  · intro j u hj hu
    refine (hinv.sessions j u hu).of_spares fun hactive => ?_
    obtain ⟨-, hother, hne⟩ := hapart j u hj hu (PutSession.active_iff.1 hactive).1
    exact hmove.spares _ (hne hactive).symm fun heq => absurd heq hother
  · intro j u hj hu _ hstarted
    obtain ⟨htu, hut, hne⟩ := hapart j u hj hu hstarted
    rw [htemp, htarget]
    exact ⟨htu, hut, fun _ => hne⟩
  by_cases hname : name = env.tempOf t
  · exact .inl ⟨index, next, hself, hmove.started, htemp.trans hname.symm⟩
  have hkeep : ∀ {i : Nat} {u : PutSession}, i ≠ index → s.threads[i]? = some u →
      (s.threads.set index next)[i]? = some u := fun hi hu =>
    (getElem?_set_ne (Ne.symm hi)).trans hu
  by_cases hplaces : name = env.targetOf t → next.placed = t.placed
  · -- what the name leads to has not changed, and neither has who has put it there
    have hheld := (hmove.spares name hname hplaces).holds_eq
    rcases hinv.names name with ⟨i, u, hu, hstarted, htempu⟩ | ⟨i, u, hu, htargetu, hbody⟩ |
      ⟨hnone, hfirst⟩
    · have hi : i ≠ index := by
        rintro rfl
        cases ht.symm.trans hu
        exact hname htempu.symm
      exact .inl ⟨i, u, hkeep hi hu, hstarted, htempu⟩
    · refine .inr (.inl ?_)
      rw [hheld]
      by_cases hi : i = index
      · subst hi
        cases ht.symm.trans hu
        rw [← hplaces htargetu.symm] at hbody
        exact ⟨i, next, hself, htarget.trans htargetu, hbody⟩
      · exact ⟨i, u, hkeep hi hu, htargetu, hbody⟩
    · refine .inr (.inr ⟨forall_act ?_ fun i u _ hu => hnone i u hu, hheld.trans hfirst⟩)
      intro htargetn
      rw [hplaces (htargetn.symm.trans htarget)]
      exact hnone index t ht (htarget.symm.trans htargetn)
  · -- the session has put its bytes there
    rw [not_forall] at hplaces
    obtain ⟨rfl, hchanged⟩ := hplaces
    obtain ⟨body, held, hbody⟩ := hmove.placed.resolve_left hchanged
    exact .inr (.inl ⟨index, next, hself, htarget, body, held, hbody⟩)

theorem PutInv.step {move : Move PutOpen PutChoice}
    {after : Threads (Inodes Location) PutSession} (horderly : OrderlyPut env s move)
    (hstep : env.putProgram.step s move = some after) : PutInv env init after := by
  obtain ⟨request, rfl, rfl⟩ | ⟨index, choice, t, ⟨fs, next⟩, rfl, ht, hact, rfl⟩ :=
    Program.step_cases hstep
  · exact hinv.spawn request
  obtain ⟨hopening, hanswer⟩ := horderly t ht
  have hmove := putAct_spec (hinv.sessions index t ht)
    (fun hstage => (hopening hstage).2) hanswer hact
  refine hinv.act ht hmove fun j u hj hu hstarted => ?_
  by_cases hstage : t.started = true
  · obtain ⟨htu, hut, hne⟩ := hinv.apart index t ht j u hu (Ne.symm hj) hstage hstarted
    exact ⟨htu, hut, hne (active_of_putAct hact hstage)⟩
  have hopen : t.stage = .opening := not_not.1 (mt PutSession.started_iff.2 hstage)
  exact (hopening hopen).1 u (mem_of_getElem? hu) hstarted

theorem PutInv.apart_puts : PutsApart env init s := by
  have hended : ∀ (i : Nat) (u : PutSession) (outcome : Except Status Unit),
      s.threads[i]? = some u → u.stage = .ended outcome →
      (outcome = .ok () ↔ u.placed.isSome = true) := by
    intro i u outcome hu hstage
    have hok := (hinv.sessions i u hu).stage
    rwa [StageOk, hstage] at hok
  refine ⟨fun t ht hstage => ?_, fun hall t ht => ?_⟩ <;> obtain ⟨i, hi⟩ := getElem?_of_mem ht
  · obtain ⟨⟨body, held⟩, hplaced⟩ := Option.isSome_iff_exists.1 ((hended i t _ hi hstage).1 rfl)
    rw [(hinv.sessions i t hi).placed body held hplaced] at hplaced
    exact ⟨body, hplaced⟩
  · rcases hinv.names (env.targetOf t) with ⟨j, u, hu, hstarted, htemp⟩ |
      ⟨j, u, hu, htarget, body, held, hplaced, hheld⟩ | ⟨hnone, hfirst⟩
    · -- the target of a session is nobody's temporary file
      by_cases hij : i = j
      · subst hij
        cases hi.symm.trans hu
        exact absurd htemp (env.tempOf_ne t)
      · obtain ⟨outcome, hstage⟩ := hall t ht
        have htstarted : t.started = true := by
          rw [PutSession.started, hstage]
        exact absurd htemp (hinv.apart i t hi j u hu hij htstarted hstarted).2.1
    · obtain ⟨outcome, hstage⟩ := hall u (mem_of_getElem? hu)
      have hok : outcome = .ok () := (hended j u outcome hu hstage).2 (by rw [hplaced]; rfl)
      rw [hok] at hstage
      exact .inl ⟨u, mem_of_getElem? hu, htarget, hstage, body, held, hplaced, hheld⟩
    · refine .inr ⟨fun u hu htarget hstage => ?_, hfirst⟩
      obtain ⟨j, hj⟩ := getElem?_of_mem hu
      have hsome := (hended j u _ hj hstage).1 rfl
      rw [hnone j u hj htarget] at hsome
      cases hsome

end

end Run

/-- Sessions whose steps are orderly keep apart. -/
theorem puts_apart_of_orderly (env : FileEnv) (init : Inodes Location)
    (s : Threads (Inodes Location) PutSession)
    (hreach : Reach env.putProgram.step (OrderlyPut env) { shared := init } s) :
    PutsApart env init s :=
  (Reach.invariant (PutInv env init) putInv_init
    (fun _ _ _ hinv horderly hstep => hinv.step horderly hstep) hreach).apart_puts

/-! ## Runs -/

/-- A step is orderly if the temporary file does not exist when it is opened. -/
def plainPut (env : FileEnv) (s : Threads (Inodes Location) PutSession) :
    Move PutOpen PutChoice → Bool
  | .spawn _ => true
  | .act index choice =>
    match s.threads[index]? with
    | none => true
    | some t =>
      match t.stage, choice with
      | .opening, _ =>
        (s.threads.all fun u => !u.started || (env.tempOf t != env.targetOf u &&
          env.tempOf u != env.targetOf t && env.tempOf t != env.tempOf u)) &&
        (s.shared.entry (env.tempOf t)).isNone
      | .answering, .answer error => error.isNone
      | .answering, _ => false
      | _, _ => true

theorem orderlyPut_of_plainPut (env : FileEnv) (s : Threads (Inodes Location) PutSession)
    (move : Move PutOpen PutChoice) (h : plainPut env s move = true) : OrderlyPut env s move := by
  cases move with
  | spawn request => trivial
  | act index choice =>
    intro t ht
    rw [plainPut, ht] at h
    dsimp only at h
    refine ⟨fun hstage => ?_, fun hstage => ?_⟩
    · rw [hstage, Bool.and_eq_true, all_eq_true] at h
      obtain ⟨hall, hnone⟩ := h
      refine ⟨fun u hu hstarted => ?_, .of_none (Option.isNone_iff_eq_none.1 hnone)⟩
      have hapart := hall u hu
      rw [hstarted] at hapart
      simp only [Bool.not_true, Bool.false_or, Bool.and_eq_true, bne_iff_ne] at hapart
      exact ⟨hapart.1.1, hapart.1.2, fun _ => hapart.2⟩
    · rw [hstage] at h
      cases choice with
      | answer error =>
        rw [Option.isNone_iff_eq_none.1 h]
      | proceed | fail | receive => cases h

def apartMoves : List (Move PutOpen PutChoice) :=
  [.spawn ⟨"/tmp/a", 0, by decide⟩, .spawn ⟨"/tmp/b", 0, by decide⟩, .act 0 .proceed,
    .act 1 .proceed, .act 0 (.receive (.message (.contents "xx"))),
    .act 1 (.receive (.message (.contents "y"))), .act 0 (.receive (.message (.hash "xx"))),
    .act 0 .proceed, .act 1 (.receive .eof), .act 0 .proceed, .act 1 .proceed,
    .act 0 (.answer none), .act 1 .proceed, .act 0 .proceed]

/-- Two sessions for two files that interleave: one succeeds and one fails. -/
theorem two_puts_apart :
    ∃ s, runActions (FileEnv.putProgram { md5 := id }).step { shared := {} } apartMoves = some s ∧
      PutsApart { md5 := id } {} s ∧
      s.shared.holds ["tmp", "a"] = some (.file "xx") ∧ s.shared.holds ["tmp", "b"] = none := by
  refine ⟨(runActions (FileEnv.putProgram { md5 := id }).step { shared := {} } apartMoves).get
    (by decide +kernel), (Option.some_get _).symm, ?_, by decide +kernel, by decide +kernel⟩
  refine puts_apart_of_orderly _ _ _ (Reach.mono (orderlyPut_of_plainPut { md5 := id }) ?_)
  exact Reach.of_runActions apartMoves .refl (by decide +kernel) (Option.some_get _).symm

def mixedMoves : List (Move PutOpen PutChoice) :=
  [.spawn ⟨"/tmp/a", 0, by decide⟩, .spawn ⟨"/tmp/a", 0, by decide⟩, .act 0 .proceed,
    .act 1 .proceed, .act 0 (.receive (.message (.contents "xx"))),
    .act 1 (.receive (.message (.contents "y"))), .act 0 (.receive (.message (.hash "xx"))),
    .act 0 .proceed, .act 0 .proceed, .act 0 (.answer none), .act 0 .proceed,
    .act 1 (.receive (.message (.hash "y"))), .act 1 .proceed, .act 1 .proceed]

/-- A session for a file, and one for the file that is its temporary file. -/
def nestedMoves : List (Move PutOpen PutChoice) :=
  [.spawn ⟨"/tmp/a.tmp", 0, by decide⟩, .spawn ⟨"/tmp/a", 0, by decide⟩, .act 0 .proceed,
    .act 0 (.receive (.message (.contents "xx"))), .act 0 (.receive (.message (.hash "xx"))),
    .act 0 .proceed, .act 0 .proceed, .act 0 (.answer none), .act 0 .proceed,
    .act 1 .proceed, .act 1 (.receive .eof), .act 1 .proceed, .act 1 .proceed]

/-- The outcome of a session that has ended: whether it is a success. -/
def PutSession.success (s : PutSession) : Option Bool :=
  match s.stage with
  | .ended (.ok ()) => some true
  | .ended (.error _) => some false
  | _ => none

theorem PutSession.stage_of_success {ok : Bool} (h : s.success = some ok) :
    ∃ outcome, s.stage = .ended outcome ∧ (outcome = .ok () ↔ ok = true) := by
  unfold PutSession.success at h
  split at h
  · rename_i hstage
    cases h
    exact ⟨_, hstage, iff_of_true rfl rfl⟩
  · rename_i fault hstage
    cases h
    exact ⟨_, hstage, iff_of_false nofun (by decide)⟩
  · cases h

section Faults

variable {env : FileEnv} {init : Inodes Location} {s : Threads (Inodes Location) PutSession}

/-- A session has reported success, and its target has led to other bytes. -/
theorem not_apart_of_other_bytes (body : String) (held : Option (Held Location))
    (hmem : (some true, some (body, held)) ∈
      s.threads.map fun t => (PutSession.success t, t.placed))
    (hheld : held ≠ some (.file body)) : ¬ PutsApart env init s := by
  intro hapart
  obtain ⟨t, ht, hresult⟩ := mem_map.1 hmem
  obtain ⟨hsuccess, hplaced⟩ := Prod.mk.inj hresult
  obtain ⟨outcome, hstage, hok⟩ := PutSession.stage_of_success hsuccess
  rw [hok.2 rfl] at hstage
  obtain ⟨other, hother⟩ := hapart.placed t ht hstage
  cases hplaced.symm.trans hother
  exact hheld rfl

/-- A session has reported success, and in the end its target is gone. -/
theorem not_apart_of_lost (loc : Location)
    (hended : s.threads.all (fun t => t.success.isSome) = true)
    (hmem : (some true, loc) ∈ s.threads.map fun t => (PutSession.success t, env.targetOf t))
    (hheld : s.shared.holds loc = none) : ¬ PutsApart env init s := by
  intro hapart
  have hall : ∀ t ∈ s.threads, ∃ outcome, t.stage = .ended outcome := by
    intro t ht
    obtain ⟨ok, hok⟩ := Option.isSome_iff_exists.1 (all_eq_true.1 hended t ht)
    obtain ⟨outcome, hstage, -⟩ := PutSession.stage_of_success hok
    exact ⟨outcome, hstage⟩
  obtain ⟨t, ht, hresult⟩ := mem_map.1 hmem
  obtain ⟨hsuccess, rfl⟩ := Prod.mk.inj hresult
  obtain ⟨outcome, hstage, hok⟩ := PutSession.stage_of_success hsuccess
  rw [hok.2 rfl] at hstage
  rcases hapart.final hall t ht with ⟨u, -, -, -, body, held, -, hfile⟩ | ⟨hnone, -⟩
  · rw [hheld] at hfile
    cases hfile
  · exact hnone t ht rfl hstage

end Faults

/-- Two sessions for one file write to one temporary file, and the one that succeeds puts a
mixture in place.  A session for a file removes the file that another session has put at
its temporary path. -/
theorem puts_mixed :
    ∃ s t, runActions (FileEnv.putProgram { md5 := id }).step { shared := {} } mixedMoves = some s ∧
      ¬ PutsApart { md5 := id } {} s ∧ s.shared.holds ["tmp", "a"] = some (.file "yx") ∧
      runActions (FileEnv.putProgram { md5 := id }).step { shared := {} } nestedMoves = some t ∧
      ¬ PutsApart { md5 := id } {} t ∧ t.shared.holds ["tmp", "a.tmp"] = none := by
  refine ⟨(runActions (FileEnv.putProgram { md5 := id }).step { shared := {} } mixedMoves).get
    (by decide +kernel),
    (runActions (FileEnv.putProgram { md5 := id }).step { shared := {} } nestedMoves).get
    (by decide +kernel), (Option.some_get _).symm, fun hapart => ?_, by decide +kernel,
    (Option.some_get _).symm, fun hapart => ?_, by decide +kernel⟩
  · exact not_apart_of_other_bytes "xx" (some (.file "yx")) (by decide +kernel)
      (by decide) hapart
  · exact not_apart_of_lost ["tmp", "a.tmp"] (by decide +kernel) (by decide +kernel)
      (by decide +kernel) hapart

end SonicGnmi.Gnoi
