import SonicGnmi.Gnmi.Message
import SonicGnmi.Grpc.Status

/-!
# Polls

`PollRun` of the two database clients and `AppDBPollRun` put one message for each path
on the queue, and then a sync response.  When a path cannot be read they return without
a word, so the poll is not answered and the polls that follow are not even received.

* `PollClient.pollRun` — the messages for each poll that is received;
* `PollClient.Answers` — a poll is answered by messages and a sync response, or
  by a fatal message;
* `polls_answered_iff` — all polls are answered exactly when no read fails.

The prefix of the messages and their timestamps are left out.
-/

namespace SonicGnmi.Sdc

open Gnmi Grpc

/-- What a client puts on the queue. -/
inductive PollMessage (Val : Type) where
  | value (path : Path) (val : Val)
  | delete (path : Path)
  | syncResponse
  | fatal (msg : String)
  deriving DecidableEq

/-- The results of the calls for one path.  Only `MixedDbClient` has to find the table
path, and only `AppDBTableData2TypedValue` reports that there is no data. -/
structure PathRead (Val : Type) where
  tablePath : Except Fault Unit := .ok ()
  val : Except Fault Val
  updateReceived : Bool := true

/-- A poll: the paths in the order of the loop, with their reads. -/
structure Poll (Val : Type) (paths : List Path) where
  visit : List (Path × PathRead Val)
  perm : (visit.map Prod.fst).Perm paths

/-- The clients whose routine answers polls. -/
inductive PollClient where
  | db
  | appDb
  | mixed
  deriving DecidableEq

variable {Val : Type} {paths : List Path}

/-- `prevUpdates`; only `AppDBPollRun` has it. -/
abbrev PrevUpdates := Path → Bool

namespace PollClient

/-- One path: the messages, or nothing when the routine returns. -/
def dbPollPath (prevUpdates : PrevUpdates) (path : Path) (read : PathRead Val) :
    Option (List (PollMessage Val) × PrevUpdates) :=
  match read.val with
  | .error _ => none
  | .ok val => some ([.value path val], prevUpdates)

def mixedPollPath (prevUpdates : PrevUpdates) (path : Path) (read : PathRead Val) :
    Option (List (PollMessage Val) × PrevUpdates) :=
  match read.tablePath with
  | .error _ => none
  | .ok () => dbPollPath prevUpdates path read

def appDbPollPath (prevUpdates : PrevUpdates) (path : Path) (read : PathRead Val) :
    Option (List (PollMessage Val) × PrevUpdates) :=
  if read.updateReceived = false then
    if prevUpdates path then some ([.delete path], Function.update prevUpdates path false)
    else some ([], prevUpdates)
  else
    match read.val with
    | .error _ => none
    | .ok val => some ([.value path val], Function.update prevUpdates path true)

def pollPath : PollClient → PrevUpdates → Path → PathRead Val →
    Option (List (PollMessage Val) × PrevUpdates)
  | .db => dbPollPath
  | .appDb => appDbPollPath
  | .mixed => mixedPollPath

variable (client : PollClient)

/-- The loop over the paths. -/
def pollPaths : List (Path × PathRead Val) → PrevUpdates →
    List (PollMessage Val) × Option PrevUpdates
  | [], prevUpdates => ([], some prevUpdates)
  | (path, read) :: rest, prevUpdates =>
    match client.pollPath prevUpdates path read with
    | none => ([], none)
    | some (messages, prevUpdates) =>
      let (more, after) := pollPaths rest prevUpdates
      (messages ++ more, after)

/-- The messages for each poll that is received; a routine that has returned receives no
more. -/
def pollRun : List (Poll Val paths) → PrevUpdates → List (List (PollMessage Val))
  | [], _ => []
  | poll :: rest, prevUpdates =>
    match client.pollPaths poll.visit prevUpdates with
    | (messages, none) => [messages]
    | (messages, some prevUpdates) =>
      (messages ++ [.syncResponse]) :: pollRun rest prevUpdates

/-- The messages for one path. -/
def Fits (path : Path) (messages : List (PollMessage Val)) : Prop :=
  (∃ val, messages = [.value path val]) ∨
    client = .appDb ∧ (messages = [.delete path] ∨ messages = [])

/-- The answer to a poll: messages for every path and one sync response, or a fatal one. -/
def Answers (paths : List Path) (messages : List (PollMessage Val)) : Prop :=
  (∃ visited answers, visited.Perm paths ∧ List.Forall₂ client.Fits visited answers ∧
    messages = answers.flatten ++ [.syncResponse]) ∨ ∃ msg, .fatal msg ∈ messages

/-- A path cannot be read. -/
def Fails (read : PathRead Val) : Prop :=
  (client = .mixed ∧ ∃ fault, read.tablePath = .error fault) ∨
    (client = .appDb → read.updateReceived = true) ∧ ∃ fault, read.val = .error fault

variable {client}

theorem pollPath_cases (prevUpdates : PrevUpdates) (path : Path) (read : PathRead Val) :
    (client.pollPath prevUpdates path read = none ∧ client.Fails read) ∨
      ∃ messages after, client.pollPath prevUpdates path read = some (messages, after) ∧
        client.Fits path messages ∧ ¬ client.Fails read := by
  obtain ⟨tablePath, val, updateReceived⟩ := read
  cases client with
  | db => cases val <;> simp [pollPath, dbPollPath, Fails, Fits]
  | mixed =>
    cases tablePath <;> cases val <;> simp [pollPath, mixedPollPath, dbPollPath, Fails, Fits]
  | appDb =>
    cases updateReceived
    · cases hprev : prevUpdates path <;> simp [pollPath, appDbPollPath, Fails, Fits, hprev]
    · cases val <;> simp [pollPath, appDbPollPath, Fails, Fits]

theorem pollPaths_cases (visit : List (Path × PathRead Val)) (prevUpdates : PrevUpdates) :
    ∃ answers visited, List.Forall₂ client.Fits visited answers ∧
      (client.pollPaths visit prevUpdates).1 = answers.flatten ∧
      (((client.pollPaths visit prevUpdates).2 = none ∧ ∃ entry ∈ visit, client.Fails entry.2) ∨
        (∃ after, (client.pollPaths visit prevUpdates).2 = some after) ∧
          visited = visit.map Prod.fst ∧ ∀ entry ∈ visit, ¬ client.Fails entry.2) := by
  induction visit generalizing prevUpdates with
  | nil => exact ⟨[], [], .nil, rfl, .inr ⟨⟨prevUpdates, rfl⟩, rfl, by simp⟩⟩
  | cons entry rest ih =>
    obtain ⟨path, read⟩ := entry
    rw [pollPaths]
    rcases pollPath_cases prevUpdates path read with
      ⟨hnone, hfails⟩ | ⟨messages, mid, hsome, hfits, hread⟩
    · rw [hnone]
      exact ⟨[], [], .nil, rfl, .inl ⟨rfl, _, List.mem_cons_self, hfails⟩⟩
    · rw [hsome]
      obtain ⟨answers, visited, hanswers, hmessages, hend⟩ := ih mid
      refine ⟨messages :: answers, path :: visited, .cons hfits hanswers, by simp [hmessages], ?_⟩
      rcases hend with ⟨hnone, other, hother, hfails⟩ | ⟨hsome, hvisited, hreads⟩
      · exact .inl ⟨hnone, other, List.mem_cons_of_mem _ hother, hfails⟩
      · exact .inr ⟨hsome, by simp [hvisited], List.forall_mem_cons.2 ⟨hread, hreads⟩⟩

/-- Messages for paths are not an answer without the sync response. -/
theorem not_answers_flatten {visited : List Path} {answers : List (List (PollMessage Val))}
    (hfits : List.Forall₂ client.Fits visited answers) :
    ¬ client.Answers paths answers.flatten := by
  have hplain : ∀ message ∈ answers.flatten,
      message ≠ .syncResponse ∧ ∀ msg, message ≠ .fatal msg := by
    induction hfits with
    | nil => simp
    | cons hfirst _ ih =>
      rcases hfirst with ⟨val, rfl⟩ | ⟨-, rfl | rfl⟩ <;> simpa using ih
  rintro (⟨_, _, -, -, heq⟩ | ⟨msg, hmem⟩)
  · exact (hplain .syncResponse (by rw [heq]; simp)).1 rfl
  · exact (hplain _ hmem).2 msg rfl

variable (client)

/-- Every poll that a routine receives is answered exactly when no read fails. -/
theorem polls_answered_iff (polls : List (Poll Val paths)) (prevUpdates : PrevUpdates) :
    (∀ messages ∈ client.pollRun polls prevUpdates, client.Answers paths messages) ↔
      ∀ poll ∈ polls, ∀ entry ∈ poll.visit, ¬ client.Fails entry.2 := by
  induction polls generalizing prevUpdates with
  | nil => simp [pollRun]
  | cons poll rest ih =>
    obtain ⟨answers, visited, hanswers, hmessages, hend⟩ :=
      @pollPaths_cases _ client poll.visit prevUpdates
    rw [pollRun, List.forall_mem_cons]
    rcases hpaths : client.pollPaths poll.visit prevUpdates with ⟨messages, _ | after⟩ <;>
      rw [hpaths] at hmessages hend <;> obtain rfl : messages = answers.flatten := hmessages
    · -- the routine returns in this poll
      obtain ⟨-, entry, hentry, hfails⟩ := hend.resolve_right (by simp)
      refine iff_of_false (fun hall => ?_) fun hall => hall.1 entry hentry hfails
      exact not_answers_flatten hanswers (hall _ List.mem_cons_self)
    · obtain ⟨-, rfl, hreads⟩ := hend.resolve_left (by simp)
      rw [List.forall_mem_cons, ih, and_iff_right hreads]
      exact and_iff_right (.inl ⟨_, answers, poll.perm, hanswers, rfl⟩)

/-- A poll of one path whose field does not exist is not answered. -/
theorem poll_without_answer :
    let path : Path := { elem := [{ name := "PORT" }] }
    let poll : Poll String [path] := ⟨[(path, { val := .error (.plain "redis: nil") })], .refl _⟩
    db.pollRun [poll, poll] (fun _ => false) = [[]] ∧
      ¬ db.Answers [path] ([] : List (PollMessage String)) :=
  ⟨rfl, not_answers_flatten .nil⟩

end PollClient
end SonicGnmi.Sdc
