import SonicGnmi.Gnoi.PutFile

/-!
# A transfer to a DPU

`HandleTransferToRemoteForDPUStreaming` reads the body of an HTTP response and sends it to
a DPU, which serves `HandlePut`.  Nothing is stored between the two.

The body comes in reads of any size; a read can bring data together with the end of the
body or with an error.  The reader of `DownloadHTTPStreaming` stops after one byte more
than the limit.  What the sender has sent arrives in order.  A sender that gives up
cancels the stream, and then the DPU has seen some of the messages.

* `limitedRead`, `streamBody` — the reader and the loop of the sender;
* `streamBody_spec`, `streamBody_messages` — when the whole body is sent, and in which
  messages;
* `FileEnv.transferToDpu` — the composition with `HandlePut`;
* `FaithfulTransfer`, `transferToDpu_faithful_iff` — what a client expects, and when it
  gets this.

The size of the buffer only bounds a read and is left out.  A DPU that ends its call early
makes a later send or the final receive fail; the model has the error of the latter.
-/

namespace SonicGnmi.Gnoi

open Foundation Grpc FileSystem List

/-! ## The body -/

/-- How a read ends. -/
inductive ReadEnd where
  | more
  | eof
  | failed (message : String)
  deriving DecidableEq

/-- One read of the body of a response. -/
structure BodyRead where
  chunk : String
  ending : ReadEnd := .more

/-- The body that a list of reads delivers. -/
def bodyText : List BodyRead → String
  | [] => ""
  | read :: rest => if read.ending = .more then read.chunk ++ bodyText rest else read.chunk

/-- Whether reading the body fails. -/
def bodyFails : List BodyRead → Bool
  | [] => false
  | read :: rest =>
    match read.ending with
    | .more => bodyFails rest
    | .eof => false
    | .failed _ => true

/-- The number of reads up to the end of the body. -/
def bodyTurns : List BodyRead → Nat
  | [] => 1
  | read :: rest => if read.ending = .more then bodyTurns rest + 1 else 1

/-- `limitedReadCloser.Read` over `io.LimitReader`, with the number of bytes read so
far. -/
def limitedRead (maxSize read : Nat) (body : BodyRead) : BodyRead × Nat :=
  let allowed := maxSize + 1 - read
  let got : BodyRead :=
    if allowed = 0 then { chunk := "", ending := .eof }
    else if body.chunk.length ≤ allowed then body
    else { chunk := String.ofList (body.chunk.toList.take allowed) }
  if maxSize < read + got.chunk.length then
    ({ got with ending := .failed ("downloaded file size exceeds maximum allowed size " ++
        toString maxSize ++ " bytes") }, read + got.chunk.length)
  else (got, read + got.chunk.length)

/-- What the loop of the sender has done: the messages it has sent, what the tee reader
has hashed, and how it ended. -/
structure Streamed where
  messages : List PutRequest := []
  hashed : String := ""
  outcome : Except Status Unit := .ok ()

/-- The loop of the sender.  `expired` says whether the time is up before a turn. -/
def streamBody (maxSize : Nat) (expired : Nat → Bool) : Nat → Nat → List BodyRead → Streamed
  | turn, _, [] =>
    if expired turn then
      { outcome := .error ⟨.deadlineExceeded, "streaming operation timed out"⟩ }
    else {}
  | turn, read, body :: rest =>
    if expired turn then
      { outcome := .error ⟨.deadlineExceeded, "streaming operation timed out"⟩ }
    else
      let got := limitedRead maxSize read body
      let sent := if got.1.chunk = "" then [] else [PutRequest.contents got.1.chunk]
      match got.1.ending with
      | .eof => { messages := sent, hashed := got.1.chunk }
      | .failed message =>
        { messages := sent
          hashed := got.1.chunk
          outcome := .error ⟨.internal, "failed to read from HTTP stream: " ++ message⟩ }
      | .more =>
        let later := streamBody maxSize expired (turn + 1) got.2 rest
        { messages := sent ++ later.messages
          hashed := got.1.chunk ++ later.hashed
          outcome := later.outcome }

/-- What an HTTP server does with a request. -/
inductive HttpStream where
  | failed (message : String)
  | response (statusCode : Nat) (status : String) (contentLength : Int) (body : List BodyRead)

/-- `DownloadHTTPStreaming` with a positive limit. -/
def downloadHTTPStreaming (http : HttpStream) (maxSize : Nat) : Except String (List BodyRead) :=
  match http with
  | .failed message => .error message
  | .response statusCode status contentLength body =>
    if statusCode < 200 ∨ 300 ≤ statusCode then
      .error ("HTTP error " ++ toString statusCode ++ ": " ++ status)
    else if contentLength > (maxSize : Int) then
      .error ("file size " ++ toString contentLength ++ " bytes exceeds maximum allowed size " ++
        toString maxSize ++ " bytes")
    else .ok body

/-! ## The transfer -/

/-- What a transfer meets besides the HTTP server: the connection to the DPU and the Put
stream, when its time is up, and how many messages arrive before a cancellation. -/
structure DpuChannel where
  connection : Except String Unit := .ok ()
  putClient : Except String Unit := .ok ()
  expired : Nat → Bool := fun _ => false
  arrived : Nat := 0

/-- The messages that a DPU receives. -/
def putEvents (messages : List PutRequest) : List PutEvent := messages.map .message

/-- What the DPU has received when the sender has cancelled the stream. -/
def DpuChannel.cancelled (channel : DpuChannel) (messages : List PutRequest) : List PutEvent :=
  putEvents (messages.take channel.arrived) ++ [.canceled "context canceled"]

/-- `HandleTransferToRemoteForDPUStreaming` for a DPU whose files are given: the MD5 sum,
and the files of the DPU afterwards. -/
def FileEnv.transferToDpu (dpu : FileEnv) (http : String → HttpStream) (channel : DpuChannel)
    (request : Option TransferRequest) (st : FileState) : Except Status String × FileState :=
  match dpuTransferTarget request with
  | .error e => (.error e, st)
  | .ok (localPath, url) =>
    match downloadHTTPStreaming (http url) maxFileSize with
    | .error e => (.error ⟨.internal, "failed to create HTTP stream: " ++ e⟩, st)
    | .ok reads =>
      match channel.connection with
      | .error e => (.error ⟨.internal, "failed to get DPU connection: " ++ e⟩, st)
      | .ok () =>
        match channel.putClient with
        | .error e => (.error ⟨.internal, "failed to create Put client: " ++ e⟩, st)
        | .ok () =>
          let sent := streamBody maxFileSize channel.expired 0 0 reads
          let messages := PutRequest.openFile localPath 0o644 :: sent.messages
          match sent.outcome with
          | .error e =>
            (.error e, (dpu.handlePut (channel.cancelled messages) none st).2)
          | .ok () =>
            let hash := dpu.md5 sent.hashed
            match dpu.handlePut (putEvents (messages ++ [.hash hash])) none st with
            | (.error e, st) =>
              (.error ⟨.internal, "failed to complete Put to DPU: rpc error: code = " ++
                e.code.text ++ " desc = " ++ e.message⟩, st)
            | (.ok (), st) => (.ok hash, st)

/-! ## What the sender sends -/

variable {maxSize read : Nat}

theorem limitedRead_of_le {body : BodyRead} (h : read + body.chunk.length ≤ maxSize) :
    limitedRead maxSize read body = (body, read + body.chunk.length) := by
  have hsome : maxSize + 1 - read ≠ 0 := by omega
  have hfits : body.chunk.length ≤ maxSize + 1 - read := by omega
  unfold limitedRead
  dsimp only
  rw [if_neg hsome, if_pos hfits, if_neg (by omega)]

theorem limitedRead_of_lt (body : BodyRead) (hread : read ≤ maxSize)
    (h : maxSize < read + body.chunk.length) :
    ∃ message, (limitedRead maxSize read body).1.ending = .failed message := by
  have hsome : maxSize + 1 - read ≠ 0 := by omega
  unfold limitedRead
  dsimp only
  rw [if_neg hsome]
  by_cases hfits : body.chunk.length ≤ maxSize + 1 - read
  · rw [if_pos hfits, if_pos h]
    exact ⟨_, rfl⟩
  -- the last byte that may be read is one too many
  have hlength : (String.ofList (body.chunk.toList.take (maxSize + 1 - read))).length =
      maxSize + 1 - read := by
    rw [String.length_ofList, length_take, String.length_toList]
    omega
  rw [if_neg hfits]
  rw [hlength, if_pos (by omega)]
  exact ⟨_, rfl⟩

/-- The sender sends what it hashes, in chunks. -/
theorem streamBody_messages (maxSize : Nat) (expired : Nat → Bool) (turn read : Nat)
    (reads : List BodyRead) :
    ∃ chunks, (streamBody maxSize expired turn read reads).messages = chunks.map .contents ∧
      String.join chunks = (streamBody maxSize expired turn read reads).hashed := by
  have hsent : ∀ chunk : String, ∃ chunks : List String,
      (if chunk = "" then [] else [PutRequest.contents chunk]) = chunks.map .contents ∧
        String.join chunks = chunk := by
    intro chunk
    by_cases hempty : chunk = ""
    · exact ⟨[], if_pos hempty, hempty.symm⟩
    · refine ⟨[chunk], if_neg hempty, ?_⟩
      rw [String.join_cons]
      exact String.append_empty
  induction reads generalizing turn read with
  | nil =>
    refine ⟨[], ?_⟩
    rw [streamBody]
    split <;> exact ⟨rfl, rfl⟩
  | cons body rest ih =>
    rw [streamBody]
    by_cases hexpired : expired turn = true
    · rw [if_pos hexpired]
      exact ⟨[], rfl, rfl⟩
    rw [if_neg hexpired]
    obtain ⟨chunks, hmessages, hjoin⟩ := hsent (limitedRead maxSize read body).1.chunk
    dsimp only
    cases (limitedRead maxSize read body).1.ending with
    | eof | failed message => exact ⟨chunks, hmessages, hjoin⟩
    | more =>
      obtain ⟨later, hlater, hhashed⟩ := ih (turn + 1) (limitedRead maxSize read body).2
      refine ⟨chunks ++ later, ?_, ?_⟩
      · rw [hmessages, hlater, map_append]
      · rw [String.join_append, hjoin, hhashed]

/-- A body can be sent: it ends without an error, it is not too long, and there is enough
time. -/
structure Sendable (maxSize : Nat) (expired : Nat → Bool) (turn read : Nat)
    (reads : List BodyRead) : Prop where
  ends : bodyFails reads = false
  fits : read + (bodyText reads).length ≤ maxSize
  inTime : ∀ later < bodyTurns reads, expired (turn + later) = false

theorem not_sendable_of_broken {expired : Nat → Bool} {turn : Nat}
    {reads : List BodyRead} (h : maxSize < (bodyText reads).length ∨ bodyFails reads = true) :
    ¬ Sendable maxSize expired turn 0 reads := by
  intro hsend
  have hfits := hsend.fits
  rw [Nat.zero_add] at hfits
  rcases h with hlong | hfails
  · omega
  · exact Bool.false_ne_true (hsend.ends.symm.trans hfails)

theorem Sendable.cons_more {expired : Nat → Bool} {turn : Nat}
    {chunk : String} {rest : List BodyRead} :
    Sendable maxSize expired turn read (⟨chunk, .more⟩ :: rest) ↔
      expired turn = false ∧ Sendable maxSize expired (turn + 1) (read + chunk.length) rest := by
  constructor
  · rintro ⟨hends, hfits, htime⟩
    rw [bodyText, if_pos rfl, String.length_append] at hfits
    dsimp only at hfits
    rw [bodyTurns, if_pos rfl] at htime
    refine ⟨htime 0 (by omega), hends, by omega, fun later hlater => ?_⟩
    rw [Nat.add_assoc, Nat.add_comm 1]
    exact htime (later + 1) (by omega)
  · rintro ⟨hnow, hends, hfits, htime⟩
    refine ⟨hends, ?_, ?_⟩
    · rw [bodyText, if_pos rfl, String.length_append]
      dsimp only
      omega
    · rw [bodyTurns, if_pos rfl]
      intro later hlater
      cases later with
      | zero => exact hnow
      | succ later =>
        have hlate := htime later (by omega)
        rwa [Nat.add_assoc, Nat.add_comm 1] at hlate

/-- The sender comes to the end of a body exactly if the body can be sent, and it has
then sent the body. -/
theorem streamBody_spec (expired : Nat → Bool) (turn : Nat)
    (reads : List BodyRead) (hread : read ≤ maxSize) :
    ((streamBody maxSize expired turn read reads).outcome = .ok () ↔
        Sendable maxSize expired turn read reads) ∧
      (Sendable maxSize expired turn read reads →
        (streamBody maxSize expired turn read reads).hashed = bodyText reads) := by
  induction reads generalizing turn read with
  | nil =>
    have htime : Sendable maxSize expired turn read [] ↔ expired turn = false := by
      constructor
      · exact fun h => h.inTime 0 (by decide)
      · intro hnow
        refine ⟨rfl, hread, fun later hlater => ?_⟩
        obtain rfl : later = 0 := Nat.lt_one_iff.1 hlater
        exact hnow
    rw [streamBody, htime]
    cases hnow : expired turn with
    | false => exact ⟨iff_of_true rfl rfl, fun _ => rfl⟩
    | true => exact ⟨iff_of_false nofun (by decide), fun h => by cases h⟩
  | cons body rest ih =>
    obtain ⟨chunk, ending⟩ := body
    rw [streamBody]
    cases hnow : expired turn with
    | true =>
      have hlate : ¬ Sendable maxSize expired turn read (⟨chunk, ending⟩ :: rest) := by
        intro h
        have hearly := h.inTime 0 (by rw [bodyTurns]; split <;> omega)
        rw [Nat.add_zero, hnow] at hearly
        cases hearly
      exact ⟨iff_of_false nofun hlate, fun h => absurd h hlate⟩
    | false =>
      by_cases hfits : read + chunk.length ≤ maxSize
      · rw [limitedRead_of_le hfits]
        cases ending with
        | more =>
          obtain ⟨hok, hhashed⟩ := ih (turn + 1) hfits
          rw [Sendable.cons_more]
          refine ⟨hok.trans (and_iff_right hnow).symm, fun h => ?_⟩
          rw [bodyText, if_pos rfl]
          exact congrArg (chunk ++ ·) (hhashed h.2)
        | eof =>
          refine ⟨iff_of_true rfl ⟨rfl, hfits, fun later hlater => ?_⟩, fun _ => rfl⟩
          obtain rfl : later = 0 := Nat.lt_one_iff.1 hlater
          exact hnow
        | failed message =>
          have hfails : ¬ Sendable maxSize expired turn read (⟨chunk, .failed message⟩ :: rest) :=
            fun h => by cases h.ends
          exact ⟨iff_of_false nofun hfails, fun h => absurd h hfails⟩
      · obtain ⟨message, hmessage⟩ := limitedRead_of_lt ⟨chunk, ending⟩ hread
          (Nat.lt_of_not_le hfits)
        have hlong : ¬ Sendable maxSize expired turn read (⟨chunk, ending⟩ :: rest) := by
          intro h
          have hbody := h.fits
          rw [bodyText] at hbody
          split at hbody
          · rw [String.length_append] at hbody
            dsimp only at hbody
            exact hfits (by omega)
          · exact hfits hbody
        dsimp only
        rw [hmessage]
        exact ⟨iff_of_false nofun hlong, fun h => absurd h hlong⟩

/-! ## What the DPU receives -/

theorem received_chunks (chunks : List String) {rest : List PutEvent} (hrest : received rest = "") :
    received ((chunks.map fun chunk => .message (.contents chunk)) ++ rest) =
      String.join chunks := by
  induction chunks with
  | nil => exact hrest
  | cons chunk chunks ih => rw [map_cons, cons_append, received, ih, String.join_cons]

theorem not_hashMatches_cancelled (md5 : String → String) (before message : String)
    (chunks : List String) :
    ¬ HashMatches md5 before
      ((chunks.map fun chunk => .message (.contents chunk)) ++ [.canceled message]) := by
  induction chunks generalizing before with
  | nil => exact id
  | cons chunk chunks ih =>
    rw [map_cons, cons_append, HashMatches]
    exact ih (before ++ chunk)

/-- The part of a body that has arrived before a cancellation. -/
def DpuChannel.arrivedText (channel : DpuChannel) (reads : List BodyRead) : String :=
  received (putEvents
    ((streamBody maxFileSize channel.expired 0 0 reads).messages.take (channel.arrived - 1)))

section Call

variable {dpu : FileEnv} {channel : DpuChannel} {localPath : String} {reads : List BodyRead}
  {st : FileState} {file : Location}

section

variable (hopen : st.fs.follow (dpu.translatePathForContainer localPath ++ ".tmp") = some file)
include hopen

/-- The DPU puts a body that has been sent as a whole. -/
theorem handlePut_streamed (hpath : validatePath localPath = .ok ())
    (hsend : Sendable maxFileSize channel.expired 0 0 reads) {node : Node}
    (hnode : (st.fs.set file (some (.file (bodyText reads)))).node
      (st.fs.loc (dpu.translatePathForContainer localPath ++ ".tmp")) = some node) :
    ∃ after, dpu.handlePut (putEvents (PutRequest.openFile localPath 0o644 ::
        (streamBody maxFileSize channel.expired 0 0 reads).messages ++
          [.hash (dpu.md5 (streamBody maxFileSize channel.expired 0 0 reads).hashed)])) none st =
        (.ok (), after) ∧
      after.fs.node (st.fs.loc (dpu.translatePathForContainer localPath)) = some node := by
  obtain ⟨chunks, hmessages, hjoin⟩ := streamBody_messages maxFileSize channel.expired 0 0 reads
  rw [(streamBody_spec channel.expired 0 reads (Nat.zero_le maxFileSize)).2 hsend] at hjoin ⊢
  have hevents : putEvents (PutRequest.openFile localPath 0o644 ::
      chunks.map .contents ++ [.hash (dpu.md5 (bodyText reads))]) =
      .message (.openFile localPath 0o644) ::
        ((chunks.map fun chunk => .message (.contents chunk)) ++
          [.message (.hash (dpu.md5 (bodyText reads)))]) := by
    rw [putEvents, cons_append, map_cons, map_append, map_map]
    rfl
  have hmatches := hashMatches_of_chunks dpu.md5 chunks [] ""
  have hreceived := received_chunks chunks
    (rfl : received [.message (.hash (dpu.md5 (bodyText reads)))] = "")
  rw [String.empty_append, hjoin] at hmatches
  rw [hjoin] at hreceived
  rw [hmessages, hevents,
    handlePut_verified none (putTarget_openFile hpath) hopen hmatches (hreceived ▸ hnode) rfl]
  refine ⟨_, rfl, ?_⟩
  exact (node_set ..).trans (if_pos rfl)

/-- What a cancelled stream does to the file on the DPU. -/
theorem handlePut_cancelled (hpath : validatePath localPath = .ok ())
    (harrived : 0 < channel.arrived) :
    (dpu.handlePut (channel.cancelled (.openFile localPath 0o644 ::
        (streamBody maxFileSize channel.expired 0 0 reads).messages)) none st).2.fs.node
        (st.fs.loc (dpu.translatePathForContainer localPath)) =
      if st.fs.loc (dpu.translatePathForContainer localPath) = file then
        some (.file (channel.arrivedText reads))
      else st.fs.node (st.fs.loc (dpu.translatePathForContainer localPath)) := by
  obtain ⟨chunks, hmessages, -⟩ := streamBody_messages maxFileSize channel.expired 0 0 reads
  obtain ⟨count, hcount⟩ := Nat.exists_eq_add_of_lt harrived
  rw [Nat.zero_add] at hcount
  have hevents : channel.cancelled (.openFile localPath 0o644 :: chunks.map .contents) =
      .message (.openFile localPath 0o644) ::
        (((chunks.take count).map fun chunk => .message (.contents chunk)) ++
          [.canceled "context canceled"]) := by
    rw [DpuChannel.cancelled, hcount, take_succ_cons, putEvents, map_cons, ← map_take, map_map]
    rfl
  have htext : channel.arrivedText reads = String.join (chunks.take count) := by
    have hreceived := received_chunks (chunks.take count) (rfl : received [] = "")
    rw [append_nil] at hreceived
    rw [DpuChannel.arrivedText, hmessages, hcount, Nat.add_sub_cancel, ← map_take, putEvents,
      map_map, ← hreceived]
    rfl
  have hreceived := received_chunks (chunks.take count)
    (rfl : received [.canceled "context canceled"] = "")
  rw [← htext] at hreceived
  have hne : st.fs.loc (dpu.translatePathForContainer localPath) ≠
      st.fs.loc (dpu.translatePathForContainer localPath ++ ".tmp") :=
    (locate_append_ne st.fs.cwd _ (by decide) (by decide)).symm
  rw [hmessages, hevents, (handlePut_unverified none (putTarget_openFile hpath) hopen
    (not_hashMatches_cancelled dpu.md5 "" _ _)).2]
  refine (node_set ..).trans ((if_neg hne).trans ?_)
  rw [node_set]
  rw [hreceived]

end

/-- A stream whose path is not accepted, or that is cancelled before its first message,
changes nothing. -/
theorem handlePut_of_putTarget_error (dpu : FileEnv) (st : FileState)
    {events : List PutEvent} {fault : Status}
    (h : putTarget events = .error fault) : dpu.handlePut events none st = (.error fault, st) := by
  rw [FileEnv.handlePut, h]

theorem putTarget_of_invalid (hpath : validatePath localPath ≠ .ok ()) (permissions : Nat)
    (rest : List PutEvent) :
    ∃ fault, putTarget (.message (.openFile localPath permissions) :: rest) = .error fault := by
  cases htarget : putTarget (.message (.openFile localPath permissions) :: rest) with
  | error fault => exact ⟨fault, rfl⟩
  | ok target =>
    obtain ⟨bits, hevents, hvalid⟩ := openFile_of_putTarget htarget
    cases hevents
    exact absurd hvalid hpath

end Call

/-! ## What a client expects -/

/-- The body of a response. -/
def HttpStream.body : HttpStream → List BodyRead
  | .failed _ => []
  | .response _ _ _ reads => reads

theorem body_of_downloadHTTPStreaming {http : HttpStream} {reads : List BodyRead}
    (h : downloadHTTPStreaming http maxSize = .ok reads) : http.body = reads := by
  cases http with
  | failed message => cases h
  | response code text length body =>
    rw [downloadHTTPStreaming] at h
    split at h
    · cases h
    · split at h
      · cases h
      · exact Except.ok.inj h

/-- A transfer gets as far as sending a body. -/
structure Streams (http : String → HttpStream) (channel : DpuChannel)
    (request : Option TransferRequest) (localPath url : String) (reads : List BodyRead) :
    Prop where
  target : dpuTransferTarget request = .ok (localPath, url)
  opened : downloadHTTPStreaming (http url) maxFileSize = .ok reads
  connected : channel.connection = .ok ()
  started : channel.putClient = .ok ()

/-- What a client expects of a transfer. -/
structure FaithfulTransfer (dpu : FileEnv) (http : String → HttpStream) (channel : DpuChannel)
    (request : Option TransferRequest) (st : FileState) : Prop where
  /-- After a success the DPU has the body, and the hash is its MD5 sum. -/
  success : ∀ hash, (dpu.transferToDpu http channel request st).1 = .ok hash →
    ∃ localPath url, dpuTransferTarget request = .ok (localPath, url) ∧
      (bodyText (http url).body).length ≤ maxFileSize ∧
      (dpu.transferToDpu http channel request st).2.fs.node
          (st.fs.loc (dpu.translatePathForContainer localPath)) =
        some (.file (bodyText (http url).body)) ∧
      hash = dpu.md5 (bodyText (http url).body)
  /-- A body that is too long or cannot be read is an error and changes nothing. -/
  failure : ∀ localPath url, dpuTransferTarget request = .ok (localPath, url) →
    maxFileSize < (bodyText (http url).body).length ∨ bodyFails (http url).body = true →
    (∀ hash, (dpu.transferToDpu http channel request st).1 ≠ .ok hash) ∧
      (dpu.transferToDpu http channel request st).2.fs.node
          (st.fs.loc (dpu.translatePathForContainer localPath)) =
        st.fs.node (st.fs.loc (dpu.translatePathForContainer localPath))

/-- The condition for a transfer that sends a body to a path the DPU accepts.  If the
body can be sent, there must be no link at the temporary path on the DPU.  If it is too
long or cannot be read, a link at the temporary path must not lead to the file, unless the
file is already what has arrived of the body. -/
structure TransferCondition (dpu : FileEnv) (channel : DpuChannel) (st : FileState)
    (localPath : String) (reads : List BodyRead) : Prop where
  sent : Sendable maxFileSize channel.expired 0 0 reads →
    NoLink st.fs (dpu.translatePathForContainer localPath ++ ".tmp")
  broken : maxFileSize < (bodyText reads).length ∨ bodyFails reads = true →
    0 < channel.arrived →
    st.fs.follow (dpu.translatePathForContainer localPath ++ ".tmp") =
      some (st.fs.loc (dpu.translatePathForContainer localPath)) →
    st.fs.node (st.fs.loc (dpu.translatePathForContainer localPath)) =
      some (.file (channel.arrivedText reads))

section Iff

variable {dpu : FileEnv} {http : String → HttpStream} {channel : DpuChannel}
  {request : Option TransferRequest} {st : FileState} {localPath url : String}
  {reads : List BodyRead} {file : Location}

theorem transferToDpu_of_not_streams (dpu : FileEnv) (st : FileState)
    (h : ∀ localPath url reads, ¬ Streams http channel request localPath url reads) :
    ∃ fault, dpu.transferToDpu http channel request st = (.error fault, st) := by
  unfold FileEnv.transferToDpu
  rcases htarget : dpuTransferTarget request with fault | ⟨localPath, url⟩
  · exact ⟨_, rfl⟩
  rcases hopened : downloadHTTPStreaming (http url) maxFileSize with fault | reads
  · dsimp only
    rw [hopened]
    exact ⟨_, rfl⟩
  rcases hconnected : channel.connection with fault | ⟨⟩
  · dsimp only
    rw [hopened]
    exact ⟨_, rfl⟩
  rcases hstarted : channel.putClient with fault | ⟨⟩
  · dsimp only
    rw [hopened]
    exact ⟨_, rfl⟩
  exact absurd ⟨htarget, hopened, hconnected, hstarted⟩ (h localPath url reads)

section

variable (hstreams : Streams http channel request localPath url reads)
include hstreams

theorem transferToDpu_of_not_sendable (dpu : FileEnv) (st : FileState)
    (hsend : ¬ Sendable maxFileSize channel.expired 0 0 reads) :
    ∃ fault, dpu.transferToDpu http channel request st =
      (.error fault, (dpu.handlePut (channel.cancelled (.openFile localPath 0o644 ::
        (streamBody maxFileSize channel.expired 0 0 reads).messages)) none st).2) := by
  have houtcome := (streamBody_spec channel.expired 0 reads (Nat.zero_le maxFileSize)).1
  unfold FileEnv.transferToDpu
  rw [hstreams.target]
  dsimp only
  rw [hstreams.opened, hstreams.connected, hstreams.started]
  dsimp only
  rcases hresult : (streamBody maxFileSize channel.expired 0 0 reads).outcome with fault | ⟨⟩
  · exact ⟨fault, rfl⟩
  · exact absurd (houtcome.1 hresult) hsend

theorem transferToDpu_of_sendable (hsend : Sendable maxFileSize channel.expired 0 0 reads)
    {result : Except Status Unit} {after : FileState} (hput : dpu.handlePut (putEvents (PutRequest.openFile localPath 0o644 ::
        (streamBody maxFileSize channel.expired 0 0 reads).messages ++
          [.hash (dpu.md5 (streamBody maxFileSize channel.expired 0 0 reads).hashed)])) none st =
        (result, after)) :
    (dpu.transferToDpu http channel request st).2 = after ∧
      ∀ hash, (dpu.transferToDpu http channel request st).1 = .ok hash ↔
        result = .ok () ∧ hash = dpu.md5 (bodyText reads) := by
  obtain ⟨houtcome, hhashed⟩ := streamBody_spec channel.expired 0 reads (Nat.zero_le maxFileSize)
  unfold FileEnv.transferToDpu
  rw [hstreams.target]
  dsimp only
  rw [hstreams.opened, hstreams.connected, hstreams.started]
  dsimp only
  rw [houtcome.2 hsend]
  rw [hput]
  rcases result with fault | ⟨⟩
  · exact ⟨rfl, fun hash => iff_of_false nofun (fun h => by cases h.1)⟩
  · refine ⟨rfl, fun hash => ?_⟩
    rw [hhashed hsend]
    exact ⟨fun h => ⟨rfl, (Except.ok.inj h).symm⟩, fun h => congrArg Except.ok h.2.symm⟩

theorem FaithfulTransfer.condition (hfaithful : FaithfulTransfer dpu http channel request st)
    (hpath : validatePath localPath = .ok ())
    (hopen : st.fs.follow (dpu.translatePathForContainer localPath ++ ".tmp") = some file) :
    TransferCondition dpu channel st localPath reads where
  sent := by
    intro hsend text htext
    -- the link is renamed, so the DPU has no file at the path
    have hne : st.fs.loc (dpu.translatePathForContainer localPath ++ ".tmp") ≠ file := by
      intro heq
      exact st.fs.resolve_not_link hopen text (heq ▸ htext)
    have hnode : (st.fs.set file (some (.file (bodyText reads)))).node
        (st.fs.loc (dpu.translatePathForContainer localPath ++ ".tmp")) = some (.link text) := by
      rw [node_set, if_neg hne, htext]
    obtain ⟨after, hput, hlink⟩ := handlePut_streamed hopen hpath hsend hnode
    obtain ⟨hafter, hresult⟩ := transferToDpu_of_sendable hstreams hsend hput
    obtain ⟨path, other, htarget, -, hfile, -⟩ := hfaithful.success _ ((hresult _).2 ⟨rfl, rfl⟩)
    cases hstreams.target.symm.trans htarget
    rw [hafter, hlink] at hfile
    cases hfile
  broken := by
    intro hbroken harrived hself
    obtain rfl := body_of_downloadHTTPStreaming hstreams.opened
    have hkept := (hfaithful.failure localPath url hstreams.target hbroken).2
    obtain ⟨fault, htransfer⟩ :=
      transferToDpu_of_not_sendable hstreams dpu st (not_sendable_of_broken hbroken)
    rw [htransfer] at hkept
    rw [handlePut_cancelled hself hpath harrived, if_pos rfl] at hkept
    exact hkept.symm

/-- A body that can be sent arrives, unless the DPU does not accept the path. -/
theorem faithfulTransfer_of_sendable
    (hsend : Sendable maxFileSize channel.expired 0 0 reads)
    (hlink : validatePath localPath = .ok () →
      NoLink st.fs (dpu.translatePathForContainer localPath ++ ".tmp")) :
    FaithfulTransfer dpu http channel request st := by
  obtain rfl := body_of_downloadHTTPStreaming hstreams.opened
  refine ⟨fun hash hresult => ?_, ?_⟩
  · refine ⟨localPath, url, hstreams.target, ?_, ?_⟩
    · have hfits := hsend.fits
      rwa [Nat.zero_add] at hfits
    by_cases hpath : validatePath localPath = .ok ()
    · obtain ⟨after, hput, hfile⟩ := handlePut_streamed (hlink hpath).follow hpath hsend
          ((node_set ..).trans (if_pos rfl))
      obtain ⟨hafter, hok⟩ := transferToDpu_of_sendable hstreams hsend hput
      rw [hafter]
      exact ⟨hfile, ((hok hash).1 hresult).2⟩
    · obtain ⟨fault, htarget⟩ := putTarget_of_invalid hpath 0o644
        (putEvents ((streamBody maxFileSize channel.expired 0 0 (http url).body).messages ++
          [.hash (dpu.md5 (streamBody maxFileSize channel.expired 0 0 (http url).body).hashed)]))
      have hok := (transferToDpu_of_sendable hstreams hsend
        (handlePut_of_putTarget_error dpu st htarget)).2
      cases ((hok hash).1 hresult).1
  · intro path other htarget hbroken
    cases hstreams.target.symm.trans htarget
    exact absurd hsend (not_sendable_of_broken hbroken)

/-- A body that cannot be sent leaves the file of the DPU as it is. -/
theorem faithfulTransfer_of_not_sendable
    (hsend : ¬ Sendable maxFileSize channel.expired 0 0 reads)
    (hcondition : validatePath localPath = .ok () →
      TransferCondition dpu channel st localPath reads) (hopen : validatePath localPath = .ok () →
      (st.fs.follow (dpu.translatePathForContainer localPath ++ ".tmp")).isSome = true) :
    FaithfulTransfer dpu http channel request st := by
  obtain rfl := body_of_downloadHTTPStreaming hstreams.opened
  obtain ⟨fault, htransfer⟩ := transferToDpu_of_not_sendable hstreams dpu st hsend
  refine ⟨fun hash hresult => ?_, fun path other htarget hbroken => ⟨fun hash hresult => ?_, ?_⟩⟩
  · rw [htransfer] at hresult
    cases hresult
  · rw [htransfer] at hresult
    cases hresult
  cases hstreams.target.symm.trans htarget
  rw [htransfer]
  cases harrived : channel.arrived with
  | zero =>
    rw [DpuChannel.cancelled, harrived, handlePut_of_putTarget_error dpu st rfl]
  | succ count =>
    by_cases hpath : validatePath localPath = .ok ()
    · obtain ⟨file, hfile⟩ := Option.isSome_iff_exists.1 (hopen hpath)
      have hpositive : 0 < channel.arrived := by omega
      rw [handlePut_cancelled hfile hpath hpositive]
      split
      · rename_i heq
        rw [← heq] at hfile
        exact ((hcondition hpath).broken hbroken hpositive hfile).symm
      · rfl
    · obtain ⟨reason, hreason⟩ := putTarget_of_invalid hpath 0o644 _
      rw [DpuChannel.cancelled, harrived, take_succ_cons, putEvents, map_cons,
        cons_append, handlePut_of_putTarget_error dpu st hreason]

end

end Iff

def imageRequest : TransferRequest :=
  { remoteDownload := some { path := "http://server/image" }, localPath := "/tmp/image" }

/-- A server that sends a body in three reads, the last one with its end. -/
def imageServer : String → HttpStream := fun _ =>
  .response 200 "200 OK" 3 [⟨"ab", .more⟩, ⟨"", .more⟩, ⟨"c", .eof⟩]

def linkedImage : FileState where
  fs :=
    { node := fun loc =>
        if loc = ["tmp", "image.tmp"] then some (.link "/tmp/image")
        else if loc = ["tmp", "image"] then some (.file "old")
        else none }

def brokenServer : String → HttpStream := fun _ =>
  .response 200 "200 OK" 3 [⟨"x", .failed "unexpected EOF"⟩]

end SonicGnmi.Gnoi
