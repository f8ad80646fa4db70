import SonicGnmi.Gnoi.File

/-!
# Installation of an OS image

`OSServer.Install` of `gnoi_os.go`.  A session asks the backend whether an image is
wanted, appends the chunks of the image to a file of the image directory, and tells the
backend when the transfer is complete.

The answers of the backend come with the messages they answer.  The backend itself
changes no file here.
-/

namespace SonicGnmi.Gnoi

open Foundation Grpc

inductive InstallRequest where
  | transferRequest (version : String)
  | transferContent (content : String)
  | transferEnd
  | empty

/-- `InstallError_Type`, as far as the server uses it itself. -/
inductive InstallErrorType where
  | unspecified
  | parseFail
  | installInProgress
  deriving DecidableEq

/-- `InstallResponse`.  The answers of the backend that are no errors are not looked
at. -/
inductive InstallResponse where
  | installError (type : InstallErrorType) (detail : String)
  | transferProgress (bytesReceived : Nat)
  | other (text : String)
  deriving DecidableEq

/-- `GetInstallError` is not nil. -/
def InstallResponse.isError : InstallResponse → Bool
  | .installError _ _ => true
  | _ => false

/-- What `InstallOS` of the backend returns: an error, a text that is not a response, or
a response. -/
inductive BackendAnswer where
  | unimplemented (err : String)
  | failed (err respStr : String)
  | malformed (err respStr : String)
  | response (resp : InstallResponse)

/-- What an Install stream delivers next, with the answer of the backend to it and the
error of sending the response. -/
inductive InstallEvent where
  | eof
  | recvError (message : String)
  | message (request : InstallRequest) (answer : BackendAnswer) (sendError : Option String)

/-- The settings of the service: the image directory, and the printed bytes of a
request. -/
structure OsConfig where
  imgDir : String
  reqStr : InstallRequest → String

/-- The files, and `totalBytesReceived` by path. -/
structure OsState where
  files : FileState := {}
  totalBytesReceived : String → Nat := fun _ => 0

/-- What a session does: the responses it sends, its result and the state it leaves. -/
structure InstallRun where
  sent : List InstallResponse := []
  result : Except Status Unit
  state : OsState

section

variable (config : OsConfig)

/-- The response to an answer of the backend. -/
def backendResponse (phase : String) (req : InstallRequest) : BackendAnswer → InstallResponse
  | .unimplemented err =>
    .installError .unspecified ("Error in " ++ phase ++ " response: err: " ++ err ++
      ", reqStr: " ++ config.reqStr req ++ ", respStr: ")
  | .failed err respStr =>
    .installError .unspecified ("Error in " ++ phase ++ " response: err: " ++ err ++
      ", reqStr: " ++ config.reqStr req ++ ", respStr: " ++ respStr)
  | .malformed err respStr =>
    .installError .unspecified ("Failed to unmarshal " ++ phase ++ " JSON: err: " ++ err ++
      ", respStr: " ++ respStr)
  | .response resp => resp

/-- `processTransferReq`; nothing is sent when the backend does not know the call. -/
def processTransferReq (version : String) (answer : BackendAnswer) : Option InstallResponse :=
  if version = "" then
    some (.installError .parseFail "TransferRequest must contain a valid OS version.")
  else
    match answer with
    | .unimplemented _ => none
    | answer => some (backendResponse config "TransferReady" (.transferRequest version) answer)

def processTransferEnd (answer : BackendAnswer) : InstallResponse :=
  backendResponse config "TransferEnd" .transferEnd answer

def OsConfig.getVersionPath (version : String) : String := config.imgDir ++ "/" ++ version

def imageExists (st : OsState) (path : String) : Bool := (st.files.fs.lstat path).toBool

def removeIncompleteTransfer (st : OsState) (imgPath : String) : OsState :=
  if imageExists st imgPath then { st with files := st.files.removeLogged imgPath } else st

/-- The path that content is written to. -/
def OsConfig.safePath (imgPath : String) : String :=
  if GoText.hasPrefix (cleanPath imgPath) "/" then cleanPath imgPath
  else cleanPath (joinPath config.imgDir (cleanPath imgPath))

/-- `os.OpenFile` that creates or appends, and the write. -/
def appendFile (files : FileState) (path content : String) : Except String FileState :=
  match files.fs.follow path with
  | none => .error ("open " ++ path ++ ": too many levels of symbolic links")
  | some loc =>
    match files.fs.node loc with
    | some (.file old) =>
      .ok { files with fs := files.fs.set loc (some (.file (old ++ content))) }
    | _ =>
      .ok
        { fs := files.fs.set loc (some (.file content))
          mode := Function.update files.mode loc 0o644 }

def processTransferContent (st : OsState) (content imgPath : String) :
    InstallResponse × OsState :=
  let safePath := config.safePath imgPath
  if !GoText.hasPrefix safePath config.imgDir then
    (.installError .unspecified ("Invalid image path: " ++ imgPath), st)
  else
    match appendFile st.files safePath content with
    | .error _ => (.installError .unspecified ("Failed to open file [" ++ safePath ++ "]."), st)
    | .ok files =>
      let total := st.totalBytesReceived safePath + content.utf8ByteSize
      (.transferProgress total,
        { files := files
          totalBytesReceived := Function.update st.totalBytesReceived safePath total })

/-- The end of a session after `TransferEnd`. -/
def installEnd (imgPath : String) (answer : BackendAnswer) (sendError : Option String)
    (st : OsState) : InstallRun :=
  let resp := processTransferEnd config answer
  match sendError with
  | some e => { result := .error ⟨.aborted, e⟩, state := removeIncompleteTransfer st imgPath }
  | none =>
    if resp.isError then
      { sent := [resp]
        result := .error ⟨.aborted, "Failed to process TransferEnd."⟩
        state := removeIncompleteTransfer st imgPath }
    else { sent := [resp], result := .ok (), state := st }

/-- The content of a message that is neither a request nor the end. -/
def InstallRequest.content : InstallRequest → String
  | .transferContent content => content
  | _ => ""

/-- The loop of `Install`, and whether a transfer was initiated in it. -/
def installLoop (imgPath : String) : List InstallEvent → Bool → OsState → Bool × InstallRun
  | [], initiated, st | .eof :: _, initiated, st =>
    (initiated,
      { result := .error ⟨.aborted, "Stream closed prematurely during transfer."⟩, state := st })
  | .recvError message :: _, initiated, st =>
    (initiated, { result := .error ⟨.aborted, message⟩, state := st })
  | .message (.transferRequest _) _ _ :: _, initiated, st =>
    (initiated,
      { result := .error ⟨.invalidArgument, "Expected TransferContent, or TransferEnd."⟩
        state := st })
  | .message .transferEnd answer sendError :: _, initiated, st =>
    (initiated, installEnd config imgPath answer sendError st)
  | .message req _ sendError :: rest, initiated, st =>
    if !initiated && imageExists st imgPath then
      (initiated,
        { result := .error ⟨.aborted, "Image already exists: " ++ imgPath⟩, state := st })
    else
      match processTransferContent config st req.content imgPath with
      | (resp, st) =>
        match sendError with
        | some e =>
          (true,
            { result := .error ⟨.aborted, e⟩, state := removeIncompleteTransfer st imgPath })
        | none =>
          if resp.isError then
            (true,
              { sent := [resp]
                result := .error ⟨.aborted, "Failed to process TransferContent."⟩
                state := removeIncompleteTransfer st imgPath })
          else
            let (initiated, run) := installLoop imgPath rest true st
            (initiated, { run with sent := resp :: run.sent })

/-- What the first message of a stream leads to: the end of the session, or a transfer
of a version. -/
inductive InstallStart where
  | done (sent : List InstallResponse) (result : Except Status Unit)
  | transfer (sent : List InstallResponse) (version : String) (rest : List InstallEvent)

/-- `Install` up to its loop. -/
def installStart : List InstallEvent → InstallStart
  | [] | .eof :: _ => .done [] (.ok ())
  | .recvError message :: _ => .done [] (.error ⟨.aborted, message⟩)
  | .message (.transferRequest version) answer sendError :: rest =>
    match processTransferReq config version answer with
    | none => .done [] (.error ⟨.unimplemented, "OS Install not supported"⟩)
    | some resp =>
      match sendError with
      | some e => .done [] (.error ⟨.aborted, e⟩)
      | none =>
        if resp.isError then
          .done [resp] (.error ⟨.aborted, "Failed to process TransferRequest."⟩)
        else .transfer [resp] version rest
  | .message _ _ _ :: _ => .done [] (.error ⟨.invalidArgument, "Expected TransferRequest."⟩)

/-- The lock that allows one session at a time: another call may hold it, and then the
response may not reach the client. -/
inductive InstallLock where
  | free
  | held (sendError : Option String)

/-- `Install` after the authentication.  The image is removed at the end of every session
that transferred something. -/
def install (lock : InstallLock) (events : List InstallEvent) (st : OsState) : InstallRun :=
  match lock with
  | .held (some e) => { result := .error ⟨.aborted, e⟩, state := st }
  | .held none =>
    { sent := [.installError .installInProgress "Concurrent Install RPCs are not allowed."]
      result := .error ⟨.aborted, "Concurrent Install RPCs are not allowed."⟩
      state := st }
  | .free =>
    match installStart config events with
    | .done sent result => { sent := sent, result := result, state := st }
    | .transfer sent version rest =>
      let imgPath := config.getVersionPath version
      let (initiated, run) := installLoop config imgPath rest false st
      { sent := sent ++ run.sent
        result := run.result
        state := if initiated then removeIncompleteTransfer run.state imgPath else run.state }

end

end SonicGnmi.Gnoi
