import SonicGnmi.Foundation.FileSystem
import SonicGnmi.Grpc.Context

/-!
# The gNOI file service

The handlers of `pkg/gnoi/file/file.go`: `HandlePut`, `HandleFileRemove` and
`HandleTransferToRemote` with the download of `internal/download`.  Each of them
checks its request before it touches a file; the checks are functions of their own.

What a stream delivers is a list of events; a stream whose list is used up delivers
EOF.  The answer of an HTTP server and of a DPU, the MD5 sum and whether the host file
system is mounted are parameters.

The contents of files and messages are texts with a character for each byte.
-/

namespace SonicGnmi.Gnoi

open Foundation Grpc

/-! ## Files with permissions -/

/-- The files of the device and their permission bits. -/
structure FileState where
  fs : FileSystem := {}
  mode : Location → Nat := fun _ => 0

namespace FileState

variable (st : FileState)

/-- `os.OpenFile` that creates or truncates; an open file is known by its location. -/
def openTruncated (path : String) : Except String (Location × FileState) :=
  match st.fs.follow path with
  | none => .error ("open " ++ path ++ ": too many levels of symbolic links")
  | some loc =>
    .ok (loc,
      { fs := st.fs.set loc (some (.file ""))
        mode :=
          if (st.fs.node loc).isNone then Function.update st.mode loc 0o644 else st.mode })

/-- `Write` on an open file, at its end. -/
def write (file : Location) (chunk : String) : FileState :=
  match st.fs.node file with
  | some (.file content) => { st with fs := st.fs.set file (some (.file (content ++ chunk))) }
  | _ => st

/-- The permission bits that `os.Chmod` sets for a mode: its own bits for setuid, setgid
and sticky are not those of the system. -/
def syscallMode (mode : Nat) : Nat :=
  mode % 0o1000 + (if mode.testBit 23 then 0o4000 else 0) +
    (if mode.testBit 22 then 0o2000 else 0) + (if mode.testBit 20 then 0o1000 else 0)

def chmod (st : FileState) (path : String) (permissions : Nat) : Except String FileState :=
  match st.fs.follow path with
  | none => .error ("chmod " ++ path ++ ": too many levels of symbolic links")
  | some loc =>
    match st.fs.node loc with
    | none => .error ("chmod " ++ path ++ ": no such file or directory")
    | some _ => .ok { st with mode := Function.update st.mode loc (syscallMode permissions) }

/-- `os.Rename`; the permissions move with the file. -/
def rename (st : FileState) (old new : String) : Except String FileState :=
  match st.fs.rename old new with
  | .error e => .error e
  | .ok fs =>
    .ok { fs := fs, mode := Function.update st.mode (st.fs.loc new) (st.mode (st.fs.loc old)) }

def remove (st : FileState) (path : String) : Except String FileState :=
  match st.fs.remove path with
  | .error e => .error e
  | .ok fs => .ok { st with fs := fs }

/-- `os.Remove`, whose error is ignored. -/
def removeLogged (path : String) : FileState :=
  match st.remove path with
  | .error _ => st
  | .ok st => st

/-- `os.Stat` finds something. -/
def isPresent (path : String) : Bool :=
  ((st.fs.follow path).bind st.fs.node).isSome

end FileState

/-! ## Paths -/

def validatePath (path : String) : Except String Unit :=
  let clean := cleanPath path
  if !GoText.hasPrefix clean "/" then .error ("path must be absolute, got: " ++ path)
  else if GoText.contains clean ".." then .error ("path traversal not allowed: " ++ path)
  else if GoText.hasPrefix clean "/tmp/" || GoText.hasPrefix clean "/var/tmp/" then .ok ()
  else .error ("path must be under /tmp/ or /var/tmp/, got: " ++ clean)

/-- What the service finds around it: whether the host file system is mounted at
`/mnt/host`, and the MD5 sum. -/
structure FileEnv where
  hostMounted : Bool := false
  md5 : String → String

variable (env : FileEnv)

def FileEnv.translatePathForContainer (path : String) : String :=
  if env.hostMounted then "/mnt/host" ++ cleanPath path else cleanPath path

/-! ## Put -/

inductive PutRequest where
  | openFile (remoteFile : String) (permissions : Nat)
  | contents (chunk : String)
  | hash (value : String)
  | empty

/-- What a Put stream delivers next. -/
inductive PutEvent where
  | eof
  | canceled (message : String)
  | recvError (message : String)
  | message (request : PutRequest)

/-- What a Put stream asks for: the path, the permissions and the messages that follow. -/
structure PutTarget where
  remotePath : String
  permissions : Nat
  rest : List PutEvent

/-- The first message of a Put stream. -/
def putTarget : List PutEvent → Except Status PutTarget
  | [] | .eof :: _ => .error ⟨.internal, "failed to receive first message: EOF"⟩
  | .canceled message :: _ | .recvError message :: _ =>
    .error ⟨.internal, "failed to receive first message: " ++ message⟩
  | .message (.openFile remotePath permissions) :: rest =>
    if remotePath = "" then .error ⟨.invalidArgument, "remote_file cannot be empty"⟩
    else
      match validatePath remotePath with
      | .error e => .error ⟨.invalidArgument, "invalid remote_file: " ++ e⟩
      | .ok () =>
        .ok
          { remotePath := remotePath
            permissions := if permissions = 0 then 0o644 else permissions
            rest := rest }
  | .message _ :: _ => .error ⟨.invalidArgument, "first message must be Open"⟩

/-- The loop of `HandlePut`; `received` is what has been hashed. -/
def putLoop (md5 : String → String) (file : Location) :
    List PutEvent → String → FileState → Except Status Unit × FileState
  | [], _, st | .eof :: _, _, st =>
    (.error ⟨.invalidArgument, "unexpected end of stream before hash"⟩, st)
  | .canceled message :: _, _, st => (.error ⟨.canceled, "stream canceled: " ++ message⟩, st)
  | .recvError message :: _, _, st =>
    (.error ⟨.internal, "failed to receive chunk: " ++ message⟩, st)
  | .message (.contents chunk) :: rest, received, st =>
    putLoop md5 file rest (received ++ chunk) (st.write file chunk)
  | .message (.hash value) :: _, received, st =>
    if md5 received ≠ value then
      (.error ⟨.dataLoss, "hash mismatch: file corrupted during transfer"⟩, st)
    else (.ok (), st)
  | .message _ :: _, _, st =>
    (.error ⟨.invalidArgument, "message must contain contents or hash"⟩, st)

/-- Steps 8 and 9: the temporary file gets its permissions and its name. -/
def putFinish (st : FileState) (tempPath path : String) (permissions : Nat) :
    Except Status Unit × FileState :=
  match st.chmod tempPath permissions with
  | .error e => (.error ⟨.internal, "failed to set permissions: " ++ e⟩, st)
  | .ok st =>
    match st.rename tempPath path with
    | .error e => (.error ⟨.internal, "failed to rename file: " ++ e⟩, st)
    | .ok st => (.ok (), st)

/-- The deferred removal of the temporary file. -/
def putCleanup (st : FileState) (tempPath : String) : FileState :=
  if st.isPresent tempPath then st.removeLogged tempPath else st

/-- `HandlePut`; the answer may not reach the client. -/
def FileEnv.handlePut (events : List PutEvent) (sendError : Option Status)
    (st : FileState) : Except Status Unit × FileState :=
  match putTarget events with
  | .error e => (.error e, st)
  | .ok target =>
    let path := env.translatePathForContainer target.remotePath
    let tempPath := path ++ ".tmp"
    match st.openTruncated tempPath with
    | .error e => (.error ⟨.internal, "failed to create temp file: " ++ e⟩, st)
    | .ok (file, st) =>
      match putLoop env.md5 file target.rest "" st with
      | (.error e, st) => (.error e, putCleanup st tempPath)
      | (.ok (), st) =>
        match putFinish st tempPath path target.permissions with
        | (.error e, st) => (.error e, putCleanup st tempPath)
        | (.ok (), st) =>
          (match sendError with
            | some e => .error e
            | none => .ok (),
            putCleanup st tempPath)

/-! ## Remove -/

/-- The checks of `HandleFileRemove`; the request may be nil. -/
def removeTarget : Option String → Except Status String
  | none => .error ⟨.invalidArgument, "Invalid nil request."⟩
  | some remoteFile =>
    if remoteFile = "" then
      .error ⟨.invalidArgument, "Invalid request: remote_file field is empty."⟩
    else
      match validatePath remoteFile with
      | .error _ =>
        .error ⟨.permissionDenied, "only files in /tmp/ or /var/tmp/ can be removed"⟩
      | .ok () => .ok remoteFile

def FileEnv.handleFileRemove (request : Option String) (st : FileState) :
    Except Status Unit × FileState :=
  match removeTarget request with
  | .error e => (.error e, st)
  | .ok remoteFile =>
    match st.remove (env.translatePathForContainer remoteFile) with
    | .error e => (.error ⟨.notFound, e⟩, st)
    | .ok st => (.ok (), st)

/-! ## TransferToRemote -/

structure RemoteDownload where
  /-- The protocol; `none` is HTTP, the others are known by their names. -/
  protocol : Option String := none
  path : String

/-- `TransferToRemoteRequest`. -/
structure TransferRequest where
  remoteDownload : Option RemoteDownload
  localPath : String

def maxFileSize : Nat := 4 * 1024 * 1024 * 1024

/-- One read of the body of a response. -/
inductive HttpRead where
  | data (chunk : String)
  | failed (message : String)

/-- What an HTTP server does with a request. -/
inductive HttpOutcome where
  /-- The request cannot be made or is not answered. -/
  | failed (message : String)
  | response (statusCode : Nat) (status : String) (contentLength : Int) (body : List HttpRead)

/-- `io.Copy` of a body to an open file, up to a limit: the number of bytes, or an
error. -/
def copyBody (limit : Nat) (file : Location) :
    List HttpRead → Nat → FileState → Except String Nat × FileState
  | [], written, st => (.ok written, st)
  | .failed message :: _, _, st => (.error message, st)
  | .data chunk :: rest, written, st =>
    let st := st.write file chunk
    if limit ≤ written + chunk.length then (.ok limit, st)
    else copyBody limit file rest (written + chunk.length) st

/-- `DownloadHTTP` with a positive limit. -/
def downloadHTTP (http : HttpOutcome) (localPath : String) (maxSize : Nat) (st : FileState) :
    Except String Unit × FileState :=
  match http with
  | .failed message => (.error message, st)
  | .response statusCode status contentLength body =>
    if statusCode < 200 ∨ 300 ≤ statusCode then
      (.error ("HTTP error " ++ toString statusCode ++ ": " ++ status), st)
    else if contentLength > (maxSize : Int) then
      (.error ("file size " ++ toString contentLength ++
        " bytes exceeds maximum allowed size " ++ toString maxSize ++ " bytes"), st)
    else
      match st.openTruncated localPath with
      | .error e => (.error ("failed to create output file: " ++ e), st)
      | .ok (file, st) =>
        match copyBody (maxSize + 1) file body 0 st with
        | (.error e, st) => (.error ("failed to write file: " ++ e), st.removeLogged localPath)
        | (.ok written, st) =>
          if written > maxSize then
            (.error ("downloaded file size " ++ toString written ++
              " bytes exceeds maximum allowed size " ++ toString maxSize ++ " bytes"),
              st.removeLogged localPath)
          else (.ok (), st)

/-- The checks of the protocol and of the URL. -/
def downloadUrl (download : RemoteDownload) : Except Status String :=
  match download.protocol with
  | some protocol =>
    .error ⟨.unimplemented, "only HTTP protocol is supported, got protocol " ++ protocol⟩
  | none =>
    if download.path = "" then
      .error ⟨.invalidArgument, "remote download path (URL) cannot be empty"⟩
    else .ok download.path

/-- The checks of `handleTransferToRemoteLocal`: the local path and the URL. -/
def transferTarget : Option TransferRequest → Except Status (String × String)
  | none => .error ⟨.invalidArgument, "request cannot be nil"⟩
  | some request =>
    match request.remoteDownload with
    | none => .error ⟨.invalidArgument, "remote_download cannot be nil"⟩
    | some download =>
      if request.localPath = "" then
        .error ⟨.invalidArgument, "local_path cannot be empty"⟩
      else
        match validatePath request.localPath with
        | .error e => .error ⟨.invalidArgument, "invalid local_path: " ++ e⟩
        | .ok () =>
          match downloadUrl download with
          | .error e => .error e
          | .ok url => .ok (request.localPath, url)

/-- `handleTransferToRemoteLocal`: the MD5 sum of the downloaded file. -/
def FileEnv.handleTransferToRemoteLocal (http : String → HttpOutcome)
    (request : Option TransferRequest) (st : FileState) : Except Status String × FileState :=
  match transferTarget request with
  | .error e => (.error e, st)
  | .ok (localPath, url) =>
    let path := env.translatePathForContainer localPath
    match downloadHTTP (http url) path maxFileSize st with
    | (.error e, st) => (.error ⟨.internal, "download failed: " ++ e⟩, st)
    | (.ok (), st) =>
      match st.fs.readFile path with
      | .error e =>
        (.error ⟨.internal, "hash calculation failed: failed to open file: " ++ e⟩,
          st.removeLogged path)
      | .ok content => (.ok (env.md5 content), st)

/-- The checks of `HandleTransferToRemoteForDPUStreaming`; the path is checked by the
DPU. -/
def dpuTransferTarget : Option TransferRequest → Except Status (String × String)
  | none => .error ⟨.invalidArgument, "request cannot be nil"⟩
  | some request =>
    match request.remoteDownload with
    | none => .error ⟨.invalidArgument, "remote_download cannot be nil"⟩
    | some download =>
      if request.localPath = "" then
        .error ⟨.invalidArgument, "local_path cannot be empty"⟩
      else
        match downloadUrl download with
        | .error e => .error e
        | .ok url => .ok (request.localPath, url)

/-- The DPU that the metadata of a request names. -/
def dpuIndex (metadata : Option Metadata) : Option String :=
  match metadata with
  | none => none
  | some md =>
    if (md "x-sonic-ss-target-type").getD "" = "dpu" ∧
        (md "x-sonic-ss-target-index").getD "" ≠ "" then
      md "x-sonic-ss-target-index"
    else none

/-- `HandleTransferToRemote`.  A transfer to a DPU streams from the server to the DPU
(`dpu`, by index, path and URL) and uses no local file. -/
def FileEnv.handleTransferToRemote (http : String → HttpOutcome)
    (dpu : String → String → String → Except Status String) (metadata : Option Metadata)
    (request : Option TransferRequest) (st : FileState) : Except Status String × FileState :=
  match dpuIndex metadata with
  | some index =>
    match dpuTransferTarget request with
    | .error e => (.error e, st)
    | .ok (localPath, url) => (dpu index localPath url, st)
  | none => env.handleTransferToRemoteLocal http request st

end SonicGnmi.Gnoi
