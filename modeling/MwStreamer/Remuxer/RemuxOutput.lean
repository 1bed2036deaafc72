import Mathlib.Data.Finset.Basic
import Mathlib.Data.List.Basic
import MwStreamer.Media.Libav

/-!
# The outputs of a remuxer

`OutputRegistration` is the list of what a remuxer shall publish; `RemuxOutput` is the output of one session.
All outputs of the process reserve their path, the pair of `app` and `stream`, in `published_paths`.  The
sockets, certificates and muxers of the media library are outside: what they answer is a parameter.
-/

namespace MwStreamer

/-- `OutputRegistration::Kind`. -/
inductive OutputKind where
  | push
  | rtsp
  | hls
  | recording
  deriving DecidableEq, Repr

/-- `OutputRegistration::Entry`. -/
structure OutputEntry where
  kind : OutputKind
  original : String := ""
  actual : String := ""
  app : String := ""
  stream : String := ""
  ip : String := ""
  port : ℕ := 0
  tls : Bool := false
  deriving DecidableEq, Repr

/-- `Remuxer::OutputInfo`. -/
structure OutputInfo where
  outputUrls : List String := []
  rtspUrl : String := ""
  hlsUrl : String := ""
  deriving DecidableEq, Repr

/-- `app` and `stream`. -/
abbrev Path := String × String

def hasPrefix (head text : String) : Bool := head.toList.isPrefixOf text.toList

def contains (text part : String) : Bool := text.toList.tails.any part.toList.isPrefixOf

/-- `path::extension`: the name from its last dot on, unless that is its first character. -/
def extension (path : String) : List Char :=
  let name := (path.toList.reverse.takeWhile (· ≠ '/')).reverse
  let suffix := name.reverse.takeWhile (· ≠ '.')
  if suffix.length + 1 < name.length ∧ name ≠ ['.', '.'] then '.' :: suffix.reverse else []

/-- `Schema`; empty for a local recording. -/
def schema (url : String) : Except Exception String :=
  if hasPrefix "rtsp://" url || hasPrefix "rtsps://" url then .ok "rtsp"
  else if hasPrefix "rtmp://" url || hasPrefix "rtmps://" url then .ok "rtmp"
  else if hasPrefix "srt://" url then .ok "ts"
  else if !contains url "://" && extension url == ['.', 'm', 'p', '4'] then .ok ""
  else .error (.invalidArgument "Remuxer 目标需要 RTSP(S)、RTMP(S)、SRT 或本地 MP4 路径")

def validCharacter (c : Char) : Bool :=
  ('a' ≤ c && c ≤ 'z') || ('A' ≤ c && c ≤ 'Z') || ('0' ≤ c && c ≤ '9') || c == '_' || c == '-' || c == '.'

def validSegment (value : String) : Bool :=
  value != "" && value != "." && value != ".." && value.toList.all validCharacter

def hasSeparator (value : String) : Bool := value.toList.any fun c => c == '/' || c == '\\'

/-- `ValidatePublish`. -/
def validatePublish (kind : OutputKind) (app stream ip : String) (port : ℕ) : Except Exception Unit :=
  if kind = .rtsp then
    if app = "" ∨ stream = "" ∨ ip = "" ∨ port = 0 ∨ hasSeparator app ∨ hasSeparator stream then
      .error (.invalidArgument "RTSP 发布需要有效 app、stream、监听地址和端口")
    else .ok ()
  else if !validSegment app || !validSegment stream || ip == "" || port == 0 then
    .error (.invalidArgument "HLS 发布需要有效 app、stream、监听地址和端口")
  else .ok ()

/-! ### Registration -/

namespace OutputRegistration

/-- `PreparePush`; `recordingPath` is what `RecordingPath` answers for a local file. -/
def preparePush (url : String) (recordingPath : Except Exception String) : Except Exception OutputEntry := do
  let schema ← schema url
  if schema = "" then
    let actual ← recordingPath
    return { kind := .recording, original := url, actual := actual }
  else return { kind := .push, original := url, actual := url }

/-- The address of a publication. -/
def address (kind : OutputKind) (app stream ip : String) (port : ℕ) (tls : Bool) : String :=
  let host := if contains ip ":" then "[" ++ ip ++ "]" else ip
  let scheme :=
    if kind = .rtsp then if tls then "rtsps" else "rtsp" else if tls then "https" else "http"
  scheme ++ "://" ++ host ++ ":" ++ toString port ++ "/" ++ app ++ "/" ++ stream
    ++ if kind = .hls then "/hls.m3u8" else ""

def preparePublish (kind : OutputKind) (app stream ip : String) (port : ℕ) (tls : Bool) :
    Except Exception OutputEntry := do
  validatePublish kind app stream ip port
  return { kind := kind, app := app, stream := stream, ip := ip, port := port, tls := tls,
           actual := address kind app stream ip port tls }

/-- Whether an entry was made by `PreparePush` for this target. -/
def isPush (url : String) (entry : OutputEntry) : Bool :=
  (entry.kind == .push || entry.kind == .recording) && entry.original == url

def findPush (entries : List OutputEntry) (url : String) : Option OutputEntry := entries.find? (isPush url)

def add (entries : List OutputEntry) (entry : OutputEntry) : Except Exception (List OutputEntry) :=
  if entry.kind ≠ .push ∧ entry.kind ≠ .recording ∧ entries.any (·.kind == entry.kind) then
    .error (.logicError (if entry.kind = .rtsp then "Remuxer 只允许一个 RTSP 发布点"
      else "Remuxer 只允许一个 HLS 发布点"))
  else .ok (entries ++ [entry])

def infoStep (result : OutputInfo) (entry : OutputEntry) : OutputInfo :=
  match entry.kind with
  | .push | .recording => { result with outputUrls := result.outputUrls ++ [entry.actual] }
  | .rtsp => { result with rtspUrl := entry.actual }
  | .hls => { result with hlsUrl := entry.actual }

def info (entries : List OutputEntry) : OutputInfo := entries.foldl infoStep {}

end OutputRegistration

/-! ### The output of a session -/

/-- `ReservePath`. -/
def reservePath (paths : Finset Path) (path : Path) : Except Exception (Finset Path) :=
  if path ∈ paths then .error (.invalidArgument "RTSP 发布路径已经被占用") else .ok (insert path paths)

/-- `ReleasePath`. -/
def releasePath (paths : Finset Path) (path : Path) : Finset Path := paths.erase path

/-- `RemuxOutput`; a target is its address and schema. -/
structure RemuxOutput where
  targets : List (String × String) := []
  hlsServer : Bool := false
  server : Bool := false
  publishedPath : Option Path := none
  deriving DecidableEq, Repr

namespace RemuxOutput

/-- `AddRtspPublish`; `listen` is what the certificate and the listener answer. -/
def addRtspPublish (output : RemuxOutput) (path : Path) (ip : String) (port : ℕ) (listen : Except Exception Unit) :
    Except Exception RemuxOutput := do
  validatePublish .rtsp path.1 path.2 ip port
  if output.server then throw (.logicError "Remuxer 只允许一个 RTSP 发布点")
  listen
  return { output with server := true }

/-- `AddHlsPublish`; `setup` is what the certificate, the listener and `setupRecord` answer. -/
def addHlsPublish (output : RemuxOutput) (path : Path) (ip : String) (port : ℕ) (setup : Except Exception Unit) :
    Except Exception RemuxOutput := do
  validatePublish .hls path.1 path.2 ip port
  if output.hlsServer then throw (.logicError "Remuxer 只允许一个 HLS 发布点")
  setup
  return { output with hlsServer := true }

/-- `AddPrepared`.  A pusher that cannot be started is reported to the session, not thrown. -/
def addPrepared (output : RemuxOutput) (path : Path) (entry : OutputEntry) (answer : Except Exception Unit) :
    Except Exception RemuxOutput :=
  match entry.kind with
  | .rtsp => output.addRtspPublish path entry.ip entry.port answer
  | .hls => output.addHlsPublish path entry.ip entry.port answer
  | _ => do
    let schema ← schema entry.actual
    return { output with targets := output.targets ++ [(entry.actual, schema)] }

/-- What `Close` and the exception handler of `Start` do to the paths and the output. -/
def close (output : RemuxOutput) (paths : Finset Path) : Finset Path × RemuxOutput :=
  match output.publishedPath with
  | none => (paths, {})
  | some path => (releasePath paths path, {})

end RemuxOutput

end MwStreamer
