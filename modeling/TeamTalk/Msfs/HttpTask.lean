import TeamTalk.Msfs.FileManager
import TeamTalk.Lib.Machine

/-!
# The requests of msfs

`CHttpTask::OnUpload` takes a file out of a multipart body, and `OnDownload` answers with a file. One upload or download is one
step. Beside them, the process is started again.
-/

namespace TeamTalk.Msfs

/-! ## Searching -/

/-- `memfind`: the first place of the text. The last place there is room for is not tried, unless it is the only one. -/
def memfind (src sub : Bytes) : Option Nat :=
  if src.length = 0 ∨ src.length < sub.length then none
  else if src.length = sub.length then if src = sub then some 0 else none
  else (List.range (src.length - sub.length)).find? fun i => sub.isPrefixOf (src.drop i)

/-- `memfind`, backwards: the last place of the text. -/
def memfindLast (src sub : Bytes) : Option Nat :=
  if src.length = 0 ∨ src.length < sub.length then none
  else if src.length = sub.length then if src = sub then some 0 else none
  else (List.range (src.length - sub.length + 1)).reverse.find? fun i => sub.isPrefixOf (src.drop i)

/-! ## The body -/

/-- Why a body is not taken: with a code, or the code does what has no defined result. -/
inductive Refusal where
  | code (n : Nat)
  | undefinedBehaviour
  deriving DecidableEq, Repr

/-- What is found in a body: the type and the size text of the file, and where the file stands. -/
structure Part where
  type : Bytes
  extend : Bytes
  fileStart : Nat
  fileSize : Int
  deriving DecidableEq, Repr

/-- `HTTP_END_MARK`. -/
def httpEndMark : Bytes := [13, 10, 13, 10]

/-- The answer of a search, or the code of a refusal. -/
def orCode (n : Nat) : Option Nat → Except Refusal Nat
  | none => .error (.code n)
  | some i => .ok i

/-- The file name: from after the quote to the next one. Without that, the search leaves the body. -/
def fileName (content : Bytes) : Except Refusal Bytes := do
  let disposition ← orCode 2 (memfind content (chars "Content-Disposition:"))
  let mark ← orCode 3 (memfind (content.drop disposition) (chars "filename="))
  let rest := content.drop (disposition + mark + (chars "filename=").length + 1)
  match rest.idxOf? 34 with
  | none => .error .undefinedBehaviour
  | some n => if n ≤ 255 then .ok (rest.take n) else .error (.code 11)

/-- `szExtend`: the width and the height between the last underscore and the dot. -/
def sizeText (name : Bytes) (dot : Nat) (type : Bytes) : Bytes :=
  match memfindLast name (chars "_") with
  | none => []
  | some low =>
    match memfind ((name.drop low).take (name.length - (low + 1))) (chars "x") with
    | none => []
    | some x =>
      if 1 ≤ x ∧ low + x + 1 ≤ dot then
        let width := (name.drop (low + 1)).take (x - 1)
        let height := (name.drop (low + x + 1)).take (dot - (low + x) - 1)
        if width.length ≤ 4 ∧ height.length ≤ 4 then
          cut 16 (decimalInt (atoi width) ++ chars "x" ++ decimalInt (atoi height) ++ chars "." ++ type)
        else []
      else []

/-- What `OnUpload` finds in a body before it stores the file. -/
def findPart (content contentType : Bytes) : Except Refusal Part := do
  let name ← fileName content
  let dot ← orCode 10 (memfindLast name (chars "."))
  let szType := name.drop (dot + 1)
  if szType.length > 15 then throw (.code 9)
  let type := cString szType
  let mark ← orCode 4 (stringFind contentType (chars "boundary="))
  let boundary := contentType.drop (mark + (chars "boundary=").length)
  let first ← orCode 5 (memfind content boundary)
  let header ← orCode 6 (memfind (content.drop first) (chars "Content-Type:"))
  let tail ← orCode 7 (memfind (content.drop (first + header)) httpEndMark)
  let tail := first + header + tail
  let fileStart := tail + httpEndMark.length
  let last ← orCode 8 (memfind (content.drop tail) boundary)
  return { type, extend := sizeText name dot type, fileStart, fileSize := (tail + last : Int) - httpEndMark.length - fileStart }

/-- The bytes of the file in the body. -/
def Part.bytes (part : Part) (content : Bytes) : Bytes := (content.drop part.fileStart).take part.fileSize.toNat

/-! ## The answers -/

/-- `HTTP_UPLOAD_MAX`. -/
def httpUploadMax : Int := 0xA00000

/-- A line of a response. -/
def line (text : String) : Bytes := chars text ++ [13, 10]

/-- `HTTP_RESPONSE_HTML`. -/
def httpResponseHtml (json : Bytes) : Bytes :=
  line "HTTP/1.1 200 OK" ++ line "Connection:close" ++ chars "Content-Length:" ++ decimal json.length ++ [13, 10] ++
    line "Content-Type:text/html;charset=utf-8" ++ [13, 10] ++ json

/-- The text of a success. -/
def successText (host path : Bytes) : Bytes :=
  chars "\x7b\"error_code\":0,\"error_msg\": \"" ++ [0xe6, 0x88, 0x90, 0xe5, 0x8a, 0x9f] ++ chars "\",\"path\":\"" ++ path ++
    chars "\",\"url\":\"http://" ++ host ++ chars "/" ++ path ++ chars "\"\x7d"

/-- The text of a refusal. -/
def errorText (n : Nat) : Bytes :=
  chars "\x7b\"error_code\":" ++ decimal n ++ chars ",\"error_msg\": \"" ++
    [0xe6, 0xa0, 0xbc, 0xe5, 0xbc, 0x8f, 0xe9, 0x94, 0x99, 0xe8, 0xaf, 0xaf] ++ chars "\",\"path\":\"\",\"url\":\"\"\x7d"

/-- The response to an upload that was taken. Both buffers hold 1024 bytes. -/
def uploadResponse (host path : Bytes) : Bytes := cut 1024 (httpResponseHtml (cut 1024 (successText host path)))

/-- The head of the response to a download: an image, or another file. -/
def downloadHead (cfg : Config) (relate : Bytes) (size : Int) : Bytes :=
  let type := ((cfg.disk ++ relate).reverse.takeWhile (· ≠ 46)).reverse
  let contentType :=
    if type ∈ [chars "jpg", chars "JPG", chars "jpeg", chars "JPEG", chars "png", chars "PNG", chars "gif", chars "GIF"] then
      chars "Content-Type:image/" ++ type ++ [13, 10]
    else line "Content-Type:multipart/form-data"
  line "HTTP/1.1 200 OK" ++ line "Connection:close" ++ chars "Content-Length:" ++ decimalInt size ++ [13, 10] ++ contentType ++ [13, 10]

/-- `HTTP_RESPONSE_404`. -/
def httpResponse404 : Bytes :=
  line "HTTP/1.1 404 Not Found" ++ line "Content-Length: 0" ++ line "Connection: close" ++
    line "Content-Type: text/html;charset=utf-8" ++ [13, 10]

/-- `HTTP_RESPONSE_500`. -/
def httpResponse500 : Bytes :=
  line "HTTP/1.1 500 Internal Server Error" ++ line "Connection:close" ++ line "Content-Length:0" ++
    line "Content-Type:text/html;charset=utf-8" ++ [13, 10]

/-- A text in a buffer of its own length: the terminator takes the place of the last byte, and is sent. -/
def terminated (text : Bytes) : Bytes := cut text.length text ++ [0]

/-! ## The steps -/

/-- A request to store a file: the body, the content type, the host and what comes from outside. -/
structure Upload where
  content : Bytes
  contentType : Bytes
  host : Bytes
  usec : Nat
  tid : Nat
  outcome : Outcome
  deriving DecidableEq, Repr

/-- What can happen. -/
inductive Event where
  | upload (u : Upload)
  | download (url : Bytes)
  | restart (fileCnt : Nat)

/-- What is put out: a refusal; the answer to an upload with its host, its path and the bytes of the file; the answer to a
download; and that something was done that has no defined result. -/
inductive Output where
  | refused (response : Bytes)
  | success (host path file response : Bytes)
  | download (url response : Bytes)
  | undefinedBehaviour
  deriving DecidableEq, Repr

namespace State

/-- `OnUpload`. When the storing aborts, the process is gone. A file over the limit gets no answer. -/
def onUpload (cfg : Config) (s : State) (u : Upload) : State × List Output :=
  match findPart u.content u.contentType with
  | .error (.code n) => (s, [.refused (cut 1024 (httpResponseHtml (errorText n)))])
  | .error .undefinedBehaviour => (s, [.undefinedBehaviour])
  | .ok part =>
    if part.fileSize ≤ httpUploadMax then
      match s.uploadFile cfg part.type (u.content.drop part.fileStart) part.extend (part.fileSize % uint32Size).toNat u.usec u.tid
          u.outcome with
      | none => ({ s with up := false }, [])
      | some (s', path) => (s', [.success u.host path (part.bytes u.content) (uploadResponse u.host path)])
    else (s, [])

/-- `OnDownload`. The buffer is made for the size of the file, and filled with the entry. -/
def onDownload (cfg : Config) (s : State) (url : Bytes) : Exec (State × Bytes) :=
  match getRelatePathByUrl url with
  | none => .ok (s, terminated httpResponse500)
  | some relate =>
    match s.files relate with
    | none => .ok (s, terminated httpResponse404)
    | some file =>
      let size := asInt file.length
      if size = -1 then .ok (s, terminated httpResponse404)
      else
        match s.getOrCreateEntry url with
        | .error e => .error e
        | .ok (s', none) => .ok (s', downloadHead cfg relate size)
        | .ok (s', some entry) =>
          if size < entry.length then .error .undefinedBehaviour else .ok (s', downloadHead cfg relate size ++ entry)

/-- One step. -/
def step (cfg : Config) (s : State) : Event → Option (State × List Output)
  | .upload u => if s.up then some (s.onUpload cfg u) else none
  | .download url =>
    if s.up then
      match s.onDownload cfg url with
      | .error _ => some (s, [.undefinedBehaviour])
      | .ok (s', response) => some (s', [.download url response])
    else none
  | .restart fileCnt => some (init s.files fileCnt, [])

end State

end TeamTalk.Msfs
