import TeamTalk.Base.CText

/-!
# The HTTP client

`CHttpClient`: a file is posted as the only part of a multipart body, and a download is received in pieces. What libcurl puts around
the body, and what it does with the network, is left out.
-/

namespace TeamTalk

/-- What is posted: the URL, the value of `Content-Type` and the body. -/
structure HttpPost where
  url : Bytes
  contentType : Bytes
  body : Bytes
  deriving DecidableEq, Repr

namespace HttpClient

/-- The boundary between the parts. -/
def boundary : Bytes := chars "WebKitFormBoundary8riBH6S4ZsoT69so"

/-- The body before the data. -/
def bodyHead : Bytes :=
  chars "--WebKitFormBoundary8riBH6S4ZsoT69so\x0d\nContent-Disposition: form-data; name=\"file\"; filename=\"1.audio\"\x0d\nContent-Type:image/jpg\x0d\n\x0d\n"

/-- The body behind the data. -/
def bodyTail : Bytes := chars "\x0d\n--WebKitFormBoundary8riBH6S4ZsoT69so--\x0d\n\x0d\n"

/-- What `UploadByteFile` posts. -/
def uploadByteFile (url data : Bytes) : Option HttpPost :=
  if url = [] then none
  else
    some {
      url
      contentType := chars "multipart/form-data; boundary=WebKitFormBoundary8riBH6S4ZsoT69so"
      body := bodyHead ++ data ++ bodyTail }

end HttpClient

/-! ## Downloads -/

/-- `AudioMsgInfo`, with what `data` holds so far; `data_len` is its length. -/
structure AudioMsgInfo where
  fileSize : Nat
  data : Bytes
  deriving DecidableEq, Repr

/-- What comes in for a download: the pieces, in the way they come, and the length that the head of the response says; -1 if none. -/
structure Transfer where
  pieces : List Bytes
  contentLength : Int
  deriving DecidableEq, Repr

namespace HttpClient

/-- `write_data_binary`: a piece that does not fit is passed over. -/
def writeDataBinary (audio : AudioMsgInfo) (piece : Bytes) : AudioMsgInfo :=
  if audio.data.length + piece.length ≤ (audio.fileSize + 4) % uint32Size then { audio with data := audio.data ++ piece } else audio

/-- `DownloadByteFile`. An error of the transfer, or another code than 200, is only logged. -/
def downloadByteFile (transfer : Transfer) (audio : AudioMsgInfo) : AudioMsgInfo × Bool :=
  (transfer.pieces.foldl writeDataBinary audio, transfer.contentLength = audio.fileSize)

/-- Pieces that fit are all taken. -/
theorem foldl_writeDataBinary {pieces : List Bytes} {audio : AudioMsgInfo}
    (h : audio.data.length + pieces.flatten.length ≤ (audio.fileSize + 4) % uint32Size) :
    pieces.foldl writeDataBinary audio = { audio with data := audio.data ++ pieces.flatten } := by
  induction pieces generalizing audio with
  | nil => rw [List.foldl_nil, List.flatten_nil, List.append_nil]
  | cons piece pieces ih =>
    rw [List.flatten_cons, List.length_append] at h
    have hpiece : writeDataBinary audio piece = { audio with data := audio.data ++ piece } := if_pos (by omega)
    rw [List.foldl_cons, hpiece, ih, List.flatten_cons, List.append_assoc]
    dsimp only
    rw [List.length_append]
    omega

end HttpClient

end TeamTalk
