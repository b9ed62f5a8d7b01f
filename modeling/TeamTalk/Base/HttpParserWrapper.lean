import TeamTalk.Base.CText

/-!
# What is kept of a request

`CHttpParserWrapper`: what its callbacks keep of the headers, and of the rest, that `http_parser` reports. A name is reported as a place
in the buffer and a length; what stands behind it there begins with the colon.
-/

namespace TeamTalk

/-- A header, as `http_parser` reports it: its name, the buffer from the end of the name on, and its value. -/
structure HttpHeader where
  name : Bytes
  after : Bytes
  value : Bytes
  colon : after.head? = some 58

namespace HttpParserWrapper

/-- `tolower`, in the C locale. -/
def toLower (ch : UInt8) : UInt8 := if 65 ≤ ch && ch ≤ 90 then ch + 32 else ch

/-- Whether `strncasecmp` is 0, for a name without terminator and its length. -/
def strncasecmp (text name : Bytes) : Bool := (text.take name.length).map toLower = name.map toLower

/-- A flag `m_read_…` and the member it is for. -/
structure Member (β : Type) where
  read : Bool
  value : β

variable {β : Type}

/-- The part of `OnHeaderField` for one name: the flag is set unless the member has been read. -/
def Member.onHeaderField (hasRead : β → Bool) (name text : Bytes) (m : Member β) : Member β :=
  if !hasRead m.value && strncasecmp text name then { m with read := true } else m

/-- The part of `OnHeaderValue` for one name: the member is set, and the flag reset. -/
def Member.onHeaderValue (set : β → Bytes → β) (value : Bytes) (m : Member β) : Member β :=
  if m.read then ⟨false, set m.value value⟩ else m

/-- `MAX_REFERER_LEN`. -/
def maxRefererLen : Nat := 32

/-- `atoi` into 32 bits: `strtol`, without its upper half. -/
def atoi32 (value : Bytes) : Nat := (max (-2 ^ 63) (min (atoi value) (2 ^ 63 - 1)) % 2 ^ 32).toNat

/-- `HasReadReferer` and the like. -/
def hasText (text : Bytes) : Bool := 0 < text.length

/-- `HasReadContentLen`. -/
def hasLen (len : Nat) : Bool := len ≠ 0

/-- `SetForwardIP` and the like. -/
def append (text value : Bytes) : Bytes := text ++ value

/-- `SetReferer`, with the length that it is called with. -/
def appendReferer (text value : Bytes) : Bytes := text ++ value.take (if value.length > maxRefererLen then maxRefererLen else value.length)

/-- `SetContentLen`. -/
def setLen (_ : Nat) (value : Bytes) : Nat := atoi32 value

end HttpParserWrapper

open HttpParserWrapper

/-- `CHttpParserWrapper`, with the members for headers. -/
structure HttpParserWrapper where
  referer : Member Bytes
  forwardIp : Member Bytes
  userAgent : Member Bytes
  contentType : Member Bytes
  contentLen : Member Nat
  host : Member Bytes

namespace HttpParserWrapper

/-- What `ParseHttpContent` sets the members to. -/
def init : HttpParserWrapper := ⟨⟨false, []⟩, ⟨false, []⟩, ⟨false, []⟩, ⟨false, []⟩, ⟨false, 0⟩, ⟨false, []⟩⟩

/-- `OnHeaderField`. The length of the name is not used. -/
def onHeaderField (text : Bytes) (_length : Nat) (w : HttpParserWrapper) : HttpParserWrapper where
  referer := w.referer.onHeaderField hasText (chars "Referer") text
  forwardIp := w.forwardIp.onHeaderField hasText (chars "X-Forwarded-For") text
  userAgent := w.userAgent.onHeaderField hasText (chars "User-Agent") text
  contentType := w.contentType.onHeaderField hasText (chars "Content-Type") text
  contentLen := w.contentLen.onHeaderField hasLen (chars "Content-Length") text
  host := w.host.onHeaderField hasText (chars "Host") text

/-- `OnHeaderValue`. -/
def onHeaderValue (value : Bytes) (w : HttpParserWrapper) : HttpParserWrapper where
  referer := w.referer.onHeaderValue appendReferer value
  forwardIp := w.forwardIp.onHeaderValue append value
  userAgent := w.userAgent.onHeaderValue append value
  contentType := w.contentType.onHeaderValue append value
  contentLen := w.contentLen.onHeaderValue setLen value
  host := w.host.onHeaderValue append value

/-- The two calls for a header. -/
def onHeader (w : HttpParserWrapper) (h : HttpHeader) : HttpParserWrapper :=
  (w.onHeaderField (h.name ++ h.after) h.name.length).onHeaderValue h.value

/-- `ParseHttpContent`, for the headers of the request in their order. -/
def parseHttpContent (headers : List HttpHeader) : HttpParserWrapper := headers.foldl onHeader init

end HttpParserWrapper

/-! ## All callbacks -/

/-- A callback that `http_parser_execute` calls; the two for a header are one. At the end of the headers, the number of bytes that have
been read is there, and the length of the content. -/
inductive HttpCallback where
  | onUrl (url : Bytes)
  | onHeader (header : HttpHeader)
  | onHeadersComplete (nread contentLength : Nat)
  | onBody (content : Bytes)
  | onMessageComplete

/-- `CHttpParserWrapper`, with all its members. -/
structure HttpParsed where
  headers : HttpParserWrapper
  readAll : Bool
  totalLength : Nat
  url : Bytes
  bodyContent : Bytes

namespace HttpParsed

/-- What `ParseHttpContent` sets the members to. -/
def init : HttpParsed := { headers := HttpParserWrapper.init, readAll := false, totalLength := 0, url := [], bodyContent := [] }

/-- `OnUrl`, `OnHeadersComplete`, `OnBody`, `OnMessageComplete`, and the two for a header. -/
def onCallback (w : HttpParsed) : HttpCallback → HttpParsed
  | .onUrl url => { w with url := w.url ++ url }
  | .onHeader header => { w with headers := w.headers.onHeader header }
  | .onHeadersComplete nread contentLength => { w with totalLength := (nread + contentLength) % 2 ^ 32 }
  | .onBody content => { w with bodyContent := w.bodyContent ++ content }
  | .onMessageComplete => { w with readAll := true }

/-- `ParseHttpContent`, with what `http_parser_execute` calls for a buffer. -/
def parseHttpContent (execute : Bytes → List HttpCallback) (buf : Bytes) : HttpParsed := (execute buf).foldl onCallback init

/-- The header that a callback is for. -/
def headerOf : HttpCallback → Option HttpHeader
  | .onHeader header => some header
  | _ => none

/-- The other callbacks leave what is kept of the headers. -/
theorem headers_foldl (callbacks : List HttpCallback) (w : HttpParsed) :
    (callbacks.foldl onCallback w).headers = (callbacks.filterMap headerOf).foldl HttpParserWrapper.onHeader w.headers := by
  induction callbacks generalizing w with
  | nil => rfl
  | cons callback callbacks ih =>
    rw [List.foldl_cons, ih]
    cases callback <;> rfl

/-- What is kept of the headers is what the callbacks for headers keep. -/
theorem headers_parseHttpContent (execute : Bytes → List HttpCallback) (buf : Bytes) :
    (parseHttpContent execute buf).headers = HttpParserWrapper.parseHttpContent ((execute buf).filterMap headerOf) :=
  headers_foldl (execute buf) init

end HttpParsed

end TeamTalk
