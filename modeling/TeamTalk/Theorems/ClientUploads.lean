import TeamTalk.Base.HttpClient
import TeamTalk.Lib.Search
import TeamTalk.Msfs.HttpTask

/-!
# What the HTTP client uploads is what msfs stores

msfs takes the data that `UploadByteFile` posts out of the body again, unless the boundary stands in the data.
-/

namespace TeamTalk.Msfs

open HttpClient

namespace ClientUploadsAux

variable {src sub head rest : Bytes} {i : Nat}

/-! ## Searching -/

/-- `memfind` gives the first place, when something stands behind it. -/
theorem memfind_of_first (h : Search.First src sub i) (hsub : sub ≠ []) (hlt : i + sub.length < src.length) :
    memfind src sub = some i := by
  have hpos := List.length_pos_iff.2 hsub
  unfold memfind
  rw [if_neg (by omega), if_neg (by omega)]
  exact Search.find?_range_eq_some.2 ⟨by omega, h⟩

theorem first_of_stringFind (h : stringFind src sub = some i) : Search.First src sub i := (Search.find?_range_eq_some.1 h).2

/-- What stands in the first part of a text is found in the text. -/
theorem memfind_append (h : stringFind head sub = some i) (hsub : sub ≠ []) (hrest : rest ≠ []) :
    memfind (head ++ rest) sub = some i := by
  have hfirst := first_of_stringFind h
  have hle := hfirst.le_length hsub
  have hpos := List.length_pos_iff.2 hrest
  refine memfind_of_first (hfirst.append hsub rest) hsub ?_
  rw [List.length_append]
  omega

/-- The same, from a place of the first part on. -/
theorem memfind_drop_append {n : Nat} (hn : n ≤ head.length) (h : stringFind (head.drop n) sub = some i) (hsub : sub ≠ [])
    (hrest : rest ≠ []) : memfind ((head ++ rest).drop n) sub = some i := by
  rw [List.drop_append_of_le_length hn]
  exact memfind_append h hsub hrest

/-! ## The body -/

/-- Where things stand in the first part of the body. -/
structure HeadFinds : Prop where
  length : bodyHead.length = 129
  disposition : stringFind bodyHead (chars "Content-Disposition:") = some 38
  mark : stringFind (bodyHead.drop 38) (chars "filename=") = some 45
  quote : (bodyHead.drop 93).idxOf? 34 = some 7
  name : (bodyHead.drop 93).take 7 = chars "1.audio"
  boundary : stringFind bodyHead boundary = some 2
  header : stringFind (bodyHead.drop 2) (chars "Content-Type:") = some 101
  tail : stringFind (bodyHead.drop (2 + 101)) httpEndMark = some 22
  ending : bodyHead.drop 125 = httpEndMark

set_option maxRecDepth 4000 in
theorem headFinds : HeadFinds := by
  have hhead : bodyHead = _ := chars_ofList _
  have hboundary : boundary = _ := chars_ofList _
  have hdisposition : chars "Content-Disposition:" = _ := chars_ofList _
  have hmark : chars "filename=" = _ := chars_ofList _
  have hname : chars "1.audio" = _ := chars_ofList _
  have htype : chars "Content-Type:" = _ := chars_ofList _
  have hall : bodyHead.length = 129 ∧ stringFind bodyHead (chars "Content-Disposition:") = some 38 ∧
      stringFind (bodyHead.drop 38) (chars "filename=") = some 45 ∧ (bodyHead.drop 93).idxOf? 34 = some 7 ∧
      (bodyHead.drop 93).take 7 = chars "1.audio" ∧ stringFind bodyHead boundary = some 2 ∧
      stringFind (bodyHead.drop 2) (chars "Content-Type:") = some 101 ∧ stringFind (bodyHead.drop (2 + 101)) httpEndMark = some 22 ∧
      bodyHead.drop 125 = httpEndMark := by
    rw [hhead, hboundary, hdisposition, hmark, hname, htype]
    decide
  obtain ⟨length, disposition, mark, quote, name, boundary, header, tail, ending⟩ := hall
  exact ⟨length, disposition, mark, quote, name, boundary, header, tail, ending⟩

/-- What the other texts are. -/
structure Texts : Prop where
  length : boundary.length = 34
  tail : bodyTail = [13, 10, 45, 45] ++ (boundary ++ [45, 45, 13, 10, 13, 10])
  ending : ∀ c ∈ httpEndMark, c ∉ boundary
  guard : ∀ c ∈ ([13, 10, 45, 45] : Bytes), c ∉ boundary
  disposition : (chars "Content-Disposition:").length = 20
  mark : (chars "filename=").length = 9
  header : (chars "Content-Type:").length = 13
  dot : memfindLast (chars "1.audio") (chars ".") = some 1
  type : (chars "1.audio").drop 2 = chars "audio"
  short : (chars "audio").length = 5
  contentMark : stringFind (chars "multipart/form-data; boundary=WebKitFormBoundary8riBH6S4ZsoT69so") (chars "boundary=") = some 21
  contentBoundary : (chars "multipart/form-data; boundary=WebKitFormBoundary8riBH6S4ZsoT69so").drop (21 + (chars "boundary=").length) =
    boundary

set_option maxRecDepth 4000 in
theorem texts : Texts := by
  have hboundary : boundary = _ := chars_ofList _
  have htail : bodyTail = _ := chars_ofList _
  have hcontent : chars "multipart/form-data; boundary=WebKitFormBoundary8riBH6S4ZsoT69so" = _ := chars_ofList _
  have hdisposition : chars "Content-Disposition:" = _ := chars_ofList _
  have hmark : chars "filename=" = _ := chars_ofList _
  have htype : chars "Content-Type:" = _ := chars_ofList _
  have hname : chars "1.audio" = _ := chars_ofList _
  have haudio : chars "audio" = _ := chars_ofList _
  have hdot : chars "." = _ := chars_ofList _
  have hbound : chars "boundary=" = _ := chars_ofList _
  have hall : boundary.length = 34 ∧ bodyTail = [13, 10, 45, 45] ++ (boundary ++ [45, 45, 13, 10, 13, 10]) ∧
      (∀ c ∈ httpEndMark, c ∉ boundary) ∧ (∀ c ∈ ([13, 10, 45, 45] : Bytes), c ∉ boundary) ∧
      (chars "Content-Disposition:").length = 20 ∧ (chars "filename=").length = 9 ∧ (chars "Content-Type:").length = 13 ∧
      memfindLast (chars "1.audio") (chars ".") = some 1 ∧ (chars "1.audio").drop 2 = chars "audio" ∧ (chars "audio").length = 5 ∧
      stringFind (chars "multipart/form-data; boundary=WebKitFormBoundary8riBH6S4ZsoT69so") (chars "boundary=") = some 21 ∧
      (chars "multipart/form-data; boundary=WebKitFormBoundary8riBH6S4ZsoT69so").drop (21 + (chars "boundary=").length) = boundary := by
    rw [hboundary, htail, hcontent, hdisposition, hmark, htype, hname, haudio, hdot, hbound]
    decide
  obtain ⟨length, tail, ending, guard, disposition, mark, header, dot, type, short, contentMark, contentBoundary⟩ := hall
  exact ⟨length, tail, ending, guard, disposition, mark, header, dot, type, short, contentMark, contentBoundary⟩

theorem ne_nil_of_length {text : Bytes} {n : Nat} (h : text.length = n + 1) : text ≠ [] := List.ne_nil_of_length_eq_add_one h

theorem boundary_ne : boundary ≠ [] := ne_nil_of_length (texts).length

theorem body_rest_ne (data : Bytes) : data ++ bodyTail ≠ [] := by
  rw [(texts).tail]
  simp

/-- What `fileName` gives when all that it looks for is there. -/
theorem fileName_of_finds {content : Bytes} {disposition mark n : Nat}
    (hdisposition : memfind content (chars "Content-Disposition:") = some disposition)
    (hmark : memfind (content.drop disposition) (chars "filename=") = some mark)
    (hquote : (content.drop (disposition + mark + (chars "filename=").length + 1)).idxOf? 34 = some n) (hn : n ≤ 255) :
    fileName content = .ok ((content.drop (disposition + mark + (chars "filename=").length + 1)).take n) := by
  unfold fileName
  simp only [hdisposition, orCode, bind, Except.bind, hmark, hquote, if_pos hn]

/-- What `findPart` gives when all that it looks for is there. -/
theorem findPart_of_finds {content contentType name : Bytes} {dot mark first header tail last : Nat} (hname : fileName content = .ok name)
    (hdot : memfindLast name (chars ".") = some dot) (hshort : ¬(name.drop (dot + 1)).length > 15)
    (hmark : stringFind contentType (chars "boundary=") = some mark)
    (hfirst : memfind content (contentType.drop (mark + (chars "boundary=").length)) = some first)
    (hheader : memfind (content.drop first) (chars "Content-Type:") = some header)
    (htail : memfind (content.drop (first + header)) httpEndMark = some tail)
    (hlast : memfind (content.drop (first + header + tail)) (contentType.drop (mark + (chars "boundary=").length)) = some last) :
    findPart content contentType = .ok
      ⟨cString (name.drop (dot + 1)), sizeText name dot (cString (name.drop (dot + 1))), first + header + tail + httpEndMark.length,
        ((first + header + tail : Nat) + last : Int) - httpEndMark.length - (first + header + tail + httpEndMark.length : Nat)⟩ := by
  unfold findPart
  simp only [hname, bind, Except.bind, hdot, orCode, if_neg hshort, hmark, hfirst, hheader, htail, hlast, pure, Except.pure]

/-- The name that stands in the body. -/
theorem fileName_body (data : Bytes) : fileName (bodyHead ++ (data ++ bodyTail)) = .ok (chars "1.audio") := by
  have hrest := body_rest_ne data
  generalize data ++ bodyTail = rest at hrest
  have hle : ∀ {n : Nat}, n ≤ 129 → n ≤ bodyHead.length := fun h => (headFinds).length.symm ▸ h
  have hdisposition : memfind (bodyHead ++ rest) (chars "Content-Disposition:") = some 38 :=
    memfind_append (headFinds).disposition (ne_nil_of_length (texts).disposition) hrest
  have hmark : memfind ((bodyHead ++ rest).drop 38) (chars "filename=") = some 45 :=
    memfind_drop_append (hle (by decide)) (headFinds).mark (ne_nil_of_length (texts).mark) hrest
  have hquote : ((bodyHead ++ rest).drop 93).idxOf? 34 = some 7 := by
    have hhead := (headFinds).quote
    rw [List.drop_append_of_le_length (hle (by decide)), List.idxOf?, List.findIdx?_append]
    rw [List.idxOf?] at hhead
    rw [hhead]
    rfl
  have htake : ((bodyHead ++ rest).drop 93).take 7 = chars "1.audio" := by
    have hseven : 7 ≤ (bodyHead.drop 93).length := by
      rw [List.length_drop, (headFinds).length]
      decide
    rw [List.drop_append_of_le_length (hle (by decide)), List.take_append_of_le_length hseven]
    exact (headFinds).name
  have hmarkLength := (texts).mark
  rw [fileName_of_finds hdisposition hmark (by rw [hmarkLength]; exact hquote) (by decide), hmarkLength, htake]

/-- The place behind the data at which the boundary stands. -/
theorem boundary_behind {data : Bytes} (hdata : ¬boundary <:+: data) :
    memfind ((bodyHead ++ (data ++ bodyTail)).drop 125) boundary = some (data.length + 8) := by
  have hfirst := Search.first_behind [45, 45, 13, 10, 13, 10] (texts).ending (texts).guard (by decide) hdata boundary_ne
  have hplace : httpEndMark.length + data.length + ([13, 10, 45, 45] : Bytes).length = data.length + 8 := by
    simp only [httpEndMark, List.length_cons, List.length_nil]
    omega
  rw [hplace] at hfirst
  rw [List.drop_append_of_le_length (by rw [(headFinds).length]; decide), (headFinds).ending, (texts).tail]
  refine memfind_of_first hfirst boundary_ne ?_
  simp only [httpEndMark, List.length_append, List.length_cons, List.length_nil]
  omega

/-- For data that does not hold the boundary, what is found in the body is the data. -/
theorem findPart_body {url data : Bytes} {post : HttpPost} (hpost : uploadByteFile url data = some post)
    (hdata : ¬boundary <:+: data) :
    ∃ part, findPart post.body post.contentType = .ok part ∧ part.fileSize = data.length ∧ part.bytes post.body = data := by
  have hrest := body_rest_ne data
  have hbehind := boundary_behind hdata
  have hle : ∀ {n : Nat}, n ≤ 129 → n ≤ bodyHead.length := fun h => (headFinds).length.symm ▸ h
  unfold uploadByteFile at hpost
  split at hpost
  · cases hpost
  · cases hpost
    rw [List.append_assoc]
    have hfirst : memfind (bodyHead ++ (data ++ bodyTail)) boundary = some 2 :=
      memfind_append (headFinds).boundary boundary_ne hrest
    have hheader : memfind ((bodyHead ++ (data ++ bodyTail)).drop 2) (chars "Content-Type:") = some 101 :=
      memfind_drop_append (hle (by decide)) (headFinds).header (ne_nil_of_length (texts).header) hrest
    have htail : memfind ((bodyHead ++ (data ++ bodyTail)).drop (2 + 101)) httpEndMark = some 22 :=
      memfind_drop_append (hle (by decide)) (headFinds).tail (by decide) hrest
    have hsmall : ¬((chars "1.audio").drop 2).length > 15 := by
      rw [(texts).type, (texts).short]
      decide
    have hbound := (texts).contentBoundary
    refine ⟨_, findPart_of_finds (fileName_body data) (texts).dot hsmall (texts).contentMark (by rw [hbound]; exact hfirst) hheader
      htail (by rw [hbound]; exact hbehind), ?_, ?_⟩
    · simp only [show httpEndMark.length = 4 from rfl]
      omega
    · unfold Part.bytes
      simp only [show httpEndMark.length = 4 from rfl]
      rw [List.drop_left' (headFinds).length]
      exact List.take_left' (by omega)

/-- The file that is stored is what has been found. -/
theorem onUpload_success {cfg : Config} {s : State} {u : Upload} {part : Part} (hpart : findPart u.content u.contentType = .ok part)
    {host path file response : Bytes} (hout : .success host path file response ∈ (s.onUpload cfg u).2) :
    file = part.bytes u.content := by
  unfold State.onUpload at hout
  simp only [hpart] at hout
  split at hout
  · split at hout
    · cases hout
    · cases List.mem_singleton.1 hout
      rfl
  · cases hout

end ClientUploadsAux

open ClientUploadsAux

/-- For every URL and every data that does not hold the boundary: in the body that `UploadByteFile` posts, `OnUpload` finds a file that is
the data, and it is what it stores. -/
theorem uploadByteFile_found {url data : Bytes} {post : HttpPost} (hpost : uploadByteFile url data = some post)
    (hdata : ¬boundary <:+: data) :
    (∃ part, findPart post.body post.contentType = .ok part ∧ part.fileSize = data.length ∧ part.bytes post.body = data) ∧
      ∀ (cfg : Config) (s : State) (u : Upload), u.content = post.body → u.contentType = post.contentType →
        ∀ host path file response, .success host path file response ∈ (s.onUpload cfg u).2 → file = data := by
  obtain ⟨part, hpart, hsize, hbytes⟩ := findPart_body hpost hdata
  refine ⟨⟨part, hpart, hsize, hbytes⟩, ?_⟩
  intro cfg s u hcontent htype host path file response hout
  rw [← hcontent, ← htype] at hpart
  rw [onUpload_success hpart hout, hcontent, hbytes]

/-- Data that begins and ends with line breaks, and holds a zero. -/
theorem uploadByteFile_found_edges : ∃ post, uploadByteFile (chars "http://127.0.0.1:8700/") [13, 10, 0, 13, 10] = some post ∧
    ∃ part, findPart post.body post.contentType = .ok part ∧ part.fileSize = 5 ∧ part.bytes post.body = [13, 10, 0, 13, 10] := by
  have hne : chars "http://127.0.0.1:8700/" ≠ [] := by simp [chars]
  have hdata : ¬boundary <:+: [13, 10, 0, 13, 10] := by
    intro hin
    have hlen := hin.length_le
    simp only [(texts).length, List.length_cons, List.length_nil] at hlen
    omega
  obtain ⟨part, hpart⟩ := (uploadByteFile_found (if_neg hne) hdata).1
  exact ⟨_, if_neg hne, part, hpart⟩

end TeamTalk.Msfs
