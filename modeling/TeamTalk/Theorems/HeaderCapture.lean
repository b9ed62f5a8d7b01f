import TeamTalk.Base.HttpParserWrapper

/-!
# Captured headers

What is captured under a name is the value of the first header of that name, the `Referer` cut to 32 bytes, unless a header of a longer
name, or one after an empty value, stands in its place.
-/

namespace TeamTalk.HttpParserWrapper

/-! ## The property -/

/-- Two names that differ in case at most. -/
def sameName (name name' : Bytes) : Bool := name.map toLower = name'.map toLower

/-- The first header of a name. -/
def firstHeader (name : Bytes) (headers : List HttpHeader) : Option HttpHeader := headers.find? fun h => sameName h.name name

/-- Its value, or nothing. -/
def firstValue (name : Bytes) (headers : List HttpHeader) : Bytes := ((firstHeader name headers).map HttpHeader.value).getD []

/-- The first header with a value whose name begins with a name is the first one of that name, if there is one with a value at all. -/
def Unconfused (present : Bytes → Bool) (name : Bytes) (headers : List HttpHeader) : Prop :=
  ∀ h, headers.find? (fun h => strncasecmp h.name name && present h.value) = some h → firstHeader name headers = some h

/-- For each name that no other header is taken for, the captured value is that of the first header. The `Referer` is cut. -/
structure Captured (headers : List HttpHeader) (w : HttpParserWrapper) : Prop where
  referer : Unconfused hasText (chars "Referer") headers →
    w.referer.value = (firstValue (chars "Referer") headers).take maxRefererLen
  forwardIp : Unconfused hasText (chars "X-Forwarded-For") headers → w.forwardIp.value = firstValue (chars "X-Forwarded-For") headers
  userAgent : Unconfused hasText (chars "User-Agent") headers → w.userAgent.value = firstValue (chars "User-Agent") headers
  contentType : Unconfused hasText (chars "Content-Type") headers → w.contentType.value = firstValue (chars "Content-Type") headers
  contentLen : Unconfused (fun value => hasLen (atoi32 value)) (chars "Content-Length") headers →
    w.contentLen.value = atoi32 (firstValue (chars "Content-Length") headers)
  host : Unconfused hasText (chars "Host") headers → w.host.value = firstValue (chars "Host") headers

namespace HeaderCaptureAux

/-! ## Names -/

theorem toLower_colon {ch : UInt8} (h : toLower ch = 58) : ch = 58 := by
  simp only [toLower] at h
  split at h
  · rename_i hcase
    simp only [Bool.and_eq_true, decide_eq_true_eq, UInt8.le_iff_toNat_le] at hcase
    have hnat := congrArg UInt8.toNat h
    simp only [UInt8.toNat_add, UInt8.toNat_ofNat] at hnat hcase
    omega
  · exact h

/-- The colon ends a name: it is not read past. -/
theorem strncasecmp_header (h : HttpHeader) {name : Bytes} (hname : 58 ∉ name) :
    strncasecmp (h.name ++ h.after) name = strncasecmp h.name name := by
  rcases Nat.le_total name.length h.name.length with hlen | hlen
  · rw [strncasecmp, List.take_append_of_le_length hlen]
    rfl
  · obtain ⟨rest, hafter⟩ : ∃ rest, h.after = 58 :: rest := List.head?_eq_some_iff.1 h.colon
    rcases Nat.eq_or_lt_of_le hlen with heq | hlt
    · rw [strncasecmp, List.take_append_of_le_length heq.ge]
      rfl
    · have hshort : strncasecmp h.name name = false := by
        refine decide_eq_false fun heq => ?_
        have := congrArg List.length heq
        simp only [List.length_map, List.length_take] at this
        omega
      rw [hshort]
      refine decide_eq_false fun heq => ?_
      have hch : ((h.name ++ h.after).take name.length).map toLower = name.map toLower := heq
      have hget := congrArg (·[h.name.length]?) hch
      simp only [List.getElem?_map, List.getElem?_take, if_pos hlt, hafter, List.getElem?_append_right (Nat.le_refl _), Nat.sub_self,
        List.getElem?_cons_zero, Option.map_some, List.getElem?_eq_getElem hlt] at hget
      have hcolon := toLower_colon (Option.some.inj hget).symm
      exact hname (hcolon ▸ List.getElem_mem hlt)

theorem strncasecmp_of_sameName {name name' : Bytes} (h : sameName name' name = true) : strncasecmp name' name = true := by
  have heq : name'.map toLower = name.map toLower := of_decide_eq_true h
  have hlen : name'.length = name.length := by simpa using congrArg List.length heq
  rw [strncasecmp, ← hlen, List.take_length, heq]
  exact decide_eq_true rfl

/-! ## One name -/

section

variable {β : Type} {hasRead : β → Bool} {set : β → Bytes → β} {name : Bytes} {empty v : β}

/-- What the two calls for a header make of a member and its flag. -/
def onHeaderOf (hasRead : β → Bool) (set : β → Bytes → β) (name : Bytes) (m : Member β) (h : HttpHeader) : Member β :=
  (m.onHeaderField hasRead name (h.name ++ h.after)).onHeaderValue set h.value

/-- A member that has been read stays as it is. -/
theorem onHeaderOf_of_hasRead (h : HttpHeader) (hv : hasRead v = true) : onHeaderOf hasRead set name ⟨false, v⟩ h = ⟨false, v⟩ := by
  simp [onHeaderOf, Member.onHeaderField, Member.onHeaderValue, hv]

/-- One that has not takes the value of a header whose name begins so. -/
theorem onHeaderOf_of_not_hasRead (h : HttpHeader) (hname : 58 ∉ name) (hv : hasRead v = false) :
    onHeaderOf hasRead set name ⟨false, v⟩ h = ⟨false, if strncasecmp h.name name then set v h.value else v⟩ := by
  by_cases hbegins : strncasecmp h.name name <;>
    simp [onHeaderOf, Member.onHeaderField, Member.onHeaderValue, hv, strncasecmp_header h hname, hbegins]

theorem foldl_of_hasRead (headers : List HttpHeader) (hv : hasRead v = true) :
    headers.foldl (onHeaderOf hasRead set name) ⟨false, v⟩ = ⟨false, v⟩ := by
  induction headers with
  | nil => rfl
  | cons h headers ih => rw [List.foldl_cons, onHeaderOf_of_hasRead h hv, ih]

/-- The member is the first value under a name that begins so. -/
theorem foldl_value (headers : List HttpHeader) (hname : 58 ∉ name) (hempty : ∀ v, hasRead v = false ↔ v = empty) :
    (headers.foldl (onHeaderOf hasRead set name) ⟨false, empty⟩).value =
      ((headers.find? fun h => strncasecmp h.name name && hasRead (set empty h.value)).map fun h => set empty h.value).getD empty := by
  have hv : hasRead empty = false := (hempty empty).2 rfl
  induction headers with
  | nil => rfl
  | cons h headers ih =>
    rw [List.foldl_cons, onHeaderOf_of_not_hasRead h hname hv, List.find?_cons]
    by_cases hbegins : strncasecmp h.name name
    · simp only [hbegins, if_true, Bool.true_and]
      cases hread : hasRead (set empty h.value)
      · rw [(hempty _).1 hread]
        exact ih
      · rw [foldl_of_hasRead headers hread]
        rfl
    · simp only [hbegins]
      exact ih

/-- Where no other header is taken for it, it is the value of the first header of the name. -/
theorem value_of_unconfused {present : Bytes → Bool} {headers : List HttpHeader} (hname : 58 ∉ name)
    (hempty : ∀ v, hasRead v = false ↔ v = empty) (hset : ∀ value, hasRead (set empty value) = present value) (hnil : set empty [] = empty)
    (h : Unconfused present name headers) :
    (headers.foldl (onHeaderOf hasRead set name) ⟨false, empty⟩).value = set empty (firstValue name headers) := by
  rw [foldl_value headers hname hempty]
  simp only [hset]
  cases hfind : headers.find? (fun h => strncasecmp h.name name && present h.value) with
  | some first => simp [firstValue, h first hfind]
  | none =>
    cases hfirst : firstHeader name headers with
    | none => simp [firstValue, hfirst, hnil]
    | some first =>
      have hsame : sameName first.name name = true := by simpa using List.find?_some hfirst
      have habsent := List.find?_eq_none.1 hfind first (List.mem_of_find?_eq_some hfirst)
      have hblank : hasRead (set empty first.value) = false := by
        rw [hset]
        simpa [strncasecmp_of_sameName hsame] using habsent
      simp [firstValue, hfirst, (hempty _).1 hblank]

end

theorem hasText_eq_false (text : Bytes) : hasText text = false ↔ text = [] := by simp [hasText]

theorem hasLen_eq_false (len : Nat) : hasLen len = false ↔ len = 0 := by simp [hasLen]

theorem appendReferer_nil (value : Bytes) : appendReferer [] value = value.take maxRefererLen := by
  rw [appendReferer, List.nil_append]
  split
  · rfl
  · rename_i h
    rw [List.take_length, List.take_of_length_le (Nat.le_of_not_lt h)]

theorem hasText_appendReferer (value : Bytes) : hasText (appendReferer [] value) = hasText value := by
  rw [appendReferer_nil]
  cases value <;> simp [hasText, maxRefererLen]

end HeaderCaptureAux

open HeaderCaptureAux

/-- Each captured value is that of the first header of its name. -/
theorem captured (headers : List HttpHeader) : Captured headers (parseHttpContent headers) where
  referer h := by
    have hrun : (parseHttpContent headers).referer = headers.foldl (onHeaderOf hasText appendReferer (chars "Referer")) ⟨false, []⟩ :=
      (List.foldl_hom HttpParserWrapper.referer fun _ _ => rfl).symm
    rw [hrun, value_of_unconfused (by simp [chars]) hasText_eq_false hasText_appendReferer rfl h, appendReferer_nil]
  forwardIp h := by
    have hrun : (parseHttpContent headers).forwardIp = headers.foldl (onHeaderOf hasText append (chars "X-Forwarded-For")) ⟨false, []⟩ :=
      (List.foldl_hom HttpParserWrapper.forwardIp fun _ _ => rfl).symm
    rw [hrun, value_of_unconfused (by simp [chars]) hasText_eq_false (fun _ => rfl) rfl h]
    rfl
  userAgent h := by
    have hrun : (parseHttpContent headers).userAgent = headers.foldl (onHeaderOf hasText append (chars "User-Agent")) ⟨false, []⟩ :=
      (List.foldl_hom HttpParserWrapper.userAgent fun _ _ => rfl).symm
    rw [hrun, value_of_unconfused (by simp [chars]) hasText_eq_false (fun _ => rfl) rfl h]
    rfl
  contentType h := by
    have hrun : (parseHttpContent headers).contentType = headers.foldl (onHeaderOf hasText append (chars "Content-Type")) ⟨false, []⟩ :=
      (List.foldl_hom HttpParserWrapper.contentType fun _ _ => rfl).symm
    rw [hrun, value_of_unconfused (by simp [chars]) hasText_eq_false (fun _ => rfl) rfl h]
    rfl
  contentLen h := by
    have hrun : (parseHttpContent headers).contentLen = headers.foldl (onHeaderOf hasLen setLen (chars "Content-Length")) ⟨false, 0⟩ :=
      (List.foldl_hom HttpParserWrapper.contentLen fun _ _ => rfl).symm
    rw [hrun, value_of_unconfused (by simp [chars]) hasLen_eq_false (fun _ => rfl) (by decide) h]
    rfl
  host h := by
    have hrun : (parseHttpContent headers).host = headers.foldl (onHeaderOf hasText append (chars "Host")) ⟨false, []⟩ :=
      (List.foldl_hom HttpParserWrapper.host fun _ _ => rfl).symm
    rw [hrun, value_of_unconfused (by simp [chars]) hasText_eq_false (fun _ => rfl) rfl h]
    rfl

/-- The host of a request, behind a header whose name begins otherwise. -/
theorem captured_host : (parseHttpContent [⟨chars "Date", [58], [49], rfl⟩, ⟨chars "HOST", [58], [104], rfl⟩]).host.value = [104] := by
  refine ((captured _).host fun h hfind => ?_).trans (by simp [firstValue, firstHeader, sameName, chars, toLower])
  simpa [firstHeader, sameName, strncasecmp, hasText, chars, toLower] using hfind

/-- A long `Referer` is cut, another header is taken for `X-Forwarded-For`, and the second `Host` for an empty first one. -/
theorem taken_for_others :
    (¬ ∀ headers, (parseHttpContent headers).referer.value = firstValue (chars "Referer") headers) ∧
    (¬ ∀ headers, (parseHttpContent headers).forwardIp.value = firstValue (chars "X-Forwarded-For") headers) ∧
    ¬ ∀ headers, (parseHttpContent headers).host.value = firstValue (chars "Host") headers := by
  refine ⟨fun h => ?_, fun h => ?_, fun h => ?_⟩
  · have := h [⟨chars "Referer", [58], List.replicate 33 97, rfl⟩]
    revert this
    decide
  · have := h [⟨chars "X-Forwarded-Fore", [58], [54], rfl⟩]
    revert this
    decide
  · have := h [⟨chars "Host", [58], [], rfl⟩, ⟨chars "Host", [58], [104], rfl⟩]
    revert this
    decide

end TeamTalk.HttpParserWrapper
