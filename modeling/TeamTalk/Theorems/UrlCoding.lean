import TeamTalk.Base.UrlCoding

/-!
# What comes back from a URL

Texts come back from their percent coding, but decoding reads behind the end of a text that ends within an escape. Numbers come back up to
2 ^ 31, the part of them that the doubling keeps.
-/

namespace TeamTalk.UrlCoding

/-! ## Decoding -/

/-- What `URLDecode` reads is in the text, and what it returns is no longer. -/
def Safe (t : Bytes) : Prop := (∀ i ∈ (urlDecode t).reads, i < t.length) ∧ ∀ s, (urlDecode t).text = .ok s → s.length ≤ t.length

/-- Each escape that the loop comes to has as many characters. -/
def escapesHave (n : Nat) : Bytes → Bool
  | [] => true
  | [ch] => ch ≠ 37 || n ≤ 0
  | [ch, x] => if ch = 37 then n ≤ 1 else escapesHave n [x]
  | ch :: x :: y :: rest => if ch = 37 then escapesHave n rest else escapesHave n (x :: y :: rest)

namespace UrlCodingAux

/-- A hexadecimal digit reads back. -/
theorem fromHex_toHex {x : UInt8} (h : x < 16) : fromHex (toHex x) = x := by
  have htable : ∀ n : Fin 16, fromHex (toHex (UInt8.ofNat n)) = UInt8.ofNat n := by decide
  have := htable ⟨x.toNat, by simpa [UInt8.lt_iff_toNat_lt] using h⟩
  simpa using this

/-- The upper half of a byte. -/
theorem toNat_shift (ch : UInt8) : (ch >>> 4).toNat = ch.toNat / 16 := by simp [Nat.shiftRight_eq_div_pow]

/-- And the lower. -/
theorem toNat_low (ch : UInt8) : (ch % 16).toNat = ch.toNat % 16 := by simp

/-- The escape of a byte is read as that byte. -/
theorem escape_toHex (ch : UInt8) : escape (toHex (ch >>> 4)) (toHex (ch % 16)) = ch := by
  have hlt := ch.toNat_lt
  have hhi : ch >>> 4 < 16 := by
    rw [UInt8.lt_iff_toNat_lt, toNat_shift]
    exact Nat.div_lt_of_lt_mul hlt
  have hlo : ch % 16 < 16 := by
    rw [UInt8.lt_iff_toNat_lt, toNat_low]
    exact Nat.mod_lt _ (by decide)
  rw [escape, fromHex_toHex hhi, fromHex_toHex hlo, ← UInt8.toNat_inj, UInt8.toNat_or, UInt8.toNat_shiftLeft, toNat_shift, toNat_low]
  have hshift : (ch.toNat / 16) <<< 4 % 2 ^ 8 = (ch.toNat / 16) <<< 4 := Nat.mod_eq_of_lt (by rw [Nat.shiftLeft_eq]; omega)
  calc (ch.toNat / 16) <<< 4 % 2 ^ 8 ||| ch.toNat % 16
    _ = (ch.toNat / 16) <<< 4 + ch.toNat % 16 := by
      rw [hshift, Nat.shiftLeft_add_eq_or_of_lt (Nat.mod_lt _ (by decide))]
    _ = ch.toNat := by
      rw [Nat.shiftLeft_eq]
      omega

/-- A byte outside an escape. -/
theorem urlDecodeLoop_cons {ch : UInt8} (h : ch ≠ 37) (ix : Nat) (rest : Bytes) :
    urlDecodeLoop ix (ch :: rest) = (urlDecodeLoop (ix + 1) rest).cons (if ch = 43 then 32 else ch) [ix] := by
  rcases rest with _ | ⟨x, _ | ⟨y, rest⟩⟩ <;> simp [urlDecodeLoop, h, Decoded.cons, Except.map]

/-- And an escape. -/
theorem urlDecodeLoop_escape (ix : Nat) (x y : UInt8) (rest : Bytes) :
    urlDecodeLoop ix (37 :: x :: y :: rest) = (urlDecodeLoop (ix + 3) rest).cons (escape x y) [ix, ix + 1, ix + 2] := by
  rw [urlDecodeLoop, if_pos rfl]

/-- A byte outside an escape asks for nothing behind it. -/
theorem escapesHave_cons {ch : UInt8} (h : ch ≠ 37) (n : Nat) (rest : Bytes) : escapesHave n (ch :: rest) = escapesHave n rest := by
  rcases rest with _ | ⟨x, _ | ⟨y, rest⟩⟩ <;> simp [escapesHave, h]

/-- A whole escape has what it needs. -/
theorem escapesHave_escape (n : Nat) (x y : UInt8) (rest : Bytes) : escapesHave n (37 :: x :: y :: rest) = escapesHave n rest := by
  simp [escapesHave]

/-- The loop comes to a character, or to an escape with two characters, one or none behind it. -/
theorem loop_cases {P : Bytes → Prop} (nil : P []) (char : ∀ ch rest, ch ≠ 37 → P rest → P (ch :: rest))
    (bare : P [37]) (half : ∀ x, P [37, x]) (whole : ∀ x y rest, P rest → P (37 :: x :: y :: rest)) (t : Bytes) : P t := by
  induction hn : t.length using Nat.strong_induction_on generalizing t with
  | _ n ih =>
    cases t with
    | nil => exact nil
    | cons ch rest =>
      rw [List.length_cons] at hn
      by_cases hch : ch = 37
      · subst hch
        rcases rest with _ | ⟨x, _ | ⟨y, rest⟩⟩
        · exact bare
        · exact half x
        · exact whole x y rest (ih rest.length (by simp only [List.length_cons] at hn; omega) rest rfl)
      · exact char ch rest hch (ih rest.length (by omega) rest rfl)

/-- A character is decoded to itself. -/
theorem urlDecodeLoop_urlEncodeChar (ix : Nat) (ch : UInt8) (rest : Bytes) :
    (urlDecodeLoop ix (urlEncodeChar ch ++ rest)).text = (urlDecodeLoop (ix + (urlEncodeChar ch).length) rest).text.map (ch :: ·) := by
  rw [urlEncodeChar]
  split
  · rename_i halnum
    have hescape : ch ≠ 37 := by
      rintro rfl
      simp [isalnum] at halnum
    have hplus : ch ≠ 43 := by
      rintro rfl
      simp [isalnum] at halnum
    rw [List.singleton_append, urlDecodeLoop_cons hescape, if_neg hplus]
    rfl
  · rw [List.cons_append, List.cons_append, List.singleton_append, urlDecodeLoop_escape, escape_toHex]
    rfl

/-- What is encoded decodes. -/
theorem urlDecodeLoop_urlEncode (ix : Nat) (s : Bytes) : (urlDecodeLoop ix (urlEncode s)).text = .ok s := by
  induction s generalizing ix with
  | nil => rfl
  | cons ch s ih =>
    rw [urlEncode, List.flatMap_cons, urlDecodeLoop_urlEncodeChar]
    rw [urlEncode] at ih
    rw [ih]
    rfl

/-- A decoded text with one more byte. -/
theorem text_cons {ch : UInt8} {reads : List Nat} {d : Decoded} {s : Bytes} :
    (d.cons ch reads).text = .ok s ↔ ∃ s', d.text = .ok s' ∧ s = ch :: s' := by
  cases h : d.text with
  | error e => simp [Decoded.cons, h, Except.map]
  | ok s' => simp [Decoded.cons, h, Except.map, eq_comm]

/-- The reads stay inside exactly when every escape has its two bytes. -/
theorem reads_iff (ix : Nat) (t : Bytes) : (∀ i ∈ (urlDecodeLoop ix t).reads, i < ix + t.length) ↔ escapesHave 2 t = true := by
  induction t using loop_cases generalizing ix with
  | nil => simp [urlDecodeLoop, escapesHave]
  | char ch rest h ih =>
    rw [urlDecodeLoop_cons h, escapesHave_cons h, ← ih (ix + 1)]
    simp [Decoded.cons, Nat.add_assoc, Nat.add_comm 1]
  | bare => simp [urlDecodeLoop, escapesHave]
  | half x => simp [urlDecodeLoop, escapesHave]
  | whole x y rest ih =>
    rw [urlDecodeLoop_escape, escapesHave_escape, ← ih (ix + 3)]
    simp [Decoded.cons, Nat.add_assoc, Nat.add_comm 3]

/-- There is a result unless the terminator is passed. -/
theorem text_iff (ix : Nat) (t : Bytes) : (∃ s, (urlDecodeLoop ix t).text = .ok s) ↔ escapesHave 1 t = true := by
  induction t using loop_cases generalizing ix with
  | nil => simp [urlDecodeLoop, escapesHave]
  | char ch rest h ih =>
    rw [urlDecodeLoop_cons h, escapesHave_cons h, ← ih (ix + 1)]
    simp [text_cons]
  | bare => simp [urlDecodeLoop, escapesHave]
  | half x => simp [urlDecodeLoop, escapesHave]
  | whole x y rest ih =>
    rw [urlDecodeLoop_escape, escapesHave_escape, ← ih (ix + 3)]
    simp [text_cons]

/-- No more characters than are read. -/
theorem length_text_le (ix : Nat) (t : Bytes) {s : Bytes} (hs : (urlDecodeLoop ix t).text = .ok s) : s.length ≤ t.length := by
  induction t using loop_cases generalizing ix s with
  | nil => simp_all [urlDecodeLoop]
  | char ch rest h ih =>
    rw [urlDecodeLoop_cons h] at hs
    obtain ⟨s', hrest, rfl⟩ := text_cons.1 hs
    exact Nat.succ_le_succ (ih (ix + 1) hrest)
  | bare => simp [urlDecodeLoop] at hs
  | half x =>
    obtain rfl : [escape x 0] = s := by simpa [urlDecodeLoop] using hs
    simp
  | whole x y rest ih =>
    rw [urlDecodeLoop_escape] at hs
    obtain ⟨s', hrest, rfl⟩ := text_cons.1 hs
    have := ih (ix + 3) hrest
    simp only [List.length_cons]
    omega

end UrlCodingAux

open UrlCodingAux

/-- Every text comes back from its coding, and what is decoded is no longer than the text it is from. Only the text is read exactly when each
escape has its two characters; there is a result exactly when each has one, as the terminator may be read and nothing behind it. -/
theorem url_coding (s t : Bytes) :
    (urlDecode (urlEncode s)).text = .ok s ∧ (Safe t ↔ escapesHave 2 t = true) ∧
      ((∃ s, (urlDecode t).text = .ok s) ↔ escapesHave 1 t = true) ∧ ∀ s, (urlDecode t).text = .ok s → s.length ≤ t.length := by
  refine ⟨urlDecodeLoop_urlEncode 0 s, ?_, text_iff 0 t, fun s hs => length_text_le 0 t hs⟩
  have hreads := reads_iff 0 t
  rw [Nat.zero_add] at hreads
  exact (and_iff_left fun s hs => length_text_le 0 t hs).trans hreads

/-- `URLDecode("%")` reads behind the terminator. -/
theorem bare_escape : (urlDecode [37]).text = .error .undefinedBehaviour ∧ ¬ Safe [37] := by
  refine ⟨rfl, fun h => ?_⟩
  have := h.1 2 (by simp [urlDecode, urlDecodeLoop])
  simp at this

/-! ## Numbers -/

/-- The number comes back, and what is written is in the buffer of 64 bytes. -/
def Survives (id : Nat) : Prop := urltoid (idtourl id) = id ∧ ∀ w ∈ idtourlWrites id, 0 ≤ w.1 ∧ w.1 < 64

namespace UrlIdAux

/-- A digit's value. -/
theorem digitValue_digits {v : Nat} (h : v < 36) : digitValue (digits.getD v 0) = some v := by
  have htable : ∀ v : Fin 36, digitValue (digits.getD v 0) = some v.1 := by decide
  exact htable ⟨v, h⟩

/-- A digit more. -/
theorem urltoidStep_digits {value : Nat} (h : value < uint32Size) : urltoidStep (value / 36) (digits.getD (value % 36) 0) = value := by
  rw [urltoidStep, digitValue_digits (Nat.mod_lt _ (by decide))]
  simp only
  rw [Nat.div_add_mod' value 36, Nat.mod_eq_of_lt h]

/-- And no digit is a NUL. -/
theorem digits_ne_zero {v : Nat} (h : v < 36) : digits.getD v 0 ≠ 0 := by
  intro hzero
  have := digitValue_digits h
  rw [hzero] at this
  cases this

/-- The last digit, and the version in front of it. -/
theorem idtourlLoop_last {ptr : Int} {value : Nat} (hptr : 2 ≤ ptr) (hdiv : value / 36 = 0) (h : value < uint32Size) :
    (∀ w ∈ idtourlLoop ptr value, 0 ≤ w.1 ∧ w.1 < ptr) ∧
    ∃ ds, (idtourlLoop ptr value).reverse.map Prod.snd = 49 :: ds ∧ 0 ∉ ds ∧ ds.foldl urltoidStep 0 = value := by
  have hdigit := digits_ne_zero (Nat.mod_lt value (by decide : 0 < 36))
  have hstep := urltoidStep_digits h
  rw [hdiv] at hstep
  rw [idtourlLoop, if_neg fun hrest => hrest.2 hdiv]
  refine ⟨fun w hw => ?_, [_], rfl, by simpa using hdigit.symm, hstep⟩
  rcases List.mem_cons.1 hw with rfl | hw
  · simp only
    omega
  · rw [List.mem_singleton.1 hw]
    simp only
    omega

/-- What the loop writes in front of the place, read from the last one on: the version, and the digits of the number. -/
theorem idtourlLoop_spec (k : Nat) {ptr : Int} {value : Nat} (hptr : k + 2 ≤ ptr) (hvalue : value < 36 ^ k) (h : value < uint32Size) :
    (∀ w ∈ idtourlLoop ptr value, 0 ≤ w.1 ∧ w.1 < ptr) ∧
    ∃ ds, (idtourlLoop ptr value).reverse.map Prod.snd = 49 :: ds ∧ 0 ∉ ds ∧ ds.foldl urltoidStep 0 = value := by
  induction k generalizing ptr value with
  | zero => exact idtourlLoop_last (by omega) (by omega) h
  | succ k ih =>
    by_cases hdiv : value / 36 = 0
    · exact idtourlLoop_last (by omega) hdiv h
    · have hdigit := digits_ne_zero (Nat.mod_lt value (by decide : 0 < 36))
      have hsmall : value / 36 < 36 ^ k := Nat.div_lt_of_lt_mul (by rwa [Nat.pow_succ, Nat.mul_comm] at hvalue)
      obtain ⟨hwrites, ds, htext, hzero, hfold⟩ := @ih (ptr - 1) (value / 36) (by omega) hsmall (by omega)
      rw [idtourlLoop, if_pos ⟨by omega, hdiv⟩]
      refine ⟨fun w hw => ?_, ds ++ [digits.getD (value % 36) 0], ?_, ?_, ?_⟩
      · rcases List.mem_cons.1 hw with rfl | hw
        · simp only
          omega
        · have := hwrites w hw
          omega
      · rw [List.reverse_cons, List.map_append, htext]
        rfl
      · simpa [hzero] using hdigit.symm
      · rw [List.foldl_append, hfold]
        exact urltoidStep_digits h

/-- What `idtourl` writes is in the buffer, and its number comes back without the upper bit. -/
theorem urltoid_idtourl (id : Nat) :
    (∀ w ∈ idtourlWrites id, 0 ≤ w.1 ∧ w.1 < 64) ∧ urltoid (idtourl id) = id % 2 ^ 31 := by
  have hlt : (id * 2 + 56) % uint32Size < uint32Size := Nat.mod_lt _ (by decide)
  obtain ⟨hwrites, ds, htext, hzero, hvalue⟩ := @idtourlLoop_spec 7 63 ((id * 2 + 56) % uint32Size) (by decide) (hlt.trans (by decide)) hlt
  have hurl : idtourl id = 49 :: ds := by
    have hbytes : (idtourlWrites id).reverse.map Prod.snd = (49 :: ds) ++ [0] := by
      rw [idtourlWrites, List.reverse_cons, List.map_append, htext]
      rfl
    have hfront : 0 ∉ 49 :: ds := by simp [hzero]
    have hall : ∀ ch ∈ 49 :: ds, decide (ch ≠ 0) = true := fun ch hch => decide_eq_true fun heq => hfront (heq ▸ hch)
    rw [idtourl, hbytes, cString, List.takeWhile_append_of_pos hall]
    simp
  refine ⟨fun w hw => ?_, ?_⟩
  · rcases List.mem_cons.1 hw with rfl | hw
    · decide
    · have := hwrites w hw
      omega
  · rw [hurl, urltoid, List.drop_one, List.tail_cons, hvalue]
    simp only [uint32Size]
    omega

end UrlIdAux

open UrlIdAux

/-- A number comes back exactly when doubling it keeps all of it. Nothing is written outside the buffer for any number. -/
theorem ids_survive (id : Nat) : (Survives id ↔ id < 2 ^ 31) ∧ ∀ w ∈ idtourlWrites id, 0 ≤ w.1 ∧ w.1 < 64 := by
  obtain ⟨hinside, hback⟩ := urltoid_idtourl id
  refine ⟨(and_iff_left hinside).trans ?_, hinside⟩
  rw [hback]
  exact ⟨fun heq => heq ▸ Nat.mod_lt _ (by decide), Nat.mod_eq_of_lt⟩

/-- 2 ^ 31 comes back as 0. -/
theorem id_lost : ¬ ∀ id, id < uint32Size → urltoid (idtourl id) = id := by
  intro h
  have hback := h (2 ^ 31) (by decide)
  rw [(urltoid_idtourl (2 ^ 31)).2] at hback
  revert hback
  decide

end TeamTalk.UrlCoding
