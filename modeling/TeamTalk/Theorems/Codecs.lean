import Mathlib
import TeamTalk.Base.EncDec

/-!
# The AES codecs invert each other

For which data `Decrypt` gives back what `Encrypt` was given, in `CAes`, in libsecurity and across the two. The sizes are
counted in `uint32_t`: from 3 GiB on, the base64 text is longer than that.
-/

namespace TeamTalk

open ByteStream Base64 EncDec

/-! ## The properties -/

/-- The result is this data. -/
def Returns (r : Exec Result) (data : Bytes) : Prop :=
  ∃ block, r = .ok (.ok block data.length) ∧ block.take data.length = data

/-- What is encrypted is decrypted to the same data. The length is passed as a `uint32_t`. -/
def RoundTrips (encrypt decrypt : Option Bytes → Nat → Exec Result) (data : Bytes) : Prop :=
  ∃ text n, encrypt (some data) (data.length % uint32Size) = .ok (.ok text n) ∧ Returns (decrypt (some text) n) data

/-- Both codecs invert themselves, and under the key of libsecurity each inverts the other. -/
structure CodecsInvert (aes : Aes) (data : Bytes) : Prop where
  cAes : ∀ c : CAes, RoundTrips (c.encrypt aes) (c.decrypt aes) data
  security : RoundTrips (Security.encryptMsg aes) (Security.decryptMsg aes) data
  cAes_security : RoundTrips (CAes.encrypt aes ⟨Security.key⟩) (Security.decryptMsg aes) data
  security_cAes : RoundTrips (Security.encryptMsg aes) (CAes.decrypt aes ⟨Security.key⟩) data

/-- Whatever text is decrypted, there is a result, and it is no longer than what was decoded. -/
def Bounded (decrypt : Option Bytes → Nat → Exec Result) : Prop :=
  ∀ text : Bytes, ∀ n ≤ text.length, n < uint32Size → ∃ r, decrypt (some text) n = .ok r ∧
    ∀ block m, r = .ok block m → m ≤ (base64Decode (text.take n)).length

/-- The first length from which the base64 text has no length in `uint32_t`. -/
def encryptLimit : Nat := 3 * 2 ^ 30 - 19

namespace CodecsAux

open EncDecAux

variable {f g : Block → Block}

theorem decryptWith_zero (inData : Bytes) : decryptWith g (some inData) 0 = .ok (.error (-1)) := rfl

theorem bounded_decryptWith (g : Block → Block) : Bounded (decryptWith g) := by
  intro text n hle hn
  rcases Nat.eq_zero_or_pos n with rfl | h0
  · exact ⟨_, decryptWith_zero text, fun block m hr => by cases hr⟩
  · have hlen := length_base64Decode (text.take n)
    rw [List.length_take, Nat.min_eq_left hle] at hlen
    rcases decryptWith_eq g h0 hle rfl (by omega) with ⟨-, heq⟩ | ⟨-, heq⟩ | ⟨bs, hbs, hdecoded, heq⟩
    · exact ⟨_, heq, fun block m hr => by cases hr⟩
    · exact ⟨_, heq, fun block m hr => by cases hr⟩
    · have hfour : 4 ≤ (join (bs.map g)).length := by
        have hpos := List.length_pos_of_ne_nil hbs
        rw [length_join, List.length_map]
        omega
      obtain ⟨r, hr, hbound⟩ := unpack_bound hfour
      refine ⟨r, heq.trans hr, fun block m hok => ?_⟩
      have hm := hbound block m hok
      rw [length_join, List.length_map] at hm
      rw [hdecoded, length_join]
      exact hm

/-- What is returned is no longer than three quarters of the text. -/
theorem returns_le {text data : Bytes} {n : Nat} (hle : n ≤ text.length) (hn : n < uint32Size)
    (h : Returns (decryptWith g (some text) n) data) : 8 * data.length ≤ 6 * n := by
  obtain ⟨block, hok, -⟩ := h
  obtain ⟨r, hr, hbound⟩ := bounded_decryptWith g text n hle hn
  rw [hok] at hr
  cases hr
  have hdecoded := length_base64Decode (text.take n)
  rw [List.length_take, Nat.min_eq_left hle] at hdecoded
  have hdata := hbound block data.length rfl
  omega

/-- The text that is as long as a `uint32_t` says. -/
def sizedText (xs : Bytes) : Bytes := (base64Encode xs).take ((base64Encode xs).length % uint32Size) ++ [0]

theorem le_sizedText (xs : Bytes) : (base64Encode xs).length % uint32Size ≤ (sizedText xs).length := by
  rw [sizedText, List.length_append, List.length_take]
  have := Nat.mod_le (base64Encode xs).length uint32Size
  omega

/-- Short data is decrypted. -/
theorem roundTrips_of_lt (hinv : ∀ b, g (f b) = b) {data : Bytes} (h0 : 0 < data.length) (h : data.length < encryptLimit) :
    RoundTrips (encryptWith f) (decryptWith g) data := by
  have hn : data.length < uint32Size := by
    simp only [encryptLimit, uint32Size] at h ⊢
    omega
  have hpad : paddedLength data.length < uint32Size := by
    simp only [encryptLimit] at h
    simp only [paddedLength, uint32Size]
    omega
  obtain ⟨bs, hbs, henc⟩ := encryptWith_ok f h0 hpad
  have hsize : (join (bs.map f)).length = paddedLength data.length := by
    rw [length_join, List.length_map, ← length_join, hbs, length_padded]
  have hfits : (join (bs.map f)).length ≤ maxSize / 4 * 3 := by
    rw [hsize]
    simp only [uint32Size] at hpad
    simp only [maxSize]
    omega
  have hencoded := length_base64Encode hfits
  -- below the limit the length of the text is a `uint32_t`
  have hmod : (base64Encode (join (bs.map f))).length % uint32Size = (base64Encode (join (bs.map f))).length := by
    refine Nat.mod_eq_of_lt ?_
    rw [hencoded, hsize]
    simp only [encryptLimit] at h
    simp only [paddedLength, uint32Size]
    omega
  rw [hmod, List.take_length] at henc
  rw [RoundTrips, Nat.mod_eq_of_lt hn]
  refine ⟨_, _, henc, ?_⟩
  have hpos : 0 < (base64Encode (join (bs.map f))).length := by
    rw [hencoded, hsize, paddedLength]
    omega
  have hdecode : base64Decode ((base64Encode (join (bs.map f)) ++ [0]).take (base64Encode (join (bs.map f))).length) =
      join (bs.map f) := by rw [List.take_left, base64Decode_base64Encode hfits]
  have hplain : join ((bs.map f).map g) = padded data := by
    rw [List.map_map, ← hbs]
    congr 1
    exact List.map_congr_left (fun b _ => hinv b) |>.trans (List.map_id bs)
  have hjoined : 0 < (join (bs.map f)).length := by
    rw [hsize, paddedLength]
    omega
  obtain ⟨block, hunpack, htake⟩ := unpack_padded hn
  rcases decryptWith_eq g hpos (by rw [List.length_append]; omega) hdecode (by rw [hsize]; exact hpad) with
    ⟨hempty, -⟩ | ⟨hblocks, -⟩ | ⟨cs, -, hcs, heq⟩
  · omega
  · rw [length_join] at hblocks
    omega
  · refine ⟨block, ?_, htake⟩
    rw [heq, ← join_inj hcs, hplain, hunpack]

/-- Long data is not. -/
theorem not_roundTrips_of_le {data : Bytes} (h : encryptLimit ≤ data.length) :
    ¬RoundTrips (encryptWith f) (decryptWith g) data := by
  rintro ⟨text, n, henc, hdec⟩
  generalize hm : data.length % uint32Size = m at henc
  have hmlt : m < uint32Size := by
    rw [← hm]
    exact Nat.mod_lt _ (by decide)
  have hmle : m ≤ data.length := by
    rw [← hm]
    exact Nat.mod_le _ _
  rcases Nat.eq_zero_or_pos m with rfl | h0
  · cases henc
  by_cases hpad : paddedLength m < uint32Size
  · have hlen : (data.take m).length = m := by rw [List.length_take, Nat.min_eq_left hmle]
    obtain ⟨bs, hbs, hok⟩ := @encryptWith_ok f (data.take m) (by omega) (by rw [hlen]; exact hpad)
    rw [hlen, ← encryptWith_take f hmle, henc] at hok
    have hsize : (join (bs.map f)).length = paddedLength m := by
      rw [length_join, List.length_map, ← length_join, hbs, length_padded, hlen]
    have hencoded : (base64Encode (join (bs.map f))).length = (paddedLength m + 2) / 3 * 4 := by
      rw [length_base64Encode, hsize]
      rw [hsize]
      simp only [uint32Size] at hpad
      simp only [maxSize]
      omega
    obtain ⟨rfl, rfl⟩ := Result.ok.inj (Except.ok.inj hok)
    have hshort := returns_le (le_sizedText (join (bs.map f))) (Nat.mod_lt _ (by decide)) hdec
    -- the text is cut off, or the data is longer than any text
    rw [hencoded] at hshort
    simp only [encryptLimit] at h
    simp only [paddedLength, uint32Size] at hpad hshort hm hmlt
    rcases Nat.lt_or_ge data.length (2 ^ 32) with hlt | hge
    · have hsame : data.length = m := by omega
      have hblocks : 201326592 ≤ (m + 19) / 16 := by omega
      have hthirds : 1073741824 ≤ ((m + 19) / 16 * 16 + 2) / 3 := by omega
      have hwraps : 1 ≤ ((m + 19) / 16 * 16 + 2) / 3 * 4 / 4294967296 := by omega
      omega
    · omega
  · rw [encryptWith_fault f hmle h0 hmlt (Nat.le_of_not_lt hpad)] at henc
    cases henc

/-- Which data is decrypted to what was encrypted. -/
theorem roundTrips_iff (hinv : ∀ b, g (f b) = b) (data : Bytes) :
    RoundTrips (encryptWith f) (decryptWith g) data ↔ 0 < data.length ∧ data.length < encryptLimit := by
  constructor
  · intro h
    refine ⟨Nat.pos_of_ne_zero fun h0 => ?_, Nat.lt_of_not_le fun hle => not_roundTrips_of_le hle h⟩
    obtain ⟨text, n, henc, -⟩ := h
    rw [h0] at henc
    cases henc
  · rintro ⟨h0, hlt⟩
    exact roundTrips_of_lt hinv h0 hlt

/-! ## A block of real AES -/

/-- `"a"`, padded. -/
def plainBlock : Block := ⟨[97, 0, 0, 0, 0, 0, 0, 0, 0, 0, 0, 0, 0, 0, 0, 1], rfl⟩

/-- The same block, encrypted by AES under the key of libsecurity. -/
def cipherBlock : Block := ⟨[243, 233, 114, 104, 100, 141, 116, 172, 93, 176, 65, 0, 15, 38, 49, 191], rfl⟩

/-- Exchange the two blocks under the key of libsecurity. -/
def exchange (key : AesKey) (block : Block) : Block :=
  if key = Security.key then
    if block = plainBlock then cipherBlock else if block = cipherBlock then plainBlock else block
  else block

/-- AES, as far as the two blocks are concerned. -/
def blockAes : Aes := ⟨exchange, exchange⟩

theorem blockAes_inverts : blockAes.Inverts := by
  intro key block
  have hne : cipherBlock ≠ plainBlock := by decide
  simp only [blockAes, exchange]
  split
  · by_cases hplain : block = plainBlock
    · simp [hplain, hne]
    · by_cases hcipher : block = cipherBlock
      · simp [hcipher, hne]
      · simp [hplain, hcipher]
  · rfl

end CodecsAux

open CodecsAux

/-- When AES decryption inverts AES encryption: what is decrypted is never longer than what was decoded, and both codecs invert
themselves and each other for exactly the data that is not empty and shorter than the limit. -/
theorem codecs_invert_iff (aes : Aes) (hinv : aes.Inverts) :
    ((∀ c : CAes, Bounded (c.decrypt aes)) ∧ Bounded (Security.decryptMsg aes)) ∧
      ∀ data : Bytes, CodecsInvert aes data ↔ 0 < data.length ∧ data.length < encryptLimit := by
  refine ⟨⟨fun c => bounded_decryptWith _, bounded_decryptWith _⟩, fun data => ?_⟩
  constructor
  · intro h
    exact (roundTrips_iff (hinv Security.key) data).1 h.security
  · intro h
    refine ⟨fun c => ?_, ?_, ?_, ?_⟩
    · exact (roundTrips_iff (hinv c.key) data).2 h
    · exact (roundTrips_iff (hinv Security.key) data).2 h
    · exact (roundTrips_iff (hinv Security.key) data).2 h
    · exact (roundTrips_iff (hinv Security.key) data).2 h

/-- `"a"` is encrypted and decrypted by libsecurity. -/
theorem codecs_invert_a : RoundTrips (Security.encryptMsg blockAes) (Security.decryptMsg blockAes) [97] := by
  exact (((codecs_invert_iff blockAes blockAes_inverts).2 [97]).2 ⟨by decide, by decide⟩).security

/-- Data of 3221225453 zeros is not: its base64 text has 2 ^ 32 characters, and its length is counted as 0. -/
theorem codecs_not_invert : ¬∀ aes : Aes, aes.Inverts → ∀ data : Bytes, data ≠ [] → CodecsInvert aes data := by
  intro hall
  have hne : List.replicate encryptLimit (0 : UInt8) ≠ [] := by
    intro hnil
    have hlen := congrArg List.length hnil
    rw [List.length_replicate] at hlen
    exact absurd hlen (by decide)
  have hinvert := hall blockAes blockAes_inverts (List.replicate encryptLimit 0) hne
  exact not_roundTrips_of_le (Nat.le_of_eq List.length_replicate.symm) hinvert.security

end TeamTalk
