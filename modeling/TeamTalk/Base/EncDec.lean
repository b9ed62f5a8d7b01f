import Mathlib
import TeamTalk.Base.Base64

/-!
# The AES codecs

`CAes::Encrypt` and `CAes::Decrypt`, and `EncryptMsg` and `DecryptMsg` of libsecurity, which are the same but for the key. What
is encrypted is padded with zeros to whole blocks, the last four bytes of which are its length. AES itself, which encrypts and
decrypts one block under a key, is a parameter.
-/

namespace TeamTalk

open ByteStream Base64

/-- What `AES_encrypt` and `AES_decrypt` work on. -/
abbrev Block := { b : Bytes // b.length = 16 }

/-- What `AES_set_encrypt_key` and `AES_set_decrypt_key` read, for 256 bits. -/
abbrev AesKey := { k : Bytes // k.length = 32 }

/-- `AES_encrypt` and `AES_decrypt`. -/
structure Aes where
  encrypt : AesKey → Block → Block
  decrypt : AesKey → Block → Block

/-- Decryption under a key inverts encryption under it. -/
def Aes.Inverts (aes : Aes) : Prop := ∀ key block, aes.decrypt key (aes.encrypt key block) = block

namespace EncDec

/-- What is returned: an error, or the block behind `*ppOutData`, and `nOutLen`. -/
inductive Result where
  | error (code : Int)
  | ok (pOutData : Bytes) (nOutLen : Nat)
  deriving DecidableEq, Repr

/-- The block at an address. -/
def readBlock (memory : Bytes) (offset : Nat) : Exec Block :=
  if h : offset + 16 ≤ memory.length then
    .ok ⟨(memory.drop offset).take 16, by rw [List.length_take, List.length_drop]; omega⟩
  else .error .undefinedBehaviour

/-- The loop over the blocks, from `i` on. -/
def blockLoop (f : Block → Block) (source : Bytes) : Nat → Nat → Bytes → Exec Bytes
  | 0, _, target => return target
  | n + 1, i, target => do
    let block ← readBlock source (i * 16)
    blockLoop f source n (i + 1) (← copyAt target (i * 16) (f block).1)

/-- The number of blocks: the last one has room for the length. -/
def blocks (nInLen : Nat) : Nat :=
  let nRemain := nInLen % 16
  let nBlocks := (nInLen + 15) % uint32Size / 16
  if nRemain > 12 ∨ nRemain = 0 then (nBlocks + 1) % uint32Size else nBlocks

/-- Encryption of `nInLen` bytes, with AES under a key. -/
def encryptWith (encrypt : Block → Block) (pInData : Option Bytes) (nInLen : Nat) : Exec Result := do
  match pInData with
  | none => return .error (-1)
  | some inData =>
    if nInLen ≤ 0 then return .error (-1)
    let nBlocks := blocks nInLen
    let nEncryptLen := nBlocks * 16 % uint32Size
    let pData ← copyAt (List.replicate nEncryptLen 0) 0 (← readAt inData 0 nInLen)
    let pData ← copyAt pData (nEncryptLen - 4) (writeUint32 nInLen)
    let strEnc ← blockLoop encrypt pData nBlocks 0 (List.replicate nEncryptLen 0)
    let strDec := base64Encode strEnc
    let nOutLen := strDec.length % uint32Size
    return .ok (strDec.take nOutLen ++ [0]) nOutLen

/-- Decryption of `nInLen` bytes, with AES under a key. -/
def decryptWith (decrypt : Block → Block) (pInData : Option Bytes) (nInLen : Nat) : Exec Result := do
  match pInData with
  | none => return .error (-1)
  | some inData =>
    if nInLen ≤ 0 then return .error (-1)
    let strResult := base64Decode (← readAt inData 0 nInLen)
    let nLen := strResult.length % uint32Size
    if nLen = 0 then return .error (-2)
    if nLen % 16 ≠ 0 then return .error (-3)
    let pTmp ← blockLoop decrypt strResult (nLen / 16) 0 (List.replicate ((nLen + 1) % uint32Size) 0)
    let nOutLen ← readUint32 pTmp (nLen - 4)
    if nOutLen > nLen then return .error (-4)
    return .ok (← copyAt pTmp nOutLen [0]) nOutLen

end EncDec

/-! ## `CAes` -/

/-- `CAes`: the two key schedules are the key's. -/
structure CAes where
  key : AesKey

/-- `CAes::Encrypt`. -/
def CAes.encrypt (aes : Aes) (c : CAes) (pInData : Option Bytes) (nInLen : Nat) : Exec EncDec.Result :=
  EncDec.encryptWith (aes.encrypt c.key) pInData nInLen

/-- `CAes::Decrypt`. -/
def CAes.decrypt (aes : Aes) (c : CAes) (pInData : Option Bytes) (nInLen : Nat) : Exec EncDec.Result :=
  EncDec.decryptWith (aes.decrypt c.key) pInData nInLen

/-! ## libsecurity -/

namespace Security

/-- The key, `"12345678901234567890123456789012"`. -/
def key : AesKey :=
  ⟨['1', '2', '3', '4', '5', '6', '7', '8', '9', '0', '1', '2', '3', '4', '5', '6', '7', '8', '9', '0', '1', '2', '3', '4',
    '5', '6', '7', '8', '9', '0', '1', '2'].map charByte, rfl⟩

/-- `EncryptMsg`. -/
def encryptMsg (aes : Aes) (pInData : Option Bytes) (nInLen : Nat) : Exec EncDec.Result :=
  EncDec.encryptWith (aes.encrypt key) pInData nInLen

/-- `DecryptMsg`. -/
def decryptMsg (aes : Aes) (pInData : Option Bytes) (nInLen : Nat) : Exec EncDec.Result :=
  EncDec.decryptWith (aes.decrypt key) pInData nInLen

end Security

namespace EncDecAux

open EncDec

/-! ## Blocks -/

/-- The bytes of blocks, one after the other. -/
def join (bs : List Block) : Bytes := (bs.map Subtype.val).flatten

@[simp] theorem join_nil : join [] = [] := rfl

@[simp] theorem join_cons (b : Block) (bs : List Block) : join (b :: bs) = b.1 ++ join bs := rfl

@[simp] theorem length_join (bs : List Block) : (join bs).length = bs.length * 16 := by
  induction bs with
  | nil => rfl
  | cons b bs ih =>
    rw [join_cons, List.length_append, b.2, ih, List.length_cons]
    omega

/-- Bytes that fill whole blocks. -/
theorem exists_join (k : Nat) {xs : Bytes} (h : xs.length = k * 16) : ∃ bs, xs = join bs ∧ bs.length = k := by
  induction k generalizing xs with
  | zero => exact ⟨[], List.length_eq_zero_iff.1 (by omega), rfl⟩
  | succ k ih =>
    obtain ⟨bs, hbs, hk⟩ := @ih (xs.drop 16) (by rw [List.length_drop]; omega)
    refine ⟨⟨xs.take 16, by rw [List.length_take]; omega⟩ :: bs, ?_, by rw [List.length_cons, hk]⟩
    rw [join_cons, ← hbs, List.take_append_drop]

/-- The blocks are known from the bytes. -/
theorem join_inj {bs cs : List Block} (h : join bs = join cs) : bs = cs := by
  have hlen := congrArg List.length h
  rw [length_join, length_join] at hlen
  induction bs generalizing cs with
  | nil => exact (List.length_eq_zero_iff.1 (by rw [List.length_nil] at hlen; omega)).symm
  | cons b bs ih =>
    cases cs with
    | nil =>
      rw [List.length_cons, List.length_nil] at hlen
      omega
    | cons c cs =>
      obtain ⟨hb, hbs⟩ := List.append_inj h (b.2.trans c.2.symm)
      rw [Subtype.ext hb, ih hbs (by rw [List.length_cons, List.length_cons] at hlen; omega)]

/-- The loop: every block of the source is written where it was read. -/
theorem blockLoop_join (f : Block → Block) (bs : List Block) (pre post pre' mid post' : Bytes) {i : Nat}
    (hpre : pre.length = i * 16) (hpre' : pre'.length = i * 16) (hmid : mid.length = bs.length * 16) :
    blockLoop f (pre ++ join bs ++ post) bs.length i (pre' ++ mid ++ post') = .ok (pre' ++ join (bs.map f) ++ post') := by
  induction bs generalizing pre pre' mid i with
  | nil =>
    rw [List.length_nil, Nat.zero_mul, List.length_eq_zero_iff] at hmid
    rw [hmid]
    rfl
  | cons b bs ih =>
    rw [List.length_cons] at hmid
    have hread : readBlock (pre ++ join (b :: bs) ++ post) (i * 16) = .ok b := by
      have hfits : i * 16 + 16 ≤ (pre ++ join (b :: bs) ++ post).length := by
        simp only [List.length_append, length_join, List.length_cons]
        omega
      rw [readBlock, dif_pos hfits, Except.ok.injEq, Subtype.mk.injEq]
      rw [List.append_assoc, ← hpre, List.drop_left, join_cons, List.append_assoc, List.take_left' b.2]
    have hcopy : copyAt (pre' ++ mid ++ post') (i * 16) (f b).1 = .ok (pre' ++ (f b).1 ++ mid.drop 16 ++ post') := by
      have hfits : i * 16 + (f b).1.length ≤ (pre' ++ mid ++ post').length := by
        simp only [List.length_append, (f b).2]
        omega
      rw [copyAt, if_pos hfits, (f b).2, List.append_assoc pre', List.take_left' hpre', ← List.drop_drop, ← hpre',
        List.drop_left, List.drop_append_of_le_length (by omega), List.append_assoc, List.append_assoc, List.append_assoc]
    have hnext := ih (pre ++ b.1) (pre' ++ (f b).1) (mid.drop 16) (i := i + 1)
      (by rw [List.length_append, hpre, b.2]; omega) (by rw [List.length_append, hpre', (f b).2]; omega)
      (by rw [List.length_drop]; omega)
    have hsource : pre ++ join (b :: bs) ++ post = pre ++ b.1 ++ join bs ++ post := by
      rw [join_cons, List.append_assoc pre b.1]
    rw [List.length_cons, blockLoop, hread]
    simp only [bind, Except.bind, hcopy]
    rw [hsource, hnext, List.map_cons, join_cons, List.append_assoc pre' (f b).1]

/-! ## Encryption -/

/-- The length of the padded data. -/
def paddedLength (n : Nat) : Nat := (n + 19) / 16 * 16

/-- What is encrypted. -/
def padded (data : Bytes) : Bytes :=
  data ++ List.replicate (paddedLength data.length - 4 - data.length) 0 ++ writeUint32 data.length

theorem length_writeUint32 (n : Nat) : (writeUint32 n).length = 4 := rfl

theorem length_padded (data : Bytes) : (padded data).length = paddedLength data.length := by
  simp only [padded, List.length_append, List.length_replicate, length_writeUint32, paddedLength]
  omega

/-- The number of blocks, when the padded data has a length. -/
theorem blocks_eq {n : Nat} (h : paddedLength n < uint32Size) : blocks n = (n + 19) / 16 := by
  simp only [paddedLength, uint32Size] at h
  simp only [blocks, uint32Size]
  split <;> omega

/-- Otherwise, there are too few. -/
theorem blocks_lt {n : Nat} (hn : n < uint32Size) (h : uint32Size ≤ paddedLength n) :
    blocks n * 16 % uint32Size < n := by
  simp only [paddedLength, uint32Size] at h hn
  simp only [blocks, uint32Size]
  split <;> omega

/-- The data is padded and encrypted, and the text is as long as a `uint32_t` says. -/
theorem encryptWith_ok (f : Block → Block) {data : Bytes} (h0 : 0 < data.length)
    (h : paddedLength data.length < uint32Size) : ∃ bs, join bs = padded data ∧
      encryptWith f (some data) data.length =
        .ok (.ok ((base64Encode (join (bs.map f))).take ((base64Encode (join (bs.map f))).length % uint32Size) ++ [0])
          ((base64Encode (join (bs.map f))).length % uint32Size)) := by
  obtain ⟨bs, hbs, hcount⟩ := exists_join ((data.length + 19) / 16) (length_padded data)
  have hle : data.length + 4 ≤ paddedLength data.length := by
    rw [paddedLength]
    omega
  have hread : readAt data 0 data.length = .ok data := by
    rw [readAt, if_pos (by omega), List.drop_zero, List.take_length]
  have hlen : (data.length + 19) / 16 * 16 % uint32Size = paddedLength data.length := Nat.mod_eq_of_lt h
  have hcopy : copyAt (List.replicate (paddedLength data.length) 0) 0 data =
      .ok (data ++ List.replicate (paddedLength data.length - data.length) 0) := by
    rw [copyAt, if_pos (by rw [List.length_replicate]; omega), List.take_zero, List.nil_append, List.drop_replicate,
      Nat.zero_add]
  have hzeros : List.replicate (paddedLength data.length - data.length) (0 : UInt8) =
      List.replicate (paddedLength data.length - 4 - data.length) 0 ++ List.replicate 4 0 := by
    rw [List.replicate_append_replicate]
    congr 1
    omega
  have hlength : copyAt (data ++ List.replicate (paddedLength data.length - data.length) 0) (paddedLength data.length - 4)
      (writeUint32 data.length) = .ok (padded data) := by
    have hfront : (data ++ List.replicate (paddedLength data.length - 4 - data.length) (0 : UInt8)).length =
        paddedLength data.length - 4 := by
      rw [List.length_append, List.length_replicate]
      omega
    rw [copyAt, if_pos (by rw [length_writeUint32, List.length_append, List.length_replicate]; omega), length_writeUint32,
      hzeros, ← List.append_assoc, List.take_left' hfront, List.drop_of_length_le, List.append_nil]
    · rfl
    · rw [List.length_append, hfront, List.length_replicate]
  have hloop : blockLoop f (padded data) ((data.length + 19) / 16) 0 (List.replicate (paddedLength data.length) 0) =
      .ok (join (bs.map f)) := by
    have hjoin := blockLoop_join f bs [] [] [] (List.replicate (paddedLength data.length) 0) [] (i := 0) rfl rfl
      (by rw [List.length_replicate, hcount, paddedLength])
    simp only [List.nil_append, List.append_nil, hcount, ← hbs] at hjoin
    exact hjoin
  refine ⟨bs, hbs.symm, ?_⟩
  have hpos : ¬data.length ≤ 0 := Nat.not_le.2 h0
  simp only [encryptWith, if_neg hpos, blocks_eq h, hlen, hread, hcopy, hlength, hloop, bind, Except.bind, pure, Except.pure]

/-- What follows the bytes that are encrypted does not matter. -/
theorem encryptWith_take (f : Block → Block) {data : Bytes} {n : Nat} (h : n ≤ data.length) :
    encryptWith f (some data) n = encryptWith f (some (data.take n)) n := by
  have hread : readAt (data.take n) 0 n = readAt data 0 n := by
    rw [readAt, if_pos (by rw [List.length_take]; omega), readAt, if_pos (by omega), List.drop_zero, List.drop_zero,
      List.take_take, Nat.min_self]
  simp only [encryptWith, hread]

/-- When the length of the padded data wraps around, the block is too small for the data. -/
theorem encryptWith_fault (f : Block → Block) {data : Bytes} {n : Nat} (hle : n ≤ data.length) (h0 : 0 < n)
    (hn : n < uint32Size) (h : uint32Size ≤ paddedLength n) : encryptWith f (some data) n = .error .undefinedBehaviour := by
  have hread : readAt data 0 n = .ok (data.take n) := by
    rw [readAt, if_pos (by omega), List.drop_zero]
  have hcopy : copyAt (List.replicate (blocks n * 16 % uint32Size) 0) 0 (data.take n) = .error .undefinedBehaviour := by
    have hlt := blocks_lt hn h
    rw [copyAt, if_neg]
    rw [List.length_replicate, List.length_take]
    omega
  have hpos : ¬n ≤ 0 := Nat.not_le.2 h0
  simp only [encryptWith, if_neg hpos, hread, hcopy, bind, Except.bind]

/-! ## Decryption -/

/-- What is decrypted, once the text has been decoded: whole blocks, and a zero behind them. -/
def unpack (plain : Bytes) : Exec Result := do
  let nOutLen ← readUint32 (plain ++ [0]) (plain.length - 4)
  if nOutLen > plain.length then return .error (-4)
  return .ok (← copyAt (plain ++ [0]) nOutLen [0]) nOutLen

/-- Decryption, by what is decoded. -/
theorem decryptWith_eq (g : Block → Block) {inData : Bytes} {n : Nat} (h0 : 0 < n) (hle : n ≤ inData.length)
    {strResult : Bytes} (hdecode : base64Decode (inData.take n) = strResult) (hlt : strResult.length < uint32Size) :
    (strResult.length = 0 ∧ decryptWith g (some inData) n = .ok (.error (-2))) ∨
    (strResult.length % 16 ≠ 0 ∧ decryptWith g (some inData) n = .ok (.error (-3))) ∨
    ∃ bs, bs ≠ [] ∧ strResult = join bs ∧ decryptWith g (some inData) n = unpack (join (bs.map g)) := by
  have hread : readAt inData 0 n = .ok (inData.take n) := by
    rw [readAt, if_pos (by omega), List.drop_zero]
  have hpos : ¬n ≤ 0 := Nat.not_le.2 h0
  have hlen : strResult.length % uint32Size = strResult.length := Nat.mod_eq_of_lt hlt
  by_cases hempty : strResult.length = 0
  · refine .inl ⟨hempty, ?_⟩
    simp only [decryptWith, if_neg hpos, hread, hdecode, hlen, if_pos hempty, bind, Except.bind, pure, Except.pure]
  · by_cases hblocks : strResult.length % 16 = 0
    · obtain ⟨bs, hbs, hcount⟩ := exists_join (strResult.length / 16) (show strResult.length = strResult.length / 16 * 16 by omega)
      refine .inr (.inr ⟨bs, ?_, hbs, ?_⟩)
      · rintro rfl
        rw [hbs] at hempty
        exact hempty rfl
      · have hsize : (strResult.length + 1) % uint32Size = bs.length * 16 + 1 := by
          rw [hcount]
          simp only [uint32Size] at hlt ⊢
          omega
        have hloop : blockLoop g strResult (strResult.length / 16) 0 (List.replicate (bs.length * 16 + 1) 0) =
            .ok (join (bs.map g) ++ [0]) := by
          have hjoin := blockLoop_join g bs [] [] [] (List.replicate (bs.length * 16) 0) [0] (i := 0) rfl rfl
            (by rw [List.length_replicate])
          simp only [List.nil_append, List.append_nil, ← hbs, hcount, ← List.replicate_succ'] at hjoin
          rw [hcount]
          exact hjoin
        have hplain : (join (bs.map g)).length = strResult.length := by
          rw [length_join, List.length_map]
          omega
        have hpack : ¬strResult.length % 16 ≠ 0 := not_not.2 hblocks
        simp only [decryptWith, if_neg hpos, hread, hdecode, hlen, if_neg hempty, if_neg hpack, hsize, hloop, bind,
          Except.bind, unpack, hplain]
    · refine .inr (.inl ⟨hblocks, ?_⟩)
      simp only [decryptWith, if_neg hpos, hread, hdecode, hlen, if_neg hempty, if_pos hblocks, bind, Except.bind, pure,
        Except.pure]

theorem readUint32_drop {memory : Bytes} {offset : Nat} (h : offset + 4 ≤ memory.length) :
    readUint32 memory offset = readUint32 (memory.drop offset) 0 := by
  have hread : readAt memory offset 4 = readAt (memory.drop offset) 0 4 := by
    rw [readAt, if_pos h, readAt, if_pos (by rw [List.length_drop]; omega), List.drop_zero]
  rw [readUint32, hread, readUint32]

theorem readUint32_ok {memory : Bytes} {offset : Nat} (h : offset + 4 ≤ memory.length) :
    ∃ n, readUint32 memory offset = .ok n := by
  rw [readUint32_drop h]
  have hlen : 4 ≤ (memory.drop offset).length := by
    rw [List.length_drop]
    omega
  match memory.drop offset, hlen with
  | b0 :: b1 :: b2 :: b3 :: rest, _ => exact ⟨_, readUint32_cons b0 b1 b2 b3 rest⟩

/-- Whatever is decrypted, its length is checked. -/
theorem unpack_bound {plain : Bytes} (h : 4 ≤ plain.length) :
    ∃ r, unpack plain = .ok r ∧ ∀ block n, r = .ok block n → n ≤ plain.length := by
  obtain ⟨n, hread⟩ := @readUint32_ok (plain ++ [0]) (plain.length - 4)
    (by rw [List.length_append, List.length_singleton]; omega)
  by_cases hgt : n > plain.length
  · refine ⟨.error (-4), ?_, fun block m hr => by cases hr⟩
    simp only [unpack, hread, if_pos hgt, bind, Except.bind, pure, Except.pure]
  · have hcopy : copyAt (plain ++ [0]) n [0] = .ok ((plain ++ [0]).take n ++ [0] ++ (plain ++ [0]).drop (n + 1)) :=
      if_pos (by simp only [List.length_append, List.length_singleton]; omega)
    refine ⟨.ok ((plain ++ [0]).take n ++ [0] ++ (plain ++ [0]).drop (n + 1)) n, ?_, fun block m hr => ?_⟩
    · simp only [unpack, hread, if_neg hgt, hcopy, bind, Except.bind, pure, Except.pure]
    · cases hr
      exact Nat.le_of_not_lt hgt

/-- What was padded is unpacked. -/
theorem unpack_padded {data : Bytes} (h : data.length < uint32Size) :
    ∃ block, unpack (padded data) = .ok (.ok block data.length) ∧ block.take data.length = data := by
  have hlen := length_padded data
  have hle : data.length + 4 ≤ paddedLength data.length := by
    rw [paddedLength]
    omega
  generalize hzeros : List.replicate (paddedLength data.length - 4 - data.length) (0 : UInt8) = zeros
  have hpadded : padded data = data ++ zeros ++ writeUint32 data.length := by rw [padded, hzeros]
  have hfront : (data ++ zeros).length = (padded data).length - 4 := by
    rw [hpadded, @List.length_append _ (data ++ zeros), length_writeUint32]
    rfl
  have hread : readUint32 (padded data ++ [0]) ((padded data).length - 4) = .ok data.length := by
    rw [readUint32_drop (by rw [List.length_append, hlen]; omega), ← hfront, hpadded, List.append_assoc, List.drop_left]
    exact readUint32_writeUint32 h [0]
  have hgt : ¬data.length > (padded data).length := by
    rw [hlen]
    omega
  have hcopy : copyAt (padded data ++ [0]) data.length [0] =
      .ok (data ++ [0] ++ (padded data ++ [0]).drop (data.length + 1)) := by
    have htake : (padded data ++ [0]).take data.length = data := by
      rw [hpadded, List.append_assoc, List.append_assoc, List.take_left]
    rw [copyAt, if_pos (by simp only [List.length_append, List.length_singleton, hlen]; omega), htake,
      List.length_singleton]
  refine ⟨data ++ [0] ++ (padded data ++ [0]).drop (data.length + 1), ?_, ?_⟩
  · simp only [unpack, hread, if_neg hgt, hcopy, bind, Except.bind, pure, Except.pure]
  · rw [List.append_assoc, List.take_left]

end EncDecAux

end TeamTalk
