import TeamTalk.PushServer.ApnsMsg
import TeamTalk.PushServer.Reading

/-!
# Frames for the APNs gateway

A frame is read by its grammar, and compared with what a message asked for. The bytes that `SerializeToArray` means to write are the
right ones; but each digit pair of the token is stored as an `unsigned int` into a variable of one byte.
-/

namespace TeamTalk.PushServer

open ByteStream SimpleBuffer GateWayMsg CTextAux

/-! ## The grammar -/

/-- Items, up to the end: an id of one byte, a length of two, and the data. -/
def readItems : Nat → Bytes → Option (List (UInt8 × Bytes))
  | _, [] => some []
  | fuel + 1, id :: hi :: lo :: rest =>
    let length := hi.toNat * 2 ^ 8 + lo.toNat
    if length ≤ rest.length then (readItems fuel (rest.drop length)).map fun items => (id, rest.take length) :: items else none
  | _, _ => none

/-- A frame: the command 2, the length of what follows, and items. -/
def readFrame : Bytes → Option (List (UInt8 × Bytes))
  | command :: b0 :: b1 :: b2 :: b3 :: rest =>
    if command = 2 ∧ b0.toNat * 2 ^ 24 + b1.toNat * 2 ^ 16 + b2.toNat * 2 ^ 8 + b3.toNat = rest.length then readItems rest.length rest
    else none
  | _ => none

/-! ## The property -/

/-- The bytes that pairs of hexadecimal digits stand for. -/
def tokenBytes : Bytes → Bytes
  | a :: b :: rest => UInt8.ofNat ((hexDigitValue a).getD 0 * 16 + (hexDigitValue b).getD 0) :: tokenBytes rest
  | _ => []

/-- A new message with a token of 64 hexadecimal digits, and a payload of 1 to 256 bytes. -/
structure Asked (m : GateWayMsg) (payload : Bytes) : Prop where
  fresh : m.databuffer = SimpleBuffer.init
  length : m.deviceToken.length = tokenHexLength
  hex : ∀ ch ∈ m.deviceToken, (hexDigitValue ch).isSome = true
  nonempty : payload ≠ []
  short : payload.length ≤ payLoadMaxLength

/-- The items that a message asks for. -/
def askedItems (m : GateWayMsg) (payload : Bytes) : List (UInt8 × Bytes) :=
  [(1, tokenBytes m.deviceToken), (2, payload), (3, writeUint32 m.notificationId), (4, writeUint32 m.expirationDate), (5, [m.priority])]

/-- The message is serialised, and its frame has the items that were asked for. -/
def Decodes (size : Nat) (m : GateWayMsg) (payload : Bytes) : Prop :=
  ∃ b, serializeWith size m payload = .ok (b, true) ∧ readFrame b.contents = some (askedItems m payload)

namespace ApnsFramesAux

variable {m : GateWayMsg} {payload data : Bytes} {b : SimpleBuffer} {size : Nat}

/-! ## Reading items -/

/-- An item in a frame. -/
def itemBytes (item : UInt8 × Bytes) : Bytes := item.1 :: writeUint16 item.2.length ++ item.2

theorem readItems_cons {item : UInt8 × Bytes} (h : item.2.length < 2 ^ 16) (fuel : Nat) (rest : Bytes) :
    readItems (fuel + 1) (itemBytes item ++ rest) = (readItems fuel rest).map fun items => item :: items := by
  have hlen : item.2.length / 256 % 256 * 256 + item.2.length % 256 = item.2.length := by omega
  simp [itemBytes, writeUint16, readItems, hlen]

/-- Items that were written one after the other. -/
theorem readItems_flatMap {items : List (UInt8 × Bytes)} (h : ∀ item ∈ items, item.2.length < 2 ^ 16) {fuel : Nat}
    (hfuel : items.length ≤ fuel) : readItems fuel (items.flatMap itemBytes) = some items := by
  induction items generalizing fuel with
  | nil => cases fuel <;> rfl
  | cons item items ih =>
    cases fuel with
    | zero => cases hfuel
    | succ fuel =>
      have hrest := ih (fun i hi => h i (List.mem_cons_of_mem item hi)) (Nat.le_of_succ_le_succ hfuel)
      rw [List.flatMap_cons, readItems_cons (h item List.mem_cons_self), hrest]
      rfl

/-- An item has at least one byte. -/
theorem length_le_flatMap (items : List (UInt8 × Bytes)) : items.length ≤ (items.flatMap itemBytes).length := by
  induction items with
  | nil => exact Nat.le_refl _
  | cons item items ih =>
    simp only [List.flatMap_cons, List.length_append, itemBytes, List.length_cons]
    omega

/-- A frame whose length field is right. -/
theorem readFrame_eq {items : List (UInt8 × Bytes)} (h : ∀ item ∈ items, item.2.length < 2 ^ 16)
    (hlen : (items.flatMap itemBytes).length < uint32Size) :
    readFrame (2 :: writeUint32 (items.flatMap itemBytes).length ++ items.flatMap itemBytes) = some items := by
  have hfield : ∀ n : Nat, n < uint32Size → (UInt8.ofNat (n / 2 ^ 24)).toNat * 2 ^ 24 + (UInt8.ofNat (n / 2 ^ 16)).toNat * 2 ^ 16 +
      (UInt8.ofNat (n / 2 ^ 8)).toNat * 2 ^ 8 + (UInt8.ofNat n).toNat = n := by
    intro n hn
    simp only [uint32Size] at hn
    simp only [UInt8.toNat_ofNat']
    omega
  simp only [writeUint32, List.cons_append, List.nil_append, readFrame]
  refine (if_pos ⟨trivial, hfield _ hlen⟩).trans ?_
  exact readItems_flatMap h (length_le_flatMap items)

/-! ## The device token -/

/-- The bounds of a hexadecimal digit. -/
theorem bounds_of_hex {ch : UInt8} (h : (hexDigitValue ch).isSome = true) : 48 ≤ ch ∧ ch ≤ 102 := by
  unfold hexDigitValue at h
  split at h
  · rename_i hd
    exact ⟨hd.1, UInt8.le_trans hd.2 (by decide)⟩
  · split at h
    · rename_i hd
      exact ⟨UInt8.le_trans (by decide) hd.1, UInt8.le_trans hd.2 (by decide)⟩
    · split at h
      · rename_i hd
        exact ⟨UInt8.le_trans (by decide) hd.1, hd.2⟩
      · cases h

theorem ne_of_hex {ch d : UInt8} (h : (hexDigitValue ch).isSome = true) (hd : d < 48) : ch ≠ d := by
  rintro rfl
  exact absurd (bounds_of_hex h).1 (UInt8.not_le.2 hd)

/-- Two digits. -/
theorem scanHex_pair {x y : UInt8} (hx : (hexDigitValue x).isSome = true) (hy : (hexDigitValue y).isSome = true) :
    scanHex (cString [x, y]) = some ((hexDigitValue x).getD 0 * 16 + (hexDigitValue y).getD 0) := by
  have hstring : cString [x, y] = [x, y] := by
    refine cString_eq_self ?_
    simp only [List.mem_cons, List.not_mem_nil, or_false, not_or]
    exact ⟨(ne_of_hex hx (by decide)).symm, (ne_of_hex hy (by decide)).symm⟩
  have hblank : ¬(x = 32 ∨ 9 ≤ x ∧ x ≤ 13) := by
    rintro (heq | ⟨-, hle⟩)
    · exact ne_of_hex hx (by decide) heq
    · exact absurd (UInt8.le_trans (bounds_of_hex hx).1 hle) (by decide)
  have hplus : x ≠ 43 := ne_of_hex hx (by decide)
  have hminus : x ≠ 45 := ne_of_hex hx (by decide)
  rw [hstring]
  simp [scanHex, hblank, hplus, hminus, hx, hy]

/-- A variable that is too small is written past its end. -/
theorem scanInto_small {text : Bytes} {value : Nat} (hscan : scanHex text = some value) (hsize : size < 4) :
    scanInto size text = .error .undefinedBehaviour := by
  rw [scanInto, hscan]
  refine if_neg ?_
  simp [littleEndian]
  omega

/-- A variable that is large enough holds the value. -/
theorem scanInto_large {text : Bytes} {value : Nat} (hscan : scanHex text = some value) (hsize : 4 ≤ size) :
    scanInto size text = .ok (littleEndian value ++ List.replicate (size - 4) 0) := by
  rw [scanInto, hscan]
  refine (if_pos ?_).trans ?_
  · simpa [littleEndian] using hsize
  · simp [littleEndian]

/-- The whole token, with a variable that is large enough. -/
theorem scanToken_large (hsize : 4 ≤ size) {token : Bytes} (hhex : ∀ ch ∈ token, (hexDigitValue ch).isSome = true) :
    scanToken size token = .ok (tokenBytes token) := by
  induction token using tokenBytes.induct with
  | case1 x y rest ih =>
    have hpair := scanHex_pair (hhex x (by simp)) (hhex y (by simp))
    have hrest := ih fun ch hch => hhex ch (by simp [hch])
    simp only [scanToken, scanInto_large hpair hsize, hrest, bind, Except.bind, pure, Except.pure]
    rfl
  | case2 token hnot =>
    rw [scanToken, tokenBytes]
    · rfl
    · exact hnot
    · exact hnot

/-- Already the first pair of digits does not fit a variable that is too small. -/
theorem scanToken_small (hsize : size < 4) {token : Bytes} (hlen : 2 ≤ token.length)
    (hhex : ∀ ch ∈ token, (hexDigitValue ch).isSome = true) : scanToken size token = .error .undefinedBehaviour := by
  cases token with
  | nil => cases hlen
  | cons x token =>
    cases token with
    | nil => simp at hlen
    | cons y rest =>
      have hpair := scanHex_pair (hhex x (by simp)) (hhex y (by simp))
      simp only [scanToken, scanInto_small hpair hsize, bind, Except.bind]

theorem length_tokenBytes (token : Bytes) : (tokenBytes token).length = token.length / 2 := by
  induction token using tokenBytes.induct with
  | case1 x y rest ih =>
    simp only [tokenBytes, List.length_cons, ih]
    omega
  | case2 token hnot =>
    rw [tokenBytes]
    · cases token with
      | nil => rfl
      | cons x token =>
        cases token with
        | nil => simp
        | cons y rest => exact absurd rfl (hnot x y rest)
    · exact hnot

theorem szDeviceToken_eq (h : Asked m payload) : m.szDeviceToken = m.deviceToken := by
  have hstring : cString m.deviceToken = m.deviceToken := cString_eq_self fun hmem => ne_of_hex (h.hex 0 hmem) (by decide) rfl
  rw [szDeviceToken, hstring, h.length, Nat.sub_self, List.replicate_zero, List.append_nil]

/-! ## Writing items -/

/-- A write that is not large. -/
theorem write_small (h : IntValid b) (data : Bytes) (hsmall : b.writeOffset + data.length < 2 ^ 16) :
    ∃ b', write b data = .ok b' ∧ IntValid b' ∧ b'.contents = b.contents ++ data ∧ b'.writeOffset = b.writeOffset + data.length := by
  have hfits : WriteFits b.buffer.length b.writeOffset data.length := .inr (by simp only [intSize]; omega)
  obtain ⟨b', hwrite, hvalid, hcontents, -⟩ := write_ok h hfits
  refine ⟨b', hwrite, hvalid, hcontents, ?_⟩
  rw [← length_contents hvalid.valid, hcontents, List.length_append, length_contents h.valid]

theorem writeItem_small (h : IntValid b) (id : UInt8) (data : Bytes) (hsmall : b.writeOffset + data.length + 3 < 2 ^ 16) :
    ∃ b', writeItem b id data = .ok b' ∧ IntValid b' ∧ b'.contents = b.contents ++ itemBytes (id, data) ∧
      b'.writeOffset = b.writeOffset + data.length + 3 := by
  obtain ⟨b1, hwrite1, h1, hcontents1, hoffset1⟩ := write_small h [id] (by simp; omega)
  obtain ⟨b2, hwrite2, h2, hcontents2, hoffset2⟩ := write_small h1 (writeUint16 data.length) (by simp [writeUint16, hoffset1]; omega)
  have hoffset : b2.writeOffset = b.writeOffset + 3 := by
    rw [hoffset2, hoffset1]
    rfl
  obtain ⟨b3, hwrite3, h3, hcontents3, hoffset3⟩ := write_small h2 data (by omega)
  refine ⟨b3, ?_, h3, ?_, by omega⟩
  · simp only [writeItem, hwrite1, hwrite2, hwrite3, bind, Except.bind]
  · simp [hcontents3, hcontents2, hcontents1, itemBytes]

/-- Room for the header. -/
theorem writeNull_init : ∃ b, writeNull SimpleBuffer.init gateWayHeadLength = .ok b ∧ IntValid b ∧ b.writeOffset = gateWayHeadLength :=
  ⟨⟨List.replicate 6 0, 5⟩, rfl, ⟨by decide, by decide⟩, rfl⟩

/-- The header is put in front. -/
theorem writeHead_eq (h : IntValid b) {head rest : Bytes} (hcontents : b.contents = head ++ rest)
    (hhead : head.length = gateWayHeadLength) (bodyLength : Nat) :
    ∃ b', writeHead b bodyLength = .ok b' ∧ b'.contents = 2 :: writeUint32 bodyLength ++ rest := by
  have hlen : b.writeOffset = 5 + rest.length := by
    rw [← length_contents h.valid, hcontents, List.length_append, hhead]
  have hroom : 0 + (2 :: writeUint32 bodyLength).length ≤ b.buffer.length := by
    have := h.offset_le
    simp only [writeUint32, List.length_cons, List.length_nil]
    omega
  have hrest : (b.buffer.drop 5).take rest.length = rest := by
    have hdrop : (b.buffer.take b.writeOffset).drop 5 = rest := by
      rw [show b.buffer.take b.writeOffset = head ++ rest from hcontents]
      exact List.drop_left' hhead
    rw [← hdrop, List.drop_take, List.length_take, List.length_drop, hlen]
    have := h.offset_le
    congr 1
    omega
  refine ⟨_, by rw [writeHead, copyAt, if_pos hroom]; rfl, ?_⟩
  simp only [contents, writeUint32, List.take_zero, List.nil_append, List.cons_append, List.length_cons, List.length_nil, hlen]
  simp [show 5 + rest.length = rest.length + 5 by omega, hrest]

theorem offset_init : SimpleBuffer.init.writeOffset = 0 := rfl

theorem not_outside (h : Asked m payload) : ¬(payload.length > payLoadMaxLength ∨ payload.length = 0) := by
  have hpos := List.length_pos_of_ne_nil h.nonempty
  have hshort := h.short
  omega

/-- A message that is serialised. -/
theorem serializeWith_ok (h : Asked m payload) {token : Bytes} (htoken : scanToken size m.szDeviceToken = .ok token)
    (hlen : token.length = tokenBinaryLength) :
    ∃ b, serializeWith size m payload = .ok (b, true) ∧ readFrame b.contents = some [(1, token), (2, payload),
      (3, writeUint32 m.notificationId), (4, writeUint32 m.expirationDate), (5, [m.priority])] := by
  obtain ⟨b0, hwrite0, h0, hoffset0⟩ := writeNull_init
  have hpayload : payload.length ≤ 256 := h.short
  replace hoffset0 : b0.writeOffset = 5 := hoffset0
  replace hlen : token.length = 32 := hlen
  have h32 : ∀ n, (writeUint32 n).length = 4 := fun n => rfl
  obtain ⟨b1, hwrite1, h1, hcontents1, hoffset1⟩ := writeItem_small h0 1 token (by omega)
  obtain ⟨b2, hwrite2, h2, hcontents2, hoffset2⟩ := writeItem_small h1 2 payload (by omega)
  obtain ⟨b3, hwrite3, h3, hcontents3, hoffset3⟩ := writeItem_small h2 3 (writeUint32 m.notificationId) (by rw [h32]; omega)
  rw [h32] at hoffset3
  obtain ⟨b4, hwrite4, h4, hcontents4, hoffset4⟩ := writeItem_small h3 4 (writeUint32 m.expirationDate) (by rw [h32]; omega)
  rw [h32] at hoffset4
  obtain ⟨b5, hwrite5, h5, hcontents5, hoffset5⟩ := writeItem_small h4 5 [m.priority] (by simp; omega)
  have hcontents : b5.contents = b0.contents ++ [(1, token), (2, payload), (3, writeUint32 m.notificationId),
      (4, writeUint32 m.expirationDate), (5, [m.priority])].flatMap itemBytes := by
    simp [hcontents5, hcontents4, hcontents3, hcontents2, hcontents1]
  have hbody : b5.writeOffset - gateWayHeadLength = ([(1, token), (2, payload), (3, writeUint32 m.notificationId),
      (4, writeUint32 m.expirationDate), (5, [m.priority])].flatMap itemBytes).length := by
    rw [← length_contents h5.valid, hcontents, List.length_append, length_contents h0.valid, hoffset0, Nat.add_sub_cancel_left]
  have hpriority : [m.priority].length = 1 := rfl
  have hsmall : b5.writeOffset - 5 < 2 ^ 32 := by omega
  obtain ⟨b6, hwrite6, hcontents6⟩ := writeHead_eq h5 hcontents ((length_contents h0.valid).trans hoffset0)
    (b5.writeOffset - gateWayHeadLength)
  refine ⟨b6, ?_, ?_⟩
  · simp only [serializeWith, offset_init, h.length, not_outside h, ne_eq, not_true_eq_false, if_false, h.fresh, hwrite0, htoken, hwrite1, hwrite2,
      hwrite3, hwrite4, hwrite5, hwrite6, bind, Except.bind, pure, Except.pure]
  · rw [hcontents6, hbody]
    refine readFrame_eq ?_ (hbody ▸ hsmall)
    intro item hitem
    simp only [List.mem_cons, List.not_mem_nil, or_false] at hitem
    rcases hitem with rfl | rfl | rfl | rfl | rfl
    · simp [hlen]
    · dsimp only
      omega
    · simp [h32]
    · simp [h32]
    · simp

/-- A message whose token is not read. -/
theorem serializeWith_error (h : Asked m payload) (htoken : scanToken size m.szDeviceToken = .error .undefinedBehaviour) :
    serializeWith size m payload = .error .undefinedBehaviour := by
  obtain ⟨b0, hwrite0, -, -⟩ := writeNull_init
  simp only [serializeWith, offset_init, h.length, not_outside h, ne_eq, not_true_eq_false, if_false, h.fresh, hwrite0, htoken, bind, Except.bind]

/-- Everything else is right: the frame is the one that was asked for exactly when an `unsigned int` has room in the variable. -/
theorem decodes_iff (h : Asked m payload) (size : Nat) : Decodes size m payload ↔ 4 ≤ size := by
  have hlen := h.length
  constructor
  · rintro ⟨b, hok, -⟩
    by_contra hsize
    have htoken : scanToken size m.szDeviceToken = .error .undefinedBehaviour := by
      rw [szDeviceToken_eq h]
      exact scanToken_small (Nat.lt_of_not_le hsize) (by rw [hlen]; decide) h.hex
    rw [serializeWith_error h htoken] at hok
    cases hok
  · intro hsize
    have htoken : scanToken size m.szDeviceToken = .ok (tokenBytes m.deviceToken) := by
      rw [szDeviceToken_eq h]
      exact scanToken_large hsize h.hex
    exact serializeWith_ok h htoken ((length_tokenBytes m.deviceToken).trans (congrArg (· / 2) hlen))

/-- A message with a token of 64 letters. -/
def hexMsg : GateWayMsg := { GateWayMsg.new with deviceToken := List.replicate 64 97 }

theorem asked_hexMsg : Asked hexMsg hexMsg.buildPayload := by
  have hpayload : hexMsg.buildPayload ≠ [] ∧ hexMsg.buildPayload.length ≤ payLoadMaxLength := by decide
  refine ⟨rfl, by decide, ?_, hpayload.1, hpayload.2⟩
  intro ch hch
  rw [List.eq_of_mem_replicate hch]
  decide

end ApnsFramesAux

open ApnsFramesAux

/-- No message becomes the frame that it asks for, as the variable for a digit pair has one byte. With a variable that has room for an
`unsigned int` each would. -/
theorem not_decodes {m : GateWayMsg} (h : Asked m m.buildPayload) :
    ¬(∃ b, m.serializeToArray = .ok (b, true) ∧ readFrame b.contents = some (askedItems m m.buildPayload)) ∧
      ∀ size, Decodes size m m.buildPayload ↔ 4 ≤ size :=
  ⟨fun hdecodes => absurd ((decodes_iff h binarySize).1 hdecodes) (by decide), decodes_iff h⟩

/-- A message with a token of 64 letters `a` is not serialised. -/
theorem not_decodes_hexMsg : Asked hexMsg hexMsg.buildPayload ∧
    ¬∃ b, hexMsg.serializeToArray = .ok (b, true) ∧ readFrame b.contents = some (askedItems hexMsg hexMsg.buildPayload) :=
  ⟨asked_hexMsg, (not_decodes asked_hexMsg).1⟩

/-- So not every message is. -/
theorem not_every_decodes : ¬∀ m : GateWayMsg, Asked m m.buildPayload →
    ∃ b, m.serializeToArray = .ok (b, true) ∧ readFrame b.contents = some (askedItems m m.buildPayload) := by
  intro h
  exact absurd ((decodes_iff asked_hexMsg binarySize).1 (h _ asked_hexMsg)) (by decide)

end TeamTalk.PushServer
