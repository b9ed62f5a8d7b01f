import TeamTalk.MsgServer.PushFlash
import TeamTalk.PushServer.ApnsMsg

/-!
# What becomes of a push

A text is cut by bytes on one server, escaped with its custom data on two, and measured at the end. It comes through exactly when the cut
is in front of a character, and what is left has room with all that the escapes add.
-/

namespace TeamTalk.PushFlash

open Jsonxx PushServer ByteStream CTextAux

/-! ## The property -/

/-- A message that is pushed, with the nick name of a sender that is known. -/
structure Message where
  text : Bytes
  nickName : Option Bytes
  msgType : Nat
  fromId : Nat
  toId : Nat
  badge : Nat
  pushType : Nat

namespace Message

/-- Texts of characters, and numbers of 32 bits. -/
structure WellFormed (m : Message) : Prop where
  text : Utf8.Valid m.text
  nickName : ∀ nick ∈ m.nickName, Utf8.Valid nick
  msgType : m.msgType < uint32Size
  fromId : m.fromId < uint32Size
  toId : m.toId < uint32Size
  badge : m.badge < uint32Size

/-- What the msg_server says. -/
def flash (m : Message) : Bytes := buildIosPushFlash m.nickName m.text m.msgType

/-- The custom data of the msg_server. -/
def userData (m : Message) : Bytes := (jsonObj m.msgType m.fromId m.toId).json

/-- What the push_server makes of it for a device. -/
def gateWayMsg (m : Message) (token : Bytes) (timeNow notificationId : Nat) : GateWayMsg :=
  pushMsg m.flash m.userData token timeNow m.pushType m.badge notificationId

/-- The message can be pushed: its flash and its payload are characters and short enough, and it is not dropped. -/
structure Pushable (m : Message) : Prop where
  flash : Utf8.Valid m.flash ∧ m.flash.length ≤ iosPushFlashMaxLength
  payload : ∀ token timeNow notificationId, Utf8.Valid (m.gateWayMsg token timeNow notificationId).buildPayload ∧
    (m.gateWayMsg token timeNow notificationId).buildPayload.length ≤ payLoadMaxLength
  sent : ∀ token timeNow notificationId, token.length = tokenHexLength →
    ∀ b, (m.gateWayMsg token timeNow notificationId).serializeToArray ≠ .ok (b, false)

end Message

/-! ## The condition -/

/-- How many bytes a byte grows by when it is escaped. -/
def grows (ch : UInt8) : Nat :=
  if ch = 34 ∨ ch = 47 ∨ ch = 92 then 1
  else if ch = 8 ∨ ch = 9 ∨ ch = 10 ∨ ch = 12 ∨ ch = 13 then 1
  else if ch < 32 then 5
  else 0

/-- How many bytes a text grows by. -/
def growth (text : Bytes) : Nat := (text.map grows).sum

namespace Message

/-- The digits of the numbers in a payload. -/
def digits (m : Message) : Nat :=
  (decimal m.badge).length + (decimal m.fromId).length + (decimal m.msgType).length +
    if checkMsgTypeGroup m.msgType then (decimal m.toId).length else 0

/-- The room for the text and the numbers: an alert has 256 bytes, with all the names. -/
def room (m : Message) : Nat := if checkMsgTypeGroup m.msgType then 85 else 104

/-- A text that is cut in front of a character, if at all. For an alert there is room for what is left, the dots and the numbers. -/
structure TextFits (m : Message) (text : Bytes) : Prop where
  cut : ∀ b, text[flashMaxLength]? = some b → b.IsUTF8FirstByte
  length : m.pushType = pushTypeNormal → (text.take flashMaxLength).length + growth (text.take flashMaxLength) +
    (if flashMaxLength < text.length then 3 else 0) + m.digits ≤ m.room

/-- A picture, a sender that is not known, or a nick name and a text that fit. -/
def Fits (m : Message) : Prop :=
  hasPicture m.text = true ∨ ∀ nick ∈ m.nickName, m.TextFits (msgTmp nick m.text m.msgType)

end Message

namespace PushFlashAux

variable {m : Message} {text as bs : Bytes} {name : Bytes} {depth n : Nat} {w : UInt8 → Nat}

/-! ## Weights -/

/-- The sum of what the bytes weigh. -/
def weight (w : UInt8 → Nat) (bs : Bytes) : Nat := (bs.map w).sum

/-- An empty text weighs nothing. -/
@[simp] theorem weight_nil : weight w [] = 0 := rfl

/-- The first byte, and the others. -/
@[simp] theorem weight_cons (b : UInt8) : weight w (b :: bs) = w b + weight w bs := by simp [weight]

/-- Texts that follow each other. -/
@[simp] theorem weight_append : weight w (as ++ bs) = weight w as + weight w bs := by simp [weight]

/-- One byte, many times. -/
@[simp] theorem weight_replicate (b : UInt8) : weight w (List.replicate n b) = n * w b := by simp [weight]

/-- The weight of a byte in a text that is escaped. -/
def escaped (ch : UInt8) : Nat := 1 + grows ch

/-- A byte is copied, or becomes two bytes or six of those below 128. -/
theorem escapeByte_cases (ch : UInt8) : (escapeByte ch = [ch] ∧ grows ch = 0) ∨
    (ch < 128 ∧ ∃ d < 128, escapeByte ch = [92, d] ∧ grows ch = 1) ∨
    (ch < 128 ∧ ∃ d < 128, ∃ e < 128, escapeByte ch = [92, 117, 48, 48, d, e] ∧ grows ch = 5) := by
  have hdigits : ∀ n < 32, hexDigit (n / 16) < 128 ∧ hexDigit (n % 16) < 128 := by decide
  by_cases h34 : ch = 34
  · exact .inr (.inl (by simp [h34, escapeByte, grows]))
  by_cases h92 : ch = 92
  · exact .inr (.inl (by simp [h92, escapeByte, grows]))
  by_cases h47 : ch = 47
  · exact .inr (.inl (by simp [h47, escapeByte, grows]))
  by_cases h8 : ch = 8
  · exact .inr (.inl (by simp [h8, escapeByte, grows]))
  by_cases h12 : ch = 12
  · exact .inr (.inl (by simp [h12, escapeByte, grows]))
  by_cases h10 : ch = 10
  · exact .inr (.inl (by simp [h10, escapeByte, grows]))
  by_cases h13 : ch = 13
  · exact .inr (.inl (by simp [h13, escapeByte, grows]))
  by_cases h9 : ch = 9
  · exact .inr (.inl (by simp [h9, escapeByte, grows]))
  by_cases hlow : ch < 32
  · refine .inr (.inr ⟨UInt8.lt_trans hlow (by decide), _, (hdigits ch.toNat hlow).1, _, (hdigits ch.toNat hlow).2, ?_⟩)
    simp [h34, h92, h47, h8, h12, h10, h13, h9, hlow, escapeByte, grows]
  · exact .inl (by simp [h34, h92, h47, h8, h12, h10, h13, h9, hlow, escapeByte, grows])

/-- How long a byte gets. -/
theorem length_escapeByte (ch : UInt8) : (escapeByte ch).length = escaped ch := by
  rcases escapeByte_cases ch with ⟨heq, hgrows⟩ | ⟨-, d, -, heq, hgrows⟩ | ⟨-, d, -, e, -, heq, hgrows⟩ <;>
    simp [heq, escaped, hgrows]

/-- A text is as long as what it weighs when every byte weighs one. -/
theorem length_eq_weight : bs.length = weight (fun _ => 1) bs := by simp [weight]

/-- How long a text gets. -/
theorem length_escapeString : (escapeString bs).length = weight escaped bs := by
  rw [escapeString, List.length_flatMap, weight]
  congr 1
  exact List.map_congr_left fun ch _ => length_escapeByte ch

/-- It grows by what its bytes grow. -/
theorem weight_escaped : weight escaped bs = bs.length + growth bs := by
  induction bs with
  | nil => rfl
  | cons b bs ih =>
    rw [weight_cons, ih]
    simp only [escaped, growth, List.length_cons, List.map_cons, List.sum_cons]
    omega

/-- Digits are not escaped, nor more than one byte. -/
theorem weight_decimal (h : ∀ ch, 48 ≤ ch → ch ≤ 57 → w ch = 1) (n : Nat) : weight w (decimal n) = (decimal n).length := by
  rw [length_eq_weight, weight, weight]
  congr 1
  exact List.map_congr_left fun ch hch => h ch (digit_of_mem_decimal hch).1 (digit_of_mem_decimal hch).2

/-- Digits are not escaped. -/
theorem escaped_digit (ch : UInt8) (hlow : 48 ≤ ch) (hhigh : ch ≤ 57) : escaped ch = 1 := by
  have hne : ∀ d : UInt8, d < 48 ∨ 57 < d → ch ≠ d := by
    rintro d (hd | hd) rfl
    · exact absurd hlow (UInt8.not_le.2 hd)
    · exact absurd hhigh (UInt8.not_le.2 hd)
  have hnot : ¬ch < 32 := fun hlt => absurd (UInt8.le_trans hlow (UInt8.le_of_lt hlt)) (by decide)
  simp [escaped, grows, hne 34 (by decide), hne 47 (by decide), hne 92 (by decide), hne 8 (by decide), hne 9 (by decide), hne 10 (by decide),
    hne 12 (by decide), hne 13 (by decide), hnot]

/-! ## The writer -/

/-- At most, a comma has become a blank. -/
theorem removeLastComma_cases (bs : Bytes) :
    removeLastComma bs = bs ∨ ∃ as cs, bs = as ++ 44 :: cs ∧ removeLastComma bs = as ++ 32 :: cs := by
  unfold removeLastComma
  split
  · rename_i h
    obtain ⟨hlt, hcomma⟩ := List.getElem?_eq_some_iff.1 h.2
    refine .inr ⟨bs.take (bs.length - 2), bs.drop (bs.length - 2 + 1), ?_, List.set_eq_take_append_cons_drop.trans (if_pos hlt)⟩
    rw [← hcomma, List.getElem_cons_drop, List.take_append_drop]
  · exact .inl rfl

/-- A comma becomes a blank, which weighs the same. -/
theorem weight_removeLastComma (h : w 44 = w 32) : weight w (removeLastComma bs) = weight w bs := by
  rcases removeLastComma_cases bs with heq | ⟨as, cs, rfl, heq⟩
  · rw [heq]
  · simp [heq, h]

/-- So the text stays as long as it is. -/
theorem length_removeLastComma : (removeLastComma bs).length = bs.length := by
  rw [length_eq_weight, weight_removeLastComma (w := fun _ => 1) rfl, ← length_eq_weight]

/-- And it stays UTF-8. -/
theorem valid_removeLastComma (h : Utf8.Valid bs) : Utf8.Valid (removeLastComma bs) := by
  rcases removeLastComma_cases bs with heq | ⟨as, cs, rfl, heq⟩
  · rwa [heq]
  · rw [heq, Utf8.valid_append_cons (by decide)]
    exact (Utf8.valid_append_cons (by decide)).1 h

/-- An object weighs what its entries weigh, its brackets, and the tabs. -/
theorem weight_object (h : w 44 = w 32) (kvMap : List (Bytes × Value)) : weight w (tag depth name (.object kvMap)) =
    weight w (label depth name) + weight w [123, 10] + weight w (tags (depth + 1) kvMap) + depth * w 9 + weight w [125, 44, 10] := by
  simp only [tag, weight_append, weight_removeLastComma h, weight_replicate]

/-- So does the text of the whole. -/
theorem weight_json (h : w 44 = w 32) (o : Object) : weight w o.json = weight w (tag 0 [] (.object o)) := weight_removeLastComma h

/-- What is escaped is below 128, and stays so. -/
theorem valid_escapeString (h : Utf8.Valid bs) : Utf8.Valid (escapeString bs) := by
  refine h.flatMap_ascii (fun b hb x hx => ?_) fun b hb => ?_
  · rcases escapeByte_cases b with ⟨heq, -⟩ | ⟨-, d, hd, heq, -⟩ | ⟨-, d, hd, e, he, heq, -⟩ <;>
      simp only [heq, List.mem_cons, List.not_mem_nil, or_false] at hx
    · exact hx ▸ hb
    · rcases hx with rfl | rfl
      · decide
      · exact hd
    · rcases hx with rfl | rfl | rfl | rfl | rfl | rfl
      · decide
      · decide
      · decide
      · decide
      · exact hd
      · exact he
  · rcases escapeByte_cases b with ⟨heq, -⟩ | ⟨hlt, -⟩ | ⟨hlt, -⟩
    · exact heq
    · exact absurd hb (UInt8.not_le.2 hlt)
    · exact absurd hb (UInt8.not_le.2 hlt)

/-- Quotation marks are UTF-8. -/
theorem valid_quoted (h : Utf8.Valid bs) : Utf8.Valid (quoted bs) := by
  have hquote : Utf8.Valid [34] := Utf8.valid_of_ascii (by simp)
  exact hquote.append ((valid_escapeString h).append hquote)

/-- Tabs are UTF-8. -/
theorem valid_tabs (depth : Nat) : Utf8.Valid (List.replicate depth 9) :=
  Utf8.valid_of_ascii fun b hb => List.eq_of_mem_replicate hb ▸ by decide

/-- So is the label of an entry. -/
theorem valid_label (h : Utf8.Valid name) : Utf8.Valid (label depth name) := by
  refine (valid_tabs depth).append ?_
  split
  · exact (valid_quoted h).append (Utf8.valid_of_ascii (by simp))
  · exact Utf8.valid_nil

/-- So are digits. -/
theorem valid_decimal (n : Nat) : Utf8.Valid (decimal n) :=
  Utf8.valid_of_ascii fun _ hb => UInt8.lt_of_le_of_lt (digit_of_mem_decimal hb).2 (by decide)

/-- So is an entry with a number. -/
theorem valid_number (h : Utf8.Valid name) : Utf8.Valid (tag depth name (.number n)) := by
  rw [tag]
  exact ((valid_label h).append (valid_decimal n)).append (Utf8.valid_of_ascii (by simp))

/-- An entry with a text is UTF-8 when the text is. -/
theorem valid_string (h : Utf8.Valid name) (htext : Utf8.Valid text) : Utf8.Valid (tag depth name (.string text)) := by
  rw [tag]
  exact ((valid_label h).append (valid_quoted htext)).append (Utf8.valid_of_ascii (by simp))

/-- An object is UTF-8 when its entries are. -/
theorem valid_object (h : Utf8.Valid name) {kvMap : List (Bytes × Value)}
    (hentries : ∀ entry ∈ kvMap, Utf8.Valid (tag (depth + 1) entry.1 entry.2)) : Utf8.Valid (tag depth name (.object kvMap)) := by
  have htags : Utf8.Valid (tags (depth + 1) kvMap) := by
    induction kvMap with
    | nil =>
      rw [tags]
      exact Utf8.valid_nil
    | cons entry rest ih =>
      rw [tags]
      exact (hentries entry List.mem_cons_self).append (ih fun e he => hentries e (List.mem_cons_of_mem entry he))
  rw [tag]
  have hhead : Utf8.Valid (label depth name ++ [123, 10] ++ tags (depth + 1) kvMap) :=
    ((valid_label h).append (Utf8.valid_of_ascii (by simp))).append htags
  exact ((valid_removeLastComma hhead).append (valid_tabs depth)).append (Utf8.valid_of_ascii (by simp))

/-! ## Names and texts -/

/-- The order of the names in the custom data. -/
def CustomOrder : Prop :=
  chars "from_id" ≠ chars "msg_type" ∧ chars "from_id" < chars "msg_type" ∧ chars "group_id" ≠ chars "from_id" ∧
    ¬chars "group_id" < chars "from_id" ∧ chars "group_id" ≠ chars "msg_type" ∧ chars "group_id" < chars "msg_type"

/-- The order of the names in a payload. -/
def PayloadOrder : Prop :=
  chars "badge" ≠ chars "alert" ∧ ¬chars "badge" < chars "alert" ∧ chars "sound" ≠ chars "alert" ∧ ¬chars "sound" < chars "alert" ∧
    chars "sound" ≠ chars "badge" ∧ ¬chars "sound" < chars "badge" ∧ chars "custom" ≠ chars "aps" ∧ ¬chars "custom" < chars "aps"

/-- What the names in the custom data take when they are escaped. -/
def CustomSizes : Prop :=
  weight escaped (label 1 (chars "from_id")) = 15 ∧ weight escaped (label 1 (chars "group_id")) = 16 ∧
    weight escaped (label 1 (chars "msg_type")) = 16 ∧ weight escaped (label 0 []) = 0 ∧ weight escaped [123, 10] = 3 ∧
    weight escaped [125, 44, 10] = 4 ∧ weight escaped [44, 10] = 3

/-- What the names in a payload take. -/
def PayloadSizes : Prop :=
  (label 0 []).length = 0 ∧ (label 1 (chars "aps")).length = 8 ∧ (label 1 (chars "custom")).length = 11 ∧
    (label 2 (chars "alert")).length = 11 ∧ (label 2 (chars "badge")).length = 11 ∧ (label 2 (chars "sound")).length = 11 ∧
    (label 3 (chars "body")).length = 11 ∧ (escapeString (chars "bingbong.aiff")).length = 13

/-- The text for a message that is not shown has 24 bytes, and none of them is escaped. -/
def TextSizes : Prop :=
  commFlash.length = 24 ∧ growth commFlash = 0 ∧ chars ":" = [58] ∧ chars "..." = [46, 46, 46] ∧
    Utf8.bytes "在群聊中发送了一条语音消息" ≠ [] ∧ Utf8.bytes "给您发送了一条语音消息" ≠ []

/-- The names and texts that the code uses, with their order and their sizes. -/
theorem names_and_texts : CustomOrder ∧ PayloadOrder ∧ CustomSizes ∧ PayloadSizes ∧ TextSizes := by
  unfold CustomOrder PayloadOrder CustomSizes PayloadSizes TextSizes
  decide

/-- The names of the custom data, in the order of the map. -/
theorem customOrder : CustomOrder := names_and_texts.1

/-- The names of the payload, in the order of the map. -/
theorem payloadOrder : PayloadOrder := names_and_texts.2.1

/-- How long the texts of the custom data are. -/
theorem customSizes : CustomSizes := names_and_texts.2.2.1

/-- How long the texts of the payload are. -/
theorem payloadSizes : PayloadSizes := names_and_texts.2.2.2.1

/-- How long the other texts are. -/
theorem textSizes : TextSizes := names_and_texts.2.2.2.2

/-- One byte. -/
theorem chars_colon : chars ":" = [58] := textSizes.2.2.1

/-- Three bytes. -/
theorem chars_dots : chars "..." = [46, 46, 46] := textSizes.2.2.2.1

/-! ## The custom data -/

/-- The entries of the custom data. -/
theorem jsonObj_eq (msgType fromId toId : Nat) : jsonObj msgType fromId toId =
    if checkMsgTypeGroup msgType then
      [(chars "from_id", .number fromId), (chars "group_id", .number toId), (chars "msg_type", .number msgType)]
    else [(chars "from_id", .number fromId), (chars "msg_type", .number msgType)] := by
  obtain ⟨h1, h2, h3, h4, h5, h6⟩ := customOrder
  simp [jsonObj, Object.put, h1, h2, h3, h4, h5, h6]

/-- The length of the custom data when it is escaped. -/
theorem weight_userData (m : Message) : weight escaped m.userData = (decimal m.fromId).length + (decimal m.msgType).length +
    if checkMsgTypeGroup m.msgType then 63 + (decimal m.toId).length else 44 := by
  obtain ⟨h1, h2, h3, h4, h5, h6, h7⟩ := customSizes
  rw [Message.userData, weight_json (by decide), weight_object (by decide), jsonObj_eq]
  split
  · simp only [tags, tag, weight_append, weight_decimal escaped_digit, h1, h2, h3, h4, h5, h6, h7, weight_nil]
    omega
  · simp only [tags, tag, weight_append, weight_decimal escaped_digit, h1, h3, h4, h5, h6, h7, weight_nil]
    omega

/-- A text in ASCII is UTF-8. -/
theorem valid_chars {text : String} (h : text.toList.all fun c => c.toNat < 128) : Utf8.Valid (chars text) := by
  refine Utf8.valid_of_ascii fun b hb => ?_
  obtain ⟨c, hc, rfl⟩ := List.mem_map.1 hb
  have hlt := of_decide_eq_true (List.all_eq_true.1 h c hc)
  rw [UInt8.lt_iff_toNat_lt, UInt8.toNat_ofNat']
  exact Nat.lt_of_le_of_lt (Nat.mod_le _ _) hlt

/-- The names in a payload and in the custom data. -/
theorem valid_names : ∀ text ∈ ["from_id", "group_id", "msg_type", "body", "alert", "badge", "sound", "bingbong.aiff", "aps", "custom"],
    Utf8.Valid (chars text) := by
  have hascii : ∀ text ∈ ["from_id", "group_id", "msg_type", "body", "alert", "badge", "sound", "bingbong.aiff", "aps", "custom"],
      text.toList.all fun c => c.toNat < 128 := by decide
  exact fun text htext => valid_chars (hascii text htext)

/-- So are the custom data of a message. -/
theorem valid_userData (m : Message) : Utf8.Valid m.userData := by
  refine valid_removeLastComma (valid_object Utf8.valid_nil ?_)
  rw [jsonObj_eq]
  intro entry hentry
  split at hentry
  · simp only [List.mem_cons, List.not_mem_nil, or_false] at hentry
    rcases hentry with rfl | rfl | rfl <;> exact valid_number (valid_names _ (by simp))
  · simp only [List.mem_cons, List.not_mem_nil, or_false] at hentry
    rcases hentry with rfl | rfl <;> exact valid_number (valid_names _ (by simp))

/-! ## The payload -/

variable {flash : Bytes} (token : Bytes) (timeNow notificationId : Nat)

/-- The entries of `aps`. -/
theorem aps_eq (hflash : flash ≠ []) (userData : Bytes) (pushType badge : Nat) :
    (pushMsg flash userData token timeNow pushType badge notificationId).aps =
      if pushType = pushTypeNormal then
        [(chars "alert", .object [(chars "body", .string flash)]), (chars "badge", .number badge),
          (chars "sound", .string (chars "bingbong.aiff"))]
      else [(chars "badge", .number badge)] := by
  obtain ⟨h1, h2, h3, h4, h5, h6, -, -⟩ := payloadOrder
  have halert : (pushMsg flash userData token timeNow pushType badge notificationId).alert = [(chars "body", .string flash)] := by
    simp [GateWayMsg.alert, GateWayMsg.putText, GateWayMsg.new, pushMsg, hflash, Object.put]
  unfold GateWayMsg.aps
  rw [halert]
  by_cases hnormal : pushType = pushTypeNormal <;> simp [pushMsg, hnormal, Object.put, h1, h2, h3, h4, h5, h6]

/-- The payload is one object with two entries. -/
theorem buildPayload_eq (g : GateWayMsg) :
    g.buildPayload = Object.json [(chars "aps", .object g.aps), (chars "custom", .string g.customData)] := by
  obtain ⟨-, -, -, -, -, -, h7, h8⟩ := payloadOrder
  simp [GateWayMsg.buildPayload, Object.put, h7, h8]

/-- The length of a payload. -/
theorem length_payload (hflash : flash ≠ []) (userData : Bytes) (pushType badge : Nat) :
    (pushMsg flash userData token timeNow pushType badge notificationId).buildPayload.length =
      (escapeString userData).length + (decimal badge).length +
        if pushType = pushTypeNormal then 108 + (escapeString flash).length else 47 := by
  obtain ⟨h1, h2, h3, h4, h5, h6, h7, h8⟩ := payloadSizes
  rw [buildPayload_eq, aps_eq token timeNow notificationId hflash, Object.json, length_removeLastComma]
  split
  · simp only [tags, tag, quoted, List.length_append, length_removeLastComma, List.length_cons, List.length_nil, List.length_replicate,
      h1, h2, h3, h4, h5, h6, h7, h8]
    simp only [pushMsg]
    omega
  · simp only [tags, tag, quoted, List.length_append, length_removeLastComma, List.length_cons, List.length_nil, List.length_replicate,
      h1, h2, h3, h5]
    simp only [pushMsg]
    omega

/-- A payload is UTF-8 when the flash and the custom data are. -/
theorem valid_payload (hflash : flash ≠ []) (hvalid : Utf8.Valid flash) {userData : Bytes} (hdata : Utf8.Valid userData)
    (pushType badge : Nat) : Utf8.Valid (pushMsg flash userData token timeNow pushType badge notificationId).buildPayload := by
  rw [buildPayload_eq, aps_eq token timeNow notificationId hflash]
  refine valid_removeLastComma (valid_object Utf8.valid_nil ?_)
  intro entry hentry
  simp only [List.mem_cons, List.not_mem_nil, or_false] at hentry
  rcases hentry with rfl | rfl
  · refine valid_object (valid_names _ (by simp)) fun entry hentry => ?_
    split at hentry
    · simp only [List.mem_cons, List.not_mem_nil, or_false] at hentry
      rcases hentry with rfl | rfl | rfl
      · refine valid_object (valid_names _ (by simp)) fun entry hentry => ?_
        rw [List.mem_singleton.1 hentry]
        exact valid_string (valid_names _ (by simp)) hvalid
      · exact valid_number (valid_names _ (by simp))
      · exact valid_string (valid_names _ (by simp)) (valid_names _ (by simp))
    · rw [List.mem_singleton.1 hentry]
      exact valid_number (valid_names _ (by simp))
  · exact valid_string (valid_names _ (by simp)) hdata

/-! ## The text -/

/-- What is put together is characters. -/
theorem valid_msgTmp {nick : Bytes} (hnick : Utf8.Valid nick) (htext : Utf8.Valid text) (msgType : Nat) :
    Utf8.Valid (msgTmp nick text msgType) := by
  unfold msgTmp
  split
  · exact hnick.append (Utf8.valid_bytes _)
  · split
    · exact hnick.append (Utf8.valid_bytes _)
    · rw [chars_colon, List.append_assoc]
      exact (Utf8.valid_append_cons (by decide)).2 ⟨hnick, htext⟩

/-- The cut has to be in front of a character. -/
theorem valid_cutFlash_iff (h : Utf8.Valid text) :
    Utf8.Valid (cutFlash text) ↔ ∀ b, text[flashMaxLength]? = some b → b.IsUTF8FirstByte := by
  unfold cutFlash
  split
  · rename_i hlong
    have hdots : Utf8.Valid [46, 46] := Utf8.valid_of_ascii (by simp)
    rw [chars_dots, Utf8.valid_append_cons (by decide), Utf8.valid_take_iff h hlong, List.getElem?_eq_getElem hlong]
    simp [hdots]
  · rename_i hshort
    simp [List.getElem?_eq_none (Nat.le_of_not_lt hshort), h]

/-- How long a text is when it is cut, with the dots. -/
theorem length_cutFlash (text : Bytes) :
    (cutFlash text).length = (text.take flashMaxLength).length + if flashMaxLength < text.length then 3 else 0 := by
  unfold cutFlash
  split
  · rw [List.length_append, chars_dots]
    rfl
  · rename_i hshort
    rw [List.take_of_length_le (Nat.le_of_not_lt hshort), Nat.add_zero]

/-- The dots are not escaped. -/
theorem growth_cutFlash (text : Bytes) : growth (cutFlash text) = growth (text.take flashMaxLength) := by
  unfold cutFlash
  split
  · have hdots : growth [46, 46, 46] = 0 := by simp [growth, grows]
    have happend : ∀ as bs : Bytes, growth (as ++ bs) = growth as + growth bs := fun as bs => by simp [growth]
    rw [chars_dots, happend, hdots, Nat.add_zero]
  · rename_i hshort
    rw [List.take_of_length_le (Nat.le_of_not_lt hshort)]

/-- What is said when the message is not shown. -/
theorem flash_of_hidden (h : hasPicture m.text = true ∨ m.nickName = none) : m.flash = commFlash := by
  unfold Message.flash buildIosPushFlash
  rcases h with hpicture | hnone
  · rw [if_pos hpicture]
  · rw [hnone]
    exact ite_self _

/-- What is said when it is. -/
theorem flash_of_shown {nick : Bytes} (hpicture : ¬hasPicture m.text = true) (hnick : m.nickName = some nick) :
    m.flash = cutFlash (msgTmp nick m.text m.msgType) := by
  unfold Message.flash buildIosPushFlash
  rw [if_neg hpicture, hnick]
  rfl

/-- What is shown of a message is never empty. -/
theorem msgTmp_ne_nil (nick text : Bytes) (msgType : Nat) : msgTmp nick text msgType ≠ [] := by
  obtain ⟨-, -, h1, -, h2, h3⟩ := textSizes
  unfold msgTmp
  split
  · simp [h2]
  · split
    · simp [h3]
    · simp [h1]

/-- Nor is its flash. -/
theorem flash_ne_nil (m : Message) : m.flash ≠ [] := by
  have hcomm : commFlash ≠ [] := fun hnil => by simpa [hnil] using textSizes.1
  by_cases hpicture : hasPicture m.text = true
  · rw [flash_of_hidden (.inl hpicture)]
    exact hcomm
  cases hnick : m.nickName with
  | none =>
    rw [flash_of_hidden (.inr hnick)]
    exact hcomm
  | some nick =>
    rw [flash_of_shown hpicture hnick]
    have hne := msgTmp_ne_nil nick m.text m.msgType
    unfold cutFlash
    split
    · simp [chars_dots]
    · exact hne

/-! ## What is sent -/

/-- What follows a step that succeeds. -/
theorem ok_of_bind {α β : Type} {x : Exec α} {f : α → Exec β} {r : β} (h : x >>= f = .ok r) : ∃ a, f a = .ok r := by
  cases x with
  | error e => cases h
  | ok a => exact ⟨a, h⟩

/-- Nothing but the checks at the beginning drops a message. -/
theorem not_dropped {g : GateWayMsg} {size : Nat} {payload : Bytes} (hfresh : g.databuffer.writeOffset = 0)
    (htoken : g.deviceToken.length = tokenHexLength) (hpayload : ¬(payload.length > payLoadMaxLength ∨ payload.length = 0))
    (b : SimpleBuffer) : g.serializeWith size payload ≠ .ok (b, false) := by
  intro h
  rw [GateWayMsg.serializeWith, if_neg (by rw [hfresh]; decide), if_neg (by rw [htoken]; decide), if_neg hpayload] at h
  obtain ⟨_, h⟩ := ok_of_bind h
  obtain ⟨_, h⟩ := ok_of_bind h
  obtain ⟨_, h⟩ := ok_of_bind h
  obtain ⟨_, h⟩ := ok_of_bind h
  obtain ⟨_, h⟩ := ok_of_bind h
  obtain ⟨_, h⟩ := ok_of_bind h
  obtain ⟨_, h⟩ := ok_of_bind h
  obtain ⟨_, h⟩ := ok_of_bind h
  cases h

/-- The length of the payload of a message. -/
theorem length_payload_gateWayMsg (m : Message) : (m.gateWayMsg token timeNow notificationId).buildPayload.length =
    (if checkMsgTypeGroup m.msgType then 63 else 44) + m.digits +
      if m.pushType = pushTypeNormal then 108 + m.flash.length + growth m.flash else 47 := by
  have hflash : (escapeString m.flash).length = m.flash.length + growth m.flash := length_escapeString.trans weight_escaped
  rw [Message.gateWayMsg, length_payload token timeNow notificationId (flash_ne_nil m), length_escapeString, weight_userData, hflash]
  unfold Message.digits
  split <;> split <;> omega

/-- A message can be pushed when what is said is characters and short enough. -/
theorem pushable_iff_flash (m : Message) : m.Pushable ↔ Utf8.Valid m.flash ∧ m.flash.length ≤ iosPushFlashMaxLength ∧
    (if checkMsgTypeGroup m.msgType then 63 else 44) + m.digits +
      (if m.pushType = pushTypeNormal then 108 + m.flash.length + growth m.flash else 47) ≤ payLoadMaxLength := by
  constructor
  · intro h
    have hlength := (h.payload [] 0 0).2
    rw [length_payload_gateWayMsg] at hlength
    exact ⟨h.flash.1, h.flash.2, hlength⟩
  · rintro ⟨hvalid, hshort, hroom⟩
    refine ⟨⟨hvalid, hshort⟩, fun token timeNow notificationId => ⟨?_, ?_⟩, fun token timeNow notificationId htoken => ?_⟩
    · exact valid_payload token timeNow notificationId (flash_ne_nil m) hvalid (valid_userData m) m.pushType m.badge
    · rw [length_payload_gateWayMsg]
      exact hroom
    · refine not_dropped rfl htoken ?_
      rw [length_payload_gateWayMsg]
      have hpos : 0 < (if checkMsgTypeGroup m.msgType then 63 else 44) := by split <;> omega
      omega

/-- A number of 32 bits has at most ten digits. -/
theorem length_decimal_le (h : n < uint32Size) : (decimal n).length ≤ 10 := by
  rw [decimal, List.length_map]
  exact (Nat.length_toDigits_le_iff (by decide) (by decide)).2 (Nat.lt_trans h (by decide))

/-- How many digits the custom data have, at most. -/
theorem digits_le (h : m.WellFormed) : m.digits ≤ 30 + if checkMsgTypeGroup m.msgType then 10 else 0 := by
  have h1 := length_decimal_le h.badge
  have h2 := length_decimal_le h.fromId
  have h3 := length_decimal_le h.msgType
  have h4 := length_decimal_le h.toId
  unfold Message.digits
  split <;> omega

/-- A message that is not shown always can. -/
theorem pushable_of_hidden (h : m.WellFormed) (hhidden : hasPicture m.text = true ∨ m.nickName = none) : m.Pushable := by
  have hdigits := digits_le h
  obtain ⟨hlength, hgrowth, -⟩ := textSizes
  rw [pushable_iff_flash, flash_of_hidden hhidden, hlength, hgrowth]
  refine ⟨Utf8.valid_bytes _, by decide, ?_⟩
  have htext : (if m.pushType = pushTypeNormal then 108 + 24 + 0 else 47) ≤ 132 := by split <;> omega
  simp only [payLoadMaxLength]
  by_cases hgroup : checkMsgTypeGroup m.msgType = true
  · rw [if_pos hgroup] at hdigits ⊢
    omega
  · rw [if_neg hgroup] at hdigits ⊢
    omega

/-- A message that is shown can if it fits. -/
theorem pushable_iff_of_shown (h : m.WellFormed) {nick : Bytes} (hpicture : ¬hasPicture m.text = true)
    (hnick : m.nickName = some nick) : m.Pushable ↔ m.TextFits (msgTmp nick m.text m.msgType) := by
  have hvalid := valid_cutFlash_iff (valid_msgTmp (h.nickName nick hnick) h.text m.msgType)
  have hdigits := digits_le h
  rw [pushable_iff_flash, flash_of_shown hpicture hnick, hvalid, length_cutFlash, growth_cutFlash]
  generalize msgTmp nick m.text m.msgType = whole
  have hdots : (if flashMaxLength < whole.length then 3 else 0) ≤ 3 := by split <;> omega
  have htake : (whole.take flashMaxLength).length ≤ 37 := List.length_take_le _ _
  -- What the names take is 256 without the room for the text and the numbers.
  have hroom : (if checkMsgTypeGroup m.msgType then 63 else 44) + 108 + m.room = payLoadMaxLength := by
    unfold Message.room
    split <;> rfl
  have hnames : (if checkMsgTypeGroup m.msgType then 63 else 44) + m.digits ≤ 103 := by
    by_cases hgroup : checkMsgTypeGroup m.msgType = true
    · rw [if_pos hgroup] at hdigits ⊢
      omega
    · rw [if_neg hgroup] at hdigits ⊢
      omega
  constructor
  · rintro ⟨hcut, -, hlength⟩
    refine ⟨hcut, fun hnormal => ?_⟩
    rw [if_pos hnormal] at hlength
    omega
  · rintro ⟨hcut, hlength⟩
    refine ⟨hcut, by simp only [iosPushFlashMaxLength]; omega, ?_⟩
    by_cases hnormal : m.pushType = pushTypeNormal
    · rw [if_pos hnormal]
      have := hlength hnormal
      omega
    · rw [if_neg hnormal]
      simp only [payLoadMaxLength]
      omega

end PushFlashAux

open PushFlashAux

/-- A message can be pushed exactly when its text is cut in front of a character, and has room with what the escapes add. -/
theorem pushable_iff {m : Message} (h : m.WellFormed) : m.Pushable ↔ m.Fits := by
  by_cases hpicture : hasPicture m.text = true
  · exact iff_of_true (pushable_of_hidden h (.inl hpicture)) (.inl hpicture)
  cases hnick : m.nickName with
  | none => exact iff_of_true (pushable_of_hidden h (.inr hnick)) (.inr (by simp [hnick]))
  | some nick =>
    rw [pushable_iff_of_shown h hpicture hnick, Message.Fits, hnick]
    simp [hpicture]

/-- A short text from a sender with a short name. -/
theorem pushable_hello : Message.Pushable ⟨Utf8.bytes "hello", some (Utf8.bytes "ab"), 1, 7, 8, 1, pushTypeNormal⟩ := by
  refine (pushable_iff ⟨Utf8.valid_bytes _, ?_, by decide, by decide, by decide, by decide⟩).2 (.inr ?_)
  · rintro nick ⟨⟩
    exact Utf8.valid_bytes _
  · have hshort : (msgTmp (Utf8.bytes "ab") (Utf8.bytes "hello") 1).length = 8 ∧
        growth (msgTmp (Utf8.bytes "ab") (Utf8.bytes "hello") 1) = 0 := by decide
    rintro nick ⟨⟩
    constructor
    · intro b hb
      rw [List.getElem?_eq_none (by rw [hshort.1]; decide)] at hb
      cases hb
    · intro _
      rw [List.take_of_length_le (by rw [hshort.1]; decide), hshort.1, hshort.2]
      decide

namespace PushFlashAux

/-- Twenty characters of three bytes, from a sender with a name of one letter. -/
def longMessage : Message := ⟨Utf8.bytes "您您您您您您您您您您您您您您您您您您您您", some [97], 1, 7, 8, 1, pushTypeNormal⟩

/-- The long message is one that a client can send. -/
theorem wellFormed_longMessage : longMessage.WellFormed := by
  refine ⟨Utf8.valid_bytes _, ?_, by decide, by decide, by decide, by decide⟩
  rintro nick ⟨⟩
  exact Utf8.valid_of_ascii (by simp)

/-- It does not fit. -/
theorem not_fits_longMessage : ¬longMessage.Fits := by
  have hcut : ¬hasPicture longMessage.text = true ∧ (msgTmp [97] longMessage.text 1)[flashMaxLength]? = some 168 ∧
      ¬(168 : UInt8).IsUTF8FirstByte := by decide
  rintro (h | h)
  · exact hcut.1 h
  · exact hcut.2.2 ((h [97] rfl).cut 168 hcut.2.1)

/-- And it is not pushed. -/
theorem not_pushable_longMessage : ¬longMessage.Pushable := by
  have hnick : longMessage.nickName = some [97] := rfl
  have hpicture : ¬hasPicture longMessage.text = true := fun h => not_fits_longMessage (.inl h)
  rw [pushable_iff_of_shown wellFormed_longMessage hpicture hnick]
  intro h
  refine not_fits_longMessage (.inr ?_)
  rintro nick ⟨⟩
  exact h

end PushFlashAux

/-- So not every message can be pushed: a cut may be within a character. -/
theorem not_every_pushable : ¬∀ m : Message, m.WellFormed → m.Pushable :=
  fun h => not_pushable_longMessage (h longMessage wellFormed_longMessage)

end TeamTalk.PushFlash
