import TeamTalk.DbProxy.Voices
import TeamTalk.Theorems.Statements

/-!
# Voice messages come back

What `saveAudioInfo` takes apart is put together again by `readAudioContent`, whatever the pieces in which the recording comes in. A cost
time of zero is taken when a message is saved, and refused when it is read.
-/

namespace TeamTalk.DbProxy.Voices

/-! ## The property -/

/-- The store has taken the data, and gives back just these bytes for the URL, in some pieces. -/
structure Kept (store : FileStore) (fileSite data : Bytes) (path : Text) : Prop where
  uploaded : (HttpClient.uploadByteFile fileSite data).bind store.upload = some path
  returned : (store.download path).pieces.flatten = data
  length : (store.download path).contentLength = data.length

/-- The table later on: rows were added. -/
def Grown (saved t : Table) : Prop := ∃ later, t.rows = saved.rows ++ later ∧ ∀ row ∈ later, saved.nextId ≤ row.id

/-- A payload is saved, and read back for the message with its id, at any place of a list. -/
def ComesBack (overflow : IntOverflow) (store : FileStore) (fileSite : Bytes) (t : Table) (fromId toId createTime : Nat)
    (payload : Bytes) : Prop :=
  ∃ saved audioId, saveAudioInfo store fileSite t fromId toId createTime payload = .ok (some (saved, audioId)) ∧ audioId ≠ -1 ∧
    ∀ t', Grown saved t' → ∀ msg : MsgInfo, msg.msgType = msgTypeGroupAudio ∨ msg.msgType = msgTypeSingleAudio →
      msg.msgData = decimal (toUint32 audioId) → ∀ before behind,
        readAudios overflow store t' (before ++ msg :: behind) = (do
          let first ← readAudios overflow store t' before
          let rest ← readAudios overflow store t' behind
          return first ++ { msg with msgData := payload } :: rest)

namespace VoicesAux

open Statements StatementsAux TokensAux

variable {overflow : IntOverflow} {store : FileStore} {fileSite data payload : Bytes} {path : Text} {t t' saved : Table}
  {fromId toId createTime costTime size n : Nat} {msg : MsgInfo} {row : Row}

/-! ## The statements -/

theorem int2string_ne (n : Nat) : int2string n ≠ [] := Nat.toDigits_ne_nil

theorem digits_int2string (n : Nat) : ∀ c ∈ int2string n, c.isDigit = true := fun _ hc => isDigit_int2string hc

/-- A number in a list, and the comma. -/
theorem run_item (n : Nat) (s : Text) : Sql.run .between (int2string n ++ (", ".toList ++ s)) =
    Sql.after [.word (int2string n), .symbol ','] (Sql.run .between s) := by
  have hcomma : Sql.run .between (", ".toList ++ s) = Sql.after [.symbol ','] (Sql.run .between s) := rfl
  have hnumber := Sql.run_number_append (s := " ".toList ++ s) (digits_int2string n) (int2string_ne n) (c := ',') (by decide)
  refine hnumber.trans ?_
  rw [show Sql.run .between (',' :: (" ".toList ++ s)) = _ from hcomma]
  rfl

/-- A comma and a number. -/
def itemTokens (n : Nat) : List Sql.Token := [.symbol ',', .word (int2string n)]

/-- A comma, and a number that is not the last one. -/
theorem lex_item (n : Nat) (s : Text) :
    Sql.lex (", ".toList ++ (int2string n ++ (", ".toList ++ s))) = itemTokens n ++ Sql.lex (", ".toList ++ s) := by
  have hcomma : Sql.lex (", ".toList ++ (int2string n ++ (", ".toList ++ s))) =
      .symbol ',' :: Sql.lex (int2string n ++ (", ".toList ++ s)) := rfl
  rw [hcomma]
  exact congrArg _ (Sql.lex_number_append (s := " ".toList ++ s) (digits_int2string n) (int2string_ne n) (c := ',') (by decide))

/-- The last number. -/
theorem lex_last (n : Nat) : Sql.lex (", ".toList ++ (int2string n ++ ")".toList)) = itemTokens n ++ [.symbol ')'] := by
  have hcomma : Sql.lex (", ".toList ++ (int2string n ++ ")".toList)) = .symbol ',' :: Sql.lex (int2string n ++ ")".toList) := rfl
  rw [hcomma]
  exact congrArg _ (Sql.lex_number_append (s := []) (digits_int2string n) (int2string_ne n) (c := ')') (by decide))

/-- The insertion up to the values. -/
def insertHead : Text := "insert into IMAudio(`fromId`, `toId`, `path`, `size`, `duration`, `created`) ".toList ++ "values(".toList

/-- The columns that it names. -/
def insertNames : List Text :=
  ["fromId".toList, "toId".toList, "path".toList, "size".toList, "duration".toList, "created".toList]

/-- The names of the insertion, in its list, and what stands behind them. -/
def nameTokens (rest : List Sql.Token) : List Sql.Token :=
  .name "fromId".toList :: .symbol ',' :: .name "toId".toList :: .symbol ',' :: .name "path".toList :: .symbol ',' ::
    .name "size".toList :: .symbol ',' :: .name "duration".toList :: .symbol ',' :: .name "created".toList :: .symbol ')' ::
      .word "values".toList :: .symbol '(' :: rest

theorem run_insertHead : Sql.run .between insertHead = (.between, .word "insert".toList :: .word "into".toList ::
    .word "IMAudio".toList :: .symbol '(' :: nameTokens []) := by
  decide +kernel

/-- The values of the insertion. -/
def valueTokens (fromId toId : Nat) (path : Text) (size costTime createTime : Nat) : List Sql.Token :=
  [.word (int2string fromId), .symbol ',', .word (int2string toId), .symbol ',', .text path] ++ itemTokens size ++ itemTokens costTime ++
    itemTokens createTime ++ [.symbol ')']

/-- The tokens of the insertion. -/
theorem tokens_insert (hpath : Safe path) : (Statement.query (Statements.saveAudioInfo fromId toId path size costTime createTime)).tokens =
    (Sql.run .between insertHead).2 ++ valueTokens fromId toId path size costTime createTime := by
  obtain ⟨hbefore, hrest⟩ := nul_not_mem_audio fromId toId size costTime createTime
  have hfirst : (Sql.run .between (audioTemplate fromId toId size costTime createTime).before).2 =
      (Sql.run .between insertHead).2 ++ [.word (int2string fromId), .symbol ',', .word (int2string toId), .symbol ','] := by
    have hbefore : (audioTemplate fromId toId size costTime createTime).before =
        insertHead ++ (int2string fromId ++ (", ".toList ++ (int2string toId ++ (", ".toList ++ [])))) := by
      unfold insertHead audioTemplate
      exact (List.append_assoc _ _ _).symm
    rw [hbefore, Sql.run_append, show (Sql.run .between insertHead).1 = .between by rw [run_insertHead], run_item, run_item]
    rfl
  have hend : Sql.lex (audioTemplate fromId toId size costTime createTime).rest =
      itemTokens size ++ (itemTokens costTime ++ (itemTokens createTime ++ [.symbol ')'])) := by
    have hrest : (audioTemplate fromId toId size costTime createTime).rest = ", ".toList ++ (int2string size ++ (", ".toList ++
        (int2string costTime ++ (", ".toList ++ (int2string createTime ++ ")".toList))))) := rfl
    rw [hrest, lex_item, lex_item, lex_last]
  have hcut := cStr_fill (audioTemplate fromId toId size costTime createTime) hbefore hrest path
  rw [if_neg hpath.1] at hcut
  rw [Statement.tokens, saveAudioInfo_eq, hcut, Sql.Template.lex_fill _ hpath.2, hfirst, hend, List.append_assoc]
  rfl

/-- The columns of a row that was saved. -/
def savedColumns (fromId toId : Nat) (path : Text) (size costTime createTime : Nat) : List (Text × Text) :=
  insertNames.zip [int2string fromId, int2string toId, path, int2string size, int2string costTime, int2string createTime]

/-- The insertion says what it should. -/
theorem parseInsert_saved (hpath : Safe path) :
    Sql.parseInsert (Statement.query (Statements.saveAudioInfo fromId toId path size costTime createTime)).tokens =
      some { table := "IMAudio".toList, columns := savedColumns fromId toId path size costTime createTime } := by
  have hitem : ∀ n, (Sql.Token.word (int2string n)).item? = some (int2string n) := fun n => Sql.item?_number (digits_int2string n)
  have hitems : Sql.bracketList Sql.Token.item? (valueTokens fromId toId path size costTime createTime) =
      some ([int2string fromId, int2string toId, path, int2string size, int2string costTime, int2string createTime], []) := by
    simp [valueTokens, itemTokens, Sql.bracketList, hitem, Sql.Token.item?.eq_def (.text path)]
  have hnames : ∀ tokens, Sql.bracketList Sql.Token.ident? (nameTokens tokens) =
      some (insertNames, .word "values".toList :: .symbol '(' :: tokens) := fun _ => rfl
  have happend : ∀ tokens, nameTokens [] ++ tokens = nameTokens tokens := fun _ => rfl
  rw [tokens_insert hpath, run_insertHead]
  simp only [List.cons_append, happend]
  rw [Sql.parseInsert_eq, hnames]
  exact Sql.parseValues_eq hitems rfl

/-- The row is in the table. -/
theorem executeUpdate_saved (hpath : Safe path) :
    t.executeUpdate (Statements.saveAudioInfo fromId toId path size costTime createTime) =
      some (t.add (savedColumns fromId toId path size costTime createTime)) := by
  rw [Table.executeUpdate, parseInsert_saved hpath]
  exact if_pos rfl

/-- The text of a number in a statement. -/
theorem bytesText_decimal (n : Nat) : bytesText (decimal n) = int2string n := by
  unfold bytesText decimal int2string
  rw [List.map_map]
  refine (List.map_congr_left fun c hc => ?_).trans (List.map_id _)
  have hdigit := CTextAux.isDigit_of_mem_toDigits hc
  rw [Function.comp_apply, CTextAux.toNat_byte hdigit]
  exact Char.ofNat_toNat c

theorem run_selectHead : Sql.run .between "select * from IMAudio where id=".toList = (.between, [.word "select".toList, .symbol '*',
    .word "from".toList, .word "IMAudio".toList, .word "where".toList, .word "id".toList, .symbol '=']) := by
  decide

/-- The selection by an id. -/
theorem executeQuery_id (t : Table) (n : Nat) :
    t.executeQuery ("select * from IMAudio where id=".toList ++ bytesText (decimal n)) =
      some (t.rows.filter fun row => row.id = n) := by
  have hnul : '\x00' ∉ "select * from IMAudio where id=".toList ++ int2string n := by
    intro hmem
    rcases List.mem_append.1 hmem with hmem | hmem
    · exact absurd hmem (by decide)
    · exact noNul_int2string n hmem
  have htokens : (Statement.query ("select * from IMAudio where id=".toList ++ int2string n)).tokens =
      [.word "select".toList, .symbol '*', .word "from".toList, .word "IMAudio".toList, .word "where".toList, .word "id".toList,
        .symbol '=', .word (int2string n)] := by
    rw [Statement.tokens, cStr_eq hnul, Sql.lex, Sql.lexFrom_append, run_selectHead]
    dsimp only
    rw [Sql.lexFrom_number (digits_int2string n) (int2string_ne n)]
    rfl
  have hparse : Sql.parseSelect (Statement.query ("select * from IMAudio where id=".toList ++ int2string n)).tokens =
      some { table := "IMAudio".toList, column := "id".toList, value := int2string n } := by
    rw [htokens]
    exact Sql.parseSelect_eq (Sql.item?_number (digits_int2string n))
  have hvalue : Nat.ofDigitChars 10 (int2string n) 0 = n := Nat.ofDigitChars_ten_toDigits
  rw [bytesText_decimal, Table.executeQuery, hparse]
  refine (if_pos ⟨rfl, rfl, List.all_eq_true.2 (digits_int2string n)⟩).trans ?_
  rw [hvalue]

/-! ## The columns of a row -/

/-- `atoi` of a number that was printed. -/
theorem stringToInt_decimal (h : n < uint32Size) :
    stringToInt overflow (decimal n) = if overflow = .wraps ∨ n < uint32Size / 2 then some n else none := by
  have hlt : n < 4294967296 := h
  have hclamp : clampLong (n : Int) = n := by
    unfold clampLong
    omega
  have hmod : ((n : Int) % uint32Size).toNat = n := by
    norm_num
    omega
  rw [stringToInt, CTextAux.atoi_decimal, hclamp, IntOverflow.toUint32, hmod]
  refine if_congr (or_congr_right ?_) rfl rfl
  norm_num

/-- A number that is read from a column. -/
theorem getInt_eq {key : Text} (hvalue : row.value key = some (int2string n)) (h : n < uint32Size)
    (hfits : overflow = .wraps ∨ n < uint32Size / 2) : row.getInt overflow key = .ok n := by
  have hbytes : textBytes (int2string n) = decimal n := rfl
  rw [Row.getInt, hvalue]
  dsimp only
  rw [hbytes, stringToInt_decimal h, if_pos hfits]

/-- The row of a payload is read. -/
theorem readRow_saved (hpath : Safe path) (hcost : costTime < uint32Size) (hfits : overflow = .wraps ∨ costTime < uint32Size / 2)
    (hsize : size < uint32Size / 2) (id : Nat) :
    readRow overflow store msg { id, columns := savedColumns fromId toId path size costTime createTime } =
      readAudioContent store costTime size path msg := by
  have hduration : Row.getInt overflow { id, columns := savedColumns fromId toId path size costTime createTime } "duration".toList =
      .ok costTime := getInt_eq rfl hcost hfits
  have hlt : size < uint32Size := hsize.trans (by decide)
  have hsizes : Row.getInt overflow { id, columns := savedColumns fromId toId path size costTime createTime } "size".toList =
      .ok size := getInt_eq rfl hlt (.inr hsize)
  have hstring : Row.getString { id, columns := savedColumns fromId toId path size costTime createTime } "path".toList = .ok path :=
    congrArg Except.ok (cStr_eq hpath.1)
  rw [readRow, hduration, hsizes, hstring]
  rfl

/-! ## The recording -/

/-- The four bytes are written as they were read. -/
theorem writeUint32_bytes (b0 b1 b2 b3 : UInt8) :
    ByteStream.writeUint32 (b0.toNat * 2 ^ 24 + b1.toNat * 2 ^ 16 + b2.toNat * 2 ^ 8 + b3.toNat) = [b0, b1, b2, b3] := by
  have hlt : ∀ b : UInt8, b.toNat < 256 := fun b => b.toNat_lt
  have hbyte : ∀ {n : Nat} {b : UInt8}, n % 256 = b.toNat → UInt8.ofNat n = b := by
    intro n b h
    apply UInt8.toNat_inj.1
    rw [UInt8.toNat_ofNat', ← h]
  have := hlt b0
  have := hlt b1
  have := hlt b2
  have := hlt b3
  unfold ByteStream.writeUint32
  rw [hbyte (b := b0), hbyte (b := b1), hbyte (b := b2), hbyte (b := b3)]
  all_goals omega

/-- What `saveAudioInfo` takes apart. -/
theorem parseAudio_eq (h : 4 < payload.length) : ∃ costTime, parseAudio payload = .ok (costTime, payload.drop 4) ∧
    costTime < uint32Size ∧ ByteStream.writeUint32 costTime ++ payload.drop 4 = payload := by
  obtain ⟨b0, b1, b2, b3, rest, rfl⟩ : ∃ b0 b1 b2 b3 rest, payload = b0 :: b1 :: b2 :: b3 :: rest := by
    match payload, h with
    | b0 :: b1 :: b2 :: b3 :: rest, _ => exact ⟨b0, b1, b2, b3, rest, rfl⟩
  refine ⟨b0.toNat * 2 ^ 24 + b1.toNat * 2 ^ 16 + b2.toNat * 2 ^ 8 + b3.toNat, ?_, ?_, ?_⟩
  · rw [parseAudio, ByteStream.readUint32_cons]
    rfl
  · have hlt : ∀ b : UInt8, b.toNat < 256 := fun b => b.toNat_lt
    have := hlt b0
    have := hlt b1
    have := hlt b2
    have := hlt b3
    norm_num
    omega
  · rw [writeUint32_bytes]
    rfl

/-- The pieces come together behind the cost time. -/
theorem readAudioContent_kept (hkept : Kept store fileSite data path) (hpath : path ≠ []) (hcost : costTime ≠ 0) (hdata : data ≠ [])
    (hsize : data.length < uint32Size / 2) :
    readAudioContent store costTime data.length path msg = .ok { msg with msgData := ByteStream.writeUint32 costTime ++ data } := by
  have hpos := List.length_pos_iff.2 hdata
  have hfour : (ByteStream.writeUint32 costTime).length = 4 := rfl
  have hfold : (store.download path).pieces.foldl HttpClient.writeDataBinary
      { fileSize := data.length, data := ByteStream.writeUint32 costTime } =
        { fileSize := data.length, data := ByteStream.writeUint32 costTime ++ data } := by
    rw [HttpClient.foldl_writeDataBinary]
    · rw [hkept.returned]
    · rw [hkept.returned, hfour]
      norm_num at hsize ⊢
      omega
  have hnot : ¬(path = [] ∨ costTime = 0 ∨ data.length = 0) := by
    rintro (h | h | h)
    · exact hpath h
    · exact hcost h
    · omega
  have hroom : ¬uint32Size ≤ 4 + data.length := by
    norm_num at hsize ⊢
    omega
  rw [readAudioContent, if_neg hnot, if_neg hroom, HttpClient.downloadByteFile, hfold]
  simp [hkept.length]

/-! ## The list of messages -/

/-- The saved row is the only one with its id. -/
theorem filter_grown {columns : List (Text × Text)} (h : Grown (t.add columns) t') :
    (t'.rows.filter fun row => row.id = t.nextId) = [{ id := t.nextId, columns }] := by
  obtain ⟨later, hrows, hlater⟩ := h
  have hbefore : (t.rows.filter fun row => row.id = t.nextId) = [] := by
    refine List.filter_eq_nil_iff.2 fun row hrow => ?_
    have := t.fresh row hrow
    simp only [decide_eq_true_eq]
    omega
  have hbehind : (later.filter fun row => row.id = t.nextId) = [] := by
    refine List.filter_eq_nil_iff.2 fun row hrow => ?_
    have hle : t.nextId + 1 ≤ row.id := hlater row hrow
    simp only [decide_eq_true_eq]
    omega
  rw [hrows, Table.add, List.filter_append, List.filter_append, hbefore, hbehind]
  simp

/-- A message in a list is read on its own. -/
theorem readAudios_cons {msg' : MsgInfo} (h : readAudio overflow store t msg = .ok [msg']) (before behind : List MsgInfo) :
    readAudios overflow store t (before ++ msg :: behind) = (do
      let first ← readAudios overflow store t before
      let rest ← readAudios overflow store t behind
      return first ++ msg' :: rest) := by
  induction before with
  | nil =>
    have hfirst : readAudios overflow store t (msg :: behind) = (do
        let first ← readAudio overflow store t msg
        let rest ← readAudios overflow store t behind
        return first ++ rest) := rfl
    rw [List.nil_append, hfirst, h]
    rfl
  | cons first before ih =>
    rw [List.cons_append, readAudios, ih, readAudios]
    cases readAudio overflow store t first with
    | error e => rfl
    | ok out =>
      cases readAudios overflow store t before with
      | error e => rfl
      | ok outs =>
        cases readAudios overflow store t behind with
        | error e => rfl
        | ok rest => simp [bind, Except.bind, pure, Except.pure]

/-- The message with the id of a saved row. -/
theorem readAudio_grown {columns : List (Text × Text)} (hgrown : Grown (t.add columns) t')
    (htype : msg.msgType = msgTypeGroupAudio ∨ msg.msgType = msgTypeSingleAudio) (hdata : msg.msgData = decimal t.nextId) :
    readAudio overflow store t' msg = (do
      let msg ← readRow overflow store msg { id := t.nextId, columns }
      return [msg]) := by
  rw [readAudio, if_pos htype, hdata, executeQuery_id]
  dsimp only
  rw [filter_grown hgrown, List.foldlM_cons]
  simp only [List.foldlM_nil, bind_pure]

/-- The id as it stands in the message. -/
theorem toUint32_toInt32 (h : n < uint32Size) : toUint32 (toInt32 (insertId n)) = n := by
  have hlt : n < 4294967296 := h
  unfold toUint32 toInt32 insertId
  rw [Nat.mod_eq_of_lt h]
  split
  · norm_num
    omega
  · norm_num
    omega

/-- What is saved. -/
theorem saveAudioInfo_kept (hparse : parseAudio payload = .ok (costTime, data)) (hsize : data.length < uint32Size / 2)
    (hkept : Kept store fileSite data path) (hpath : path ≠ []) (hsafe : Safe path) :
    saveAudioInfo store fileSite t fromId toId createTime payload =
      .ok (some (t.add (savedColumns fromId toId path data.length costTime createTime), toInt32 (insertId t.nextId))) := by
  have hupload : uploadByteFile store fileSite data = some path := by
    rw [uploadByteFile, if_neg (Nat.not_le.2 hsize), hkept.uploaded]
    rfl
  obtain ⟨first, rest, rfl⟩ := List.exists_cons_of_ne_nil hpath
  simp only [saveAudioInfo, hparse, bind, Except.bind, hupload, executeUpdate_saved hsafe, pure, Except.pure]

/-- The message with the id of the row of a payload. -/
theorem readAudio_saved (hsafe : Safe path) (hcost : costTime < uint32Size) (hfits : overflow = .wraps ∨ costTime < uint32Size / 2)
    (hsize : size < uint32Size / 2) (hgrown : Grown (t.add (savedColumns fromId toId path size costTime createTime)) t')
    (htype : msg.msgType = msgTypeGroupAudio ∨ msg.msgType = msgTypeSingleAudio) (hdata : msg.msgData = decimal t.nextId) :
    readAudio overflow store t' msg = (do
      let msg ← readAudioContent store costTime size path msg
      return [msg]) := by
  rw [readAudio_grown hgrown htype hdata, readRow_saved hsafe hcost hfits hsize t.nextId]

/-- A cost time of zero: the digits of the id stay in the message. -/
theorem not_comesBack_zero (hlong : 4 < payload.length) (hparse : parseAudio payload = .ok (0, data)) (hsize : data.length < uint32Size / 2)
    (hkept : Kept store fileSite data path) (hpath : path ≠ []) (hsafe : Safe path) (hid : t.nextId < uint32Size) :
    ¬ComesBack overflow store fileSite t fromId toId createTime payload := by
  rintro ⟨saved, audioId, hsave, -, hback⟩
  rw [saveAudioInfo_kept hparse hsize hkept hpath hsafe] at hsave
  cases hsave
  have hmsg : (MsgInfo.mk msgTypeSingleAudio (decimal t.nextId)).msgData = decimal (toUint32 (toInt32 (insertId t.nextId))) := by
    rw [toUint32_toInt32 hid]
  have hgrown : Grown (t.add (savedColumns fromId toId path data.length 0 createTime))
      (t.add (savedColumns fromId toId path data.length 0 createTime)) := ⟨[], (List.append_nil _).symm, fun _ h => by cases h⟩
  have hlist := hback _ hgrown _ (.inr rfl) hmsg [] []
  have hone : readAudio overflow store (t.add (savedColumns fromId toId path data.length 0 createTime))
      { msgType := msgTypeSingleAudio, msgData := decimal t.nextId } =
        .ok [{ msgType := msgTypeSingleAudio, msgData := decimal t.nextId }] := by
    rw [readAudio_saved hsafe (by decide) (.inr (by decide)) hsize hgrown (.inr rfl) rfl, readAudioContent, if_pos (.inr (.inl rfl))]
    rfl
  rw [readAudios_cons hone [] []] at hlist
  have hsame : decimal t.nextId = payload := congrArg MsgInfo.msgData (List.cons.inj (Except.ok.inj hlist)).1
  -- a payload with this cost time begins with a byte that is no digit
  obtain ⟨costTime, hparse', -, hwhole⟩ := parseAudio_eq hlong
  rw [hparse] at hparse'
  obtain ⟨rfl, -⟩ := Prod.mk.inj (Except.ok.inj hparse')
  have hzero : (0 : UInt8) ∈ decimal t.nextId := by
    rw [hsame, ← hwhole]
    exact List.mem_cons_self
  exact absurd (CTextAux.digit_of_mem_decimal hzero).1 (by decide)

/-- Any other cost time. -/
theorem comesBack_of_ne (hlong : 4 < payload.length) (hparse : parseAudio payload = .ok (costTime, data))
    (hsize : data.length < uint32Size / 2) (hfits : overflow = .wraps ∨ costTime < uint32Size / 2)
    (hkept : Kept store fileSite data path) (hpath : path ≠ []) (hsafe : Safe path) (hid : t.nextId < uint32Size - 1)
    (hcost : costTime ≠ 0) : ComesBack overflow store fileSite t fromId toId createTime payload := by
  obtain ⟨costTime', hparse', hlt, hwhole⟩ := parseAudio_eq hlong
  rw [hparse] at hparse'
  obtain ⟨rfl, hdata⟩ := Prod.mk.inj (Except.ok.inj hparse')
  rw [← hdata] at hwhole
  have hne : data ≠ [] := by
    rintro rfl
    have hlen := congrArg List.length hdata
    rw [List.length_drop, List.length_nil] at hlen
    omega
  have hnext : t.nextId < uint32Size := Nat.lt_of_lt_of_le hid (Nat.sub_le _ _)
  refine ⟨_, _, saveAudioInfo_kept hparse hsize hkept hpath hsafe, ?_, fun t' hgrown msg htype hmsg before behind => ?_⟩
  · have hlt : t.nextId < 4294967295 := hid
    unfold toInt32 insertId
    rw [Nat.mod_eq_of_lt hnext]
    split
    · omega
    · norm_num
      omega
  · rw [toUint32_toInt32 hnext] at hmsg
    refine readAudios_cons ?_ before behind
    rw [readAudio_saved hsafe hlt hfits hsize hgrown htype hmsg, readAudioContent_kept hkept hpath hcost hne hsize, hwhole]
    rfl

end VoicesAux

open VoicesAux

/-- Where the store gives back what was uploaded, a payload comes back as it was, whatever the pieces, exactly when its cost time is not
zero. -/
theorem comesBack_iff {overflow : IntOverflow} {store : FileStore} {fileSite data payload : Bytes} {path : Text} {t : Table}
    {fromId toId createTime costTime : Nat} (hlong : 4 < payload.length) (hparse : parseAudio payload = .ok (costTime, data))
    (hsize : data.length < uint32Size / 2) (hfits : overflow = .wraps ∨ costTime < uint32Size / 2)
    (hkept : Kept store fileSite data path) (hpath : path ≠ []) (hsafe : Statements.Safe path) (hid : t.nextId < uint32Size - 1) :
    ComesBack overflow store fileSite t fromId toId createTime payload ↔ costTime ≠ 0 := by
  constructor
  · rintro h rfl
    exact not_comesBack_zero hlong hparse hsize hkept hpath hsafe (Nat.lt_of_lt_of_le hid (Nat.sub_le _ _)) h
  · exact comesBack_of_ne hlong hparse hsize hfits hkept hpath hsafe hid

/-! ## Two payloads -/

/-- A store that has two bytes, which come in one by one. -/
def twoBytes : FileStore where
  upload := fun _ => some "http://msfs/g0/000/000/7_1.audio".toList
  download := fun _ => { pieces := [[7], [8]], contentLength := 2 }

/-- A table without rows. -/
def noRows : Table := { rows := [], nextId := 1, fresh := fun _ h => by cases h }

theorem kept_twoBytes : Kept twoBytes (chars "http://msfs/") [7, 8] "http://msfs/g0/000/000/7_1.audio".toList :=
  ⟨by decide, rfl, rfl⟩

/-- A recording of five seconds. -/
theorem comesBack_iff_five : ComesBack .undefined twoBytes (chars "http://msfs/") noRows 1 2 1400000000 [0, 0, 0, 5, 7, 8] :=
  (comesBack_iff (by decide) (show parseAudio _ = .ok (5, [7, 8]) from rfl) (by decide) (.inr (by decide)) kept_twoBytes (by decide)
    ⟨by decide, by decide⟩ (by decide)).2 (by decide)

/-- A recording of no time, which the store keeps as well. -/
theorem not_comesBack : Kept twoBytes (chars "http://msfs/") [7, 8] "http://msfs/g0/000/000/7_1.audio".toList ∧
    ¬ComesBack .undefined twoBytes (chars "http://msfs/") noRows 1 2 1400000000 [0, 0, 0, 0, 7, 8] :=
  ⟨kept_twoBytes, not_comesBack_zero (by decide) (show parseAudio _ = .ok (0, [7, 8]) from rfl) (by decide) kept_twoBytes (by decide)
    ⟨by decide, by decide⟩ (by decide)⟩

end TeamTalk.DbProxy.Voices
