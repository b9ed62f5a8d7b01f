import TeamTalk.DbProxy.Statements
import TeamTalk.Theorems.Tokens

/-!
# Client texts in SQL statements

When the SQL statement of a request has the tokens that it is meant to have, and says the texts of the client as they are. A
text that is put between quotes is put there as it is.
-/

namespace TeamTalk.DbProxy.Statements

open TokensAux

/-! ## The property -/

/-- A text of letters and digits. -/
def Harmless (v : Text) : Prop := ∀ c ∈ v, c.isAlphanum = true

/-- The statement of a request says its texts, and has the structure that it has for any harmless texts. -/
def Unchanged (r : Request) : Prop :=
  ∀ s, r.statement = some s → s.strings = r.texts ∧
    ∀ f : Text → Text, (∀ v, Harmless (f v)) → ∀ s', (r.map f).statement = some s' →
      Sql.shapes s.tokens = Sql.shapes s'.tokens

/-! ## The condition -/

/-- A text without a NUL and a quote, and with no backslash but before a percent sign or an underscore. -/
def Safe (v : Text) : Prop := '\x00' ∉ v ∧ Sql.plain '\'' v = true

/-- The condition on a request: a text that is put between quotes is safe, or no statement is built from it. -/
def Request.Safe : Request → Prop
  | .doLogin v | .delOfflineFile v | .clientAckChangeStatus v _ | .changeFileStatus v _ _ | .saveAudioInfo _ _ v _ _ _ =>
    Statements.Safe v
  | .updateUserSignInfo _ _ v => v.length ≤ 128 → Statements.Safe v
  | .addOfflineFile _ _ _ _ _ _ _ _ | .insertNewGroup _ _ _ _ _ _ | .sendMessage _ _ _ _ _ _ _
  | .sendGroupMessage _ _ _ _ _ _ => True

namespace StatementsAux

/-! ## Harmless texts -/

/-- A harmless text is plain inside quotes. -/
theorem plain_of_harmless {v : Text} (h : Harmless v) : Sql.plain '\'' v = true := by
  have hne : ∀ c ∈ v, c ≠ '\'' ∧ c ≠ '\\' := by
    intro c hc
    have halpha := h c hc
    constructor <;> (rintro rfl; simp at halpha)
  clear h
  induction v using Sql.plain.induct with
  | case1 => rfl
  | case2 c => simp [Sql.plain, hne c (by simp)]
  | case3 d s ih => exact absurd rfl (hne '\\' (by simp)).2
  | case4 c d s hc ih =>
    have hrest := ih fun e he => hne e (List.mem_cons_of_mem c he)
    simp [Sql.plain, hc, hne c (by simp), hrest]

/-- And so it is safe. -/
theorem safe_of_harmless {v : Text} (h : Harmless v) : Safe v := by
  refine ⟨fun hmem => ?_, plain_of_harmless h⟩
  have := h _ hmem
  simp at this

/-! ## Numbers -/

/-- A numeral has digits only. -/
theorem alphanum_int2string {n : Nat} : ∀ c ∈ int2string n, c.isAlphanum = true := by
  intro c hc
  simp [Char.isAlphanum, isDigit_int2string hc]

/-- A character that is no letter and no digit is not in a number. -/
theorem not_mem_int2string {n : Nat} {c : Char} (h : c.isAlphanum = false) : c ∉ int2string n := by
  intro hmem
  rw [alphanum_int2string c hmem] at h
  cases h

/-- So no quote. -/
theorem quote_int2string {n : Nat} : ∀ c ∈ int2string n, Sql.isQuote c = false := by
  intro c hc
  by_contra hquote
  simp only [Sql.isQuote, Bool.not_eq_false, Bool.or_eq_true, decide_eq_true_eq] at hquote
  have halpha := alphanum_int2string c hc
  rcases hquote with rfl | rfl
  · simp at halpha
  · simp at halpha

/-! ## A text between quotes -/

/-- A text checked to have no quote. -/
theorem noQuote {s : Text} (h : s.all (fun c => !Sql.isQuote c) = true) : ∀ c ∈ s, Sql.isQuote c = false := by
  simpa using h

/-- What has no NUL is not cut. -/
theorem cStr_append {a : Text} (h : '\x00' ∉ a) (s : Text) : cStr (a ++ s) = a ++ cStr s := by
  refine List.takeWhile_append_of_pos fun c hc => decide_eq_true ?_
  rintro rfl
  exact h hc

/-- A NUL cuts off what comes after it. -/
theorem cStr_append_of_mem {a : Text} (h : '\x00' ∈ a) (s : Text) : cStr (a ++ s) = cStr a := by
  obtain ⟨b, c, rfl, hb⟩ := List.eq_append_cons_of_mem h
  have hcut : ∀ t, cStr ('\x00' :: t) = [] := fun t => by simp [cStr]
  rw [List.append_assoc, cStr_append hb, cStr_append hb, List.cons_append, hcut, hcut]

section Fill

variable (T : Sql.Template) (hbefore : '\x00' ∉ T.before) (hrest : '\x00' ∉ T.rest)

include hbefore hrest

/-- A NUL in the text cuts the statement off. -/
theorem cStr_fill (v : Text) :
    cStr (T.fill v) = if '\x00' ∈ v then T.before ++ '\'' :: cStr v else T.fill v := by
  have hquote : ∀ s, cStr ('\'' :: s) = '\'' :: cStr s := fun s => cStr_append (a := ['\'']) (by decide) s
  have hfill : T.fill v = T.before ++ ('\'' :: (v ++ '\'' :: T.rest)) := by simp [Sql.Template.fill]
  rw [hfill, cStr_append hbefore, hquote]
  split
  · rename_i hnul
    rw [cStr_append_of_mem hnul]
  · rename_i hnul
    rw [cStr_append hnul, hquote, cStr_eq hrest]

/-- The one value of a filled statement is the text exactly when that is safe. -/
theorem values_fill (v : Text) : Sql.values (Sql.lex (cStr (T.fill v))) = [v] ↔ Safe v := by
  rw [cStr_fill T hbefore hrest]
  by_cases hnul : '\x00' ∈ v
  · rw [if_pos hnul]
    refine iff_of_false (T.values_cut ?_) fun h => h.1 hnul
    exact (List.takeWhile_sublist _).length_le
  · rw [if_neg hnul, T.values_fill]
    exact ⟨fun h => ⟨hnul, h⟩, fun h => h.2⟩

/-- And its shape is the same for all of them. -/
theorem shapes_fill {v w : Text} (hv : Safe v) (hw : Safe w) :
    Sql.shapes (Sql.lex (cStr (T.fill v))) = Sql.shapes (Sql.lex (cStr (T.fill w))) := by
  rw [cStr_fill T hbefore hrest, cStr_fill T hbefore hrest, if_neg hv.1, if_neg hw.1]
  exact T.shapes_fill hv.2 hw.2

/-- A request whose statement, if there is one, is that of a template. -/
theorem unchanged_fill {r : Text → Request} {v : Text} (hv : (r v).statement = some (.query (T.fill v)))
    (hstatement : ∀ w s, (r w).statement = some s → s = .query (T.fill w)) (htexts : (r v).texts = [v])
    (hmap : ∀ f, (r v).map f = r (f v)) : Unchanged (r v) ↔ Safe v := by
  constructor
  · intro h
    obtain ⟨hstrings, -⟩ := h _ hv
    rw [htexts] at hstrings
    exact (values_fill T hbefore hrest v).1 hstrings
  · intro hsafe s hs
    rw [hv] at hs
    cases hs
    refine ⟨?_, ?_⟩
    · rw [htexts]
      exact (values_fill T hbefore hrest v).2 hsafe
    · intro f hf s' hs'
      rw [hmap] at hs'
      rw [hstatement _ _ hs']
      exact shapes_fill T hbefore hrest hsafe (safe_of_harmless (hf v))

/-- A request whose statement is that of a template. -/
theorem unchanged_template {r : Text → Request} (hstatement : ∀ w, (r w).statement = some (.query (T.fill w)))
    (htexts : ∀ w, (r w).texts = [w]) (hmap : ∀ f w, (r w).map f = r (f w)) (v : Text) : Unchanged (r v) ↔ Safe v := by
  refine unchanged_fill T hbefore hrest (hstatement v) ?_ (htexts v) fun f => hmap f v
  intro w s hs
  rw [hstatement] at hs
  exact (Option.some.inj hs).symm

end Fill

/-! ## Prepared statements -/

/-- A request whose statement is prepared: its text has no quotes, and is the same for all texts. -/
theorem unchanged_prepared {r : Request} {sql : Text} {params : List Param} (hstatement : r.statement = some (.prepared sql params))
    (hquote : ∀ c ∈ sql, Sql.isQuote c = false) (hparams : params.filterMap Param.text? = r.texts)
    (hmap : ∀ f, ∃ params', (r.map f).statement = some (.prepared sql params')) : Unchanged r := by
  intro s hs
  rw [hstatement] at hs
  cases hs
  refine ⟨?_, ?_⟩
  · have hvalues : Sql.values (Sql.lex sql) = [] := Sql.values_lexFrom (m := .between) trivial hquote
    rw [Statement.strings, hvalues, List.nil_append, hparams]
  · intro f _ s' hs'
    obtain ⟨params', hprepared⟩ := hmap f
    rw [hprepared] at hs'
    cases hs'
    rfl

/-! ## The templates -/

/-- `doLogin`. -/
def loginTemplate : Sql.Template where
  before := "select * from IMUser where name=".toList
  rest := " and status=0".toList
  opens := by decide
  before_quote := noQuote (by decide)
  rest_quote := noQuote (by decide)

/-- `updateUserSignInfo`. -/
def signInfoTemplate (userId now : Nat) : Sql.Template where
  before := "update IMUser set `sign_info`=".toList
  rest := ", `updated`=".toList ++ int2string now ++ " where id=".toList ++ int2string userId
  opens := by decide
  before_quote := noQuote (by decide)
  rest_quote := by
    simp only [List.mem_append]
    rintro c (((hc | hc) | hc) | hc)
    · exact noQuote (by decide) c hc
    · exact quote_int2string c hc
    · exact noQuote (by decide) c hc
    · exact quote_int2string c hc

/-- The statements that set a file's status. -/
def statusTemplate (status : Nat) : Sql.Template where
  before := "update IMTransmitFile  set status=".toList ++ (int2string status ++ " where taskId=".toList)
  rest := []
  opens := by
    rw [Sql.mode_append]
    exact (Sql.mode_alphanum alphanum_int2string (c := ' ') (by decide) "where taskId=".toList).trans (by decide)
  before_quote := by
    simp only [List.mem_append]
    rintro c (hc | hc | hc)
    · exact noQuote (by decide) c hc
    · exact quote_int2string c hc
    · exact noQuote (by decide) c hc
  rest_quote := by simp

/-- After a number in a list, the lexer is between tokens. -/
theorem mode_number (n : Nat) (s : Text) :
    (Sql.run .between (int2string n ++ (", ".toList ++ s))).1 = (Sql.run .between s).1 :=
  Sql.mode_alphanum alphanum_int2string (c := ',') (by decide) (" ".toList ++ s)

set_option maxRecDepth 2000 in
/-- `saveAudioInfo`. -/
def audioTemplate (fromId toId realLen costTime createTime : Nat) : Sql.Template where
  before := "insert into IMAudio(`fromId`, `toId`, `path`, `size`, `duration`, `created`) ".toList ++ ("values(".toList ++
    (int2string fromId ++ (", ".toList ++ (int2string toId ++ ", ".toList))))
  rest := ", ".toList ++ (int2string realLen ++ (", ".toList ++ (int2string costTime ++ (", ".toList ++
    (int2string createTime ++ ")".toList)))))
  opens := by
    have hbegin : (Sql.run (Sql.run .between
        "insert into IMAudio(`fromId`, `toId`, `path`, `size`, `duration`, `created`) ".toList).1 "values(".toList).1 =
        .between := by decide
    rw [Sql.mode_append, Sql.mode_append, hbegin]
    exact (mode_number fromId _).trans (mode_number toId [])
  before_quote := by
    simp only [List.mem_append]
    rintro c (hc | hc | hc | hc | hc | hc)
    · exact noQuote (by decide) c hc
    · exact noQuote (by decide) c hc
    · exact quote_int2string c hc
    · exact noQuote (by decide) c hc
    · exact quote_int2string c hc
    · exact noQuote (by decide) c hc
  rest_quote := by
    simp only [List.mem_append]
    rintro c (hc | hc | hc | hc | hc | hc | hc)
    · exact noQuote (by decide) c hc
    · exact quote_int2string c hc
    · exact noQuote (by decide) c hc
    · exact quote_int2string c hc
    · exact noQuote (by decide) c hc
    · exact quote_int2string c hc
    · exact noQuote (by decide) c hc

/-- Each question mark is replaced, and those in a new text are passed over. -/
theorem replace_six {i sep : Text} (hi : '?' ∉ i) (hsep : '?' ∉ sep) (e a b c d f g : Text) :
    let str := replaceAt (i ++ '?' :: (sep ++ '?' :: (sep ++ '?' :: (sep ++ '?' :: (sep ++ '?' :: (sep ++ '?' :: e)))))) a 0
    let str := replaceAt str.1 b str.2
    let str := replaceAt str.1 c str.2
    let str := replaceAt str.1 d str.2
    let str := replaceAt str.1 f str.2
    (replaceAt str.1 g str.2).1 = i ++ (a ++ (sep ++ (b ++ (sep ++ (c ++ (sep ++ (d ++ (sep ++ (f ++ (sep ++ (g ++ e))))))))))) := by
  have hfirst : ∀ t : Text, replaceAt (i ++ '?' :: t) a 0 = (i ++ a ++ t, (i ++ a).length) :=
    fun t => replaceAt_mark (a := []) (b := i) (c := t) hi a
  simp only [hfirst, replaceAt_mark hsep]
  simp

/-- The audio's row, as its template filled. -/
theorem saveAudioInfo_eq (fromId toId : Nat) (path : Text) (realLen costTime createTime : Nat) :
    saveAudioInfo fromId toId path realLen costTime createTime =
      (audioTemplate fromId toId realLen costTime createTime).fill path := by
  have hvalues : "values(?, ?, ?, ?, ?, ?)".toList = "values(".toList ++ '?' :: (", ".toList ++ '?' :: (", ".toList ++ '?' ::
      (", ".toList ++ '?' :: (", ".toList ++ '?' :: (", ".toList ++ '?' :: ")".toList))))) := rfl
  have hinsert : '?' ∉ "insert into IMAudio(`fromId`, `toId`, `path`, `size`, `duration`, `created`) ".toList ++
      "values(".toList := by
    rw [List.mem_append]
    rintro (hmem | hmem)
    · exact absurd hmem (by decide)
    · exact absurd hmem (by decide)
  have hsep : '?' ∉ ", ".toList := by decide
  have hsix := replace_six hinsert hsep ")".toList (int2string fromId) (int2string toId)
    ("'".toList ++ path ++ "'".toList) (int2string realLen) (int2string costTime) (int2string createTime)
  unfold saveAudioInfo replaceMarkInt replaceMark
  rw [hvalues, ← List.append_assoc]
  refine hsix.trans ?_
  have hassoc : ∀ i j a s b p c : Text, i ++ j ++ (a ++ (s ++ (b ++ (s ++ (['\''] ++ p ++ ['\''] ++ c))))) =
      i ++ (j ++ (a ++ (s ++ (b ++ s)))) ++ '\'' :: p ++ '\'' :: c := by simp
  exact hassoc _ _ _ _ _ _ _

/-! ## The requests -/

/-- A statement put together is a template filled. -/
theorem fill_eq (T : Sql.Template) {a b : Text} (ha : a = T.before ++ ['\'']) (hb : b = '\'' :: T.rest) (v : Text) :
    a ++ v ++ b = T.fill v := by
  rw [ha, hb, Sql.Template.fill]
  simp

/-- The login's statement. -/
theorem doLogin_eq (v : Text) : doLogin v = loginTemplate.fill v := by
  unfold doLogin
  exact fill_eq loginTemplate (by decide) rfl v

/-- The deletion of an offline file. -/
theorem delOfflineFile_eq (v : Text) : delOfflineFile v = (statusTemplate 0).fill v := by
  unfold delOfflineFile
  exact fill_eq (statusTemplate 0) (by decide) rfl v

/-- The acknowledged notice. -/
theorem clientAckChangeStatus_eq (v : Text) (status : Nat) :
    clientAckChangeStatus v status = (statusTemplate (if status = 0 then 4 else 2)).fill v := by
  unfold clientAckChangeStatus
  split
  · exact fill_eq (statusTemplate 4) (by decide) rfl v
  · exact fill_eq (statusTemplate 2) (by decide) rfl v

/-- The file's new status. -/
theorem changeFileStatus_eq (v : Text) {status : Nat} (h : status ≠ 4294967295) :
    changeFileStatus v status = (statusTemplate status).fill v := by
  have hassoc : ∀ a b c : Text, a ++ b ++ (c ++ ['\'']) = a ++ (b ++ c) ++ ['\''] := by simp
  rw [changeFileStatus, if_neg h]
  exact fill_eq (statusTemplate status) (hassoc _ _ " where taskId=".toList) rfl v

/-- The sign info of at most 128 bytes. -/
theorem signInfo_eq (userId now : Nat) (v : Text) (h : v.length ≤ 128) :
    updateUserSignInfo userId now v = some ((signInfoTemplate userId now).fill v) := by
  rw [updateUserSignInfo, if_neg (Nat.not_lt.2 h)]
  have hassoc : ∀ a b c d e f : Text, a ++ ['\''] ++ b ++ ('\'' :: c) ++ d ++ e ++ f =
      a ++ '\'' :: b ++ '\'' :: (c ++ d ++ e ++ f) := by simp
  exact congrArg some (hassoc "update IMUser set `sign_info`=".toList v ", `updated`=".toList (int2string now)
    " where id=".toList (int2string userId))

/-- What the NUL check of the templates needs. -/
theorem nul_not_mem_status (status : Nat) : '\x00' ∉ (statusTemplate status).before := by
  intro h
  rcases List.mem_append.1 h with h | h
  · exact absurd h (by decide)
  · rcases List.mem_append.1 h with h | h
    · exact not_mem_int2string (by decide) h
    · exact absurd h (by decide)

/-- The notices' three statements are unchanged exactly by safe texts. -/
theorem unchanged_status {r : Text → Request} {status : Nat}
    (hstatement : ∀ v, (r v).statement = some (.query ((statusTemplate status).fill v))) (htexts : ∀ v, (r v).texts = [v])
    (hmap : ∀ f v, (r v).map f = r (f v)) (v : Text) : Unchanged (r v) ↔ Safe v :=
  unchanged_template (statusTemplate status) (nul_not_mem_status status) List.not_mem_nil hstatement htexts hmap v

/-- No NUL behind the sign info. -/
theorem nul_not_mem_signInfo (userId now : Nat) : '\x00' ∉ (signInfoTemplate userId now).rest := by
  intro h
  rcases List.mem_append.1 h with h | h
  · rcases List.mem_append.1 h with h | h
    · rcases List.mem_append.1 h with h | h
      · exact absurd h (by decide)
      · exact not_mem_int2string (by decide) h
    · exact absurd h (by decide)
  · exact not_mem_int2string (by decide) h

/-- None in a numeral and what follows it. -/
theorem nul_not_mem_number {n : Nat} {s : Text} (hs : '\x00' ∉ s) : '\x00' ∉ int2string n ++ (", ".toList ++ s) := by
  intro h
  rcases List.mem_append.1 h with h | h
  · exact not_mem_int2string (by decide) h
  · rcases List.mem_append.1 h with h | h
    · exact absurd h (by decide)
    · exact hs h

/-- And none in the audio's statement. -/
theorem nul_not_mem_audio (fromId toId realLen costTime createTime : Nat) :
    '\x00' ∉ (audioTemplate fromId toId realLen costTime createTime).before ∧
      '\x00' ∉ (audioTemplate fromId toId realLen costTime createTime).rest := by
  refine ⟨fun h => ?_, fun h => ?_⟩
  · rcases List.mem_append.1 h with h | h
    · exact absurd h (by decide)
    · rcases List.mem_append.1 h with h | h
      · exact absurd h (by decide)
      · exact nul_not_mem_number (nul_not_mem_number (s := []) List.not_mem_nil) h
  · rcases List.mem_append.1 h with h | h
    · exact absurd h (by decide)
    · refine nul_not_mem_number (nul_not_mem_number fun hend => ?_) h
      rcases List.mem_append.1 hend with hend | hend
      · exact not_mem_int2string (by decide) hend
      · exact absurd hend (by decide)

/-- A table name with a number in it has no quotes. -/
theorem quote_table {a b c : Text} {n : Nat} (ha : a.all (fun c => !Sql.isQuote c) = true)
    (hb : b.all (fun c => !Sql.isQuote c) = true) (hc : c.all (fun c => !Sql.isQuote c) = true) :
    ∀ d ∈ a ++ int2string n ++ b ++ c, Sql.isQuote d = false := by
  intro d hd
  rcases List.mem_append.1 hd with hd | hd
  · rcases List.mem_append.1 hd with hd | hd
    · rcases List.mem_append.1 hd with hd | hd
      · exact noQuote ha d hd
      · exact quote_int2string d hd
    · exact noQuote hb d hd
  · exact noQuote hc d hd

/-- Two parts without a quote have none together. -/
theorem quote_append {a b : Text} (ha : a.all (fun c => !Sql.isQuote c) = true) (hb : b.all (fun c => !Sql.isQuote c) = true) :
    ∀ d ∈ a ++ b, Sql.isQuote d = false := by
  intro d hd
  rcases List.mem_append.1 hd with hd | hd
  · exact noQuote ha d hd
  · exact noQuote hb d hd

end StatementsAux

open StatementsAux

/-! ## Every request -/

set_option maxRecDepth 2000 in
/-- The statement of a request says the client's texts, and is what it is meant to be, exactly when every text that it puts
between quotes has no NUL and no quote, and no backslash but before a percent sign or an underscore. -/
theorem unchanged_iff (r : Request) : Unchanged r ↔ r.Safe := by
  cases r with
  | doLogin v =>
    exact unchanged_template (r := .doLogin) loginTemplate (by decide) (by decide) (fun w => by rw [← doLogin_eq]; rfl)
      (fun _ => rfl) (fun _ _ => rfl) v
  | delOfflineFile v =>
    exact unchanged_status (r := .delOfflineFile) (fun w => by rw [← delOfflineFile_eq]; rfl) (fun _ => rfl)
      (fun _ _ => rfl) v
  | clientAckChangeStatus v status =>
    exact unchanged_status (r := fun w => .clientAckChangeStatus w status)
      (fun w => by rw [← clientAckChangeStatus_eq]; rfl) (fun _ => rfl) (fun _ _ => rfl) v
  | changeFileStatus v status task =>
    exact unchanged_status (r := fun w => .changeFileStatus w status task) (fun w => by rw [← changeFileStatus_eq w task]; rfl)
      (fun _ => rfl) (fun _ _ => rfl) v
  | saveAudioInfo fromId toId v realLen costTime createTime =>
    obtain ⟨hbefore, hrest⟩ := nul_not_mem_audio fromId toId realLen costTime createTime
    exact unchanged_template (r := fun w => .saveAudioInfo fromId toId w realLen costTime createTime)
      (audioTemplate fromId toId realLen costTime createTime) hbefore hrest (fun w => by rw [← saveAudioInfo_eq]; rfl)
      (fun _ => rfl) (fun _ _ => rfl) v
  | updateUserSignInfo userId now v =>
    by_cases hlen : v.length ≤ 128
    · have hbefore : '\x00' ∉ "update IMUser set `sign_info`=".toList := by decide
      have hiff := unchanged_fill (r := .updateUserSignInfo userId now) (v := v) (signInfoTemplate userId now) hbefore
        (nul_not_mem_signInfo userId now) ?_ ?_ rfl fun _ => rfl
      · exact hiff.trans ⟨fun h _ => h, fun h => h hlen⟩
      · rw [Request.statement, signInfo_eq userId now v hlen]
        rfl
      · intro w s hs
        by_cases hw : w.length ≤ 128
        · rw [Request.statement, signInfo_eq userId now w hw] at hs
          exact (Option.some.inj hs).symm
        · rw [Request.statement, updateUserSignInfo, if_pos (Nat.lt_of_not_le hw)] at hs
          cases hs
    · refine iff_of_true (fun s hs => ?_) fun h => absurd h hlen
      rw [Request.statement, updateUserSignInfo, if_pos (Nat.lt_of_not_le hlen)] at hs
      cases hs
  | addOfflineFile fromId toId taskId fileName fileSize filemd5 status now =>
    exact iff_of_true (unchanged_prepared rfl (quote_append (by decide) (by decide)) rfl fun f => ⟨_, rfl⟩) trivial
  | insertNewGroup userId groupName groupAvatar groupType memberCnt now =>
    exact iff_of_true (unchanged_prepared rfl (quote_append (by decide) (by decide)) rfl fun f => ⟨_, rfl⟩) trivial
  | sendMessage relateId fromId toId msgType createTime msgId v =>
    exact iff_of_true (unchanged_prepared rfl (quote_table (by decide) (by decide) (by decide)) rfl fun f => ⟨_, rfl⟩) trivial
  | sendGroupMessage fromId groupId msgType createTime msgId v =>
    exact iff_of_true (unchanged_prepared rfl (quote_table (by decide) (by decide) (by decide)) rfl fun f => ⟨_, rfl⟩) trivial

/-- A login name with a quote ends the literal: the rest of the name is part of the statement. -/
theorem not_unchanged : ¬∀ r : Request, Unchanged r := by
  intro h
  obtain ⟨hstrings, -⟩ := h (.doLogin "x' or '1'='1".toList) _ rfl
  exact absurd hstrings (by decide)

end TeamTalk.DbProxy.Statements
