import TeamTalk.DbProxy.DeviceToken
import TeamTalk.Lib.Sql

/-!
# The SQL statements of db_proxy_server

The statements that are built from texts a client sends. Some put a text between quotes, with `+` or with `replace_mark`, and
some are prepared and bind it. The rest of the statements is built from numbers.
-/

namespace TeamTalk.DbProxy.Statements

/-! ## `replace_mark` -/

/-- `string::find` of a question mark. -/
def findMark (str : Text) (pos : Nat) : Option Nat := ((str.drop pos).findIdx? (· = '?')).map (pos + ·)

/-- What both `replace_mark`s do: the text, and the new `begin_pos`. -/
def replaceAt (str new : Text) (beginPos : Nat) : Text × Nat :=
  match findMark str beginPos with
  | none => (str, beginPos)
  | some pos => (str.take pos ++ new ++ str.drop (pos + 1), pos + new.length)

/-- `replace_mark`, of a text. -/
def replaceMark (str newValue : Text) (beginPos : Nat) : Text × Nat :=
  replaceAt str ("'".toList ++ newValue ++ "'".toList) beginPos

/-- `replace_mark`, of a number. -/
def replaceMarkInt (str : Text) (newValue beginPos : Nat) : Text × Nat := replaceAt str (int2string newValue) beginPos

/-- A value for a question mark: either `replace_mark` takes one kind. -/
inductive MarkValue where
  | text (newValue : Text)
  | number (newValue : Nat)

/-- A call of `replace_mark` on a text and the running position, which is a `uint32_t`. -/
def callReplaceMark (s : Text × Nat) (value : MarkValue) : Text × Nat :=
  let next := match value with
    | .text newValue => replaceMark s.1 newValue s.2
    | .number newValue => replaceMarkInt s.1 newValue s.2
  (next.1, next.2 % uint32Size)

/-! ## Texts between quotes -/

/-- The statement of `CInterLoginStrategy::doLogin`. -/
def doLogin (strName : Text) : Text :=
  "select * from IMUser where name='".toList ++ strName ++ "' and status=0".toList

/-- The statement of `CUserModel::updateUserSignInfo`. There is none for a text that is too long. -/
def updateUserSignInfo (userId now : Nat) (signInfo : Text) : Option Text :=
  if signInfo.length > 128 then none
  else some ("update IMUser set `sign_info`='".toList ++ signInfo ++ "', `updated`=".toList ++ int2string now ++
    " where id=".toList ++ int2string userId)

/-- The statement of `CFileModel::delOfflineFile`. -/
def delOfflineFile (taskId : Text) : Text :=
  "update IMTransmitFile  set status=0 where taskId='".toList ++ taskId ++ "'".toList

/-- The statement of `CFileModel::ClientAckChangeStatus`. -/
def clientAckChangeStatus (taskId : Text) (status : Nat) : Text :=
  if status = 0 then "update IMTransmitFile  set status=4 where taskId='".toList ++ taskId ++ "'".toList
  else "update IMTransmitFile  set status=2 where taskId='".toList ++ taskId ++ "'".toList

/-- The statement of `CFileModel::ChangeFileStatus`. With the status -1, which msg_server sends when a user logs out, the text
is the id of the user. -/
def changeFileStatus (taskId : Text) (status : Nat) : Text :=
  if status = 4294967295 then
    "update IMTransmitFile set status=2 where toId=".toList ++ taskId ++ " and status = 3".toList
  else
    "update IMTransmitFile  set status=".toList ++ int2string status ++ " where taskId='".toList ++ taskId ++ "'".toList

/-- The statement of `CAudioModel::saveAudioInfo`. -/
def saveAudioInfo (fromId toId : Nat) (path : Text) (realLen costTime createTime : Nat) : Text :=
  let str := "insert into IMAudio(`fromId`, `toId`, `path`, `size`, `duration`, `created`) ".toList ++
    "values(?, ?, ?, ?, ?, ?)".toList
  let str := replaceMarkInt str fromId 0
  let str := replaceMarkInt str.1 toId str.2
  let str := replaceMark str.1 path str.2
  let str := replaceMarkInt str.1 realLen str.2
  let str := replaceMarkInt str.1 costTime str.2
  (replaceMarkInt str.1 createTime str.2).1

/-! ## Prepared statements -/

/-- A parameter of a prepared statement. -/
inductive Param where
  | int (n : Nat)
  | text (s : Text)
  deriving DecidableEq, Repr

/-- `CFileModel::addOfflineFile`. -/
def addOfflineFile (fromId toId : Nat) (taskId fileName : Text) (fileSize : Nat) (filemd5 : Text) (status now : Nat) :
    Text × List Param :=
  ("insert into IMTransmitFile (`fromId`,`toId`,`fileName`,`size`,`taskId`,`status`,`created`,`updated`,`md5`) ".toList ++
      "values(?,?,?,?,?,?,?,?,?)".toList,
    [.int fromId, .int toId, .text fileName, .int fileSize, .text taskId, .int status, .int now, .int now, .text filemd5])

/-- `CGroupModel::insertNewGroup`. -/
def insertNewGroup (userId : Nat) (groupName groupAvatar : Text) (groupType memberCnt now : Nat) : Text × List Param :=
  ("insert into IMGroup(`name`, `avatar`, `creator`, `type`,`userCnt`, `status`, `version`, `lastChated`, ".toList ++
      "`updated`, `created`) values(?, ?, ?, ?, ?, ?, ?, ?, ?, ?)".toList,
    [.text groupName, .text groupAvatar, .int userId, .int groupType, .int memberCnt, .int 0, .int 1, .int 0, .int now, .int now])

/-- `CMessageModel::sendMessage`. -/
def sendMessage (relateId fromId toId msgType createTime msgId : Nat) (content : Text) : Text × List Param :=
  ("insert into IMMessage_".toList ++ int2string (relateId % 8) ++
      " (`relateId`, `fromId`, `toId`, `msgId`, `content`, `status`, `type`, `created`, `updated`) ".toList ++
      "values(?, ?, ?, ?, ?, ?, ?, ?, ?)".toList,
    [.int relateId, .int fromId, .int toId, .int msgId, .text content, .int 0, .int msgType, .int createTime, .int createTime])

/-- `CGroupMessageModel::sendMessage`. -/
def sendGroupMessage (fromId groupId msgType createTime msgId : Nat) (content : Text) : Text × List Param :=
  ("insert into IMGroupMessage_".toList ++ int2string (groupId % 8) ++
      " (`groupId`, `userId`, `msgId`, `content`, `type`, `status`, `updated`, `created`) ".toList ++
      "values(?, ?, ?, ?, ?, ?, ?, ?)".toList,
    [.int groupId, .int fromId, .int msgId, .text content, .int msgType, .int 0, .int createTime, .int createTime])

/-! ## Requests -/

/-- A statement as MySQL gets it: as a C string, or prepared. -/
inductive Statement where
  | query (sql : Text)
  | prepared (sql : Text) (params : List Param)
  deriving DecidableEq, Repr

/-- A request with texts of a client. A client's task id never comes with the status -1. -/
inductive Request where
  | doLogin (name : Text)
  | updateUserSignInfo (userId now : Nat) (signInfo : Text)
  | delOfflineFile (taskId : Text)
  | clientAckChangeStatus (taskId : Text) (status : Nat)
  | changeFileStatus (taskId : Text) (status : Nat) (task : status ≠ 4294967295)
  | saveAudioInfo (fromId toId : Nat) (path : Text) (realLen costTime createTime : Nat)
  | addOfflineFile (fromId toId : Nat) (taskId fileName : Text) (fileSize : Nat) (filemd5 : Text) (status now : Nat)
  | insertNewGroup (userId : Nat) (groupName groupAvatar : Text) (groupType memberCnt now : Nat)
  | sendMessage (relateId fromId toId msgType createTime msgId : Nat) (content : Text)
  | sendGroupMessage (fromId groupId msgType createTime msgId : Nat) (content : Text)

/-- The statement that is built for a request. -/
def Request.statement : Request → Option Statement
  | .doLogin name => some (.query (Statements.doLogin name))
  | .updateUserSignInfo userId now signInfo => (Statements.updateUserSignInfo userId now signInfo).map .query
  | .delOfflineFile taskId => some (.query (Statements.delOfflineFile taskId))
  | .clientAckChangeStatus taskId status => some (.query (Statements.clientAckChangeStatus taskId status))
  | .changeFileStatus taskId status _ => some (.query (Statements.changeFileStatus taskId status))
  | .saveAudioInfo fromId toId path realLen costTime createTime =>
    some (.query (Statements.saveAudioInfo fromId toId path realLen costTime createTime))
  | .addOfflineFile fromId toId taskId fileName fileSize filemd5 status now =>
    let p := Statements.addOfflineFile fromId toId taskId fileName fileSize filemd5 status now
    some (.prepared p.1 p.2)
  | .insertNewGroup userId groupName groupAvatar groupType memberCnt now =>
    let p := Statements.insertNewGroup userId groupName groupAvatar groupType memberCnt now
    some (.prepared p.1 p.2)
  | .sendMessage relateId fromId toId msgType createTime msgId content =>
    let p := Statements.sendMessage relateId fromId toId msgType createTime msgId content
    some (.prepared p.1 p.2)
  | .sendGroupMessage fromId groupId msgType createTime msgId content =>
    let p := Statements.sendGroupMessage fromId groupId msgType createTime msgId content
    some (.prepared p.1 p.2)

/-- The texts of the client, in the order in which the statement has them. -/
def Request.texts : Request → List Text
  | .doLogin v | .updateUserSignInfo _ _ v | .delOfflineFile v | .clientAckChangeStatus v _ | .changeFileStatus v _ _
  | .saveAudioInfo _ _ v _ _ _ | .sendMessage _ _ _ _ _ _ v | .sendGroupMessage _ _ _ _ _ v => [v]
  | .addOfflineFile _ _ taskId fileName _ filemd5 _ _ => [fileName, taskId, filemd5]
  | .insertNewGroup _ groupName groupAvatar _ _ _ => [groupName, groupAvatar]

/-- The same request with other texts. -/
def Request.map (f : Text → Text) : Request → Request
  | .doLogin v => .doLogin (f v)
  | .updateUserSignInfo userId now v => .updateUserSignInfo userId now (f v)
  | .delOfflineFile v => .delOfflineFile (f v)
  | .clientAckChangeStatus v status => .clientAckChangeStatus (f v) status
  | .changeFileStatus v status task => .changeFileStatus (f v) status task
  | .saveAudioInfo fromId toId v realLen costTime createTime => .saveAudioInfo fromId toId (f v) realLen costTime createTime
  | .addOfflineFile fromId toId taskId fileName fileSize filemd5 status now =>
    .addOfflineFile fromId toId (f taskId) (f fileName) fileSize (f filemd5) status now
  | .insertNewGroup userId groupName groupAvatar groupType memberCnt now =>
    .insertNewGroup userId (f groupName) (f groupAvatar) groupType memberCnt now
  | .sendMessage relateId fromId toId msgType createTime msgId v =>
    .sendMessage relateId fromId toId msgType createTime msgId (f v)
  | .sendGroupMessage fromId groupId msgType createTime msgId v => .sendGroupMessage fromId groupId msgType createTime msgId (f v)

/-! ## What MySQL makes of a statement -/

/-- The tokens. A C string ends at the first NUL. -/
def Statement.tokens : Statement → List Sql.Token
  | .query sql => Sql.lex (cStr sql)
  | .prepared sql _ => Sql.lex sql

/-- The text that a parameter binds. -/
def Param.text? : Param → Option Text
  | .int _ => none
  | .text s => some s

/-- The texts that a statement says, in its literals and in its parameters. -/
def Statement.strings : Statement → List Text
  | .query sql => Sql.values (Sql.lex (cStr sql))
  | .prepared sql params => Sql.values (Sql.lex sql) ++ params.filterMap Param.text?

/-! ## Lemmas -/

/-- The next question mark is replaced. -/
theorem replaceAt_mark {a b c : Text} (hb : '?' ∉ b) (new : Text) :
    replaceAt (a ++ (b ++ '?' :: c)) new a.length = (a ++ b ++ new ++ c, (a ++ b ++ new).length) := by
  have hfind : findMark (a ++ (b ++ '?' :: c)) a.length = some (a.length + b.length) := by
    have hnone : b.findIdx? (· = '?') = none := by
      rw [List.findIdx?_eq_none_iff]
      intro x hx
      exact decide_eq_false fun heq => hb (heq ▸ hx)
    rw [findMark, List.drop_left, List.findIdx?_append, hnone]
    simp [List.findIdx?_cons]
  have htake : (a ++ b ++ '?' :: c).take (a.length + b.length) = a ++ b := by
    rw [← List.length_append, List.take_left]
  have hdrop : (a ++ b ++ '?' :: c).drop (a.length + b.length + 1) = c := by
    rw [← List.length_append, List.drop_append]
    simp
  rw [replaceAt, hfind, ← List.append_assoc a b]
  simp only [htake, hdrop, List.length_append]

end TeamTalk.DbProxy.Statements
