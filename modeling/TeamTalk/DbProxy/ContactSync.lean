import Std.Data.TreeMap.Lemmas
import TeamTalk.Lib.Machine
import TeamTalk.Protocol.Messages

/-!
# The sync of contacts

The tables of users and departments, the sync centre's time of the last change of a user, the handlers that answer a client with
what changed, and the client. The functions that ask the tables are the same for both, but for what they ask. No storage call
fails.
-/

namespace TeamTalk.DbProxy.Contacts

open Std (TreeMap)

/-- A row of `IMUser`. -/
structure User where
  sex : Nat
  name : String
  domain : String
  nick : String
  phone : String
  email : String
  avatar : String
  signInfo : String
  departId : Nat
  status : Nat
  updated : Nat
  deriving DecidableEq, Repr

/-- A row of `IMDepart`. -/
structure Depart where
  departName : String
  priority : Nat
  parentId : Nat
  status : Nat
  updated : Nat
  deriving DecidableEq, Repr

/-- `IM::BaseDefine::DepartInfo`. -/
structure DepartInfo where
  deptId : Nat
  priority : Nat
  deptName : String
  parentDeptId : Nat
  deptStatus : Nat
  deriving DecidableEq, Repr

/-! ## Queries -/

section Queries

variable {ρ ι : Type}

/-- The loop that moves a time to the latest one of a result. -/
def latest (updated : ρ → Nat) (time : Nat) (result : List (Nat × ρ)) : Nat :=
  result.foldl (fun t e => if t < updated e.2 then updated e.2 else t) time

/-- The loop of `getChangedId` and `getChgedDeptId`: the time, and the ids. -/
def changedIds (updated : ρ → Nat) (nLastTime : Nat) (result : List (Nat × ρ)) : Nat × List Nat :=
  (latest updated nLastTime result, result.map Prod.fst)

/-- What `getUsers` and `getDepts` make of the rows with some ids. -/
def fetch (info : Nat → ρ → Option ι) (table : TreeMap Nat ρ) (lsIds : List Nat) : List ι :=
  if lsIds = [] then []
  else (table.toList.filter fun e => e.1 ∈ lsIds).filterMap fun e => info e.1 e.2

end Queries

/-- What a client is sent of a user. -/
def userInfo (id : Nat) (row : User) : UserInfo :=
  { userId := id, userGender := row.sex, userNickName := row.nick, avatarUrl := row.avatar, departmentId := row.departId,
    email := row.email, userRealName := row.name, userTel := row.phone, userDomain := row.domain, status := row.status,
    signInfo := some row.signInfo }

/-- What a client is sent of a department; `none` when `DepartmentStatusType_IsValid` does not hold of its status. -/
def departInfo (id : Nat) (row : Depart) : Option DepartInfo :=
  if row.status = 0 ∨ row.status = 1 then
    some { deptId := id, priority := row.priority, deptName := row.departName, parentDeptId := row.parentId,
           deptStatus := row.status }
  else none

/-- `CUserModel::getChangedId`. -/
def getChangedId (users : TreeMap Nat User) (nLastTime : Nat) : Nat × List Nat :=
  changedIds User.updated nLastTime (users.toList.filter fun e =>
    if nLastTime = 0 then e.2.status ≠ 3 else nLastTime ≤ e.2.updated)

/-- `CUserModel::getUsers`. -/
def getUsers (users : TreeMap Nat User) (lsIds : List Nat) : List UserInfo :=
  fetch (fun id row => some (userInfo id row)) users lsIds

/-- `CDepartModel::getChgedDeptId`. -/
def getChgedDeptId (departs : TreeMap Nat Depart) (nLastTime : Nat) : Nat × List Nat :=
  changedIds Depart.updated nLastTime (departs.toList.filter fun e => nLastTime < e.2.updated ∧ e.2.status = 0)

/-- `CDepartModel::getDepts`. -/
def getDepts (departs : TreeMap Nat Depart) (lsDeptIds : List Nat) : List DepartInfo := fetch departInfo departs lsDeptIds

/-- The part of a cycle of `doSyncGroupChat` that looks for `SycLastUpdate`. -/
def sycLastUpdate (users : TreeMap Nat User) (lastUpdate : Nat) : Nat :=
  latest User.updated lastUpdate (users.toList.filter fun e => e.2.status = 0 ∧ lastUpdate ≤ e.2.updated)

/-! ## A client and the server -/

/-- A client, with what it has got; and its request, when the server has looked for the ids and not yet for the rows. -/
structure Client (ι : Type) where
  latestUpdateTime : Nat
  copy : Nat → Option ι
  asked : Option (Nat × List Nat)

/-- A new client. -/
def Client.init (ι : Type) : Client ι := { latestUpdateTime := 0, copy := fun _ => none, asked := none }

/-- The client puts what it gets over what it has. -/
def receive {ι : Type} (key : ι → Nat) (infos : List ι) (copy : Nat → Option ι) (id : Nat) : Option ι :=
  (infos.find? fun info => key info = id).or (copy id)

/-- The client gets an answer. -/
def Client.answer {ι : Type} (client : Client ι) (key : ι → Nat) (time : Nat) (infos : List ι) : Client ι :=
  { latestUpdateTime := time, copy := receive key infos client.copy, asked := none }

/-- The clock; the tables; `m_nLastUpdate`, and what a cycle under way has found; and a client of each kind. -/
structure State where
  now : Nat
  users : TreeMap Nat User
  departs : TreeMap Nat Depart
  lastUpdate : Nat
  cycle : Option Nat
  userClient : Client UserInfo
  departClient : Client DepartInfo

/-- `IMAllUserRsp` and `IMDepartmentRsp`. -/
inductive Response where
  | allUser (latestUpdateTime : Nat) (userList : List UserInfo)
  | department (latestUpdateTime : Nat) (deptList : List DepartInfo)
  deriving DecidableEq, Repr

/-- What can happen: time passes; a row is set; a cycle begins or ends; a request comes in, or is answered. -/
inductive Event where
  | tick (now : Nat)
  | updateUser (id : Nat) (row : User)
  | updateDepart (id : Nat) (row : Depart)
  | cycleBegin
  | cycleEnd
  | userRequest
  | userAnswer
  | departRequest
  | departAnswer

/-- Before there is a row. The clock does not start at zero. -/
def State.init (lastUpdate : Nat) : State :=
  { now := 1, users := ∅, departs := ∅, lastUpdate, cycle := none, userClient := Client.init UserInfo,
    departClient := Client.init DepartInfo }

/-- The first half of `getChangedUser`. -/
def changedUsers (s : State) (nLastTime : Nat) : Nat × List Nat :=
  if s.lastUpdate > nLastTime then getChangedId s.users nLastTime else (nLastTime, [])

/-- One step. -/
def State.step (s : State) : Event → Option (State × List Response)
  | .tick now => if s.now ≤ now then some ({ s with now }, []) else none
  | .updateUser id row => some ({ s with users := s.users.insert id { row with updated := s.now } }, [])
  | .updateDepart id row => some ({ s with departs := s.departs.insert id { row with updated := s.now } }, [])
  | .cycleBegin =>
    match s.cycle with
    | none => some ({ s with cycle := some (sycLastUpdate s.users s.lastUpdate) }, [])
    | some _ => none
  | .cycleEnd =>
    match s.cycle with
    | none => none
    | some nUpdated => some ({ s with lastUpdate := nUpdated, cycle := none }, [])
  | .userRequest =>
    match s.userClient.asked with
    | none =>
      some ({ s with userClient := { s.userClient with asked := some (changedUsers s s.userClient.latestUpdateTime) } }, [])
    | some _ => none
  | .userAnswer =>
    match s.userClient.asked with
    | none => none
    | some (nLastTime, lsIds) =>
      let lsUsers := getUsers s.users lsIds
      some ({ s with userClient := s.userClient.answer UserInfo.userId nLastTime lsUsers }, [.allUser nLastTime lsUsers])
  | .departRequest =>
    match s.departClient.asked with
    | none =>
      some ({ s with departClient := { s.departClient with
        asked := some (getChgedDeptId s.departs s.departClient.latestUpdateTime) } }, [])
    | some _ => none
  | .departAnswer =>
    match s.departClient.asked with
    | none => none
    | some (nLastTime, lsChangedIds) =>
      let lsDeparts := getDepts s.departs lsChangedIds
      some ({ s with departClient := s.departClient.answer DepartInfo.deptId nLastTime lsDeparts },
        [.department nLastTime lsDeparts])

/-! ## What the queries give -/

namespace ContactsAux

section Queries

variable {ρ ι : Type} {updated : ρ → Nat} {table : TreeMap Nat ρ}

/-- The latest time is later than another when the first one is, or one of the result. -/
theorem lt_latest_iff {t time : Nat} {result : List (Nat × ρ)} :
    t < latest updated time result ↔ t < time ∨ ∃ e ∈ result, t < updated e.2 := by
  unfold latest
  induction result generalizing time with
  | nil => simp
  | cons e result ih =>
    rw [List.foldl_cons, ih]
    split
    next hlt =>
      simp only [List.mem_cons, exists_eq_or_imp]
      constructor
      · rintro (h | h)
        · exact .inr (.inl h)
        · exact .inr (.inr h)
      · rintro (h | h | h)
        · exact .inl (h.trans hlt)
        · exact .inl h
        · exact .inr h
    next hle =>
      simp only [List.mem_cons, exists_eq_or_imp]
      constructor
      · rintro (h | h)
        · exact .inl h
        · exact .inr (.inr h)
      · rintro (h | h | h)
        · exact .inl h
        · exact .inl (h.trans_le (not_lt.1 hle))
        · exact .inr h

theorem le_latest (updated : ρ → Nat) (time : Nat) (result : List (Nat × ρ)) : time ≤ latest updated time result :=
  not_lt.1 fun h => lt_irrefl _ (lt_latest_iff.2 (.inl h))

theorem latest_le {time n : Nat} {result : List (Nat × ρ)} (htime : time ≤ n) (h : ∀ e ∈ result, updated e.2 ≤ n) :
    latest updated time result ≤ n := by
  refine not_lt.1 fun hlt => ?_
  rcases lt_latest_iff.1 hlt with hlater | ⟨e, he, hlater⟩
  · omega
  · have := h e he
    omega

/-- The ids of the rows of a table that pass a test. -/
theorem mem_changedIds {time id : Nat} {p : Nat × ρ → Bool} :
    id ∈ (changedIds updated time (table.toList.filter p)).2 ↔ ∃ row, table[id]? = some row ∧ p (id, row) = true := by
  rw [changedIds, List.mem_map]
  constructor
  · rintro ⟨⟨id, row⟩, hmem, rfl⟩
    obtain ⟨hrow, hp⟩ := List.mem_filter.1 hmem
    exact ⟨row, TreeMap.mem_toList_iff_getElem?_eq_some.1 hrow, hp⟩
  · rintro ⟨row, hrow, hp⟩
    exact ⟨(id, row), List.mem_filter.2 ⟨TreeMap.mem_toList_iff_getElem?_eq_some.2 hrow, hp⟩, rfl⟩

/-- What a client has of a row after an answer: what the table gives, when it was asked for and is valid, or what it had. -/
theorem receive_fetch {info : Nat → ρ → Option ι} {key : ι → Nat} (hkey : ∀ id row i, info id row = some i → key i = id)
    (copy : Nat → Option ι) (lsIds : List Nat) (id : Nat) :
    receive key (fetch info table lsIds) copy id =
      (if id ∈ lsIds then (table[id]?).bind (info id) else none).or (copy id) := by
  rw [receive]
  congr 1
  rw [fetch]
  split
  next hnil => simp [hnil]
  next =>
    cases hfind : List.find? (fun i => decide (key i = id))
      ((table.toList.filter fun e => e.1 ∈ lsIds).filterMap fun e => info e.1 e.2) with
    | some i =>
      have hid : key i = id := by simpa using List.find?_some hfind
      obtain ⟨⟨id', row⟩, hmem, hinfo⟩ := List.mem_filterMap.1 (List.mem_of_find?_eq_some hfind)
      obtain ⟨hrow, hasked⟩ := List.mem_filter.1 hmem
      obtain rfl : id' = id := (hkey id' row i hinfo).symm.trans hid
      rw [if_pos (by simpa using hasked), TreeMap.mem_toList_iff_getElem?_eq_some.1 hrow, Option.bind_some, hinfo]
    | none =>
      split
      next hasked =>
        cases hrow : table[id]? with
        | none => rfl
        | some row =>
          rw [Option.bind_some]
          cases hinfo : info id row with
          | none => rfl
          | some i =>
            have hmem : i ∈ (table.toList.filter fun e => e.1 ∈ lsIds).filterMap fun e => info e.1 e.2 :=
              List.mem_filterMap.2 ⟨(id, row), List.mem_filter.2
                ⟨TreeMap.mem_toList_iff_getElem?_eq_some.2 hrow, by simpa using hasked⟩, hinfo⟩
            exact absurd (hkey id row i hinfo) (by simpa using List.find?_eq_none.1 hfind i hmem)
      next => rfl

end Queries

/-- A cycle finds a time later than another when the last one was later, or a user of status zero changed later. -/
theorem lt_sycLastUpdate_iff {users : TreeMap Nat User} {t lastUpdate : Nat} : t < sycLastUpdate users lastUpdate ↔
    t < lastUpdate ∨ ∃ (id : Nat) (row : User), users[id]? = some row ∧ row.status = 0 ∧ t < row.updated := by
  rw [sycLastUpdate, lt_latest_iff]
  constructor
  · rintro (h | ⟨⟨id, row⟩, hmem, h⟩)
    · exact .inl h
    · obtain ⟨hrow, hp⟩ := List.mem_filter.1 hmem
      exact .inr ⟨id, row, TreeMap.mem_toList_iff_getElem?_eq_some.1 hrow, (of_decide_eq_true hp).1, h⟩
  · rintro (h | ⟨id, row, hrow, hstatus, h⟩)
    · exact .inl h
    · by_cases hle : lastUpdate ≤ row.updated
      · exact .inr ⟨(id, row), List.mem_filter.2
          ⟨TreeMap.mem_toList_iff_getElem?_eq_some.2 hrow, decide_eq_true ⟨hstatus, hle⟩⟩, h⟩
      · exact .inl (h.trans (not_le.1 hle))

end ContactsAux

end TeamTalk.DbProxy.Contacts
