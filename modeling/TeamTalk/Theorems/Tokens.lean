import Mathlib
import TeamTalk.DbProxy.DeviceToken
import TeamTalk.MsgServer.Requests
import TeamTalk.MsgServer.Closing

/-!
# Whose token

A device token belongs to the user who was the last to register it, until he registers another one or logs out from a mobile
client. The DB proxy returns it for him and for nobody else, in every run in which a token that another user still has is not
registered, and a PC client does not log out while its user has a token.
-/

namespace TeamTalk.DbProxy

/-- A mobile client of the user registers the token. -/
def TokenEvent.Registers (e : TokenEvent) (u : Nat) (token : Text) : Prop :=
  match e with
  | .deviceToken userId clientType msg => checkClientTypeMobile clientType = true ∧ userId = u ∧ msg.deviceToken.toList = token
  | .loginOut _ _ => False

/-- A mobile client of the user logs out. -/
def TokenEvent.LogsOut (e : TokenEvent) (u : Nat) : Prop :=
  match e with
  | .deviceToken _ _ _ => False
  | .loginOut userId clientType => checkClientTypeMobile clientType = true ∧ userId = u

/-- After this the token is no longer the user's. -/
def TokenEvent.Ends (e : TokenEvent) (u : Nat) (token : Text) : Prop :=
  (∃ v, v ≠ u ∧ e.Registers v token) ∨ (∃ token', token' ≠ token ∧ e.Registers u token') ∨ e.LogsOut u

/-- The token belongs to the user. -/
def Holds (log : List TokenEvent) (u : Nat) (token : Text) : Prop :=
  ∃ pre e post, log = pre ++ e :: post ∧ e.Registers u token ∧ ∀ e' ∈ post, ¬e'.Ends u token

/-- User ids and client types are those of a login; a token is not empty, and not a number. -/
def TokenEvent.Named : TokenEvent → Prop
  | .deviceToken userId clientType msg => userId < uint32Size ∧ clientTypeIsValid clientType = true ∧
      msg.deviceToken.toList ≠ [] ∧ msg.deviceToken.toList.all Char.isDigit = false
  | .loginOut userId clientType => userId < uint32Size ∧ clientTypeIsValid clientType = true

/-- The tokens that are returned for users whose shield is not set are those that belong to them. -/
def TokensOwned (log : List TokenEvent) (cache : Cache) : Prop :=
  ∀ (env : PushEnv) (msg : IMGetDeviceTokenReq), (∀ u, env.getPushShield u ≠ 1) → (∀ u ∈ msg.userId, u < uint32Size) →
    (∀ u ∈ msg.userId, ∀ token, (∃ info ∈ (getDevicesToken env true cache msg).userTokenInfo, info.userId = u ∧
      info.token = token) ↔ Holds log u token) ∧
    ∀ info ∈ (getDevicesToken env true cache msg).userTokenInfo, ∀ info' ∈ (getDevicesToken env true cache msg).userTokenInfo,
      info.token = info'.token → info.userId = info'.userId

/-- The token that is stored for a user. -/
def tokenOf (cache : Cache) (u : Nat) : Option Text := (splitColon (cache.get (deviceKey (int2string u)))).map Prod.snd

/-- The condition on an event. -/
def TokensMeet (cache : Cache) : TokenEvent → Prop
  | .deviceToken userId clientType msg => checkClientTypeMobile clientType = true →
      '\x00' ∉ msg.deviceToken.toList ∧ ∀ v, v ≠ userId → tokenOf cache v ≠ some msg.deviceToken.toList
  | .loginOut userId clientType => checkClientTypeMobile clientType = false → tokenOf cache userId = none

/-- Every run whose events all meet `ok` returns each token for its user only. -/
def TokensKept (ok : Cache → TokenEvent → Prop) : Prop :=
  ∀ log cache, Machine.Run tokenStep (fun cache e => e.Named ∧ ok cache e) (fun _ => none) log cache → TokensOwned log cache

namespace TokensAux

/-! ## The requests of msg_server -/

/-- The request that goes to the DB proxy. -/
def toDb : Effect → Option IMDeviceTokenReq
  | .send _ .db pdu =>
    match pdu.body with
    | .imDeviceTokenReq msg => some msg
    | _ => none
  | _ => none

/-- The handler of msg_server sends it to the DB proxy. -/
theorem sent_deviceTokenReq {s : Server} {c : ConnId} {conn : MsgConn} {pdu : Pdu} {msg : IMDeviceTokenReq}
    (hc : s.conns c = some conn) (hlive : conn.refCount ≠ 0) (hdb : s.getDbServConn = true)
    (hbody : pdu.body = .imDeviceTokenReq msg) :
    ((handleClientDeviceToken c pdu).run s).out.filterMap toDb = (deviceTokenReq conn.userId conn.clientType msg).toList := by
  rw [handleClientDeviceToken, Action.run_bind_nil (run_getConn hc hlive), deviceTokenReq]
  cases checkClientTypeMobile conn.clientType with
  | false => rfl
  | true =>
    simp only [hbody, if_true, Action.run_bind_ok (run_sendClient c c _ s), run_sendDb, hdb]
    rfl

/-- So does the handler of a logout, before anything else. -/
theorem sent_loginOutReq {s : Server} {c : ConnId} {conn : MsgConn} {pdu : Pdu} (hc : s.conns c = some conn)
    (hlive : conn.refCount ≠ 0) (hdb : s.getDbServConn = true) :
    ((handleLoginOutRequest c pdu).run s).out.head?.bind toDb = some (loginOutReq conn.userId) := by
  rw [handleLoginOutRequest, Action.run_bind_nil (run_getConn hc hlive)]
  rw [Action.run_bind_ok (run_sendDb c _ s), if_pos hdb]
  rfl

/-! ## Whose token it is -/

/-- A registration names one user and one token. -/
theorem registers_inj {e : TokenEvent} {u v : Nat} {token token' : Text} (h : e.Registers u token) (h' : e.Registers v token') :
    u = v ∧ token = token' := by
  cases e with
  | deviceToken userId clientType msg =>
    obtain ⟨-, rfl, rfl⟩ := h
    obtain ⟨-, rfl, rfl⟩ := h'
    exact ⟨rfl, rfl⟩
  | loginOut userId clientType => exact h.elim

/-- One event more. -/
theorem holds_snoc (log : List TokenEvent) (e : TokenEvent) (u : Nat) (token : Text) :
    Holds (log ++ [e]) u token ↔ e.Registers u token ∨ (Holds log u token ∧ ¬e.Ends u token) := by
  constructor
  · rintro ⟨pre, e1, post, hlog, hreg, hkept⟩
    cases post using List.reverseRecOn with
    | nil =>
      obtain ⟨rfl, he⟩ := List.append_inj' hlog rfl
      obtain rfl := List.singleton_inj.1 he
      exact .inl hreg
    | append_singleton post e2 =>
      rw [← List.cons_append, ← List.append_assoc] at hlog
      obtain ⟨rfl, he⟩ := List.append_inj' hlog rfl
      obtain rfl := List.singleton_inj.1 he
      refine .inr ⟨⟨pre, e1, post, rfl, hreg, fun e' he' => hkept e' (List.mem_append_left _ he')⟩, hkept e ?_⟩
      exact List.mem_append_right _ (List.mem_singleton_self e)
  · rintro (hreg | ⟨⟨pre, e1, post, rfl, hreg, hkept⟩, hends⟩)
    · exact ⟨log, e, [], rfl, hreg, fun _ he' => by cases he'⟩
    · refine ⟨pre, e1, post ++ [e], by rw [List.append_assoc, List.cons_append], hreg, fun e' he' => ?_⟩
      rcases List.mem_append.1 he' with hpost | hlast
      · exact hkept e' hpost
      · rw [List.mem_singleton.1 hlast]
        exact hends

/-- A token has one user. -/
theorem holds_unique {log : List TokenEvent} {u v : Nat} {token : Text} (hu : Holds log u token) (hv : Holds log v token) :
    u = v := by
  induction log using List.reverseRecOn with
  | nil =>
    obtain ⟨pre, e, post, hlog, -⟩ := hu
    cases List.append_ne_nil_of_right_ne_nil pre (List.cons_ne_nil e post) hlog.symm
  | append_singleton log e ih =>
    by_contra hne
    rcases (holds_snoc log e u token).1 hu with hru | ⟨hu, hendu⟩
    · rcases (holds_snoc log e v token).1 hv with hrv | ⟨-, hendv⟩
      · exact hne (registers_inj hru hrv).1
      · exact hendv (.inl ⟨u, hne, hru⟩)
    · rcases (holds_snoc log e v token).1 hv with hrv | ⟨hv, -⟩
      · exact hendu (.inl ⟨v, Ne.symm hne, hrv⟩)
      · exact hne (ih hu hv)

/-! ## Keys -/

/-- A text without a NUL is its own C string. -/
theorem cStr_eq {s : Text} (h : '\x00' ∉ s) : cStr s = s := by
  rw [cStr, List.takeWhile_eq_self_iff]
  intro c hc
  refine decide_eq_true ?_
  rintro rfl
  exact h hc

/-- A numeral has digits only. -/
theorem isDigit_int2string {n : Nat} {c : Char} (h : c ∈ int2string n) : c.isDigit = true :=
  Nat.isDigit_of_mem_toDigits (by decide) (by decide) h

/-- Two numbers have different numerals. -/
theorem int2string_inj {m n : Nat} (h : int2string m = int2string n) : m = n := by
  rw [← Nat.ofDigitChars_ten_toDigits (n := m), ← Nat.ofDigitChars_ten_toDigits (n := n)]
  exact congrArg (fun s => Nat.ofDigitChars 10 s 0) h

/-- The id is read back from its text. -/
theorem string2int_int2string {n : Nat} (h : n < uint32Size) : string2int (int2string n) = n := by
  have htake : (int2string n).takeWhile Char.isDigit = int2string n :=
    List.takeWhile_eq_self_iff.2 fun c hc => isDigit_int2string hc
  rw [string2int, htake, int2string, Nat.ofDigitChars_ten_toDigits]
  exact Nat.mod_eq_of_lt h

/-- A text that is no user's: it is not a number, and is written to the end. -/
structure NoUser (s : Text) : Prop where
  notNumber : s.all Char.isDigit = false ∨ s = []
  noNul : '\x00' ∉ s

/-- A key without a NUL is its own C string. -/
theorem cStr_deviceKey {s : Text} (h : '\x00' ∉ s) : cStr (deviceKey s) = deviceKey s := by
  refine cStr_eq fun hmem => ?_
  rcases List.mem_append.1 hmem with hdevice | hs
  · exact absurd hdevice (by decide)
  · exact h hs

/-- A numeral has no NUL. -/
theorem noNul_int2string (n : Nat) : '\x00' ∉ int2string n := fun h => absurd (isDigit_int2string h) (by decide)

/-- A token that is no user's number has another key than every user. -/
theorem deviceKey_ne {s : Text} (h : NoUser s) (n : Nat) : deviceKey (int2string n) ≠ deviceKey s := by
  intro heq
  have hs : int2string n = s := List.append_cancel_left heq
  rcases h.notNumber with hdigits | hnil
  · rw [← hs, List.all_eq_false] at hdigits
    obtain ⟨c, hc, hdigit⟩ := hdigits
    exact hdigit (isDigit_int2string hc)
  · exact Nat.toDigits_ne_nil (hs.trans hnil)

/-- Storing the user of a token changes no user's token. -/
theorem set_token {cache : Cache} {s value : Text} (h : NoUser s) (n : Nat) :
    cache.set (deviceKey s) value (deviceKey (int2string n)) = cache (deviceKey (int2string n)) := by
  rw [Cache.set, cStr_deviceKey h.noNul, if_neg (deviceKey_ne h n)]

/-- What the users' keys hold after one is set. -/
theorem set_user (cache : Cache) (u n : Nat) (value : Text) :
    cache.set (deviceKey (int2string u)) value (deviceKey (int2string n)) =
      if n = u then some (cStr value) else cache (deviceKey (int2string n)) := by
  rw [Cache.set, cStr_deviceKey (noNul_int2string u)]
  by_cases heq : n = u
  · rw [if_pos heq, if_pos (heq ▸ rfl)]
  · have hkey : deviceKey (int2string n) ≠ deviceKey (int2string u) := fun hkey =>
      heq (int2string_inj (List.append_cancel_left hkey))
    rw [if_neg heq, if_neg hkey]

/-- And what one of them gives. -/
theorem get_user (cache : Cache) (u : Nat) :
    cache.get (deviceKey (int2string u)) = (cache (deviceKey (int2string u))).getD [] := by
  rw [Cache.get, cStr_deviceKey (noNul_int2string u)]

/-! ## Values -/

/-- A client type that stores a token. -/
def Stores (type : Nat) : Prop := type = clientTypeIos ∨ type = clientTypeAndroid

/-- A mobile type is stored. -/
theorem stores_of_mobile {type : Nat} (hvalid : clientTypeIsValid type = true) (h : checkClientTypeMobile type = true) :
    Stores type := by
  rcases of_decide_eq_true hvalid with rfl | rfl | hios | handroid
  · exact absurd h (by decide)
  · exact absurd h (by decide)
  · exact .inl hios
  · exact .inr handroid

/-- The name of a client type. -/
def typeName (type : Nat) : Text := if type = clientTypeIos then "ios".toList else "android".toList

/-- A stored value splits into its type and token. -/
theorem splitColon_tokenValue {type : Nat} (h : Stores type) (token : Text) :
    splitColon (tokenValue type token) = some (typeName type, token) := by
  rcases h with rfl | rfl
  · simp [splitColon, tokenValue, typeName, List.takeWhile, List.dropWhile]
  · simp [splitColon, tokenValue, typeName, clientTypeIos, clientTypeAndroid, List.takeWhile, List.dropWhile]

/-- And has no NUL where its token has none. -/
theorem noNul_tokenValue {type : Nat} (h : Stores type) {token : Text} (htoken : '\x00' ∉ token) :
    '\x00' ∉ tokenValue type token := by
  have happend : ∀ pre : Text, '\x00' ∉ pre → '\x00' ∉ pre ++ token := fun pre hpre hmem =>
    (List.mem_append.1 hmem).elim hpre htoken
  rcases h with rfl | rfl
  · exact happend _ (by decide)
  · exact happend _ (by decide)

/-! ## The invariant -/

/-- What is stored for a user is the token that belongs to him. -/
structure Inv (log : List TokenEvent) (cache : Cache) : Prop where
  value : ∀ u v, cache (deviceKey (int2string u)) = some v → v = [] ∨
    ∃ type token, Stores type ∧ NoUser token ∧ v = tokenValue type token ∧ Holds log u token
  holds : ∀ u token, Holds log u token → ∃ type, Stores type ∧ cache (deviceKey (int2string u)) = some (tokenValue type token)

/-- The invariant holds of an empty cache. -/
theorem inv_start : Inv [] fun _ => none := by
  refine ⟨fun _ _ hv => (by cases hv), ?_⟩
  rintro u token ⟨pre, e, post, hlog, -⟩
  exact absurd hlog.symm (List.append_ne_nil_of_right_ne_nil pre (List.cons_ne_nil e post))

/-- The token that is stored for a user belongs to him. -/
theorem tokenOf_eq_some {log : List TokenEvent} {cache : Cache} (h : Inv log cache) (u : Nat) (token : Text) :
    tokenOf cache u = some token ↔ Holds log u token := by
  rw [tokenOf, get_user]
  constructor
  · intro htoken
    cases hv : cache (deviceKey (int2string u)) with
    | none =>
      rw [hv] at htoken
      cases htoken
    | some v =>
      rw [hv] at htoken
      rcases h.value u v hv with rfl | ⟨type, token', hstores, -, rfl, hholds⟩
      · cases htoken
      · rw [Option.getD_some, splitColon_tokenValue hstores] at htoken
        obtain rfl := Option.some.inj htoken
        exact hholds
  · intro hholds
    obtain ⟨type, hstores, hv⟩ := h.holds u token hholds
    rw [hv, Option.getD_some, splitColon_tokenValue hstores]
    rfl

/-- A request changes what is stored for its user, and for nobody else. -/
theorem setDevicesToken_user {log : List TokenEvent} {cache : Cache} (h : Inv log cache) (msg : IMDeviceTokenReq)
    (htoken : NoUser msg.deviceToken.toList) (n : Nat) :
    (setDevicesToken true cache msg).1 (deviceKey (int2string n)) = if n = msg.userId
      then some (cStr (tokenValue (msg.clientType.getD clientTypeWindows) msg.deviceToken.toList))
      else cache (deviceKey (int2string n)) := by
  have hold : releaseOld cache (cache.get (deviceKey (int2string msg.userId))) (deviceKey (int2string n)) =
      cache (deviceKey (int2string n)) := by
    unfold releaseOld
    split
    · cases hsplit : splitColon (cache.get (deviceKey (int2string msg.userId))) with
      | none => rfl
      | some pair =>
        obtain ⟨type, token⟩ := pair
        -- the old token is no user's key
        have hplain : NoUser token := by
          rw [get_user] at hsplit
          cases hv : cache (deviceKey (int2string msg.userId)) with
          | none =>
            rw [hv] at hsplit
            cases hsplit
          | some v =>
            rw [hv, Option.getD_some] at hsplit
            rcases h.value msg.userId v hv with rfl | ⟨type', token', hstores, hplain, rfl, -⟩
            · cases hsplit
            · rw [splitColon_tokenValue hstores] at hsplit
              obtain ⟨-, rfl⟩ := Prod.mk.inj (Option.some.inj hsplit)
              exact hplain
        dsimp only
        split
        · exact set_token hplain n
        · rfl
    · rfl
  rw [setDevicesToken, if_pos rfl]
  change Cache.set _ _ _ _ = _
  rw [set_token htoken, set_user, hold]

/-! ## Steps -/

/-- A mobile client registers a token that nobody else has. -/
theorem inv_registered {log : List TokenEvent} {cache : Cache} (h : Inv log cache) {userId clientType : Nat}
    {msg : IMDeviceTokenReq} (hmobile : checkClientTypeMobile clientType = true)
    (hnamed : (TokenEvent.deviceToken userId clientType msg).Named) (hnul : '\x00' ∉ msg.deviceToken.toList)
    (hfree : ∀ v, v ≠ userId → tokenOf cache v ≠ some msg.deviceToken.toList) :
    Inv (log ++ [.deviceToken userId clientType msg])
      (setDevicesToken true cache { msg with userId, clientType := some clientType }).1 := by
  obtain ⟨-, hvalid, -, hnumber⟩ := hnamed
  have hplain : NoUser msg.deviceToken.toList := ⟨.inl hnumber, hnul⟩
  have hstores := stores_of_mobile hvalid hmobile
  have huser := setDevicesToken_user h { msg with userId, clientType := some clientType } hplain
  simp only [Option.getD_some, cStr_eq (noNul_tokenValue hstores hnul)] at huser
  refine ⟨fun v value hvalue => ?_, fun v token hholds => ?_⟩
  · rw [huser] at hvalue
    split at hvalue
    · rename_i heq
      obtain rfl := Option.some.inj hvalue
      exact .inr ⟨clientType, _, hstores, hplain, rfl, (holds_snoc ..).2 (.inl ⟨hmobile, heq.symm, rfl⟩)⟩
    · rename_i hne
      rcases h.value v value hvalue with rfl | ⟨type, token, hstores', hplain', rfl, hholds⟩
      · exact .inl rfl
      · refine .inr ⟨type, token, hstores', hplain', rfl, (holds_snoc ..).2 (.inr ⟨hholds, ?_⟩)⟩
        rintro (⟨v', -, -, -, heq⟩ | ⟨token', -, -, heq, -⟩ | hout)
        · have hfree' := hfree v hne
          rw [heq] at hfree'
          exact hfree' ((tokenOf_eq_some h v token).2 hholds)
        · exact hne heq.symm
        · exact hout.elim
  · rw [huser]
    rcases (holds_snoc ..).1 hholds with ⟨-, rfl, rfl⟩ | ⟨hholds, hends⟩
    · rw [if_pos rfl]
      exact ⟨clientType, hstores, rfl⟩
    · by_cases heq : v = userId
      · subst heq
        have hsame : msg.deviceToken.toList = token := by
          by_contra hne
          exact hends (.inr (.inl ⟨_, hne, hmobile, rfl, rfl⟩))
        rw [if_pos rfl, hsame]
        exact ⟨clientType, hstores, rfl⟩
      · rw [if_neg heq]
        exact h.holds v token hholds

/-- A logout clears what is stored for the user; a PC client's user has nothing stored. -/
theorem inv_loggedOut {log : List TokenEvent} {cache : Cache} (h : Inv log cache) {userId clientType : Nat}
    (hpc : checkClientTypeMobile clientType = false → tokenOf cache userId = none) :
    Inv (log ++ [.loginOut userId clientType]) (setDevicesToken true cache (loginOutReq userId)).1 := by
  have huser := setDevicesToken_user h (loginOutReq userId) ⟨.inr rfl, List.not_mem_nil⟩
  have hempty : cStr (tokenValue ((loginOutReq userId).clientType.getD clientTypeWindows) (loginOutReq userId).deviceToken.toList) =
      [] := rfl
  rw [hempty] at huser
  refine ⟨fun v value hvalue => ?_, fun v token hholds => ?_⟩
  · rw [huser] at hvalue
    split at hvalue
    · exact .inl (Option.some.inj hvalue).symm
    · rename_i hne
      rcases h.value v value hvalue with rfl | ⟨type, token, hstores, hplain, rfl, hholds⟩
      · exact .inl rfl
      · refine .inr ⟨type, token, hstores, hplain, rfl, (holds_snoc ..).2 (.inr ⟨hholds, ?_⟩)⟩
        rintro (⟨v', -, hreg⟩ | ⟨token', -, hreg⟩ | ⟨-, heq⟩)
        · exact hreg.elim
        · exact hreg.elim
        · exact hne heq.symm
  · rw [huser]
    rcases (holds_snoc ..).1 hholds with hreg | ⟨hbefore, hends⟩
    · exact hreg.elim
    · have hne : v ≠ userId := by
        rintro rfl
        cases hmobile : checkClientTypeMobile clientType with
        | true => exact hends (.inr (.inr ⟨hmobile, rfl⟩))
        | false =>
          have hnone := hpc hmobile
          rw [(tokenOf_eq_some h v token).2 hbefore] at hnone
          cases hnone
      rw [show (loginOutReq userId).userId = userId from rfl, if_neg hne]
      exact h.holds v token hbefore

/-- A PC client's token is not passed on. -/
theorem inv_ignored {log : List TokenEvent} {cache : Cache} (h : Inv log cache) {userId clientType : Nat}
    {msg : IMDeviceTokenReq} (hpc : checkClientTypeMobile clientType = false) :
    Inv (log ++ [.deviceToken userId clientType msg]) cache := by
  have hno : ∀ u token, ¬(TokenEvent.deviceToken userId clientType msg).Registers u token := by
    rintro u token ⟨hmobile, -⟩
    rw [hpc] at hmobile
    cases hmobile
  have hsame : ∀ u token, Holds (log ++ [.deviceToken userId clientType msg]) u token ↔ Holds log u token := by
    intro u token
    rw [holds_snoc]
    constructor
    · rintro (hreg | ⟨hholds, -⟩)
      · exact absurd hreg (hno u token)
      · exact hholds
    · intro hholds
      refine .inr ⟨hholds, ?_⟩
      rintro (⟨v, -, hreg⟩ | ⟨token', -, hreg⟩ | hout)
      · exact hno v token hreg
      · exact hno u token' hreg
      · exact hout
  refine ⟨fun u v hv => ?_, fun u token hholds => h.holds u token ((hsame u token).1 hholds)⟩
  rcases h.value u v hv with hnil | ⟨type, token, hstores, hplain, hvalue, hholds⟩
  · exact .inl hnil
  · exact .inr ⟨type, token, hstores, hplain, hvalue, (hsame u token).2 hholds⟩

/-- Each registration and logout keeps it. -/
theorem inv_step {log out : List TokenEvent} {cache cache' : Cache} {e : TokenEvent} (h : Inv log cache) (hnamed : e.Named)
    (hok : TokensMeet cache e) (hstep : tokenStep cache e = some (cache', out)) : Inv (log ++ out) cache' := by
  cases e with
  | deviceToken userId clientType msg =>
    cases hmobile : checkClientTypeMobile clientType with
    | true =>
      simp only [tokenStep, TokenEvent.req, deviceTokenReq, hmobile, if_true] at hstep
      obtain ⟨rfl, rfl⟩ := Prod.mk.inj (Option.some.inj hstep)
      obtain ⟨hnul, hfree⟩ := hok hmobile
      exact inv_registered h hmobile hnamed hnul hfree
    | false =>
      simp only [tokenStep, TokenEvent.req, deviceTokenReq, hmobile, Bool.false_eq_true, if_false] at hstep
      obtain ⟨rfl, rfl⟩ := Prod.mk.inj (Option.some.inj hstep)
      exact inv_ignored h hmobile
  | loginOut userId clientType =>
    simp only [tokenStep, TokenEvent.req] at hstep
    obtain ⟨rfl, rfl⟩ := Prod.mk.inj (Option.some.inj hstep)
    exact inv_loggedOut h hok

/-! ## What is returned -/

/-- The entry of a user. -/
theorem userTokenInfo_user {env : PushEnv} (hshield : ∀ u, env.getPushShield u ≠ 1) {u : Nat} (hu : u < uint32Size) {type : Nat}
    (hstores : Stores type) (token : Text) :
    userTokenInfo env (deviceKey (int2string u), tokenValue type token) =
      some { userId := u, userType := type, token, pushCount := env.getUnReadCntAll u, pushType := 1 } := by
  have hdrop : (deviceKey (int2string u)).drop "device_".length = int2string u := rfl
  have hcheck : ¬(typeName type = "ios".toList ∧ env.isCheckShieldStatus = true ∧ env.getPushShield u = 1) :=
    fun h => hshield u h.2.2
  simp only [userTokenInfo, splitColon_tokenValue hstores, hdrop, string2int_int2string hu, if_neg hcheck]
  rcases hstores with rfl | rfl
  · rfl
  · rfl

/-- A token that is stored is returned. -/
theorem mem_of_stored {env : PushEnv} (hshield : ∀ u, env.getPushShield u ≠ 1) {cache : Cache} {msg : IMGetDeviceTokenReq}
    {u : Nat} (hmem : u ∈ msg.userId) (hu : u < uint32Size) {type : Nat} (hstores : Stores type)
    (token : Text) (hnul : '\x00' ∉ token) (hv : cache (deviceKey (int2string u)) = some (tokenValue type token)) :
    ⟨u, type, token, env.getUnReadCntAll u, 1⟩ ∈ (getDevicesToken env true cache msg).userTokenInfo := by
  rw [getDevicesToken, if_pos rfl]
  refine List.mem_filterMap.2 ⟨(deviceKey (int2string u), tokenValue type token), List.mem_filterMap.2
    ⟨deviceKey (int2string u), ?_, ?_⟩, userTokenInfo_user hshield hu hstores token⟩
  · rw [List.mem_mergeSort, List.mem_dedup]
    exact List.mem_map_of_mem hmem
  · rw [hv, Option.map_some, cStr_eq (noNul_tokenValue hstores hnul)]

/-- A token that is returned belongs to the user. -/
theorem holds_of_mem {log : List TokenEvent} {cache : Cache} (h : Inv log cache) {env : PushEnv}
    (hshield : ∀ u, env.getPushShield u ≠ 1) {msg : IMGetDeviceTokenReq} (hids : ∀ u ∈ msg.userId, u < uint32Size)
    {info : UserTokenInfo} (hmem : info ∈ (getDevicesToken env true cache msg).userTokenInfo) :
    Holds log info.userId info.token := by
  rw [getDevicesToken, if_pos rfl] at hmem
  obtain ⟨entry, hentry, hinfo⟩ := List.mem_filterMap.1 hmem
  obtain ⟨key, hkey, hvalue⟩ := List.mem_filterMap.1 hentry
  rw [List.mem_mergeSort, List.mem_dedup] at hkey
  obtain ⟨u, hu, rfl⟩ := List.mem_map.1 hkey
  cases hv : cache (deviceKey (int2string u)) with
  | none =>
    rw [hv] at hvalue
    cases hvalue
  | some v =>
    rw [hv] at hvalue
    obtain rfl := Option.some.inj hvalue
    rcases h.value u v hv with rfl | ⟨type, token, hstores, hplain, rfl, hholds⟩
    · cases hinfo
    · dsimp only at hinfo
      rw [cStr_eq (noNul_tokenValue hstores hplain.noNul), userTokenInfo_user hshield (hids u hu) hstores] at hinfo
      obtain rfl := Option.some.inj hinfo
      exact hholds

/-- And it says who owns each token. -/
theorem tokensOwned_of_inv {log : List TokenEvent} {cache : Cache} (h : Inv log cache) : TokensOwned log cache := by
  intro env msg hshield hids
  refine ⟨fun u hu token => ⟨?_, fun htoken => ?_⟩, ?_⟩
  · rintro ⟨info, hinfo, rfl, rfl⟩
    exact holds_of_mem h hshield hids hinfo
  · obtain ⟨type, hstores, hv⟩ := h.holds u token htoken
    have hnul : '\x00' ∉ token := by
      rcases h.value u _ hv with hnil | ⟨type', token', hstores', hplain', heq, -⟩
      · have hsplit := splitColon_tokenValue hstores token
        rw [hnil] at hsplit
        cases hsplit
      · have hsplit := splitColon_tokenValue hstores token
        rw [heq, splitColon_tokenValue hstores'] at hsplit
        obtain ⟨-, rfl⟩ := Prod.mk.inj (Option.some.inj hsplit)
        exact hplain'.noNul
    exact ⟨_, mem_of_stored hshield hu (hids u hu) hstores token hnul hv, rfl, rfl⟩
  · intro info hinfo info' hinfo' heq
    have hsame := holds_of_mem h hshield hids hinfo'
    rw [← heq] at hsame
    exact holds_unique (holds_of_mem h hshield hids hinfo) hsame

/-- A mobile client registers a token. -/
def registered (userId : Nat) : TokenEvent :=
  .deviceToken userId clientTypeIos { userId := 0, deviceToken := "t", clientType := none, attachData := none }

/-- User 1 has registered the token, and logged out from the mobile client. -/
theorem run_loggedOut : ∃ cache, Machine.Run tokenStep (fun cache e => e.Named ∧ TokensMeet cache e) (fun _ => none)
    [registered 1, .loginOut 1 clientTypeIos] cache := by
  obtain ⟨cache, hrun⟩ : ∃ cache, Machine.Run tokenStep (fun cache e => e.Named ∧ TokensMeet cache e) (fun _ => none)
      [registered 1] cache := by
    refine ⟨_, .step .start (e := registered 1) ⟨⟨by decide, by decide, by decide, by decide⟩, fun _ => ⟨by decide, ?_⟩⟩ rfl⟩
    intro v _ htoken
    rw [tokenOf, get_user] at htoken
    cases htoken
  exact ⟨_, hrun.step (e := TokenEvent.loginOut 1 clientTypeIos) ⟨⟨by decide, by decide⟩, fun hmobile => absurd hmobile (by decide)⟩ rfl⟩

/-- Then it is nobody's. -/
theorem not_holds_loggedOut (u : Nat) : ¬Holds [registered 1, .loginOut 1 clientTypeIos] u ['t'] := by
  intro hholds
  rcases (holds_snoc [registered 1] (.loginOut 1 clientTypeIos) u ['t']).1 hholds with hreg | ⟨hbefore, hkept⟩
  · exact hreg
  · rcases (holds_snoc [] (registered 1) u ['t']).1 hbefore with ⟨-, rfl, -⟩ | ⟨⟨pre, e, post, hlog, -⟩, -⟩
    · exact hkept (.inr (.inr ⟨by decide, rfl⟩))
    · exact absurd hlog.symm (List.append_ne_nil_of_right_ne_nil pre (List.cons_ne_nil e post))

end TokensAux

open TokensAux

/-- A token is returned for the user it belongs to, and for nobody else, while no token is registered that somebody else has
stored, and no PC client logs out of a user who has one. -/
theorem tokens_owned (log : List TokenEvent) (cache : Cache)
    (hrun : Machine.Run tokenStep (fun cache e => e.Named ∧ TokensMeet cache e) (fun _ => none) log cache) :
    TokensOwned log cache := by
  refine tokensOwned_of_inv (hrun.invariant (I := Inv) inv_start ?_)
  rintro log out cache cache' e hinv ⟨hnamed, hok⟩ hstep
  exact inv_step hinv hnamed hok hstep

/-- User 2 registers the token that was user 1's before, and it is returned for him only. -/
theorem tokens_owned_two : ∃ log cache, Machine.Run tokenStep (fun cache e => e.Named ∧ TokensMeet cache e) (fun _ => none) log cache ∧
    Holds log 2 ['t'] ∧ ¬Holds log 1 ['t'] ∧ TokensOwned log cache := by
  obtain ⟨cache, hrun⟩ := run_loggedOut
  have hinv : Inv [registered 1, .loginOut 1 clientTypeIos] cache :=
    hrun.invariant (I := Inv) inv_start fun hinv hok hstep => inv_step hinv hok.1 hok.2 hstep
  have hmeets : TokensMeet cache (registered 2) := by
    refine fun _ => ⟨by decide, fun v _ htoken => ?_⟩
    exact not_holds_loggedOut v ((tokenOf_eq_some hinv v ['t']).1 htoken)
  have hagain := hrun.step (e := registered 2) ⟨⟨by decide, by decide, by decide, by decide⟩, hmeets⟩ rfl
  refine ⟨_, _, hagain, (holds_snoc _ _ 2 ['t']).2 (.inl ⟨by decide, rfl, by decide⟩), fun hholds => ?_, tokens_owned _ _ hagain⟩
  rcases (holds_snoc [registered 1, .loginOut 1 clientTypeIos] (registered 2) 1 ['t']).1 hholds with ⟨-, hother, -⟩ | ⟨hbefore, -⟩
  · exact absurd hother (by decide)
  · exact not_holds_loggedOut 1 hbefore

/-- Two users register one token after another, and it is returned for both. -/
theorem tokens_not_owned : ¬TokensKept fun _ _ => True := by
  intro hall
  have hnamed : ∀ u, u < uint32Size → (registered u).Named := fun u hu => ⟨hu, by decide, by decide, by decide⟩
  have howned := hall _ _ (.step (.step .start ⟨hnamed 1 (by decide), trivial⟩ rfl) ⟨hnamed 2 (by decide), trivial⟩ rfl)
  have hshield : ∀ u : Nat, (fun _ : Nat => 0) u ≠ 1 := fun _ => Nat.zero_ne_one
  obtain ⟨-, hone⟩ := howned ⟨12, fun _ => 0, fun _ => 0⟩ ⟨[1, 2], none⟩ hshield (by decide)
  have hios : Stores clientTypeIos := .inl rfl
  exact absurd (hone _ (mem_of_stored hshield (u := 1) (by decide) (by decide) hios ['t'] (by decide) rfl) _
    (mem_of_stored hshield (u := 2) (by decide) (by decide) hios ['t'] (by decide) rfl) rfl) (by decide)

end TeamTalk.DbProxy
