import TeamTalk.DbProxy.DeviceToken

/-!
# The sync times of db_proxy_server

The two times that `CSyncCenter` keeps, in memory and in the cache pool `unread`, and how they are read back when
db_proxy_server starts. The cache accepts every write.
-/

namespace TeamTalk.DbProxy

/-- `CSyncCenter`, and the cache. -/
structure SyncTimes where
  lastUpdate : Nat
  lastUpdateGroup : Nat
  cache : Cache

namespace SyncTimes

/-- `CSyncCenter::updateTotalUpdate`. -/
def updateTotalUpdate (s : SyncTimes) (updated : Nat) : SyncTimes :=
  { s with lastUpdate := updated, cache := s.cache.set "total_user_update".toList (int2string updated) }

/-- `CSyncCenter::updateLastUpdateGroup`. -/
def updateLastUpdateGroup (s : SyncTimes) (updated : Nat) : SyncTimes :=
  { s with lastUpdateGroup := updated, cache := s.cache.set "last_update_group".toList (int2string updated) }

/-- `CSyncCenter::CSyncCenter`. What `m_nLastUpdate` is then is up to the memory. -/
def construct (memory now : Nat) (cache : Cache) : SyncTimes where
  lastUpdate := memory
  lastUpdateGroup := now
  cache

/-- `CSyncCenter::init`, with what its two looks at the clock give. -/
def init (s : SyncTimes) (now now' : Nat) : SyncTimes :=
  let totalUpdate := s.cache.get "total_user_updated".toList
  let lastUpdateGroup := s.cache.get "last_update_group".toList
  let s := if totalUpdate ≠ [] then { s with lastUpdate := string2int totalUpdate } else s.updateTotalUpdate now
  if lastUpdateGroup.isEmpty then { s with lastUpdateGroup := string2int lastUpdateGroup } else s.updateLastUpdateGroup now'

end SyncTimes

/-- A call that stores a time. -/
inductive SyncCall where
  | updateTotalUpdate (updated : Nat)
  | updateLastUpdateGroup (updated : Nat)
  deriving DecidableEq, Repr

def SyncCall.run (s : SyncTimes) : SyncCall → SyncTimes
  | .updateTotalUpdate updated => s.updateTotalUpdate updated
  | .updateLastUpdateGroup updated => s.updateLastUpdateGroup updated

/-- db_proxy_server is stopped after some calls, and started again. -/
def restart (s : SyncTimes) (calls : List SyncCall) (memory constructed now now' : Nat) : SyncTimes :=
  (SyncTimes.construct memory constructed (calls.foldl SyncCall.run s).cache).init now now'

/-- The last value stored of the users' time. -/
def lastTotal (calls : List SyncCall) : Option Nat :=
  (calls.filterMap fun
    | .updateTotalUpdate updated => some updated
    | .updateLastUpdateGroup _ => none).getLast?

/-- The last value stored of the groups' time. -/
def lastGroup (calls : List SyncCall) : Option Nat :=
  (calls.filterMap fun
    | .updateTotalUpdate _ => none
    | .updateLastUpdateGroup updated => some updated).getLast?

end TeamTalk.DbProxy
