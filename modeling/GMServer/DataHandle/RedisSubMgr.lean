import GMServer.DataHandle.RedisListen
import GMServer.DataHandle.RedisWrap

/-!
# Subscriptions

One connection is subscribed to the channels of all groups.  Groups that are asked
for wait in a list until the thread behind the connection takes them, and what comes
in is parsed in portions.
-/

namespace GMServer
namespace DataHandle

structure RedisSubMgr where
  m_AllRedisKey : List uint32_t
  m_listRedisKey : List uint32_t
  deriving DecidableEq, Repr

namespace RedisSubMgr

def empty : RedisSubMgr := { m_AllRedisKey := [], m_listRedisKey := [] }

def AddRediskey (subMgr : RedisSubMgr) (vRedisKey : List uint32_t) : RedisSubMgr :=
  vRedisKey.foldl (fun added it =>
    if it ∈ added.m_AllRedisKey then added
    else
      { m_AllRedisKey := it :: added.m_AllRedisKey,
        m_listRedisKey := added.m_listRedisKey ++ [it] }) subMgr

def GetSubString (subMgr : RedisSubMgr) : Text × RedisSubMgr :=
  if subMgr.m_listRedisKey = [] then ([], subMgr)
  else
    (commandText ("SUBSCRIBE".toList ::
        subMgr.m_listRedisKey.map (fun it => Text.decimal it.toNat)),
      { subMgr with m_listRedisKey := [] })

end RedisSubMgr

namespace RedisWrap

/-- What is made of a reply on the subscribed connection; no result stands for one that is
passed over.  So is an array of three elements that are no bulk strings, where the source reads
`str` of the first one all the same, and of the others behind a `message`. -/
def readReply : Reply -> Option (Except Exception (Option RedisSyncData))
  | .array [.string kind, .string channel, .string message] =>
      if cStr kind = "message".toList then some (readMessage (channel, message)) else none
  | _ => none

/-- Reads replies until ten changes have been collected or there are no more; returns the
changes, the replies that are left and whether there were no more. -/
def ReadSyncData (listData : List RedisSyncData) :
    List Reply -> Except Exception (List RedisSyncData × List Reply × Bool)
  | [] => .ok (listData, [], true)
  | pReply :: rest =>
      match readReply pReply with
      | none => ReadSyncData listData rest
      | some (.error exception) => .error exception
      | some (.ok none) =>
          if listData.length ≥ 10 then .ok (listData, rest, false)
          else ReadSyncData listData rest
      | some (.ok (some pSyncData)) =>
          if (listData ++ [pSyncData]).length ≥ 10 then
            .ok (listData ++ [pSyncData], rest, false)
          else ReadSyncData (listData ++ [pSyncData]) rest

/-- A change is collected, or its reply is still there. -/
theorem readSyncData_keeps {replies : List Reply} {listData collected : List RedisSyncData}
    {rest : List Reply} {bEmpty : Bool}
    (h : ReadSyncData listData replies = .ok (collected, rest, bEmpty)) {data : RedisSyncData}
    (hdata : data ∈ listData ∨ exists pReply, pReply ∈ replies ∧
      readReply pReply = some (.ok (some data))) :
    data ∈ collected ∨ exists pReply, pReply ∈ rest ∧
      readReply pReply = some (.ok (some data)) := by
  have hskip : forall {pReply : Reply} {later : List Reply} {list : List RedisSyncData},
      readReply pReply ≠ some (.ok (some data)) ->
      (data ∈ list ∨ exists other, other ∈ pReply :: later ∧
        readReply other = some (.ok (some data))) ->
      data ∈ list ∨ exists other, other ∈ later ∧ readReply other = some (.ok (some data)) := by
    intro pReply later list hne hsome
    rcases hsome with hlist | ⟨other, hmem, hread⟩
    · exact Or.inl hlist
    · rcases List.mem_cons.mp hmem with hfirst | hlater
      · rw [hfirst] at hread
        exact absurd hread hne
      · exact Or.inr ⟨other, hlater, hread⟩
  have htake : forall {pReply : Reply} {later : List Reply} {list : List RedisSyncData}
      {pSyncData : RedisSyncData}, readReply pReply = some (.ok (some pSyncData)) ->
      (data ∈ list ∨ exists other, other ∈ pReply :: later ∧
        readReply other = some (.ok (some data))) ->
      data ∈ list ++ [pSyncData] ∨ exists other, other ∈ later ∧
        readReply other = some (.ok (some data)) := by
    intro pReply later list pSyncData hread hsome
    rcases hsome with hlist | ⟨other, hmem, hother⟩
    · exact Or.inl (List.mem_append_left _ hlist)
    · rcases List.mem_cons.mp hmem with hfirst | hlater
      · rw [hfirst, hread] at hother
        cases hother
        exact Or.inl (List.mem_append_right _ List.mem_cons_self)
      · exact Or.inr ⟨other, hlater, hother⟩
  fun_induction ReadSyncData listData replies with
  | case1 listData =>
      cases h
      rcases hdata with hlist | ⟨pReply, hmem, _⟩
      · exact Or.inl hlist
      · cases hmem
  | case2 listData pReply later hread ih =>
      exact ih h (hskip (by rw [hread]; exact fun hEq => by cases hEq) hdata)
  | case3 listData pReply later exception hread => cases h
  | case4 listData pReply later hread hfull =>
      cases h
      exact hskip (by rw [hread]; exact fun hEq => by cases hEq) hdata
  | case5 listData pReply later hread hfull ih =>
      exact ih h (hskip (by rw [hread]; exact fun hEq => by cases hEq) hdata)
  | case6 listData pReply later pSyncData hread hfull =>
      cases h
      exact htake hread hdata
  | case7 listData pReply later pSyncData hread hfull ih => exact ih h (htake hread hdata)

end RedisWrap
end DataHandle
end GMServer
