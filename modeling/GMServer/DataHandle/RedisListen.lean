import GMServer.DataHandle.RedisSyncData
import GMServer.Library.SortedMap

/-!
# Listeners

A listener collects the messages about the keys and groups that its adapter has
loaded, and hands them over sorted by first key.
-/

namespace GMServer
namespace DataHandle

open Std

/-!
# Collected changes
-/

structure SyncValue where
  mValue : ExtTreeMap uint32_t Text

/-- The changes of a repeated group; in `vChange` an index is added or removed. -/
structure SyncRepeated where
  mValue : ExtTreeMap uint64_t SyncValue
  vChange : List (uint64_t × Bool)

structure SyncStruct where
  stValue : SyncValue
  mRepeated : ExtTreeMap uint32_t SyncRepeated

def SyncValue.empty : SyncValue := { mValue := ∅ }

def SyncRepeated.empty : SyncRepeated := { mValue := ∅, vChange := [] }

def SyncValue.AddValue (value : SyncValue) (iKeyField : uint32_t) (strValue : Text) :
    SyncValue :=
  { mValue := value.mValue.insert iKeyField strValue }

namespace SyncStruct

def empty : SyncStruct := { stValue := SyncValue.empty, mRepeated := ∅ }

def AddValue (data : SyncStruct) (iIndex : uint64_t) (iKeyField : uint32_t)
    (strValue : Text) : SyncStruct :=
  if iIndex = 0 then { data with stValue := data.stValue.AddValue iKeyField strValue }
  else
    let repeated := data.mRepeated[keyOf iKeyField]?.getD SyncRepeated.empty
    let value := repeated.mValue[iIndex]?.getD SyncValue.empty
    { data with
      mRepeated := data.mRepeated.insert (keyOf iKeyField)
        { repeated with
          mValue := repeated.mValue.insert iIndex (value.AddValue iKeyField strValue) } }

def RepeatedModify (data : SyncStruct) (iIndex : uint64_t) (iRedisKey : uint32_t)
    (bAdd : Bool) : SyncStruct :=
  let repeated := data.mRepeated[keyOf iRedisKey]?.getD SyncRepeated.empty
  { data with
    mRepeated := data.mRepeated.insert (keyOf iRedisKey)
      { repeated with vChange := repeated.vChange ++ [(iIndex, bAdd)] } }

end SyncStruct

/-!
# The listener
-/

structure RedisListen where
  m_vKey : List uint64_t
  m_vRedisKey : List uint32_t
  m_listSyncData : List RedisSyncData

namespace RedisListen

def empty : RedisListen := { m_vKey := [], m_vRedisKey := [], m_listSyncData := [] }

/-- What `Merge` records; the call of `AddRediskey` behind it is a step of its own. -/
def Merge (listen : RedisListen) (iKey : uint64_t) (vRedisKey : List uint32_t) : RedisListen :=
  { listen with
    m_vKey := listen.m_vKey.insert iKey,
    m_vRedisKey := vRedisKey.foldl (fun known iRedisKey => known.insert iRedisKey)
      listen.m_vRedisKey }

/-- The filter of `AddSyncData`. -/
def Accepts (listen : RedisListen) (data : RedisSyncData) : Prop :=
  data.RedisKey ∈ listen.m_vRedisKey ∧ data.Firstkey ∈ listen.m_vKey

instance (listen : RedisListen) (data : RedisSyncData) : Decidable (listen.Accepts data) :=
  inferInstanceAs (Decidable (_ ∧ _))

def AddSyncData (listen : RedisListen) (listData : List RedisSyncData) : RedisListen :=
  { listen with
    m_listSyncData := listen.m_listSyncData ++
      listData.filter (fun data => listen.Accepts data) }

/-- One event of `ExportSyncData`; a removal is handed on with `true` as well, and the
values of a set event all go to the key of the group. -/
def exportEvent (data : SyncStruct) (it : RedisSyncData) : SyncStruct :=
  match it.eType with
  | .eAdd => data.RepeatedModify it.SecondKey it.RedisKey true
  | .eDelete => data.RepeatedModify it.SecondKey it.RedisKey true
  | .eSet =>
      it.mValue.toList.foldl (fun exported itValue =>
        exported.AddValue it.SecondKey it.RedisKey itValue.2) data
  | .eNULL => data

def exportInto (mSyncData : ExtTreeMap uint64_t SyncStruct) (it : RedisSyncData) :
    ExtTreeMap uint64_t SyncStruct :=
  if it.eType = .eNULL then mSyncData
  else
    mSyncData.insert it.Firstkey
      (exportEvent (mSyncData[it.Firstkey]?.getD SyncStruct.empty) it)

def ExportSyncData (listen : RedisListen) (mSyncData : ExtTreeMap uint64_t SyncStruct) :
    ExtTreeMap uint64_t SyncStruct × RedisListen :=
  (listen.m_listSyncData.foldl exportInto mSyncData, { listen with m_listSyncData := [] })

/-!
# What is exported

A first key has data exactly if there was an event for it, and the data is what its
own events make of it, in their order.
-/

theorem getElem?_exportInto (mSyncData : ExtTreeMap uint64_t SyncStruct) (it : RedisSyncData)
    (iFirstKey : uint64_t) :
    (exportInto mSyncData it)[iFirstKey]? =
      if it.eType ≠ .eNULL ∧ it.Firstkey = iFirstKey then
        some (exportEvent (mSyncData[iFirstKey]?.getD SyncStruct.empty) it)
      else mSyncData[iFirstKey]? := by
  unfold exportInto
  by_cases hnull : it.eType = .eNULL
  · rw [if_pos hnull, if_neg (fun h => h.left hnull)]
  · rw [if_neg hnull, SortedMap.getElem?_insert_eq]
    by_cases hkey : it.Firstkey = iFirstKey
    · rw [if_pos hkey, if_pos ⟨hnull, hkey⟩, hkey]
    · rw [if_neg hkey, if_neg (fun h => hkey h.right)]

/-- The events that reach the data of a first key. -/
def eventsOf (listSyncData : List RedisSyncData) (iFirstKey : uint64_t) : List RedisSyncData :=
  listSyncData.filter (fun it => it.eType ≠ .eNULL ∧ it.Firstkey = iFirstKey)

theorem getElem?_exported (listSyncData : List RedisSyncData)
    (mSyncData : ExtTreeMap uint64_t SyncStruct) (iFirstKey : uint64_t) :
    (listSyncData.foldl exportInto mSyncData)[iFirstKey]? =
      if eventsOf listSyncData iFirstKey = [] then mSyncData[iFirstKey]?
      else
        some ((eventsOf listSyncData iFirstKey).foldl exportEvent
          (mSyncData[iFirstKey]?.getD SyncStruct.empty)) := by
  unfold eventsOf
  induction listSyncData generalizing mSyncData with
  | nil => rfl
  | cons it listSyncData ih =>
      rw [List.foldl_cons, ih, getElem?_exportInto, List.filter_cons]
      by_cases hevent : it.eType ≠ .eNULL ∧ it.Firstkey = iFirstKey
      · rw [if_pos hevent, if_pos (decide_eq_true hevent), if_neg (List.cons_ne_nil _ _),
          List.foldl_cons, Option.getD_some]
        by_cases hnil : listSyncData.filter
            (fun it => it.eType ≠ .eNULL ∧ it.Firstkey = iFirstKey) = []
        · rw [if_pos hnil, hnil, List.foldl_nil]
        · rw [if_neg hnil]
      · have hskip : ¬ decide (it.eType ≠ .eNULL ∧ it.Firstkey = iFirstKey) = true :=
          fun h => hevent (of_decide_eq_true h)
        rw [if_neg hevent, if_neg hskip]

end RedisListen
end DataHandle
end GMServer
