import GMServer.DataHandle.RedisAdapter

/-!
# Handing events to structs

The listener turns its events into the data of each first key, and the structs that are
registered under a first key get its data with a call of `Sync`.  `SyncData` runs through a
map of its own that nothing was put in, so the events stay where they are.
-/

namespace GMServer
namespace DataHandle
namespace RedisAdapter

open Std

variable {pointer : Type}

/-!
# The loop
-/

def structsOf (adapter : RedisAdapter pointer) (iKey : uint64_t) : List pointer :=
  adapter.m_AllData[iKey]?.getD []

/-- The calls of `Sync` with their data. -/
def syncCalls (adapter : RedisAdapter pointer) (mSyncData : ExtTreeMap uint64_t SyncStruct) :
    List (pointer × SyncStruct) :=
  mSyncData.toList.flatMap (fun it =>
    (adapter.structsOf it.1).map (fun itStruct => (itStruct, it.2)))

def SyncData (adapter : RedisAdapter pointer) :
    List (pointer × SyncStruct) × RedisAdapter pointer :=
  let mSyncData : ExtTreeMap uint64_t SyncStruct := ∅
  (adapter.syncCalls mSyncData, adapter)

theorem mem_syncCalls {adapter : RedisAdapter pointer}
    {mSyncData : ExtTreeMap uint64_t SyncStruct} {itStruct : pointer} {data : SyncStruct} :
    (itStruct, data) ∈ adapter.syncCalls mSyncData <->
      exists iFirstKey, mSyncData[iFirstKey]? = some data ∧
        itStruct ∈ adapter.structsOf iFirstKey := by
  unfold syncCalls
  rw [List.mem_flatMap]
  constructor
  · intro h
    rcases h with ⟨it, hit, hcall⟩
    rcases List.mem_map.mp hcall with ⟨other, hmem, hEq⟩
    cases hEq
    exact ⟨it.1, ExtTreeMap.mem_toList_iff_getElem?_eq_some.mp hit, hmem⟩
  · intro h
    rcases h with ⟨iFirstKey, hdata, hmem⟩
    exact ⟨(iFirstKey, data), ExtTreeMap.mem_toList_iff_getElem?_eq_some.mpr hdata,
      List.mem_map.mpr ⟨itStruct, hmem, rfl⟩⟩

/-!
# What should be called

Every struct under a first key with events, and no other, gets what these events make.
-/

structure Synchronised (adapter : RedisAdapter pointer) (calls : List (pointer × SyncStruct))
    (next : RedisAdapter pointer) : Prop where
  emptied : next.m_Listen.m_listSyncData = []
  called : forall itStruct data, (itStruct, data) ∈ calls <->
    exists iFirstKey, (adapter.m_Listen.ExportSyncData ∅).1[iFirstKey]? = some data ∧
      itStruct ∈ adapter.structsOf iFirstKey

/-- The loop over what is exported calls the right structs. -/
theorem synchronised_export (adapter : RedisAdapter pointer) :
    Synchronised adapter (adapter.syncCalls (adapter.m_Listen.ExportSyncData ∅).1)
      { adapter with m_Listen := (adapter.m_Listen.ExportSyncData ∅).2 } := by
  constructor
  · rfl
  · intro itStruct data
    exact mem_syncCalls

theorem synchronised_iff (adapter : RedisAdapter pointer) :
    Synchronised adapter adapter.SyncData.1 adapter.SyncData.2 <->
      adapter.m_Listen.m_listSyncData = [] := by
  constructor
  · intro h
    exact h.emptied
  · intro hnil
    have hlisten : { adapter.m_Listen with m_listSyncData := [] } = adapter.m_Listen := by
      rw [← hnil]
    have hexport : adapter.m_Listen.ExportSyncData ∅ = (∅, adapter.m_Listen) := by
      unfold RedisListen.ExportSyncData
      rw [hlisten, hnil]
      rfl
    have hcalled := (synchronised_export adapter).called
    rw [hexport] at hcalled
    constructor
    · exact hnil
    · rw [hexport]
      exact hcalled

/-- One struct under the key 5 and one event with a value for it. -/
def oneEvent : RedisAdapter Unit :=
  { m_Buffer := RedisBuffer.empty,
    m_Listen :=
      { m_vKey := [5],
        m_vRedisKey := [0x100],
        m_listSyncData :=
          [{ RedisKey := 0x100, Firstkey := 5, SecondKey := 0, eType := .eSet,
             mValue := (∅ : ExtTreeMap uint32_t Text).insert 0x101 "7".toList }] },
    m_AllData := (∅ : ExtTreeMap uint64_t (List Unit)).insert 5 [()] }

theorem oneEvent_stays :
    ¬ Synchronised oneEvent oneEvent.SyncData.1 oneEvent.SyncData.2 := by
  intro h
  cases h.emptied

end RedisAdapter
end DataHandle
end GMServer
