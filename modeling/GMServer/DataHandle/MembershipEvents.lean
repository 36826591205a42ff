import Mathlib.Data.Set.Insert
import GMServer.DataHandle.RepeatedKeys

/-!
# Membership events

Elements that were added to a group or removed from it are events of the listener, which a
container gets as a list of changes.  The listener hands a removal on as an addition, so
that every index with an event is there in the end.
-/

namespace GMServer
namespace DataHandle

open Std

/-!
# One by one

What the events mean for a set of indices.
-/

/-- The events of a first key and a group. -/
def eventsFor (events : List RedisSyncData) (iFirstKey : uint64_t) (iRedisKey : uint32_t) :
    List RedisSyncData :=
  events.filter (fun it => it.Firstkey = iFirstKey ∧ keyOf it.RedisKey = iRedisKey)

def applyEvent (indices : Set uint64_t) (it : RedisSyncData) : Set uint64_t :=
  match it.eType with
  | .eAdd => insert it.SecondKey indices
  | .eDelete => indices \ {it.SecondKey}
  | .eSet => indices
  | .eNULL => indices

/-- A change as a container applies it. -/
def applyChange (indices : Set uint64_t) (it : uint64_t × Bool) : Set uint64_t :=
  if it.2 = true then insert it.1 indices else indices \ {it.1}

/-- The event adds or removes the index. -/
def Changes (it : RedisSyncData) (iIndex : uint64_t) : Prop :=
  it.SecondKey = iIndex ∧ (it.eType = .eAdd ∨ it.eType = .eDelete)

instance (it : RedisSyncData) (iIndex : uint64_t) : Decidable (Changes it iIndex) :=
  inferInstanceAs (Decidable (_ ∧ _))

/-- What the last event that adds or removes the index does. -/
def lastChange (events : List RedisSyncData) (iIndex : uint64_t) : Option SyncType :=
  ((events.filter (fun it => Changes it iIndex)).getLast?).map (·.eType)

theorem lastChange_concat (events : List RedisSyncData) (it : RedisSyncData)
    (iIndex : uint64_t) :
    lastChange (events ++ [it]) iIndex =
      if Changes it iIndex then some it.eType else lastChange events iIndex := by
  unfold lastChange
  rw [List.filter_append, List.filter_cons]
  by_cases hchange : Changes it iIndex
  · rw [if_pos (decide_eq_true hchange), if_pos hchange, List.filter_nil, List.getLast?_concat]
    rfl
  · rw [if_neg (fun h => hchange (of_decide_eq_true h)), if_neg hchange, List.filter_nil,
      List.append_nil]

theorem lastChange_cases (events : List RedisSyncData) (iIndex : uint64_t) :
    lastChange events iIndex = none ∨ lastChange events iIndex = some .eAdd ∨
      lastChange events iIndex = some .eDelete := by
  induction events using List.reverseRecOn with
  | nil => exact Or.inl rfl
  | append_singleton events it ih =>
      rw [lastChange_concat]
      by_cases hchange : Changes it iIndex
      · rw [if_pos hchange]
        rcases hchange.right with hadd | hdelete
        · exact Or.inr (Or.inl (congrArg some hadd))
        · exact Or.inr (Or.inr (congrArg some hdelete))
      · rw [if_neg hchange]
        exact ih

theorem mem_applyEvent (indices : Set uint64_t) (it : RedisSyncData) (iIndex : uint64_t) :
    iIndex ∈ applyEvent indices it <->
      if Changes it iIndex then it.eType = .eAdd else iIndex ∈ indices := by
  by_cases hchange : Changes it iIndex
  · rw [if_pos hchange]
    rcases hchange with ⟨hindex, hadd | hdelete⟩
    · unfold applyEvent
      rw [hadd]
      exact iff_of_true (Set.mem_insert_iff.mpr (Or.inl hindex.symm)) rfl
    · unfold applyEvent
      rw [hdelete]
      exact iff_of_false (fun h => h.right hindex.symm) (fun h => by cases h)
  · rw [if_neg hchange]
    unfold applyEvent
    cases htype : it.eType with
    | eAdd =>
        dsimp only
        rw [Set.mem_insert_iff]
        exact or_iff_right (fun h => hchange ⟨h.symm, Or.inl htype⟩)
    | eDelete =>
        dsimp only
        rw [Set.mem_sdiff, Set.mem_singleton_iff]
        exact and_iff_left (fun h => hchange ⟨h.symm, Or.inr htype⟩)
    | eSet => exact Iff.rfl
    | eNULL => exact Iff.rfl

theorem mem_foldl_applyEvent (events : List RedisSyncData) (indices : Set uint64_t)
    (iIndex : uint64_t) :
    iIndex ∈ events.foldl applyEvent indices <->
      lastChange events iIndex = some .eAdd ∨
        (lastChange events iIndex = none ∧ iIndex ∈ indices) := by
  induction events using List.reverseRecOn with
  | nil => exact ⟨fun h => Or.inr ⟨rfl, h⟩, fun h => h.elim (fun h => by cases h) And.right⟩
  | append_singleton events it ih =>
      rw [List.foldl_append, List.foldl_cons, List.foldl_nil, lastChange_concat, mem_applyEvent]
      by_cases hchange : Changes it iIndex
      · rw [if_pos hchange, if_pos hchange, Option.some_inj]
        exact (or_iff_left (fun h => by cases h.left)).symm
      · rw [if_neg hchange, if_neg hchange, ih]

/-!
# What is exported
-/

namespace RedisListen

/-- The changes of a group, as `IStruct::Sync` finds them. -/
def exportedGroup (listen : RedisListen) (iFirstKey : uint64_t) (iRedisKey : uint32_t) :
    SyncRepeated :=
  ((listen.ExportSyncData ∅).1[iFirstKey]?.getD SyncStruct.empty).mRepeated[iRedisKey]?.getD
    SyncRepeated.empty

/-- The changes that one event makes to a group. -/
def changesOf (it : RedisSyncData) : List (uint64_t × Bool) :=
  match it.eType with
  | .eAdd => [(it.SecondKey, true)]
  | .eDelete => [(it.SecondKey, true)]
  | .eSet => []
  | .eNULL => []

def changesAt (data : SyncStruct) (iRedisKey : uint32_t) : List (uint64_t × Bool) :=
  (data.mRepeated[iRedisKey]?.getD SyncRepeated.empty).vChange

theorem changesAt_AddValue (data : SyncStruct) (iIndex : uint64_t) (iKeyField : uint32_t)
    (strValue : Text) (iRedisKey : uint32_t) :
    changesAt (data.AddValue iIndex iKeyField strValue) iRedisKey = changesAt data iRedisKey := by
  unfold SyncStruct.AddValue
  split
  · rfl
  · unfold changesAt
    dsimp only
    rw [SortedMap.getElem?_insert_eq]
    by_cases hgroup : keyOf iKeyField = iRedisKey
    · rw [if_pos hgroup, hgroup]
      rfl
    · rw [if_neg hgroup]

theorem changesAt_RepeatedModify (data : SyncStruct) (iIndex : uint64_t)
    (other : uint32_t) (bAdd : Bool) (iRedisKey : uint32_t) :
    changesAt (data.RepeatedModify iIndex other bAdd) iRedisKey =
      if keyOf other = iRedisKey then changesAt data iRedisKey ++ [(iIndex, bAdd)]
      else changesAt data iRedisKey := by
  unfold SyncStruct.RepeatedModify changesAt
  dsimp only
  rw [SortedMap.getElem?_insert_eq]
  by_cases hgroup : keyOf other = iRedisKey
  · rw [if_pos hgroup, if_pos hgroup, hgroup]
    rfl
  · rw [if_neg hgroup, if_neg hgroup]

theorem changesAt_exportEvent (data : SyncStruct) (it : RedisSyncData) (iRedisKey : uint32_t) :
    changesAt (exportEvent data it) iRedisKey =
      if keyOf it.RedisKey = iRedisKey then changesAt data iRedisKey ++ changesOf it
      else changesAt data iRedisKey := by
  unfold exportEvent changesOf
  cases it.eType with
  | eAdd => exact changesAt_RepeatedModify _ _ _ _ _
  | eDelete => exact changesAt_RepeatedModify _ _ _ _ _
  | eNULL =>
      dsimp only
      rw [List.append_nil, ite_self]
  | eSet =>
      dsimp only
      rw [List.append_nil, ite_self]
      generalize it.mValue.toList = texts
      induction texts generalizing data with
      | nil => rfl
      | cons itValue texts ih => exact (ih _).trans (changesAt_AddValue _ _ _ _ _)

theorem changesAt_events (events : List RedisSyncData) (data : SyncStruct)
    (iRedisKey : uint32_t) :
    changesAt (events.foldl exportEvent data) iRedisKey =
      changesAt data iRedisKey ++
        (events.filter (fun it => keyOf it.RedisKey = iRedisKey)).flatMap changesOf := by
  induction events generalizing data with
  | nil => exact (List.append_nil _).symm
  | cons it events ih =>
      rw [List.foldl_cons, ih, changesAt_exportEvent, List.filter_cons]
      by_cases hgroup : keyOf it.RedisKey = iRedisKey
      · rw [if_pos hgroup, if_pos (decide_eq_true hgroup), List.flatMap_cons, List.append_assoc]
      · rw [if_neg hgroup, if_neg (fun h => hgroup (of_decide_eq_true h))]

/-- The changes are those of the events of the first key and the group, in their order. -/
theorem vChange_exportedGroup (listen : RedisListen) (iFirstKey : uint64_t)
    (iRedisKey : uint32_t) :
    (listen.exportedGroup iFirstKey iRedisKey).vChange =
      (eventsFor listen.m_listSyncData iFirstKey iRedisKey).flatMap changesOf := by
  have hdata : (listen.ExportSyncData ∅).1[iFirstKey]?.getD SyncStruct.empty =
      (eventsOf listen.m_listSyncData iFirstKey).foldl exportEvent SyncStruct.empty := by
    unfold ExportSyncData
    dsimp only
    rw [getElem?_exported]
    split
    · rename_i hnil
      rw [hnil]
      rfl
    · rfl
  have hchanges : (listen.exportedGroup iFirstKey iRedisKey).vChange =
      changesAt ((listen.ExportSyncData ∅).1[iFirstKey]?.getD SyncStruct.empty) iRedisKey := rfl
  rw [hchanges, hdata, changesAt_events]
  unfold eventsOf eventsFor
  rw [List.filter_filter]
  have hempty : changesAt SyncStruct.empty iRedisKey = [] := rfl
  rw [hempty, List.nil_append]
  induction listen.m_listSyncData with
  | nil => rfl
  | cons it events ih =>
      rw [List.filter_cons, List.filter_cons]
      by_cases hfor : it.Firstkey = iFirstKey ∧ keyOf it.RedisKey = iRedisKey
      · rw [if_pos (decide_eq_true hfor), List.flatMap_cons, ← ih]
        by_cases hnull : it.eType = .eNULL
        · -- such an event is not exported and changes nothing
          have hnone : changesOf it = [] := by
            unfold changesOf
            rw [hnull]
          rw [hnone, List.nil_append, if_neg]
          simp [hnull]
        · rw [if_pos, List.flatMap_cons]
          simp [hnull, hfor]
      · rw [if_neg (fun h => hfor (of_decide_eq_true h)), if_neg, ih]
        simp only [Bool.and_eq_true, decide_eq_true_eq]
        exact fun h => hfor ⟨h.right.right, h.left⟩

theorem mem_changesOf (it : RedisSyncData) (indices : Set uint64_t) (iIndex : uint64_t) :
    iIndex ∈ (changesOf it).foldl applyChange indices <->
      Changes it iIndex ∨ iIndex ∈ indices := by
  unfold changesOf Changes
  cases it.eType with
  | eAdd =>
      show iIndex ∈ insert it.SecondKey indices <-> _
      rw [Set.mem_insert_iff, and_iff_left (Or.inl rfl), eq_comm]
  | eDelete =>
      show iIndex ∈ insert it.SecondKey indices <-> _
      rw [Set.mem_insert_iff, and_iff_left (Or.inr rfl), eq_comm]
  | eSet => exact (or_iff_right (fun h => by rcases h.right with h | h <;> cases h)).symm
  | eNULL => exact (or_iff_right (fun h => by rcases h.right with h | h <;> cases h)).symm

/-- Every index with an event is added. -/
theorem mem_foldl_changes (events : List RedisSyncData) (indices : Set uint64_t)
    (iIndex : uint64_t) :
    iIndex ∈ (events.flatMap changesOf).foldl applyChange indices <->
      lastChange events iIndex ≠ none ∨ iIndex ∈ indices := by
  induction events using List.reverseRecOn with
  | nil => exact (or_iff_right (fun h => h rfl)).symm
  | append_singleton events it ih =>
      rw [List.flatMap_append, List.flatMap_singleton, List.foldl_append, mem_changesOf, ih,
        lastChange_concat]
      by_cases hchange : Changes it iIndex
      · rw [if_pos hchange]
        exact iff_of_true (Or.inl hchange) (Or.inl (Option.some_ne_none _))
      · rw [if_neg hchange]
        exact or_iff_right hchange

/-- What is exported makes of a set of indices what the events make of it, exactly if no
index was removed last. -/
theorem changes_eq_events_iff (events : List RedisSyncData) (indices : Set uint64_t) :
    (events.flatMap changesOf).foldl applyChange indices = events.foldl applyEvent indices <->
      forall iIndex, lastChange events iIndex ≠ some .eDelete := by
  rw [Set.ext_iff]
  refine forall_congr' (fun iIndex => ?_)
  rw [mem_foldl_changes, mem_foldl_applyEvent]
  rcases lastChange_cases events iIndex with hlast | hlast | hlast
  · rw [hlast]
    exact iff_of_true
      ⟨fun h => Or.inr ⟨rfl, h.resolve_left (fun hne => hne rfl)⟩,
        fun h => Or.inr (h.resolve_left (fun hadd => by cases hadd)).right⟩
      (fun h => by cases h)
  · rw [hlast]
    exact iff_of_true
      (iff_of_true (Or.inl (Option.some_ne_none _)) (Or.inl rfl)) (fun h => by cases h)
  · rw [hlast]
    apply iff_of_false
    · intro h
      rcases h.mp (Or.inl (Option.some_ne_none _)) with hadd | hnone
      · cases hadd
      · cases hnone.left
    · exact fun h => h rfl

end RedisListen

/-!
# The container
-/

namespace TRepeated

variable {container world : Type}

def indices (repeated : TRepeated container world) : Set uint64_t :=
  { iIndex | repeated.Get iIndex ≠ none }

theorem indices_put (repeated : TRepeated container world) (iIndex : uint64_t)
    (data : PlayerBagequipData container) :
    (repeated.put iIndex data).indices = insert iIndex repeated.indices := by
  ext other
  show (repeated.put iIndex data).Get other ≠ none <-> _
  rw [get_put, Set.mem_insert_iff]
  by_cases hsame : iIndex = other
  · rw [if_pos hsame]
    exact iff_of_true (Option.some_ne_none _) (Or.inl hsame.symm)
  · rw [if_neg hsame]
    exact (or_iff_right (fun h => hsame h.symm)).symm

theorem indices_removeIndex (repeated : TRepeated container world) (iIndex : uint64_t) :
    (repeated.RemoveIndex iIndex).indices = repeated.indices \ {iIndex} := by
  ext other
  show (repeated.RemoveIndex iIndex).Get other ≠ none <-> _
  rw [get_removeIndex, Set.mem_sdiff, Set.mem_singleton_iff]
  by_cases hsame : iIndex = other
  · rw [if_pos hsame]
    exact iff_of_false (fun h => h rfl) (fun h => h.right hsame.symm)
  · rw [if_neg hsame]
    exact (and_iff_left (fun h => hsame h.symm)).symm

/-- Fields are changed in place. -/
theorem indices_syncEach (repeated : TRepeated container world)
    (mValue : List (uint64_t × SyncValue)) :
    (repeated.syncEach mValue).indices = repeated.indices := by
  unfold syncEach
  induction mValue generalizing repeated with
  | nil => rfl
  | cons it mValue ih =>
      rw [List.foldl_cons, ih]
      cases hget : repeated.Get it.1 with
      | none => rfl
      | some data =>
          dsimp only
          rw [indices_put, Set.insert_eq_of_mem]
          show repeated.Get it.1 ≠ none
          rw [hget]
          exact Option.some_ne_none _

/-- The adapter answers every load. -/
def LoadsReturn (repeated : TRepeated container world) : Prop :=
  forall owner adapter, repeated.m_pHandle = some owner -> owner.m_pDataHanle = some adapter ->
    forall state iKey iIndex mValue,
      exists bValue, (adapter.Load state iKey iIndex mValue).2.2 = .ok bValue

theorem AddIndex_returns (this : container) {repeated : TRepeated container world}
    (hloads : repeated.LoadsReturn) (state : world) (iIndex : uint64_t) :
    (repeated.AddIndex this state iIndex).2 = .returned true := by
  have hload : forall data : PlayerBagequipData container,
      exists bValue, (repeated.loadElement state data).2.2 = .ok bValue := by
    intro data
    unfold loadElement
    split
    · exact ⟨false, rfl⟩
    · split
      · exact ⟨true, rfl⟩
      · dsimp only
        unfold LoadIndex
        split
        · exact ⟨false, rfl⟩
        · rename_i owner howner
          unfold TStruct.Load
          split
          · exact ⟨false, rfl⟩
          · rename_i adapter hadapter
            exact hloads owner adapter howner hadapter _ _ _ _
  unfold AddIndex
  dsimp only
  rcases hload ((((repeated.Get iIndex).getD .new).SetKey iIndex).SetDataHandle this) with
    ⟨bValue, hvalue⟩
  rw [hvalue]

theorem changeEach_returns (this : container) {repeated : TRepeated container world}
    (hloads : repeated.LoadsReturn) (state : world) (vChange : List (uint64_t × Bool)) :
    (repeated.changeEach this state vChange).2 = .returned true := by
  induction vChange generalizing repeated state with
  | nil => rfl
  | cons it vChange ih =>
      unfold changeEach
      split
      · have hadded := AddIndex_returns this hloads state it.1
        have hkept : (repeated.AddIndex this state it.1).1.2.LoadsReturn := hloads
        dsimp only
        rw [hadded]
        exact ih hkept _
      · have hkept : (repeated.RemoveIndex it.1).LoadsReturn := hloads
        exact ih hkept state

theorem changeEach_indices (this : container) {repeated : TRepeated container world}
    {state : world} {vChange : List (uint64_t × Bool)} {bValue : Bool}
    (h : (repeated.changeEach this state vChange).2 = .returned bValue) :
    (repeated.changeEach this state vChange).1.2.indices =
      vChange.foldl applyChange repeated.indices := by
  induction vChange generalizing repeated state with
  | nil => rfl
  | cons it vChange ih =>
      unfold changeEach at h ⊢
      rw [List.foldl_cons]
      by_cases hadd : it.2 = true
      · rw [if_pos hadd] at h ⊢
        have happly : applyChange repeated.indices it =
            (repeated.AddIndex this state it.1).1.2.indices :=
          (if_pos hadd).trans (indices_put _ _ _).symm
        dsimp only at h ⊢
        cases hadded : (repeated.AddIndex this state it.1).2 with
        | returned _ =>
            rw [hadded] at h
            dsimp only at h ⊢
            rw [ih h, happly]
        | thrown exception =>
            rw [hadded] at h
            cases hadded.symm.trans h
        | fault =>
            rw [hadded] at h
            cases hadded.symm.trans h
      · rw [if_neg hadd] at h ⊢
        have happly : applyChange repeated.indices it = (repeated.RemoveIndex it.1).indices :=
          (if_neg hadd).trans (indices_removeIndex _ _).symm
        rw [ih h, happly]

theorem Sync_indices (this : container) {repeated : TRepeated container world} {state : world}
    {stRepeated : SyncRepeated} {bValue : Bool}
    (h : (repeated.Sync this state stRepeated).2 = .returned bValue) :
    (repeated.Sync this state stRepeated).1.2.indices =
      stRepeated.vChange.foldl applyChange repeated.indices := by
  unfold Sync at h ⊢
  dsimp only at h ⊢
  cases hchanged : (repeated.changeEach this state stRepeated.vChange).2 with
  | returned _ =>
      dsimp only
      rw [indices_syncEach, changeEach_indices this hchanged]
  | thrown exception =>
      rw [hchanged] at h
      cases hchanged.symm.trans h
  | fault =>
      rw [hchanged] at h
      cases hchanged.symm.trans h

/-!
# The whole way

From the events of the listener to the container of their group.  The adapter may throw in
the middle; otherwise the changes are all applied.
-/

theorem membership_replayed_iff (this : container) (repeated : TRepeated container world)
    (state : world) (listen : RedisListen) (iFirstKey : uint64_t) (iRedisKey : uint32_t) :
    (repeated.LoadsReturn ->
        (repeated.Sync this state (listen.exportedGroup iFirstKey iRedisKey)).2 =
          .returned true) ∧
      forall bValue,
        (repeated.Sync this state (listen.exportedGroup iFirstKey iRedisKey)).2 =
            .returned bValue ->
          ((repeated.Sync this state (listen.exportedGroup iFirstKey iRedisKey)).1.2.indices =
              (eventsFor listen.m_listSyncData iFirstKey iRedisKey).foldl applyEvent
                repeated.indices <->
            forall iIndex, lastChange (eventsFor listen.m_listSyncData iFirstKey iRedisKey) iIndex ≠
              some .eDelete) := by
  constructor
  · intro hloads
    unfold Sync
    dsimp only
    rw [changeEach_returns this hloads]
  · intro bValue hreturned
    rw [Sync_indices this hreturned, RedisListen.vChange_exportedGroup]
    exact RedisListen.changes_eq_events_iff _ _

/-- One element that was removed. -/
def oneRemoval : RedisListen :=
  { m_vKey := [5], m_vRedisKey := [0x100],
    m_listSyncData :=
      [{ eType := .eDelete, RedisKey := 0x100, Firstkey := 5, SecondKey := 7, mValue := ∅ }] }

theorem removal_adds :
    ((empty none : TRepeated Unit Unit).Sync () () (oneRemoval.exportedGroup 5 0x100)).2 =
        .returned true ∧
      ((empty none : TRepeated Unit Unit).Sync () ()
          (oneRemoval.exportedGroup 5 0x100)).1.2.indices ≠
        (eventsFor oneRemoval.m_listSyncData 5 0x100).foldl applyEvent
          (empty none : TRepeated Unit Unit).indices := by
  have hthere : (((empty none : TRepeated Unit Unit).Sync () ()
      (oneRemoval.exportedGroup 5 0x100)).1.2.Get 7).isSome = true := by
    decide
  have hlast : lastChange (eventsFor oneRemoval.m_listSyncData 5 0x100) 7 = some .eDelete := by
    decide
  refine ⟨by decide, ?_⟩
  intro hsame
  have hmem : (7 : uint64_t) ∈ ((empty none : TRepeated Unit Unit).Sync () ()
      (oneRemoval.exportedGroup 5 0x100)).1.2.indices := Option.isSome_iff_ne_none.mp hthere
  rw [hsame, mem_foldl_applyEvent, hlast] at hmem
  rcases hmem with hadd | hnone
  · cases hadd
  · cases hnone.left

end TRepeated
end DataHandle
end GMServer
