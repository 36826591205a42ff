import GMServer.DataHandle.RedisListen
import GMServer.Library.Replay

/-!
# Field events

The texts of the set events go through three levels of maps.  The listener puts every text
of an event under the key of the event's group, and not under the key field it came with.
-/

namespace GMServer
namespace DataHandle

open Std

/-!
# Places

A place is where one text of the data of a first key is kept.
-/

namespace SyncStruct

inductive Place where
  | value (iKeyField : uint32_t)
  | repeated (iRedisKey : uint32_t) (iIndex : uint64_t) (iKeyField : uint32_t)
  deriving DecidableEq

def read (data : SyncStruct) : Place -> Option Text
  | .value iKeyField => data.stValue.mValue[iKeyField]?
  | .repeated iRedisKey iIndex iKeyField =>
      (data.mRepeated[iRedisKey]?.getD SyncRepeated.empty).mValue[iIndex]?.bind
        (fun value => value.mValue[iKeyField]?)

def placeOf (iIndex : uint64_t) (iKeyField : uint32_t) : Place :=
  if iIndex = 0 then .value iKeyField else .repeated (keyOf iKeyField) iIndex iKeyField

/-- The texts under an index that may not be there yet. -/
theorem read_value (value : Option SyncValue) (iKeyField other : uint32_t) (strValue : Text) :
    ((value.getD SyncValue.empty).AddValue iKeyField strValue).mValue[other]? =
      if iKeyField = other then some strValue
      else value.bind (fun value => value.mValue[other]?) := by
  unfold SyncValue.AddValue
  dsimp only
  rw [SortedMap.getElem?_insert_eq]
  cases value with
  | none => rfl
  | some value => rfl

theorem placeOf_keyField {one two : uint64_t} {iKeyField other : uint32_t}
    (h : placeOf one iKeyField = placeOf two other) : iKeyField = other := by
  unfold placeOf at h
  split at h
  · split at h
    · exact Place.value.inj h
    · cases h
  · split at h
    · cases h
    · exact (Place.repeated.inj h).right.right

theorem read_empty (place : Place) : empty.read place = none := by
  cases place with
  | value iKeyField => rfl
  | repeated iRedisKey iIndex iKeyField => rfl

theorem read_AddValue (data : SyncStruct) (iIndex : uint64_t) (iKeyField : uint32_t)
    (strValue : Text) (place : Place) :
    (data.AddValue iIndex iKeyField strValue).read place =
      if placeOf iIndex iKeyField = place then some strValue else data.read place := by
  unfold AddValue placeOf
  by_cases hzero : iIndex = 0
  · rw [if_pos hzero, if_pos hzero]
    cases place with
    | value other =>
        unfold read SyncValue.AddValue
        dsimp only
        rw [SortedMap.getElem?_insert_eq]
        by_cases hsame : iKeyField = other
        · rw [if_pos hsame, if_pos (congrArg Place.value hsame)]
        · rw [if_neg hsame, if_neg (fun h => hsame (Place.value.inj h))]
    | repeated group index other =>
        rw [if_neg (fun h => by cases h)]
        rfl
  · rw [if_neg hzero, if_neg hzero]
    cases place with
    | value other =>
        rw [if_neg (fun h => by cases h)]
        rfl
    | repeated group index other =>
        unfold read
        dsimp only
        rw [SortedMap.getElem?_insert_eq]
        by_cases hgroup : keyOf iKeyField = group
        · rw [if_pos hgroup, Option.getD_some, SortedMap.getElem?_insert_eq, hgroup]
          by_cases hindex : iIndex = index
          · rw [if_pos hindex, Option.bind_some, read_value, hindex]
            by_cases hfield : iKeyField = other
            · rw [if_pos hfield, hfield, if_pos rfl]
            · rw [if_neg hfield, if_neg (fun h => hfield (Place.repeated.inj h).right.right)]
          · rw [if_neg hindex, if_neg (fun h => hindex (Place.repeated.inj h).right.left)]
        · rw [if_neg hgroup, if_neg (fun h => hgroup (Place.repeated.inj h).left)]

/-- No set event adds or removes an index. -/
def Quiet (data : SyncStruct) : Prop :=
  forall (iRedisKey : uint32_t) (repeated : SyncRepeated),
    data.mRepeated[iRedisKey]? = some repeated -> repeated.vChange = []

theorem quiet_empty : empty.Quiet := by
  intro iRedisKey repeated h
  cases h

theorem quiet_AddValue {data : SyncStruct} (hquiet : data.Quiet) (iIndex : uint64_t)
    (iKeyField : uint32_t) (strValue : Text) :
    (data.AddValue iIndex iKeyField strValue).Quiet := by
  unfold AddValue
  by_cases hzero : iIndex = 0
  · rw [if_pos hzero]
    exact hquiet
  · rw [if_neg hzero]
    intro iRedisKey repeated h
    dsimp only at h
    rw [SortedMap.getElem?_insert_eq] at h
    by_cases hgroup : keyOf iKeyField = iRedisKey
    · rw [if_pos hgroup] at h
      cases h
      cases hold : data.mRepeated[keyOf iKeyField]? with
      | none => rfl
      | some repeated => exact hquiet _ repeated hold
    · rw [if_neg hgroup] at h
      exact hquiet iRedisKey repeated h

end SyncStruct

/-!
# One event
-/

namespace RedisListen

open SyncStruct

/-- The text that an event has for a place. -/
def carried (it : RedisSyncData) : Place -> Option Text
  | .value iKeyField => if it.SecondKey = 0 then it.mValue[iKeyField]? else none
  | .repeated iRedisKey iIndex iKeyField =>
      if iIndex ≠ 0 ∧ keyOf iKeyField = iRedisKey ∧ it.SecondKey = iIndex then
        it.mValue[iKeyField]?
      else none

/-- The only key field of the event is the key of its group. -/
def Keyed (it : RedisSyncData) : Prop :=
  forall (iKeyField : uint32_t) (strValue : Text),
    it.mValue[iKeyField]? = some strValue -> iKeyField = it.RedisKey

theorem carried_placeOf (it : RedisSyncData) (iKeyField : uint32_t) :
    carried it (placeOf it.SecondKey iKeyField) = it.mValue[iKeyField]? := by
  unfold placeOf
  by_cases hzero : it.SecondKey = 0
  · rw [if_pos hzero]
    exact if_pos hzero
  · rw [if_neg hzero]
    exact if_pos ⟨hzero, rfl, rfl⟩

theorem place_of_carried {it : RedisSyncData} {place : Place} {strValue : Text}
    (h : carried it place = some strValue) :
    exists iKeyField, place = placeOf it.SecondKey iKeyField ∧
      it.mValue[iKeyField]? = some strValue := by
  cases place with
  | value iKeyField =>
      dsimp only [carried] at h
      by_cases hzero : it.SecondKey = 0
      · rw [if_pos hzero] at h
        exact ⟨iKeyField, (if_pos hzero).symm, h⟩
      · rw [if_neg hzero] at h
        cases h
  | repeated iRedisKey iIndex iKeyField =>
      dsimp only [carried] at h
      by_cases hplace : iIndex ≠ 0 ∧ keyOf iKeyField = iRedisKey ∧ it.SecondKey = iIndex
      · rw [if_pos hplace] at h
        rcases hplace with ⟨hzero, hgroup, hindex⟩
        refine ⟨iKeyField, ?_, h⟩
        unfold placeOf
        rw [hindex, if_neg hzero, hgroup]
      · rw [if_neg hplace] at h
        cases h

/-- The loop over the texts of a set event. -/
theorem read_foldl_AddValue (texts : List (uint32_t × Text)) (data : SyncStruct)
    (iIndex : uint64_t) (iRedisKey : uint32_t) (place : Place) :
    (texts.foldl (fun exported itValue => exported.AddValue iIndex iRedisKey itValue.2)
        data).read place =
      if placeOf iIndex iRedisKey = place then
        (texts.getLast?.map Prod.snd).or (data.read place)
      else data.read place := by
  induction texts using List.reverseRecOn with
  | nil => exact (ite_self _).symm
  | append_singleton texts itValue ih =>
      rw [List.foldl_append, List.foldl_cons, List.foldl_nil, read_AddValue, ih,
        List.getLast?_concat]
      by_cases hplace : placeOf iIndex iRedisKey = place
      · rw [if_pos hplace, if_pos hplace, Option.map_some, Option.some_or]
      · rw [if_neg hplace, if_neg hplace, if_neg hplace]

theorem read_exportEvent {it : RedisSyncData} (hset : it.eType = .eSet) (data : SyncStruct)
    (place : Place) :
    (exportEvent data it).read place =
      if placeOf it.SecondKey it.RedisKey = place then
        (it.mValue.toList.getLast?.map Prod.snd).or (data.read place)
      else data.read place := by
  unfold exportEvent
  rw [hset]
  exact read_foldl_AddValue _ _ _ _ _

theorem getLast?_keyed {it : RedisSyncData} (hkeyed : Keyed it) :
    it.mValue.toList.getLast?.map Prod.snd = it.mValue[it.RedisKey]? := by
  cases hlast : it.mValue.toList.getLast? with
  | none =>
      rw [ExtTreeMap.toList_eq_nil_iff.mp (List.getLast?_eq_none_iff.mp hlast)]
      rfl
  | some last =>
      have hget : it.mValue[last.1]? = some last.2 :=
        ExtTreeMap.mem_toList_iff_getElem?_eq_some.mp (List.mem_of_getLast? hlast)
      rw [← hkeyed last.1 last.2 hget, hget]
      rfl

theorem read_keyedEvent {it : RedisSyncData} (hset : it.eType = .eSet) (hkeyed : Keyed it)
    (data : SyncStruct) (place : Place) :
    (exportEvent data it).read place = (carried it place).or (data.read place) := by
  rw [read_exportEvent hset, getLast?_keyed hkeyed]
  by_cases hplace : placeOf it.SecondKey it.RedisKey = place
  · rw [if_pos hplace, ← hplace, carried_placeOf]
  · rw [if_neg hplace]
    cases hcarried : carried it place with
    | none => rw [Option.none_or]
    | some strValue =>
        rcases place_of_carried hcarried with ⟨iKeyField, hEq, hget⟩
        rw [hkeyed iKeyField strValue hget] at hEq
        exact absurd hEq.symm hplace

/-!
# All events

The last event that has a text for a place is the one that counts.
-/

theorem read_keyedEvents {events : List RedisSyncData}
    (hset : forall it, it ∈ events -> it.eType = .eSet)
    (hkeyed : forall it, it ∈ events -> Keyed it) (data : SyncStruct) (place : Place) :
    (events.foldl exportEvent data).read place =
      (events.reverse.findSome? (fun it => carried it place)).or (data.read place) := by
  induction events using List.reverseRecOn with
  | nil => rfl
  | append_singleton events it ih =>
      have hmem : it ∈ events ++ [it] := List.mem_append_right _ List.mem_cons_self
      have hearlier := ih (fun other h => hset other (List.mem_append_left _ h))
        (fun other h => hkeyed other (List.mem_append_left _ h))
      rw [List.foldl_append, List.foldl_cons, List.foldl_nil,
        read_keyedEvent (hset it hmem) (hkeyed it hmem), hearlier, List.reverse_append,
        List.reverse_singleton, List.singleton_append, List.findSome?_cons]
      cases carried it place with
      | none => rw [Option.none_or]
      | some strValue => rw [Option.some_or, Option.some_or]

/-- What is read was put under the key of the group of an event. -/
theorem exists_of_read {events : List RedisSyncData}
    (hset : forall it, it ∈ events -> it.eType = .eSet) {data : SyncStruct} {place : Place}
    (hnone : data.read place = none) (hread : (events.foldl exportEvent data).read place ≠ none) :
    exists it, it ∈ events ∧ placeOf it.SecondKey it.RedisKey = place ∧
      it.mValue.toList ≠ [] := by
  induction events using List.reverseRecOn with
  | nil => exact absurd hnone hread
  | append_singleton events it ih =>
      have hmem : it ∈ events ++ [it] := List.mem_append_right _ List.mem_cons_self
      rw [List.foldl_append, List.foldl_cons, List.foldl_nil, read_exportEvent (hset it hmem)]
        at hread
      by_cases hearlier : (events.foldl exportEvent data).read place = none
      · rw [hearlier, Option.or_none] at hread
        by_cases hplace : placeOf it.SecondKey it.RedisKey = place
        · refine ⟨it, hmem, hplace, ?_⟩
          intro hnil
          rw [if_pos hplace, hnil] at hread
          exact hread rfl
        · rw [if_neg hplace] at hread
          exact absurd rfl hread
      · rcases ih (fun other h => hset other (List.mem_append_left _ h)) hearlier with
          ⟨other, hother, hrest⟩
        exact ⟨other, List.mem_append_left _ hother, hrest⟩

theorem quiet_events {events : List RedisSyncData}
    (hset : forall it, it ∈ events -> it.eType = .eSet) {data : SyncStruct}
    (hquiet : data.Quiet) : (events.foldl exportEvent data).Quiet := by
  induction events generalizing data with
  | nil => exact hquiet
  | cons it events ih =>
      apply ih (fun other h => hset other (List.mem_cons_of_mem it h))
      unfold exportEvent
      rw [hset it List.mem_cons_self]
      dsimp only
      generalize it.mValue.toList = texts
      induction texts generalizing data with
      | nil => exact hquiet
      | cons itValue texts ih => exact ih (quiet_AddValue hquiet _ _ _)

/-!
# What is to be exported

For each first key, second key and key field the text of the last event that has one, and
nothing else.
-/

def Exported (mSyncData : ExtTreeMap uint64_t SyncStruct) (iFirstKey : uint64_t)
    (place : Place) : Option Text :=
  mSyncData[iFirstKey]?.bind (fun data => data.read place)

def lastText (events : List RedisSyncData) (iFirstKey iSecondKey : uint64_t)
    (iKeyField : uint32_t) : Option Text :=
  events.reverse.findSome? (fun it =>
    if it.Firstkey = iFirstKey ∧ it.SecondKey = iSecondKey then it.mValue[iKeyField]? else none)

structure FieldsKept (events : List RedisSyncData)
    (mSyncData : ExtTreeMap uint64_t SyncStruct) : Prop where
  value : forall iFirstKey iKeyField,
    Exported mSyncData iFirstKey (.value iKeyField) = lastText events iFirstKey 0 iKeyField
  repeated : forall iFirstKey iRedisKey iSecondKey iKeyField,
    Exported mSyncData iFirstKey (.repeated iRedisKey iSecondKey iKeyField) =
      if iSecondKey ≠ 0 ∧ keyOf iKeyField = iRedisKey then
        lastText events iFirstKey iSecondKey iKeyField
      else none
  quiet : forall (iFirstKey : uint64_t) (data : SyncStruct),
    mSyncData[iFirstKey]? = some data -> data.Quiet
  keys : forall iFirstKey : uint64_t, mSyncData[iFirstKey]? ≠ none ->
    exists it, it ∈ events ∧ it.Firstkey = iFirstKey

/-- Set events, with key fields of the group that the event names. -/
def Grouped (events : List RedisSyncData) : Prop :=
  forall it, it ∈ events -> it.eType = .eSet ∧
    forall (iKeyField : uint32_t) (strValue : Text),
      it.mValue[iKeyField]? = some strValue -> keyOf iKeyField = it.RedisKey

theorem exported_eq (listen : RedisListen) (iFirstKey : uint64_t) (place : Place) :
    Exported (listen.ExportSyncData ∅).1 iFirstKey place =
      ((eventsOf listen.m_listSyncData iFirstKey).foldl exportEvent SyncStruct.empty).read
        place := by
  unfold Exported ExportSyncData
  dsimp only
  rw [getElem?_exported]
  by_cases hnil : eventsOf listen.m_listSyncData iFirstKey = []
  · rw [if_pos hnil, hnil]
    exact (read_empty place).symm
  · rw [if_neg hnil]
    rfl

theorem exported_keyed {listen : RedisListen} (hgrouped : Grouped listen.m_listSyncData)
    (hkeyed : forall it, it ∈ listen.m_listSyncData -> Keyed it) (iFirstKey : uint64_t)
    (place : Place) :
    Exported (listen.ExportSyncData ∅).1 iFirstKey place =
      listen.m_listSyncData.reverse.findSome? (fun it =>
        if it.Firstkey = iFirstKey then carried it place else none) := by
  have hevents : forall it, it ∈ eventsOf listen.m_listSyncData iFirstKey ->
      it ∈ listen.m_listSyncData := fun it h => (List.mem_filter.mp h).left
  rw [exported_eq, read_keyedEvents (fun it h => (hgrouped it (hevents it h)).left)
    (fun it h => hkeyed it (hevents it h)), read_empty, Option.or_none]
  clear hkeyed hevents
  unfold eventsOf
  generalize listen.m_listSyncData = events at hgrouped
  induction events using List.reverseRecOn with
  | nil => rfl
  | append_singleton events it ih =>
      have hrest := ih (fun other h => hgrouped other (List.mem_append_left _ h))
      have hset := (hgrouped it (List.mem_append_right _ List.mem_cons_self)).left
      have hnull : it.eType ≠ .eNULL := by
        rw [hset]
        decide
      rw [List.filter_append, List.reverse_append, List.reverse_append, List.findSome?_append,
        hrest, List.filter_cons, List.reverse_singleton, List.singleton_append,
        List.findSome?_cons]
      by_cases hfirst : it.Firstkey = iFirstKey
      · rw [if_pos (decide_eq_true ⟨hnull, hfirst⟩), if_pos hfirst, List.filter_nil,
          List.reverse_singleton, List.findSome?_singleton]
        cases carried it place with
        | none => rw [Option.none_or]
        | some strValue => rw [Option.some_or]
      · rw [if_neg (fun h => hfirst (of_decide_eq_true h).right), if_neg hfirst]
        rfl

theorem fieldsKept_of_keyed {listen : RedisListen} (hgrouped : Grouped listen.m_listSyncData)
    (hkeyed : forall it, it ∈ listen.m_listSyncData -> Keyed it) :
    FieldsKept listen.m_listSyncData (listen.ExportSyncData ∅).1 := by
  refine { value := ?_, repeated := ?_, quiet := ?_, keys := ?_ }
  · intro iFirstKey iKeyField
    rw [exported_keyed hgrouped hkeyed]
    unfold lastText
    congr 1
    funext it
    rw [ite_and]
    rfl
  · intro iFirstKey iRedisKey iSecondKey iKeyField
    rw [exported_keyed hgrouped hkeyed]
    unfold lastText
    by_cases hplace : iSecondKey ≠ 0 ∧ keyOf iKeyField = iRedisKey
    · rw [if_pos hplace]
      congr 1
      funext it
      rw [ite_and]
      dsimp only [carried]
      simp only [and_iff_right hplace.left, and_iff_right hplace.right]
    · rw [if_neg hplace, List.findSome?_eq_none_iff]
      intro it _
      have hnone : carried it (.repeated iRedisKey iSecondKey iKeyField) = none :=
        if_neg (fun h => hplace ⟨h.left, h.right.left⟩)
      rw [hnone, ite_self]
  · intro iFirstKey data hdata
    unfold ExportSyncData at hdata
    dsimp only at hdata
    rw [getElem?_exported] at hdata
    split at hdata
    · cases hdata
    · cases hdata
      apply quiet_events
      · exact fun it h => (hgrouped it (List.mem_filter.mp h).left).left
      · exact quiet_empty
  · intro iFirstKey hne
    unfold ExportSyncData at hne
    dsimp only at hne
    rw [getElem?_exported] at hne
    split at hne
    · exact absurd rfl hne
    · rename_i hsome
      rcases List.exists_mem_of_ne_nil _ hsome with ⟨it, hit⟩
      rcases List.mem_filter.mp hit with ⟨hmem, hevent⟩
      exact ⟨it, hmem, (of_decide_eq_true hevent).right⟩

theorem lastText_ne_none {events : List RedisSyncData} {it : RedisSyncData}
    (hmem : it ∈ events) {iKeyField : uint32_t} {strValue : Text}
    (hget : it.mValue[iKeyField]? = some strValue) :
    lastText events it.Firstkey it.SecondKey iKeyField ≠ none := by
  intro hnone
  have hit := List.findSome?_eq_none_iff.mp hnone it (List.mem_reverse.mpr hmem)
  rw [if_pos ⟨rfl, rfl⟩, hget] at hit
  cases hit

theorem keyed_of_fieldsKept {listen : RedisListen} (hgrouped : Grouped listen.m_listSyncData)
    (hkept : FieldsKept listen.m_listSyncData (listen.ExportSyncData ∅).1) :
    forall it, it ∈ listen.m_listSyncData -> Keyed it := by
  intro it hmem iKeyField strValue hget
  have hgroup := (hgrouped it hmem).right iKeyField strValue hget
  have hlast := lastText_ne_none hmem hget
  -- the text has to be somewhere under its own key field
  have hread : Exported (listen.ExportSyncData ∅).1 it.Firstkey
      (placeOf it.SecondKey iKeyField) ≠ none := by
    unfold placeOf
    by_cases hzero : it.SecondKey = 0
    · rw [if_pos hzero, hkept.value]
      rw [hzero] at hlast
      exact hlast
    · rw [if_neg hzero, hkept.repeated, if_pos ⟨hzero, rfl⟩]
      exact hlast
  rw [exported_eq] at hread
  have hset : forall other, other ∈ eventsOf listen.m_listSyncData it.Firstkey ->
      other ∈ listen.m_listSyncData := fun other h => (List.mem_filter.mp h).left
  rcases exists_of_read (fun other h => (hgrouped other (hset other h)).left) (read_empty _) hread
    with ⟨other, hother, hplace, htexts⟩
  have hfield : other.RedisKey = iKeyField := placeOf_keyField hplace
  rcases List.exists_mem_of_ne_nil _ htexts with ⟨text, htext⟩
  have hotherGroup := (hgrouped other (hset other hother)).right text.1 text.2
    (ExtTreeMap.mem_toList_iff_getElem?_eq_some.mp htext)
  rw [← hgroup, ← hfield, ← hotherGroup, keyOf_keyOf]

/-- The fields of set events are exported as they came, and the queue is emptied, exactly if
no event has another key field than the key of its group. -/
theorem fields_exported_iff (listen : RedisListen) (hgrouped : Grouped listen.m_listSyncData) :
    (FieldsKept listen.m_listSyncData (listen.ExportSyncData ∅).1 ∧
        (listen.ExportSyncData ∅).2.m_listSyncData = []) <->
      forall it, it ∈ listen.m_listSyncData -> Keyed it := by
  constructor
  · intro h
    exact keyed_of_fieldsKept hgrouped h.left
  · intro hkeyed
    exact ⟨fieldsKept_of_keyed hgrouped hkeyed, rfl⟩

/-- One set event with one text. -/
def oneField (iKeyField : uint32_t) : RedisListen :=
  { m_vKey := [5], m_vRedisKey := [0x100],
    m_listSyncData :=
      [{ eType := .eSet, RedisKey := 0x100, Firstkey := 5, SecondKey := 0,
         mValue := (∅ : ExtTreeMap uint32_t Text).insert iKeyField "7".toList }] }

theorem grouped_oneField {iKeyField : uint32_t} (hgroup : keyOf iKeyField = 0x100) :
    Grouped (oneField iKeyField).m_listSyncData := by
  intro it hit
  rw [List.mem_singleton.mp hit]
  refine ⟨rfl, ?_⟩
  intro other strValue hget
  dsimp only at hget
  rw [SortedMap.getElem?_insert_eq] at hget
  split at hget
  · rename_i hsame
    rw [← hsame]
    exact hgroup
  · cases hget

theorem groupField_exported :
    FieldsKept (oneField 0x100).m_listSyncData ((oneField 0x100).ExportSyncData ∅).1 ∧
      ((oneField 0x100).ExportSyncData ∅).2.m_listSyncData = [] := by
  apply (fields_exported_iff (oneField 0x100) (grouped_oneField (by decide))).mpr
  intro it hit iKeyField strValue hget
  rw [List.mem_singleton.mp hit] at hget ⊢
  dsimp only at hget
  rw [SortedMap.getElem?_insert_eq] at hget
  split at hget
  · rename_i hsame
    exact hsame.symm
  · cases hget

/-- The second field of the group. -/
theorem secondField_not_exported :
    Grouped (oneField 0x101).m_listSyncData ∧
      ¬ FieldsKept (oneField 0x101).m_listSyncData ((oneField 0x101).ExportSyncData ∅).1 := by
  refine ⟨grouped_oneField (by decide), ?_⟩
  intro h
  have hvalue := h.value 5 0x101
  have hexported :
      Exported ((oneField 0x101).ExportSyncData ∅).1 5 (.value 0x101) = none := by
    decide
  have hlast : lastText (oneField 0x101).m_listSyncData 5 0 0x101 = some "7".toList := by
    decide
  rw [hexported, hlast] at hvalue
  cases hvalue

end RedisListen
end DataHandle
end GMServer
