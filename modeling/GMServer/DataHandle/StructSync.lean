import GMServer.DataHandle.TRepeated

/-!
# Synchronising a struct

A struct gets the texts of its own values and the changes of its containers.  A value is
constant for whoever is not its owner: it is only written by events, and the others only by
the owner.  The guard is in `IStruct::Sync`, and the load of an added element passes it by.
-/

namespace GMServer
namespace DataHandle

open Std

/-!
# Values

The values of an object are given by their key fields.  What a changed value tells its
object is left out.
-/

structure IValue where
  IsConst : Bool
  m_Value : StringValue.Value
  deriving DecidableEq

abbrev ValueMap := ExtTreeMap uint32_t IValue

section Values

variable (atof : StringValue.Atof)

def IValue.Sync (value : IValue) (pStr : Text) : IValue :=
  { value with m_Value := StringValue.get atof pStr value.m_Value }

/-- The call of `Sync` that a load makes for one text. -/
def loadText (mValue : ValueMap) (call : uint32_t × Text) : ValueMap :=
  match mValue[call.1]? with
  | none => mValue
  | some value => mValue.insert call.1 (value.Sync atof call.2)

def syncText (mValue : ValueMap) (it : uint32_t × Text) : ValueMap :=
  match mValue[it.1]? with
  | none => mValue
  | some itFind =>
      if itFind.IsConst = true then mValue.insert it.1 (itFind.Sync atof (cStr it.2)) else mValue

/-- `IStruct::Sync` with the texts of the values. -/
def syncValues (mValue : ValueMap) (stValue : SyncValue) : ValueMap :=
  if mValue.isEmpty then mValue else stValue.mValue.toList.foldl (syncText atof) mValue

end Values

/-!
# Containers

A handle points to one of the adapters, an element to the container with a key.
-/

structure RepeatedElement where
  m_i64Key : uint64_t
  m_pDataHanle : Option uint32_t
  m_mValue : ValueMap

/-- `ValueType` has the values of an element that was just constructed. -/
structure TBaseRepeat (adapter : Type) where
  ValueType : ValueMap
  m_pHandle : Option (TStruct adapter)
  m_mValue : ExtTreeMap uint64_t RepeatedElement

namespace TBaseRepeat

variable {adapter world : Type} (atof : StringValue.Atof) (adapters : adapter -> IDataAdapter world)

def Load (repeated : TBaseRepeat adapter) (state : world) (iIndex : uint64_t)
    (mValue : List uint32_t) : world × List (uint32_t × Text) × Except Exception Bool :=
  match repeated.m_pHandle with
  | none => (state, [], .ok false)
  | some owner =>
      match owner.m_pDataHanle with
      | none => (state, [], .ok false)
      | some pDataHanle => (adapters pDataHanle).Load state owner.m_i64Key iIndex mValue

/-- `TStruct::Load` of an element of this container. -/
def loadElement (repeated : TBaseRepeat adapter) (state : world) (data : RepeatedElement) :
    world × RepeatedElement × Except Exception Bool :=
  match data.m_pDataHanle with
  | none => (state, data, .ok false)
  | some _ =>
      if data.m_mValue.isEmpty then (state, data, .ok true)
      else
        let answer := repeated.Load adapters state data.m_i64Key data.m_mValue.keys
        (answer.1, { data with m_mValue := answer.2.1.foldl (loadText atof) data.m_mValue },
          answer.2.2)

def put (repeated : TBaseRepeat adapter) (iIndex : uint64_t) (data : RepeatedElement) :
    TBaseRepeat adapter :=
  { repeated with m_mValue := repeated.m_mValue.insert iIndex data }

def newElement (repeated : TBaseRepeat adapter) : RepeatedElement :=
  { m_i64Key := 0, m_pDataHanle := none, m_mValue := repeated.ValueType }

/-- The insertion behind the load finds the element in place. -/
def AddIndex (this : uint32_t) (repeated : TBaseRepeat adapter) (state : world)
    (iIndex : uint64_t) : (world × TBaseRepeat adapter) × Outcome :=
  let stData :=
    { repeated.m_mValue[iIndex]?.getD repeated.newElement with
      m_i64Key := iIndex, m_pDataHanle := some this }
  let loaded := repeated.loadElement atof adapters state stData
  ((loaded.1, repeated.put iIndex loaded.2.1),
    match loaded.2.2 with
    | .error exception => .thrown exception
    | .ok _ => .returned true)

def RemoveIndex (repeated : TBaseRepeat adapter) (iIndex : uint64_t) : TBaseRepeat adapter :=
  { repeated with m_mValue := repeated.m_mValue.erase iIndex }

def changeEach (this : uint32_t) (repeated : TBaseRepeat adapter) (state : world) :
    List (uint64_t × Bool) -> (world × TBaseRepeat adapter) × Outcome
  | [] => ((state, repeated), .returned true)
  | it :: rest =>
      if it.2 = true then
        let added := AddIndex atof adapters this repeated state it.1
        match added.2 with
        | .returned _ => changeEach this added.1.2 added.1.1 rest
        | _ => added
      else changeEach this (repeated.RemoveIndex it.1) state rest

def syncElement (repeated : TBaseRepeat adapter) (it : uint64_t × SyncValue) :
    TBaseRepeat adapter :=
  match repeated.m_mValue[it.1]? with
  | none => repeated
  | some itFind =>
      repeated.put it.1 { itFind with m_mValue := syncValues atof itFind.m_mValue it.2 }

def Sync (this : uint32_t) (repeated : TBaseRepeat adapter) (state : world)
    (stRepeated : SyncRepeated) : (world × TBaseRepeat adapter) × Outcome :=
  let changed := changeEach atof adapters this repeated state stRepeated.vChange
  match changed.2 with
  | .returned bValue =>
      ((changed.1.1, stRepeated.mValue.toList.foldl (syncElement atof) changed.1.2),
        .returned bValue)
  | _ => changed

end TBaseRepeat

/-!
# The struct
-/

structure IStruct (adapter : Type) where
  m_mValue : ValueMap
  m_mRepeated : ExtTreeMap uint32_t (TBaseRepeat adapter)

namespace IStruct

variable {adapter world : Type} (atof : StringValue.Atof) (adapters : adapter -> IDataAdapter world)

def syncGroups (s : IStruct adapter) (state : world) :
    List (uint32_t × SyncRepeated) -> (world × IStruct adapter) × Outcome
  | [] => ((state, s), .returned true)
  | it :: rest =>
      match s.m_mRepeated[it.1]? with
      | none => s.syncGroups state rest
      | some itFind =>
          let synced := itFind.Sync atof adapters it.1 state it.2
          let next := { s with m_mRepeated := s.m_mRepeated.insert it.1 synced.1.2 }
          match synced.2 with
          | .returned _ => next.syncGroups synced.1.1 rest
          | outcome => ((synced.1.1, next), outcome)

def Sync (s : IStruct adapter) (state : world) (stStruct : SyncStruct) :
    (world × IStruct adapter) × Outcome :=
  { s with m_mValue := syncValues atof s.m_mValue stStruct.stValue }.syncGroups atof adapters state
    stStruct.mRepeated.toList

end IStruct

/-!
# What is the owner's
-/

/-- The values that only the owner writes are the same. -/
def KeepsOwn (before after : ValueMap) : Prop :=
  forall (iKeyField : uint32_t) (value : IValue),
    before[iKeyField]? = some value -> value.IsConst = false -> after[iKeyField]? = some value

theorem keepsOwn_refl (mValue : ValueMap) : KeepsOwn mValue mValue := fun _ _ h _ => h

theorem keepsOwn_trans {first second third : ValueMap} (hfirst : KeepsOwn first second)
    (hsecond : KeepsOwn second third) : KeepsOwn first third :=
  fun iKeyField value h hown => hsecond iKeyField value (hfirst iKeyField value h hown) hown

theorem keepsOwn_syncText (atof : StringValue.Atof) (mValue : ValueMap) (it : uint32_t × Text) :
    KeepsOwn mValue (syncText atof mValue it) := by
  intro iKeyField value hget hown
  unfold syncText
  cases hfind : mValue[it.1]? with
  | none => exact hget
  | some itFind =>
      dsimp only
      by_cases hconst : itFind.IsConst = true
      · rw [if_pos hconst, SortedMap.getElem?_insert_ne _ _ _, hget]
        intro hsame
        rw [← hsame, hfind] at hget
        cases hget
        cases hconst.symm.trans hown
      · rw [if_neg hconst, hget]

theorem keepsOwn_syncValues (atof : StringValue.Atof) (mValue : ValueMap) (stValue : SyncValue) :
    KeepsOwn mValue (syncValues atof mValue stValue) := by
  unfold syncValues
  split
  · exact keepsOwn_refl mValue
  · rename_i hne
    clear hne
    generalize stValue.mValue.toList = texts
    induction texts generalizing mValue with
    | nil => exact keepsOwn_refl mValue
    | cons it texts ih => exact keepsOwn_trans (keepsOwn_syncText atof mValue it) (ih _)

theorem getElem?_loadText (atof : StringValue.Atof) (mValue : ValueMap) (call : uint32_t × Text)
    (iKeyField : uint32_t) :
    (loadText atof mValue call)[iKeyField]? =
      if call.1 = iKeyField then mValue[iKeyField]?.map (fun value => value.Sync atof call.2)
      else mValue[iKeyField]? := by
  unfold loadText
  cases hfind : mValue[call.1]? with
  | none =>
      dsimp only
      by_cases hsame : call.1 = iKeyField
      · rw [if_pos hsame, ← hsame, hfind]
        rfl
      · rw [if_neg hsame]
  | some value =>
      dsimp only
      rw [SortedMap.getElem?_insert_eq]
      by_cases hsame : call.1 = iKeyField
      · rw [if_pos hsame, if_pos hsame, ← hsame, hfind]
        rfl
      · rw [if_neg hsame, if_neg hsame]

/-!
# One element of a container

A property of the values of an element that loads and events keep is kept by a list of
changes, as long as the element is not removed.
-/

namespace TBaseRepeat

variable {adapter world : Type} (atof : StringValue.Atof) (adapters : adapter -> IDataAdapter world)

/-- What a load makes of the values of an element. -/
def loadedValues (repeated : TBaseRepeat adapter) (state : world) (iIndex : uint64_t)
    (mValue : ValueMap) : ValueMap :=
  if mValue.isEmpty then mValue
  else (repeated.Load adapters state iIndex mValue.keys).2.1.foldl (loadText atof) mValue

theorem loadElement_values (repeated : TBaseRepeat adapter) (state : world)
    {data : RepeatedElement} (hhandle : data.m_pDataHanle ≠ none) :
    (repeated.loadElement atof adapters state data).2.1.m_mValue =
      repeated.loadedValues atof adapters state data.m_i64Key data.m_mValue := by
  unfold loadElement loadedValues
  cases hpointer : data.m_pDataHanle with
  | none => exact absurd hpointer hhandle
  | some _ =>
      dsimp only
      split <;> rfl

theorem getElem?_AddIndex (this : uint32_t) (repeated : TBaseRepeat adapter) (state : world)
    (iIndex : uint64_t) {data : RepeatedElement} (hdata : repeated.m_mValue[iIndex]? = some data) :
    exists added, (AddIndex atof adapters this repeated state iIndex).1.2.m_mValue[iIndex]? =
        some added ∧
      added.m_mValue = repeated.loadedValues atof adapters state iIndex data.m_mValue := by
  refine ⟨_, SortedMap.getElem?_insert_same _ _ _, ?_⟩
  rw [hdata, loadElement_values]
  · rfl
  · exact Option.some_ne_none this

theorem getElem?_AddIndex_ne (this : uint32_t) (repeated : TBaseRepeat adapter) (state : world)
    {iIndex other : uint64_t} (hne : iIndex ≠ other) :
    (AddIndex atof adapters this repeated state iIndex).1.2.m_mValue[other]? =
      repeated.m_mValue[other]? :=
  SortedMap.getElem?_insert_ne _ _ hne

theorem getElem?_RemoveIndex_ne (repeated : TBaseRepeat adapter) {iIndex other : uint64_t}
    (hne : iIndex ≠ other) :
    (repeated.RemoveIndex iIndex).m_mValue[other]? = repeated.m_mValue[other]? := by
  unfold RemoveIndex
  dsimp only
  rw [SortedMap.getElem?_erase_eq, if_neg hne]

/-- An event that removes an element is not for one that no event removes. -/
theorem ne_of_removed {it : uint64_t × Bool} {vChange : List (uint64_t × Bool)}
    {iIndex : uint64_t} (hstays : (iIndex, false) ∉ it :: vChange) (hremove : ¬ it.2 = true) :
    it.1 ≠ iIndex := by
  rw [List.mem_cons, not_or] at hstays
  intro hsame
  exact hstays.left (Prod.ext hsame.symm (Bool.eq_false_of_not_eq_true hremove).symm)

/-- The property may fail to be kept by loads if the element is never added. -/
theorem changeEach_keeps {Q : ValueMap -> Prop} (this : uint32_t) {repeated : TBaseRepeat adapter}
    (state : world) {vChange : List (uint64_t × Bool)} {iIndex : uint64_t}
    (hload : (iIndex, true) ∈ vChange -> forall loaded : TBaseRepeat adapter,
      loaded.m_pHandle = repeated.m_pHandle -> forall state mValue,
        Q mValue -> Q (loaded.loadedValues atof adapters state iIndex mValue))
    (hstays : (iIndex, false) ∉ vChange) {data : RepeatedElement}
    (hdata : repeated.m_mValue[iIndex]? = some data) (hQ : Q data.m_mValue) :
    exists after, (changeEach atof adapters this repeated state vChange).1.2.m_mValue[iIndex]? =
      some after ∧ Q after.m_mValue := by
  induction vChange generalizing repeated state data with
  | nil => exact ⟨data, hdata, hQ⟩
  | cons it vChange ih =>
      have hlater : (iIndex, false) ∉ vChange :=
        fun h => hstays (List.mem_cons_of_mem it h)
      unfold changeEach
      by_cases hadd : it.2 = true
      · rw [if_pos hadd]
        have hadded : exists added,
            (AddIndex atof adapters this repeated state it.1).1.2.m_mValue[iIndex]? =
              some added ∧ Q added.m_mValue := by
          by_cases hsame : it.1 = iIndex
          · have hmem : (iIndex, true) ∈ it :: vChange := by
              rw [← hsame, ← hadd]
              exact List.mem_cons_self
            rw [hsame]
            rcases getElem?_AddIndex atof adapters this repeated state iIndex hdata with
              ⟨added, hget, hvalues⟩
            refine ⟨added, hget, ?_⟩
            rw [hvalues]
            exact hload hmem repeated rfl state _ hQ
          · rw [getElem?_AddIndex_ne atof adapters this repeated state hsame]
            exact ⟨data, hdata, hQ⟩
        rcases hadded with ⟨added, hget, hkept⟩
        dsimp only
        split
        · exact ih _ (fun h => hload (List.mem_cons_of_mem it h)) hlater hget hkept
        · exact ⟨added, hget, hkept⟩
      · rw [if_neg hadd]
        have hget := getElem?_RemoveIndex_ne repeated (ne_of_removed hstays hadd)
        exact ih _ (fun h => hload (List.mem_cons_of_mem it h)) hlater (hget.trans hdata) hQ

theorem foldl_syncElement_keeps {Q : ValueMap -> Prop} {repeated : TBaseRepeat adapter}
    (hsync : forall mValue stValue, Q mValue -> Q (syncValues atof mValue stValue))
    (texts : List (uint64_t × SyncValue)) {iIndex : uint64_t} {data : RepeatedElement}
    (hdata : repeated.m_mValue[iIndex]? = some data) (hQ : Q data.m_mValue) :
    exists after, (texts.foldl (syncElement atof) repeated).m_mValue[iIndex]? = some after ∧
      Q after.m_mValue := by
  induction texts generalizing repeated data with
  | nil => exact ⟨data, hdata, hQ⟩
  | cons it texts ih =>
      rw [List.foldl_cons]
      unfold syncElement
      cases hfind : repeated.m_mValue[it.1]? with
      | none => exact ih hdata hQ
      | some itFind =>
          by_cases hsame : it.1 = iIndex
          · rw [hsame] at hfind ⊢
            cases hdata.symm.trans hfind
            exact ih (SortedMap.getElem?_insert_same _ _ _) (hsync _ _ hQ)
          · exact ih ((SortedMap.getElem?_insert_ne _ _ hsame).trans hdata) hQ

theorem Sync_keeps {Q : ValueMap -> Prop} (this : uint32_t) {repeated : TBaseRepeat adapter}
    (state : world) {stRepeated : SyncRepeated} {iIndex : uint64_t}
    (hload : (iIndex, true) ∈ stRepeated.vChange -> forall loaded : TBaseRepeat adapter,
      loaded.m_pHandle = repeated.m_pHandle -> forall state mValue,
        Q mValue -> Q (loaded.loadedValues atof adapters state iIndex mValue))
    (hsync : forall mValue stValue, Q mValue -> Q (syncValues atof mValue stValue))
    (hstays : (iIndex, false) ∉ stRepeated.vChange) {data : RepeatedElement}
    (hdata : repeated.m_mValue[iIndex]? = some data) (hQ : Q data.m_mValue) :
    exists after, (Sync atof adapters this repeated state stRepeated).1.2.m_mValue[iIndex]? =
      some after ∧ Q after.m_mValue := by
  rcases changeEach_keeps atof adapters this state hload hstays hdata hQ with
    ⟨changed, hchanged, hkept⟩
  unfold Sync
  dsimp only
  split
  · exact foldl_syncElement_keeps atof hsync _ hchanged hkept
  · exact ⟨changed, hchanged, hkept⟩

/-!
# Loads that are answered

If no load throws, all changes are made, and an added element is loaded.
-/

def Answers (adapters : adapter -> IDataAdapter world) : Prop :=
  forall pDataHanle state iKey iIndex mValue,
    exists bValue, ((adapters pDataHanle).Load state iKey iIndex mValue).2.2 = .ok bValue

variable {adapters}

theorem AddIndex_returns (hanswers : Answers adapters) (this : uint32_t)
    (repeated : TBaseRepeat adapter) (state : world) (iIndex : uint64_t) :
    (AddIndex atof adapters this repeated state iIndex).2 = .returned true := by
  have hload : forall data : RepeatedElement,
      exists bValue, (repeated.loadElement atof adapters state data).2.2 = .ok bValue := by
    intro data
    unfold loadElement
    split
    · exact ⟨false, rfl⟩
    · split
      · exact ⟨true, rfl⟩
      · dsimp only
        unfold Load
        split
        · exact ⟨false, rfl⟩
        · split
          · exact ⟨false, rfl⟩
          · exact hanswers _ _ _ _ _
  unfold AddIndex
  dsimp only
  rcases hload { repeated.m_mValue[iIndex]?.getD repeated.newElement with
    m_i64Key := iIndex, m_pDataHanle := some this } with ⟨bValue, hvalue⟩
  rw [hvalue]

theorem changeEach_returns (hanswers : Answers adapters) (this : uint32_t)
    (repeated : TBaseRepeat adapter) (state : world) (vChange : List (uint64_t × Bool)) :
    (changeEach atof adapters this repeated state vChange).2 = .returned true := by
  induction vChange generalizing repeated state with
  | nil => rfl
  | cons it vChange ih =>
      unfold changeEach
      split
      · dsimp only
        rw [AddIndex_returns atof hanswers]
        exact ih _ _
      · exact ih _ _

theorem Sync_returns (hanswers : Answers adapters) (this : uint32_t)
    (repeated : TBaseRepeat adapter) (state : world) (stRepeated : SyncRepeated) :
    (Sync atof adapters this repeated state stRepeated).2 = .returned true := by
  unfold Sync
  dsimp only
  rw [changeEach_returns atof hanswers]

theorem changeEach_loads {Q R : ValueMap -> Prop} (hanswers : Answers adapters)
    (this : uint32_t) {repeated : TBaseRepeat adapter} (state : world)
    {vChange : List (uint64_t × Bool)} {iIndex : uint64_t}
    (hfirst : forall loaded : TBaseRepeat adapter, loaded.m_pHandle = repeated.m_pHandle ->
      forall state mValue, Q mValue -> R (loaded.loadedValues atof adapters state iIndex mValue))
    (hagain : forall loaded : TBaseRepeat adapter, loaded.m_pHandle = repeated.m_pHandle ->
      forall state mValue, R mValue -> R (loaded.loadedValues atof adapters state iIndex mValue))
    (hadded : (iIndex, true) ∈ vChange) (hstays : (iIndex, false) ∉ vChange)
    {data : RepeatedElement} (hdata : repeated.m_mValue[iIndex]? = some data)
    (hQ : Q data.m_mValue) :
    exists after, (changeEach atof adapters this repeated state vChange).1.2.m_mValue[iIndex]? =
      some after ∧ R after.m_mValue := by
  induction vChange generalizing repeated state data with
  | nil => cases hadded
  | cons it vChange ih =>
      have hlater : (iIndex, false) ∉ vChange :=
        fun h => hstays (List.mem_cons_of_mem it h)
      have hadded_later : it.1 ≠ iIndex -> (iIndex, true) ∈ vChange := by
        intro hne
        exact List.mem_of_ne_of_mem (fun h => hne (congrArg Prod.fst h).symm) hadded
      unfold changeEach
      by_cases hadd : it.2 = true
      · rw [if_pos hadd]
        dsimp only
        rw [AddIndex_returns atof hanswers]
        dsimp only
        by_cases hsame : it.1 = iIndex
        · rw [hsame]
          rcases getElem?_AddIndex atof adapters this repeated state iIndex hdata with
            ⟨added, hget, hvalues⟩
          have hR : R added.m_mValue := by
            rw [hvalues]
            exact hfirst repeated rfl state _ hQ
          exact changeEach_keeps atof adapters this _ (fun _ => hagain) hlater hget hR
        · exact ih _ hfirst hagain (hadded_later hsame) hlater
            ((getElem?_AddIndex_ne atof adapters this repeated state hsame).trans hdata) hQ
      · rw [if_neg hadd]
        have hne := ne_of_removed hstays hadd
        have hget := getElem?_RemoveIndex_ne repeated hne
        exact ih _ hfirst hagain (hadded_later hne) hlater (hget.trans hdata) hQ

theorem Sync_loads {Q R : ValueMap -> Prop} (hanswers : Answers adapters)
    (this : uint32_t) {repeated : TBaseRepeat adapter} (state : world)
    {stRepeated : SyncRepeated} {iIndex : uint64_t}
    (hfirst : forall loaded : TBaseRepeat adapter, loaded.m_pHandle = repeated.m_pHandle ->
      forall state mValue, Q mValue -> R (loaded.loadedValues atof adapters state iIndex mValue))
    (hagain : forall loaded : TBaseRepeat adapter, loaded.m_pHandle = repeated.m_pHandle ->
      forall state mValue, R mValue -> R (loaded.loadedValues atof adapters state iIndex mValue))
    (hsync : forall mValue stValue, R mValue -> R (syncValues atof mValue stValue))
    (hadded : (iIndex, true) ∈ stRepeated.vChange)
    (hstays : (iIndex, false) ∉ stRepeated.vChange) {data : RepeatedElement}
    (hdata : repeated.m_mValue[iIndex]? = some data) (hQ : Q data.m_mValue) :
    exists after, (Sync atof adapters this repeated state stRepeated).1.2.m_mValue[iIndex]? =
      some after ∧ R after.m_mValue := by
  rcases changeEach_loads atof hanswers this state hfirst hagain hadded hstays hdata hQ with
    ⟨changed, hchanged, hR⟩
  unfold Sync
  dsimp only
  rw [changeEach_returns atof hanswers]
  exact foldl_syncElement_keeps atof hsync _ hchanged hR

end TBaseRepeat

/-!
# The containers of a struct

Each group has one entry, so that its container is changed once or, after a load that has
thrown, not at all.
-/

namespace IStruct

variable {adapter world : Type} (atof : StringValue.Atof) (adapters : adapter -> IDataAdapter world)

theorem syncGroups_values (s : IStruct adapter) (state : world)
    (groups : List (uint32_t × SyncRepeated)) :
    (s.syncGroups atof adapters state groups).1.2.m_mValue = s.m_mValue := by
  induction groups generalizing s state with
  | nil => rfl
  | cons it groups ih =>
      unfold syncGroups
      split
      · exact ih s state
      · dsimp only
        split
        · exact ih _ _
        · rfl

theorem syncGroups_of_not_mem {s : IStruct adapter} (state : world)
    {groups : List (uint32_t × SyncRepeated)} {iRedisKey : uint32_t}
    (hkey : iRedisKey ∉ groups.map Prod.fst) :
    (s.syncGroups atof adapters state groups).1.2.m_mRepeated[iRedisKey]? =
      s.m_mRepeated[iRedisKey]? := by
  induction groups generalizing s state with
  | nil => rfl
  | cons it groups ih =>
      rw [List.map_cons, List.mem_cons, not_or] at hkey
      unfold syncGroups
      split
      · exact ih state hkey.right
      · have hother : forall container : TBaseRepeat adapter,
            (s.m_mRepeated.insert it.1 container)[iRedisKey]? = s.m_mRepeated[iRedisKey]? :=
          fun container => SortedMap.getElem?_insert_ne _ _ (Ne.symm hkey.left)
        dsimp only
        split
        · exact (ih _ hkey.right).trans (hother _)
        · exact hother _

/-- The container of a group is changed once, unless a load threw before. -/
theorem syncGroups_cases {s : IStruct adapter} (state : world)
    {groups : List (uint32_t × SyncRepeated)} (hdistinct : (groups.map Prod.fst).Nodup)
    {iRedisKey : uint32_t} {stRepeated : SyncRepeated} (hmem : (iRedisKey, stRepeated) ∈ groups)
    {container : TBaseRepeat adapter} (hget : s.m_mRepeated[iRedisKey]? = some container) :
    (exists before, (s.syncGroups atof adapters state groups).1.2.m_mRepeated[iRedisKey]? =
        some (container.Sync atof adapters iRedisKey before stRepeated).1.2) ∨
      (¬ TBaseRepeat.Answers adapters ∧
        (s.syncGroups atof adapters state groups).1.2.m_mRepeated[iRedisKey]? =
          some container) := by
  induction groups generalizing s state with
  | nil => cases hmem
  | cons it groups ih =>
      rw [List.map_cons, List.nodup_cons] at hdistinct
      by_cases hsame : it.1 = iRedisKey
      · have hit : it = (iRedisKey, stRepeated) := by
          rcases List.mem_cons.mp hmem with hhead | hlater
          · exact hhead.symm
          · rw [hsame] at hdistinct
            exact absurd (List.mem_map.mpr ⟨_, hlater, rfl⟩) hdistinct.left
        rw [hit] at hdistinct ⊢
        refine Or.inl ⟨state, ?_⟩
        unfold syncGroups
        rw [hget]
        dsimp only
        split
        · rw [syncGroups_of_not_mem atof adapters _ hdistinct.left]
          exact SortedMap.getElem?_insert_same _ _ _
        · exact SortedMap.getElem?_insert_same _ _ _
      · have hlater : (iRedisKey, stRepeated) ∈ groups :=
          List.mem_of_ne_of_mem (fun h => hsame (congrArg Prod.fst h).symm) hmem
        unfold syncGroups
        split
        · exact ih state hdistinct.right hlater hget
        · rename_i itFind _
          have hkept : (s.m_mRepeated.insert it.1
              (itFind.Sync atof adapters it.1 state it.2).1.2)[iRedisKey]? = some container :=
            (SortedMap.getElem?_insert_ne _ _ hsame).trans hget
          dsimp only
          split
          · exact ih _ hdistinct.right hlater hkept
          · rename_i hthrown
            refine Or.inr ⟨?_, hkept⟩
            intro hanswers
            exact hthrown true (TBaseRepeat.Sync_returns atof hanswers _ _ _ _)

/-!
# What a synchronisation leaves alone

An element that an event removes is not there afterwards; one that is added under the same
index again is another element.
-/

/-- No event of the group removes the index. -/
def Stays (data : SyncStruct) (iRedisKey : uint32_t) (iIndex : uint64_t) : Prop :=
  forall stRepeated, data.mRepeated[iRedisKey]? = some stRepeated ->
    (iIndex, false) ∉ stRepeated.vChange

structure OwnKept (before after : IStruct adapter) (data : SyncStruct) : Prop where
  values : KeepsOwn before.m_mValue after.m_mValue
  elements : forall (iRedisKey : uint32_t) (container : TBaseRepeat adapter)
    (iIndex : uint64_t) (element : RepeatedElement),
    before.m_mRepeated[iRedisKey]? = some container ->
      container.m_mValue[iIndex]? = some element -> Stays data iRedisKey iIndex ->
        exists synced kept, after.m_mRepeated[iRedisKey]? = some synced ∧
          synced.m_mValue[iIndex]? = some kept ∧ KeepsOwn element.m_mValue kept.m_mValue

/-- What the container is a part of has no adapter. -/
def Detached (container : TBaseRepeat adapter) : Prop :=
  forall owner, container.m_pHandle = some owner -> owner.m_pDataHanle = none

/-- No event adds an element that is there, has values of its owner and can be loaded. -/
def NothingReloaded (s : IStruct adapter) (data : SyncStruct) : Prop :=
  forall (iRedisKey : uint32_t) (container : TBaseRepeat adapter) (iIndex : uint64_t)
    (element : RepeatedElement) (stRepeated : SyncRepeated),
    s.m_mRepeated[iRedisKey]? = some container ->
      container.m_mValue[iIndex]? = some element ->
        data.mRepeated[iRedisKey]? = some stRepeated ->
          (iIndex, true) ∈ stRepeated.vChange -> (iIndex, false) ∉ stRepeated.vChange ->
            Detached container ∨ forall (iKeyField : uint32_t) (value : IValue),
              element.m_mValue[iKeyField]? = some value -> value.IsConst = true

theorem loadedValues_detached {container : TBaseRepeat adapter} (hdetached : Detached container)
    (state : world) (iIndex : uint64_t) (mValue : ValueMap) :
    container.loadedValues atof adapters state iIndex mValue = mValue := by
  unfold TBaseRepeat.loadedValues TBaseRepeat.Load
  split
  · rfl
  · split
    · rfl
    · rename_i owner howner
      rw [hdetached owner howner]
      rfl

theorem ownKept_of_nothingReloaded {s : IStruct adapter} {data : SyncStruct}
    (hnothing : NothingReloaded s data) (state : world) :
    OwnKept s (s.Sync atof adapters state data).1.2 data := by
  constructor
  · unfold Sync
    rw [syncGroups_values]
    exact keepsOwn_syncValues atof _ _
  · intro iRedisKey container iIndex element hcontainer helement hstays
    have hdistinct := SortedMap.nodup_keys data.mRepeated
    have hcurrent : { s with m_mValue := syncValues atof s.m_mValue data.stValue }.m_mRepeated[
        iRedisKey]? = some container := hcontainer
    unfold Sync
    cases hgroup : data.mRepeated[iRedisKey]? with
    | none =>
        have hkey : iRedisKey ∉ data.mRepeated.toList.map Prod.fst := by
          intro hmem
          rcases List.mem_map.mp hmem with ⟨it, hit, hEq⟩
          have hsome := ExtTreeMap.mem_toList_iff_getElem?_eq_some.mp hit
          rw [hEq, hgroup] at hsome
          cases hsome
        rw [syncGroups_of_not_mem atof adapters state hkey]
        exact ⟨container, element, hcontainer, helement, keepsOwn_refl _⟩
    | some stRepeated =>
        have hmem : (iRedisKey, stRepeated) ∈ data.mRepeated.toList :=
          ExtTreeMap.mem_toList_iff_getElem?_eq_some.mpr hgroup
        have hkeep := hstays stRepeated hgroup
        rcases syncGroups_cases atof adapters state hdistinct hmem hcurrent with
          ⟨before, hsynced⟩ | ⟨_, hsame⟩
        · have hload : (iIndex, true) ∈ stRepeated.vChange ->
              forall loaded : TBaseRepeat adapter, loaded.m_pHandle = container.m_pHandle ->
                forall state mValue, KeepsOwn element.m_mValue mValue ->
                  KeepsOwn element.m_mValue
                    (loaded.loadedValues atof adapters state iIndex mValue) := by
            intro hadd loaded hhandle other mValue hown
            rcases hnothing iRedisKey container iIndex element stRepeated hcontainer helement
              hgroup hadd hkeep with hdetached | hconst
            · have hloaded : Detached loaded :=
                fun owner howner => hdetached owner (hhandle ▸ howner)
              rw [loadedValues_detached atof adapters hloaded]
              exact hown
            · intro iKeyField value hget hfalse
              cases (hconst iKeyField value hget).symm.trans hfalse
          have hsync : forall mValue stValue, KeepsOwn element.m_mValue mValue ->
              KeepsOwn element.m_mValue (syncValues atof mValue stValue) :=
            fun mValue stValue hown =>
              keepsOwn_trans hown (keepsOwn_syncValues atof mValue stValue)
          rcases TBaseRepeat.Sync_keeps atof adapters iRedisKey before hload hsync
            hkeep helement (keepsOwn_refl _) with ⟨kept, hkept, hown⟩
          exact ⟨_, kept, hsynced, hkept, hown⟩
        · exact ⟨container, element, hsame, helement, keepsOwn_refl _⟩

/-!
# What a load can overwrite

An adapter whose store has the same text for one field everywhere.
-/

def holding (iKeyField : uint32_t) (strValue : Text) : IDataAdapter Unit :=
  { Load := fun state _ _ mValue =>
      (state, if iKeyField ∈ mValue then [(iKeyField, strValue)] else [], .ok true),
    Save := fun state _ _ _ => (state, none),
    SetValue := fun state _ _ _ => state,
    GetAllKey := fun state _ _ => (state, .ok []),
    AddRepeated := fun state _ _ _ => (state, none),
    RemoveRepeated := fun state _ _ _ => (state, none) }

theorem loadedValues_holding {container : TBaseRepeat adapter} (hattached : ¬ Detached container)
    {iKeyField : uint32_t} {strValue : Text} (state : Unit) (iIndex : uint64_t)
    {mValue : ValueMap} {value : IValue} (hget : mValue[iKeyField]? = some value) :
    (container.loadedValues atof (fun _ => holding iKeyField strValue) state iIndex
      mValue)[iKeyField]? = some (value.Sync atof strValue) := by
  unfold Detached at hattached
  push Not at hattached
  rcases hattached with ⟨owner, howner, hadapter⟩
  rcases Option.ne_none_iff_exists'.mp hadapter with ⟨pDataHanle, hpointer⟩
  have hkey : iKeyField ∈ mValue.keys := by
    rw [ExtTreeMap.mem_keys, ExtTreeMap.mem_iff_isSome_getElem?, hget]
    rfl
  have hne : ¬ mValue.isEmpty = true := by
    intro hempty
    rw [ExtTreeMap.isEmpty_iff.mp hempty, ExtTreeMap.getElem?_empty] at hget
    cases hget
  unfold TBaseRepeat.loadedValues TBaseRepeat.Load holding
  rw [if_neg hne, howner]
  dsimp only
  rw [hpointer]
  dsimp only
  rw [if_pos hkey, List.foldl_cons, List.foldl_nil, getElem?_loadText, if_pos rfl, hget]
  rfl

theorem nothingReloaded_of_ownKept {atof : StringValue.Atof} (hatof : atof.Reads)
    {s : IStruct adapter} {data : SyncStruct}
    (hkept : forall (world : Type) (adapters : adapter -> IDataAdapter world) (state : world),
      OwnKept s (s.Sync atof adapters state data).1.2 data) :
    NothingReloaded s data := by
  intro iRedisKey container iIndex element stRepeated hcontainer helement hgroup hadded hremoved
  by_cases hdetached : Detached container
  · exact Or.inl hdetached
  · right
    intro iKeyField value hget
    by_contra hconst
    have hown : value.IsConst = false := Bool.eq_false_of_not_eq_true hconst
    rcases StringValue.exists_get_ne hatof value.m_Value with ⟨strValue, hne⟩
    have hanswers : TBaseRepeat.Answers
        (fun _ : adapter => holding iKeyField strValue) := fun _ _ _ _ _ => ⟨true, rfl⟩
    have hattached : forall loaded : TBaseRepeat adapter,
        loaded.m_pHandle = container.m_pHandle -> ¬ Detached loaded := by
      intro loaded hhandle hloaded
      exact hdetached (fun owner howner => hloaded owner (hhandle.trans howner))
    have hmem : (iRedisKey, stRepeated) ∈ data.mRepeated.toList :=
      ExtTreeMap.mem_toList_iff_getElem?_eq_some.mpr hgroup
    have hcurrent : { s with m_mValue := syncValues atof s.m_mValue data.stValue }.m_mRepeated[
        iRedisKey]? = some container := hcontainer
    have hstays : Stays data iRedisKey iIndex := by
      intro other hother
      cases hgroup.symm.trans hother
      exact hremoved
    rcases (hkept Unit (fun _ => holding iKeyField strValue) ()).elements iRedisKey container
      iIndex element hcontainer helement hstays with ⟨synced, kept, hsynced, hthere, hsame⟩
    rcases syncGroups_cases atof (fun _ => holding iKeyField strValue) ()
      (SortedMap.nodup_keys data.mRepeated) hmem hcurrent with ⟨before, hchanged⟩ | ⟨hthrows, _⟩
    · rcases TBaseRepeat.Sync_loads atof hanswers iRedisKey before
        (Q := fun mValue => mValue[iKeyField]? = some value)
        (R := fun mValue => mValue[iKeyField]? = some (value.Sync atof strValue))
        (fun loaded hhandle state _ hvalue =>
          loadedValues_holding atof (hattached loaded hhandle) state iIndex hvalue)
        (fun loaded hhandle state _ hvalue => by
          rw [loadedValues_holding atof (hattached loaded hhandle) state iIndex hvalue]
          unfold IValue.Sync
          rw [StringValue.get_get])
        (fun mValue stValue hvalue => keepsOwn_syncValues atof mValue stValue _ _ hvalue hown)
        hadded hremoved helement hget with ⟨after, hafter, hloaded⟩
      unfold Sync at hsynced
      cases hchanged.symm.trans hsynced
      cases hafter.symm.trans hthere
      have hvalues := hloaded.symm.trans (hsame iKeyField value hget hown)
      injection hvalues with hvalue
      exact hne (congrArg IValue.m_Value hvalue)
    · exact hthrows hanswers

/-- Whatever the store holds, nothing of the owner is overwritten, exactly if no element that
is kept is loaded again. -/
theorem own_kept_iff {atof : StringValue.Atof} (hatof : atof.Reads) (s : IStruct adapter)
    (data : SyncStruct) :
    (forall (world : Type) (adapters : adapter -> IDataAdapter world) (state : world),
        OwnKept s (s.Sync atof adapters state data).1.2 data) <-> NothingReloaded s data := by
  constructor
  · exact nothingReloaded_of_ownKept hatof
  · intro hnothing world adapters state
    exact ownKept_of_nothingReloaded atof adapters hnothing state

/-- Reads the digit one and takes every other text for zero. -/
def atofDigit : StringValue.Atof :=
  { toFloat := fun pStr =>
      if pStr = "1".toList then .finite false 10000 else .finite false 0,
    toDouble := fun pStr =>
      if pStr = "1".toList then .finite false 10000 else .finite false 0 }

def levelThree : ValueMap :=
  (∅ : ValueMap).insert BagequipField.Level.KeyField { IsConst := false, m_Value := .uint32 3 }

def equipment : RepeatedElement :=
  { m_i64Key := 7, m_pDataHanle := some player_bagequip, m_mValue := levelThree }

def bag : TBaseRepeat Unit :=
  { ValueType := levelThree,
    m_pHandle := some { m_i64Key := 1, m_mValue := [], m_pDataHanle := some () },
    m_mValue := (∅ : ExtTreeMap uint64_t RepeatedElement).insert 7 equipment }

/-- A player with one equipment, of level 3. -/
def equipped : IStruct Unit :=
  { m_mValue := ∅,
    m_mRepeated := (∅ : ExtTreeMap uint32_t (TBaseRepeat Unit)).insert player_bagequip bag }

def equipmentAdded (iIndex : uint64_t) : SyncStruct :=
  { stValue := SyncValue.empty,
    mRepeated := (∅ : ExtTreeMap uint32_t SyncRepeated).insert player_bagequip
      { mValue := ∅, vChange := [(iIndex, true)] } }

theorem atofDigit_reads : atofDigit.Reads :=
  { toFloat := ⟨rfl, rfl⟩, toDouble := ⟨rfl, rfl⟩ }

/-- The player gets a second equipment. -/
theorem equipped_own_kept :
    OwnKept equipped
      (equipped.Sync atofDigit (fun _ => holding BagequipField.Level.KeyField "5".toList) ()
        (equipmentAdded 8)).1.2
      (equipmentAdded 8) := by
  refine (own_kept_iff atofDigit_reads equipped (equipmentAdded 8)).mpr ?_ Unit _ ()
  intro iRedisKey container iIndex element stRepeated hcontainer helement hgroup hadded _
  unfold equipped at hcontainer
  unfold equipmentAdded at hgroup
  rw [SortedMap.getElem?_insert_eq] at hcontainer hgroup
  by_cases hkey : player_bagequip = iRedisKey
  · rw [if_pos hkey] at hcontainer hgroup
    cases hcontainer
    cases hgroup
    have hindex : iIndex = 8 := congrArg Prod.fst (List.mem_singleton.mp hadded)
    have hnone : bag.m_mValue[iIndex]? = none := by
      rw [hindex]
      decide
    cases hnone.symm.trans helement
  · rw [if_neg hkey] at hcontainer
    cases hcontainer

/-- The event for the equipment that is there sets back its level. -/
theorem own_not_kept :
    ¬ forall (world : Type) (adapters : Unit -> IDataAdapter world) (state : world),
      OwnKept equipped (equipped.Sync atofDigit adapters state (equipmentAdded 7)).1.2
        (equipmentAdded 7) := by
  intro hkept
  have hcontainer : equipped.m_mRepeated[player_bagequip]? = some bag :=
    SortedMap.getElem?_insert_same _ _ _
  have hbag : bag.m_mValue[(7 : uint64_t)]? = some equipment :=
    SortedMap.getElem?_insert_same _ _ _
  have hlevel : equipment.m_mValue[BagequipField.Level.KeyField]? =
      some { IsConst := false, m_Value := .uint32 3 } :=
    SortedMap.getElem?_insert_same _ _ _
  have hstays : Stays (equipmentAdded 7) player_bagequip 7 := by
    intro stRepeated hgroup
    cases (SortedMap.getElem?_insert_same _ _ _).symm.trans hgroup
    decide
  rcases (hkept Unit (fun _ => holding BagequipField.Level.KeyField "5".toList) ()).elements
    player_bagequip bag 7 equipment hcontainer hbag hstays with
      ⟨synced, kept, hsynced, hthere, hown⟩
  have hcheck : ((equipped.Sync atofDigit
      (fun _ => holding BagequipField.Level.KeyField "5".toList) ()
        (equipmentAdded 7)).1.2.m_mRepeated[player_bagequip]?.bind (fun synced =>
          synced.m_mValue[(7 : uint64_t)]?)).bind (fun kept =>
            kept.m_mValue[BagequipField.Level.KeyField]?) =
      some { IsConst := false, m_Value := .uint32 5 } := by
    decide
  rw [hsynced, Option.bind_some, hthere, Option.bind_some, hown _ _ hlevel rfl] at hcheck
  cases hcheck

end IStruct
end DataHandle
end GMServer
