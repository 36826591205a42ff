import GMServer.DataHandle.StructSync
import GMServer.DataHandle.ValueText

/-!
# The switch for notifications

A struct tells of a changed value unless its switch is off, and a load turns the switch off
while it writes what it finds.  What the data handle throws leaves the load between the two
assignments.
-/

namespace GMServer
namespace DataHandle
namespace NotifySwitch

open Std

/-!
# Structs

The data handle of a struct is an adapter, and that of an element the container it is in.
`m_mRepeated` is left open, since an element has no containers; `changes` are the arguments of
the calls of `OnValueChange`.
-/

structure Handle (world : Type) where
  IsRepeated : Bool
  Load : world -> uint64_t -> List uint32_t ->
    world × List (uint32_t × Text) × Except Exception Bool

structure Notifying (repeated : Type) where
  m_i64Key : uint64_t
  m_bNotifyValueChange : Bool
  m_mValue : ValueMap
  m_mRepeated : repeated
  changes : List uint32_t

namespace Notifying

variable {world repeated : Type} (atof : StringValue.Atof)

/-- Neither adapters nor containers do anything in their own `ValueChange`. -/
def ValueChange (IsRepeated : Bool) (s : Notifying repeated) (iKeyFiled : uint32_t) :
    Notifying repeated :=
  if s.m_bNotifyValueChange = false then s
  else if IsRepeated = true then s
  else { s with changes := s.changes ++ [iKeyFiled] }

/-- `TBaseValue::Sync` of the value that has the key field. -/
def syncValue (IsRepeated : Bool) (s : Notifying repeated) (call : uint32_t × Text) :
    Notifying repeated :=
  match s.m_mValue[call.1]? with
  | none => s
  | some OldValue =>
      let synced :=
        { s with m_mValue := s.m_mValue.insert call.1 (OldValue.Sync atof call.2) }
      if (OldValue.Sync atof call.2).m_Value ≠ OldValue.m_Value ∧ OldValue.IsConst = true then
        synced.ValueChange IsRepeated call.1
      else synced

/-- The load of the values, if there are any. -/
def loadValues (handle : Handle world) (state : world) (s : Notifying repeated) :
    (world × Notifying repeated) × Except Exception Bool :=
  if s.m_mValue.isEmpty then ((state, s), .ok true)
  else
    let answer := handle.Load state s.m_i64Key s.m_mValue.keys
    ((answer.1, answer.2.1.foldl (syncValue atof handle.IsRepeated) s), answer.2.2)

/-- `loop` goes through the containers. -/
def Load (loop : world -> repeated -> (world × repeated) × Outcome)
    (m_pDataHanle : Option (Handle world)) (state : world) (s : Notifying repeated) :
    (world × Notifying repeated) × Outcome :=
  match m_pDataHanle with
  | none => ((state, s), .returned false)
  | some handle =>
      let loaded := loadValues atof handle state { s with m_bNotifyValueChange := false }
      match loaded.2 with
      | .error exception => (loaded.1, .thrown exception)
      | .ok bOK =>
          let looped := loop loaded.1.1 s.m_mRepeated
          let after := { loaded.1.2 with m_mRepeated := looped.1.2 }
          match looped.2 with
          | .returned _ =>
              ((looped.1.1, { after with m_bNotifyValueChange := s.m_bNotifyValueChange }),
                .returned bOK)
          | outcome => ((looped.1.1, after), outcome)

end Notifying

/-!
# Containers

The elements are listed by the struct that the container belongs to, and read through it.
What the copy constructor of an element does is left open.
-/

structure Repeated (world : Type) where
  ValueType : Notifying Unit
  copy : Notifying Unit -> Notifying Unit
  m_pHandle : Option (TStruct (IDataAdapter world))
  m_mValue : ExtTreeMap uint64_t (Notifying Unit)

namespace Repeated

variable {world : Type} (atof : StringValue.Atof)

/-- The container as the data handle of its elements. -/
def handle (repeated : Repeated world) : Handle world :=
  { IsRepeated := true,
    Load := fun state iIndex mValue =>
      match repeated.m_pHandle with
      | none => (state, [], .ok false)
      | some owner => owner.Load state iIndex mValue }

def noContainers (state : world) (_repeated : Unit) : (world × Unit) × Outcome :=
  ((state, ()), .returned true)

def loadEach (repeated : Repeated world) (state : world) :
    List uint64_t -> (world × Repeated world) × Outcome
  | [] => ((state, repeated), .returned true)
  | it :: rest =>
      let loaded := Notifying.Load atof noContainers (some repeated.handle) state
        { repeated.ValueType with m_i64Key := it }
      match loaded.2 with
      | .returned true =>
          if repeated.m_mValue[it]?.isSome then repeated.loadEach loaded.1.1 rest
          else
            { repeated with
              m_mValue := repeated.m_mValue.insert it (repeated.copy loaded.1.2) }.loadEach
                loaded.1.1 rest
      | .returned false => repeated.loadEach loaded.1.1 rest
      | outcome => ((loaded.1.1, repeated), outcome)

def Load (repeated : Repeated world) (state : world) (_key : uint32_t) :
    (world × Repeated world) × Outcome :=
  match repeated.m_pHandle with
  | none => ((state, repeated), .fault)
  | some owner =>
      let listed := owner.GetAllKey state _key
      match listed.2 with
      | .error exception => ((listed.1, repeated), .thrown exception)
      | .ok listKey => repeated.loadEach atof listed.1 listKey

end Repeated

/-- The containers with their keys, in the order of the map. -/
abbrev Containers (world : Type) := List (uint32_t × Repeated world)

section

variable {world : Type} (atof : StringValue.Atof)

def loadContainers : world -> Containers world -> (world × Containers world) × Outcome
  | state, [] => ((state, []), .returned true)
  | state, it :: rest =>
      let loaded := it.2.Load atof state it.1
      match loaded.2 with
      | .returned _ =>
          let later := loadContainers loaded.1.1 rest
          ((later.1.1, (it.1, loaded.1.2) :: later.1.2), later.2)
      | outcome => ((loaded.1.1, (it.1, loaded.1.2) :: rest), outcome)

/-- `TStruct::Load`. -/
def Load (m_pDataHanle : Option (Handle world)) (state : world)
    (s : Notifying (Containers world)) : (world × Notifying (Containers world)) × Outcome :=
  s.Load atof (loadContainers atof) m_pDataHanle state

end

/-!
# The calls of the handle

What becomes of the world if no call throws; nothing, if one does.
-/

section

variable {world repeated : Type}

def answered (handle : Handle world) (state : world) (s : Notifying repeated) :
    Option world :=
  if s.m_mValue.isEmpty then some state
  else
    match handle.Load state s.m_i64Key s.m_mValue.keys with
    | (next, _, .ok _) => some next
    | (_, _, .error _) => none

def answeredEach (handle : Handle world) (ValueType : Notifying Unit) :
    world -> List uint64_t -> Option world
  | state, [] => some state
  | state, it :: rest =>
      (answered handle state { ValueType with m_i64Key := it }).bind (fun next =>
        answeredEach handle ValueType next rest)

/-- A container without a struct ends the program before anything is thrown. -/
def answeredContainers : world -> Containers world -> Option world
  | state, [] => some state
  | state, it :: rest =>
      match it.2.m_pHandle with
      | none => some state
      | some owner =>
          match owner.GetAllKey state it.1 with
          | (next, .ok listKey) =>
              (answeredEach it.2.handle it.2.ValueType next listKey).bind (fun later =>
                answeredContainers later rest)
          | (_, .error _) => none

/-- No call of the handle throws. -/
def Answered (handle : Handle world) (state : world) (s : Notifying (Containers world)) :
    Prop :=
  (answered handle state s).bind (fun next => answeredContainers next s.m_mRepeated) ≠ none

/-- How a load ends, and what the calls have made of the world. -/
def Agrees (outcome : Outcome) (state : world) (answer : Option world) : Prop :=
  match outcome with
  | .returned _ => answer = some state
  | .thrown _ => answer = none
  | .fault => answer ≠ none

end

/-!
# What a load leaves alone
-/

/-- The elements that were there have the switch that they had. -/
def KeepsElements {world : Type} (before after : Repeated world) : Prop :=
  forall (iIndex : uint64_t) (data : Notifying Unit), before.m_mValue[iIndex]? = some data ->
    exists kept, after.m_mValue[iIndex]? = some kept ∧
      kept.m_bNotifyValueChange = data.m_bNotifyValueChange

structure Restored {world : Type} (before after : Notifying (Containers world)) : Prop where
  own : after.m_bNotifyValueChange = before.m_bNotifyValueChange
  elements : List.Forall₂ (fun one two => KeepsElements one.2 two.2) before.m_mRepeated
    after.m_mRepeated
  silent : after.changes = before.changes

section

variable {world repeated : Type} {atof : StringValue.Atof}

/-- With the switch off nothing but the values changes. -/
structure Silent (before after : Notifying repeated) : Prop where
  off : after.m_bNotifyValueChange = false
  containers : after.m_mRepeated = before.m_mRepeated
  changes : after.changes = before.changes

theorem syncValue_silent (atof : StringValue.Atof) (IsRepeated : Bool) {s : Notifying repeated}
    (hoff : s.m_bNotifyValueChange = false) (call : uint32_t × Text) :
    Silent s (s.syncValue atof IsRepeated call) := by
  unfold Notifying.syncValue
  split
  · exact { off := hoff, containers := rfl, changes := rfl }
  · dsimp only
    split
    · unfold Notifying.ValueChange
      rw [if_pos hoff]
      exact { off := hoff, containers := rfl, changes := rfl }
    · exact { off := hoff, containers := rfl, changes := rfl }

theorem syncValues_silent {IsRepeated : Bool} (calls : List (uint32_t × Text))
    {s : Notifying repeated} (hoff : s.m_bNotifyValueChange = false) :
    Silent s (calls.foldl (Notifying.syncValue atof IsRepeated) s) := by
  induction calls generalizing s with
  | nil => exact { off := hoff, containers := rfl, changes := rfl }
  | cons call calls ih =>
      have hcall := syncValue_silent atof IsRepeated hoff call
      have hrest := ih hcall.off
      rw [List.foldl_cons]
      exact
        { off := hrest.off,
          containers := hrest.containers.trans hcall.containers,
          changes := hrest.changes.trans hcall.changes }

theorem loadValues_silent (atof : StringValue.Atof) (handle : Handle world) (state : world)
    {s : Notifying repeated} (hoff : s.m_bNotifyValueChange = false) :
    Silent s (s.loadValues atof handle state).1.2 := by
  unfold Notifying.loadValues
  split
  · exact { off := hoff, containers := rfl, changes := rfl }
  · exact syncValues_silent _ hoff

theorem keepsElements_refl (r : Repeated world) : KeepsElements r r :=
  fun _ data h => ⟨data, h, rfl⟩

theorem loadEach_keeps (atof : StringValue.Atof) (r : Repeated world) (state : world)
    (listKey : List uint64_t) : KeepsElements r (r.loadEach atof state listKey).1.2 := by
  induction listKey generalizing r state with
  | nil => exact keepsElements_refl r
  | cons it rest ih =>
      unfold Repeated.loadEach
      dsimp only
      split
      · split
        · exact ih r _
        · rename_i habsent
          intro iIndex data hdata
          refine ih _ _ iIndex data ?_
          show (r.m_mValue.insert it _)[iIndex]? = some data
          rw [SortedMap.getElem?_insert_ne, hdata]
          intro hsame
          rw [hsame, hdata] at habsent
          exact habsent rfl
      · exact ih r _
      · exact keepsElements_refl r

theorem load_keeps (atof : StringValue.Atof) (r : Repeated world) (state : world)
    (_key : uint32_t) : KeepsElements r (r.Load atof state _key).1.2 := by
  unfold Repeated.Load
  split
  · exact keepsElements_refl r
  · dsimp only
    split
    · exact keepsElements_refl r
    · exact loadEach_keeps atof r _ _

theorem loadContainers_keeps (atof : StringValue.Atof) (state : world)
    (containers : Containers world) :
    List.Forall₂ (fun one two => KeepsElements one.2 two.2) containers
      (loadContainers atof state containers).1.2 := by
  induction containers generalizing state with
  | nil => exact List.Forall₂.nil
  | cons it rest ih =>
      have hfirst := load_keeps atof it.2 state it.1
      unfold loadContainers
      dsimp only
      split
      · exact List.Forall₂.cons hfirst (ih _)
      · exact List.Forall₂.cons hfirst (List.forall₂_same.mpr (fun _ _ => keepsElements_refl _))

end

/-!
# How a load ends

The calls are those that were counted on, in the same order.
-/

section

variable {world repeated : Type}

theorem loadValues_answered (atof : StringValue.Atof) (handle : Handle world) (state : world)
    (s : Notifying repeated) :
    (exists bOK, (s.loadValues atof handle state).2 = .ok bOK ∧
        answered handle state s = some (s.loadValues atof handle state).1.1) ∨
      exists exception, (s.loadValues atof handle state).2 = .error exception ∧
        answered handle state s = none := by
  unfold Notifying.loadValues answered
  split
  · exact Or.inl ⟨true, rfl, rfl⟩
  · dsimp only
    cases hanswer : handle.Load state s.m_i64Key s.m_mValue.keys with
    | mk next read =>
        cases hresult : read.2 with
        | ok bOK =>
            have hread : read = (read.1, .ok bOK) := Prod.ext rfl hresult
            refine Or.inl ⟨bOK, rfl, ?_⟩
            rw [hread]
        | error exception =>
            have hread : read = (read.1, .error exception) := Prod.ext rfl hresult
            refine Or.inr ⟨exception, rfl, ?_⟩
            rw [hread]

/-- An element has no containers to go through. -/
theorem loadElement_agrees (atof : StringValue.Atof) (handle : Handle world) (state : world)
    (data : Notifying Unit) :
    (exists bOK, (data.Load atof Repeated.noContainers (some handle) state).2 = .returned bOK ∧
        answered handle state data =
          some (data.Load atof Repeated.noContainers (some handle) state).1.1) ∨
      exists exception,
        (data.Load atof Repeated.noContainers (some handle) state).2 = .thrown exception ∧
          answered handle state data = none := by
  unfold Notifying.Load
  dsimp only
  rcases loadValues_answered atof handle state { data with m_bNotifyValueChange := false } with
    ⟨bOK, hok, hanswered⟩ | ⟨exception, herror, hanswered⟩
  · rw [hok]
    exact Or.inl ⟨bOK, rfl, hanswered⟩
  · rw [herror]
    exact Or.inr ⟨exception, rfl, hanswered⟩

theorem loadEach_agrees (atof : StringValue.Atof) (r : Repeated world) (state : world)
    (listKey : List uint64_t) :
    (r.loadEach atof state listKey).2 ≠ .fault ∧
      Agrees (r.loadEach atof state listKey).2 (r.loadEach atof state listKey).1.1
        (answeredEach r.handle r.ValueType state listKey) := by
  induction listKey generalizing r state with
  | nil => exact ⟨fun h => Outcome.noConfusion h, rfl⟩
  | cons it rest ih =>
      unfold Repeated.loadEach answeredEach
      dsimp only
      rcases loadElement_agrees atof r.handle state { r.ValueType with m_i64Key := it } with
        ⟨bOK, hok, hanswered⟩ | ⟨exception, hthrown, hanswered⟩
      · rw [hok, hanswered, Option.bind_some]
        cases bOK with
        | false => exact ih r _
        | true =>
            dsimp only
            split
            · exact ih r _
            · exact ih _ _
      · rw [hthrown, hanswered]
        exact ⟨fun h => Outcome.noConfusion h, rfl⟩

theorem loadContainers_agrees (atof : StringValue.Atof) (state : world)
    (containers : Containers world) :
    Agrees (loadContainers atof state containers).2 (loadContainers atof state containers).1.1
      (answeredContainers state containers) := by
  induction containers generalizing state with
  | nil => rfl
  | cons it rest ih =>
      unfold loadContainers answeredContainers Repeated.Load
      cases hhandle : it.2.m_pHandle with
      | none => exact Option.some_ne_none state
      | some owner =>
          dsimp only
          cases hlisted : owner.GetAllKey state it.1 with
          | mk next result =>
              cases result with
              | error exception => rfl
              | ok listKey =>
                  dsimp only
                  have heach := loadEach_agrees atof it.2 next listKey
                  cases houtcome : (it.2.loadEach atof next listKey).2 with
                  | returned bValue =>
                      rw [houtcome] at heach
                      have hanswered : answeredEach it.2.handle it.2.ValueType next listKey =
                        some (it.2.loadEach atof next listKey).1.1 := heach.right
                      rw [hanswered, Option.bind_some]
                      exact ih _
                  | thrown exception =>
                      rw [houtcome] at heach
                      have hanswered : answeredEach it.2.handle it.2.ValueType next listKey =
                        none := heach.right
                      rw [hanswered]
                      rfl
                  | fault => exact absurd houtcome heach.left

end

/-!
# The switch
-/

section

variable {world : Type}

/-- With a handle, a load that ends normally has turned the switch back, and any other has
not. -/
theorem load_switch (atof : StringValue.Atof) (handle : Handle world) (state : world)
    (s : Notifying (Containers world)) :
    (exists bOK, (Load atof (some handle) state s).2 = .returned bOK ∧
        Answered handle state s ∧
        (Load atof (some handle) state s).1.2.m_bNotifyValueChange = s.m_bNotifyValueChange) ∨
      ((Load atof (some handle) state s).2 = .fault ∧ Answered handle state s) ∨
      exists exception, (Load atof (some handle) state s).2 = .thrown exception ∧
        ¬ Answered handle state s ∧
        (Load atof (some handle) state s).1.2.m_bNotifyValueChange = false := by
  have hsilent := loadValues_silent atof handle state
    (s := { s with m_bNotifyValueChange := false }) rfl
  unfold Load Notifying.Load Answered
  dsimp only
  rcases loadValues_answered atof handle state { s with m_bNotifyValueChange := false } with
    ⟨bOK, hok, hanswered⟩ | ⟨exception, herror, hanswered⟩
  · have hown : answered handle state s = _ := hanswered
    have hagrees := loadContainers_agrees atof
      (Notifying.loadValues atof handle state { s with m_bNotifyValueChange := false }).1.1
      s.m_mRepeated
    rw [hok, hown, Option.bind_some]
    dsimp only
    cases houtcome : (loadContainers atof
        (Notifying.loadValues atof handle state { s with m_bNotifyValueChange := false }).1.1
        s.m_mRepeated).2 with
    | returned bValue =>
        rw [houtcome] at hagrees
        have hsome : answeredContainers _ s.m_mRepeated = some _ := hagrees
        rw [hsome]
        exact Or.inl ⟨bOK, rfl, Option.some_ne_none _, rfl⟩
    | thrown exception =>
        rw [houtcome] at hagrees
        have hnone : answeredContainers _ s.m_mRepeated = none := hagrees
        rw [hnone]
        exact Or.inr (Or.inr ⟨exception, rfl, fun h => h rfl, hsilent.off⟩)
    | fault =>
        rw [houtcome] at hagrees
        exact Or.inr (Or.inl ⟨rfl, hagrees⟩)
  · have hown : answered handle state s = none := hanswered
    rw [herror, hown]
    exact Or.inr (Or.inr ⟨exception, rfl, fun h => h rfl, hsilent.off⟩)

/-- Elements and `OnValueChange` are left alone however the load ends. -/
theorem load_frame (atof : StringValue.Atof) (m_pDataHanle : Option (Handle world))
    (state : world) (s : Notifying (Containers world)) :
    List.Forall₂ (fun one two => KeepsElements one.2 two.2) s.m_mRepeated
        (Load atof m_pDataHanle state s).1.2.m_mRepeated ∧
      (Load atof m_pDataHanle state s).1.2.changes = s.changes := by
  have hsame : List.Forall₂ (fun one two : uint32_t × Repeated world =>
      KeepsElements one.2 two.2) s.m_mRepeated s.m_mRepeated :=
    List.forall₂_same.mpr (fun _ _ => keepsElements_refl _)
  cases m_pDataHanle with
  | none => exact ⟨hsame, rfl⟩
  | some handle =>
      have hsilent := loadValues_silent atof handle state
        (s := { s with m_bNotifyValueChange := false }) rfl
      unfold Load Notifying.Load
      dsimp only
      split
      · refine ⟨?_, hsilent.changes⟩
        dsimp only
        rw [hsilent.containers]
        exact hsame
      · have hkeeps := loadContainers_keeps atof
          (Notifying.loadValues atof handle state { s with m_bNotifyValueChange := false }).1.1
          s.m_mRepeated
        split
        · exact ⟨hkeeps, hsilent.changes⟩
        · exact ⟨hkeeps, hsilent.changes⟩

theorem load_restores_iff (atof : StringValue.Atof) (m_pDataHanle : Option (Handle world))
    (state : world) (s : Notifying (Containers world)) :
    ((Load atof m_pDataHanle state s).2 ≠ .fault ->
        Restored s (Load atof m_pDataHanle state s).1.2) <->
      (s.m_bNotifyValueChange = true -> forall handle, m_pDataHanle = some handle ->
        Answered handle state s) := by
  have hframe := load_frame atof m_pDataHanle state s
  cases m_pDataHanle with
  | none =>
      constructor
      · intro _ _ handle h
        cases h
      · intro _ _
        exact { own := rfl, elements := hframe.left, silent := hframe.right }
  | some handle =>
      rcases load_switch atof handle state s with ⟨bOK, houtcome, hanswered, hown⟩ |
        ⟨houtcome, hanswered⟩ | ⟨exception, houtcome, hthrown, hoff⟩
      · constructor
        · intro _ _ other h
          cases h
          exact hanswered
        · intro _ _
          exact { own := hown, elements := hframe.left, silent := hframe.right }
      · constructor
        · intro _ _ other h
          cases h
          exact hanswered
        · intro _ hleft
          exact absurd houtcome hleft
      · constructor
        · intro hrestored hnotify
          have hown := (hrestored (by rw [houtcome]; exact fun h => by cases h)).own
          rw [hoff, hnotify] at hown
          cases hown
        · intro hanswered _
          have hnot : s.m_bNotifyValueChange = false := by
            by_contra hnotify
            exact hthrown (hanswered (Bool.eq_true_of_not_eq_false hnotify) handle rfl)
          exact
            { own := hoff.trans hnot.symm, elements := hframe.left, silent := hframe.right }

end

/-- A handle without a connection. -/
def unconnected : Handle Unit :=
  { IsRepeated := false, Load := fun state _ _ => (state, [], .error .runtime_error) }

def oneValue : Notifying (Containers Unit) :=
  { m_i64Key := 5, m_bNotifyValueChange := true,
    m_mValue := (∅ : ValueMap).insert 1 { IsConst := true, m_Value := .uint32 7 },
    m_mRepeated := [], changes := [] }

theorem switch_stays_off :
    (Load StringValue.zeroAtof (some unconnected) () oneValue).2 = .thrown .runtime_error ∧
      oneValue.m_bNotifyValueChange = true ∧
      (Load StringValue.zeroAtof (some unconnected) () oneValue).1.2.m_bNotifyValueChange =
        false := by
  decide

end NotifySwitch
end DataHandle
end GMServer
