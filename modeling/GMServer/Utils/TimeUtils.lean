import Mathlib.Logic.Function.Basic
import GMServer.Library.SortedMap
import GMServer.Library.Transition
import GMServer.Utils.AssertUtils

/-!
# Timers

An `ActorTimer` wakes the entities of its `SubTimer`s.  Each entity keeps its
handlers under their due times and registers only the earliest of these times
with the `ActorTimer`.
-/

namespace GMServer
namespace Utils

open Std

/-- An address at which a `SubTimerEntity` can be. -/
abbrev Pointer := Nat

/-- The variable that holds a `SubTimer`. -/
abbrev SubTimerId := Nat

abbrev TimerHandle := Nat

structure SubTimerEntity where
  m_mTimer : ExtTreeMap uint64_t (List TimerHandle)
  m_bDelete : Bool
  m_bHandleing : Bool
  /-- Which construction made the object: a freed address can be used again. -/
  serial : Nat

def SubTimerEntity.make (serial : Nat) : SubTimerEntity :=
  { m_mTimer := ∅, m_bDelete := false, m_bHandleing := false, serial := serial }

structure ActorTimer where
  m_setSubTimer : ExtTreeSet Pointer
  m_mTimer : ExtTreeMap uint64_t (ExtTreeSet Pointer)
  /-- The times `OnAddTimer` was called with, the last one first. -/
  alarms : List uint64_t

/-- The test `m_mTimer.empty() || m_mTimer.begin()->first > iTime`. -/
def becomesFirst {value : Type} (m_mTimer : ExtTreeMap uint64_t value)
    (iTime : uint64_t) : Bool :=
  match SortedMap.first m_mTimer with
  | none => true
  | some (itBegin, _) => iTime < itBegin

/-!
# The registrations
-/

namespace ActorTimer

def RegistSubTimer (timer : ActorTimer) (pSubTimer : Pointer) : ActorTimer :=
  { timer with m_setSubTimer := timer.m_setSubTimer.insert pSubTimer }

def eraseFrom (pSubTimer : Pointer) (setTimer : ExtTreeSet Pointer) :
    Option (ExtTreeSet Pointer) :=
  if (setTimer.erase pSubTimer).isEmpty then none else some (setTimer.erase pSubTimer)

def UnRegistSubTimer (timer : ActorTimer) (pSubTimer : Pointer) : ActorTimer :=
  { timer with
    m_setSubTimer := timer.m_setSubTimer.erase pSubTimer,
    m_mTimer := timer.m_mTimer.filterMap (fun _ => eraseFrom pSubTimer) }

def AddTimer (timer : ActorTimer) (iTimeMS : uint64_t) (pSubTimer : Pointer) : ActorTimer :=
  { timer with
    m_mTimer := timer.m_mTimer.insert iTimeMS
      ((timer.m_mTimer[iTimeMS]?.getD ∅).insert pSubTimer),
    alarms :=
      if becomesFirst timer.m_mTimer iTimeMS then iTimeMS :: timer.alarms
      else timer.alarms }

end ActorTimer

/-- The part of `SubTimerEntity::AddTimer` that reaches the `ActorTimer`. -/
def SubTimerEntity.register (entity : SubTimerEntity) (timer : ActorTimer)
    (pSubTimer : Pointer) (iNextTime : uint64_t) : ActorTimer :=
  if becomesFirst entity.m_mTimer iNextTime then timer.AddTimer iNextTime pSubTimer
  else timer

def SubTimerEntity.pushBack (entity : SubTimerEntity) (iNextTime : uint64_t)
    (handel : TimerHandle) : SubTimerEntity :=
  { entity with
    m_mTimer := entity.m_mTimer.insert iNextTime
      (entity.m_mTimer[iNextTime]?.getD [] ++ [handel]) }

/-!
# Objects and control

A reference is an address together with the construction it was obtained from.
The control says where the one thread is: outside of `ActorTimer::OnTimer`, just
back from it, in one of its loops, or in a handler.
-/

structure EntityRef where
  pointer : Pointer
  serial : Nat
  deriving DecidableEq

inductive Misuse where
  | invokedDeleted
  | usedDeleted
  | deletedTwice
  deriving DecidableEq

inductive TimerControl where
  | idle
  | returned (iNowMS : uint64_t)
  /-- At the `while` of `ActorTimer::OnTimer`. -/
  | timerLoop (iNowMS : uint64_t)
  /-- At the `for` over the set that was swapped out. -/
  | setLoop (iNowMS : uint64_t) (setTimer : List Pointer)
  /-- At the outer `while` of `SubTimerEntity::OnTimer`. -/
  | entityLoop (iNowMS : uint64_t) (setTimer : List Pointer) (entity : EntityRef)
  /-- At the inner `while`. -/
  | handleLoop (iNowMS : uint64_t) (setTimer : List Pointer) (entity : EntityRef)
      (listHandle : List TimerHandle)
  | handler (iNowMS : uint64_t) (setTimer : List Pointer) (entity : EntityRef)
      (stHanle : TimerHandle) (listHandle : List TimerHandle)
  deriving DecidableEq

/-- The entity whose `OnTimer` is running. -/
def TimerControl.current : TimerControl -> Option EntityRef
  | .entityLoop _ _ entity => some entity
  | .handleLoop _ _ entity _ => some entity
  | .handler _ _ entity _ _ => some entity
  | _ => none

structure TimerState where
  timer : ActorTimer
  heap : Pointer -> Option SubTimerEntity
  /-- The `m_pSubEntity` of each `SubTimer` that exists; null after a move. -/
  subTimers : SubTimerId -> Option (Option EntityRef)
  constructed : Nat
  control : TimerControl
  misuse : Option Misuse

inductive TimerAction where
  | OnTimer (iNowMS : uint64_t)
  /-- The next step of `OnTimer`; in a handler, the return from it. -/
  | advance
  | construct (id : SubTimerId) (address : Pointer)
  | copy (id other : SubTimerId) (address : Pointer)
  | move (id other : SubTimerId)
  | destroy (id : SubTimerId)
  | AddTimer (id : SubTimerId) (iTimeMS clock : uint64_t) (handel : TimerHandle)
  | Clear (id : SubTimerId)
  deriving DecidableEq

namespace TimerState

def init : TimerState :=
  { timer := { m_setSubTimer := ∅, m_mTimer := ∅, alarms := [] },
    heap := fun _ => none, subTimers := fun _ => none, constructed := 0,
    control := .idle, misuse := none }

def entityAt (s : TimerState) (ref : EntityRef) : Option SubTimerEntity :=
  match s.heap ref.pointer with
  | none => none
  | some entity => if entity.serial = ref.serial then some entity else none

def store (s : TimerState) (address : Pointer) (entity : SubTimerEntity) : TimerState :=
  { s with heap := Function.update s.heap address (some entity) }

def assign (s : TimerState) (id : SubTimerId) (pSubEntity : Option (Option EntityRef)) :
    TimerState :=
  { s with subTimers := Function.update s.subTimers id pSubEntity }

def fail (s : TimerState) (misuse : Misuse) : TimerState := { s with misuse := some misuse }

/-!
# The entities
-/

/-- `new SubTimerEntity(pActorTimer)`, and the `SubTimer` that keeps it. -/
def newEntity (s : TimerState) (id : SubTimerId) (address : Pointer) : TimerState :=
  let made := s.store address (SubTimerEntity.make s.constructed)
  assign
    { made with
      timer := s.timer.RegistSubTimer address, constructed := s.constructed + 1 }
    id (some (some { pointer := address, serial := s.constructed }))

/-- `delete this`, with the destructor of the entity. -/
def deleteEntity (s : TimerState) (ref : EntityRef) : TimerState :=
  match s.entityAt ref with
  | none => s.fail .deletedTwice
  | some _ =>
      { s with
        timer := s.timer.UnRegistSubTimer ref.pointer,
        heap := Function.update s.heap ref.pointer none }

def addTimer (s : TimerState) (ref : EntityRef) (iTimeMS clock : uint64_t)
    (handel : TimerHandle) : TimerState :=
  match s.entityAt ref with
  | none => s.fail .usedDeleted
  | some entity =>
      let iNextTime := iTimeMS + clock
      { s with timer := entity.register s.timer ref.pointer iNextTime }.store ref.pointer
        (entity.pushBack iNextTime handel)

def clear (s : TimerState) (ref : EntityRef) : TimerState :=
  match s.entityAt ref with
  | none => s.fail .usedDeleted
  | some entity =>
      { s with
        timer := (s.timer.UnRegistSubTimer ref.pointer).RegistSubTimer ref.pointer }.store
        ref.pointer { entity with m_mTimer := ∅ }

/-- `SubTimerEntity::Delete`. -/
def markDeleted (s : TimerState) (ref : EntityRef) : TimerState :=
  match s.entityAt ref with
  | none => s.fail .deletedTwice
  | some entity =>
      let marked := s.store ref.pointer { entity with m_bDelete := true }
      if entity.m_bHandleing then marked else marked.deleteEntity ref

/-!
# The loops of `OnTimer`
-/

def runTimerLoop (s : TimerState) (iNowMS : uint64_t) : TimerState :=
  match SortedMap.first s.timer.m_mTimer with
  | none => { s with control := .returned iNowMS }
  | some (itBegin, setTimer) =>
      if iNowMS < itBegin then { s with control := .returned iNowMS }
      else
        { s with
          timer := { s.timer with m_mTimer := s.timer.m_mTimer.erase itBegin },
          control := .setLoop iNowMS setTimer.toList }

def runSetLoop (s : TimerState) (iNowMS : uint64_t) : List Pointer -> TimerState
  | [] => { s with control := .timerLoop iNowMS }
  | it :: setTimer =>
      if it ∈ s.timer.m_setSubTimer then
        match s.heap it with
        | none => s.fail .invokedDeleted
        | some entity =>
            { s.store it { entity with m_bHandleing := true } with
              control := .entityLoop iNowMS setTimer { pointer := it, serial := entity.serial } }
      else { s with control := .setLoop iNowMS setTimer }

/-- What `SubTimerEntity::OnTimer` does after its outer loop. -/
def leaveEntity (s : TimerState) (ref : EntityRef) (entity : SubTimerEntity) : TimerState :=
  let left := s.store ref.pointer { entity with m_bHandleing := false }
  if entity.m_bDelete then left.deleteEntity ref else left

def runEntityLoop (s : TimerState) (iNowMS : uint64_t) (setTimer : List Pointer)
    (ref : EntityRef) : TimerState :=
  match s.entityAt ref with
  | none => s.fail .usedDeleted
  | some entity =>
      match SortedMap.first entity.m_mTimer, entity.m_bDelete with
      | some (itBegin, listHandle), false =>
          -- the early return does not reset m_bHandleing
          if iNowMS < itBegin then { s with control := .setLoop iNowMS setTimer }
          else
            { s.store ref.pointer { entity with m_mTimer := entity.m_mTimer.erase itBegin } with
              control := .handleLoop iNowMS setTimer ref listHandle }
      | _, _ => { s with control := .setLoop iNowMS setTimer }.leaveEntity ref entity

def runHandleLoop (s : TimerState) (iNowMS : uint64_t) (setTimer : List Pointer)
    (ref : EntityRef) : List TimerHandle -> TimerState
  | [] => { s with control := .entityLoop iNowMS setTimer ref }
  | stHanle :: listHandle =>
      match s.entityAt ref with
      | none => s.fail .usedDeleted
      | some entity =>
          if entity.m_bDelete then { s with control := .entityLoop iNowMS setTimer ref }
          else { s with control := .handler iNowMS setTimer ref stHanle listHandle }

def advance (s : TimerState) : Option TimerState :=
  match s.control with
  | .idle => none
  | .returned _ => some { s with control := .idle }
  | .timerLoop iNowMS => some (s.runTimerLoop iNowMS)
  | .setLoop iNowMS setTimer => some (s.runSetLoop iNowMS setTimer)
  | .entityLoop iNowMS setTimer entity => some (s.runEntityLoop iNowMS setTimer entity)
  | .handleLoop iNowMS setTimer entity listHandle =>
      some (s.runHandleLoop iNowMS setTimer entity listHandle)
  | .handler iNowMS setTimer entity _ listHandle =>
      some { s with control := .handleLoop iNowMS setTimer entity listHandle }

/-!
# Steps

`SubTimer`s are used outside of `OnTimer` and by its handlers.  A step that
dereferences the null pointer of a moved `SubTimer` is not enabled, and nothing
is after a misuse.
-/

def callable : TimerControl -> Bool
  | .idle => true
  | .handler _ _ _ _ _ => true
  | _ => false

def use (s : TimerState) (id : SubTimerId) (f : EntityRef -> TimerState) : Option TimerState :=
  match s.subTimers id with
  | some (some ref) => some (f ref)
  | _ => none

def create (s : TimerState) (id : SubTimerId) (address : Pointer) : Option TimerState :=
  match s.subTimers id, s.heap address with
  | none, none => some (s.newEntity id address)
  | _, _ => none

/-- The copy constructor reads `m_pActorTimer` from the entity of `other`. -/
def copy (s : TimerState) (id other : SubTimerId) (address : Pointer) : Option TimerState :=
  match s.subTimers other with
  | some (some ref) =>
      match s.entityAt ref with
      | none => some (s.fail .usedDeleted)
      | some _ => s.create id address
  | _ => none

def move (s : TimerState) (id other : SubTimerId) : Option TimerState :=
  match s.subTimers id, s.subTimers other with
  | none, some pSubEntity => some ((s.assign id (some pSubEntity)).assign other (some none))
  | _, _ => none

def destroy (s : TimerState) (id : SubTimerId) : Option TimerState :=
  match s.subTimers id with
  | none => none
  | some none => some (s.assign id none)
  | some (some ref) => some ((s.assign id none).markDeleted ref)

def call (s : TimerState) : TimerAction -> Option TimerState
  | .OnTimer iNowMS =>
      if s.control = .idle then some { s with control := .timerLoop iNowMS } else none
  | .advance => none
  | .construct id address => s.create id address
  | .copy id other address => s.copy id other address
  | .move id other => s.move id other
  | .destroy id => s.destroy id
  | .AddTimer id iTimeMS clock handel =>
      s.use id (fun ref => s.addTimer ref iTimeMS clock handel)
  | .Clear id => s.use id (fun ref => s.clear ref)

def step (s : TimerState) (a : TimerAction) : Option TimerState :=
  if s.misuse.isSome then none
  else if a = .advance then s.advance
  else if callable s.control then s.call a
  else none

/-!
# The steps as a relation

One rule for each way a step can go.  Every conclusion is the state written out
with the operations above, and every premise is a test the code has made.
-/

inductive Step (s : TimerState) : TimerAction -> TimerState -> Prop where
  | start (iNowMS : uint64_t) (hidle : s.control = .idle) :
      Step s (.OnTimer iNowMS) { s with control := .timerLoop iNowMS }
  | resume {iNowMS : uint64_t} (hpc : s.control = .returned iNowMS) :
      Step s .advance { s with control := .idle }
  | finished {iNowMS : uint64_t} (hpc : s.control = .timerLoop iNowMS)
      (hlater : forall iTime setTimer,
        s.timer.m_mTimer[iTime]? = some setTimer -> iNowMS < iTime) :
      Step s .advance { s with control := .returned iNowMS }
  | popSet {iNowMS itBegin : uint64_t} {setTimer : ExtTreeSet Pointer}
      (hpc : s.control = .timerLoop iNowMS)
      (hbegin : s.timer.m_mTimer[itBegin]? = some setTimer) (hdue : itBegin ≤ iNowMS) :
      Step s .advance
        { s with
          timer := { s.timer with m_mTimer := s.timer.m_mTimer.erase itBegin },
          control := .setLoop iNowMS setTimer.toList }
  | setDone {iNowMS : uint64_t} (hpc : s.control = .setLoop iNowMS []) :
      Step s .advance { s with control := .timerLoop iNowMS }
  | skip {iNowMS : uint64_t} {it : Pointer} {setTimer : List Pointer}
      (hpc : s.control = .setLoop iNowMS (it :: setTimer))
      (hgone : it ∉ s.timer.m_setSubTimer) :
      Step s .advance { s with control := .setLoop iNowMS setTimer }
  | invokeDeleted {iNowMS : uint64_t} {it : Pointer} {setTimer : List Pointer}
      (hpc : s.control = .setLoop iNowMS (it :: setTimer))
      (hthere : it ∈ s.timer.m_setSubTimer) (hfreed : s.heap it = none) :
      Step s .advance (s.fail .invokedDeleted)
  | invoke {iNowMS : uint64_t} {it : Pointer} {setTimer : List Pointer}
      {entity : SubTimerEntity}
      (hpc : s.control = .setLoop iNowMS (it :: setTimer))
      (hentity : s.heap it = some entity) :
      Step s .advance
        { s.store it { entity with m_bHandleing := true } with
          control := .entityLoop iNowMS setTimer { pointer := it, serial := entity.serial } }
  | fieldAfterDelete {ref : EntityRef} (hcurrent : s.control.current = some ref)
      (hdeleted : s.entityAt ref = none) :
      Step s .advance (s.fail .usedDeleted)
  | leave {iNowMS : uint64_t} {setTimer : List Pointer} {ref : EntityRef}
      {entity : SubTimerEntity} (hpc : s.control = .entityLoop iNowMS setTimer ref)
      (hentity : s.entityAt ref = some entity)
      (hdone : entity.m_mTimer = ∅ ∨ entity.m_bDelete = true) :
      Step s .advance ({ s with control := .setLoop iNowMS setTimer }.leaveEntity ref entity)
  | early {iNowMS itBegin : uint64_t} {setTimer : List Pointer} {ref : EntityRef}
      {entity : SubTimerEntity} {listHandle : List TimerHandle}
      (hpc : s.control = .entityLoop iNowMS setTimer ref)
      (hentity : s.entityAt ref = some entity) (hlive : entity.m_bDelete = false)
      (hbegin : SortedMap.first entity.m_mTimer = some (itBegin, listHandle))
      (hlater : iNowMS < itBegin) :
      Step s .advance { s with control := .setLoop iNowMS setTimer }
  | popHandles {iNowMS itBegin : uint64_t} {setTimer : List Pointer} {ref : EntityRef}
      {entity : SubTimerEntity} {listHandle : List TimerHandle}
      (hpc : s.control = .entityLoop iNowMS setTimer ref)
      (hentity : s.entityAt ref = some entity)
      (hbegin : SortedMap.first entity.m_mTimer = some (itBegin, listHandle)) :
      Step s .advance
        { s.store ref.pointer { entity with m_mTimer := entity.m_mTimer.erase itBegin } with
          control := .handleLoop iNowMS setTimer ref listHandle }
  | handlesDone {iNowMS : uint64_t} {setTimer : List Pointer} {ref : EntityRef}
      {listHandle : List TimerHandle}
      (hpc : s.control = .handleLoop iNowMS setTimer ref listHandle) :
      Step s .advance { s with control := .entityLoop iNowMS setTimer ref }
  | callHandler {iNowMS : uint64_t} {setTimer : List Pointer} {ref : EntityRef}
      {stHanle : TimerHandle} {listHandle : List TimerHandle}
      (hpc : s.control = .handleLoop iNowMS setTimer ref (stHanle :: listHandle)) :
      Step s .advance { s with control := .handler iNowMS setTimer ref stHanle listHandle }
  | handlerReturns {iNowMS : uint64_t} {setTimer : List Pointer} {ref : EntityRef}
      {stHanle : TimerHandle} {listHandle : List TimerHandle}
      (hpc : s.control = .handler iNowMS setTimer ref stHanle listHandle) :
      Step s .advance { s with control := .handleLoop iNowMS setTimer ref listHandle }
  | create {a : TimerAction} {id : SubTimerId} {address : Pointer} (hadvance : a ≠ .advance)
      (hcall : callable s.control = true) (hid : s.subTimers id = none)
      (hfree : s.heap address = none) :
      Step s a (s.newEntity id address)
  | move {id other : SubTimerId} {pSubEntity : Option EntityRef}
      (hcall : callable s.control = true) (hid : s.subTimers id = none)
      (hother : s.subTimers other = some pSubEntity) :
      Step s (.move id other) ((s.assign id (some pSubEntity)).assign other (some none))
  | destroyMoved {id : SubTimerId} (hcall : callable s.control = true)
      (hid : s.subTimers id = some none) :
      Step s (.destroy id) (s.assign id none)
  | destroy {id : SubTimerId} {ref : EntityRef} (hcall : callable s.control = true)
      (hid : s.subTimers id = some (some ref)) :
      Step s (.destroy id) ((s.assign id none).markDeleted ref)
  | addTimer {id : SubTimerId} {ref : EntityRef} (iTimeMS clock : uint64_t)
      (handel : TimerHandle) (hcall : callable s.control = true)
      (hid : s.subTimers id = some (some ref)) :
      Step s (.AddTimer id iTimeMS clock handel) (s.addTimer ref iTimeMS clock handel)
  | clear {id : SubTimerId} {ref : EntityRef} (hcall : callable s.control = true)
      (hid : s.subTimers id = some (some ref)) :
      Step s (.Clear id) (s.clear ref)
  | copyDeleted {id other : SubTimerId} {address : Pointer} {ref : EntityRef}
      (hother : s.subTimers other = some (some ref)) (hdeleted : s.entityAt ref = none) :
      Step s (.copy id other address) (s.fail .usedDeleted)

theorem runTimerLoop_sound {s : TimerState} {iNowMS : uint64_t}
    (hpc : s.control = .timerLoop iNowMS) : Step s .advance (s.runTimerLoop iNowMS) := by
  unfold runTimerLoop
  cases hfirst : SortedMap.first s.timer.m_mTimer with
  | none =>
      apply Step.finished hpc
      intro iTime setTimer hget
      rw [SortedMap.first_eq_none_iff.mp hfirst] at hget
      cases hget
  | some entry =>
      rcases entry with ⟨itBegin, setTimer⟩
      by_cases hlater : iNowMS < itBegin
      · simp only [if_pos hlater]
        apply Step.finished hpc
        intro iTime other hget
        exact lt_of_lt_of_le hlater (SortedMap.first_le hfirst hget)
      · simp only [if_neg hlater]
        exact Step.popSet hpc (SortedMap.first_getElem? hfirst) (not_lt.mp hlater)

theorem runSetLoop_sound {s : TimerState} {iNowMS : uint64_t} {setTimer : List Pointer}
    (hpc : s.control = .setLoop iNowMS setTimer) :
    Step s .advance (s.runSetLoop iNowMS setTimer) := by
  cases setTimer with
  | nil => exact Step.setDone hpc
  | cons it setTimer =>
      unfold runSetLoop
      by_cases hthere : it ∈ s.timer.m_setSubTimer
      · simp only [if_pos hthere]
        cases hentity : s.heap it with
        | none => exact Step.invokeDeleted hpc hthere hentity
        | some entity => exact Step.invoke hpc hentity
      · simp only [if_neg hthere]
        exact Step.skip hpc hthere

theorem runEntityLoop_sound {s : TimerState} {iNowMS : uint64_t} {setTimer : List Pointer}
    {ref : EntityRef} (hpc : s.control = .entityLoop iNowMS setTimer ref) :
    Step s .advance (s.runEntityLoop iNowMS setTimer ref) := by
  unfold runEntityLoop
  cases hentity : s.entityAt ref with
  | none =>
      refine Step.fieldAfterDelete ?_ hentity
      rw [hpc]
      rfl
  | some entity =>
      dsimp only
      split
      · rename_i itBegin listHandle hfirst hlive
        by_cases hlater : iNowMS < itBegin
        · rw [if_pos hlater]
          exact Step.early hpc hentity hlive hfirst hlater
        · rw [if_neg hlater]
          exact Step.popHandles hpc hentity hfirst
      · rename_i hnone
        apply Step.leave hpc hentity
        cases hfirst : SortedMap.first entity.m_mTimer with
        | none => exact Or.inl (SortedMap.first_eq_none_iff.mp hfirst)
        | some entry =>
            right
            cases hdelete : entity.m_bDelete with
            | true => rfl
            | false => exact absurd hdelete (hnone entry.1 entry.2 hfirst)

theorem runHandleLoop_sound {s : TimerState} {iNowMS : uint64_t} {setTimer : List Pointer}
    {ref : EntityRef} {listHandle : List TimerHandle}
    (hpc : s.control = .handleLoop iNowMS setTimer ref listHandle) :
    Step s .advance (s.runHandleLoop iNowMS setTimer ref listHandle) := by
  cases listHandle with
  | nil => exact Step.handlesDone hpc
  | cons stHanle listHandle =>
      unfold runHandleLoop
      cases hentity : s.entityAt ref with
      | none =>
          refine Step.fieldAfterDelete ?_ hentity
          rw [hpc]
          rfl
      | some entity =>
          by_cases hdelete : entity.m_bDelete = true
          · simp only [if_pos hdelete]
            exact Step.handlesDone hpc
          · simp only [if_neg hdelete]
            exact Step.callHandler hpc

theorem advance_sound {s t : TimerState} (h : s.advance = some t) : Step s .advance t := by
  unfold advance at h
  cases hpc : s.control with
  | idle =>
      rw [hpc] at h
      cases h
  | returned iNowMS =>
      rw [hpc] at h
      cases h
      exact Step.resume hpc
  | timerLoop iNowMS =>
      rw [hpc] at h
      cases h
      exact runTimerLoop_sound hpc
  | setLoop iNowMS setTimer =>
      rw [hpc] at h
      cases h
      exact runSetLoop_sound hpc
  | entityLoop iNowMS setTimer entity =>
      rw [hpc] at h
      cases h
      exact runEntityLoop_sound hpc
  | handleLoop iNowMS setTimer entity listHandle =>
      rw [hpc] at h
      cases h
      exact runHandleLoop_sound hpc
  | handler iNowMS setTimer entity stHanle listHandle =>
      rw [hpc] at h
      cases h
      exact Step.handlerReturns hpc

theorem use_eq_some {s t : TimerState} {id : SubTimerId} {f : EntityRef -> TimerState}
    (h : s.use id f = some t) :
    exists ref, s.subTimers id = some (some ref) ∧ t = f ref := by
  unfold use at h
  split at h
  · cases h
    exact ⟨_, ‹_›, rfl⟩
  · cases h

theorem create_eq_some {s t : TimerState} {id : SubTimerId} {address : Pointer}
    (h : s.create id address = some t) :
    s.subTimers id = none ∧ s.heap address = none ∧ t = s.newEntity id address := by
  unfold create at h
  split at h
  · cases h
    exact ⟨‹_›, ‹_›, rfl⟩
  · cases h

theorem call_sound {s t : TimerState} {a : TimerAction} (hcall : callable s.control = true)
    (h : s.call a = some t) : Step s a t := by
  cases a with
  | OnTimer iNowMS =>
      simp only [call] at h
      split at h
      · cases h
        exact Step.start iNowMS ‹_›
      · cases h
  | advance => cases h
  | construct id address =>
      rcases create_eq_some h with ⟨hid, hfree, hEq⟩
      rw [hEq]
      exact Step.create (by intro h; cases h) hcall hid hfree
  | copy id other address =>
      simp only [call, copy] at h
      split at h
      · rename_i ref hother
        cases hentity : s.entityAt ref with
        | none =>
            rw [hentity] at h
            cases h
            exact Step.copyDeleted hother hentity
        | some entity =>
            rw [hentity] at h
            rcases create_eq_some h with ⟨hid, hfree, hEq⟩
            rw [hEq]
            exact Step.create (by intro h; cases h) hcall hid hfree
      · cases h
  | move id other =>
      simp only [call, move] at h
      split at h
      · cases h
        exact Step.move hcall ‹_› ‹_›
      · cases h
  | destroy id =>
      simp only [call, destroy] at h
      split at h
      · cases h
      · cases h
        exact Step.destroyMoved hcall ‹_›
      · cases h
        exact Step.destroy hcall ‹_›
  | AddTimer id iTimeMS clock handel =>
      rcases use_eq_some h with ⟨ref, hid, hEq⟩
      rw [hEq]
      exact Step.addTimer iTimeMS clock handel hcall hid
  | Clear id =>
      rcases use_eq_some h with ⟨ref, hid, hEq⟩
      rw [hEq]
      exact Step.clear hcall hid

theorem step_sound {s t : TimerState} {a : TimerAction} (h : step s a = some t) :
    Step s a t := by
  unfold step at h
  split at h
  · cases h
  · split at h
    · rename_i hadvance
      rw [hadvance]
      exact advance_sound h
    · split at h
      · exact call_sound ‹_› h
      · cases h

end TimerState
end Utils
end GMServer
