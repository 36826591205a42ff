import GMServer.Utils.TimerDue

/-!
# Traces of the timers

The timers together with a record of which handlers were added, invoked and
cleared.  A handler is named by the number of the `AddTimer` call that added it,
so that two calls with one function object are told apart.
-/

namespace GMServer
namespace Utils

open Std

structure AddedTimer where
  entity : EntityRef
  due : uint64_t
  handel : TimerHandle
  deriving DecidableEq

/-- A call of a handler by the `OnTimer` of an entity; `entered` handlers had been added
when that `OnTimer` was entered. -/
structure Invocation where
  entity : EntityRef
  number : Nat
  iNowMS : uint64_t
  entered : Nat
  deriving DecidableEq

/-!
# States

`direct` while `SubTimer::OnTimer` was called from outside and not by an `ActorTimer`.
The numbers in the lists of `timers` are indices of `added`.  `cancelled` holds, for
each `Clear`, the handlers of its entity that had not started by then.
-/

structure TimerTrace where
  timers : TimerState
  direct : Bool
  added : List AddedTimer
  entered : Nat
  invoked : List Invocation
  cancelled : List Nat

inductive TraceAction where
  | of (a : TimerAction)
  | SubTimerOnTimer (id : SubTimerId) (iNowMS : uint64_t)
  deriving DecidableEq

namespace TimerTrace

open Transition

def init : TimerTrace :=
  { timers := TimerState.init, direct := false, added := [], entered := 0, invoked := [],
    cancelled := [] }

def numbers (s : TimerTrace) : List Nat := s.invoked.map (·.number)

/-- The handlers of an entity that have not started. -/
def notStarted (s : TimerTrace) (ref : EntityRef) : List Nat :=
  (List.range s.added.length).filter (fun n =>
    decide (s.added[n]?.map (·.entity) = some ref ∧ n ∉ s.numbers))

/-!
# Steps

The timers take the step; the record is made from the call and from what `OnTimer` did.
-/

def numbered (s : TimerTrace) : TimerAction -> TimerAction
  | .AddTimer id iTimeMS clock _ => .AddTimer id iTimeMS clock s.added.length
  | a => a

/-- What is recorded when a `SubTimer` is used. -/
def record (s : TimerTrace) : TimerAction -> TimerTrace
  | .AddTimer id iTimeMS clock handel =>
      match s.timers.subTimers id with
      | some (some ref) =>
          { s with
            added := s.added ++ [{ entity := ref, due := iTimeMS + clock, handel := handel }] }
      | _ => s
  | .Clear id =>
      match s.timers.subTimers id with
      | some (some ref) => { s with cancelled := s.cancelled ++ s.notStarted ref }
      | _ => s
  | _ => s

/-- What is recorded when `OnTimer` has gone on to `t`: it has come to an entity, or it
calls a handler. -/
def observe (s : TimerTrace) (t : TimerState) : TimerTrace :=
  match s.timers.control, t.control with
  | .setLoop _ _, .entityLoop _ _ _ => { s with timers := t, entered := s.added.length }
  | .handleLoop _ _ _ _, .handler iNowMS _ ref stHanle _ =>
      { s with
        timers := t,
        invoked := s.invoked ++
          [{ entity := ref, number := stHanle, iNowMS := iNowMS, entered := s.entered }] }
  | _, _ => { s with timers := t }

/-- `SubTimer::OnTimer` on the entity of a `SubTimer`. -/
def enter (s : TimerTrace) (iNowMS : uint64_t) (ref : EntityRef) : TimerTrace :=
  match s.timers.entityAt ref with
  | none => { s with timers := s.timers.fail .usedDeleted }
  | some entity =>
      { s with
        timers := { s.timers.store ref.pointer { entity with m_bHandleing := true } with
          control := .entityLoop iNowMS [] ref },
        direct := true,
        entered := s.added.length }

def step (s : TimerTrace) : TraceAction -> Option TimerTrace
  | .of a =>
      match s.direct, s.timers.control with
      | true, .setLoop _ [] =>
          -- back from the entity, and from `SubTimer::OnTimer` with it
          if a = .advance then
            some { s with timers := { s.timers with control := .idle }, direct := false }
          else
            none
      | _, _ =>
          (TimerState.step s.timers (s.numbered a)).map (fun t => (s.record a).observe t)
  | .SubTimerOnTimer id iNowMS =>
      if s.timers.misuse = none ∧ s.timers.control = .idle then
        match s.timers.subTimers id with
        | some (some ref) => some (s.enter iNowMS ref)
        | _ => none
      else
        none

/-- The handlers that `OnTimer` of an entity has taken and not called yet. -/
def taken : TimerControl -> Option (uint64_t × EntityRef × List TimerHandle)
  | .handleLoop iNowMS _ ref listHandle => some (iNowMS, ref, listHandle)
  | .handler iNowMS _ ref _ listHandle => some (iNowMS, ref, listHandle)
  | _ => none

end TimerTrace

/-!
# What an entity keeps

Apart from `AddTimer` no step makes an entity keep a handler it has not kept before.
-/

namespace TimerState

/-- A handler stands in the map of the entity under its due time. -/
def Keeps (s : TimerState) (ref : EntityRef) (due : uint64_t) (stHanle : TimerHandle) :
    Prop :=
  exists entity listHandle, s.entityAt ref = some entity ∧
    entity.m_mTimer[due]? = some listHandle ∧ stHanle ∈ listHandle

/-- Every list of handlers of an entity of `t` is one of that entity in `s`. -/
def Inherits (s t : TimerState) : Prop :=
  forall (ref : EntityRef) (entity : SubTimerEntity) (due : uint64_t)
    (listHandle : List TimerHandle),
    t.entityAt ref = some entity -> entity.m_mTimer[due]? = some listHandle ->
      exists old, s.entityAt ref = some old ∧ old.m_mTimer[due]? = some listHandle

theorem inherits_of_heap {s t : TimerState} (hheap : t.heap = s.heap) : Inherits s t := by
  intro ref entity due listHandle hentity hget
  refine ⟨entity, ?_, hget⟩
  rw [← hentity]
  unfold entityAt
  rw [hheap]

theorem inherits_trans {s t u : TimerState} (hfirst : Inherits s t) (hsecond : Inherits t u) :
    Inherits s u := by
  intro ref entity due listHandle hentity hget
  rcases hsecond ref entity due listHandle hentity hget with ⟨middle, hmiddle, hkept⟩
  exact hfirst ref middle due listHandle hmiddle hkept

theorem keeps_of_inherits {s t : TimerState} (hinherits : Inherits s t) {ref : EntityRef}
    {due : uint64_t} {stHanle : TimerHandle} (hkeeps : t.Keeps ref due stHanle) :
    s.Keeps ref due stHanle := by
  rcases hkeeps with ⟨entity, listHandle, hentity, hget, hmem⟩
  rcases hinherits ref entity due listHandle hentity hget with ⟨old, hold, hkept⟩
  exact ⟨old, listHandle, hold, hkept, hmem⟩

theorem inherits_store {s : TimerState} {ref : EntityRef} {old entity : SubTimerEntity}
    (hold : s.entityAt ref = some old) (hserial : entity.serial = old.serial)
    (hless : forall (due : uint64_t) (listHandle : List TimerHandle),
      entity.m_mTimer[due]? = some listHandle -> old.m_mTimer[due]? = some listHandle) :
    Inherits s (s.store ref.pointer entity) := by
  intro other found due listHandle hfound hget
  by_cases hpointer : other.pointer = ref.pointer
  · have hmine := entityAt_store hold hserial
    have hsame := ref_eq hfound hmine hpointer
    rw [hsame, hmine] at hfound
    cases hfound
    rw [hsame]
    exact ⟨old, hold, hless due listHandle hget⟩
  · rw [entityAt_store_ne hpointer] at hfound
    exact ⟨found, hfound, hget⟩

theorem inherits_deleteEntity {s : TimerState} {ref : EntityRef} {entity : SubTimerEntity}
    (hentity : s.entityAt ref = some entity) : Inherits s (s.deleteEntity ref) := by
  rw [deleteEntity_eq hentity]
  intro other found due listHandle hfound hget
  have hheap := entityAt_eq_some.mp hfound
  by_cases hpointer : other.pointer = ref.pointer
  · have hgone := hheap.left
    rw [hpointer] at hgone
    simp only [Function.update_self] at hgone
    cases hgone
  · refine ⟨found, entityAt_eq_some.mpr ⟨?_, hheap.right⟩, hget⟩
    have hleft := hheap.left
    simp only [Function.update_of_ne hpointer] at hleft
    exact hleft

theorem inherits_newEntity {s : TimerState} {id : SubTimerId} {address : Pointer} :
    Inherits s (s.newEntity id address) := by
  intro other found due listHandle hfound hget
  have hheap := entityAt_eq_some.mp hfound
  by_cases hpointer : other.pointer = address
  · -- the new entity keeps nothing
    have hmade := hheap.left
    simp only [newEntity, assign, store, hpointer, Function.update_self] at hmade
    cases hmade
    cases hget
  · refine ⟨found, entityAt_eq_some.mpr ⟨?_, hheap.right⟩, hget⟩
    have hleft := hheap.left
    simp only [newEntity, assign, store, Function.update_of_ne hpointer] at hleft
    exact hleft

theorem inherits_markDeleted {s : TimerState} {ref : EntityRef} {entity : SubTimerEntity}
    (hentity : s.entityAt ref = some entity) : Inherits s (s.markDeleted ref) := by
  have hmarked : Inherits s (s.store ref.pointer { entity with m_bDelete := true }) :=
    inherits_store hentity rfl (fun _ _ h => h)
  rw [markDeleted_eq hentity]
  split
  · exact hmarked
  · exact inherits_trans hmarked (inherits_deleteEntity (entityAt_store hentity rfl))

theorem inherits_leaveEntity {s : TimerState} {ref : EntityRef} {entity : SubTimerEntity}
    (hentity : s.entityAt ref = some entity) : Inherits s (s.leaveEntity ref entity) := by
  have hleft : Inherits s (s.store ref.pointer { entity with m_bHandleing := false }) :=
    inherits_store hentity rfl (fun _ _ h => h)
  unfold leaveEntity
  dsimp only
  split
  · exact inherits_trans hleft (inherits_deleteEntity (entityAt_store hentity rfl))
  · exact hleft

theorem inherits_clear {s : TimerState} {ref : EntityRef} {entity : SubTimerEntity}
    (hentity : s.entityAt ref = some entity) : Inherits s (s.clear ref) := by
  rw [clear_eq hentity]
  have hstored : Inherits s (s.store ref.pointer { entity with m_mTimer := ∅ }) := by
    refine inherits_store hentity (by rfl) ?_
    intro due listHandle hget
    cases hget
  exact inherits_trans hstored (inherits_of_heap rfl)

/-- After `Clear` the entity keeps nothing. -/
theorem keeps_clear_ne {s : TimerState} {ref other : EntityRef} {entity : SubTimerEntity}
    (hentity : s.entityAt ref = some entity) {due : uint64_t} {stHanle : TimerHandle}
    (hkeeps : (s.clear ref).Keeps other due stHanle) : other ≠ ref := by
  intro hsame
  rw [hsame, clear_eq hentity] at hkeeps
  rcases hkeeps with ⟨found, listHandle, hfound, hget, _⟩
  have hmine : (s.store ref.pointer { entity with m_mTimer := ∅ }).entityAt ref =
      some { entity with m_mTimer := ∅ } := entityAt_store hentity rfl
  cases hmine.symm.trans hfound
  cases hget

/-- The handlers of an entity after `AddTimer`. -/
theorem addTimer_kept {s : TimerState} {ref : EntityRef} {entity : SubTimerEntity}
    (hentity : s.entityAt ref = some entity) {iTimeMS clock : uint64_t}
    {handel : TimerHandle} {other : EntityRef} {found : SubTimerEntity} {due : uint64_t}
    {listHandle : List TimerHandle}
    (hfound : (s.addTimer ref iTimeMS clock handel).entityAt other = some found)
    (hget : found.m_mTimer[due]? = some listHandle) :
    (exists old, s.entityAt other = some old ∧ old.m_mTimer[due]? = some listHandle) ∨
      (other = ref ∧ due = iTimeMS + clock ∧
        listHandle = entity.m_mTimer[due]?.getD [] ++ [handel]) := by
  rw [addTimer_eq hentity] at hfound
  by_cases hpointer : other.pointer = ref.pointer
  · have hmine : TimerState.entityAt
        ({ s with timer := entity.register s.timer ref.pointer (iTimeMS + clock) }.store
          ref.pointer (entity.pushBack (iTimeMS + clock) handel)) ref =
        some (entity.pushBack (iTimeMS + clock) handel) :=
      entityAt_store (s := { s with
        timer := entity.register s.timer ref.pointer (iTimeMS + clock) }) hentity rfl
    have hsame := ref_eq hfound hmine hpointer
    rw [hsame, hmine] at hfound
    cases hfound
    have hinserted : (entity.m_mTimer.insert (iTimeMS + clock)
        (entity.m_mTimer[iTimeMS + clock]?.getD [] ++ [handel]))[due]? = some listHandle := hget
    rw [SortedMap.getElem?_insert_eq] at hinserted
    by_cases hdue : iTimeMS + clock = due
    · rw [if_pos hdue] at hinserted
      cases hinserted
      right
      exact ⟨hsame, hdue.symm, by rw [hdue]⟩
    · rw [if_neg hdue] at hinserted
      rw [hsame]
      exact Or.inl ⟨entity, hentity, hinserted⟩
  · rw [entityAt_store_ne hpointer] at hfound
    exact Or.inl ⟨found, hfound, hget⟩

theorem inherits_step {s t : TimerState} {a : TimerAction} (hsafe : Safe s)
    (hadd : forall id iTimeMS clock handel, a ≠ .AddTimer id iTimeMS clock handel)
    (hstep : step s a = some t) : Inherits s t := by
  cases step_sound hstep with
  | @invoke iNowMS it setTimer entity hpc hentity =>
      have hthere : s.entityAt { pointer := it, serial := entity.serial } = some entity :=
        entityAt_eq_some.mpr ⟨hentity, rfl⟩
      have hstored : Inherits s (s.store it { entity with m_bHandleing := true }) :=
        inherits_store hthere rfl (fun _ _ h => h)
      exact inherits_trans hstored (inherits_of_heap rfl)
  | @leave iNowMS setTimer ref entity hpc hentity hdone =>
      have hmoved : Inherits s { s with control := .setLoop iNowMS setTimer } :=
        inherits_of_heap rfl
      have hthere : entityAt { s with control := .setLoop iNowMS setTimer } ref =
          some entity := hentity
      exact inherits_trans hmoved (inherits_leaveEntity hthere)
  | @popHandles iNowMS itBegin setTimer ref entity listHandle hpc hentity hbegin =>
      have hstored : Inherits s (s.store ref.pointer
          { entity with m_mTimer := entity.m_mTimer.erase itBegin }) :=
        inherits_store hentity (by rfl) (fun _ _ h => (SortedMap.getElem?_erase_some h).right)
      exact inherits_trans hstored (inherits_of_heap rfl)
  | create hadvance hcall hid hfree => exact inherits_newEntity
  | @destroy id ref hcall hid =>
      rcases hsafe.owned id ref hid with ⟨entity, hentity, _⟩
      have hassigned : Inherits s (s.assign id none) := inherits_of_heap rfl
      have hthere : (s.assign id none).entityAt ref = some entity := hentity
      exact inherits_trans hassigned (inherits_markDeleted hthere)
  | addTimer iTimeMS clock handel hcall hid => exact absurd rfl (hadd _ _ _ _)
  | clear hcall hid =>
      rcases hsafe.owned _ _ hid with ⟨entity, hentity, _⟩
      exact inherits_clear hentity
  | start iNowMS hidle => exact inherits_of_heap rfl
  | resume hpc => exact inherits_of_heap rfl
  | finished hpc hlater => exact inherits_of_heap rfl
  | popSet hpc hbegin hpopped => exact inherits_of_heap rfl
  | setDone hpc => exact inherits_of_heap rfl
  | skip hpc hgone => exact inherits_of_heap rfl
  | invokeDeleted hpc hthere hfreed => exact inherits_of_heap rfl
  | fieldAfterDelete hcurrent hdeleted => exact inherits_of_heap rfl
  | early hpc hentity hlive hbegin hlater => exact inherits_of_heap rfl
  | handlesDone hpc => exact inherits_of_heap rfl
  | callHandler hpc => exact inherits_of_heap rfl
  | handlerReturns hpc => exact inherits_of_heap rfl
  | move hcall hid hother => exact inherits_of_heap rfl
  | destroyMoved hcall hid => exact inherits_of_heap rfl
  | copyDeleted hother hdeleted => exact inherits_of_heap rfl

/-!
# Calls and loops

What `AddTimer` and `Clear` need, and what taking the handlers of a time says about it.
-/

theorem callable_of_step {s t : TimerState} {a : TimerAction} (hadvance : a ≠ .advance)
    (hstep : step s a = some t) : callable s.control = true ∧ s.call a = some t := by
  unfold step at hstep
  split at hstep
  · cases hstep
  · split at hstep
    · exact ⟨‹_›, hstep⟩
    · cases hstep

theorem step_addTimer {s t : TimerState} {id : SubTimerId} {iTimeMS clock : uint64_t}
    {handel : TimerHandle} (hstep : step s (.AddTimer id iTimeMS clock handel) = some t) :
    callable s.control = true ∧
      exists ref, s.subTimers id = some (some ref) ∧ t = s.addTimer ref iTimeMS clock handel := by
  rcases callable_of_step (fun h => by cases h) hstep with ⟨hcall, hcalled⟩
  exact ⟨hcall, use_eq_some hcalled⟩

theorem step_clear {s t : TimerState} {id : SubTimerId} (hstep : step s (.Clear id) = some t) :
    callable s.control = true ∧
      exists ref, s.subTimers id = some (some ref) ∧ t = s.clear ref := by
  rcases callable_of_step (fun h => by cases h) hstep with ⟨hcall, hcalled⟩
  exact ⟨hcall, use_eq_some hcalled⟩

/-- The handlers of a time are taken when it is not later than now. -/
theorem due_of_taken {s t : TimerState} {iNowMS itBegin : uint64_t} {setTimer : List Pointer}
    {ref : EntityRef} {entity : SubTimerEntity} {listHandle : List TimerHandle}
    (hpc : s.control = .entityLoop iNowMS setTimer ref)
    (hentity : s.entityAt ref = some entity)
    (hbegin : SortedMap.first entity.m_mTimer = some (itBegin, listHandle))
    (hstep : step s .advance = some t)
    (htaken : t.control = .handleLoop iNowMS setTimer ref listHandle) : itBegin ≤ iNowMS := by
  unfold step at hstep
  split at hstep
  · cases hstep
  · rw [if_pos rfl] at hstep
    simp only [advance, hpc, runEntityLoop, hentity, hbegin] at hstep
    split at hstep
    · rename_i hfirst hlive
      cases hfirst
      by_contra hlater
      rw [if_pos (not_le.mp hlater)] at hstep
      cases hstep
      cases htaken
    · cases hstep
      rw [control_leaveEntity] at htaken
      cases htaken

end TimerState
namespace TimerTrace

open Transition

/-!
# What a step can do

One rule for each way the record goes, and for what `OnTimer` has taken.
-/

inductive Step (s : TimerTrace) : TraceAction -> TimerTrace -> Prop where
  | directDone (hnone : taken s.timers.control = none) :
      Step s (.of .advance)
        { s with timers := { s.timers with control := .idle }, direct := false }
  | quiet {a : TimerAction} {next : TimerState}
      (hadd : forall id iTimeMS clock handel, a ≠ .AddTimer id iTimeMS clock handel)
      (hclear : forall id, a ≠ .Clear id)
      (hnext : TimerState.step s.timers a = some next)
      (htaken : forall loop, taken next.control = some loop ->
        taken s.timers.control = some loop) :
      Step s (.of a) { s with timers := next }
  | invoke {next : TimerState} (hnext : TimerState.step s.timers .advance = some next)
      (hnone : taken next.control = none) :
      Step s (.of .advance) { s with timers := next, entered := s.added.length }
  | popHandles {iNowMS itBegin : uint64_t} {setTimer : List Pointer} {ref : EntityRef}
      {entity : SubTimerEntity} {listHandle : List TimerHandle} {next : TimerState}
      (hpc : s.timers.control = .entityLoop iNowMS setTimer ref)
      (hentity : s.timers.entityAt ref = some entity)
      (hbegin : SortedMap.first entity.m_mTimer = some (itBegin, listHandle))
      (hnext : TimerState.step s.timers .advance = some next)
      (hEq : next = { s.timers.store ref.pointer
          { entity with m_mTimer := entity.m_mTimer.erase itBegin } with
        control := .handleLoop iNowMS setTimer ref listHandle }) :
      Step s (.of .advance) { s with timers := next }
  | callHandler {iNowMS : uint64_t} {setTimer : List Pointer} {ref : EntityRef}
      {stHanle : TimerHandle} {listHandle : List TimerHandle}
      (hpc : s.timers.control = .handleLoop iNowMS setTimer ref (stHanle :: listHandle))
      (hnext : TimerState.step s.timers .advance = some
        { s.timers with control := .handler iNowMS setTimer ref stHanle listHandle }) :
      Step s (.of .advance)
        { s with
          timers := { s.timers with control := .handler iNowMS setTimer ref stHanle listHandle },
          invoked := s.invoked ++
            [{ entity := ref, number := stHanle, iNowMS := iNowMS, entered := s.entered }] }
  | addTimer {id : SubTimerId} {ref : EntityRef} (iTimeMS clock : uint64_t)
      (handel : TimerHandle) (hid : s.timers.subTimers id = some (some ref)) :
      Step s (.of (.AddTimer id iTimeMS clock handel))
        { s with
          timers := s.timers.addTimer ref iTimeMS clock s.added.length,
          added := s.added ++ [{ entity := ref, due := iTimeMS + clock, handel := handel }] }
  | clear {id : SubTimerId} {ref : EntityRef}
      (hid : s.timers.subTimers id = some (some ref))
      (hnext : TimerState.step s.timers (.Clear id) = some (s.timers.clear ref)) :
      Step s (.of (.Clear id))
        { s with
          timers := s.timers.clear ref, cancelled := s.cancelled ++ s.notStarted ref }
  | enter {id : SubTimerId} {ref : EntityRef} (iNowMS : uint64_t)
      (hid : s.timers.subTimers id = some (some ref)) :
      Step s (.SubTimerOnTimer id iNowMS) (s.enter iNowMS ref)

theorem advance_sound {s : TimerTrace} {next : TimerState}
    (hnext : TimerState.step s.timers .advance = some next) :
    Step s (.of .advance) (s.observe next) := by
  have hadd : forall id iTimeMS clock handel,
      TimerAction.advance ≠ .AddTimer id iTimeMS clock handel :=
    fun _ _ _ _ h => by cases h
  have hclear : forall id, TimerAction.advance ≠ .Clear id := fun _ h => by cases h
  have hnone : s.observe next = { s with timers := next } -> taken next.control = none ->
      Step s (.of .advance) (s.observe next) := by
    intro hEq hidle
    rw [hEq]
    apply Step.quiet hadd hclear hnext
    intro loop hloop
    rw [hidle] at hloop
    cases hloop
  have hsame : s.observe next = { s with timers := next } ->
      taken next.control = taken s.timers.control ->
      Step s (.of .advance) (s.observe next) := by
    intro hEq hkept
    rw [hEq]
    apply Step.quiet hadd hclear hnext
    intro loop hloop
    rw [← hkept]
    exact hloop
  cases TimerState.step_sound hnext with
  | resume hpc => exact hnone (by simp only [observe, hpc]) rfl
  | finished hpc hlater => exact hnone (by simp only [observe, hpc]) rfl
  | popSet hpc hbegin hpopped => exact hnone (by simp only [observe, hpc]) rfl
  | setDone hpc => exact hnone (by simp only [observe, hpc]) rfl
  | skip hpc hgone => exact hnone (by simp only [observe, hpc]) rfl
  | invokeDeleted hpc hthere hfreed =>
      apply hsame _ rfl
      simp only [observe, TimerState.fail, hpc]
  | invoke hpc hentity =>
      simp only [observe, hpc]
      exact Step.invoke hnext rfl
  | fieldAfterDelete hcurrent hdeleted =>
      apply hsame _ rfl
      unfold observe
      split
      · rename_i hpc _
        rw [hpc] at hcurrent
        cases hcurrent
      · rename_i hpc hnextPc
        cases hpc.symm.trans hnextPc
      · rfl
  | leave hpc hentity hdone =>
      apply hnone
      · simp only [observe, hpc]
      · rw [TimerState.control_leaveEntity]
        rfl
  | early hpc hentity hlive hbegin hlater => exact hnone (by simp only [observe, hpc]) rfl
  | popHandles hpc hentity hbegin =>
      simp only [observe, hpc]
      exact Step.popHandles hpc hentity hbegin hnext rfl
  | handlesDone hpc => exact hnone (by simp only [observe, hpc]) rfl
  | callHandler hpc =>
      simp only [observe, hpc]
      exact Step.callHandler hpc hnext
  | handlerReturns hpc =>
      apply hsame
      · simp only [observe, hpc]
      · rw [hpc]
        rfl
  | create hadvance hcall hid hfree => exact absurd rfl hadvance

/-- What is not a step of a loop is not observed. -/
theorem observe_of_callable {s : TimerTrace}
    (hcall : TimerState.callable s.timers.control = true) (next : TimerState) :
    s.observe next = { s with timers := next } := by
  unfold observe
  split
  · rename_i hpc _
    rw [hpc] at hcall
    cases hcall
  · rename_i hpc _
    rw [hpc] at hcall
    cases hcall
  · rfl

theorem timers_sound {s : TimerTrace} {a : TimerAction} {next : TimerState}
    (hnext : TimerState.step s.timers (s.numbered a) = some next) :
    Step s (.of a) ((s.record a).observe next) := by
  -- the calls that are not recorded
  have hcalled : a ≠ .advance -> (forall id iTimeMS clock handel,
      a ≠ .AddTimer id iTimeMS clock handel) -> (forall id, a ≠ .Clear id) ->
      TimerState.step s.timers a = some next ->
      (taken next.control = none ∨ next.control = s.timers.control) ->
      Step s (.of a) (s.observe next) := by
    intro hadvance hadd hclear hstep hcontrol
    rw [observe_of_callable (TimerState.callable_of_step hadvance hstep).left]
    apply Step.quiet hadd hclear hstep
    intro loop hloop
    rcases hcontrol with hnone | hsame
    · cases hnone.symm.trans hloop
    · exact (congrArg taken hsame).symm.trans hloop
  cases a with
  | advance => exact advance_sound hnext
  | AddTimer id iTimeMS clock handel =>
      rcases TimerState.step_addTimer hnext with ⟨hcall, ref, hid, hEq⟩
      simp only [record, hid]
      rw [observe_of_callable (by exact hcall), hEq]
      exact Step.addTimer iTimeMS clock handel hid
  | Clear id =>
      rcases TimerState.step_clear hnext with ⟨hcall, ref, hid, hEq⟩
      rw [hEq] at hnext ⊢
      simp only [record, hid]
      rw [observe_of_callable (by exact hcall)]
      exact Step.clear hid hnext
  | OnTimer iNowMS =>
      apply hcalled (fun h => by cases h) (fun _ _ _ _ h => by cases h)
        (fun _ h => by cases h) hnext
      cases TimerState.step_sound hnext with
      | start _ hidle => exact Or.inl rfl
      | create _ hcall hid hfree => exact Or.inr rfl
  | construct id address =>
      apply hcalled (fun h => by cases h) (fun _ _ _ _ h => by cases h)
        (fun _ h => by cases h) hnext
      cases TimerState.step_sound hnext with
      | create _ hcall hid hfree => exact Or.inr rfl
  | copy id other address =>
      apply hcalled (fun h => by cases h) (fun _ _ _ _ h => by cases h)
        (fun _ h => by cases h) hnext
      cases TimerState.step_sound hnext with
      | create _ hcall hid hfree => exact Or.inr rfl
      | copyDeleted hother hdeleted => exact Or.inr rfl
  | move id other =>
      apply hcalled (fun h => by cases h) (fun _ _ _ _ h => by cases h)
        (fun _ h => by cases h) hnext
      cases TimerState.step_sound hnext with
      | create _ hcall hid hfree => exact Or.inr rfl
      | move hcall hid hother => exact Or.inr rfl
  | destroy id =>
      apply hcalled (fun h => by cases h) (fun _ _ _ _ h => by cases h)
        (fun _ h => by cases h) hnext
      cases TimerState.step_sound hnext with
      | create _ hcall hid hfree => exact Or.inr rfl
      | destroyMoved hcall hid => exact Or.inr rfl
      | destroy hcall hid => exact Or.inr (TimerState.control_markDeleted _ _)

theorem step_sound {s t : TimerTrace} {a : TraceAction} (hstep : step s a = some t) :
    Step s a t := by
  cases a with
  | of a =>
      simp only [step] at hstep
      split at hstep
      · rename_i hpc
        split at hstep
        · rename_i hadvance
          cases hstep
          rw [hadvance]
          apply Step.directDone
          rw [hpc]
          rfl
        · cases hstep
      · rcases Option.map_eq_some_iff.mp hstep with ⟨next, hnext, hEq⟩
        rw [← hEq]
        exact timers_sound hnext
  | SubTimerOnTimer id iNowMS =>
      simp only [step] at hstep
      split at hstep
      · split at hstep
        · cases hstep
          exact Step.enter iNowMS ‹_›
        · cases hstep
      · cases hstep

end TimerTrace
end Utils
end GMServer
