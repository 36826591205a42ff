import GMServer.Utils.TimerOrder
import GMServer.Utils.TimerMissed

/-!
# Destroying a timer

An entity that is not handling is deleted with its `SubTimer`.  Whether it is handling is
told by a flag, and an `OnTimer` that returns early does not take the flag back.
-/

namespace GMServer
namespace Utils

open Std

/-!
# The lists of the `ActorTimer`

Only entities that are in `m_setSubTimer` are registered under a time.
-/

namespace ActorTimer

def Listed (timer : ActorTimer) (it : Pointer) : Prop :=
  it ∈ timer.m_setSubTimer ∨ exists due, timer.RegisteredBy it due

def Enrolled (timer : ActorTimer) : Prop :=
  forall it due, timer.RegisteredBy it due -> it ∈ timer.m_setSubTimer

theorem registeredBy_of_addTimer {timer : ActorTimer} {address pSubTimer : Pointer}
    {due iTimeMS : uint64_t} (h : (timer.AddTimer iTimeMS pSubTimer).RegisteredBy address due) :
    address = pSubTimer ∨ timer.RegisteredBy address due := by
  rcases h with ⟨iTime, setTimer, hget, hmem, hle⟩
  have hinserted : (timer.m_mTimer.insert iTimeMS
      ((timer.m_mTimer[iTimeMS]?.getD ∅).insert pSubTimer))[iTime]? = some setTimer := hget
  rw [SortedMap.getElem?_insert_eq] at hinserted
  by_cases hsame : iTimeMS = iTime
  · rw [if_pos hsame] at hinserted
    cases hinserted
    rcases ExtTreeSet.mem_insert.mp hmem with hnew | hold
    · exact Or.inl (Std.compare_eq_iff_eq.mp hnew).symm
    · right
      cases hslot : timer.m_mTimer[iTimeMS]? with
      | none =>
          rw [hslot] at hold
          exact absurd hold ExtTreeSet.not_mem_empty
      | some before =>
          rw [hslot] at hold
          exact ⟨iTime, before, hsame ▸ hslot, hold, hle⟩
  · rw [if_neg hsame] at hinserted
    exact Or.inr ⟨iTime, setTimer, hinserted, hmem, hle⟩

theorem not_registeredBy_unRegist (timer : ActorTimer) (pSubTimer : Pointer) (due : uint64_t) :
    ¬ (timer.UnRegistSubTimer pSubTimer).RegisteredBy pSubTimer due := by
  intro ⟨iTime, setTimer, hget, hmem, _⟩
  have hfiltered : (timer.m_mTimer.filterMap (fun _ => eraseFrom pSubTimer))[iTime]? =
      some setTimer := hget
  rw [ExtTreeMap.getElem?_filterMap'] at hfiltered
  rcases Option.bind_eq_some_iff.mp hfiltered with ⟨before, _, herase⟩
  unfold eraseFrom at herase
  split at herase
  · cases herase
  · cases herase
    rw [ExtTreeSet.mem_erase] at hmem
    exact hmem.left (Std.compare_eq_iff_eq.mpr rfl)

theorem not_listed_unRegist (timer : ActorTimer) (pSubTimer : Pointer) :
    ¬ (timer.UnRegistSubTimer pSubTimer).Listed pSubTimer := by
  intro hlisted
  rcases hlisted with hmem | ⟨due, hregistered⟩
  · have hset : pSubTimer ∈ timer.m_setSubTimer.erase pSubTimer := hmem
    rw [ExtTreeSet.mem_erase] at hset
    exact hset.left (Std.compare_eq_iff_eq.mpr rfl)
  · exact not_registeredBy_unRegist timer pSubTimer due hregistered

theorem Enrolled.regist {timer : ActorTimer} (h : timer.Enrolled) (pSubTimer : Pointer) :
    (timer.RegistSubTimer pSubTimer).Enrolled :=
  fun it due hregistered => ExtTreeSet.mem_insert.mpr (Or.inr (h it due hregistered))

theorem Enrolled.unRegist {timer : ActorTimer} (h : timer.Enrolled) (pSubTimer : Pointer) :
    (timer.UnRegistSubTimer pSubTimer).Enrolled := by
  intro it due hregistered
  apply ExtTreeSet.mem_erase.mpr
  refine ⟨?_, h it due (registeredBy_of_unRegist hregistered)⟩
  intro hsame
  rw [← Std.compare_eq_iff_eq.mp hsame] at hregistered
  exact not_registeredBy_unRegist timer pSubTimer due hregistered

theorem Enrolled.register {timer : ActorTimer} (h : timer.Enrolled) {pSubTimer : Pointer}
    (hthere : pSubTimer ∈ timer.m_setSubTimer) (entity : SubTimerEntity)
    (iNextTime : uint64_t) : (entity.register timer pSubTimer iNextTime).Enrolled := by
  unfold SubTimerEntity.register
  split
  · intro it due hregistered
    rcases registeredBy_of_addTimer hregistered with hsame | hold
    · rw [hsame]
      exact hthere
    · exact h it due hold
  · exact h

theorem Enrolled.popped {timer : ActorTimer} (h : timer.Enrolled) (itBegin : uint64_t) :
    { timer with m_mTimer := timer.m_mTimer.erase itBegin }.Enrolled :=
  fun it due hregistered => h it due (registeredBy_of_erase hregistered)

end ActorTimer

namespace TimerState

open Transition

theorem mem_setSubTimer {s : TimerState} (hsafe : Safe s) {ref : EntityRef}
    {entity : SubTimerEntity} (hentity : s.entityAt ref = some entity) :
    ref.pointer ∈ s.timer.m_setSubTimer := by
  rw [hsafe.known, (entityAt_eq_some.mp hentity).left]
  exact Option.some_ne_none entity

theorem enrolled_deleteEntity {s : TimerState} (h : s.timer.Enrolled) (ref : EntityRef) :
    (s.deleteEntity ref).timer.Enrolled := by
  unfold deleteEntity
  split
  · exact h
  · exact h.unRegist ref.pointer

theorem enrolled_step {s t : TimerState} {a : TimerAction} (hsafe : Safe s)
    (h : s.timer.Enrolled) (hstep : step s a = some t) : t.timer.Enrolled := by
  cases step_sound hstep with
  | start iNowMS hidle => exact h
  | resume hpc => exact h
  | finished hpc hlater => exact h
  | popSet hpc hbegin hdue => exact h.popped _
  | setDone hpc => exact h
  | skip hpc hgone => exact h
  | invokeDeleted hpc hthere hfreed => exact h
  | invoke hpc hentity => exact h
  | fieldAfterDelete hcurrent hdeleted => exact h
  | leave hpc hentity hdone =>
      unfold leaveEntity
      dsimp only
      split
      · apply enrolled_deleteEntity
        exact h
      · exact h
  | early hpc hentity hlive hbegin hlater => exact h
  | popHandles hpc hentity hbegin => exact h
  | handlesDone hpc => exact h
  | callHandler hpc => exact h
  | handlerReturns hpc => exact h
  | create hadvance hcall hid hfree => exact h.regist _
  | move hcall hid hother => exact h
  | destroyMoved hcall hid => exact h
  | destroy hcall hid =>
      unfold markDeleted
      split
      · exact h
      · dsimp only
        split
        · exact h
        · apply enrolled_deleteEntity
          exact h
  | addTimer iTimeMS clock handel hcall hid =>
      rcases hsafe.owned _ _ hid with ⟨entity, hentity, _⟩
      rw [addTimer_eq hentity]
      exact h.register (mem_setSubTimer hsafe hentity) entity _
  | clear hcall hid =>
      rcases hsafe.owned _ _ hid with ⟨entity, hentity, _⟩
      rw [clear_eq hentity]
      exact (h.unRegist _).regist _
  | copyDeleted hother hdeleted => exact h

/-!
# What a step does to the entities

An entity that is there after a step was there before it or is new.  Its flag is another
one only if its `OnTimer` was entered or left.
-/

structure Follows (s t : TimerState) : Prop where
  grows : s.constructed ≤ t.constructed
  entities : forall ref entity, t.entityAt ref = some entity ->
    (exists old, s.entityAt ref = some old ∧
      (s.control.current ≠ some ref -> t.control.current ≠ some ref ->
        old.m_bHandleing = entity.m_bHandleing)) ∨
    (entity.m_bHandleing = false ∧ s.constructed ≤ ref.serial ∧ ref.serial < t.constructed)

theorem follows_of_heap {s t : TimerState} (hheap : t.heap = s.heap)
    (hconstructed : t.constructed = s.constructed) : Follows s t where
  grows := Nat.le_of_eq hconstructed.symm
  entities := by
    intro ref entity hentity
    refine Or.inl ⟨entity, ?_, fun _ _ => rfl⟩
    rw [← hentity]
    unfold entityAt
    rw [hheap]

/-- The entity is changed in place, in a step that may also move the control. -/
theorem follows_store {s t : TimerState} {ref : EntityRef} {old : SubTimerEntity}
    (entity : SubTimerEntity) (hold : s.entityAt ref = some old)
    (hserial : entity.serial = old.serial)
    (hheap : t.heap = Function.update s.heap ref.pointer (some entity))
    (hconstructed : t.constructed = s.constructed)
    (hflag : s.control.current ≠ some ref -> t.control.current ≠ some ref ->
      old.m_bHandleing = entity.m_bHandleing) : Follows s t where
  grows := Nat.le_of_eq hconstructed.symm
  entities := by
    intro other found hfound
    have hstored : (s.store ref.pointer entity).entityAt other = some found := by
      rw [← hfound]
      unfold entityAt store
      rw [hheap]
    left
    by_cases hpointer : other.pointer = ref.pointer
    · have hmine := entityAt_store hold hserial
      have hsame := ref_eq hstored hmine hpointer
      rw [hsame, hmine] at hstored
      cases hstored
      rw [hsame]
      exact ⟨old, hold, hflag⟩
    · rw [entityAt_store_ne hpointer] at hstored
      exact ⟨found, hstored, fun _ _ => rfl⟩

theorem follows_deleted {s t : TimerState} {address : Pointer}
    (hheap : t.heap = Function.update s.heap address none)
    (hconstructed : t.constructed = s.constructed) : Follows s t where
  grows := Nat.le_of_eq hconstructed.symm
  entities := by
    intro ref entity hentity
    have hfound := entityAt_eq_some.mp hentity
    rw [hheap] at hfound
    have hpointer : ref.pointer ≠ address := by
      intro hsame
      rw [hsame, Function.update_self] at hfound
      cases hfound.left
    rw [Function.update_of_ne hpointer] at hfound
    exact Or.inl ⟨entity, entityAt_eq_some.mpr hfound, fun _ _ => rfl⟩

/-- Whether the object was written to before it is deleted makes no difference. -/
theorem heap_deleteEntity_store {s : TimerState} {ref : EntityRef} {old : SubTimerEntity}
    (entity : SubTimerEntity) (hold : s.entityAt ref = some old)
    (hserial : entity.serial = old.serial) :
    ((s.store ref.pointer entity).deleteEntity ref).heap =
      Function.update s.heap ref.pointer none := by
  rw [deleteEntity_eq (entityAt_store hold hserial)]
  exact Function.update_idem _ _ _

theorem constructed_deleteEntity (s : TimerState) (ref : EntityRef) :
    (s.deleteEntity ref).constructed = s.constructed := by
  unfold deleteEntity
  split <;> rfl

theorem follows_newEntity (s : TimerState) (id : SubTimerId) (address : Pointer) :
    Follows s (s.newEntity id address) where
  grows := Nat.le_succ _
  entities := by
    intro ref entity hentity
    have hfound := entityAt_eq_some.mp hentity
    have hheap : (s.newEntity id address).heap =
        Function.update s.heap address (some (SubTimerEntity.make s.constructed)) := rfl
    rw [hheap] at hfound
    by_cases hpointer : ref.pointer = address
    · rw [hpointer, Function.update_self] at hfound
      rcases hfound with ⟨hmade, hserial⟩
      cases hmade
      refine Or.inr ⟨rfl, Nat.le_of_eq hserial, ?_⟩
      rw [← hserial]
      exact Nat.lt_succ_self s.constructed
    · rw [Function.update_of_ne hpointer] at hfound
      exact Or.inl ⟨entity, entityAt_eq_some.mpr hfound, fun _ _ => rfl⟩

theorem follows_step {s t : TimerState} {a : TimerAction} (hsafe : Safe s)
    (hstep : step s a = some t) : Follows s t := by
  cases step_sound hstep with
  | start iNowMS hidle => exact follows_of_heap rfl rfl
  | resume hpc => exact follows_of_heap rfl rfl
  | finished hpc hlater => exact follows_of_heap rfl rfl
  | popSet hpc hbegin hdue => exact follows_of_heap rfl rfl
  | setDone hpc => exact follows_of_heap rfl rfl
  | skip hpc hgone => exact follows_of_heap rfl rfl
  | invokeDeleted hpc hthere hfreed => exact follows_of_heap rfl rfl
  | @invoke iNowMS it setTimer entity hpc hentity =>
      have hthere : s.entityAt { pointer := it, serial := entity.serial } = some entity :=
        entityAt_eq_some.mpr ⟨hentity, rfl⟩
      exact follows_store { entity with m_bHandleing := true } hthere rfl rfl rfl
        (fun _ hleft => absurd rfl hleft)
  | fieldAfterDelete hcurrent hdeleted => exact follows_of_heap rfl rfl
  | @leave iNowMS setTimer ref entity hpc hentity hdone =>
      have hcurrent : s.control.current = some ref := by
        rw [hpc]
        rfl
      unfold leaveEntity
      dsimp only
      split
      · have hmoved : entityAt { s with control := .setLoop iNowMS setTimer } ref = some entity :=
          hentity
        exact follows_deleted (heap_deleteEntity_store _ hmoved rfl)
          (constructed_deleteEntity _ ref)
      · exact follows_store { entity with m_bHandleing := false } hentity rfl rfl rfl
          (fun hleft _ => absurd hcurrent hleft)
  | early hpc hentity hlive hbegin hlater => exact follows_of_heap rfl rfl
  | popHandles hpc hentity hbegin =>
      exact follows_store _ hentity (by rfl) rfl rfl (fun _ _ => rfl)
  | handlesDone hpc => exact follows_of_heap rfl rfl
  | callHandler hpc => exact follows_of_heap rfl rfl
  | handlerReturns hpc => exact follows_of_heap rfl rfl
  | create hadvance hcall hid hfree => exact follows_newEntity s _ _
  | move hcall hid hother => exact follows_of_heap rfl rfl
  | destroyMoved hcall hid => exact follows_of_heap rfl rfl
  | @destroy id ref hcall hid =>
      rcases hsafe.owned id ref hid with ⟨entity, hentity, _⟩
      have hreleased : (s.assign id none).entityAt ref = some entity := hentity
      rw [markDeleted_eq hreleased]
      split
      · exact follows_store { entity with m_bDelete := true } hentity rfl rfl rfl
          (fun _ _ => rfl)
      · exact follows_deleted (heap_deleteEntity_store _ hreleased rfl)
          (constructed_deleteEntity _ ref)
  | addTimer iTimeMS clock handel hcall hid =>
      rcases hsafe.owned _ _ hid with ⟨entity, hentity, _⟩
      rw [addTimer_eq hentity]
      exact follows_store _ hentity (by rfl) rfl rfl (fun _ _ => rfl)
  | clear hcall hid =>
      rcases hsafe.owned _ _ hid with ⟨entity, hentity, _⟩
      rw [clear_eq hentity]
      exact follows_store _ hentity (by rfl) rfl rfl (fun _ _ => rfl)
  | copyDeleted hother hdeleted => exact follows_of_heap rfl rfl

/-!
# The early return

The entity at which `SubTimerEntity::OnTimer` is about to return from its outer loop.
-/

def leavesEarly (s : TimerState) : Option EntityRef :=
  match s.control with
  | .entityLoop iNowMS _ ref =>
      match s.entityAt ref with
      | none => none
      | some entity =>
          match SortedMap.first entity.m_mTimer, entity.m_bDelete with
          | some (itBegin, _), false => if iNowMS < itBegin then some ref else none
          | _, _ => none
  | _ => none

theorem leavesEarly_eq_some {s : TimerState} {ref : EntityRef} (h : s.leavesEarly = some ref) :
    exists iNowMS setTimer entity itBegin listHandle,
      s.control = .entityLoop iNowMS setTimer ref ∧ s.entityAt ref = some entity ∧
        SortedMap.first entity.m_mTimer = some (itBegin, listHandle) ∧
        entity.m_bDelete = false ∧ iNowMS < itBegin := by
  unfold leavesEarly at h
  split at h
  · rename_i iNowMS setTimer ran hpc
    split at h
    · cases h
    · rename_i entity hentity
      split at h
      · rename_i itBegin listHandle hbegin hlive
        split at h
        · rename_i hlater
          cases h
          exact ⟨iNowMS, setTimer, entity, itBegin, listHandle, hpc, hentity, hbegin, hlive, hlater⟩
        · cases h
      · cases h
  · cases h

/-- Where `OnTimer` can only go on, every step is one of it. -/
theorem step_of_not_callable {s t : TimerState} {a : TimerAction}
    (hcall : callable s.control = false) (hstep : step s a = some t) : s.advance = some t := by
  unfold step at hstep
  split at hstep
  · cases hstep
  · split at hstep
    · exact hstep
    · rw [hcall] at hstep
      cases hstep

theorem step_leavesEarly {s t : TimerState} {a : TimerAction} {ref : EntityRef}
    (h : s.leavesEarly = some ref) (hstep : step s a = some t) : t.control.current = none := by
  rcases leavesEarly_eq_some h with
    ⟨iNowMS, setTimer, entity, itBegin, listHandle, hpc, hentity, hbegin, hlive, hlater⟩
  have hadvance : s.advance = some t := by
    apply step_of_not_callable _ hstep
    rw [hpc]
    rfl
  simp only [advance, hpc, runEntityLoop, hentity, hbegin, hlive, if_pos hlater] at hadvance
  cases hadvance
  rfl

theorem leaveEntity_flag {s : TimerState} {ref : EntityRef} {old entity : SubTimerEntity}
    (hold : s.entityAt ref = some old)
    (hentity : (s.leaveEntity ref old).entityAt ref = some entity) :
    entity.m_bHandleing = false := by
  unfold leaveEntity at hentity
  dsimp only at hentity
  split at hentity
  · have hheap := (entityAt_eq_some.mp hentity).left
    have hgone := heap_deleteEntity_store { old with m_bHandleing := false } hold rfl
    rw [hgone, Function.update_self] at hheap
    cases hheap
  · have hleft : (s.store ref.pointer { old with m_bHandleing := false }).entityAt ref =
        some { old with m_bHandleing := false } := entityAt_store hold rfl
    cases hleft.symm.trans hentity
    rfl

/-- What the flag is when `OnTimer` has left the entity. -/
theorem left_step {s t : TimerState} {a : TimerAction} (hsafe : Safe s) {ref : EntityRef}
    (hcurrent : s.control.current = some ref) (hstep : step s a = some t)
    (hleft : t.control.current ≠ some ref) {entity : SubTimerEntity}
    (hentity : t.entityAt ref = some entity) :
    entity.m_bHandleing = true <-> s.leavesEarly = some ref := by
  have hkept : t.control = s.control ->
      (entity.m_bHandleing = true <-> s.leavesEarly = some ref) := by
    intro hsame
    rw [hsame] at hleft
    exact absurd hcurrent hleft
  have hidle : forall {control : TimerControl}, s.control = control -> control.current = none ->
      (entity.m_bHandleing = true <-> s.leavesEarly = some ref) := by
    intro control hpc hnone
    rw [hpc, hnone] at hcurrent
    cases hcurrent
  have hruns : forall {control : TimerControl}, s.control = control ->
      t.control.current = control.current ->
      (entity.m_bHandleing = true <-> s.leavesEarly = some ref) := by
    intro control hpc hsame
    rw [hsame, ← hpc] at hleft
    exact absurd hcurrent hleft
  cases step_sound hstep with
  | start iNowMS hidlePc => exact hidle hidlePc rfl
  | resume hpc => exact hidle hpc rfl
  | finished hpc hlater => exact hidle hpc rfl
  | popSet hpc hbegin hdue => exact hidle hpc rfl
  | setDone hpc => exact hidle hpc rfl
  | skip hpc hgone => exact hidle hpc rfl
  | invokeDeleted hpc hthere hfreed => exact hidle hpc rfl
  | invoke hpc hthere => exact hidle hpc rfl
  | fieldAfterDelete hran hdeleted => exact hkept rfl
  | @leave iNowMS setTimer ran old hpc hold hdone =>
      rw [hpc] at hcurrent
      cases hcurrent
      have hnot : s.leavesEarly ≠ some ref := by
        intro hleaves
        rcases leavesEarly_eq_some hleaves with
          ⟨_, _, found, itBegin, listHandle, _, hfound, hbegin, hlive, _⟩
        cases hold.symm.trans hfound
        rcases hdone with hempty | hmarked
        · rw [SortedMap.first_eq_none_iff.mpr hempty] at hbegin
          cases hbegin
        · cases hmarked.symm.trans hlive
      have hfalse : entity.m_bHandleing = false := by
        apply leaveEntity_flag _ hentity
        exact hold
      rw [hfalse]
      exact iff_of_false Bool.false_ne_true hnot
  | @early iNowMS itBegin setTimer ran old listHandle hpc hold hlive hbegin hlater =>
      have hhandling := hsafe.handling hold
      rw [hpc] at hcurrent hhandling
      cases hcurrent
      have hsame : s.entityAt ref = some entity := hentity
      cases hold.symm.trans hsame
      apply iff_of_true (hhandling rfl)
      simp only [leavesEarly, hpc, hold, hbegin, hlive, if_pos hlater]
  | popHandles hpc hold hbegin => exact hruns hpc rfl
  | handlesDone hpc => exact hruns hpc rfl
  | callHandler hpc => exact hruns hpc rfl
  | handlerReturns hpc => exact hruns hpc rfl
  | create hadvance hcall hid hfree => exact hkept rfl
  | move hcall hid hother => exact hkept rfl
  | destroyMoved hcall hid => exact hkept rfl
  | destroy hcall hid => exact hkept (control_markDeleted _ _)
  | addTimer iTimeMS clock handel hcall hid => exact hkept (control_addTimer _ _ _ _ _)
  | clear hcall hid => exact hkept (control_clear _ _)
  | copyDeleted hother hdeleted => exact hkept rfl

/-!
# The flags of a run

`early` has the entities whose last `OnTimer` returned early.  These are the entities
that have the flag while no `OnTimer` is running on them.
-/

def nextEarly (early : List EntityRef) (s t : TimerState) : List EntityRef :=
  s.leavesEarly.toList ++ early.filter (fun ref => t.control.current ≠ some ref)

theorem mem_nextEarly {early : List EntityRef} {s t : TimerState} {ref : EntityRef} :
    ref ∈ nextEarly early s t <->
      s.leavesEarly = some ref ∨ (ref ∈ early ∧ t.control.current ≠ some ref) := by
  unfold nextEarly
  rw [List.mem_append, Option.mem_toList, List.mem_filter, decide_eq_true_eq]

structure Flagged (s : TimerState) (early : List EntityRef) : Prop where
  flag : forall ref entity, s.entityAt ref = some entity -> s.control.current ≠ some ref ->
    (entity.m_bHandleing = true <-> ref ∈ early)
  running : forall ref, s.control.current = some ref -> ref ∉ early
  serials : forall ref entity, s.entityAt ref = some entity -> ref.serial < s.constructed
  past : forall ref, ref ∈ early -> ref.serial < s.constructed

theorem flagged_init : Flagged init [] where
  flag := fun ref entity h => by cases h
  running := fun ref _ h => by cases h
  serials := fun ref entity h => by cases h
  past := fun ref h => by cases h

theorem Flagged.next {s t : TimerState} {early : List EntityRef} (h : Flagged s early)
    (hfollows : Follows s t)
    (hreturns : forall ref, s.leavesEarly = some ref -> t.control.current = none)
    (hleft : forall ref entity, s.control.current = some ref -> t.control.current ≠ some ref ->
      t.entityAt ref = some entity -> (entity.m_bHandleing = true <-> s.leavesEarly = some ref)) :
    Flagged t (nextEarly early s t) := by
  have hleaves : forall ref, s.leavesEarly = some ref ->
      s.control.current = some ref ∧ ref.serial < s.constructed := by
    intro ref hleaves
    rcases leavesEarly_eq_some hleaves with ⟨_, _, entity, _, _, hpc, hentity, _⟩
    refine ⟨?_, h.serials ref entity hentity⟩
    rw [hpc]
    rfl
  have hpast : forall ref, ref ∈ nextEarly early s t -> ref.serial < s.constructed := by
    intro ref hmem
    rcases mem_nextEarly.mp hmem with hnew | hold
    · exact (hleaves ref hnew).right
    · exact h.past ref hold.left
  refine { flag := ?_, running := ?_, serials := ?_, past := ?_ }
  · intro ref entity hentity hidle
    rcases hfollows.entities ref entity hentity with ⟨old, hold, hsame⟩ | ⟨hfalse, hnew, _⟩
    · by_cases hran : s.control.current = some ref
      · rw [hleft ref entity hran hidle hentity, mem_nextEarly]
        exact (or_iff_left (fun hmem => h.running ref hran hmem.left)).symm
      · rw [← hsame hran hidle, h.flag ref old hold hran, mem_nextEarly, and_iff_left hidle]
        exact (or_iff_right (fun hnew => hran (hleaves ref hnew).left)).symm
    · rw [hfalse]
      exact iff_of_false Bool.false_ne_true
        (fun hmem => absurd (hpast ref hmem) (Nat.not_lt.mpr hnew))
  · intro ref hcurrent hmem
    rcases mem_nextEarly.mp hmem with hnew | hold
    · rw [hreturns ref hnew] at hcurrent
      cases hcurrent
    · exact hold.right hcurrent
  · intro ref entity hentity
    rcases hfollows.entities ref entity hentity with ⟨old, hold, _⟩ | ⟨_, _, hbelow⟩
    · exact Nat.lt_of_lt_of_le (h.serials ref old hold) hfollows.grows
    · exact hbelow
  · exact fun ref hmem => Nat.lt_of_lt_of_le (hpast ref hmem) hfollows.grows

theorem flagged_step {s t : TimerState} {a : TimerAction} {early : List EntityRef}
    (hsafe : Safe s) (h : Flagged s early) (hstep : step s a = some t) :
    Flagged t (nextEarly early s t) :=
  h.next (follows_step hsafe hstep) (fun _ hleaves => step_leavesEarly hleaves hstep)
    (fun _ _ hcurrent hleft hentity => left_step hsafe hcurrent hstep hleft hentity)

end TimerState

/-!
# Histories

`SubTimer::OnTimer` may be called from outside as well.
-/

structure TimerHistory where
  trace : TimerTrace
  early : List EntityRef

namespace TimerHistory

open Transition

def timers (s : TimerHistory) : TimerState := s.trace.timers

def init : TimerHistory := { trace := TimerTrace.init, early := [] }

def step (s : TimerHistory) (a : TraceAction) : Option TimerHistory :=
  (TimerTrace.step s.trace a).map (fun trace =>
    { trace := trace, early := TimerState.nextEarly s.early s.timers trace.timers })

/-- No part of the timer still knows the entity: whatever stands at its address, and is
listed, was constructed later. -/
def Removed (s : TimerHistory) (ref : EntityRef) : Prop :=
  s.timers.entityAt ref = none ∧
    (s.timers.timer.Listed ref.pointer ->
      exists entity, s.timers.heap ref.pointer = some entity ∧ ref.serial < entity.serial)

/-- A `SubTimer` that is destroyed while its entity is idle takes the entity with it. -/
def DeletesAtOnce (s : TimerHistory) : TraceAction -> Prop
  | .of (.destroy id) =>
      forall ref t, s.timers.subTimers id = some (some ref) ->
        s.timers.control.current ≠ some ref -> step s (.of (.destroy id)) = some t ->
          t.timers.heap ref.pointer = none ∧ ¬ t.timers.timer.Listed ref.pointer ∧
            forall more u, Run step t more = some u -> u.Removed ref
  | _ => True

/-- No `SubTimer` is destroyed whose entity has left its last `OnTimer` early. -/
def LeftAtEnd (s : TimerHistory) : TraceAction -> Prop
  | .of (.destroy id) =>
      forall ref, s.timers.subTimers id = some (some ref) ->
        s.timers.control.current ≠ some ref -> TimerState.callable s.timers.control = true ->
          ref ∉ s.early
  | _ => True

structure HistoryInv (s : TimerHistory) : Prop where
  safe : s.timers.Safe
  enrolled : s.timers.timer.Enrolled
  flagged : s.timers.Flagged s.early

theorem historyInv_init : HistoryInv init where
  safe := TimerState.safe_init
  enrolled := by
    intro it due ⟨iTime, setTimer, hget, _⟩
    cases hget
  flagged := TimerState.flagged_init

theorem observe_timers (s : TimerTrace) (t : TimerState) : (s.observe t).timers = t := by
  unfold TimerTrace.observe
  split <;> rfl

/-- A step is one of the timers, the return from `SubTimer::OnTimer`, or its entry. -/
theorem step_cases {s t : TimerHistory} {a : TraceAction} (hstep : step s a = some t) :
    t.early = TimerState.nextEarly s.early s.timers t.timers ∧
      ((exists call, TimerState.step s.timers call = some t.timers) ∨
        (s.timers.control.current = none ∧ s.timers.leavesEarly = none ∧
          (t.timers = { s.timers with control := .idle } ∨
            exists id ref iNowMS, s.timers.subTimers id = some (some ref) ∧
              t.timers = (s.trace.enter iNowMS ref).timers))) := by
  rcases Option.map_eq_some_iff.mp hstep with ⟨trace, htrace, hEq⟩
  rw [← hEq]
  refine ⟨rfl, ?_⟩
  cases a with
  | of a =>
      simp only [TimerTrace.step] at htrace
      split at htrace
      · rename_i hpc
        split at htrace
        · cases htrace
          refine Or.inr ⟨?_, ?_, Or.inl rfl⟩
          · unfold timers
            rw [hpc]
            rfl
          · unfold TimerState.leavesEarly timers
            rw [hpc]
        · cases htrace
      · rcases Option.map_eq_some_iff.mp htrace with ⟨next, hnext, hobserve⟩
        refine Or.inl ⟨s.trace.numbered a, ?_⟩
        rw [← hobserve]
        unfold timers
        rw [observe_timers]
        exact hnext
  | SubTimerOnTimer id iNowMS =>
      simp only [TimerTrace.step] at htrace
      split at htrace
      · rename_i hquiet
        split at htrace
        · rename_i ref hid
          cases htrace
          refine Or.inr ⟨?_, ?_, Or.inr ⟨id, ref, iNowMS, hid, rfl⟩⟩
          · unfold timers
            rw [hquiet.right]
            rfl
          · unfold TimerState.leavesEarly timers
            rw [hquiet.right]
        · cases htrace
      · cases htrace

theorem enter_eq {s : TimerHistory} {iNowMS : uint64_t} {ref : EntityRef}
    {entity : SubTimerEntity} (hentity : s.timers.entityAt ref = some entity) :
    (s.trace.enter iNowMS ref).timers =
      { s.timers.store ref.pointer { entity with m_bHandleing := true } with
        control := .entityLoop iNowMS [] ref } := by
  have hthere : s.trace.timers.entityAt ref = some entity := hentity
  unfold TimerTrace.enter
  rw [hthere]
  rfl

theorem follows_cases {s t : TimerHistory} {a : TraceAction} (hsafe : s.timers.Safe)
    (hstep : step s a = some t) : s.timers.Follows t.timers := by
  rcases (step_cases hstep).right with
    ⟨call, hcall⟩ | ⟨_, _, hdone | ⟨id, ref, iNowMS, hid, henter⟩⟩
  · exact TimerState.follows_step hsafe hcall
  · rw [hdone]
    exact TimerState.follows_of_heap rfl rfl
  · rcases hsafe.owned id ref hid with ⟨entity, hentity, _⟩
    rw [henter, enter_eq hentity]
    exact TimerState.follows_store { entity with m_bHandleing := true } hentity rfl rfl rfl
      (fun _ hleft => absurd rfl hleft)

theorem historyInv_step {s t : TimerHistory} {a : TraceAction} (hinv : HistoryInv s)
    (hstep : step s a = some t) : HistoryInv t := by
  have hfollows := follows_cases hinv.safe hstep
  rcases step_cases hstep with ⟨hearly, hcases⟩
  rcases hcases with ⟨call, hcall⟩ | ⟨hcurrent, hleaves, hdirect⟩
  · refine
      { safe := TimerState.safe_step hinv.safe hcall
        enrolled := TimerState.enrolled_step hinv.safe hinv.enrolled hcall
        flagged := ?_ }
    rw [hearly]
    exact TimerState.flagged_step hinv.safe hinv.flagged hcall
  · have hflagged : t.timers.Flagged t.early := by
      rw [hearly]
      apply hinv.flagged.next hfollows
      · intro ref hreturns
        rw [hleaves] at hreturns
        cases hreturns
      · intro ref entity hran
        rw [hcurrent] at hran
        cases hran
    rcases hdirect with hdone | ⟨id, ref, iNowMS, hid, henter⟩
    · refine { safe := ?_, enrolled := ?_, flagged := hflagged }
      · rw [hdone]
        exact hinv.safe.quiet rfl
      · rw [hdone]
        exact hinv.enrolled
    · rcases hinv.safe.owned id ref hid with ⟨entity, hentity, _⟩
      have hheap := TimerState.entityAt_eq_some.mp hentity
      have hsafe := TimerState.safe_invoke hinv.safe hheap.left iNowMS []
      rw [show ({ pointer := ref.pointer, serial := entity.serial } : EntityRef) = ref by
        rw [hheap.right]] at hsafe
      refine { safe := ?_, enrolled := ?_, flagged := hflagged }
      · rw [henter, enter_eq hentity]
        exact hsafe
      · rw [henter, enter_eq hentity]
        exact hinv.enrolled

/-!
# What is gone stays gone

An address can be used again, but only by an entity that is constructed later.
-/

structure Gone (ref : EntityRef) (s : TimerHistory) : Prop where
  inv : HistoryInv s
  past : ref.serial < s.timers.constructed
  younger : forall entity, s.timers.heap ref.pointer = some entity -> ref.serial < entity.serial

theorem gone_step {ref : EntityRef} {s t : TimerHistory} {a : TraceAction} (h : Gone ref s)
    (hstep : step s a = some t) : Gone ref t := by
  have hfollows := follows_cases h.inv.safe hstep
  refine
    { inv := historyInv_step h.inv hstep
      past := Nat.lt_of_lt_of_le h.past hfollows.grows
      younger := ?_ }
  intro entity hheap
  have hentity : t.timers.entityAt { pointer := ref.pointer, serial := entity.serial } =
      some entity := TimerState.entityAt_eq_some.mpr ⟨hheap, rfl⟩
  rcases hfollows.entities _ entity hentity with ⟨old, hold, _⟩ | ⟨_, hnew, _⟩
  · rcases TimerState.entityAt_eq_some.mp hold with ⟨hbefore, hserial⟩
    exact Nat.lt_of_lt_of_eq (h.younger old hbefore) hserial
  · exact Nat.lt_of_lt_of_le h.past hnew

theorem Gone.removed {ref : EntityRef} {s : TimerHistory} (h : Gone ref s) : s.Removed ref := by
  constructor
  · cases hentity : s.timers.entityAt ref with
    | none => rfl
    | some entity =>
        rcases TimerState.entityAt_eq_some.mp hentity with ⟨hheap, hserial⟩
        have hyounger := h.younger entity hheap
        rw [hserial] at hyounger
        exact absurd hyounger (Nat.lt_irrefl _)
  · intro hlisted
    have hmem : ref.pointer ∈ s.timers.timer.m_setSubTimer := by
      rcases hlisted with hmem | ⟨due, hregistered⟩
      · exact hmem
      · exact h.inv.enrolled ref.pointer due hregistered
    cases hheap : s.timers.heap ref.pointer with
    | none => exact absurd hheap ((h.inv.safe.known ref.pointer).mp hmem)
    | some entity => exact ⟨entity, rfl, h.younger entity hheap⟩

/-!
# Destruction
-/

theorem step_destroy {s t : TimerHistory} {id : SubTimerId} {ref : EntityRef}
    (hid : s.timers.subTimers id = some (some ref))
    (hstep : step s (.of (.destroy id)) = some t) :
    TimerState.callable s.timers.control = true ∧
      t.timers = (s.timers.assign id none).markDeleted ref := by
  rcases Option.map_eq_some_iff.mp hstep with ⟨trace, htrace, hEq⟩
  simp only [TimerTrace.step] at htrace
  split at htrace
  · cases htrace
  · rcases Option.map_eq_some_iff.mp htrace with ⟨next, hnext, hobserve⟩
    rcases TimerState.callable_of_step (fun h => by cases h) hnext with ⟨hcall, hdestroyed⟩
    have hdestroy : s.timers.destroy id = some next := hdestroyed
    unfold TimerState.destroy at hdestroy
    rw [hid] at hdestroy
    cases hdestroy
    refine ⟨hcall, ?_⟩
    rw [← hEq, ← hobserve]
    exact observe_timers _ _

theorem destroy_enabled {s : TimerHistory} (hsafe : s.timers.Safe) {id : SubTimerId}
    {ref : EntityRef} (hid : s.timers.subTimers id = some (some ref))
    (hcall : TimerState.callable s.timers.control = true) :
    exists t, step s (.of (.destroy id)) = some t := by
  have hnext : TimerState.step s.timers (.destroy id) =
      some ((s.timers.assign id none).markDeleted ref) := by
    unfold TimerState.step
    rw [hsafe.clean, if_neg (by simp), if_neg (by simp), if_pos hcall]
    unfold TimerState.call TimerState.destroy
    simp only [hid]
  unfold step
  simp only [TimerTrace.step]
  split
  · rename_i hpc
    have hpcTimers : s.timers.control = _ := hpc
    rw [hpcTimers] at hcall
    cases hcall
  · rw [show TimerState.step s.trace.timers (s.trace.numbered (.destroy id)) = _ from hnext]
    exact ⟨_, rfl⟩

/-- An idle entity that is destroyed is gone, unless it still has the flag. -/
theorem destroy_idle {s t : TimerHistory} (hinv : HistoryInv s) {id : SubTimerId}
    {ref : EntityRef} (hid : s.timers.subTimers id = some (some ref))
    (hidle : s.timers.control.current ≠ some ref)
    (hstep : step s (.of (.destroy id)) = some t) :
    if ref ∈ s.early then t.timers.heap ref.pointer ≠ none
    else t.timers.heap ref.pointer = none ∧ ¬ t.timers.timer.Listed ref.pointer := by
  rcases hinv.safe.owned id ref hid with ⟨entity, hentity, _⟩
  have hflag := hinv.flagged.flag ref entity hentity hidle
  have hreleased : (s.timers.assign id none).entityAt ref = some entity := hentity
  have htimers := (step_destroy hid hstep).right
  rw [TimerState.markDeleted_eq hreleased] at htimers
  split
  · rename_i hearly
    rw [if_pos (hflag.mpr hearly)] at htimers
    rw [htimers]
    simp [TimerState.store]
  · rename_i hearly
    rw [if_neg (fun hhandling => hearly (hflag.mp hhandling))] at htimers
    have hmarked : ((s.timers.assign id none).store ref.pointer
        { entity with m_bDelete := true }).entityAt ref = some { entity with m_bDelete := true } :=
      TimerState.entityAt_store hreleased rfl
    rw [htimers, TimerState.deleteEntity_eq hmarked]
    exact ⟨Function.update_self _ _ _, ActorTimer.not_listed_unRegist _ _⟩

theorem deletesAtOnce_of_left {s : TimerHistory} {a : TraceAction} (hinv : HistoryInv s)
    (hleft : LeftAtEnd s a) : DeletesAtOnce s a := by
  unfold DeletesAtOnce
  split
  · rename_i id
    intro ref t hid hidle hstep
    have hdestroyed := destroy_idle hinv hid hidle hstep
    rw [if_neg (hleft ref hid hidle (step_destroy hid hstep).left)] at hdestroyed
    refine ⟨hdestroyed.left, hdestroyed.right, ?_⟩
    intro more u hrun
    rcases hinv.safe.owned id ref hid with ⟨entity, hentity, _⟩
    have hgone : Gone ref t := by
      refine { inv := historyInv_step hinv hstep, past := ?_, younger := ?_ }
      · exact Nat.lt_of_lt_of_le (hinv.flagged.serials ref entity hentity)
          (follows_cases hinv.safe hstep).grows
      · intro other hother
        rw [hdestroyed.left] at hother
        cases hother
    exact (run_invariant (fun _ _ _ h _ hnext => gone_step h hnext) hgone
      (allSteps_of_labels (fun _ _ _ => trivial) t) hrun).removed
  · trivial

theorem left_of_deletesAtOnce {s : TimerHistory} {a : TraceAction} (hinv : HistoryInv s)
    (hdeletes : DeletesAtOnce s a) : LeftAtEnd s a := by
  unfold LeftAtEnd
  split
  · intro ref hid hidle hcall hearly
    rcases destroy_enabled hinv.safe hid hcall with ⟨t, hstep⟩
    have hdestroyed := destroy_idle hinv hid hidle hstep
    rw [if_pos hearly] at hdestroyed
    exact hdestroyed (hdeletes ref t hid hidle hstep).left
  · trivial

/-- Along a run idle entities are deleted with their `SubTimer`s exactly if none of them
has left its last `OnTimer` early. -/
theorem idle_deleted_iff (actions : List TraceAction) :
    AllSteps step DeletesAtOnce init actions <-> AllSteps step LeftAtEnd init actions := by
  have hkeep : forall s a t, HistoryInv s -> step s a = some t -> HistoryInv t :=
    fun s a t hinv hstep => historyInv_step hinv hstep
  constructor
  · exact allSteps_of_invariant (fun s a t hinv _ hstep => hkeep s a t hinv hstep)
      (fun s a hinv hdeletes => left_of_deletesAtOnce hinv hdeletes) historyInv_init
  · exact allSteps_of_invariant (fun s a t hinv _ hstep => hkeep s a t hinv hstep)
      (fun s a hinv hleft => deletesAtOnce_of_left hinv hleft) historyInv_init

/-- The second handler is not due when the first one has been called. -/
def leftEarly : List TraceAction :=
  [.of (.construct 0 100), .of (.AddTimer 0 10 0 1), .of (.AddTimer 0 20 0 2), .of (.OnTimer 10),
    .of .advance, .of .advance, .of .advance, .of .advance, .of .advance, .of .advance,
    .of .advance, .of .advance, .of .advance, .of .advance]

theorem leftEarly_not_deleted :
    ¬ AllSteps step DeletesAtOnce init (leftEarly ++ [.of (.destroy 0)]) := by
  intro hall
  have hcheck : (Run step init leftEarly).bind (fun s =>
      (step s (.of (.destroy 0))).map (fun t =>
        (s.timers.subTimers 0, s.timers.control, (t.timers.heap 100).isSome))) =
      some (some (some { pointer := 100, serial := 0 }), .idle, true) := by
    decide
  rcases Option.bind_eq_some_iff.mp hcheck with ⟨s, hrun, hrest⟩
  rcases Option.map_eq_some_iff.mp hrest with ⟨t, hstep, hEq⟩
  injection hEq with hid hEq
  injection hEq with hidle hthere
  have hdeletes : DeletesAtOnce s (.of (.destroy 0)) := (allSteps_after hall hrun).left
  have hgone := hdeletes _ t hid (by rw [hidle]; simp [TimerControl.current]) hstep
  rw [hgone.left] at hthere
  cases hthere

end TimerHistory
end Utils
end GMServer
