import GMServer.Utils.TimerDue

/-!
# How a timer is missed

An entity that has returned early without a registration is not found again.  If
the handlers add nothing from there on, the running `OnTimer` comes to its end and
the next one, at the very time the entity still keeps, passes it by.
-/

namespace GMServer
namespace Utils

open Std

namespace ActorTimer

theorem registeredBy_of_unRegist {timer : ActorTimer} {address pSubTimer : Pointer}
    {due : uint64_t} (h : (timer.UnRegistSubTimer pSubTimer).RegisteredBy address due) :
    timer.RegisteredBy address due := by
  rcases h with ⟨iTime, setTimer, hget, hmem, hle⟩
  have hfiltered : (timer.m_mTimer.filterMap (fun _ => eraseFrom pSubTimer))[iTime]? =
      some setTimer := hget
  rw [ExtTreeMap.getElem?_filterMap'] at hfiltered
  cases hold : timer.m_mTimer[iTime]? with
  | none =>
      rw [hold] at hfiltered
      cases hfiltered
  | some before =>
      rw [hold] at hfiltered
      have herase : eraseFrom pSubTimer before = some setTimer := hfiltered
      unfold eraseFrom at herase
      split at herase
      · cases herase
      · cases herase
        exact ⟨iTime, before, hold, ExtTreeSet.mem_of_mem_erase hmem, hle⟩

theorem registeredBy_of_erase {timer : ActorTimer} {address : Pointer} {due itBegin : uint64_t}
    (h : { timer with m_mTimer := timer.m_mTimer.erase itBegin }.RegisteredBy address due) :
    timer.RegisteredBy address due := by
  rcases h with ⟨iTime, setTimer, hget, hrest⟩
  exact ⟨iTime, setTimer, (SortedMap.getElem?_erase_some hget).right, hrest⟩

theorem size_unRegist_le (timer : ActorTimer) (pSubTimer : Pointer) :
    (timer.UnRegistSubTimer pSubTimer).m_mTimer.size ≤ timer.m_mTimer.size :=
  ExtTreeMap.size_filterMap_le_size

end ActorTimer

/-- The time that the running `OnTimer` was called with. -/
def TimerControl.now : TimerControl -> Option uint64_t
  | .idle => none
  | .returned iNowMS => some iNowMS
  | .timerLoop iNowMS => some iNowMS
  | .setLoop iNowMS _ => some iNowMS
  | .entityLoop iNowMS _ _ => some iNowMS
  | .handleLoop iNowMS _ _ _ => some iNowMS
  | .handler iNowMS _ _ _ _ => some iNowMS

namespace TimerState

open Transition

/-!
# Lost times

The entity keeps a handler for the time `due`, it has no registration that early,
and the running `OnTimer` will not come to it.
-/

structure Lost (id : SubTimerId) (ref : EntityRef) (due : uint64_t) (s : TimerState) : Prop where
  owner : s.subTimers id = some (some ref)
  keeps : exists entity listHandle, s.entityAt ref = some entity ∧
    entity.m_mTimer[due]? = some listHandle ∧ listHandle ≠ []
  unregistered : ¬ s.timer.RegisteredBy ref.pointer due
  passed : ref.pointer ∉ s.control.inProgress
  called : forall iNowMS, s.control.now = some iNowMS -> iNowMS ≤ due

section Lost

variable {id : SubTimerId} {ref : EntityRef} {due : uint64_t} {s : TimerState}

theorem Lost.control (hlost : Lost id ref due s) {before control : TimerControl}
    (hpc : s.control = before)
    (hpassed : forall address, address ∈ control.inProgress -> address ∈ before.inProgress)
    (hcalled : forall iNowMS, control.now = some iNowMS -> before.now = some iNowMS) :
    Lost id ref due { s with control := control } :=
  { owner := hlost.owner
    keeps := hlost.keeps
    unregistered := hlost.unregistered
    passed := fun h => hlost.passed (by rw [hpc]; exact hpassed _ h)
    called := fun iNowMS h => hlost.called iNowMS (by rw [hpc]; exact hcalled iNowMS h) }

theorem Lost.store (hlost : Lost id ref due s) {it : Pointer} (hother : ref.pointer ≠ it)
    (entity : SubTimerEntity) : Lost id ref due (s.store it entity) :=
  { owner := hlost.owner
    keeps := by
      rcases hlost.keeps with ⟨found, listHandle, hfound, hkept⟩
      exact ⟨found, listHandle, (entityAt_store_ne hother).trans hfound, hkept⟩
    unregistered := hlost.unregistered
    passed := hlost.passed
    called := hlost.called }

theorem Lost.delete (hlost : Lost id ref due s) {other : EntityRef} {entity : SubTimerEntity}
    (hentity : s.entityAt other = some entity) (hother : ref.pointer ≠ other.pointer) :
    Lost id ref due (s.deleteEntity other) := by
  rw [deleteEntity_eq hentity]
  exact
    { owner := hlost.owner
      keeps := by
        rcases hlost.keeps with ⟨found, listHandle, hfound, hkept⟩
        have hheap := entityAt_eq_some.mp hfound
        refine ⟨found, listHandle, entityAt_eq_some.mpr ⟨?_, hheap.right⟩, hkept⟩
        exact (Function.update_of_ne hother none s.heap).trans hheap.left
      unregistered := fun h => hlost.unregistered (ActorTimer.registeredBy_of_unRegist h)
      passed := hlost.passed
      called := hlost.called }

theorem Lost.leave (hlost : Lost id ref due s) {other : EntityRef} {entity : SubTimerEntity}
    (hentity : s.entityAt other = some entity) (hother : ref.pointer ≠ other.pointer) :
    Lost id ref due (s.leaveEntity other entity) := by
  have hstored := hlost.store hother { entity with m_bHandleing := false }
  unfold leaveEntity
  by_cases hdelete : entity.m_bDelete = true
  · simp only [if_pos hdelete]
    exact hstored.delete (entityAt_store hentity rfl) hother
  · simp only [if_neg hdelete]
    exact hstored

theorem not_progress (hlost : Lost id ref due s) {other : Pointer}
    (hin : other ∈ s.control.inProgress) : ref.pointer ≠ other :=
  fun hEq => hlost.passed (hEq ▸ hin)

/-- Without further calls from the handlers the entity stays lost. -/
theorem lost_advance {t : TimerState} (hlost : Lost id ref due s)
    (hstep : step s .advance = some t) : Lost id ref due t := by
  cases step_sound hstep with
  | resume hpc =>
      exact hlost.control hpc (fun _ h => h) (fun _ h => by cases h)
  | finished hpc hlater => exact hlost.control hpc (fun _ h => h) (fun _ h => h)
  | @popSet iNowMS itBegin setTimer hpc hbegin hpopped =>
      have hle : itBegin ≤ due := le_trans hpopped (hlost.called iNowMS (by rw [hpc]; rfl))
      exact
        { owner := hlost.owner
          keeps := hlost.keeps
          unregistered := fun h => hlost.unregistered (ActorTimer.registeredBy_of_erase h)
          passed := fun h => hlost.unregistered
            ⟨itBegin, setTimer, hbegin, ExtTreeSet.mem_toList.mp h, hle⟩
          called := fun now h => hlost.called now (by rw [hpc]; exact h) }
  | setDone hpc => exact hlost.control hpc (fun _ h => h) (fun _ h => h)
  | skip hpc hgone =>
      exact hlost.control hpc (fun _ h => List.mem_cons_of_mem _ h) (fun _ h => h)
  | invokeDeleted hpc hthere hfreed => exact { hlost with }
  | @invoke iNowMS it setTimer entity hpc hentity =>
      have hother : ref.pointer ≠ it :=
        not_progress hlost (by rw [hpc]; exact List.mem_cons_self)
      exact (hlost.store hother { entity with m_bHandleing := true }).control hpc
        (fun _ h => h) (fun _ h => h)
  | fieldAfterDelete hcurrent hdeleted => exact { hlost with }
  | @leave iNowMS setTimer other entity hpc hentity hdone =>
      have hother : ref.pointer ≠ other.pointer :=
        not_progress hlost (by rw [hpc]; exact List.mem_cons_self)
      have hmoved : Lost id ref due { s with control := .setLoop iNowMS setTimer } :=
        hlost.control hpc (fun _ h => List.mem_cons_of_mem _ h) (fun _ h => h)
      exact hmoved.leave hentity hother
  | early hpc hentity hlive hbegin hlater =>
      exact hlost.control hpc (fun _ h => List.mem_cons_of_mem _ h) (fun _ h => h)
  | @popHandles iNowMS itBegin setTimer other entity listHandle hpc hentity hbegin =>
      have hother : ref.pointer ≠ other.pointer :=
        not_progress hlost (by rw [hpc]; exact List.mem_cons_self)
      exact (hlost.store hother { entity with
        m_mTimer := entity.m_mTimer.erase itBegin }).control hpc (fun _ h => h) (fun _ h => h)
  | handlesDone hpc => exact hlost.control hpc (fun _ h => h) (fun _ h => h)
  | callHandler hpc => exact hlost.control hpc (fun _ h => h) (fun _ h => h)
  | handlerReturns hpc => exact hlost.control hpc (fun _ h => h) (fun _ h => h)
  | create hadvance hcall hid hfree => exact absurd rfl hadvance

end Lost

/-!
# `OnTimer` comes to its end

With handlers that do nothing every loop ends: the inner ones because their lists
get shorter, the outer ones because the maps do.
-/

def Reaches (s t : TimerState) : Prop :=
  exists steps, Run step s (List.replicate steps .advance) = some t

theorem reaches_trans {s t u : TimerState} (hfirst : Reaches s t) (hsecond : Reaches t u) :
    Reaches s u := by
  rcases hfirst with ⟨before, hbefore⟩
  rcases hsecond with ⟨after, hafter⟩
  refine ⟨before + after, ?_⟩
  rw [List.replicate_add, run_append _ hbefore]
  exact hafter

theorem reaches_keeps {P : TimerState -> Prop}
    (hkeep : forall s t, P s -> step s .advance = some t -> P t)
    {s t : TimerState} (hs : P s) (hreaches : Reaches s t) : P t := by
  rcases hreaches with ⟨steps, hrun⟩
  induction steps generalizing s with
  | zero =>
      cases hrun
      exact hs
  | succ steps ih =>
      rcases run_cons_eq_some hrun with ⟨next, hstep, hrest⟩
      exact ih (hkeep s next hs hstep) hrest

theorem reaches_safe {s t : TimerState} (hsafe : Safe s) (hreaches : Reaches s t) : Safe t :=
  reaches_keeps (fun _ _ h hstep => safe_step h hstep) hsafe hreaches

theorem step_advance {s : TimerState} (hsafe : Safe s) : step s .advance = s.advance := by
  unfold step
  rw [hsafe.clean]
  rfl

theorem reaches_advance {s t : TimerState} (hsafe : Safe s) (hadvance : s.advance = some t) :
    Reaches s t := by
  refine ⟨1, ?_⟩
  show Run step s [.advance] = some t
  rw [run_cons_of_step [] ((step_advance hsafe).trans hadvance)]
  rfl

theorem handles_finish {iNowMS : uint64_t} {setTimer : List Pointer} {ref : EntityRef}
    (listHandle : List TimerHandle) {s : TimerState} (hsafe : Safe s)
    (hpc : s.control = .handleLoop iNowMS setTimer ref listHandle) :
    Reaches s { s with control := .entityLoop iNowMS setTimer ref } := by
  induction listHandle generalizing s with
  | nil =>
      apply reaches_advance hsafe
      unfold advance
      rw [hpc]
      rfl
  | cons stHanle listHandle ih =>
      rcases hsafe.current ref (by rw [hpc]; rfl) with ⟨entity, hentity, _⟩
      by_cases hdelete : entity.m_bDelete = true
      · apply reaches_advance hsafe
        unfold advance
        rw [hpc]
        simp only [runHandleLoop, hentity, if_pos hdelete]
      · have hcalled : Reaches s
            { s with control := .handler iNowMS setTimer ref stHanle listHandle } := by
          apply reaches_advance hsafe
          unfold advance
          rw [hpc]
          simp only [runHandleLoop, hentity, if_neg hdelete]
        have hback : Reaches
            { s with control := .handler iNowMS setTimer ref stHanle listHandle }
            { s with control := .handleLoop iNowMS setTimer ref listHandle } :=
          reaches_advance (reaches_safe hsafe hcalled) rfl
        have hreturned := reaches_trans hcalled hback
        exact reaches_trans hreturned (ih (reaches_safe hsafe hreturned) rfl)

/-- The registrations only become fewer. -/
def Fewer (s t : TimerState) : Prop := t.timer.m_mTimer.size ≤ s.timer.m_mTimer.size

theorem fewer_leaveEntity (s : TimerState) (ref : EntityRef) (entity : SubTimerEntity) :
    Fewer s (s.leaveEntity ref entity) := by
  unfold leaveEntity
  dsimp only
  split
  · unfold deleteEntity
    split
    · exact Nat.le_refl _
    · exact ActorTimer.size_unRegist_le s.timer ref.pointer
  · exact Nat.le_refl _

/-- One turn of the outer loop of `SubTimerEntity::OnTimer`: it ends, or it takes the
handlers of one time. -/
theorem runEntityLoop_cases {s : TimerState} {iNowMS : uint64_t} {setTimer : List Pointer}
    {ref : EntityRef} {entity : SubTimerEntity} (hentity : s.entityAt ref = some entity) :
    ((s.runEntityLoop iNowMS setTimer ref).control = .setLoop iNowMS setTimer ∧
        Fewer s (s.runEntityLoop iNowMS setTimer ref)) ∨
      exists itBegin listHandle,
        SortedMap.first entity.m_mTimer = some (itBegin, listHandle) ∧
          s.runEntityLoop iNowMS setTimer ref =
            { s.store ref.pointer { entity with m_mTimer := entity.m_mTimer.erase itBegin } with
              control := .handleLoop iNowMS setTimer ref listHandle } := by
  unfold runEntityLoop
  simp only [hentity]
  split
  · rename_i itBegin listHandle hfirst hlive
    by_cases hlater : iNowMS < itBegin
    · left
      rw [if_pos hlater]
      exact ⟨rfl, Nat.le_refl _⟩
    · right
      rw [if_neg hlater]
      exact ⟨itBegin, listHandle, hfirst, rfl⟩
  · left
    exact ⟨control_leaveEntity _ ref entity, fewer_leaveEntity _ ref entity⟩

theorem entity_finish {iNowMS : uint64_t} {setTimer : List Pointer} {ref : EntityRef}
    (times : Nat) {s : TimerState} {entity : SubTimerEntity} (hsafe : Safe s)
    (hpc : s.control = .entityLoop iNowMS setTimer ref)
    (hentity : s.entityAt ref = some entity) (htimes : entity.m_mTimer.size < times) :
    exists t, Reaches s t ∧ t.control = .setLoop iNowMS setTimer ∧ Fewer s t := by
  induction times generalizing s entity with
  | zero => exact absurd htimes (Nat.not_lt_zero _)
  | succ times ih =>
      have hturn : Reaches s (s.runEntityLoop iNowMS setTimer ref) := by
        apply reaches_advance hsafe
        unfold advance
        rw [hpc]
      rcases runEntityLoop_cases hentity with ⟨hleft, hfewer⟩ | ⟨itBegin, listHandle, hbegin, hEq⟩
      · exact ⟨_, hturn, hleft, hfewer⟩
      · rw [hEq] at hturn
        have hhandled := reaches_trans hturn
          (handles_finish listHandle (reaches_safe hsafe hturn) rfl)
        have hless : (entity.m_mTimer.erase itBegin).size < times := by
          rw [← SortedMap.size_erase_first hbegin] at htimes
          exact Nat.lt_of_succ_lt_succ htimes
        rcases ih (reaches_safe hsafe hhandled) rfl (entityAt_store hentity rfl) hless with
          ⟨t, hreaches, hleft, hfewer⟩
        exact ⟨t, reaches_trans hhandled hreaches, hleft, hfewer⟩

theorem set_finish {iNowMS : uint64_t} (setTimer : List Pointer) {s : TimerState}
    (hsafe : Safe s) (hpc : s.control = .setLoop iNowMS setTimer) :
    exists t, Reaches s t ∧ t.control = .timerLoop iNowMS ∧ Fewer s t := by
  induction setTimer generalizing s with
  | nil =>
      refine ⟨{ s with control := .timerLoop iNowMS }, ?_, rfl, Nat.le_refl _⟩
      apply reaches_advance hsafe
      unfold advance
      rw [hpc]
      rfl
  | cons it setTimer ih =>
      have hturn : Reaches s (s.runSetLoop iNowMS (it :: setTimer)) := by
        apply reaches_advance hsafe
        unfold advance
        rw [hpc]
      by_cases hthere : it ∈ s.timer.m_setSubTimer
      · cases hentity : s.heap it with
        | none => exact absurd hentity ((hsafe.known it).mp hthere)
        | some entity =>
            simp only [runSetLoop, if_pos hthere, hentity] at hturn
            have hat : s.entityAt { pointer := it, serial := entity.serial } = some entity :=
              entityAt_eq_some.mpr ⟨hentity, rfl⟩
            rcases entity_finish (entity.m_mTimer.size + 1) (reaches_safe hsafe hturn) rfl
              (entityAt_store hat rfl) (Nat.lt_succ_self _) with ⟨t, hreaches, hleft, hfewer⟩
            have hentered := reaches_trans hturn hreaches
            rcases ih (reaches_safe hsafe hentered) hleft with ⟨u, hrest, hdone, hless⟩
            exact ⟨u, reaches_trans hentered hrest, hdone, Nat.le_trans hless hfewer⟩
      · simp only [runSetLoop, if_neg hthere] at hturn
        rcases ih (reaches_safe hsafe hturn) rfl with ⟨u, hrest, hdone, hless⟩
        exact ⟨u, reaches_trans hturn hrest, hdone, hless⟩

theorem timer_finish {iNowMS : uint64_t} (times : Nat) {s : TimerState} (hsafe : Safe s)
    (hpc : s.control = .timerLoop iNowMS) (htimes : s.timer.m_mTimer.size < times) :
    exists t, Reaches s t ∧ t.control = .returned iNowMS := by
  induction times generalizing s with
  | zero => exact absurd htimes (Nat.not_lt_zero _)
  | succ times ih =>
      have hturn : Reaches s (s.runTimerLoop iNowMS) := by
        apply reaches_advance hsafe
        unfold advance
        rw [hpc]
      cases hfirst : SortedMap.first s.timer.m_mTimer with
      | none =>
          refine ⟨_, hturn, ?_⟩
          simp only [runTimerLoop, hfirst]
      | some entry =>
          rcases entry with ⟨itBegin, setTimer⟩
          by_cases hlater : iNowMS < itBegin
          · refine ⟨_, hturn, ?_⟩
            simp only [runTimerLoop, hfirst, if_pos hlater]
          · simp only [runTimerLoop, hfirst, if_neg hlater] at hturn
            rcases set_finish setTimer.toList (reaches_safe hsafe hturn) rfl with
              ⟨t, hreaches, hback, hfewer⟩
            have hround := reaches_trans hturn hreaches
            have hless : t.timer.m_mTimer.size < times := by
              rw [← SortedMap.size_erase_first hfirst] at htimes
              exact Nat.lt_of_le_of_lt hfewer (Nat.lt_of_succ_lt_succ htimes)
            rcases ih (reaches_safe hsafe hround) hback hless with ⟨u, hrest, hdone⟩
            exact ⟨u, reaches_trans hround hrest, hdone⟩

theorem onTimer_finishes {s : TimerState} (hsafe : Safe s) {iNowMS : uint64_t}
    (hpc : s.control = .timerLoop iNowMS) :
    exists t, Reaches s t ∧ t.control = .returned iNowMS :=
  timer_finish (s.timer.m_mTimer.size + 1) hsafe hpc (Nat.lt_succ_self _)

/-!
# Where the handlers are

A live entity has its `SubTimer`, no time is kept without a handler, and the set
that is being iterated holds an entity once.
-/

structure Tracked (s : TimerState) : Prop where
  owner : forall address entity, s.heap address = some entity -> entity.m_bDelete = false ->
    exists id, s.subTimers id = some (some { pointer := address, serial := entity.serial })
  filled : forall (address : Pointer) (entity : SubTimerEntity) (iTime : uint64_t)
    (listHandle : List TimerHandle), s.heap address = some entity ->
      entity.m_mTimer[iTime]? = some listHandle -> listHandle ≠ []
  once : s.control.inProgress.Nodup

theorem tracked_init : Tracked init where
  owner := fun address entity h => by cases h
  filled := fun address entity iTime listHandle h => by cases h
  once := List.nodup_nil

section Tracked

variable {s : TimerState}

theorem Tracked.control (htracked : Tracked s) {control : TimerControl}
    (honce : control.inProgress.Nodup) : Tracked { s with control := control } :=
  { htracked with once := honce }

theorem Tracked.filledAt (htracked : Tracked s) {ref : EntityRef} {entity : SubTimerEntity}
    (hentity : s.entityAt ref = some entity) (iTime : uint64_t)
    (listHandle : List TimerHandle) (hget : entity.m_mTimer[iTime]? = some listHandle) :
    listHandle ≠ [] :=
  htracked.filled ref.pointer entity iTime listHandle (entityAt_eq_some.mp hentity).left hget

theorem Tracked.store (htracked : Tracked s) {ref : EntityRef} {old entity : SubTimerEntity}
    (hold : s.entityAt ref = some old) (hserial : entity.serial = old.serial)
    (hlive : entity.m_bDelete = false -> old.m_bDelete = false)
    (hfilled : forall (iTime : uint64_t) (listHandle : List TimerHandle),
      entity.m_mTimer[iTime]? = some listHandle -> listHandle ≠ []) :
    Tracked (s.store ref.pointer entity) := by
  have hcases : forall address found, (s.store ref.pointer entity).heap address = some found ->
      (address = ref.pointer ∧ found = entity) ∨ s.heap address = some found := by
    intro address found hfound
    by_cases hsame : address = ref.pointer
    · left
      simp only [TimerState.store, hsame, Function.update_self] at hfound
      exact ⟨hsame, (Option.some.inj hfound).symm⟩
    · right
      simpa only [TimerState.store, Function.update_of_ne hsame] using hfound
  have hheap := (entityAt_eq_some.mp hold).left
  exact
    { owner := by
        intro address found hfound hnot
        rcases hcases address found hfound with ⟨hsame, hEq⟩ | hother
        · rw [hsame, hEq, hserial]
          exact htracked.owner ref.pointer old hheap (hlive (hEq ▸ hnot))
        · exact htracked.owner address found hother hnot
      filled := by
        intro address found iTime listHandle hfound hget
        rcases hcases address found hfound with ⟨_, hEq⟩ | hother
        · rw [hEq] at hget
          exact hfilled iTime listHandle hget
        · exact htracked.filled address found iTime listHandle hother hget
      once := htracked.once }

theorem Tracked.delete (htracked : Tracked s) {ref : EntityRef} {entity : SubTimerEntity}
    (hentity : s.entityAt ref = some entity) : Tracked (s.deleteEntity ref) := by
  rw [deleteEntity_eq hentity]
  have hcases : forall address found,
      Function.update s.heap ref.pointer none address = some found ->
      s.heap address = some found := by
    intro address found hfound
    by_cases hsame : address = ref.pointer
    · rw [hsame, Function.update_self] at hfound
      cases hfound
    · rwa [Function.update_of_ne hsame] at hfound
  exact
    { owner := fun address found hfound => htracked.owner address found (hcases _ _ hfound)
      filled := fun address found iTime listHandle hfound =>
        htracked.filled address found iTime listHandle (hcases _ _ hfound)
      once := htracked.once }

theorem Tracked.leave (htracked : Tracked s) {ref : EntityRef} {entity : SubTimerEntity}
    (hentity : s.entityAt ref = some entity) : Tracked (s.leaveEntity ref entity) := by
  have hstored : Tracked (s.store ref.pointer { entity with m_bHandleing := false }) :=
    htracked.store hentity rfl (fun h => h)
      (fun iTime listHandle h => htracked.filledAt hentity iTime listHandle h)
  unfold leaveEntity
  by_cases hdelete : entity.m_bDelete = true
  · simp only [if_pos hdelete]
    exact hstored.delete (entityAt_store hentity rfl)
  · simp only [if_neg hdelete]
    exact hstored

theorem Tracked.destroy (htracked : Tracked s) {id : SubTimerId} {ref : EntityRef}
    {entity : SubTimerEntity} (hid : s.subTimers id = some (some ref))
    (hentity : s.entityAt ref = some entity) :
    Tracked ((s.assign id none).markDeleted ref) := by
  have hheap := entityAt_eq_some.mp hentity
  have hthere : (s.assign id none).entityAt ref = some entity := hentity
  -- the only entity that loses its `SubTimer` is the marked one
  have hmarked : Tracked ((s.assign id none).store ref.pointer
      { entity with m_bDelete := true }) :=
    { owner := by
        intro address found hfound hlive
        by_cases hsame : address = ref.pointer
        · simp only [TimerState.store, assign, hsame, Function.update_self] at hfound
          cases hfound
          cases hlive
        · simp only [TimerState.store, assign, Function.update_of_ne hsame] at hfound
          rcases htracked.owner address found hfound hlive with ⟨other, hother⟩
          have hne : other ≠ id := by
            intro hEq
            rw [hEq, hid] at hother
            cases hother
            exact hsame rfl
          refine ⟨other, ?_⟩
          simp only [TimerState.store, assign, Function.update_of_ne hne]
          exact hother
      filled := by
        intro address found iTime listHandle hfound hget
        by_cases hsame : address = ref.pointer
        · simp only [TimerState.store, assign, hsame, Function.update_self] at hfound
          cases hfound
          exact htracked.filled ref.pointer entity iTime listHandle hheap.left hget
        · simp only [TimerState.store, assign, Function.update_of_ne hsame] at hfound
          exact htracked.filled address found iTime listHandle hfound hget
      once := htracked.once }
  rw [markDeleted_eq hthere]
  split
  · exact hmarked
  · exact hmarked.delete (entityAt_store hthere rfl)

theorem Tracked.addTimer (htracked : Tracked s) {ref : EntityRef} {entity : SubTimerEntity}
    (hentity : s.entityAt ref = some entity) (iTimeMS clock : uint64_t)
    (handel : TimerHandle) : Tracked (s.addTimer ref iTimeMS clock handel) := by
  rw [addTimer_eq hentity]
  have hregistered : Tracked { s with
      timer := entity.register s.timer ref.pointer (iTimeMS + clock) } :=
    { htracked with }
  refine hregistered.store hentity rfl (fun h => by exact h) ?_
  intro iTime listHandle hget
  by_cases hnew : iTimeMS + clock = iTime
  · simp only [SubTimerEntity.pushBack, hnew, SortedMap.getElem?_insert_same] at hget
    cases hget
    exact List.append_ne_nil_of_right_ne_nil _ (List.cons_ne_nil handel [])
  · simp only [SubTimerEntity.pushBack, SortedMap.getElem?_insert_ne _ _ hnew] at hget
    exact htracked.filledAt hentity iTime listHandle hget

theorem Tracked.clear (htracked : Tracked s) {ref : EntityRef} {entity : SubTimerEntity}
    (hentity : s.entityAt ref = some entity) : Tracked (s.clear ref) := by
  rw [clear_eq hentity]
  have hregistered : Tracked { s with
      timer := (s.timer.UnRegistSubTimer ref.pointer).RegistSubTimer ref.pointer } :=
    { htracked with }
  refine hregistered.store hentity rfl (fun h => by exact h) ?_
  intro iTime listHandle hget
  cases hget

theorem tracked_destroyMoved (htracked : Tracked s) {id : SubTimerId}
    (hid : s.subTimers id = some none) : Tracked (s.assign id none) where
  owner := by
    intro address entity hentity hlive
    rcases htracked.owner address entity hentity hlive with ⟨one, hone⟩
    have hne : one ≠ id := by
      intro hEq
      rw [hEq, hid] at hone
      cases hone
    exact ⟨one, (Function.update_of_ne hne _ s.subTimers).trans hone⟩
  filled := htracked.filled
  once := htracked.once

theorem tracked_newEntity (htracked : Tracked s) {id : SubTimerId} {address : Pointer}
    (hid : s.subTimers id = none) : Tracked (s.newEntity id address) where
  owner := by
    intro other found hfound hlive
    by_cases hsame : other = address
    · simp only [newEntity, assign, TimerState.store, hsame, Function.update_self] at hfound
      cases hfound
      exact ⟨id, by rw [hsame]; exact Function.update_self id _ s.subTimers⟩
    · simp only [newEntity, assign, TimerState.store, Function.update_of_ne hsame] at hfound
      rcases htracked.owner other found hfound hlive with ⟨one, hone⟩
      have hne : one ≠ id := by
        intro hEq
        rw [hEq, hid] at hone
        cases hone
      exact ⟨one, (Function.update_of_ne hne _ s.subTimers).trans hone⟩
  filled := by
    intro other found iTime listHandle hfound hget
    by_cases hsame : other = address
    · simp only [newEntity, assign, TimerState.store, hsame, Function.update_self] at hfound
      cases hfound
      cases hget
    · simp only [newEntity, assign, TimerState.store, Function.update_of_ne hsame] at hfound
      exact htracked.filled other found iTime listHandle hfound hget
  once := htracked.once

theorem tracked_move (htracked : Tracked s) {id other : SubTimerId}
    {pSubEntity : Option EntityRef} (hid : s.subTimers id = none)
    (hother : s.subTimers other = some pSubEntity) :
    Tracked ((s.assign id (some pSubEntity)).assign other (some none)) where
  owner := by
    intro address entity hentity hlive
    rcases htracked.owner address entity hentity hlive with ⟨one, hone⟩
    have hdifferent : id ≠ other := by
      intro hEq
      rw [hEq, hother] at hid
      cases hid
    by_cases hsource : one = other
    · refine ⟨id, ?_⟩
      rw [hsource, hother] at hone
      simp only [assign, Function.update_of_ne hdifferent, Function.update_self]
      exact hone
    · have htarget : one ≠ id := by
        intro hEq
        rw [hEq, hid] at hone
        cases hone
      refine ⟨one, ?_⟩
      simp only [assign, Function.update_of_ne hsource, Function.update_of_ne htarget]
      exact hone
  filled := htracked.filled
  once := htracked.once

theorem nodup_toList (setTimer : ExtTreeSet Pointer) : setTimer.toList.Nodup := by
  apply List.Pairwise.imp _ (ExtTreeSet.distinct_toList (t := setTimer))
  intro one two hdistinct hEq
  exact hdistinct (Std.compare_eq_iff_eq.mpr hEq)

theorem tracked_step {t : TimerState} {a : TimerAction} (hsafe : Safe s)
    (htracked : Tracked s) (hstep : step s a = some t) : Tracked t := by
  have hprogress : forall {before control : TimerControl}, s.control = before ->
      control.inProgress.Sublist before.inProgress ->
      Tracked { s with control := control } := by
    intro before control hpc hsub
    have honce := htracked.once
    rw [hpc] at honce
    exact htracked.control (hsub.nodup honce)
  cases step_sound hstep with
  | start iNowMS hidle => exact hprogress hidle (List.Sublist.refl _)
  | resume hpc => exact hprogress hpc (List.Sublist.refl _)
  | finished hpc hlater => exact hprogress hpc (List.Sublist.refl _)
  | @popSet iNowMS itBegin setTimer hpc hbegin hpopped =>
      exact { htracked with once := nodup_toList setTimer }
  | setDone hpc => exact hprogress hpc (List.Sublist.refl _)
  | skip hpc hgone => exact hprogress hpc (List.sublist_cons_self _ _)
  | invokeDeleted hpc hthere hfreed => exact { htracked with }
  | @invoke iNowMS it setTimer entity hpc hentity =>
      have hthere : s.entityAt { pointer := it, serial := entity.serial } = some entity :=
        entityAt_eq_some.mpr ⟨hentity, rfl⟩
      have hkept := htracked.filledAt hthere
      have hstored : Tracked (s.store it { entity with m_bHandleing := true }) :=
        htracked.store hthere rfl (fun h => h) hkept
      apply hstored.control
      have honce := htracked.once
      rw [hpc] at honce
      exact honce
  | fieldAfterDelete hcurrent hdeleted => exact { htracked with }
  | @leave iNowMS setTimer ref entity hpc hentity hdone =>
      have hmoved : Tracked { s with control := .setLoop iNowMS setTimer } :=
        hprogress hpc (List.sublist_cons_self _ _)
      exact hmoved.leave hentity
  | early hpc hentity hlive hbegin hlater =>
      exact hprogress hpc (List.sublist_cons_self _ _)
  | @popHandles iNowMS itBegin setTimer ref entity listHandle hpc hentity hbegin =>
      have hstored : Tracked (s.store ref.pointer
          { entity with m_mTimer := entity.m_mTimer.erase itBegin }) :=
        htracked.store hentity rfl (fun h => h)
          (fun iTime handles h => htracked.filledAt hentity iTime handles
            (SortedMap.getElem?_erase_some h).right)
      apply hstored.control
      have honce := htracked.once
      rw [hpc] at honce
      exact honce
  | handlesDone hpc => exact hprogress hpc (List.Sublist.refl _)
  | callHandler hpc => exact hprogress hpc (List.Sublist.refl _)
  | handlerReturns hpc => exact hprogress hpc (List.Sublist.refl _)
  | create hadvance hcall hid hfree => exact tracked_newEntity htracked hid
  | move hcall hid hother => exact tracked_move htracked hid hother
  | destroyMoved hcall hid => exact tracked_destroyMoved htracked hid
  | destroy hcall hid =>
      rcases hsafe.owned _ _ hid with ⟨entity, hentity, _⟩
      exact htracked.destroy hid hentity
  | addTimer iTimeMS clock handel hcall hid =>
      rcases hsafe.owned _ _ hid with ⟨entity, hentity, _⟩
      exact htracked.addTimer hentity iTimeMS clock handel
  | clear hcall hid =>
      rcases hsafe.owned _ _ hid with ⟨entity, hentity, _⟩
      exact htracked.clear hentity
  | copyDeleted hother hdeleted => exact { htracked with }

end Tracked

/-!
# The early return without a registration
-/

theorem keepsRegistration_false {s : TimerState} (h : keepsRegistration s = false) :
    exists iNowMS setTimer ref entity itBegin listHandle,
      s.control = .entityLoop iNowMS setTimer ref ∧ s.entityAt ref = some entity ∧
        SortedMap.first entity.m_mTimer = some (itBegin, listHandle) ∧
        entity.m_bDelete = false ∧ iNowMS < itBegin ∧
        ¬ s.timer.RegisteredBy ref.pointer itBegin := by
  unfold keepsRegistration at h
  split at h
  · rename_i iNowMS setTimer ref hpc
    split at h
    · cases h
    · rename_i entity hentity
      split at h
      · rename_i itBegin listHandle hbegin hlive
        rw [Bool.or_eq_false_iff, decide_eq_false_iff_not] at h
        refine ⟨iNowMS, setTimer, ref, entity, itBegin, listHandle, hpc, hentity, hbegin,
          hlive, not_le.mp h.left, ?_⟩
        intro hregistered
        rw [isRegisteredBy_iff.mpr hregistered] at h
        cases h.right
      · cases h
  · cases h

theorem lost_of_early {s t : TimerState} (htracked : Tracked s) (hsafe : Safe s)
    {a : TimerAction} (hbad : ¬ KeepsRegistration s a) (hstep : step s a = some t) :
    exists id ref iNowMS setTimer due, Lost id ref due t ∧
      t.control = .setLoop iNowMS setTimer ∧ iNowMS < due := by
  unfold KeepsRegistration at hbad
  rw [Classical.not_imp, Bool.not_eq_true] at hbad
  rcases hbad with ⟨hadvance, hfalse⟩
  rcases keepsRegistration_false hfalse with
    ⟨iNowMS, setTimer, ref, entity, itBegin, listHandle, hpc, hentity, hbegin, hlive,
      hlater, hunregistered⟩
  have hheap := entityAt_eq_some.mp hentity
  rcases htracked.owner ref.pointer entity hheap.left hlive with ⟨id, hid⟩
  rw [hheap.right] at hid
  have hget := SortedMap.first_getElem? hbegin
  have hreturn : step s a = some { s with control := .setLoop iNowMS setTimer } := by
    rw [hadvance, step_advance hsafe]
    unfold advance
    rw [hpc]
    simp only [runEntityLoop, hentity, hbegin, hlive, if_pos hlater]
  cases hreturn.symm.trans hstep
  have hnotIn : ref.pointer ∉ setTimer := by
    have honce := htracked.once
    rw [hpc] at honce
    exact (List.nodup_cons.mp honce).left
  refine ⟨id, ref, iNowMS, setTimer, itBegin, ?_, rfl, hlater⟩
  exact
    { owner := hid
      keeps := ⟨entity, listHandle, hentity, hget,
        htracked.filled ref.pointer entity itBegin listHandle hheap.left hget⟩
      unregistered := hunregistered
      passed := hnotIn
      called := fun now h => by
        cases h
        exact le_of_lt hlater }

/-- Handlers that do nothing more, and one further call of `OnTimer`. -/
theorem lost_missed {t : TimerState} (hsafe : Safe t) {id : SubTimerId} {ref : EntityRef}
    {due iNowMS : uint64_t} {setTimer : List Pointer} (hlost : Lost id ref due t)
    (hpc : t.control = .setLoop iNowMS setTimer) :
    exists steps more u,
      Run step t (List.replicate steps .advance ++
        .OnTimer due :: List.replicate more .advance) = some u ∧ ¬ NoneMissed u := by
  have hkeep : forall s t, Lost id ref due s -> step s .advance = some t ->
      Lost id ref due t := fun _ _ h hstep => lost_advance h hstep
  rcases set_finish setTimer hsafe hpc with ⟨looped, hlooped, hloop, _⟩
  rcases onTimer_finishes (reaches_safe hsafe hlooped) hloop with ⟨back, hback, hreturned⟩
  have hfirst := reaches_trans hlooped hback
  have hbackSafe := reaches_safe hsafe hfirst
  have hidle : Reaches back { back with control := .idle } := by
    apply reaches_advance hbackSafe
    unfold advance
    rw [hreturned]
  have houtside := reaches_trans hfirst hidle
  have hidleSafe := reaches_safe hsafe houtside
  have hidleLost := reaches_keeps hkeep hlost houtside
  have hcall : step { back with control := .idle } (.OnTimer due) =
      some { back with control := .timerLoop due } := by
    unfold step
    rw [hidleSafe.clean]
    rfl
  have hcalledSafe := safe_step hidleSafe hcall
  have hcalledLost : Lost id ref due { back with control := .timerLoop due } :=
    { hidleLost with
      passed := List.not_mem_nil
      called := fun now h => by
        cases h
        exact BitVec.le_refl due }
  rcases onTimer_finishes hcalledSafe rfl with ⟨u, hsecond, hdone⟩
  have hmissed := reaches_keeps hkeep hcalledLost hsecond
  rcases houtside with ⟨steps, hsteps⟩
  rcases hsecond with ⟨more, hmore⟩
  refine ⟨steps, more, u, ?_, ?_⟩
  · rw [run_append _ hsteps, run_cons_of_step _ hcall]
    exact hmore
  · intro hnone
    rcases hmissed.keeps with ⟨entity, listHandle, hentity, hget, hfilled⟩
    exact BitVec.lt_irrefl due
      (hnone due hdone id ref entity due listHandle hmissed.owner hentity hget hfilled)

/-!
# The condition

Under it no run misses a timer, and a step that does not meet it is one from which
a timer can be missed: `OnTimer` need only be called once more, later.
-/

theorem tracked_run {actions : List TimerAction} {s : TimerState}
    (hrun : Run step init actions = some s) : Safe s ∧ Tracked s := by
  have hkeep : forall (s : TimerState) (a : TimerAction) (t : TimerState),
      Safe s ∧ Tracked s -> True -> step s a = some t -> Safe t ∧ Tracked t := by
    intro s a t hinv _ hstep
    exact ⟨safe_step hinv.left hstep, tracked_step hinv.left hinv.right hstep⟩
  exact run_invariant hkeep ⟨safe_init, tracked_init⟩
    (allSteps_of_labels (fun _ _ _ => trivial) init) hrun

theorem registered_none_missed (actions : List TimerAction) :
    (AllSteps step KeepsRegistration init actions -> AllStates step NoneMissed init actions) ∧
    (forall s a t, Run step init actions = some s -> ¬ KeepsRegistration s a ->
      step s a = some t ->
        exists iNowMS setTimer due steps more u, t.control = .setLoop iNowMS setTimer ∧
          iNowMS < due ∧
          Run step t (List.replicate steps .advance ++
            .OnTimer due :: List.replicate more .advance) = some u ∧
          ¬ NoneMissed u) := by
  constructor
  · intro hsteps
    exact allStates_of_invariant (fun s a t hinv hok hstep => dueInv_step hinv hok hstep)
      (fun s hinv => noneMissed_of_inv hinv) dueInv_init hsteps
  · intro s a t hrun hbad hstep
    rcases tracked_run hrun with ⟨hsafe, htracked⟩
    rcases lost_of_early htracked hsafe hbad hstep with
      ⟨id, ref, iNowMS, setTimer, due, hlost, hpc, hlater⟩
    rcases lost_missed (safe_step hsafe hstep) hlost hpc with ⟨steps, more, u, hmore, hmissed⟩
    exact ⟨iNowMS, setTimer, due, steps, more, u, hpc, hlater, hmore, hmissed⟩

/-- A timer with handlers due at 10 and at 20, and `OnTimer` at both times. -/
def twoTimers : List TimerAction :=
  [.construct 0 100, .AddTimer 0 10 0 1, .AddTimer 0 20 0 2,
    .OnTimer 10, .advance, .advance, .advance, .advance, .advance, .advance, .advance,
    .advance, .advance, .advance, .OnTimer 20, .advance]

theorem twoTimers_missed :
    exists s, Run step init twoTimers = some s ∧ ¬ NoneMissed s := by
  have hend : (Run step init twoTimers).map (fun s =>
      (s.control, s.subTimers 0, (s.entityAt { pointer := 100, serial := 0 }).map
        (fun entity => entity.m_mTimer[(20 : uint64_t)]?))) =
      some (.returned 20, some (some { pointer := 100, serial := 0 }), some (some [2])) := by
    decide
  rcases Option.map_eq_some_iff.mp hend with ⟨s, hrun, hEq⟩
  injection hEq with hpc hrest
  injection hrest with hid hkept
  rcases Option.map_eq_some_iff.mp hkept with ⟨entity, hentity, hget⟩
  refine ⟨s, hrun, ?_⟩
  intro hnone
  exact BitVec.lt_irrefl 20
    (hnone 20 hpc 0 _ entity 20 [2] hid hentity hget (List.cons_ne_nil 2 []))

/-- The second handler is added by the first one, which runs when no other is left. -/
def chainedTimers : List TimerAction :=
  [.construct 0 100, .AddTimer 0 10 0 1, .OnTimer 10, .advance, .advance, .advance, .advance,
    .AddTimer 0 10 10 2, .advance, .advance, .advance, .advance, .advance,
    .advance, .OnTimer 20, .advance, .advance, .advance, .advance, .advance, .advance,
    .advance, .advance, .advance]

theorem chainedTimers_none_missed : AllStates step NoneMissed init chainedTimers :=
  (registered_none_missed chainedTimers).left (by decide)

end TimerState
end Utils
end GMServer
