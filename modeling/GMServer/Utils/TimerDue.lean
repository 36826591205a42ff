import GMServer.Utils.TimerSafety

/-!
# No timer is missed

What is due is found by the earliest time an entity is registered with.  An
entity that returns early from `OnTimer` has lost the registration it was invoked
for; unless it has another one, nobody comes back for the times it still keeps.
-/

namespace GMServer
namespace Utils

open Std

theorem becomesFirst_false {value : Type} {m_mTimer : ExtTreeMap uint64_t value}
    {iTime : uint64_t} (h : becomesFirst m_mTimer iTime = false) :
    exists (itBegin : uint64_t) (first : value),
      m_mTimer[itBegin]? = some first ∧ itBegin ≤ iTime := by
  unfold becomesFirst at h
  cases hfirst : SortedMap.first m_mTimer with
  | none =>
      rw [hfirst] at h
      cases h
  | some entry =>
      rw [hfirst] at h
      exact ⟨entry.1, entry.2, SortedMap.first_getElem? hfirst,
        not_lt.mp (of_decide_eq_false h)⟩

/-- Some registration of the entity is not later than `due`. -/
def ActorTimer.RegisteredBy (timer : ActorTimer) (address : Pointer) (due : uint64_t) : Prop :=
  exists iTime setTimer,
    timer.m_mTimer[iTime]? = some setTimer ∧ address ∈ setTimer ∧ iTime ≤ due

namespace ActorTimer

theorem registeredBy_addTimer_self (timer : ActorTimer) (address : Pointer)
    (iTimeMS : uint64_t) : (timer.AddTimer iTimeMS address).RegisteredBy address iTimeMS := by
  refine ⟨iTimeMS, _, SortedMap.getElem?_insert_same timer.m_mTimer iTimeMS _, ?_, ?_⟩
  · exact ExtTreeSet.mem_insert_self
  · exact BitVec.le_refl iTimeMS

theorem registeredBy_addTimer {timer : ActorTimer} {address : Pointer} {due : uint64_t}
    (h : timer.RegisteredBy address due) (iTimeMS : uint64_t) (pSubTimer : Pointer) :
    (timer.AddTimer iTimeMS pSubTimer).RegisteredBy address due := by
  rcases h with ⟨iTime, setTimer, hget, hmem, hle⟩
  by_cases hsame : iTimeMS = iTime
  · refine ⟨iTime, (setTimer.insert pSubTimer), ?_, ?_, hle⟩
    · show (timer.m_mTimer.insert iTimeMS _)[iTime]? = _
      rw [hsame, SortedMap.getElem?_insert_same, hget]
      rfl
    · exact ExtTreeSet.mem_insert.mpr (Or.inr hmem)
  · exact ⟨iTime, setTimer, (SortedMap.getElem?_insert_ne _ _ hsame).trans hget, hmem, hle⟩

theorem registeredBy_register {timer : ActorTimer} {address : Pointer} {due : uint64_t}
    (h : timer.RegisteredBy address due) (entity : SubTimerEntity) (pSubTimer : Pointer)
    (iNextTime : uint64_t) :
    (entity.register timer pSubTimer iNextTime).RegisteredBy address due := by
  unfold SubTimerEntity.register
  split
  · exact registeredBy_addTimer h iNextTime pSubTimer
  · exact h

theorem registeredBy_unRegist {timer : ActorTimer} {address pSubTimer : Pointer}
    {due : uint64_t} (hne : pSubTimer ≠ address) (h : timer.RegisteredBy address due) :
    (timer.UnRegistSubTimer pSubTimer).RegisteredBy address due := by
  rcases h with ⟨iTime, setTimer, hget, hmem, hle⟩
  have hleft : address ∈ setTimer.erase pSubTimer := by
    rw [ExtTreeSet.mem_erase, ne_eq, Std.compare_eq_iff_eq]
    exact ⟨hne, hmem⟩
  refine ⟨iTime, setTimer.erase pSubTimer, ?_, hleft, hle⟩
  have hsome : eraseFrom pSubTimer setTimer = some (setTimer.erase pSubTimer) := by
    apply if_neg
    intro hempty
    rw [ExtTreeSet.isEmpty_iff.mp hempty] at hleft
    exact ExtTreeSet.not_mem_empty hleft
  show (timer.m_mTimer.filterMap _)[iTime]? = _
  rw [ExtTreeMap.getElem?_filterMap', hget]
  exact hsome

theorem registeredBy_popped {timer : ActorTimer} {address : Pointer} {due itBegin : uint64_t}
    {setTimer : ExtTreeSet Pointer} (hbegin : timer.m_mTimer[itBegin]? = some setTimer)
    (h : timer.RegisteredBy address due) :
    { timer with m_mTimer := timer.m_mTimer.erase itBegin }.RegisteredBy address due ∨
      address ∈ setTimer.toList := by
  rcases h with ⟨iTime, other, hget, hmem, hle⟩
  by_cases hsame : itBegin = iTime
  · right
    rw [← hsame, hbegin] at hget
    cases hget
    exact ExtTreeSet.mem_toList.mpr hmem
  · left
    refine ⟨iTime, other, ?_, hmem, hle⟩
    show (timer.m_mTimer.erase itBegin)[iTime]? = _
    rw [SortedMap.getElem?_erase_eq, if_neg hsame]
    exact hget

end ActorTimer

/-- The entities that `ActorTimer::OnTimer` has taken out of its map and not left yet. -/
def TimerControl.inProgress : TimerControl -> List Pointer
  | .setLoop _ setTimer => setTimer
  | .entityLoop _ setTimer ref => ref.pointer :: setTimer
  | .handleLoop _ setTimer ref _ => ref.pointer :: setTimer
  | .handler _ setTimer ref _ _ => ref.pointer :: setTimer
  | _ => []

def TimerControl.hasReturned : TimerControl -> Bool
  | .returned _ => true
  | _ => false

namespace TimerState

open Transition

/-!
# What is to hold, and when it does

The condition is on the early return of `SubTimerEntity::OnTimer`: whoever takes
it is registered for what is left.
-/

def NoneMissed (s : TimerState) : Prop :=
  forall iNowMS, s.control = .returned iNowMS ->
    forall id ref entity iTime listHandle, s.subTimers id = some (some ref) ->
      s.entityAt ref = some entity -> entity.m_mTimer[iTime]? = some listHandle ->
      listHandle ≠ [] -> iNowMS < iTime

def isRegisteredBy (timer : ActorTimer) (address : Pointer) (due : uint64_t) : Bool :=
  timer.m_mTimer.toList.any (fun entry => entry.2.contains address && entry.1 ≤ due)

def keepsRegistration (s : TimerState) : Bool :=
  match s.control with
  | .entityLoop iNowMS _ ref =>
      match s.entityAt ref with
      | none => true
      | some entity =>
          match SortedMap.first entity.m_mTimer, entity.m_bDelete with
          | some (itBegin, _), false =>
              itBegin ≤ iNowMS || isRegisteredBy s.timer ref.pointer itBegin
          | _, _ => true
  | _ => true

def KeepsRegistration (s : TimerState) (a : TimerAction) : Prop :=
  a = .advance -> keepsRegistration s = true

instance (s : TimerState) (a : TimerAction) : Decidable (KeepsRegistration s a) :=
  inferInstanceAs (Decidable (_ -> _))

theorem isRegisteredBy_iff {timer : ActorTimer} {address : Pointer} {due : uint64_t} :
    isRegisteredBy timer address due = true <-> timer.RegisteredBy address due := by
  unfold isRegisteredBy
  rw [List.any_eq_true]
  constructor
  · intro h
    rcases h with ⟨entry, hentry, htest⟩
    rw [Bool.and_eq_true, decide_eq_true_eq] at htest
    exact ⟨entry.1, entry.2, ExtTreeMap.mem_toList_iff_getElem?_eq_some.mp hentry,
      ExtTreeSet.mem_iff_contains.mpr htest.left, htest.right⟩
  · intro h
    rcases h with ⟨iTime, setTimer, hget, hmem, hle⟩
    refine ⟨(iTime, setTimer), ExtTreeMap.mem_toList_iff_getElem?_eq_some.mpr hget, ?_⟩
    rw [Bool.and_eq_true, decide_eq_true_eq]
    exact ⟨ExtTreeSet.mem_iff_contains.mp hmem, hle⟩

theorem keepsRegistration_early {s : TimerState} {iNowMS itBegin : uint64_t}
    {setTimer : List Pointer} {ref : EntityRef} {entity : SubTimerEntity}
    {listHandle : List TimerHandle} (hpc : s.control = .entityLoop iNowMS setTimer ref)
    (hentity : s.entityAt ref = some entity) (hlive : entity.m_bDelete = false)
    (hbegin : SortedMap.first entity.m_mTimer = some (itBegin, listHandle))
    (hlater : iNowMS < itBegin) :
    keepsRegistration s = true <-> s.timer.RegisteredBy ref.pointer itBegin := by
  have hnot : ¬ itBegin ≤ iNowMS := not_le_of_gt hlater
  unfold keepsRegistration
  rw [hpc]
  simp only [hentity, hbegin, hlive, hnot, decide_false, Bool.false_or]
  exact isRegisteredBy_iff

/-!
# The invariant

Every time a live entity keeps is covered: by a registration that is not later,
or because `OnTimer` is about to come to the entity or is in it.
-/

def Waiting (s : TimerState) (address : Pointer) (iTime : uint64_t) : Prop :=
  exists entity listHandle, s.heap address = some entity ∧ entity.m_bDelete = false ∧
    entity.m_mTimer[iTime]? = some listHandle

def Covered (s : TimerState) (address : Pointer) (iTime : uint64_t) : Prop :=
  s.timer.RegisteredBy address iTime ∨ address ∈ s.control.inProgress

def Due (s : TimerState) : Prop :=
  forall address iTime, Waiting s address iTime -> Covered s address iTime

theorem due_init : Due init := by
  intro address iTime hwaiting
  rcases hwaiting with ⟨entity, listHandle, hentity, _⟩
  cases hentity

/-!
# The invariant is kept
-/

theorem waiting_store {s : TimerState} {address it : Pointer} {entity : SubTimerEntity}
    {iTime : uint64_t} (h : Waiting (s.store it entity) address iTime) :
    (address = it ∧ entity.m_bDelete = false ∧
      exists listHandle, entity.m_mTimer[iTime]? = some listHandle) ∨
        (address ≠ it ∧ Waiting s address iTime) := by
  rcases h with ⟨found, listHandle, hfound, hlive, hget⟩
  by_cases hsame : address = it
  · left
    simp only [TimerState.store, hsame, Function.update_self] at hfound
    cases hfound
    exact ⟨hsame, hlive, listHandle, hget⟩
  · right
    simp only [TimerState.store, Function.update_of_ne hsame] at hfound
    exact ⟨hsame, found, listHandle, hfound, hlive, hget⟩

/-- Storing an entity that keeps no new time. -/
theorem waiting_of_store {s : TimerState} {ref : EntityRef} {old entity : SubTimerEntity}
    {address : Pointer} {iTime : uint64_t} (hold : s.entityAt ref = some old)
    (h : Waiting (s.store ref.pointer entity) address iTime)
    (hlive : entity.m_bDelete = false -> old.m_bDelete = false)
    (hless : forall (iTime : uint64_t) (listHandle : List TimerHandle),
      entity.m_mTimer[iTime]? = some listHandle ->
        exists before : List TimerHandle, old.m_mTimer[iTime]? = some before) :
    Waiting s address iTime := by
  rcases waiting_store h with ⟨hsame, hnew, listHandle, hget⟩ | ⟨_, hother⟩
  · rcases hless iTime listHandle hget with ⟨before, hbefore⟩
    rw [hsame]
    exact ⟨old, before, (entityAt_eq_some.mp hold).left, hlive hnew, hbefore⟩
  · exact hother

theorem waiting_deleteEntity {s : TimerState} {ref : EntityRef} {entity : SubTimerEntity}
    (hentity : s.entityAt ref = some entity) {address : Pointer} {iTime : uint64_t}
    (h : Waiting (s.deleteEntity ref) address iTime) :
    address ≠ ref.pointer ∧ Waiting s address iTime := by
  rw [deleteEntity_eq hentity] at h
  rcases h with ⟨found, listHandle, hfound, hrest⟩
  by_cases hsame : address = ref.pointer
  · simp only [hsame, Function.update_self] at hfound
    cases hfound
  · simp only [Function.update_of_ne hsame] at hfound
    exact ⟨hsame, found, listHandle, hfound, hrest⟩

theorem covered_deleteEntity {s : TimerState} {ref : EntityRef} {entity : SubTimerEntity}
    (hentity : s.entityAt ref = some entity) {address : Pointer} {iTime : uint64_t}
    (hother : address ≠ ref.pointer) (h : Covered s address iTime) :
    Covered (s.deleteEntity ref) address iTime := by
  rw [deleteEntity_eq hentity]
  rcases h with hregistered | hprogress
  · left
    exact ActorTimer.registeredBy_unRegist (Ne.symm hother) hregistered
  · right
    exact hprogress

theorem due_deleteEntity {s : TimerState} (hdue : Due s) {ref : EntityRef}
    {entity : SubTimerEntity} (hentity : s.entityAt ref = some entity) :
    Due (s.deleteEntity ref) := by
  intro address iTime hwaiting
  rcases waiting_deleteEntity hentity hwaiting with ⟨hother, hbefore⟩
  exact covered_deleteEntity hentity hother (hdue address iTime hbefore)

theorem due_markDeleted {s : TimerState} (hdue : Due s) {ref : EntityRef}
    {entity : SubTimerEntity} (hentity : s.entityAt ref = some entity) :
    Due (s.markDeleted ref) := by
  rw [markDeleted_eq hentity]
  have hmarked : Due (s.store ref.pointer { entity with m_bDelete := true }) := by
    intro address iTime hwaiting
    rcases waiting_store hwaiting with ⟨_, hnew, _⟩ | ⟨_, hother⟩
    · cases hnew
    · exact hdue address iTime hother
  split
  · exact hmarked
  · exact due_deleteEntity hmarked (entityAt_store hentity rfl)

theorem due_addTimer {s : TimerState} (hdue : Due s) {ref : EntityRef}
    {entity : SubTimerEntity} (hentity : s.entityAt ref = some entity)
    (hlive : entity.m_bDelete = false) (iTimeMS clock : uint64_t) (handel : TimerHandle) :
    Due (s.addTimer ref iTimeMS clock handel) := by
  rw [addTimer_eq hentity]
  have hheap := (entityAt_eq_some.mp hentity).left
  have hold : forall address iTime, Waiting s address iTime ->
      (entity.register s.timer ref.pointer (iTimeMS + clock)).RegisteredBy address iTime ∨
        address ∈ s.control.inProgress := by
    intro address iTime hwaiting
    rcases hdue address iTime hwaiting with hregistered | hprogress
    · exact Or.inl (ActorTimer.registeredBy_register hregistered _ _ _)
    · exact Or.inr hprogress
  intro address iTime hwaiting
  rcases waiting_store hwaiting with ⟨hsame, _, listHandle, hget⟩ | ⟨_, hother⟩
  · rw [hsame]
    by_cases hnew : iTimeMS + clock = iTime
    · -- the new time is registered, or the first one is there and not later
      rw [← hnew]
      cases hregister : becomesFirst entity.m_mTimer (iTimeMS + clock) with
      | true =>
          left
          show (entity.register _ _ _).RegisteredBy _ _
          unfold SubTimerEntity.register
          rw [if_pos hregister]
          exact ActorTimer.registeredBy_addTimer_self _ _ _
      | false =>
          rcases becomesFirst_false hregister with ⟨itBegin, handles, hbegin, hle⟩
          rcases hold ref.pointer itBegin ⟨entity, handles, hheap, hlive, hbegin⟩ with
            ⟨iFirst, setTimer, hset, hmem, hfirst⟩ | hprogress
          · left
            exact ⟨iFirst, setTimer, hset, hmem, le_trans hfirst hle⟩
          · exact Or.inr hprogress
    · have hbefore : entity.m_mTimer[iTime]? = some listHandle :=
        (SortedMap.getElem?_insert_ne entity.m_mTimer _ hnew).symm.trans hget
      exact hold ref.pointer iTime ⟨entity, listHandle, hheap, hlive, hbefore⟩
  · exact hold address iTime hother

theorem due_clear {s : TimerState} (hdue : Due s) {ref : EntityRef}
    {entity : SubTimerEntity} (hentity : s.entityAt ref = some entity) :
    Due (s.clear ref) := by
  rw [clear_eq hentity]
  intro address iTime hwaiting
  rcases waiting_store hwaiting with ⟨_, _, listHandle, hget⟩ | ⟨hne, hother⟩
  · cases hget
  · rcases hdue address iTime hother with hregistered | hprogress
    · left
      exact ActorTimer.registeredBy_unRegist (Ne.symm hne) hregistered
    · exact Or.inr hprogress

theorem due_leaveEntity {s : TimerState} {ref : EntityRef} {entity : SubTimerEntity}
    (hdue : forall address iTime, Waiting s address iTime -> address ≠ ref.pointer ->
      Covered s address iTime)
    (hentity : s.entityAt ref = some entity)
    (hdone : entity.m_mTimer = ∅ ∨ entity.m_bDelete = true) :
    Due (s.leaveEntity ref entity) := by
  intro address iTime hwaiting
  unfold leaveEntity at hwaiting ⊢
  have hstored : (s.store ref.pointer { entity with m_bHandleing := false }).entityAt ref =
      some { entity with m_bHandleing := false } := entityAt_store hentity rfl
  have hleft : forall {address iTime},
      Waiting (s.store ref.pointer { entity with m_bHandleing := false }) address iTime ->
      address ≠ ref.pointer ->
      Covered (s.store ref.pointer { entity with m_bHandleing := false }) address iTime := by
    intro address iTime h hne
    rcases waiting_store h with ⟨hsame, _⟩ | ⟨_, hother⟩
    · exact absurd hsame hne
    · exact hdue address iTime hother hne
  by_cases hdelete : entity.m_bDelete = true
  · simp only [if_pos hdelete] at hwaiting ⊢
    rcases waiting_deleteEntity hstored hwaiting with ⟨hne, hbefore⟩
    exact covered_deleteEntity hstored hne (hleft hbefore hne)
  · simp only [if_neg hdelete] at hwaiting ⊢
    apply hleft hwaiting
    intro hsame
    have hempty := hdone.resolve_right hdelete
    rcases waiting_store hwaiting with ⟨_, _, listHandle, hget⟩ | ⟨hne, _⟩
    · rw [hempty] at hget
      cases hget
    · exact hne hsame

theorem due_newEntity {s : TimerState} (hdue : Due s) (id : SubTimerId) (address : Pointer) :
    Due (s.newEntity id address) := by
  intro other iTime hwaiting
  have hmade : Waiting (s.store address (SubTimerEntity.make s.constructed)) other iTime :=
    hwaiting
  rcases waiting_store hmade with ⟨_, _, listHandle, hget⟩ | ⟨_, hother⟩
  · cases hget
  · exact hdue other iTime hother

/-- The entity is stored with none but times it had, and whoever was in progress still is. -/
theorem due_store {s : TimerState} {ref : EntityRef} {old entity : SubTimerEntity}
    {control : TimerControl} (hdue : Due s) (hold : s.entityAt ref = some old)
    (hlive : entity.m_bDelete = false -> old.m_bDelete = false)
    (hless : forall (iTime : uint64_t) (listHandle : List TimerHandle),
      entity.m_mTimer[iTime]? = some listHandle ->
        exists before : List TimerHandle, old.m_mTimer[iTime]? = some before)
    (hprogress : forall address, address ∈ s.control.inProgress ->
      address ∈ control.inProgress) :
    Due { s.store ref.pointer entity with control := control } := by
  intro address iTime hwaiting
  have hstored : Waiting (s.store ref.pointer entity) address iTime := hwaiting
  have hbefore := waiting_of_store hold hstored hlive hless
  exact (hdue address iTime hbefore).imp_right (hprogress address)

theorem due_skip {s : TimerState} {iNowMS : uint64_t} {it : Pointer} {setTimer : List Pointer}
    (hdue : Due s) (hpc : s.control = .setLoop iNowMS (it :: setTimer))
    (hfreed : s.heap it = none) : Due { s with control := .setLoop iNowMS setTimer } := by
  intro address iTime hwaiting
  rcases hdue address iTime hwaiting with hregistered | hin
  · exact Or.inl hregistered
  · rw [hpc] at hin
    rcases List.mem_cons.mp hin with hsame | hrest
    · rcases hwaiting with ⟨entity, listHandle, hentity, _⟩
      rw [hsame] at hentity
      cases hfreed.symm.trans hentity
    · exact Or.inr hrest

/-- The entity that returns early has the registration that it was invoked for. -/
theorem due_early {s : TimerState} {iNowMS itBegin : uint64_t} {setTimer : List Pointer}
    {ref : EntityRef} {entity : SubTimerEntity} {listHandle : List TimerHandle} (hdue : Due s)
    (hpc : s.control = .entityLoop iNowMS setTimer ref)
    (hentity : s.entityAt ref = some entity)
    (hbegin : SortedMap.first entity.m_mTimer = some (itBegin, listHandle))
    (hstill : s.timer.RegisteredBy ref.pointer itBegin) :
    Due { s with control := .setLoop iNowMS setTimer } := by
  rcases hstill with ⟨iFirst, registered, hset, hmem, hfirst⟩
  intro address iTime hwaiting
  rcases hdue address iTime hwaiting with hregistered | hin
  · exact Or.inl hregistered
  · rw [hpc] at hin
    rcases List.mem_cons.mp hin with hsame | hrest
    · rcases hwaiting with ⟨found, handles, hfound, _, hget⟩
      rw [hsame, (entityAt_eq_some.mp hentity).left] at hfound
      cases hfound
      rw [hsame]
      left
      exact ⟨iFirst, registered, hset, hmem, le_trans hfirst (SortedMap.first_le hbegin hget)⟩
    · exact Or.inr hrest

theorem due_step {s t : TimerState} {a : TimerAction} (hsafe : Safe s) (hdue : Due s)
    (hkeeps : KeepsRegistration s a) (hstep : step s a = some t) : Due t := by
  have hprogress : forall {before control : TimerControl}, s.control = before ->
      (forall address, address ∈ before.inProgress -> address ∈ control.inProgress) ->
      Due { s with control := control } := by
    intro before control hpc hsub address iTime hwaiting
    rcases hdue address iTime hwaiting with hregistered | hin
    · exact Or.inl hregistered
    · right
      rw [hpc] at hin
      exact hsub address hin
  cases step_sound hstep with
  | start iNowMS hidle => exact hprogress hidle (fun _ h => h)
  | resume hpc => exact hprogress hpc (fun _ h => h)
  | finished hpc hlater => exact hprogress hpc (fun _ h => h)
  | popSet hpc hbegin hpopped =>
      intro address iTime hwaiting
      rcases hdue address iTime hwaiting with hregistered | hin
      · exact ActorTimer.registeredBy_popped hbegin hregistered
      · rw [hpc] at hin
        cases hin
  | setDone hpc => exact hprogress hpc (fun _ h => h)
  | @skip iNowMS it setTimer hpc hgone =>
      have hfreed : s.heap it = none := by
        by_contra hheap
        exact hgone ((hsafe.known it).mpr hheap)
      exact due_skip hdue hpc hfreed
  | invokeDeleted hpc hthere hfreed => exact hdue
  | @invoke iNowMS it setTimer entity hpc hentity =>
      have hthere : s.entityAt { pointer := it, serial := entity.serial } = some entity :=
        entityAt_eq_some.mpr ⟨hentity, rfl⟩
      refine due_store hdue hthere (fun h => h) (fun _ listHandle h => ⟨listHandle, h⟩) ?_
      rw [hpc]
      exact fun _ h => h
  | fieldAfterDelete hcurrent hdeleted => exact hdue
  | @leave iNowMS setTimer ref entity hpc hentity hdone =>
      apply due_leaveEntity (s := { s with control := .setLoop iNowMS setTimer }) _ hentity hdone
      intro address iTime hwaiting hne
      rcases hdue address iTime hwaiting with hregistered | hin
      · exact Or.inl hregistered
      · rw [hpc] at hin
        rcases List.mem_cons.mp hin with hsame | hrest
        · exact absurd hsame hne
        · exact Or.inr hrest
  | @early iNowMS itBegin setTimer ref entity listHandle hpc hentity hlive hbegin hlater =>
      exact due_early hdue hpc hentity hbegin
        ((keepsRegistration_early hpc hentity hlive hbegin hlater).mp (hkeeps rfl))
  | @popHandles iNowMS itBegin setTimer ref entity listHandle hpc hentity hbegin =>
      refine due_store hdue hentity (fun h => h)
        (fun _ handles h => ⟨handles, (SortedMap.getElem?_erase_some h).right⟩) ?_
      rw [hpc]
      exact fun _ h => h
  | handlesDone hpc => exact hprogress hpc (fun _ h => h)
  | callHandler hpc => exact hprogress hpc (fun _ h => h)
  | handlerReturns hpc => exact hprogress hpc (fun _ h => h)
  | create hadvance hcall hid hfree => exact due_newEntity hdue _ _
  | move hcall hid hother => exact hdue
  | destroyMoved hcall hid => exact hdue
  | destroy hcall hid =>
      rcases hsafe.owned _ _ hid with ⟨entity, hentity, _⟩
      exact due_markDeleted (s := s.assign _ none) hdue hentity
  | addTimer iTimeMS clock handel hcall hid =>
      rcases hsafe.owned _ _ hid with ⟨entity, hentity, hlive⟩
      exact due_addTimer hdue hentity hlive iTimeMS clock handel
  | clear hcall hid =>
      rcases hsafe.owned _ _ hid with ⟨entity, hentity, _⟩
      exact due_clear hdue hentity
  | copyDeleted hother hdeleted => exact hdue

/-!
# The return from `OnTimer`

It returns when the earliest registration is later than the time it was called
with.
-/

def AllLater (s : TimerState) : Prop :=
  forall iNowMS, s.control = .returned iNowMS ->
    forall address due, s.timer.RegisteredBy address due -> iNowMS < due

theorem control_addTimer (s : TimerState) (ref : EntityRef) (iTimeMS clock : uint64_t)
    (handel : TimerHandle) : (s.addTimer ref iTimeMS clock handel).control = s.control := by
  unfold addTimer
  split <;> rfl

theorem control_clear (s : TimerState) (ref : EntityRef) :
    (s.clear ref).control = s.control := by
  unfold clear
  split <;> rfl

theorem control_deleteEntity (s : TimerState) (ref : EntityRef) :
    (s.deleteEntity ref).control = s.control := by
  unfold deleteEntity
  split <;> rfl

theorem control_markDeleted (s : TimerState) (ref : EntityRef) :
    (s.markDeleted ref).control = s.control := by
  unfold markDeleted
  split
  · rfl
  · dsimp only
    split
    · rfl
    · exact control_deleteEntity _ ref

theorem control_leaveEntity (s : TimerState) (ref : EntityRef) (entity : SubTimerEntity) :
    (s.leaveEntity ref entity).control = s.control := by
  unfold leaveEntity
  dsimp only
  split
  · exact control_deleteEntity _ ref
  · rfl

theorem allLater_of_running {t : TimerState} (hrunning : t.control.hasReturned = false) :
    AllLater t := by
  intro iNowMS hpc
  rw [hpc] at hrunning
  cases hrunning

theorem allLater_of_callable {s t : TimerState} (hcall : callable s.control = true)
    (hsame : t.control = s.control) : AllLater t := by
  intro iNowMS hpc
  rw [← hsame, hpc] at hcall
  cases hcall

theorem allLater_step {s t : TimerState} {a : TimerAction} (hsafe : Safe s)
    (hstep : step s a = some t) : AllLater t := by
  cases step_sound hstep with
  | @finished iNowMS hpc hlater =>
      intro now hnow address due hregistered
      cases hnow
      rcases hregistered with ⟨iTime, setTimer, hget, _, hle⟩
      exact lt_of_lt_of_le (hlater iTime setTimer hget) hle
  | invokeDeleted hpc hthere hfreed => exact absurd hfreed ((hsafe.known _).mp hthere)
  | fieldAfterDelete hcurrent hdeleted =>
      rcases hsafe.current _ hcurrent with ⟨entity, hentity, _⟩
      cases hdeleted.symm.trans hentity
  | copyDeleted hother hdeleted =>
      rcases hsafe.owned _ _ hother with ⟨entity, hentity, _⟩
      cases hdeleted.symm.trans hentity
  | create hadvance hcall hid hfree => exact allLater_of_callable hcall rfl
  | move hcall hid hother => exact allLater_of_callable hcall rfl
  | destroyMoved hcall hid => exact allLater_of_callable hcall rfl
  | destroy hcall hid => exact allLater_of_callable hcall (control_markDeleted _ _)
  | addTimer iTimeMS clock handel hcall hid =>
      exact allLater_of_callable hcall (control_addTimer _ _ _ _ _)
  | clear hcall hid => exact allLater_of_callable hcall (control_clear _ _)
  | leave hpc hentity hdone =>
      apply allLater_of_running
      rw [control_leaveEntity]
      rfl
  | start iNowMS hidle => exact allLater_of_running rfl
  | resume hpc => exact allLater_of_running rfl
  | popSet hpc hbegin hpopped => exact allLater_of_running rfl
  | setDone hpc => exact allLater_of_running rfl
  | skip hpc hgone => exact allLater_of_running rfl
  | invoke hpc hentity => exact allLater_of_running rfl
  | early hpc hentity hlive hbegin hlater => exact allLater_of_running rfl
  | popHandles hpc hentity hbegin => exact allLater_of_running rfl
  | handlesDone hpc => exact allLater_of_running rfl
  | callHandler hpc => exact allLater_of_running rfl
  | handlerReturns hpc => exact allLater_of_running rfl

structure DueInv (s : TimerState) : Prop where
  safe : Safe s
  due : Due s
  later : AllLater s

theorem dueInv_init : DueInv init where
  safe := safe_init
  due := due_init
  later := fun _ hpc => by cases hpc

theorem dueInv_step {s t : TimerState} {a : TimerAction} (hinv : DueInv s)
    (hkeeps : KeepsRegistration s a) (hstep : step s a = some t) : DueInv t where
  safe := safe_step hinv.safe hstep
  due := due_step hinv.safe hinv.due hkeeps hstep
  later := allLater_step hinv.safe hstep

theorem noneMissed_of_inv {s : TimerState} (hinv : DueInv s) : NoneMissed s := by
  intro iNowMS hpc id ref entity iTime listHandle hid hentity hget _
  rcases hinv.safe.owned id ref hid with ⟨found, hfound, hlive⟩
  cases hfound.symm.trans hentity
  have hwaiting : Waiting s ref.pointer iTime :=
    ⟨entity, listHandle, (entityAt_eq_some.mp hentity).left, hlive, hget⟩
  rcases hinv.due ref.pointer iTime hwaiting with hregistered | hin
  · exact hinv.later iNowMS hpc ref.pointer iTime hregistered
  · rw [hpc] at hin
    cases hin

end TimerState
end Utils
end GMServer
