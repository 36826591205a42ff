import GMServer.Utils.TimeUtils

/-!
# No callback into a destroyed timer

Deleting an entity is put off while it is handling, and `OnTimer` only invokes
addresses that `m_setSubTimer` knows.  That is enough for every program of the
handlers, also when a freed address is used again.
-/

namespace GMServer
namespace Utils
namespace TimerState

open Std Transition

/-!
# References
-/

theorem entityAt_eq_some {s : TimerState} {ref : EntityRef} {entity : SubTimerEntity} :
    s.entityAt ref = some entity <->
      s.heap ref.pointer = some entity ∧ entity.serial = ref.serial := by
  unfold entityAt
  cases s.heap ref.pointer with
  | none =>
      constructor
      · intro h
        cases h
      · intro h
        cases h.left
  | some other =>
      dsimp only
      constructor
      · intro h
        split at h
        · cases h
          exact ⟨rfl, ‹_›⟩
        · cases h
      · intro h
        cases h.left
        exact if_pos h.right

/-- Two references to objects that exist agree if their addresses do. -/
theorem ref_eq {s : TimerState} {first second : EntityRef} {entity other : SubTimerEntity}
    (hfirst : s.entityAt first = some entity) (hsecond : s.entityAt second = some other)
    (hpointer : first.pointer = second.pointer) : first = second := by
  have hone := entityAt_eq_some.mp hfirst
  have htwo := entityAt_eq_some.mp hsecond
  rw [hpointer, htwo.left] at hone
  cases hone.left
  cases first
  cases second
  cases hpointer
  have hserial := hone.right.symm.trans htwo.right
  cases hserial
  rfl

theorem entityAt_store_ne {s : TimerState} {address : Pointer} {entity : SubTimerEntity}
    {ref : EntityRef} (hne : ref.pointer ≠ address) :
    (s.store address entity).entityAt ref = s.entityAt ref := by
  simp only [entityAt, store, Function.update_of_ne hne]

theorem entityAt_store {s : TimerState} {ref : EntityRef} {old entity : SubTimerEntity}
    (hold : s.entityAt ref = some old) (hserial : entity.serial = old.serial) :
    (s.store ref.pointer entity).entityAt ref = some entity := by
  apply entityAt_eq_some.mpr
  constructor
  · exact Function.update_self ref.pointer (some entity) s.heap
  · exact hserial.trans (entityAt_eq_some.mp hold).right

theorem deleteEntity_eq {s : TimerState} {ref : EntityRef} {entity : SubTimerEntity}
    (hentity : s.entityAt ref = some entity) :
    s.deleteEntity ref =
      { s with
        timer := s.timer.UnRegistSubTimer ref.pointer,
        heap := Function.update s.heap ref.pointer none } := by
  unfold deleteEntity
  rw [hentity]

theorem addTimer_eq {s : TimerState} {ref : EntityRef} {entity : SubTimerEntity}
    (hentity : s.entityAt ref = some entity) (iTimeMS clock : uint64_t)
    (handel : TimerHandle) :
    s.addTimer ref iTimeMS clock handel =
      { s with timer := entity.register s.timer ref.pointer (iTimeMS + clock) }.store
        ref.pointer (entity.pushBack (iTimeMS + clock) handel) := by
  unfold addTimer
  rw [hentity]

theorem clear_eq {s : TimerState} {ref : EntityRef} {entity : SubTimerEntity}
    (hentity : s.entityAt ref = some entity) :
    s.clear ref =
      { s with
        timer := (s.timer.UnRegistSubTimer ref.pointer).RegistSubTimer ref.pointer }.store
        ref.pointer { entity with m_mTimer := ∅ } := by
  unfold clear
  rw [hentity]

theorem markDeleted_eq {s : TimerState} {ref : EntityRef} {entity : SubTimerEntity}
    (hentity : s.entityAt ref = some entity) :
    s.markDeleted ref =
      if entity.m_bHandleing = true then
        s.store ref.pointer { entity with m_bDelete := true }
      else (s.store ref.pointer { entity with m_bDelete := true }).deleteEntity ref := by
  unfold markDeleted
  rw [hentity]

/-!
# The invariant

An owned entity exists and is not marked, and it is owned once.  The entity whose
`OnTimer` is running exists and knows that it is handling.
-/

structure Safe (s : TimerState) : Prop where
  clean : s.misuse = none
  known : forall it, it ∈ s.timer.m_setSubTimer <-> s.heap it ≠ none
  current : forall ref, s.control.current = some ref ->
    exists entity, s.entityAt ref = some entity ∧ entity.m_bHandleing = true
  owned : forall id ref, s.subTimers id = some (some ref) ->
    exists entity, s.entityAt ref = some entity ∧ entity.m_bDelete = false
  exclusive : forall id other ref, s.subTimers id = some (some ref) ->
    s.subTimers other = some (some ref) -> id = other

theorem safe_init : Safe init where
  clean := rfl
  known := fun it => ⟨fun h => absurd h ExtTreeSet.not_mem_empty, fun h => absurd rfl h⟩
  current := fun ref h => by cases h
  owned := fun id ref h => by cases h
  exclusive := fun id other ref h => by cases h

theorem Safe.handling {s : TimerState} (hsafe : Safe s) {ref : EntityRef}
    {entity : SubTimerEntity} (hentity : s.entityAt ref = some entity)
    (hcurrent : s.control.current = some ref) : entity.m_bHandleing = true := by
  rcases hsafe.current ref hcurrent with ⟨found, hfound, hhandling⟩
  rw [hentity] at hfound
  cases hfound
  exact hhandling

theorem Safe.control {s : TimerState} (hsafe : Safe s) {control : TimerControl}
    (hcurrent : forall ref, control.current = some ref ->
      exists entity, s.entityAt ref = some entity ∧ entity.m_bHandleing = true) :
    Safe { s with control := control } :=
  { clean := hsafe.clean
    known := hsafe.known
    current := hcurrent
    owned := hsafe.owned
    exclusive := hsafe.exclusive }

theorem Safe.keepControl {s : TimerState} (hsafe : Safe s) {before control : TimerControl}
    (hpc : s.control = before) (hsame : control.current = before.current) :
    Safe { s with control := control } := by
  apply hsafe.control
  intro ref href
  apply hsafe.current ref
  rw [hpc, ← hsame]
  exact href

theorem Safe.quiet {s : TimerState} (hsafe : Safe s) {control : TimerControl}
    (hnone : control.current = none) : Safe { s with control := control } := by
  apply hsafe.control
  intro ref href
  rw [hnone] at href
  cases href

theorem Safe.mTimer {s : TimerState} (hsafe : Safe s) {timer : ActorTimer}
    (hset : timer.m_setSubTimer = s.timer.m_setSubTimer) :
    Safe { s with timer := timer } :=
  { clean := hsafe.clean
    known := fun it => by rw [← hsafe.known it, ← hset]
    current := hsafe.current
    owned := hsafe.owned
    exclusive := hsafe.exclusive }

theorem Safe.store {s : TimerState} (hsafe : Safe s) {ref : EntityRef}
    {old entity : SubTimerEntity} (hold : s.entityAt ref = some old)
    (hserial : entity.serial = old.serial)
    (hcurrent : s.control.current = some ref -> entity.m_bHandleing = true)
    (howned : forall id, s.subTimers id = some (some ref) -> entity.m_bDelete = false) :
    Safe (s.store ref.pointer entity) := by
  have hmine := entityAt_store hold hserial
  exact
    { clean := hsafe.clean
      known := by
        intro it
        rw [show (s.store ref.pointer entity).timer = s.timer from rfl, hsafe.known it]
        by_cases hit : it = ref.pointer
        · rw [hit, (entityAt_eq_some.mp hold).left]
          simp [TimerState.store]
        · simp [TimerState.store, Function.update_of_ne hit]
      current := by
        intro other h
        rcases hsafe.current other h with ⟨found, hfound, hhandling⟩
        by_cases hpointer : other.pointer = ref.pointer
        · rw [ref_eq hfound hold hpointer] at h ⊢
          exact ⟨entity, hmine, hcurrent h⟩
        · exact ⟨found, (entityAt_store_ne hpointer).trans hfound, hhandling⟩
      owned := by
        intro id other h
        rcases hsafe.owned id other h with ⟨found, hfound, hlive⟩
        by_cases hpointer : other.pointer = ref.pointer
        · rw [ref_eq hfound hold hpointer] at h ⊢
          exact ⟨entity, hmine, howned id h⟩
        · exact ⟨found, (entityAt_store_ne hpointer).trans hfound, hlive⟩
      exclusive := hsafe.exclusive }

theorem Safe.delete {s : TimerState} (hsafe : Safe s) {ref : EntityRef}
    {entity : SubTimerEntity} (hentity : s.entityAt ref = some entity)
    (hcurrent : s.control.current ≠ some ref)
    (howned : forall id, s.subTimers id ≠ some (some ref)) :
    Safe (s.deleteEntity ref) := by
  rw [deleteEntity_eq hentity]
  have hkeep : forall other found, s.entityAt other = some found -> other ≠ ref ->
      entityAt { s with
        timer := s.timer.UnRegistSubTimer ref.pointer,
        heap := Function.update s.heap ref.pointer none } other = some found := by
    intro other found hfound hother
    have hpointer : other.pointer ≠ ref.pointer :=
      fun h => hother (ref_eq hfound hentity h)
    have hold := entityAt_eq_some.mp hfound
    apply entityAt_eq_some.mpr
    constructor
    · exact (Function.update_of_ne hpointer none s.heap).trans hold.left
    · exact hold.right
  exact
    { clean := hsafe.clean
      known := by
        intro it
        show it ∈ s.timer.m_setSubTimer.erase ref.pointer <-> _
        rw [ExtTreeSet.mem_erase, hsafe.known it, ne_eq, Std.compare_eq_iff_eq]
        by_cases hit : it = ref.pointer
        · simp [hit]
        · simp [Function.update_of_ne hit, Ne.symm hit]
      current := by
        intro other h
        rcases hsafe.current other h with ⟨found, hfound, hhandling⟩
        exact ⟨found, hkeep other found hfound (fun hEq => hcurrent (hEq ▸ h)), hhandling⟩
      owned := by
        intro id other h
        rcases hsafe.owned id other h with ⟨found, hfound, hlive⟩
        exact ⟨found, hkeep other found hfound (fun hEq => howned id (hEq ▸ h)), hlive⟩
      exclusive := hsafe.exclusive }

/-- A `SubTimer` ends or gives its entity away. -/
theorem Safe.release {s : TimerState} (hsafe : Safe s) {id : SubTimerId}
    {left : Option (Option EntityRef)} (hleft : forall ref, left ≠ some (some ref)) :
    Safe (s.assign id left) := by
  have hold : forall other ref, (s.assign id left).subTimers other = some (some ref) ->
      s.subTimers other = some (some ref) := by
    intro other ref h
    by_cases hother : other = id
    · simp only [assign, hother, Function.update_self] at h
      exact absurd h (hleft ref)
    · simpa only [assign, Function.update_of_ne hother] using h
  exact
    { clean := hsafe.clean
      known := hsafe.known
      current := hsafe.current
      owned := fun other ref h => hsafe.owned other ref (hold other ref h)
      exclusive := fun one two ref hone htwo =>
        hsafe.exclusive one two ref (hold one ref hone) (hold two ref htwo) }

/-!
# The invariant is kept
-/

theorem safe_newEntity {s : TimerState} (hsafe : Safe s) {id : SubTimerId}
    {address : Pointer} (hfree : s.heap address = none) :
    Safe (s.newEntity id address) := by
  have hheap : forall it, it ≠ address ->
      (s.newEntity id address).heap it = s.heap it :=
    fun it hit => Function.update_of_ne hit _ s.heap
  have hkeep : forall other found, s.entityAt other = some found ->
      (s.newEntity id address).entityAt other = some found := by
    intro other found hfound
    have hold := entityAt_eq_some.mp hfound
    have hother : other.pointer ≠ address := by
      intro hEq
      rw [hEq, hfree] at hold
      cases hold.left
    exact entityAt_eq_some.mpr ⟨(hheap _ hother).trans hold.left, hold.right⟩
  have hnone : forall one, s.subTimers one ≠
      some (some { pointer := address, serial := s.constructed }) := by
    intro one hone
    rcases hsafe.owned one _ hone with ⟨found, hfound, _⟩
    rw [(entityAt_eq_some.mp hfound).left] at hfree
    cases hfree
  have hcases : forall one ref, (s.newEntity id address).subTimers one = some (some ref) ->
      (one = id ∧ ref = { pointer := address, serial := s.constructed }) ∨
        (one ≠ id ∧ s.subTimers one = some (some ref)) := by
    intro one ref hone
    by_cases hEq : one = id
    · left
      simp only [newEntity, assign, hEq, Function.update_self] at hone
      cases hone
      exact ⟨hEq, rfl⟩
    · right
      simp only [newEntity, assign, Function.update_of_ne hEq] at hone
      exact ⟨hEq, hone⟩
  exact
    { clean := hsafe.clean
      known := by
        intro it
        show it ∈ s.timer.m_setSubTimer.insert address <-> _
        rw [ExtTreeSet.mem_insert, hsafe.known it, Std.compare_eq_iff_eq]
        by_cases hit : it = address
        · simp [hit, newEntity, assign, TimerState.store]
        · rw [hheap it hit]
          simp [Ne.symm hit]
      current := by
        intro ref h
        rcases hsafe.current ref h with ⟨found, hfound, hhandling⟩
        exact ⟨found, hkeep ref found hfound, hhandling⟩
      owned := by
        intro one ref hone
        rcases hcases one ref hone with ⟨_, hnew⟩ | ⟨_, hold⟩
        · rw [hnew]
          have hmade : (s.newEntity id address).heap address =
              some (SubTimerEntity.make s.constructed) :=
            Function.update_self address _ s.heap
          exact ⟨_, entityAt_eq_some.mpr ⟨hmade, rfl⟩, rfl⟩
        · rcases hsafe.owned one ref hold with ⟨found, hfound, hlive⟩
          exact ⟨found, hkeep ref found hfound, hlive⟩
      exclusive := by
        intro one two ref hone htwo
        rcases hcases one ref hone with ⟨hfirst, hnew⟩ | ⟨_, hfirst⟩
        · rcases hcases two ref htwo with ⟨hsecond, _⟩ | ⟨_, hsecond⟩
          · exact hfirst.trans hsecond.symm
          · rw [hnew] at hsecond
            exact absurd hsecond (hnone two)
        · rcases hcases two ref htwo with ⟨_, hnew⟩ | ⟨_, hsecond⟩
          · rw [hnew] at hfirst
            exact absurd hfirst (hnone one)
          · exact hsafe.exclusive one two ref hfirst hsecond }

theorem safe_move {s : TimerState} (hsafe : Safe s) {id other : SubTimerId}
    {pSubEntity : Option EntityRef} (hother : s.subTimers other = some pSubEntity) :
    Safe ((s.assign id (some pSubEntity)).assign other (some none)) := by
  -- every owner afterwards is an old one, except that `id` stands for `other`
  have hcases : forall one ref,
      ((s.assign id (some pSubEntity)).assign other (some none)).subTimers one =
        some (some ref) ->
      exists before, s.subTimers before = some (some ref) ∧
        ((one = id ∧ before = other) ∨ (one ≠ id ∧ before ≠ other ∧ before = one)) := by
    intro one ref hone
    by_cases hsource : one = other
    · simp only [assign, hsource, Function.update_self] at hone
      cases hone
    · simp only [assign, Function.update_of_ne hsource] at hone
      by_cases htarget : one = id
      · rw [htarget, Function.update_self] at hone
        exact ⟨other, hother.trans hone, Or.inl ⟨htarget, rfl⟩⟩
      · rw [Function.update_of_ne htarget] at hone
        exact ⟨one, hone, Or.inr ⟨htarget, hsource, rfl⟩⟩
  exact
    { clean := hsafe.clean
      known := hsafe.known
      current := hsafe.current
      owned := by
        intro one ref hone
        rcases hcases one ref hone with ⟨before, hbefore, _⟩
        exact hsafe.owned before ref hbefore
      exclusive := by
        intro one two ref hone htwo
        rcases hcases one ref hone with ⟨first, hfirst, honeCase⟩
        rcases hcases two ref htwo with ⟨second, hsecond, htwoCase⟩
        have hsame := hsafe.exclusive first second ref hfirst hsecond
        rcases honeCase with ⟨hone, hmoved⟩ | ⟨hone, hkept, hEq⟩
        · rcases htwoCase with ⟨htwo, _⟩ | ⟨_, hkept, _⟩
          · exact hone.trans htwo.symm
          · exact absurd (hsame.symm.trans hmoved) hkept
        · rcases htwoCase with ⟨_, hmoved⟩ | ⟨_, _, htwo⟩
          · exact absurd (hsame.trans hmoved) hkept
          · rw [← hEq, ← htwo]
            exact hsame }

theorem safe_addTimer {s : TimerState} (hsafe : Safe s) {id : SubTimerId} {ref : EntityRef}
    (hid : s.subTimers id = some (some ref)) (iTimeMS clock : uint64_t)
    (handel : TimerHandle) : Safe (s.addTimer ref iTimeMS clock handel) := by
  rcases hsafe.owned id ref hid with ⟨entity, hentity, hlive⟩
  have hhandling := hsafe.handling hentity
  rw [addTimer_eq hentity]
  have hset : (entity.register s.timer ref.pointer (iTimeMS + clock)).m_setSubTimer =
      s.timer.m_setSubTimer := by
    unfold SubTimerEntity.register
    split <;> rfl
  exact Safe.store (hsafe.mTimer hset) hentity rfl hhandling (fun _ _ => hlive)

theorem safe_clear {s : TimerState} (hsafe : Safe s) {id : SubTimerId} {ref : EntityRef}
    (hid : s.subTimers id = some (some ref)) : Safe (s.clear ref) := by
  rcases hsafe.owned id ref hid with ⟨entity, hentity, hlive⟩
  have hhandling := hsafe.handling hentity
  rw [clear_eq hentity]
  have hset : ((s.timer.UnRegistSubTimer ref.pointer).RegistSubTimer ref.pointer).m_setSubTimer =
      s.timer.m_setSubTimer := by
    apply ExtTreeSet.ext_mem
    intro it
    show it ∈ (s.timer.m_setSubTimer.erase ref.pointer).insert ref.pointer <-> _
    rw [ExtTreeSet.mem_insert, ExtTreeSet.mem_erase, ne_eq, Std.compare_eq_iff_eq]
    by_cases hit : ref.pointer = it
    · have hthere : it ∈ s.timer.m_setSubTimer := by
        rw [hsafe.known, ← hit, (entityAt_eq_some.mp hentity).left]
        exact Option.some_ne_none entity
      simp [hit, hthere]
    · simp [hit]
  exact Safe.store (hsafe.mTimer hset) hentity rfl hhandling (fun _ _ => hlive)

theorem safe_destroy {s : TimerState} (hsafe : Safe s) {id : SubTimerId} {ref : EntityRef}
    (hid : s.subTimers id = some (some ref)) :
    Safe ((s.assign id none).markDeleted ref) := by
  rcases hsafe.owned id ref hid with ⟨entity, hentity, _⟩
  have hreleased : Safe (s.assign id none) :=
    hsafe.release (fun ref h => by cases h)
  have hownerless : forall one, (s.assign id none).subTimers one ≠ some (some ref) := by
    intro one hone
    by_cases hEq : one = id
    · simp only [assign, hEq, Function.update_self] at hone
      cases hone
    · simp only [assign, Function.update_of_ne hEq] at hone
      exact hEq (hsafe.exclusive one id ref hone hid)
  have hthere : (s.assign id none).entityAt ref = some entity := hentity
  have hhandling := hsafe.handling hentity
  rw [markDeleted_eq hthere]
  have hmarked : Safe ((s.assign id none).store ref.pointer { entity with m_bDelete := true }) :=
    Safe.store hreleased hthere rfl hhandling
      (fun one hone => absurd hone (hownerless one))
  by_cases hbusy : entity.m_bHandleing = true
  · rw [if_pos hbusy]
    exact hmarked
  · rw [if_neg hbusy]
    exact Safe.delete hmarked (entityAt_store hthere rfl)
      (fun hcurrent => hbusy (hhandling hcurrent)) hownerless

theorem Safe.live {s : TimerState} (hsafe : Safe s) {ref : EntityRef}
    {entity : SubTimerEntity} (hentity : s.entityAt ref = some entity) :
    forall id, s.subTimers id = some (some ref) -> entity.m_bDelete = false := by
  intro id hid
  rcases hsafe.owned id ref hid with ⟨found, hfound, hlive⟩
  rw [hentity] at hfound
  cases hfound
  exact hlive

theorem safe_leaveEntity {s : TimerState} (hsafe : Safe s)
    (hcurrent : s.control.current = none) {ref : EntityRef} {entity : SubTimerEntity}
    (hentity : s.entityAt ref = some entity) : Safe (s.leaveEntity ref entity) := by
  have hidle : s.control.current ≠ some ref := by
    rw [hcurrent]
    exact (Option.some_ne_none ref).symm
  have howned := hsafe.live hentity
  have hleft : Safe (s.store ref.pointer { entity with m_bHandleing := false }) :=
    hsafe.store hentity rfl (fun h => absurd h hidle) howned
  unfold leaveEntity
  by_cases hdelete : entity.m_bDelete = true
  · simp only [if_pos hdelete]
    apply hleft.delete (entityAt_store hentity rfl) hidle
    intro id hid
    have hlive := howned id hid
    rw [hdelete] at hlive
    cases hlive
  · simp only [if_neg hdelete]
    exact hleft

theorem safe_invoke {s : TimerState} (hsafe : Safe s) {it : Pointer}
    {entity : SubTimerEntity} (hentity : s.heap it = some entity) (iNowMS : uint64_t)
    (setTimer : List Pointer) :
    Safe { s.store it { entity with m_bHandleing := true } with
      control := .entityLoop iNowMS setTimer { pointer := it, serial := entity.serial } } := by
  have hthere : s.entityAt { pointer := it, serial := entity.serial } = some entity :=
    entityAt_eq_some.mpr ⟨hentity, rfl⟩
  have howned := hsafe.live hthere
  have hstored : Safe (s.store it { entity with m_bHandleing := true }) :=
    hsafe.store hthere rfl (fun _ => rfl) howned
  apply hstored.control
  intro ref href
  cases href
  exact ⟨_, entityAt_store hthere rfl, rfl⟩

theorem safe_step {s t : TimerState} {a : TimerAction} (hsafe : Safe s)
    (hstep : step s a = some t) : Safe t := by
  cases step_sound hstep with
  | start iNowMS hidle => exact hsafe.quiet rfl
  | resume hpc => exact hsafe.quiet rfl
  | finished hpc hlater => exact hsafe.quiet rfl
  | @popSet iNowMS itBegin setTimer hpc hbegin hpopped =>
      have hquiet : Safe { s with control := .setLoop iNowMS setTimer.toList } :=
        hsafe.quiet rfl
      exact hquiet.mTimer rfl
  | setDone hpc => exact hsafe.quiet rfl
  | skip hpc hgone => exact hsafe.quiet rfl
  | invokeDeleted hpc hthere hfreed => exact absurd hfreed ((hsafe.known _).mp hthere)
  | invoke hpc hentity => exact safe_invoke hsafe hentity _ _
  | fieldAfterDelete hcurrent hdeleted =>
      rcases hsafe.current _ hcurrent with ⟨entity, hentity, _⟩
      rw [hdeleted] at hentity
      cases hentity
  | @leave iNowMS setTimer ref entity hpc hentity hdone =>
      have hquiet : Safe { s with control := .setLoop iNowMS setTimer } := hsafe.quiet rfl
      exact safe_leaveEntity hquiet rfl hentity
  | early hpc hentity hlive hbegin hlater => exact hsafe.quiet rfl
  | @popHandles iNowMS itBegin setTimer ref entity listHandle hpc hentity hbegin =>
      have hhandling := hsafe.handling hentity
      have howned := hsafe.live hentity
      have hstored : Safe (s.store ref.pointer
          { entity with m_mTimer := entity.m_mTimer.erase itBegin }) :=
        hsafe.store hentity rfl hhandling howned
      exact hstored.keepControl hpc rfl
  | handlesDone hpc => exact hsafe.keepControl hpc rfl
  | callHandler hpc => exact hsafe.keepControl hpc rfl
  | handlerReturns hpc => exact hsafe.keepControl hpc rfl
  | create hadvance hcall hid hfree => exact safe_newEntity hsafe hfree
  | move hcall hid hother => exact safe_move hsafe hother
  | destroyMoved hcall hid => exact hsafe.release (fun ref h => by cases h)
  | destroy hcall hid => exact safe_destroy hsafe hid
  | addTimer iTimeMS clock handel hcall hid => exact safe_addTimer hsafe hid iTimeMS clock handel
  | clear hcall hid => exact safe_clear hsafe hid
  | copyDeleted hother hdeleted =>
      rcases hsafe.owned _ _ hother with ⟨entity, hentity, _⟩
      rw [hdeleted] at hentity
      cases hentity

/-- No step of any run invokes a deleted entity, lets an entity use its fields after
its deletion, or deletes an entity twice. -/
theorem timers_never_misused (actions : List TimerAction) :
    AllStates step (fun s => s.misuse = none) init actions :=
  allStates_of_invariant (fun _ _ _ hsafe _ hstep => safe_step hsafe hstep)
    (fun _ hsafe => hsafe.clean) safe_init (allSteps_of_labels (fun _ _ _ => trivial) init)

/-- The handler of 0 destroys its own timer and timer 1, whose address is still
waiting in the set, and a new timer takes that address. -/
def reuseAddress : List TimerAction :=
  [.construct 0 100, .construct 1 200, .AddTimer 0 5 0 7, .AddTimer 1 5 0 8, .OnTimer 5,
    .advance, .advance, .advance, .advance, .destroy 0, .destroy 1, .construct 2 200,
    .advance, .advance, .advance, .advance, .advance, .advance, .advance]

example : (Run step init reuseAddress).map (fun s => (s.control, s.misuse)) =
    some (.returned 5, none) := by
  decide

end TimerState
end Utils
end GMServer
