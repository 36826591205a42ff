import GMServer.Utils.TimerOrder
import GMServer.Utils.TimerMissed

/-!
# Clear

`Clear` empties the map of an entity, but not the list that the `OnTimer` of the entity
has taken out of the map.  A handler that clears its own timer is followed by the other
handlers of its time.
-/

namespace GMServer
namespace Utils
namespace TimerTrace

open Std Transition

/-- No handler was invoked that a `Clear` before it had cancelled. -/
def NoneCancelled (s : TimerTrace) : Prop :=
  forall call, call ∈ s.invoked -> call.number ∉ s.cancelled

/-- If `OnTimer` goes on and its handlers make no further calls, it invokes no handler that
was cancelled. -/
def GoesOn (s : TimerTrace) : Prop :=
  forall n, AllStates step NoneCancelled s (List.replicate n (.of .advance))

/-- A `Clear` does not come while `OnTimer` of its entity has handlers taken. -/
def ClearsUntaken (s : TimerTrace) : TraceAction -> Prop
  | .of (.Clear id) =>
      match taken s.timers.control with
      | some (_, ref, _ :: _) => s.timers.subTimers id ≠ some (some ref)
      | _ => True
  | _ => True

instance (s : TimerTrace) : Decidable (NoneCancelled s) :=
  inferInstanceAs (Decidable (forall call, call ∈ s.invoked -> _))

instance (s : TimerTrace) (a : TraceAction) : Decidable (ClearsUntaken s a) := by
  unfold ClearsUntaken
  split
  · split <;> infer_instance
  · infer_instance

/-!
# The invariant

What an entity keeps, and what its `OnTimer` has taken, is not cancelled.
-/

structure CancelInv (s : TimerTrace) : Prop where
  trace : TraceInv s
  kept : forall ref due stHanle, s.timers.Keeps ref due stHanle -> stHanle ∉ s.cancelled
  taken : forall iNowMS ref listHandle,
    taken s.timers.control = some (iNowMS, ref, listHandle) ->
      forall stHanle, stHanle ∈ listHandle -> stHanle ∉ s.cancelled
  old : forall number, number ∈ s.cancelled -> number < s.added.length
  law : NoneCancelled s

theorem cancelInv_init : CancelInv init where
  trace := traceInv_init
  kept := fun ref due stHanle _ h => by cases h
  taken := fun iNowMS ref listHandle h => by cases h
  old := fun number h => by cases h
  law := fun call h => by cases h

theorem mem_notStarted {s : TimerTrace} {ref : EntityRef} {n : Nat} :
    n ∈ s.notStarted ref <-> n < s.added.length ∧
      s.added[n]?.map (·.entity) = some ref ∧ n ∉ s.numbers := by
  unfold notStarted
  rw [List.mem_filter, List.mem_range, decide_eq_true_eq]

/-- What belongs to another entity is not cancelled by a `Clear`. -/
theorem Kept.not_cancelled {s : TimerTrace} {other ref : EntityRef} {due : uint64_t}
    {listHandle : List TimerHandle} (hkept : Kept s.added s.invoked other due listHandle)
    (hne : other ≠ ref) {stHanle : TimerHandle} (hmem : stHanle ∈ listHandle) :
    stHanle ∉ s.notStarted ref := by
  intro hcancelled
  rcases hkept.named stHanle hmem with ⟨handel, hnamed⟩
  have hentity := (mem_notStarted.mp hcancelled).right.left
  rw [hnamed] at hentity
  exact hne (Option.some.inj hentity)

/-!
# The invariant is kept
-/

theorem CancelInv.next {s t : TimerTrace} (hinv : CancelInv s) (htrace : TraceInv t)
    (hadded : s.added.length ≤ t.added.length) (hinvoked : t.invoked = s.invoked)
    (hcancelled : t.cancelled = s.cancelled) (hinherits : s.timers.Inherits t.timers)
    (htaken : forall loop, TimerTrace.taken t.timers.control = some loop ->
      TimerTrace.taken s.timers.control = some loop) : CancelInv t where
  trace := htrace
  kept := by
    rw [hcancelled]
    exact fun ref due stHanle hkeeps =>
      hinv.kept ref due stHanle (TimerState.keeps_of_inherits hinherits hkeeps)
  taken := by
    rw [hcancelled]
    exact fun iNowMS ref listHandle hloop => hinv.taken iNowMS ref listHandle (htaken _ hloop)
  old := by
    rw [hcancelled]
    exact fun number hmem => Nat.lt_of_lt_of_le (hinv.old number hmem) hadded
  law := by
    unfold NoneCancelled
    rw [hinvoked, hcancelled]
    exact hinv.law

theorem cancelInv_popHandles {s : TimerTrace} (hinv : CancelInv s) {iNowMS itBegin : uint64_t}
    {setTimer : List Pointer} {ref : EntityRef} {entity : SubTimerEntity}
    {listHandle : List TimerHandle} {next : TimerState}
    (hentity : s.timers.entityAt ref = some entity)
    (hbegin : SortedMap.first entity.m_mTimer = some (itBegin, listHandle))
    (hinherits : s.timers.Inherits next) (htrace : TraceInv { s with timers := next })
    (hcontrol : next.control = .handleLoop iNowMS setTimer ref listHandle) :
    CancelInv { s with timers := next } where
  trace := htrace
  kept := fun other due stHanle hkeeps =>
    hinv.kept other due stHanle (TimerState.keeps_of_inherits hinherits hkeeps)
  taken := by
    intro now other others hloop stHanle hmem
    cases (congrArg TimerTrace.taken hcontrol).symm.trans hloop
    exact hinv.kept ref itBegin stHanle
      ⟨entity, listHandle, hentity, SortedMap.first_getElem? hbegin, hmem⟩
  old := hinv.old
  law := hinv.law

theorem cancelInv_callHandler {s t : TimerTrace} (hinv : CancelInv s) (htrace : TraceInv t)
    {iNowMS : uint64_t} {setTimer : List Pointer} {ref : EntityRef} {stHanle : TimerHandle}
    {listHandle : List TimerHandle} {call : Invocation}
    (hpc : s.timers.control = .handleLoop iNowMS setTimer ref (stHanle :: listHandle))
    (htimers : t.timers = { s.timers with
      control := .handler iNowMS setTimer ref stHanle listHandle })
    (hadded : t.added = s.added) (hcancelled : t.cancelled = s.cancelled)
    (hinvoked : t.invoked = s.invoked ++ [call]) (hcall : call.number = stHanle) :
    CancelInv t := by
  have htaken := hinv.taken iNowMS ref (stHanle :: listHandle) (by rw [hpc]; rfl)
  constructor
  case trace => exact htrace
  case kept =>
    rw [htimers, hcancelled]
    exact hinv.kept
  case taken =>
    rw [htimers, hcancelled]
    intro now other others hloop later hmem
    cases hloop
    exact htaken later (List.mem_cons_of_mem _ hmem)
  case old =>
    rw [hadded, hcancelled]
    exact hinv.old
  case law =>
    unfold NoneCancelled
    rw [hinvoked, hcancelled]
    intro other hother
    rcases List.mem_append.mp hother with hold | hlast
    · exact hinv.law other hold
    · rw [List.mem_singleton.mp hlast, hcall]
      exact htaken stHanle List.mem_cons_self

theorem cancelInv_addTimer {s t : TimerTrace} (hinv : CancelInv s) (htrace : TraceInv t)
    {ref : EntityRef} {entity : SubTimerEntity} {iTimeMS clock : uint64_t} {timer : AddedTimer}
    (hentity : s.timers.entityAt ref = some entity)
    (htimers : t.timers = s.timers.addTimer ref iTimeMS clock s.added.length)
    (hadded : t.added = s.added ++ [timer]) (hcancelled : t.cancelled = s.cancelled)
    (hinvoked : t.invoked = s.invoked) : CancelInv t where
  trace := htrace
  kept := by
    rw [htimers, hcancelled]
    intro other due stHanle hkeeps
    rcases keeps_addTimer hentity hkeeps with hold | hnew
    · exact hinv.kept other due stHanle hold
    · intro hmem
      exact Nat.ne_of_lt (hinv.old stHanle hmem) hnew
  taken := by
    rw [htimers, hcancelled, TimerState.control_addTimer]
    exact hinv.taken
  old := by
    rw [hadded, hcancelled, List.length_append]
    exact fun number hmem => Nat.lt_add_right _ (hinv.old number hmem)
  law := by
    unfold NoneCancelled
    rw [hinvoked, hcancelled]
    exact hinv.law

theorem cancelInv_clear {s t : TimerTrace} (hinv : CancelInv s) (htrace : TraceInv t)
    {id : SubTimerId} {ref : EntityRef} {entity : SubTimerEntity}
    (hid : s.timers.subTimers id = some (some ref))
    (hentity : s.timers.entityAt ref = some entity)
    (huntaken : ClearsUntaken s (.of (.Clear id))) (htimers : t.timers = s.timers.clear ref)
    (hadded : t.added = s.added) (hinvoked : t.invoked = s.invoked)
    (hcancelled : t.cancelled = s.cancelled ++ s.notStarted ref) : CancelInv t where
  trace := htrace
  kept := by
    rw [htimers, hcancelled]
    intro other due stHanle hkeeps hmem
    have hne := TimerState.keeps_clear_ne hentity hkeeps
    have hbefore : s.timers.Keeps other due stHanle :=
      TimerState.keeps_of_inherits (TimerState.inherits_clear hentity) hkeeps
    rcases List.mem_append.mp hmem with hold | hnew
    · exact hinv.kept other due stHanle hbefore hold
    · rcases hbefore with ⟨found, listHandle, hfound, hget, hin⟩
      exact (hinv.trace.kept other found due listHandle hfound hget).not_cancelled hne hin hnew
  taken := by
    rw [htimers, hcancelled, TimerState.control_clear]
    intro iNowMS other listHandle hloop stHanle hin hmem
    rcases List.mem_append.mp hmem with hold | hnew
    · exact hinv.taken iNowMS other listHandle hloop stHanle hin hold
    · -- what is taken belongs to another entity
      have hne : other ≠ ref := by
        intro hsame
        cases listHandle with
        | nil => cases hin
        | cons first rest =>
            unfold ClearsUntaken at huntaken
            rw [hloop, hsame] at huntaken
            exact huntaken hid
      rcases hinv.trace.taken iNowMS other listHandle hloop with ⟨due, htaken⟩
      exact htaken.kept.not_cancelled hne hin hnew
  old := by
    rw [hadded, hcancelled]
    intro number hmem
    rcases List.mem_append.mp hmem with hold | hnew
    · exact hinv.old number hold
    · exact (mem_notStarted.mp hnew).left
  law := by
    unfold NoneCancelled
    rw [hinvoked, hcancelled]
    intro call hcall hmem
    rcases List.mem_append.mp hmem with hold | hnew
    · exact hinv.law call hcall hold
    · exact (mem_notStarted.mp hnew).right.right (List.mem_map.mpr ⟨call, hcall, rfl⟩)

theorem cancelInv_step {s t : TimerTrace} {a : TraceAction} (hinv : CancelInv s)
    (huntaken : ClearsUntaken s a) (hstep : step s a = some t) : CancelInv t := by
  have htrace := traceInv_step hinv.trace hstep
  have hsafe := hinv.trace.safe
  cases step_sound hstep with
  | directDone hnone =>
      exact hinv.next htrace (Nat.le_refl _) rfl rfl (TimerState.inherits_of_heap rfl)
        (fun loop h => by cases h)
  | quiet hadd hclear hnext htaken =>
      exact hinv.next htrace (Nat.le_refl _) rfl rfl
        (TimerState.inherits_step hsafe hadd hnext) htaken
  | invoke hnext hnone =>
      exact hinv.next htrace (Nat.le_refl _) rfl rfl
        (TimerState.inherits_step hsafe (fun _ _ _ _ h => by cases h) hnext)
        (fun loop h => by cases hnone.symm.trans h)
  | popHandles hpc hentity hbegin hnext hEq =>
      exact cancelInv_popHandles hinv hentity hbegin
        (TimerState.inherits_step hsafe (fun _ _ _ _ h => by cases h) hnext) htrace
        (by rw [hEq])
  | callHandler hpc hnext => exact cancelInv_callHandler hinv htrace hpc rfl rfl rfl rfl rfl
  | addTimer iTimeMS clock handel hid =>
      rcases hsafe.owned _ _ hid with ⟨entity, hentity, _⟩
      exact cancelInv_addTimer hinv htrace hentity rfl rfl rfl rfl
  | clear hid hnext =>
      rcases hsafe.owned _ _ hid with ⟨entity, hentity, _⟩
      exact cancelInv_clear hinv htrace hid hentity huntaken rfl rfl rfl rfl
  | @enter id ref iNowMS hid =>
      rcases hsafe.owned id ref hid with ⟨entity, hentity, _⟩
      unfold enter at htrace ⊢
      rw [hentity] at htrace ⊢
      have hstored : s.timers.Inherits
          (s.timers.store ref.pointer { entity with m_bHandleing := true }) :=
        TimerState.inherits_store hentity (by rfl) (fun _ _ h => h)
      exact hinv.next htrace (Nat.le_refl _) rfl rfl
        (TimerState.inherits_trans hstored (TimerState.inherits_of_heap rfl))
        (fun loop h => by cases h)

/-!
# A Clear that comes too late

The handlers that were taken are cancelled, and the next one is called all the same.
-/

theorem goesOn_of_inv {s : TimerTrace} (hinv : CancelInv s) : GoesOn s := by
  intro n
  apply allStates_of_invariant (fun _ _ _ h hok hstep => cancelInv_step h hok hstep)
    (fun _ h => h.law) hinv
  apply allSteps_of_labels
  intro a ha s
  rw [List.eq_of_mem_replicate ha]
  trivial

theorem step_advance_eq {s : TimerTrace} {next : TimerState} (hsafe : s.timers.Safe)
    (hloop : forall iNowMS, s.timers.control ≠ .setLoop iNowMS [])
    (hnext : s.timers.advance = some next) :
    step s (.of .advance) = some (s.observe next) := by
  simp only [step]
  split
  · rename_i iNowMS _ hpc
    exact absurd hpc (hloop iNowMS)
  · rw [show s.numbered .advance = .advance from rfl, TimerState.step_advance hsafe, hnext]
    rfl

/-- The handler returns, and the next one that was taken is called. -/
theorem calls_next {s : TimerTrace} {iNowMS : uint64_t} {setTimer : List Pointer}
    {ref : EntityRef} {stHanle first : TimerHandle} {rest : List TimerHandle}
    {entity : SubTimerEntity} (hsafe : s.timers.Safe)
    (hpc : s.timers.control = .handler iNowMS setTimer ref stHanle (first :: rest))
    (hentity : s.timers.entityAt ref = some entity) (hlive : entity.m_bDelete = false) :
    exists t, Run step s [.of .advance, .of .advance] = some t ∧ t.cancelled = s.cancelled ∧
      exists call, call ∈ t.invoked ∧ call.number = first := by
  have hreturns : s.timers.advance = some { s.timers with
      control := .handleLoop iNowMS setTimer ref (first :: rest) } := by
    unfold TimerState.advance
    rw [hpc]
  have hback : step s (.of .advance) = some { s with
      timers := { s.timers with
        control := .handleLoop iNowMS setTimer ref (first :: rest) } } := by
    rw [step_advance_eq hsafe (fun now h => by cases hpc.symm.trans h) hreturns]
    simp only [observe, hpc]
  have hsafeBack : TimerState.Safe { s.timers with
      control := .handleLoop iNowMS setTimer ref (first :: rest) } :=
    hsafe.keepControl hpc rfl
  have hcalls : TimerState.advance { s.timers with
      control := .handleLoop iNowMS setTimer ref (first :: rest) } =
      some { s.timers with control := .handler iNowMS setTimer ref first rest } := by
    have hthere : TimerState.entityAt { s.timers with
      control := .handleLoop iNowMS setTimer ref (first :: rest) } ref = some entity := hentity
    simp only [TimerState.advance, TimerState.runHandleLoop, hthere, hlive]
    rfl
  have hcalled := step_advance_eq
    (s := { s with timers := { s.timers with
      control := .handleLoop iNowMS setTimer ref (first :: rest) } })
    hsafeBack (fun now h => by cases h) hcalls
  refine ⟨_, (run_cons_of_step _ hback).trans (run_cons_of_step [] hcalled), rfl,
    { entity := ref, number := first, iNowMS := iNowMS, entered := s.entered }, ?_, rfl⟩
  exact List.mem_append_right _ (List.mem_singleton.mpr rfl)

/-- A call that finds handlers taken comes from a handler. -/
theorem running_of_taken {control : TimerControl} {iNowMS : uint64_t} {ref : EntityRef}
    {listHandle : List TimerHandle} (hcall : TimerState.callable control = true)
    (htaken : taken control = some (iNowMS, ref, listHandle)) :
    exists setTimer stHanle, control = .handler iNowMS setTimer ref stHanle listHandle := by
  cases control with
  | handler now setTimer other stHanle others =>
      cases htaken
      exact ⟨setTimer, stHanle, rfl⟩
  | handleLoop now setTimer other others => cases hcall
  | idle => cases htaken
  | returned now => cases htaken
  | timerLoop now => cases htaken
  | setLoop now setTimer => cases htaken
  | entityLoop now setTimer other => cases htaken

/-- The next handler that is taken has not started. -/
theorem Taken.notStarted {s : TimerTrace} {iNowMS due : uint64_t} {ref : EntityRef}
    {first : TimerHandle} {rest : List TimerHandle}
    (htaken : Taken s iNowMS ref due (first :: rest)) : first ∈ s.notStarted ref := by
  rcases htaken.kept.named first List.mem_cons_self with ⟨handel, hnamed⟩
  apply mem_notStarted.mpr
  refine ⟨htaken.kept.lt List.mem_cons_self, ?_, htaken.kept.fresh first List.mem_cons_self⟩
  rw [hnamed]
  rfl

theorem noneCancelled_of_goesOn {s t : TimerTrace} (hgoes : GoesOn s)
    (hrun : Run step s [.of .advance, .of .advance] = some t) : NoneCancelled t := by
  rcases run_cons_eq_some hrun with ⟨middle, hone, hrest⟩
  rcases run_cons_eq_some hrest with ⟨last, htwo, hdone⟩
  cases hdone
  exact ((hgoes 2).right middle hone).right t htwo

theorem late_clear_breaks {s t : TimerTrace} {a : TraceAction} (hinv : CancelInv s)
    (hlate : ¬ ClearsUntaken s a) (hstep : step s a = some t) : ¬ GoesOn t := by
  unfold ClearsUntaken at hlate
  split at hlate
  · rename_i id
    split at hlate
    · rename_i iNowMS ref first rest htaken
      have hid : s.timers.subTimers id = some (some ref) := not_not.mp hlate
      rcases hinv.trace.safe.owned id ref hid with ⟨entity, hentity, hlive⟩
      have hsafe := (traceInv_step hinv.trace hstep).safe
      cases step_sound hstep with
      | quiet hadd hclear hnext _ => exact absurd rfl (hclear id)
      | clear hother hnext =>
          cases hid.symm.trans hother
          rcases running_of_taken (TimerState.step_clear hnext).left htaken with
            ⟨setTimer, stHanle, hpc⟩
          have hcleared : (s.timers.clear ref).entityAt ref =
              some { entity with m_mTimer := ∅ } := by
            rw [TimerState.clear_eq hentity]
            exact TimerState.entityAt_store hentity rfl
          rcases calls_next hsafe ((TimerState.control_clear _ ref).trans hpc) hcleared hlive with
            ⟨u, hrun, hcancelled, call, hinvoked, hnumber⟩
          rcases hinv.trace.taken iNowMS ref (first :: rest) htaken with ⟨due, htook⟩
          intro hgoes
          apply noneCancelled_of_goesOn hgoes hrun call hinvoked
          rw [hcancelled, hnumber]
          exact List.mem_append_right _ htook.notStarted
    · exact absurd trivial hlate
  · exact absurd trivial hlate

/-!
# Whole runs
-/

/-- In a run whose `Clear`s find nothing taken of their entity, no handler is invoked that
was cancelled, and none would be if `OnTimer` went on.  No other run has the second
property. -/
theorem clear_cancels_iff {actions : List TraceAction} {t : TimerTrace}
    (hrun : Run step init actions = some t) :
    (AllSteps step ClearsUntaken init actions -> AllStates step NoneCancelled init actions) ∧
      (AllStates step GoesOn init actions <-> AllSteps step ClearsUntaken init actions) := by
  have hkeep : forall s a u, CancelInv s -> True -> ClearsUntaken s a -> step s a = some u ->
      CancelInv u :=
    fun s a u hinv _ huntaken hstep => cancelInv_step hinv huntaken hstep
  have hbreak : forall s a u, CancelInv s -> True -> ¬ ClearsUntaken s a ->
      step s a = some u -> ¬ GoesOn u :=
    fun s a u hinv _ hlate hstep => late_clear_breaks hinv hlate hstep
  constructor
  · intro huntaken
    exact allStates_of_invariant (fun s a u hinv hok hstep => hkeep s a u hinv trivial hok hstep)
      (fun s hinv => hinv.law) cancelInv_init huntaken
  · exact allStates_iff_allSteps hkeep (fun s hinv => goesOn_of_inv hinv) hbreak
      cancelInv_init (fun _ _ => trivial) hrun

/-!
# A handler that clears its own timer

Two handlers are due at one time; the first one calls `Clear`.
-/

def clearInHandler : List TraceAction :=
  [.of (.construct 0 100), .of (.AddTimer 0 5 0 7), .of (.AddTimer 0 5 0 8), .of (.OnTimer 5),
    .of .advance, .of .advance, .of .advance, .of .advance, .of (.Clear 0), .of .advance,
    .of .advance]

theorem clearInHandler_calls_cancelled :
    exists t, Run step init clearInHandler = some t ∧ ¬ NoneCancelled t := by
  have hcheck : (Run step init clearInHandler).any
      (fun t => decide (¬ NoneCancelled t)) = true := by
    decide
  rcases (Option.any_eq_true _ _).mp hcheck with ⟨t, hrun, hbroken⟩
  exact ⟨t, hrun, of_decide_eq_true hbroken⟩

/-- With due times of their own the second handler is cancelled by the first. -/
def clearInLastHandler : List TraceAction :=
  [.of (.construct 0 100), .of (.AddTimer 0 5 0 7), .of (.AddTimer 0 6 0 8), .SubTimerOnTimer 0 6,
    .of .advance, .of .advance, .of (.Clear 0), .of .advance, .of .advance, .of .advance,
    .of .advance]

theorem clearInLastHandler_cancels :
    AllStates step NoneCancelled init clearInLastHandler := by
  have hrun : (Run step init clearInLastHandler).isSome = true := by
    decide
  rcases Option.isSome_iff_exists.mp hrun with ⟨t, ht⟩
  exact (clear_cancels_iff ht).left (by decide)

end TimerTrace
end Utils
end GMServer
