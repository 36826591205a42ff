import GMServer.Library.Pending
import GMServer.Library.Transition
import GMServer.LibActor.SchedulerSemaphore

/-!
# Stopping the workers

`Destroy` clears `m_bRuning`, notifies and joins the workers, without the mutex under
which a worker looks at the wait list and begins to wait.  Calls of `Schedule` are made
before `Destroy` and may still be under way then.
-/

namespace GMServer
namespace LibActor

/-!
# Where the threads are

A worker is in the `while` of `ThreadFunc` or in `Pop`.  It has the mutex in `locked`,
`toWait` and `scanning`; the wait gives it back.
-/

inductive ThreadFuncPc (Box : Type) where
  | test
  | lock
  | locked
  /-- The wait list was empty. -/
  | toWait
  | waiting
  | notified
  | scanning
  | processing (pBox : Box)
  | exited
  deriving DecidableEq

/-- `joining i` is after `notify_all`, with the first `i` workers joined. -/
inductive DestroyPc where
  | notCalled
  | stored
  | joining (i : Nat)
  deriving DecidableEq

structure SchedulerState (Box : Type) where
  m_bRuning : Bool
  m_listWaite : List (Option Box)
  m_Mutex : Option Nat
  m_vThread : List (ThreadFuncPc Box)
  destroy : DestroyPc
  /-- The mailboxes of the calls of `Schedule` that have not got the mutex yet. -/
  schedules : List (Option Box)

inductive SchedulerAction (Box : Type) where
  /-- The next step of a worker; the answers of `IsHandling` are for `Pop`. -/
  | thread (i : Nat) (IsHandling : Nat -> Box -> Bool)
  /-- A wait that ends without a notification. -/
  | spurious (i : Nat)
  | callSchedule (pMailBox : Option Box)
  /-- `woken` is whom `notify_one` wakes, if somebody waits. -/
  | Schedule (k woken : Nat)
  | storeRuning
  | notifyAll
  | join

namespace SchedulerState

open Transition

variable {Box : Type}

def init (iMaxThreadNum : Nat) : SchedulerState Box :=
  { m_bRuning := true,
    m_listWaite := [],
    m_Mutex := none,
    m_vThread := List.replicate iMaxThreadNum .test,
    destroy := .notCalled,
    schedules := [] }

/-!
# Steps
-/

def setPc (s : SchedulerState Box) (i : Nat) (pc : ThreadFuncPc Box) : SchedulerState Box :=
  { s with m_vThread := s.m_vThread.set i pc }

/-- The step of a worker at this point; no result where it has to wait. -/
def threadStep (s : SchedulerState Box) (i : Nat) (IsHandling : Nat -> Box -> Bool) :
    ThreadFuncPc Box -> Option (SchedulerState Box)
  | .test => some (s.setPc i (if s.m_bRuning then .lock else .exited))
  | .lock =>
      if s.m_Mutex = none then some { s.setPc i .locked with m_Mutex := some i } else none
  | .locked => some (s.setPc i (if s.m_listWaite.isEmpty then .toWait else .scanning))
  | .toWait => some { s.setPc i .waiting with m_Mutex := none }
  | .waiting => none
  | .notified =>
      if s.m_Mutex = none then some { s.setPc i .scanning with m_Mutex := some i } else none
  | .scanning =>
      let popped := SchedulerSemaphore.Pop IsHandling s.m_listWaite
      some
        { s.setPc i (match popped.1 with | none => .test | some pBox => .processing pBox) with
          m_listWaite := popped.2, m_Mutex := none }
  | .processing _ => some (s.setPc i .test)
  | .exited => none

def isWaiting : ThreadFuncPc Box -> Bool
  | .waiting => true
  | _ => false

def waiters (s : SchedulerState Box) : Nat := s.m_vThread.countP isWaiting

/-- `notify_one`: nothing without a waiting worker, else one of them is notified. -/
def notifyOne (s : SchedulerState Box) (woken : Nat) : Option (SchedulerState Box) :=
  if s.waiters = 0 then some s
  else
    match s.m_vThread[woken]? with
    | some .waiting => some (s.setPc woken .notified)
    | _ => none

def wake (pc : ThreadFuncPc Box) : ThreadFuncPc Box :=
  if isWaiting pc then .notified else pc

def step (s : SchedulerState Box) : SchedulerAction Box -> Option (SchedulerState Box)
  | .thread i IsHandling => s.m_vThread[i]?.bind (s.threadStep i IsHandling)
  | .spurious i =>
      match s.m_vThread[i]? with
      | some .waiting => some (s.setPc i .notified)
      | _ => none
  | .callSchedule pMailBox =>
      if s.destroy = .notCalled then some { s with schedules := s.schedules ++ [pMailBox] }
      else none
  | .Schedule k woken =>
      match s.schedules[k]? with
      | none => none
      | some pMailBox =>
          if s.m_Mutex = none then
            notifyOne
              { s with
                m_listWaite := SchedulerSemaphore.Schedule s.m_listWaite pMailBox,
                schedules := s.schedules.eraseIdx k } woken
          else none
  | .storeRuning =>
      if s.destroy = .notCalled then some { s with m_bRuning := false, destroy := .stored }
      else none
  | .notifyAll =>
      if s.destroy = .stored then
        some { s with m_vThread := s.m_vThread.map wake, destroy := .joining 0 }
      else none
  | .join =>
      match s.destroy with
      | .joining i =>
          match s.m_vThread[i]? with
          | some .exited => some { s with destroy := .joining (i + 1) }
          | _ => none
      | _ => none

/-!
# Sleeping through the shutdown
-/

def Notified (s : SchedulerState Box) : Prop := exists i, s.destroy = .joining i

/-- After `notify_all` a worker waits, and no call is left that could notify it. -/
def Sleeps (s : SchedulerState Box) : Prop :=
  s.Notified ∧ s.schedules = [] ∧ s.waiters ≠ 0

/-- After `notify_all` a worker begins to wait only while a call of `Schedule` is under
way, and the last of them leaves nobody waiting. -/
def InTime (s : SchedulerState Box) : SchedulerAction Box -> Prop
  | .thread i _ => s.Notified -> s.m_vThread[i]? = some .toWait -> s.schedules ≠ []
  | .Schedule _ _ => s.Notified -> s.schedules.length = 1 -> s.waiters ≤ 1
  | _ => True

instance (s : SchedulerState Box) : Decidable s.Notified :=
  match h : s.destroy with
  | .joining i => isTrue ⟨i, h⟩
  | .notCalled => isFalse (fun ⟨i, hi⟩ => by rw [h] at hi; cases hi)
  | .stored => isFalse (fun ⟨i, hi⟩ => by rw [h] at hi; cases hi)

instance [DecidableEq Box] (s : SchedulerState Box) :
    forall a, Decidable (InTime s a)
  | .thread i _ => inferInstanceAs (Decidable (_ -> s.m_vThread[i]? = _ -> _ ≠ _))
  | .Schedule _ _ => inferInstanceAs (Decidable (_ -> _ = _ -> _ ≤ _))
  | .spurious _ => isTrue trivial
  | .callSchedule _ => isTrue trivial
  | .storeRuning => isTrue trivial
  | .notifyAll => isTrue trivial
  | .join => isTrue trivial

/-!
# What a step does to the waiting workers
-/

theorem waiters_setPc {s : SchedulerState Box} {i : Nat} {old : ThreadFuncPc Box}
    (hold : s.m_vThread[i]? = some old) (pc : ThreadFuncPc Box) :
    (s.setPc i pc).waiters + (if isWaiting old then 1 else 0) =
      s.waiters + (if isWaiting pc then 1 else 0) :=
  Pending.countP_set isWaiting pc hold

theorem waiters_setPc_awake {s : SchedulerState Box} {i : Nat} {old pc : ThreadFuncPc Box}
    (hold : s.m_vThread[i]? = some old) (hbefore : isWaiting old = false)
    (hafter : isWaiting pc = false) : (s.setPc i pc).waiters = s.waiters := by
  have hcount := waiters_setPc hold pc
  rw [hbefore, hafter] at hcount
  exact hcount

/-- A worker begins to wait or does something that has nothing to do with waiting. -/
theorem threadStep_cases {s t : SchedulerState Box} {i : Nat}
    {IsHandling : Nat -> Box -> Bool} {pc : ThreadFuncPc Box}
    (hpc : s.m_vThread[i]? = some pc) (hstep : s.threadStep i IsHandling pc = some t) :
    t.destroy = s.destroy ∧ t.schedules = s.schedules ∧
      (pc = .toWait ∧ t.waiters = s.waiters + 1 ∨ pc ≠ .toWait ∧ t.waiters = s.waiters) := by
  have hawake : forall new, isWaiting pc = false -> isWaiting new = false ->
      (s.setPc i new).waiters = s.waiters :=
    fun new => waiters_setPc_awake hpc
  cases pc with
  | test =>
      cases hstep
      refine ⟨rfl, rfl, Or.inr ⟨(fun h => by cases h), ?_⟩⟩
      apply hawake _ rfl
      cases s.m_bRuning with
      | true => rfl
      | false => rfl
  | lock =>
      simp only [threadStep] at hstep
      split at hstep
      · cases hstep
        exact ⟨rfl, rfl, Or.inr ⟨(fun h => by cases h), hawake .locked rfl rfl⟩⟩
      · cases hstep
  | locked =>
      cases hstep
      refine ⟨rfl, rfl, Or.inr ⟨(fun h => by cases h), ?_⟩⟩
      apply hawake _ rfl
      cases s.m_listWaite.isEmpty with
      | true => rfl
      | false => rfl
  | toWait =>
      cases hstep
      exact ⟨rfl, rfl, Or.inl ⟨rfl, waiters_setPc hpc .waiting⟩⟩
  | waiting => cases hstep
  | notified =>
      simp only [threadStep] at hstep
      split at hstep
      · cases hstep
        exact ⟨rfl, rfl, Or.inr ⟨(fun h => by cases h), hawake .scanning rfl rfl⟩⟩
      · cases hstep
  | scanning =>
      cases hstep
      refine ⟨rfl, rfl, Or.inr ⟨(fun h => by cases h), ?_⟩⟩
      apply hawake _ rfl
      cases (SchedulerSemaphore.Pop IsHandling s.m_listWaite).1 with
      | none => rfl
      | some pBox => rfl
  | processing pBox =>
      cases hstep
      exact ⟨rfl, rfl, Or.inr ⟨(fun h => by cases h), hawake .test rfl rfl⟩⟩
  | exited => cases hstep

/-- One worker less waits, if any did. -/
theorem notifyOne_spec {s t : SchedulerState Box} {woken : Nat}
    (hnotify : s.notifyOne woken = some t) :
    t.destroy = s.destroy ∧ t.schedules = s.schedules ∧ t.waiters = s.waiters - 1 := by
  unfold notifyOne at hnotify
  split at hnotify
  · rename_i hnone
    cases hnotify
    exact ⟨rfl, rfl, by omega⟩
  · split at hnotify
    · rename_i hpc
      cases hnotify
      have hcount := waiters_setPc hpc .notified
      refine ⟨rfl, rfl, ?_⟩
      have hone : (s.setPc woken .notified).waiters + 1 = s.waiters := hcount
      omega
    · cases hnotify

theorem waiters_wake (s : SchedulerState Box) :
    (s.m_vThread.map wake).countP isWaiting = 0 := by
  rw [List.countP_eq_zero]
  intro pc hmem
  rcases List.mem_map.mp hmem with ⟨old, _, hEq⟩
  rw [← hEq]
  cases old with
  | waiting => exact Bool.false_ne_true
  | _ => exact Bool.false_ne_true

theorem not_notified_of_eq {s : SchedulerState Box} {pc : DestroyPc} (hpc : s.destroy = pc)
    (hnot : forall i, pc ≠ .joining i) : ¬ s.Notified := by
  intro ⟨i, hi⟩
  rw [hpc] at hi
  exact hnot i hi

theorem notified_congr {s t : SchedulerState Box} (hsame : t.destroy = s.destroy) :
    t.Notified <-> s.Notified := by
  unfold Notified
  rw [hsame]

/-- A step that leaves the calls of `Schedule` alone and lets nobody begin to wait. -/
theorem sleeps_of_quiet {s t : SchedulerState Box} (hdestroy : t.destroy = s.destroy)
    (hschedules : t.schedules = s.schedules) (hwaiters : t.waiters ≤ s.waiters)
    (hsleeps : t.Sleeps) : s.Sleeps := by
  refine ⟨(notified_congr hdestroy).mp hsleeps.left, hschedules ▸ hsleeps.right.left, ?_⟩
  have hsome := hsleeps.right.right
  omega

theorem sleeps_thread_iff {s t : SchedulerState Box} {i : Nat}
    {IsHandling : Nat -> Box -> Bool} (hawake : ¬ s.Sleeps)
    (hstep : step s (.thread i IsHandling) = some t) :
    t.Sleeps <-> ¬ InTime s (.thread i IsHandling) := by
  rcases Option.bind_eq_some_iff.mp hstep with ⟨pc, hpc, hthread⟩
  rcases threadStep_cases hpc hthread with
    ⟨hdestroy, hschedules, ⟨htoWait, hwaiters⟩ | ⟨hother, hwaiters⟩⟩
  · rw [htoWait] at hpc
    unfold Sleeps
    rw [notified_congr hdestroy, hschedules, hwaiters]
    constructor
    · intro ⟨hnotified, hnone, _⟩ hintime
      exact hintime hnotified hpc hnone
    · intro hlate
      rcases Classical.not_imp.mp hlate with ⟨hnotified, hrest⟩
      rcases Classical.not_imp.mp hrest with ⟨_, hnone⟩
      exact ⟨hnotified, not_not.mp hnone, Nat.succ_ne_zero _⟩
  · apply iff_of_false
    · intro hsleeps
      exact hawake (sleeps_of_quiet hdestroy hschedules (Nat.le_of_eq hwaiters) hsleeps)
    · intro hlate
      apply hlate
      intro _ htoWait
      rw [hpc] at htoWait
      exact absurd (Option.some.inj htoWait) hother

theorem sleeps_schedule_iff {s t : SchedulerState Box} {k woken : Nat}
    (hstep : step s (.Schedule k woken) = some t) :
    t.Sleeps <-> ¬ InTime s (.Schedule k woken) := by
  simp only [step] at hstep
  split at hstep
  · cases hstep
  · rename_i pMailBox hget
    have hlt : k < s.schedules.length := (List.getElem?_eq_some_iff.mp hget).1
    split at hstep
    · rcases notifyOne_spec hstep with ⟨hdestroy, hschedules, hwaiters⟩
      have hlength : (s.schedules.eraseIdx k).length = s.schedules.length - 1 :=
        List.length_eraseIdx_of_lt hlt
      have hlast : t.schedules = [] <-> s.schedules.length = 1 := by
        rw [hschedules, ← List.length_eq_zero_iff]
        dsimp only
        omega
      have hleft : t.waiters ≠ 0 <-> ¬ s.waiters ≤ 1 := by
        rw [hwaiters]
        show s.waiters - 1 ≠ 0 <-> _
        omega
      have hnotified : t.Notified <-> s.Notified := notified_congr hdestroy
      unfold Sleeps InTime
      rw [hlast, hleft, hnotified, Classical.not_imp, Classical.not_imp]
    · cases hstep

/-- A worker comes to sleep in exactly those steps that are not in time. -/
theorem sleeps_step_iff {s t : SchedulerState Box} {a : SchedulerAction Box}
    (hawake : ¬ s.Sleeps) (hstep : step s a = some t) : t.Sleeps <-> ¬ InTime s a := by
  have hquiet : ¬ t.Sleeps -> InTime s a -> (t.Sleeps <-> ¬ InTime s a) :=
    fun hnot hintime => iff_of_false hnot (fun hlate => hlate hintime)
  cases a with
  | thread i IsHandling => exact sleeps_thread_iff hawake hstep
  | Schedule k woken => exact sleeps_schedule_iff hstep
  | spurious i =>
      simp only [step] at hstep
      split at hstep
      · rename_i hpc
        cases hstep
        have hcount : (s.setPc i .notified).waiters + 1 = s.waiters :=
          waiters_setPc hpc .notified
        have hless : (s.setPc i .notified).waiters ≤ s.waiters := by
          omega
        refine hquiet (fun hsleeps => hawake ?_) trivial
        exact sleeps_of_quiet (t := s.setPc i .notified) rfl rfl hless hsleeps
      · cases hstep
  | callSchedule pMailBox =>
      simp only [step] at hstep
      split at hstep
      · rename_i hcalled
        cases hstep
        refine hquiet (fun hsleeps => ?_) trivial
        exact not_notified_of_eq hcalled (fun i h => by cases h) hsleeps.left
      · cases hstep
  | storeRuning =>
      simp only [step] at hstep
      split at hstep
      · cases hstep
        refine hquiet (fun hsleeps => ?_) trivial
        exact not_notified_of_eq rfl (fun i h => by cases h) hsleeps.left
      · cases hstep
  | notifyAll =>
      simp only [step] at hstep
      split at hstep
      · cases hstep
        exact hquiet (fun hsleeps => hsleeps.right.right (waiters_wake s)) trivial
      · cases hstep
  | join =>
      simp only [step] at hstep
      split at hstep
      · rename_i i hjoining
        split at hstep
        · cases hstep
          refine hquiet (fun hsleeps => hawake ?_) trivial
          exact ⟨⟨i, hjoining⟩, hsleeps.right⟩
        · cases hstep
      · cases hstep

/-!
# A sleeper is never joined

Without a wait that ends by itself, the worker waits in all that follows, and `Destroy`
does not get past it.
-/

/-- The worker waits, nobody is left to notify it, and it has not been joined. -/
structure Stuck (i : Nat) (s : SchedulerState Box) : Prop where
  waits : s.m_vThread[i]? = some .waiting
  noCalls : s.schedules = []
  notJoined : exists j, s.destroy = .joining j ∧ j ≤ i

def NotSpurious (_ : SchedulerState Box) : SchedulerAction Box -> Prop
  | .spurious _ => False
  | _ => True

theorem getElem?_set_other {s : SchedulerState Box} {i j : Nat} {pc old : ThreadFuncPc Box}
    (hpc : s.m_vThread[i]? = some pc) (hold : s.m_vThread[j]? = some old) (hne : old ≠ pc)
    (new : ThreadFuncPc Box) : (s.setPc j new).m_vThread[i]? = some pc := by
  have hother : j ≠ i := by
    intro hEq
    rw [hEq, hpc] at hold
    exact hne (Option.some.inj hold).symm
  exact (List.getElem?_set_ne hother).trans hpc

/-- A worker that is blocked, or at its end, stays where it is while others step. -/
theorem threadStep_other {s t : SchedulerState Box} {i j : Nat} {pc old : ThreadFuncPc Box}
    {IsHandling : Nat -> Box -> Bool} (hpc : s.m_vThread[i]? = some pc)
    (hfixed : pc = .waiting ∨ pc = .exited) (hold : s.m_vThread[j]? = some old)
    (hstep : s.threadStep j IsHandling old = some t) : t.m_vThread[i]? = some pc := by
  have hne : old ≠ pc := by
    intro hEq
    rw [hEq] at hstep
    rcases hfixed with hwaiting | hexited
    · rw [hwaiting] at hstep
      cases hstep
    · rw [hexited] at hstep
      cases hstep
  have hkept := getElem?_set_other hpc hold hne
  cases old with
  | test =>
      cases hstep
      exact hkept _
  | lock =>
      simp only [threadStep] at hstep
      split at hstep
      · cases hstep
        exact hkept _
      · cases hstep
  | locked =>
      cases hstep
      exact hkept _
  | toWait =>
      cases hstep
      exact hkept _
  | waiting => cases hstep
  | notified =>
      simp only [threadStep] at hstep
      split at hstep
      · cases hstep
        exact hkept _
      · cases hstep
  | scanning =>
      cases hstep
      exact hkept _
  | processing pBox =>
      cases hstep
      exact hkept _
  | exited => cases hstep

theorem stuck_step {s t : SchedulerState Box} {i : Nat} {a : SchedulerAction Box}
    (hstuck : Stuck i s) (hspurious : NotSpurious s a) (hstep : step s a = some t) :
    Stuck i t := by
  rcases hstuck.notJoined with ⟨j, hjoining, hle⟩
  cases a with
  | thread k IsHandling =>
      rcases Option.bind_eq_some_iff.mp hstep with ⟨old, hold, hthread⟩
      rcases threadStep_cases hold hthread with ⟨hdestroy, hschedules, _⟩
      constructor
      case waits => exact threadStep_other hstuck.waits (Or.inl rfl) hold hthread
      case noCalls => rw [hschedules, hstuck.noCalls]
      case notJoined => exact ⟨j, hdestroy.trans hjoining, hle⟩
  | spurious k => cases hspurious
  | callSchedule pMailBox =>
      simp only [step, hjoining] at hstep
      cases hstep
  | Schedule k woken =>
      simp only [step, hstuck.noCalls, List.getElem?_nil] at hstep
      cases hstep
  | storeRuning =>
      simp only [step, hjoining] at hstep
      cases hstep
  | notifyAll =>
      simp only [step, hjoining] at hstep
      cases hstep
  | join =>
      simp only [step, hjoining] at hstep
      split at hstep
      · rename_i hexited
        cases hstep
        have hne : j ≠ i := by
          intro hEq
          rw [hEq, hstuck.waits] at hexited
          cases hexited
        exact ⟨hstuck.waits, hstuck.noCalls, ⟨j + 1, rfl, by omega⟩⟩
      · cases hstep

/-- Whoever has been joined has returned from `ThreadFunc`. -/
def JoinedExited (s : SchedulerState Box) : Prop :=
  forall j, s.destroy = .joining j -> forall i, i < j -> s.m_vThread[i]? = some .exited

theorem joinedExited_set {s : SchedulerState Box} (hinv : JoinedExited s) {k : Nat}
    (hpc : s.m_vThread[k]? = some .waiting) (pc : ThreadFuncPc Box) :
    JoinedExited (s.setPc k pc) := by
  intro j hjoining i hlt
  exact getElem?_set_other (hinv j hjoining i hlt) hpc (fun h => by cases h) pc

theorem joinedExited_step {s t : SchedulerState Box} {a : SchedulerAction Box}
    (hinv : JoinedExited s) (hstep : step s a = some t) : JoinedExited t := by
  cases a with
  | thread k IsHandling =>
      rcases Option.bind_eq_some_iff.mp hstep with ⟨old, hold, hthread⟩
      rcases threadStep_cases hold hthread with ⟨hdestroy, _⟩
      intro j hjoining i hlt
      rw [hdestroy] at hjoining
      exact threadStep_other (hinv j hjoining i hlt) (Or.inr rfl) hold hthread
  | spurious k =>
      simp only [step] at hstep
      split at hstep
      · cases hstep
        exact joinedExited_set hinv ‹_› _
      · cases hstep
  | callSchedule pMailBox =>
      simp only [step] at hstep
      split at hstep
      · cases hstep
        exact hinv
      · cases hstep
  | Schedule k woken =>
      simp only [step] at hstep
      split at hstep
      · cases hstep
      · split at hstep
        · unfold notifyOne at hstep
          split at hstep
          · cases hstep
            exact hinv
          · split at hstep
            · cases hstep
              exact joinedExited_set hinv ‹_› _
            · cases hstep
        · cases hstep
  | storeRuning =>
      simp only [step] at hstep
      split at hstep
      · cases hstep
        intro j hjoining
        cases hjoining
      · cases hstep
  | notifyAll =>
      simp only [step] at hstep
      split at hstep
      · cases hstep
        intro j hjoining i hlt
        cases hjoining
        exact absurd hlt (Nat.not_lt_zero i)
      · cases hstep
  | join =>
      simp only [step] at hstep
      split at hstep
      · rename_i k hjoined
        split at hstep
        · rename_i hexited
          cases hstep
          intro j hjoining i hlt
          cases hjoining
          rcases Nat.lt_succ_iff_lt_or_eq.mp hlt with hbefore | hEq
          · exact hinv k hjoined i hbefore
          · rw [hEq]
            exact hexited
        · cases hstep
      · cases hstep

theorem stuck_of_sleeps {s : SchedulerState Box} (hinv : JoinedExited s)
    (hsleeps : s.Sleeps) : exists i, Stuck i s := by
  rcases hsleeps with ⟨⟨j, hjoining⟩, hnone, hwaiters⟩
  have hsome : exists pc, pc ∈ s.m_vThread ∧ isWaiting pc = true := by
    rw [← List.countP_pos_iff]
    exact Nat.pos_of_ne_zero hwaiters
  rcases hsome with ⟨pc, hmem, hpc⟩
  rcases List.mem_iff_getElem?.mp hmem with ⟨i, hget⟩
  have hwaiting : s.m_vThread[i]? = some .waiting := by
    rw [hget]
    cases pc with
    | waiting => rfl
    | _ => cases hpc
  refine ⟨i, hwaiting, hnone, j, hjoining, ?_⟩
  by_contra hlt
  have hexited := hinv j hjoining i (by omega)
  rw [hwaiting] at hexited
  cases hexited

/-- Once somebody sleeps, some worker waits in all that follows and is not joined. -/
theorem sleeper_never_joined {iMaxThreadNum : Nat} {before after : List (SchedulerAction Box)}
    {s t : SchedulerState Box} (hbefore : Run step (init iMaxThreadNum) before = some s)
    (hsleeps : s.Sleeps) (hspurious : AllSteps step NotSpurious s after)
    (hafter : Run step s after = some t) : exists i, Stuck i t := by
  have hstart : JoinedExited (init iMaxThreadNum : SchedulerState Box) := by
    intro j hjoining
    cases hjoining
  have hinv : JoinedExited s :=
    run_invariant (fun _ _ _ hinv (_ : True) hstep => joinedExited_step hinv hstep) hstart
      (allSteps_of_labels (fun _ _ _ => trivial) _) hbefore
  rcases stuck_of_sleeps hinv hsleeps with ⟨i, hstuck⟩
  have hkeep : forall (s : SchedulerState Box) a u, Stuck i s -> NotSpurious s a ->
      step s a = some u -> Stuck i u :=
    fun _ _ _ hstuck hspurious hstep => stuck_step hstuck hspurious hstep
  exact ⟨i, run_invariant hkeep hstuck hspurious hafter⟩

/-!
# Whole runs
-/

/-- No worker sleeps through the shutdown in exactly those runs whose steps are in time.  Where
somebody sleeps, some worker waits in all that follows and is not joined. -/
theorem noSleeper_iff {iMaxThreadNum : Nat} {actions : List (SchedulerAction Box)}
    {t : SchedulerState Box} (hrun : Run step (init iMaxThreadNum) actions = some t) :
    (AllStates step (fun s => ¬ s.Sleeps) (init iMaxThreadNum) actions <->
      AllSteps step InTime (init iMaxThreadNum) actions) ∧
      (t.Sleeps -> forall after u, AllSteps step NotSpurious t after ->
        Run step t after = some u -> exists i, Stuck i u) := by
  have hstart : ¬ (init iMaxThreadNum : SchedulerState Box).Sleeps := by
    intro hsleeps
    exact not_notified_of_eq rfl (fun i h => by cases h) hsleeps.left
  have hkeep : forall (s : SchedulerState Box) a u, ¬ s.Sleeps -> True -> InTime s a ->
      step s a = some u -> ¬ u.Sleeps := by
    intro s a u hawake _ hintime hstep hsleeps
    exact (sleeps_step_iff hawake hstep).mp hsleeps hintime
  have hbreak : forall (s : SchedulerState Box) a u, ¬ s.Sleeps -> True -> ¬ InTime s a ->
      step s a = some u -> ¬ ¬ u.Sleeps := by
    intro s a u hawake _ hlate hstep hnot
    exact hnot ((sleeps_step_iff hawake hstep).mpr hlate)
  constructor
  · exact allStates_iff_allSteps hkeep (fun s hawake => hawake) hbreak hstart
      (fun _ _ => trivial) hrun
  · intro hsleeps after u hspurious hafter
    exact sleeper_never_joined hrun hsleeps hspurious hafter

/-!
# Between the test and the wait

A worker has found `m_bRuning` set; then `Destroy` clears it and notifies nobody.
-/

def idle : Nat -> Nat -> Bool := fun _ _ => false

def lateWait : List (SchedulerAction Nat) :=
  [.thread 0 idle, .storeRuning, .notifyAll, .thread 0 idle, .thread 0 idle, .thread 0 idle]

theorem lateWait_sleeps :
    exists s : SchedulerState Nat, Run step (init 1) lateWait = some s ∧ s.Sleeps := by
  refine ⟨_, rfl, ⟨0, rfl⟩, rfl, ?_⟩
  decide

/-- The worker waits before `Destroy` and is notified by it. -/
def earlyWait : List (SchedulerAction Nat) :=
  [.thread 0 idle, .thread 0 idle, .thread 0 idle, .thread 0 idle, .storeRuning, .notifyAll,
    .thread 0 idle, .thread 0 idle, .thread 0 idle, .join]

theorem earlyWait_noSleeper :
    AllStates step (fun s : SchedulerState Nat => ¬ s.Sleeps) (init 1) earlyWait := by
  have hrun : (Run step (init 1) earlyWait).isSome = true := by
    decide
  rcases Option.isSome_iff_exists.mp hrun with ⟨t, ht⟩
  apply (noSleeper_iff ht).left.mpr
  decide

end SchedulerState
end LibActor
end GMServer
