import GMServer.LibActor.SchedulerShutdown

/-!
# Waking the workers

`Schedule` notifies one worker for the mailbox it appends, and a worker begins to wait only
where it has seen the wait list empty, both under the mutex.  So until `Destroy` is called no
more mailboxes wait than workers are awake, unless all of them are, and one of them comes to
the list by itself.
-/

namespace GMServer
namespace LibActor
namespace SchedulerState

open Transition

variable {Box : Type} {iMaxThreadNum : Nat}

def hasMutex : ThreadFuncPc Box -> Bool
  | .locked => true
  | .toWait => true
  | .scanning => true
  | _ => false

def awake (s : SchedulerState Box) : Nat := s.m_vThread.countP (fun pc => !isWaiting pc)

theorem awake_waiters (s : SchedulerState Box) : s.awake + s.waiters = s.m_vThread.length := by
  have hsplit := List.length_eq_countP_add_countP isWaiting (l := s.m_vThread)
  unfold awake waiters
  simp only [decide_not, Bool.decide_eq_true] at hsplit
  omega

/-!
# Whose mutex it is
-/

structure Mutual (threads : List (ThreadFuncPc Box)) (m_Mutex : Option Nat) : Prop where
  inside : forall i pc, threads[i]? = some pc -> (hasMutex pc = true <-> m_Mutex = some i)
  owner : forall i, m_Mutex = some i -> i < threads.length

theorem mutual_moved {threads : List (ThreadFuncPc Box)} {m_Mutex next : Option Nat} {i : Nat}
    {old new : ThreadFuncPc Box} (hmutual : Mutual threads m_Mutex)
    (hold : threads[i]? = some old) (hnew : hasMutex new = true <-> next = some i)
    (hothers : forall j, j ≠ i -> (next = some j <-> m_Mutex = some j)) :
    Mutual (threads.set i new) next where
  inside j pc hpc := by
    by_cases hj : j = i
    · subst hj
      rw [List.getElem?_set_self (List.getElem?_eq_some_iff.mp hold).choose] at hpc
      cases hpc
      exact hnew
    · rw [List.getElem?_set_ne (Ne.symm hj)] at hpc
      rw [hothers j hj]
      exact hmutual.inside j pc hpc
  owner j hj := by
    rw [List.length_set]
    by_cases hij : j = i
    · rw [hij]
      exact (List.getElem?_eq_some_iff.mp hold).choose
    · exact hmutual.owner j ((hothers j hij).mp hj)

/-- The worker neither takes nor releases the mutex. -/
theorem mutual_same {threads : List (ThreadFuncPc Box)} {m_Mutex : Option Nat} {i : Nat}
    {old new : ThreadFuncPc Box} (hmutual : Mutual threads m_Mutex)
    (hold : threads[i]? = some old) (hsame : hasMutex new = hasMutex old) :
    Mutual (threads.set i new) m_Mutex := by
  apply mutual_moved hmutual hold
  · rw [hsame]
    exact hmutual.inside i old hold
  · intro j hj
    exact Iff.rfl

theorem mutual_locked {threads : List (ThreadFuncPc Box)} {i : Nat}
    {old new : ThreadFuncPc Box} (hmutual : Mutual threads none)
    (hold : threads[i]? = some old) (hnew : hasMutex new = true) :
    Mutual (threads.set i new) (some i) := by
  apply mutual_moved hmutual hold
  · exact iff_of_true hnew rfl
  · intro j hj
    constructor
    · intro hEq
      exact absurd (Option.some.inj hEq).symm hj
    · intro hEq
      cases hEq

theorem mutual_unlocked {threads : List (ThreadFuncPc Box)} {m_Mutex : Option Nat} {i : Nat}
    {old new : ThreadFuncPc Box} (hmutual : Mutual threads m_Mutex)
    (hold : threads[i]? = some old) (hheld : hasMutex old = true)
    (hnew : hasMutex new = false) : Mutual (threads.set i new) none := by
  have howner := (hmutual.inside i old hold).mp hheld
  apply mutual_moved hmutual hold
  · rw [hnew]
    exact iff_of_false Bool.false_ne_true (fun hEq => by cases hEq)
  · intro j hj
    rw [howner]
    constructor
    · intro hEq
      cases hEq
    · intro hEq
      exact absurd (Option.some.inj hEq).symm hj

/-!
# The invariant
-/

structure WakeInv (iMaxThreadNum : Nat) (s : SchedulerState Box) : Prop where
  workers : s.m_vThread.length = iMaxThreadNum
  running : s.m_bRuning = true
  exclusive : Mutual s.m_vThread s.m_Mutex
  nothing : .toWait ∈ s.m_vThread -> s.m_listWaite = []
  stays : .exited ∉ s.m_vThread
  enough : s.waiters ≠ 0 -> s.m_listWaite.length ≤ s.awake

theorem wakeInv_init (iMaxThreadNum : Nat) :
    WakeInv iMaxThreadNum (init iMaxThreadNum : SchedulerState Box) where
  workers := List.length_replicate
  running := rfl
  exclusive :=
    { inside := by
        intro i pc hpc
        have htest := List.eq_of_mem_replicate (List.mem_of_getElem? hpc)
        rw [htest]
        exact iff_of_false Bool.false_ne_true (fun hEq => by cases hEq),
      owner := fun i hEq => by cases hEq }
  nothing := fun _ => rfl
  stays := by
    intro hmem
    cases List.eq_of_mem_replicate hmem
  enough := fun _ => Nat.zero_le _

/-- One worker goes on, and nobody appends to the list. -/
theorem wakeInv_moved {s t : SchedulerState Box} {i : Nat} {old new : ThreadFuncPc Box}
    (hinv : WakeInv iMaxThreadNum s) (hold : s.m_vThread[i]? = some old)
    (hthreads : t.m_vThread = s.m_vThread.set i new) (hrunning : t.m_bRuning = s.m_bRuning)
    (hmutual : Mutual (s.m_vThread.set i new) t.m_Mutex)
    (hlist : t.m_listWaite.length ≤ s.m_listWaite.length)
    (hsleeps : new = .toWait ∨ new = .waiting -> t.m_listWaite = [])
    (hstays : new ≠ .exited) : WakeInv iMaxThreadNum t where
  workers := by
    rw [hthreads, List.length_set]
    exact hinv.workers
  running := hrunning.trans hinv.running
  exclusive := by
    rw [hthreads]
    exact hmutual
  nothing hmem := by
    rw [hthreads] at hmem
    rcases List.mem_or_eq_of_mem_set hmem with hbefore | hnew
    · rw [hinv.nothing hbefore] at hlist
      exact List.eq_nil_of_length_eq_zero (Nat.le_zero.mp hlist)
    · exact hsleeps (Or.inl hnew.symm)
  stays hmem := by
    rw [hthreads] at hmem
    rcases List.mem_or_eq_of_mem_set hmem with hbefore | hnew
    · exact hinv.stays hbefore
    · exact hstays hnew.symm
  enough hwaiters := by
    have hmoved : t.waiters + (if isWaiting old then 1 else 0) =
        s.waiters + (if isWaiting new then 1 else 0) := by
      unfold waiters
      rw [hthreads]
      exact Pending.countP_set isWaiting new hold
    have hlength : t.m_vThread.length = s.m_vThread.length := by
      rw [hthreads, List.length_set]
    have hsplit := awake_waiters s
    have hsplitAfter := awake_waiters t
    by_cases hnew : isWaiting new = true
    · have hempty : t.m_listWaite = [] := by
        apply hsleeps
        cases new with
        | waiting => exact Or.inr rfl
        | _ => cases hnew
      rw [hempty]
      exact Nat.zero_le _
    · rw [if_neg hnew] at hmoved
      have hbefore := hinv.enough (by omega)
      omega

theorem wakeInv_thread {s t : SchedulerState Box} {i : Nat} {IsHandling : Nat -> Box -> Bool}
    {pc : ThreadFuncPc Box} (hinv : WakeInv iMaxThreadNum s) (hpc : s.m_vThread[i]? = some pc)
    (hstep : s.threadStep i IsHandling pc = some t) : WakeInv iMaxThreadNum t := by
  have hmutual := hinv.exclusive
  cases pc with
  | test =>
      cases hstep
      rw [hinv.running]
      exact wakeInv_moved hinv hpc rfl rfl (mutual_same hmutual hpc rfl) (Nat.le_refl _)
        (by simp) (by simp)
  | lock =>
      simp only [threadStep] at hstep
      split at hstep
      · rename_i hfree
        cases hstep
        rw [hfree] at hmutual
        exact wakeInv_moved hinv hpc rfl rfl (mutual_locked hmutual hpc rfl) (Nat.le_refl _)
          (by simp) (by simp)
      · cases hstep
  | locked =>
      cases hstep
      cases hempty : s.m_listWaite.isEmpty with
      | true =>
          exact wakeInv_moved hinv hpc rfl rfl (mutual_same hmutual hpc rfl) (Nat.le_refl _)
            (fun _ => List.isEmpty_iff.mp hempty) (by simp)
      | false =>
          exact wakeInv_moved hinv hpc rfl rfl (mutual_same hmutual hpc rfl) (Nat.le_refl _)
            (by simp) (by simp)
  | toWait =>
      cases hstep
      have hempty := hinv.nothing (List.mem_of_getElem? hpc)
      exact wakeInv_moved hinv hpc rfl rfl (mutual_unlocked hmutual hpc rfl rfl)
        (Nat.le_refl _) (fun _ => hempty) (by simp)
  | waiting => cases hstep
  | notified =>
      simp only [threadStep] at hstep
      split at hstep
      · rename_i hfree
        cases hstep
        rw [hfree] at hmutual
        exact wakeInv_moved hinv hpc rfl rfl (mutual_locked hmutual hpc rfl) (Nat.le_refl _)
          (by simp) (by simp)
      · cases hstep
  | scanning =>
      cases hstep
      have hshorter := SchedulerSemaphore.pop_length_le IsHandling s.m_listWaite
      cases hgot : (SchedulerSemaphore.Pop IsHandling s.m_listWaite).1 with
      | none =>
          exact wakeInv_moved hinv hpc rfl rfl (mutual_unlocked hmutual hpc rfl rfl) hshorter
            (by simp) (by simp)
      | some pBox =>
          exact wakeInv_moved hinv hpc rfl rfl (mutual_unlocked hmutual hpc rfl rfl) hshorter
            (by simp) (by simp)
  | processing pBox =>
      cases hstep
      exact wakeInv_moved hinv hpc rfl rfl (mutual_same hmutual hpc rfl) (Nat.le_refl _)
        (by simp) (by simp)
  | exited => cases hstep

/-- A worker that is about to wait has the mutex. -/
theorem nobody_toWait {s : SchedulerState Box} (hinv : WakeInv iMaxThreadNum s)
    (hfree : s.m_Mutex = none) : .toWait ∉ s.m_vThread := by
  intro hmem
  rcases List.mem_iff_getElem?.mp hmem with ⟨i, hget⟩
  have howner := (hinv.exclusive.inside i .toWait hget).mp rfl
  rw [hfree] at howner
  cases howner

/-- One more mailbox waits, and one worker more is awake if any was not. -/
theorem wakeInv_schedule {s t : SchedulerState Box} {pMailBox : Option Box} {k woken : Nat}
    (hinv : WakeInv iMaxThreadNum s) (hfree : s.m_Mutex = none)
    (hnotify : notifyOne
      { s with
        m_listWaite := SchedulerSemaphore.Schedule s.m_listWaite pMailBox,
        schedules := s.schedules.eraseIdx k } woken = some t) : WakeInv iMaxThreadNum t := by
  have hnobody := nobody_toWait hinv hfree
  unfold notifyOne at hnotify
  split at hnotify
  · rename_i hnone
    cases hnotify
    exact
      { workers := hinv.workers,
        running := hinv.running,
        exclusive := hinv.exclusive,
        nothing := fun hmem => absurd hmem hnobody,
        stays := hinv.stays,
        enough := fun hwaiters => absurd hnone hwaiters }
  · rename_i hsome
    split at hnotify
    · rename_i hwaiting
      have hwaiting : s.m_vThread[woken]? = some .waiting := hwaiting
      cases hnotify
      have hmoved := waiters_setPc hwaiting .notified
      have hsplit := awake_waiters s
      have hsplitAfter := awake_waiters (s.setPc woken .notified)
      have hlength : (s.setPc woken .notified).m_vThread.length = s.m_vThread.length :=
        List.length_set
      simp only [isWaiting, if_true, Bool.false_eq_true, if_false] at hmoved
      constructor
      · exact hlength.trans hinv.workers
      · exact hinv.running
      · exact mutual_same hinv.exclusive hwaiting rfl
      · intro hmem
        rcases List.mem_or_eq_of_mem_set hmem with hbefore | hnew
        · exact absurd hbefore hnobody
        · cases hnew
      · intro hmem
        rcases List.mem_or_eq_of_mem_set hmem with hbefore | hnew
        · exact hinv.stays hbefore
        · cases hnew
      · intro hwaiters
        have hbefore := hinv.enough (by omega)
        show (s.m_listWaite ++ [pMailBox]).length ≤ (s.setPc woken .notified).awake
        rw [List.length_append, List.length_singleton]
        omega
    · cases hnotify

theorem wakeInv_step {s t : SchedulerState Box} {a : SchedulerAction Box}
    (hinv : s.destroy = .notCalled -> WakeInv iMaxThreadNum s) (hstep : step s a = some t)
    (hdestroy : t.destroy = .notCalled) : WakeInv iMaxThreadNum t := by
  cases a with
  | thread i IsHandling =>
      rcases Option.bind_eq_some_iff.mp hstep with ⟨pc, hpc, hthread⟩
      have hsame := (threadStep_cases hpc hthread).left
      exact wakeInv_thread (hinv (hsame.symm.trans hdestroy)) hpc hthread
  | spurious i =>
      simp only [step] at hstep
      split at hstep
      · rename_i hwaiting
        cases hstep
        have hbefore := hinv hdestroy
        exact wakeInv_moved hbefore hwaiting rfl rfl (mutual_same hbefore.exclusive hwaiting rfl)
          (Nat.le_refl _) (by simp) (by simp)
      · cases hstep
  | callSchedule pMailBox =>
      simp only [step] at hstep
      split at hstep
      · rename_i hnotCalled
        cases hstep
        have hbefore := hinv hnotCalled
        exact
          { workers := hbefore.workers,
            running := hbefore.running,
            exclusive := hbefore.exclusive,
            nothing := hbefore.nothing,
            stays := hbefore.stays,
            enough := hbefore.enough }
      · cases hstep
  | Schedule k woken =>
      simp only [step] at hstep
      split at hstep
      · cases hstep
      · split at hstep
        · rename_i hfree
          have hsame := (notifyOne_spec hstep).left
          exact wakeInv_schedule (hinv (hsame.symm.trans hdestroy)) hfree hstep
        · cases hstep
  | storeRuning =>
      simp only [step] at hstep
      split at hstep
      · cases hstep
        cases hdestroy
      · cases hstep
  | notifyAll =>
      simp only [step] at hstep
      split at hstep
      · cases hstep
        cases hdestroy
      · cases hstep
  | join =>
      simp only [step] at hstep
      split at hstep
      · split at hstep
        · cases hstep
          cases hdestroy
        · cases hstep
      · cases hstep

/-!
# A worker that comes to the list

From wherever it stands a worker that is not waiting needs at most five steps, none of which
another worker can prevent while the mutex is free or its own.
-/

/-- The worker takes the mailbox that `Pop` returns for the list as it is. -/
def Takes (s : SchedulerState Box) (i : Nat) (IsHandling : Nat -> Box -> Bool) (n : Nat) :
    Prop :=
  exists pBox t, Run step s (List.replicate n (.thread i IsHandling)) = some t ∧
    t.m_vThread[i]? = some (.processing pBox) ∧
    SchedulerSemaphore.Pop IsHandling s.m_listWaite = (some pBox, t.m_listWaite)

section Worker

variable {s u : SchedulerState Box} {i : Nat} {IsHandling : Nat -> Box -> Bool}

theorem setPc_here {old : ThreadFuncPc Box} (hold : s.m_vThread[i]? = some old)
    (pc : ThreadFuncPc Box) : (s.m_vThread.set i pc)[i]? = some pc :=
  List.getElem?_set_self (List.getElem?_eq_some_iff.mp hold).choose

theorem takes_after {n : Nat} (hstep : step s (.thread i IsHandling) = some u)
    (hlist : u.m_listWaite = s.m_listWaite) (htakes : Takes u i IsHandling n) :
    Takes s i IsHandling (n + 1) := by
  rcases htakes with ⟨pBox, t, hrun, hprocessing, hpop⟩
  rw [hlist] at hpop
  exact ⟨pBox, t, (run_cons_of_step _ hstep).trans hrun, hprocessing, hpop⟩

theorem step_thread {pc : ThreadFuncPc Box} (hpc : s.m_vThread[i]? = some pc)
    (hthread : s.threadStep i IsHandling pc = some u) :
    step s (.thread i IsHandling) = some u :=
  Option.bind_eq_some_iff.mpr ⟨pc, hpc, hthread⟩

theorem takes_scanning (hpc : s.m_vThread[i]? = some .scanning)
    (hfinds : (SchedulerSemaphore.Pop IsHandling s.m_listWaite).1 ≠ none) :
    Takes s i IsHandling 1 := by
  rcases Option.ne_none_iff_exists'.mp hfinds with ⟨pBox, hgot⟩
  refine ⟨pBox, _, run_cons_of_step [] (step_thread hpc rfl), ?_, ?_⟩
  · simp only [hgot]
    exact setPc_here hpc _
  · rw [← hgot]

theorem takes_locked (hpc : s.m_vThread[i]? = some .locked)
    (hfinds : (SchedulerSemaphore.Pop IsHandling s.m_listWaite).1 ≠ none) :
    Takes s i IsHandling 2 := by
  have hne : s.m_listWaite.isEmpty = false := by
    cases hlist : s.m_listWaite with
    | nil =>
        rw [hlist] at hfinds
        exact absurd rfl hfinds
    | cons pMailBox rest => rfl
  have hstep : step s (.thread i IsHandling) = some (s.setPc i .scanning) := by
    apply step_thread hpc
    rw [threadStep, hne]
    rfl
  exact takes_after hstep rfl (takes_scanning (setPc_here hpc _) hfinds)

theorem takes_lock (hpc : s.m_vThread[i]? = some .lock) (hfree : s.m_Mutex = none)
    (hfinds : (SchedulerSemaphore.Pop IsHandling s.m_listWaite).1 ≠ none) :
    Takes s i IsHandling 3 := by
  have hstep : step s (.thread i IsHandling) =
      some { s.setPc i .locked with m_Mutex := some i } := step_thread hpc (if_pos hfree)
  exact takes_after hstep rfl (takes_locked (setPc_here hpc _) hfinds)

theorem takes_notified (hpc : s.m_vThread[i]? = some .notified) (hfree : s.m_Mutex = none)
    (hfinds : (SchedulerSemaphore.Pop IsHandling s.m_listWaite).1 ≠ none) :
    Takes s i IsHandling 2 := by
  have hstep : step s (.thread i IsHandling) =
      some { s.setPc i .scanning with m_Mutex := some i } := step_thread hpc (if_pos hfree)
  exact takes_after hstep rfl (takes_scanning (setPc_here hpc _) hfinds)

theorem takes_test (hpc : s.m_vThread[i]? = some .test) (hrunning : s.m_bRuning = true)
    (hfree : s.m_Mutex = none)
    (hfinds : (SchedulerSemaphore.Pop IsHandling s.m_listWaite).1 ≠ none) :
    Takes s i IsHandling 4 := by
  have hstep : step s (.thread i IsHandling) = some (s.setPc i .lock) := by
    apply step_thread hpc
    rw [threadStep, hrunning]
    rfl
  exact takes_after hstep rfl (takes_lock (setPc_here hpc _) hfree hfinds)

theorem takes_processing {pBox : Box} (hpc : s.m_vThread[i]? = some (.processing pBox))
    (hrunning : s.m_bRuning = true) (hfree : s.m_Mutex = none)
    (hfinds : (SchedulerSemaphore.Pop IsHandling s.m_listWaite).1 ≠ none) :
    Takes s i IsHandling 5 := by
  have hstep : step s (.thread i IsHandling) = some (s.setPc i .test) := step_thread hpc rfl
  exact takes_after hstep rfl (takes_test (setPc_here hpc _) hrunning hfree hfinds)

end Worker

theorem somebody_takes {s : SchedulerState Box} {IsHandling : Nat -> Box -> Bool}
    (hinv : WakeInv iMaxThreadNum s) (hthreads : s.m_vThread ≠ [])
    (hfinds : (SchedulerSemaphore.Pop IsHandling s.m_listWaite).1 ≠ none) :
    exists i n, n ≤ 5 ∧ Takes s i IsHandling n := by
  have hlist : s.m_listWaite ≠ [] := by
    intro hempty
    rw [hempty] at hfinds
    exact hfinds rfl
  cases howner : s.m_Mutex with
  | some i =>
      have hlive := hinv.exclusive.owner i howner
      have hget := List.getElem?_eq_getElem hlive
      have hheld := (hinv.exclusive.inside i _ hget).mpr howner
      cases hpc : s.m_vThread[i] with
      | locked =>
          rw [hpc] at hget
          exact ⟨i, 2, by omega, takes_locked hget hfinds⟩
      | toWait =>
          rw [hpc] at hget
          exact absurd (hinv.nothing (List.mem_of_getElem? hget)) hlist
      | scanning =>
          rw [hpc] at hget
          exact ⟨i, 1, by omega, takes_scanning hget hfinds⟩
      | _ =>
          rw [hpc] at hheld
          cases hheld
  | none =>
      have hawake : 0 < s.awake := by
        have hsplit := awake_waiters s
        have hsome := List.length_pos_iff.mpr hthreads
        by_cases hwaiters : s.waiters = 0
        · omega
        · exact Nat.lt_of_lt_of_le (List.length_pos_iff.mpr hlist) (hinv.enough hwaiters)
      rcases List.countP_pos_iff.mp hawake with ⟨pc, hmem, hpc⟩
      rcases List.mem_iff_getElem?.mp hmem with ⟨i, hget⟩
      have hout := hinv.exclusive.inside i pc hget
      rw [howner] at hout
      cases pc with
      | test => exact ⟨i, 4, by omega, takes_test hget hinv.running howner hfinds⟩
      | lock => exact ⟨i, 3, by omega, takes_lock hget howner hfinds⟩
      | notified => exact ⟨i, 2, by omega, takes_notified hget howner hfinds⟩
      | processing pBox =>
          exact ⟨i, 5, by omega, takes_processing hget hinv.running howner hfinds⟩
      | waiting => cases hpc
      | exited => exact absurd hmem hinv.stays
      | _ => cases hout.mp rfl

/-!
# Whole runs
-/

/-- While the scheduler runs a worker sleeps only where as many workers are awake as mailboxes
wait, and a mailbox that is not handling never waits for a notification. -/
theorem workers_woken {actions : List (SchedulerAction Box)}
    {s : SchedulerState Box} (hrun : Run step (init iMaxThreadNum) actions = some s)
    (hdestroy : s.destroy = .notCalled) :
    (s.waiters ≠ 0 -> s.m_listWaite.length ≤ s.awake) ∧
      forall IsHandling pBox, 0 < iMaxThreadNum -> some pBox ∈ s.m_listWaite ->
        (forall n, IsHandling n pBox = false) -> exists i n, n ≤ 5 ∧ Takes s i IsHandling n := by
  have hkeep : forall (u : SchedulerState Box) a v,
      (u.destroy = .notCalled -> WakeInv iMaxThreadNum u) -> True -> step u a = some v ->
        v.destroy = .notCalled -> WakeInv iMaxThreadNum v :=
    fun u a v hu _ hstep => wakeInv_step hu hstep
  have hinv : WakeInv iMaxThreadNum s :=
    run_invariant hkeep (fun _ => wakeInv_init iMaxThreadNum)
      (allSteps_of_labels (fun _ _ _ => trivial) _) hrun hdestroy
  refine ⟨hinv.enough, ?_⟩
  intro IsHandling pBox hpositive hmem hidle
  apply somebody_takes hinv
  · intro hnone
    have hworkers := hinv.workers
    rw [hnone] at hworkers
    exact absurd hworkers (Nat.ne_of_lt hpositive)
  · exact SchedulerSemaphore.pop_finds hmem hidle

/-- Two workers wait when the first of two mailboxes comes. -/
def twoWake : List (SchedulerAction Nat) :=
  [.thread 0 idle, .thread 0 idle, .thread 0 idle, .thread 0 idle, .thread 1 idle,
    .thread 1 idle, .thread 1 idle, .thread 1 idle, .callSchedule (some 7),
    .callSchedule (some 8), .Schedule 0 1]

theorem twoWake_woken :
    exists s : SchedulerState Nat, Run step (init 2) twoWake = some s ∧
      (s.waiters ≠ 0 -> s.m_listWaite.length ≤ s.awake) ∧
        exists i n, n ≤ 5 ∧ Takes s i idle n := by
  refine ⟨_, rfl, ?_⟩
  have hwoken := @workers_woken Nat 2 twoWake _ rfl rfl
  exact ⟨hwoken.left, hwoken.right idle 7 (by decide) (by decide) (fun _ => rfl)⟩

end SchedulerState
end LibActor
end GMServer
