import Mathlib.Data.Fintype.Basic
import GMServer.Library.Amortized
import GMServer.LibActor.MailboxActor

/-!
# Progress of the workers

A message costs the workers at most seven steps besides the `Pop`s that return nothing, and
as long as no handler throws and no scheduled mailbox is without an actor they can stop only
when every accepted message has been handled.
-/

namespace GMServer
namespace LibActor

/-- The steps a worker takes before it is back in `ThreadFunc`, handled messages apart. -/
def WorkerPc.stepsLeft {Box : Type} : WorkerPc Box -> Nat
  | .loop => 0
  | .popped _ => 5
  | .locked _ => 4
  | .swapped _ => 3
  | .begun _ => 2
  | .handling _ => 1

namespace MailboxSystem

open Transition

variable {Worker Box Actor Message : Type}

/-!
# Work

A step of a worker does work unless it is a `Pop` that returns nothing.  A message pushed
has to be handled, and may have its mailbox scheduled.
-/

def Works (s : MailboxState Worker Box Actor Message) :
    MailboxAction Worker Box Actor Message -> Bool
  | .Pop _ IsHandling => (SchedulerSemaphore.Pop IsHandling s.m_listWaite).1.isSome
  | .Lock _ => true
  | .Swap _ => true
  | .OnBegin _ _ => true
  | .StoreUnHanle _ => true
  | .Handle _ _ => true
  | .Release _ => true
  | _ => false

def brings : MailboxAction Worker Box Actor Message -> Nat
  | .PushMsg _ _ => 7
  | .Schedule _ => 6
  | _ => 0

def queued (box : Mailbox Actor Message) : Nat :=
  box.m_listHandle.length + box.m_listRecive.length

def workLeft [Fintype Worker] [Fintype Box] (s : MailboxState Worker Box Actor Message) :
    Nat :=
  6 * s.m_listWaite.countP Option.isSome + (∑ w, (s.pc w).stepsLeft) +
    ∑ b, queued (s.box b)

section Measure

variable [DecidableEq Worker] [DecidableEq Box] [Fintype Worker] [Fintype Box]

omit [DecidableEq Worker] [DecidableEq Box] in
theorem workLeft_init (m_pScheduler : Nat) (actors : Box -> Option Actor) :
    workLeft (init m_pScheduler actors : MailboxState Worker Box Actor Message) = 0 := by
  simp [workLeft, init, queued, Mailbox.new, WorkerPc.stepsLeft]

omit [DecidableEq Worker] in
theorem work_of_pushed {s : MailboxState Worker Box Actor Message} {b : Box}
    {pMsg : Option Message} {out : Mailbox.PushOutcome Actor Message}
    (hout : (s.box b).PushMsg pMsg = .ok out) :
    workLeft (pushed s b pMsg out) ≤ workLeft s + 7 := by
  have hboxes := sum_weight_update queued s.box b out.box
  have hqueued : queued out.box ≤ queued (s.box b) + 1 := by
    rcases Mailbox.pushMsg_cases hout with ⟨_, hEq⟩ | ⟨_, hEq⟩
    · rw [hEq]
      exact Nat.le_succ _
    · rw [hEq]
      simp only [queued, List.length_append, List.length_singleton]
      omega
  have hwaite : (pushed s b pMsg out).m_listWaite.countP Option.isSome ≤
      s.m_listWaite.countP Option.isSome + 1 := by
    simp only [pushed, SchedulerSemaphore.Schedule]
    split
    · rw [List.countP_append]
      exact Nat.le_refl _
    · exact Nat.le_succ _
  unfold workLeft
  simp only [pushed] at hwaite ⊢
  omega

omit [DecidableEq Box] in
theorem work_of_popped {s : MailboxState Worker Box Actor Message} {w : Worker}
    {IsHandling : Nat -> Box -> Bool} (hpc : s.pc w = .loop) :
    (if Works s (.Pop w IsHandling) then 1 else 0) + workLeft (popped s w IsHandling) ≤
      workLeft s := by
  have htaken := SchedulerSemaphore.pop_scheduled IsHandling s.m_listWaite
  have hworkers := sum_weight_update WorkerPc.stepsLeft s.pc w
    ((popped s w IsHandling).pc w)
  have hpcs : (popped s w IsHandling).pc =
      Function.update s.pc w ((popped s w IsHandling).pc w) := by
    simp [popped]
  have hnext : ((popped s w IsHandling).pc w).stepsLeft =
      if (SchedulerSemaphore.Pop IsHandling s.m_listWaite).1.isSome then 5 else 0 := by
    simp only [popped, Function.update_self]
    cases (SchedulerSemaphore.Pop IsHandling s.m_listWaite).1 <;> rfl
  have hloop : (WorkerPc.loop : WorkerPc Box).stepsLeft = 0 := rfl
  rw [hpc, hnext, hloop, ← hpcs] at hworkers
  have hwaite : (popped s w IsHandling).m_listWaite =
      (SchedulerSemaphore.Pop IsHandling s.m_listWaite).2 := rfl
  have hboxes : (popped s w IsHandling).box = s.box := rfl
  unfold workLeft Works
  rw [hwaite, hboxes]
  by_cases hgot : (SchedulerSemaphore.Pop IsHandling s.m_listWaite).1.isSome = true
  · rw [if_pos hgot] at htaken hworkers ⊢
    omega
  · rw [if_neg hgot] at htaken hworkers ⊢
    omega

/-- A worker moves on, with or without a change of its mailbox. -/
theorem work_of_moved {s t : MailboxState Worker Box Actor Message} {w : Worker} {b : Box}
    {next : WorkerPc Box} {box : Mailbox Actor Message}
    (hwaite : t.m_listWaite = s.m_listWaite) (hpc : t.pc = Function.update s.pc w next)
    (hbox : t.box = Function.update s.box b box)
    (hless : next.stepsLeft + queued box < (s.pc w).stepsLeft + queued (s.box b)) :
    1 + workLeft t ≤ workLeft s := by
  have hworkers := sum_weight_update WorkerPc.stepsLeft s.pc w next
  have hboxes := sum_weight_update queued s.box b box
  unfold workLeft
  rw [hwaite, hpc, hbox]
  omega

theorem work_of_left {s : MailboxState Worker Box Actor Message} {w : Worker} {b : Box}
    (hless : 0 < (s.pc w).stepsLeft) : 1 + workLeft (leave s w b) ≤ workLeft s := by
  refine work_of_moved (w := w) (b := b) rfl rfl (Function.update_eq_self b s.box).symm ?_
  simpa [WorkerPc.stepsLeft] using hless

theorem work_step {s t : MailboxState Worker Box Actor Message}
    {a : MailboxAction Worker Box Actor Message} (hstep : step s a = some t) :
    (if Works s a then 1 else 0) + workLeft t ≤ workLeft s + brings a := by
  cases step_sound hstep with
  | push hout =>
      simpa [Works, brings] using work_of_pushed hout
  | schedule pMailBox =>
      have hadded : [pMailBox].countP Option.isSome ≤ 1 := List.countP_le_length
      simp only [Works, brings, workLeft, SchedulerSemaphore.Schedule, List.countP_append,
        Bool.false_eq_true, if_false]
      omega
  | register b pActor =>
      have hboxes := sum_weight_update queued s.box b ((s.box b).RegisterActor pActor)
      have hsame : queued ((s.box b).RegisterActor pActor) = queued (s.box b) := rfl
      simp only [Works, brings, workLeft, setBox, Bool.false_eq_true, if_false]
      omega
  | unRegister hfree =>
      rename_i b
      have hboxes := sum_weight_update queued s.box b (s.box b).UnRegisterActor
      have hfewer : queued (s.box b).UnRegisterActor ≤ queued (s.box b) :=
        Nat.add_le_add_left (Nat.zero_le _) _
      simp only [Works, brings, workLeft, setBox, Bool.false_eq_true, if_false]
      omega
  | pop IsHandling hpc => exact work_of_popped hpc
  | lock hpc hfree =>
      rename_i w b
      show 1 + workLeft (locked s w b) ≤ workLeft s
      refine work_of_moved (w := w) (b := b) rfl rfl (Function.update_eq_self b s.box).symm ?_
      simp [hpc, WorkerPc.stepsLeft]
  | swap hpc =>
      rename_i w b
      show 1 + workLeft (setPc (setBox s b _) w (.swapped b)) ≤ workLeft s
      refine work_of_moved (w := w) (b := b) rfl rfl rfl ?_
      simp [hpc, WorkerPc.stepsLeft, queued, Nat.add_comm]
  | onBegin hpc hactor =>
      rename_i w b
      show 1 + workLeft (setPc s w (.begun b)) ≤ workLeft s
      refine work_of_moved (w := w) (b := b) rfl rfl (Function.update_eq_self b s.box).symm ?_
      simp [hpc, WorkerPc.stepsLeft]
  | onBeginThrows hpc hactor => exact work_of_left (by simp [hpc, WorkerPc.stepsLeft])
  | storeUnHanle hpc =>
      rename_i w b
      show 1 + workLeft (setPc (setBox s b _) w (.handling b)) ≤ workLeft s
      refine work_of_moved (w := w) (b := b) rfl rfl rfl ?_
      simp [hpc, WorkerPc.stepsLeft, queued]
  | handle hpc hlist hactor =>
      rename_i w b pMsg rest
      show 1 + workLeft (consumed s b pMsg) ≤ workLeft s
      refine work_of_moved (w := w) (b := b) rfl (Function.update_eq_self w s.pc).symm rfl ?_
      simp [queued, hlist]
  | handleThrows hpc hlist hactor => exact work_of_left (by simp [hpc, WorkerPc.stepsLeft])
  | release hpc hlist hactor => exact work_of_left (by simp [hpc, WorkerPc.stepsLeft])

end Measure

/-!
# Workers on their own

No other thread acts, a `Pop` sees the mailboxes as they are, and no handler throws.
-/

def Alone (s : MailboxState Worker Box Actor Message) :
    MailboxAction Worker Box Actor Message -> Prop
  | .Pop w IsHandling =>
      Works s (.Pop w IsHandling) = true ∧ IsHandling = fun _ b => (s.box b).IsHandling
  | .Lock _ => True
  | .Swap _ => True
  | .OnBegin _ throws => throws = false
  | .StoreUnHanle _ => True
  | .Handle _ throws => throws = false
  | .Release _ => True
  | _ => False

theorem alone_works {s : MailboxState Worker Box Actor Message}
    {a : MailboxAction Worker Box Actor Message} (h : Alone s a) :
    Works s a = true ∧ brings a = 0 := by
  cases a with
  | Pop w IsHandling => exact ⟨h.left, rfl⟩
  | PushMsg b pMsg => cases h
  | Schedule pMailBox => cases h
  | RegisterActor b pActor => cases h
  | UnRegisterActor b => cases h
  | _ => exact ⟨rfl, rfl⟩

theorem alone_keeps {s : MailboxState Worker Box Actor Message}
    {a : MailboxAction Worker Box Actor Message} (h : Alone s a) (b : Box) :
    HandlersReturn b s a ∧ QuietRemovals s a := by
  cases a with
  | PushMsg b pMsg => cases h
  | Schedule pMailBox => cases h
  | RegisterActor b pActor => cases h
  | UnRegisterActor b => cases h
  | OnBegin w throws =>
      have hreturns : throws = false := h
      rw [hreturns]
      exact ⟨⟨by simp, fun _ hthrows => by cases hthrows⟩, trivial⟩
  | Handle w throws =>
      have hreturns : throws = false := h
      rw [hreturns]
      exact ⟨⟨by simp, fun _ hthrows => by cases hthrows⟩, trivial⟩
  | _ => exact ⟨⟨by simp, fun _ hthrows => hthrows⟩, trivial⟩

variable [DecidableEq Worker] [DecidableEq Box]

theorem alone_accepted {s t : MailboxState Worker Box Actor Message}
    {a : MailboxAction Worker Box Actor Message} (h : Alone s a)
    (hstep : step s a = some t) : t.accepted = s.accepted := by
  cases step_sound hstep with
  | push hout => cases h
  | schedule pMailBox => cases h
  | register b pActor => cases h
  | unRegister hfree => cases h
  | _ => rfl

/-!
# What an idle state is like

Wherever a worker can stand inside `Process` its next step is enabled, so in an idle state
all workers are in `ThreadFunc`, and none of the mailboxes waiting can be popped.
-/

theorem idle_outside {s : MailboxState Worker Box Actor Message}
    (hscheduled : ScheduledInv s) (hidle : Idle step Alone s) (w : Worker) (b : Box) :
    ¬ (s.pc w).Holds b := by
  intro hholds
  have hactor : (s.pc w).target = some b -> exists pActor,
      (s.box b).m_pActor = some pActor := by
    intro htarget
    exact Option.ne_none_iff_exists'.mp (hscheduled.actor b (Or.inr ⟨w, htarget⟩))
  rcases hholds with hpc | hpc | hpc | hpc
  · have hswap := hidle (.Swap w) trivial
    simp [step, hpc] at hswap
  · rcases hactor (target_of_pc hpc rfl) with ⟨pActor, hactor⟩
    have hbegin := hidle (.OnBegin w false) rfl
    simp [step, hpc, hactor] at hbegin
  · have hstore := hidle (.StoreUnHanle w) trivial
    simp [step, hpc] at hstore
  · rcases hactor (target_of_pc hpc rfl) with ⟨pActor, hactor⟩
    cases hlist : (s.box b).m_listHandle with
    | nil =>
        have hrelease := hidle (.Release w) trivial
        simp [step, hpc, hlist, hactor] at hrelease
    | cons pMsg rest =>
        have hhandle := hidle (.Handle w false) rfl
        cases pMsg <;> simp [step, hpc, hlist, hactor] at hhandle

theorem idle_mutex {s : MailboxState Worker Box Actor Message}
    (hscheduled : ScheduledInv s) (hidle : Idle step Alone s) (b : Box) :
    s.m_ActorMutex b = none := by
  cases howner : s.m_ActorMutex b with
  | none => rfl
  | some w => exact absurd ((hscheduled.lock b w).mp howner) (idle_outside hscheduled hidle w b)

theorem idle_loop {s : MailboxState Worker Box Actor Message}
    (hscheduled : ScheduledInv s) (hidle : Idle step Alone s) (w : Worker) :
    s.pc w = .loop := by
  have houtside := idle_outside hscheduled hidle w
  cases hpc : s.pc w with
  | loop => rfl
  | popped b =>
      have hlock := hidle (.Lock w) trivial
      simp [step, hpc, idle_mutex hscheduled hidle b] at hlock
  | locked b => exact absurd (Or.inl hpc) (houtside b)
  | swapped b => exact absurd (Or.inr (Or.inl hpc)) (houtside b)
  | begun b => exact absurd (Or.inr (Or.inr (Or.inl hpc))) (houtside b)
  | handling b => exact absurd (Or.inr (Or.inr (Or.inr hpc))) (houtside b)

theorem idle_not_scheduled [Nonempty Worker] {s : MailboxState Worker Box Actor Message}
    (hscheduled : ScheduledInv s) (hidle : Idle step Alone s) {b : Box}
    (hfree : (s.box b).IsHandling = false) : some b ∉ s.m_listWaite := by
  intro hmem
  rcases ‹Nonempty Worker› with ⟨w⟩
  have hfinds : (SchedulerSemaphore.Pop (fun _ b => (s.box b).IsHandling)
      s.m_listWaite).1 ≠ none := SchedulerSemaphore.pop_finds hmem (fun _ => hfree)
  have hpop := hidle (.Pop w (fun _ b => (s.box b).IsHandling))
    ⟨Option.isSome_iff_ne_none.mpr hfinds, rfl⟩
  simp [step, idle_loop hscheduled hidle w] at hpop

theorem idle_handled [Nonempty Worker] {s : MailboxState Worker Box Actor Message} {b : Box}
    (hbox : BoxInv s b) (hscheduled : ScheduledInv s) (hidle : Idle step Alone s) :
    s.handled b = s.accepted b := by
  have hdrained := hbox.idle (idle_mutex hscheduled hidle b)
  have hrecive : (s.box b).m_listRecive = [] := by
    by_contra hne
    rcases hbox.woken hne with hwaite | ⟨w, hhand⟩
    · exact idle_not_scheduled hscheduled hidle hdrained.right hwaite
    · simp [WorkerPc.InHand, idle_loop hscheduled hidle w] at hhand
  have hfifo := hbox.fifo
  rw [hdrained.left, hrecive, List.append_nil, List.append_nil] at hfifo
  exact hfifo.symm

/-!
# Whole runs
-/

structure ProgressInv (b : Box) (s : MailboxState Worker Box Actor Message) : Prop where
  box : BoxInv s b
  scheduled : ScheduledInv s

theorem progressInv_step {s t : MailboxState Worker Box Actor Message} {b : Box}
    {a : MailboxAction Worker Box Actor Message} (hinv : ProgressInv b s)
    (hok : HandlersReturn b s a ∧ QuietRemovals s a) (hstep : step s a = some t) :
    ProgressInv b t where
  box := by
    apply boxInv_step hinv.scheduled.lock hinv.box hok.left.left _ (step_sound hstep)
    intro hthrows hacts
    exact absurd hthrows (hok.left.right hacts)
  scheduled := scheduledInv_step hinv.scheduled hok.right hstep

/-- The workers of a run take no more steps than the messages are worth, and where they are
idle, or come to be idle when they are left alone, all that was accepted has been handled. -/
theorem mailbox_drains [Fintype Worker] [Fintype Box] [Nonempty Worker] {m_pScheduler : Nat}
    {actors : Box -> Option Actor} {b : Box}
    {actions : List (MailboxAction Worker Box Actor Message)}
    {s : MailboxState Worker Box Actor Message}
    (hok : AllSteps step (fun u a => HandlersReturn b u a ∧ QuietRemovals u a)
      (init m_pScheduler actors) actions)
    (hrun : Run step (init m_pScheduler actors) actions = some s) :
    countSteps step Works (init m_pScheduler actors) actions ≤ (actions.map brings).sum ∧
      (Idle step Alone s -> s.handled b = s.accepted b) ∧
      exists more t, AllSteps step Alone s more ∧ Run step s more = some t ∧
        t.accepted = s.accepted ∧ t.handled b = s.accepted b := by
  have hstart : ProgressInv b
      (init m_pScheduler actors : MailboxState Worker Box Actor Message) :=
    ⟨boxInv_init m_pScheduler actors b, scheduledInv_init m_pScheduler actors⟩
  have hinv : ProgressInv b s :=
    run_invariant (fun _ _ _ hu hok hstep => progressInv_step hu hok hstep) hstart hok hrun
  refine ⟨?_, idle_handled hinv.box hinv.scheduled, ?_⟩
  · have hwork := run_work (fun _ _ _ hstep => work_step hstep) hrun
    rw [workLeft_init, Nat.zero_add] at hwork
    exact Nat.le_trans (Nat.le_add_right _ _) hwork
  · have hless : forall (u : MailboxState Worker Box Actor Message) a v, Alone u a ->
        step u a = some v -> workLeft v < workLeft u := by
      intro u a v halone hstep
      have hwork := work_step hstep
      rw [if_pos (alone_works halone).left, (alone_works halone).right] at hwork
      omega
    rcases run_to_idle hless s with ⟨more, t, halone, hmore, hidle⟩
    have hkeep : forall (u : MailboxState Worker Box Actor Message) a v,
        ProgressInv b u ∧ u.accepted = s.accepted -> Alone u a -> step u a = some v ->
          ProgressInv b v ∧ v.accepted = s.accepted := by
      intro u a v hu halone hstep
      exact ⟨progressInv_step hu.left (alone_keeps halone b) hstep,
        (alone_accepted halone hstep).trans hu.right⟩
    have hafter := run_invariant hkeep ⟨hinv, rfl⟩ halone hmore
    refine ⟨more, t, halone, hmore, hafter.right, ?_⟩
    rw [idle_handled hafter.left.box hafter.left.scheduled hidle, hafter.right]

/-- A second message is pushed while one of two workers handles the first one. -/
def pushedMeanwhile : List (MailboxAction (Fin 2) (Fin 1) Nat Nat) :=
  [.PushMsg 0 (some 10), .Pop 0 (fun _ _ => false), .Lock 0, .Swap 0,
    .PushMsg 0 (some 11), .OnBegin 0 false, .StoreUnHanle 0, .Pop 1 (fun _ _ => true)]

theorem pushedMeanwhile_drains :
    let s := (Run step (init 0 (fun _ => some 7)) pushedMeanwhile).get (by rfl)
    countSteps step Works (init 0 (fun _ => some 7)) pushedMeanwhile ≤
        (pushedMeanwhile.map brings).sum ∧
      (Idle step Alone s -> s.handled 0 = s.accepted 0) ∧
      exists more t, AllSteps step Alone s more ∧ Run step s more = some t ∧
        t.accepted = s.accepted ∧ t.handled 0 = s.accepted 0 :=
  mailbox_drains
    (allSteps_of_labels (by simp [pushedMeanwhile, HandlersReturn, QuietRemovals, Throws]) _)
    (Option.some_get _).symm

end MailboxSystem
end LibActor
end GMServer
