import GMServer.LibActor.MailboxDelivery

/-!
# The actor under `Process`

`Process` calls through `m_pActor` without testing it.  `UnRegisterActor` waits
for `m_ActorMutex`, so the pointer cannot become null inside `Process`; but it
leaves the copies of the mailbox that are still scheduled, and the worker that
pops one of them later enters `Process` with no actor.
-/

namespace GMServer
namespace LibActor

/-- The worker is between the swap of `Process` and its release of the lock. -/
def WorkerPc.Swapped {Box : Type} (pc : WorkerPc Box) (b : Box) : Prop :=
  pc = .swapped b ∨ pc = .begun b ∨ pc = .handling b

theorem WorkerPc.popped_or_holds {Box : Type} {pc : WorkerPc Box} {b : Box}
    (h : pc.target = some b) : pc = .popped b ∨ pc.Holds b := by
  cases pc with
  | loop => cases h
  | popped c =>
      cases h
      exact Or.inl rfl
  | locked c =>
      cases h
      exact Or.inr (Or.inl rfl)
  | swapped c =>
      cases h
      exact Or.inr (Or.inr (Or.inl rfl))
  | begun c =>
      cases h
      exact Or.inr (Or.inr (Or.inr (Or.inl rfl)))
  | handling c =>
      cases h
      exact Or.inr (Or.inr (Or.inr (Or.inr rfl)))

namespace MailboxSystem

open Transition

variable {Worker Box Actor Message : Type}

/-!
# Calls through the actor

The next thing a worker does is such a call right after the swap
(`OnBeginMsgHandle`), at a message that is not null (`Handle`), and when the
list has run empty (`OnEndMsgHandle`).
-/

def AtActorCall (s : MailboxState Worker Box Actor Message) (w : Worker)
    (b : Box) : Prop :=
  s.pc w = .swapped b ∨
    (s.pc w = .handling b ∧
      ((s.box b).m_listHandle = [] ∨
        exists msg rest, (s.box b).m_listHandle = some msg :: rest))

def NullActorCall (s : MailboxState Worker Box Actor Message) : Prop :=
  exists w b, AtActorCall s w b ∧ (s.box b).m_pActor = none

/-!
# The condition on the swap

While the lock is held the pointer does not change to null, so whether a call
goes through a null pointer is decided when `Process` swaps the lists.
-/

def SwapsRegistered (s : MailboxState Worker Box Actor Message) :
    MailboxAction Worker Box Actor Message -> Prop
  | .Swap w => forall b, s.pc w = .locked b -> (s.box b).m_pActor ≠ none
  | _ => True

structure SwappedInv (s : MailboxState Worker Box Actor Message) : Prop where
  lock : LockInv s
  actor : forall w b, (s.pc w).Swapped b -> (s.box b).m_pActor ≠ none

theorem swappedInv_init (m_pScheduler : Nat) (actors : Box -> Option Actor) :
    SwappedInv (init m_pScheduler actors :
      MailboxState Worker Box Actor Message) where
  lock := lockInv_init m_pScheduler actors
  actor w b hpc := by
    simp [init, WorkerPc.Swapped] at hpc

theorem swapped_holds {pc : WorkerPc Box} {b : Box} (h : pc.Swapped b) :
    pc.Holds b := Or.inr h

theorem atActorCall_swapped {s : MailboxState Worker Box Actor Message}
    {w : Worker} {b : Box} (h : AtActorCall s w b) : (s.pc w).Swapped b := by
  rcases h with hswapped | ⟨hhandling, _⟩
  · exact Or.inl hswapped
  · exact Or.inr (Or.inr hhandling)

theorem swappedInv_no_null {s : MailboxState Worker Box Actor Message}
    (hinv : SwappedInv s) : ¬ NullActorCall s := by
  intro ⟨w, b, hcall, hnull⟩
  exact hinv.actor w b (atActorCall_swapped hcall) hnull

variable [DecidableEq Worker] [DecidableEq Box]

/-- Only `UnRegisterActor` takes a registered actor away. -/
theorem actor_kept {s t : MailboxState Worker Box Actor Message}
    {a : MailboxAction Worker Box Actor Message} {b : Box}
    (hstep : Step s a t) (hne : a ≠ .UnRegisterActor b)
    (hactor : (s.box b).m_pActor ≠ none) : (t.box b).m_pActor ≠ none := by
  have hupdate : forall (c : Box) (box : Mailbox Actor Message),
      (c = b -> box.m_pActor ≠ none) ->
      (Function.update s.box c box b).m_pActor ≠ none := by
    intro c box hbox
    by_cases hc : b = c
    · rw [hc, Function.update_self]
      exact hbox hc.symm
    · rw [Function.update_of_ne hc]
      exact hactor
  cases hstep with
  | push hout =>
      apply hupdate
      intro hself
      cases hself
      rcases Mailbox.pushMsg_cases hout with ⟨hnone, _⟩ | ⟨_, hEq⟩
      · exact absurd hnone hactor
      · rw [hEq]
        exact hactor
  | schedule pMailBox => exact hactor
  | register c pActor => exact hupdate c _ (fun _ => by simp)
  | unRegister hfree =>
      rename_i c
      exact hupdate c _ (fun hc => absurd (by rw [hc]) hne)
  | pop IsHandling hpc => exact hactor
  | lock hpc hfree => exact hactor
  | swap hpc =>
      apply hupdate
      intro hself
      cases hself
      exact hactor
  | onBegin hpc _ => exact hactor
  | onBeginThrows hpc _ => exact hactor
  | storeUnHanle hpc =>
      apply hupdate
      intro hself
      cases hself
      exact hactor
  | handle hpc hlist _ =>
      apply hupdate
      intro hself
      cases hself
      exact hactor
  | handleThrows hpc hlist _ => exact hactor
  | release hpc hlist _ => exact hactor

/-- A worker past the swap was there before, or has just swapped. -/
theorem swapped_before {s t : MailboxState Worker Box Actor Message}
    {a : MailboxAction Worker Box Actor Message} {w : Worker} {b : Box}
    (hstep : Step s a t) (hpc : (t.pc w).Swapped b) :
    (s.pc w).Swapped b ∨ (a = .Swap w ∧ s.pc w = .locked b) := by
  have hmoved : forall {w' : Worker} {next : WorkerPc Box},
      (Function.update s.pc w' next w).Swapped b ->
      (w = w' -> next.Swapped b -> (s.pc w).Swapped b) -> (s.pc w).Swapped b := by
    intro w' next hafter hown
    by_cases hw : w = w'
    · subst hw
      rw [Function.update_self] at hafter
      exact hown rfl hafter
    · rw [Function.update_of_ne hw] at hafter
      exact hafter
  cases hstep with
  | push _ => exact Or.inl hpc
  | schedule _ => exact Or.inl hpc
  | register _ _ => exact Or.inl hpc
  | unRegister _ => exact Or.inl hpc
  | pop IsHandling hloop =>
      apply Or.inl
      apply hmoved hpc
      intro _ hnext
      cases hgot : (SchedulerSemaphore.Pop IsHandling s.m_listWaite).1 <;>
        simp [hgot, WorkerPc.Swapped] at hnext
  | lock _ _ =>
      apply Or.inl
      apply hmoved hpc
      intro _ hnext
      simp [WorkerPc.Swapped] at hnext
  | swap hlocked =>
      rename_i w' c
      by_cases hw : w = w'
      · subst hw
        have hc : c = b := by
          simpa [setPc, WorkerPc.Swapped] using hpc
        subst hc
        exact Or.inr ⟨rfl, hlocked⟩
      · apply Or.inl
        apply hmoved hpc
        intro hEq
        exact absurd hEq hw
  | onBegin hswapped _ =>
      apply Or.inl
      apply hmoved hpc
      intro hself hnext
      cases hself
      simpa [hswapped, WorkerPc.Swapped] using hnext
  | onBeginThrows _ _ =>
      apply Or.inl
      apply hmoved hpc
      intro _ hnext
      simp [WorkerPc.Swapped] at hnext
  | storeUnHanle hbegun =>
      apply Or.inl
      apply hmoved hpc
      intro hself hnext
      cases hself
      simpa [hbegun, WorkerPc.Swapped] using hnext
  | handle _ _ _ => exact Or.inl hpc
  | handleThrows _ _ _ =>
      apply Or.inl
      apply hmoved hpc
      intro _ hnext
      simp [WorkerPc.Swapped] at hnext
  | release _ _ _ =>
      apply Or.inl
      apply hmoved hpc
      intro _ hnext
      simp [WorkerPc.Swapped] at hnext

theorem swappedInv_step {s t : MailboxState Worker Box Actor Message}
    {a : MailboxAction Worker Box Actor Message}
    (hinv : SwappedInv s) (hswap : SwapsRegistered s a)
    (hstep : step s a = some t) : SwappedInv t := by
  have hsound := step_sound hstep
  refine { lock := lockInv_step hinv.lock hsound, actor := ?_ }
  intro w b hpc
  rcases swapped_before hsound hpc with hbefore | ⟨ha, hlocked⟩
  · refine actor_kept hsound ?_ (hinv.actor w b hbefore)
    intro ha
    cases ha
    -- the removal needs the lock that the worker holds
    cases hsound with
    | unRegister hfree =>
        exact lockInv_free hinv.lock hfree w (swapped_holds hbefore)
  · subst ha
    exact actor_kept hsound (by simp) (hswap b hlocked)

theorem unregistered_swap_calls_null {s t : MailboxState Worker Box Actor Message}
    {a : MailboxAction Worker Box Actor Message}
    (hswap : ¬ SwapsRegistered s a) (hstep : step s a = some t) :
    NullActorCall t := by
  cases step_sound hstep with
  | swap hpc =>
      rename_i w c
      refine ⟨w, c, Or.inl (by simp [setPc]), ?_⟩
      by_contra hactor
      apply hswap
      intro b hb
      rw [hpc] at hb
      cases hb
      simpa [setPc, setBox] using hactor
  | _ => exact absurd trivial hswap

/-!
# Removing actors that nothing is scheduled for

The callers of `UnRegisterActor` can guarantee the condition: a mailbox that is
neither in the wait list nor in the hand of a worker when its actor is removed
is never swapped without an actor.
-/

def QuietRemovals (s : MailboxState Worker Box Actor Message) :
    MailboxAction Worker Box Actor Message -> Prop
  | .UnRegisterActor b =>
      some b ∉ s.m_listWaite ∧ forall w, s.pc w ≠ .popped b
  | .Schedule (some b) => (s.box b).m_pActor ≠ none
  | _ => True

def OnItsWay (s : MailboxState Worker Box Actor Message) (b : Box) : Prop :=
  some b ∈ s.m_listWaite ∨ exists w, (s.pc w).target = some b

structure ScheduledInv (s : MailboxState Worker Box Actor Message) : Prop where
  lock : LockInv s
  actor : forall b, OnItsWay s b -> (s.box b).m_pActor ≠ none

omit [DecidableEq Worker] [DecidableEq Box] in
theorem scheduledInv_init (m_pScheduler : Nat) (actors : Box -> Option Actor) :
    ScheduledInv (init m_pScheduler actors :
      MailboxState Worker Box Actor Message) where
  lock := lockInv_init m_pScheduler actors
  actor b hway := by
    simp [init, OnItsWay, WorkerPc.target] at hway

omit [DecidableEq Worker] [DecidableEq Box] in
theorem quiet_not_onItsWay {s : MailboxState Worker Box Actor Message} {b : Box}
    (hlock : LockInv s) (hfree : s.m_ActorMutex b = none)
    (hquiet : QuietRemovals s (.UnRegisterActor b)) : ¬ OnItsWay s b := by
  intro hway
  rcases hway with hwaite | ⟨w, htarget⟩
  · exact hquiet.left hwaite
  · rcases WorkerPc.popped_or_holds htarget with hpopped | hholds
    · exact hquiet.right w hpopped
    · exact lockInv_free hlock hfree w hholds

omit [DecidableEq Worker] in
theorem onItsWay_pushed {s : MailboxState Worker Box Actor Message} {b c : Box}
    {pMsg : Option Message} {out : Mailbox.PushOutcome Actor Message}
    (hout : (s.box c).PushMsg pMsg = .ok out) (hway : OnItsWay (pushed s c pMsg out) b) :
    OnItsWay s b ∨ (b = c ∧ (s.box c).m_pActor ≠ none) := by
  rcases hway with hwaite | htarget
  · rcases Mailbox.pushMsg_cases hout with ⟨_, hEq⟩ | ⟨hactor, _⟩
    · simp only [pushed, hEq] at hwaite
      exact Or.inl (Or.inl hwaite)
    · by_cases hb : b = c
      · exact Or.inr ⟨hb, hactor⟩
      · simp only [pushed] at hwaite
        split at hwaite
        · rcases List.mem_append.mp hwaite with hold | hnew
          · exact Or.inl (Or.inl hold)
          · simp [hb] at hnew
        · exact Or.inl (Or.inl hwaite)
  · exact Or.inl (Or.inr htarget)

omit [DecidableEq Box] in
theorem onItsWay_popped {s : MailboxState Worker Box Actor Message} {b : Box} {w' : Worker}
    {IsHandling : Nat -> Box -> Bool} (hway : OnItsWay (popped s w' IsHandling) b) :
    OnItsWay s b := by
  rcases hway with hwaite | ⟨w, htarget⟩
  · exact Or.inl (SchedulerSemaphore.pop_leaves_scheduled hwaite)
  · by_cases hw : w = w'
    · subst hw
      simp only [popped, Function.update_self] at htarget
      cases hgot : (SchedulerSemaphore.Pop IsHandling s.m_listWaite).1 with
      | none =>
          simp [hgot, WorkerPc.target] at htarget
      | some c =>
          rw [hgot] at htarget
          cases htarget
          exact Or.inl (SchedulerSemaphore.pop_returns_scheduled hgot)
    · refine Or.inr ⟨w, ?_⟩
      simpa [popped, Function.update_of_ne hw] using htarget

omit [DecidableEq Box] in
/-- A worker that keeps its mailbox or leaves it puts none on its way. -/
theorem target_before {s : MailboxState Worker Box Actor Message} {b : Box} {w' : Worker}
    {next : WorkerPc Box} (hnext : next.target = (s.pc w').target ∨ next.target = none)
    (hexists : exists w, (Function.update s.pc w' next w).target = some b) :
    exists w, (s.pc w).target = some b := by
  rcases hexists with ⟨w, htarget⟩
  refine ⟨w, ?_⟩
  by_cases hw : w = w'
  · subst hw
    rw [Function.update_self] at htarget
    rcases hnext with hsame | hnone
    · rw [← hsame]
      exact htarget
    · rw [hnone] at htarget
      cases htarget
  · rw [Function.update_of_ne hw] at htarget
    exact htarget

/-- A mailbox on its way was there before, or has just been scheduled. -/
theorem onItsWay_before {s t : MailboxState Worker Box Actor Message}
    {a : MailboxAction Worker Box Actor Message} {b : Box}
    (hstep : Step s a t) (hway : OnItsWay t b) :
    OnItsWay s b ∨ (exists pMsg, a = .PushMsg b pMsg ∧ (s.box b).m_pActor ≠ none) ∨
      a = .Schedule (some b) := by
  cases hstep with
  | push hout =>
      rename_i c pMsg out
      rcases onItsWay_pushed hout hway with hbefore | ⟨hsame, hactor⟩
      · exact Or.inl hbefore
      · subst hsame
        exact Or.inr (Or.inl ⟨pMsg, rfl, hactor⟩)
  | schedule pMailBox =>
      rcases hway with hwaite | htarget
      · rcases List.mem_append.mp hwaite with hold | hnew
        · exact Or.inl (Or.inl hold)
        · have hEq : some b = pMailBox := by simpa using hnew
          exact Or.inr (Or.inr (by rw [hEq]))
      · exact Or.inl (Or.inr htarget)
  | register _ _ => exact Or.inl hway
  | unRegister _ => exact Or.inl hway
  | pop IsHandling hloop => exact Or.inl (onItsWay_popped hway)
  | lock hpc _ =>
      exact Or.inl (Or.imp_right (target_before (Or.inl (by rw [hpc]; rfl))) hway)
  | swap hpc =>
      exact Or.inl (Or.imp_right (target_before (Or.inl (by rw [hpc]; rfl))) hway)
  | onBegin hpc _ =>
      exact Or.inl (Or.imp_right (target_before (Or.inl (by rw [hpc]; rfl))) hway)
  | onBeginThrows _ _ =>
      exact Or.inl (Or.imp_right (target_before (Or.inr rfl)) hway)
  | storeUnHanle hpc =>
      exact Or.inl (Or.imp_right (target_before (Or.inl (by rw [hpc]; rfl))) hway)
  | handle _ _ _ => exact Or.inl hway
  | handleThrows _ _ _ =>
      exact Or.inl (Or.imp_right (target_before (Or.inr rfl)) hway)
  | release _ _ _ =>
      exact Or.inl (Or.imp_right (target_before (Or.inr rfl)) hway)

theorem scheduledInv_step {s t : MailboxState Worker Box Actor Message}
    {a : MailboxAction Worker Box Actor Message}
    (hinv : ScheduledInv s) (hquiet : QuietRemovals s a)
    (hstep : step s a = some t) : ScheduledInv t := by
  have hsound := step_sound hstep
  refine { lock := lockInv_step hinv.lock hsound, actor := ?_ }
  intro b hway
  rcases onItsWay_before hsound hway with hbefore | ⟨pMsg, ha, hactor⟩ | ha
  · refine actor_kept hsound ?_ (hinv.actor b hbefore)
    intro ha
    cases ha
    cases hsound with
    | unRegister hfree => exact quiet_not_onItsWay hinv.lock hfree hquiet hbefore
  · subst ha
    exact actor_kept hsound (by simp) hactor
  · subst ha
    exact actor_kept hsound (by simp) hquiet

theorem swapsRegistered_of_quiet {m_pScheduler : Nat} {actors : Box -> Option Actor}
    {actions : List (MailboxAction Worker Box Actor Message)}
    (hquiet : AllSteps step QuietRemovals (init m_pScheduler actors) actions) :
    AllSteps step SwapsRegistered (init m_pScheduler actors) actions := by
  refine allSteps_of_invariant ?_ ?_ (scheduledInv_init m_pScheduler actors) hquiet
  · intro s a t hinv hok hstep
    exact scheduledInv_step hinv hok hstep
  · intro s a hinv _
    cases a with
    | Swap w =>
        intro b hpc
        exact hinv.actor b (Or.inr ⟨w, by rw [hpc]; rfl⟩)
    | _ => trivial

/-!
# Removing an actor while its mailbox is in a worker's hand

The worker needs no help from any other thread to reach the null pointer.
-/

theorem removal_in_hand_calls_null
    {s t : MailboxState Worker Box Actor Message} {w : Worker} {b : Box}
    (hpc : s.pc w = .popped b) (hstep : step s (.UnRegisterActor b) = some t) :
    exists u, Run step t [.Lock w, .Swap w] = some u ∧ NullActorCall u := by
  cases step_sound hstep with
  | unRegister hfree =>
      have hlock : step (setBox s b (s.box b).UnRegisterActor) (.Lock w) =
          some (locked (setBox s b (s.box b).UnRegisterActor) w b) := by
        simp [step, setBox, hpc, hfree]
      have hswap : step (locked (setBox s b (s.box b).UnRegisterActor) w b) (.Swap w) =
          some (setPc
            (setBox (locked (setBox s b (s.box b).UnRegisterActor) w b) b
              (s.box b).UnRegisterActor.swapLists) w (.swapped b)) := by
        simp [step, locked, setBox]
      have hrun := run_cons_of_step [.Swap w] hlock
      rw [run_cons_of_step [] hswap, run_nil] at hrun
      refine ⟨_, hrun, w, b, Or.inl ?_, ?_⟩
      · simp [setPc]
      · simp [setPc, setBox]

/-!
# Runs

No worker calls through a null pointer exactly when every swap finds an actor,
and quiet removals make sure that it does.
-/

theorem no_null_actor_call {m_pScheduler : Nat} {actors : Box -> Option Actor}
    {actions : List (MailboxAction Worker Box Actor Message)}
    {s : MailboxState Worker Box Actor Message}
    (hrun : Run step (init m_pScheduler actors) actions = some s) :
    (AllStates step (fun u => ¬ NullActorCall u) (init m_pScheduler actors) actions <->
      AllSteps step SwapsRegistered (init m_pScheduler actors) actions) ∧
    (AllSteps step QuietRemovals (init m_pScheduler actors) actions ->
      AllStates step (fun u => ¬ NullActorCall u) (init m_pScheduler actors) actions) := by
  have hiff :
      AllStates step (fun u => ¬ NullActorCall u) (init m_pScheduler actors) actions <->
        AllSteps step SwapsRegistered (init m_pScheduler actors) actions := by
    refine allStates_iff_allSteps ?_ ?_ ?_
      (swappedInv_init m_pScheduler actors) (fun _ _ => trivial) hrun
    · intro u a v hinv _ hswap hstep
      exact swappedInv_step hinv hswap hstep
    · intro u hinv
      exact swappedInv_no_null hinv
    · intro u a v _ _ hswap hstep hnone
      exact hnone (unregistered_swap_calls_null hswap hstep)
  exact ⟨hiff, fun hquiet => hiff.mpr (swapsRegistered_of_quiet hquiet)⟩

/-- The actor is removed between the push and the pop. -/
def lateRemoval : List (MailboxAction Nat Nat Nat Nat) :=
  [.PushMsg 0 (some 10), .UnRegisterActor 0, .Pop 0 (fun _ _ => false), .Lock 0,
    .Swap 0]

theorem no_null_actor_call_lateRemoval :
    (AllStates step (fun u => ¬ NullActorCall u)
        (init 0 (fun _ => some 7)) lateRemoval <->
      AllSteps step SwapsRegistered (init 0 (fun _ => some 7)) lateRemoval) ∧
    (AllSteps step QuietRemovals (init 0 (fun _ => some 7)) lateRemoval ->
      AllStates step (fun u => ¬ NullActorCall u)
        (init 0 (fun _ => some 7)) lateRemoval) :=
  no_null_actor_call
    (s := (Run step (init 0 (fun _ => some 7)) lateRemoval).get (by rfl))
    (Option.some_get _).symm

theorem lateRemoval_calls_null :
    ¬ (forall (actions : List (MailboxAction Nat Nat Nat Nat))
        (s : MailboxState Nat Nat Nat Nat),
      Run step (init 0 (fun _ => some 7)) actions = some s ->
      ¬ NullActorCall s) := by
  intro hsafe
  refine hsafe lateRemoval
    ((Run step (init 0 (fun _ => some 7)) lateRemoval).get (by rfl))
    (Option.some_get _).symm ?_
  exact ⟨0, 0, Or.inl rfl, rfl⟩

end MailboxSystem
end LibActor
end GMServer
