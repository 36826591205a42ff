import GMServer.LibActor.MailboxSystem

/-!
# Who holds the actor mutex

The owner of `m_ActorMutex` is the worker whose program point lies inside
`Process` on that mailbox, in every state of every run: handlers may throw and
actors may come and go.
-/

namespace GMServer
namespace LibActor
namespace MailboxSystem

open Transition

variable {Worker Box Actor Message : Type}

def LockInv (s : MailboxState Worker Box Actor Message) : Prop :=
  forall b w, s.m_ActorMutex b = some w <-> (s.pc w).Holds b

theorem lockInv_init (m_pScheduler : Nat) (actors : Box -> Option Actor) :
    LockInv (init m_pScheduler actors :
      MailboxState Worker Box Actor Message) := by
  intro b w
  simp [init]

theorem lockInv_unique {s : MailboxState Worker Box Actor Message}
    (hlock : LockInv s) {b : Box} {w w' : Worker}
    (hw : (s.pc w).Holds b) (hw' : (s.pc w').Holds b) : w = w' := by
  have howner := (hlock b w).mpr hw
  have howner' := (hlock b w').mpr hw'
  rw [howner] at howner'
  exact Option.some.inj howner'

theorem lockInv_free {s : MailboxState Worker Box Actor Message}
    (hlock : LockInv s) {b : Box} (hfree : s.m_ActorMutex b = none) (w : Worker) :
    ¬ (s.pc w).Holds b := by
  intro hholds
  have howner := (hlock b w).mpr hholds
  rw [hfree] at howner
  cases howner

theorem mutex_held {s : MailboxState Worker Box Actor Message} {b : Box}
    (hlock : LockInv s) {w : Worker} (hw : (s.pc w).Holds b) :
    s.m_ActorMutex b ≠ none := by
  rw [(hlock b w).mpr hw]
  simp

/-!
# Preservation

A step that keeps the mutexes moves workers between points that hold the same
mailbox.  Only `Lock` and `leave` change an owner.
-/

theorem lockInv_of_same {s t : MailboxState Worker Box Actor Message}
    (hlock : LockInv s) (hmutex : t.m_ActorMutex = s.m_ActorMutex)
    (hpc : forall w b, (t.pc w).Holds b <-> (s.pc w).Holds b) : LockInv t := by
  intro b w
  rw [hmutex, hpc]
  exact hlock b w

theorem holds_update [DecidableEq Worker] {pc : Worker -> WorkerPc Box} {w : Worker}
    {next : WorkerPc Box} (h : forall b, next.Holds b <-> (pc w).Holds b)
    (w' : Worker) (b : Box) :
    (Function.update pc w next w').Holds b <-> (pc w').Holds b := by
  by_cases hw : w' = w
  · rw [hw, Function.update_self]
    exact h b
  · rw [Function.update_of_ne hw]

variable [DecidableEq Worker] [DecidableEq Box]

theorem lockInv_locked {s : MailboxState Worker Box Actor Message}
    (hlock : LockInv s) {w : Worker} {c : Box}
    (hpc : s.pc w = .popped c) (hfree : s.m_ActorMutex c = none) :
    LockInv (locked s w c) := by
  intro b w'
  have hold := hlock b w'
  simp only [locked]
  by_cases hb : b = c
  · subst hb
    by_cases hw : w' = w
    · simp [hw]
    · rw [Function.update_self, Function.update_of_ne hw]
      have hout := lockInv_free hlock hfree w'
      constructor
      · intro hEq
        exact absurd (Option.some.inj hEq).symm hw
      · intro hholds
        exact absurd hholds hout
  · rw [Function.update_of_ne hb]
    by_cases hw : w' = w
    · subst hw
      rw [hpc] at hold
      rw [Function.update_self, hold]
      simp [Ne.symm hb]
    · rw [Function.update_of_ne hw]
      exact hold

theorem lockInv_leave {s : MailboxState Worker Box Actor Message}
    (hlock : LockInv s) {w : Worker} {c : Box} (hholds : (s.pc w).Holds c)
    (honly : forall b, (s.pc w).Holds b -> b = c) : LockInv (leave s w c) := by
  intro b w'
  have hold := hlock b w'
  simp only [leave]
  by_cases hb : b = c
  · subst hb
    rw [Function.update_self]
    by_cases hw : w' = w
    · simp [hw]
    · rw [Function.update_of_ne hw]
      constructor
      · intro hEq
        cases hEq
      · intro hother
        exact absurd (lockInv_unique hlock hother hholds) hw
  · rw [Function.update_of_ne hb]
    by_cases hw : w' = w
    · subst hw
      rw [Function.update_self, hold]
      constructor
      · intro h
        exact absurd (honly b h) hb
      · intro h
        exact absurd h (WorkerPc.not_holds_loop b)
    · rw [Function.update_of_ne hw]
      exact hold

theorem lockInv_step {s t : MailboxState Worker Box Actor Message}
    {a : MailboxAction Worker Box Actor Message}
    (hlock : LockInv s) (hstep : Step s a t) : LockInv t := by
  cases hstep with
  | push _ => exact hlock
  | schedule _ => exact hlock
  | register _ _ => exact hlock
  | unRegister _ => exact hlock
  | pop IsHandling hpc =>
      refine lockInv_of_same hlock rfl (holds_update ?_)
      intro b
      rw [hpc]
      cases (SchedulerSemaphore.Pop IsHandling s.m_listWaite).1 <;> simp
  | lock hpc hfree => exact lockInv_locked hlock hpc hfree
  | swap hpc =>
      refine lockInv_of_same hlock rfl (holds_update ?_)
      intro b
      simp [setBox, hpc]
  | onBegin hpc _ =>
      refine lockInv_of_same hlock rfl (holds_update ?_)
      intro b
      simp [hpc]
  | onBeginThrows hpc _ =>
      apply lockInv_leave hlock <;> simp [hpc]
  | storeUnHanle hpc =>
      refine lockInv_of_same hlock rfl (holds_update ?_)
      intro b
      simp [setBox, hpc]
  | handle _ _ _ => exact hlock
  | handleThrows hpc _ _ =>
      apply lockInv_leave hlock <;> simp [hpc]
  | release hpc _ _ =>
      apply lockInv_leave hlock <;> simp [hpc]

end MailboxSystem
end LibActor
end GMServer
