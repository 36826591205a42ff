import Mathlib.Logic.Function.Basic
import GMServer.Library.Transition
import GMServer.LibActor.SchedulerSemaphore

/-!
# Mailboxes, senders and worker threads

The system around the mailboxes: any number of threads push messages and
register or remove actors, any number of workers run `ThreadFunc`, and all of
them interleave.  One step is one critical section, or one piece of `Process`
between two points where another thread may run.
-/

namespace GMServer
namespace LibActor

/-!
# Where a worker stands

`loop` is the head of `ThreadFunc`.  After `Pop` the worker has a mailbox in its
hand and waits for `m_ActorMutex`.  The other constructors are the points of
`Process` after the lock is taken, each named after the last thing done.
-/

inductive WorkerPc (Box : Type) where
  | loop
  | popped (pBox : Box)
  | locked (pBox : Box)
  | swapped (pBox : Box)
  | begun (pBox : Box)
  | handling (pBox : Box)
  deriving DecidableEq, Repr

namespace WorkerPc

variable {Box : Type}

/-- The worker is inside `Process` on the mailbox, past `m_ActorMutex`. -/
def Holds (pc : WorkerPc Box) (b : Box) : Prop :=
  pc = locked b ∨ pc = swapped b ∨ pc = begun b ∨ pc = handling b

/-- The worker has popped the mailbox and has not swapped its lists yet. -/
def InHand (pc : WorkerPc Box) (b : Box) : Prop :=
  pc = popped b ∨ pc = locked b

@[simp] theorem not_holds_loop (b : Box) : ¬ Holds loop b := by
  simp [Holds]

@[simp] theorem not_holds_popped (b c : Box) : ¬ Holds (popped c) b := by
  simp [Holds]

@[simp] theorem holds_locked_iff (b c : Box) : Holds (locked c) b <-> c = b := by
  simp [Holds]

@[simp] theorem holds_swapped_iff (b c : Box) : Holds (swapped c) b <-> c = b := by
  simp [Holds]

@[simp] theorem holds_begun_iff (b c : Box) : Holds (begun c) b <-> c = b := by
  simp [Holds]

@[simp] theorem holds_handling_iff (b c : Box) : Holds (handling c) b <-> c = b := by
  simp [Holds]

end WorkerPc

/-!
# States and actions

`accepted` and `handled` record, for each mailbox, the messages for which
`PushMsg` returned true and the messages the loop of `Process` has removed.
A handler that throws is a `std::exception` caught inside `Process`.
-/

structure MailboxState (Worker Box Actor Message : Type) where
  box : Box -> Mailbox Actor Message
  m_ActorMutex : Box -> Option Worker
  m_listWaite : List (Option Box)
  pc : Worker -> WorkerPc Box
  accepted : Box -> List (Option Message)
  handled : Box -> List (Option Message)

inductive MailboxAction (Worker Box Actor Message : Type) where
  | PushMsg (b : Box) (pMsg : Option Message)
  | Schedule (pMailBox : Option Box)
  | RegisterActor (b : Box) (pActor : Actor)
  | UnRegisterActor (b : Box)
  | Pop (w : Worker) (IsHandling : Nat -> Box -> Bool)
  | Lock (w : Worker)
  | Swap (w : Worker)
  | OnBegin (w : Worker) (throws : Bool)
  | StoreUnHanle (w : Worker)
  | Handle (w : Worker) (throws : Bool)
  | Release (w : Worker)

namespace MailboxSystem

variable {Worker Box Actor Message : Type} [DecidableEq Worker] [DecidableEq Box]

/-- Mailboxes whose actors were registered before any message was pushed. -/
def init (m_pScheduler : Nat) (actors : Box -> Option Actor) :
    MailboxState Worker Box Actor Message where
  box b :=
    { (Mailbox.new : Mailbox Actor Message) with
      m_pScheduler := some m_pScheduler,
      m_pActor := actors b }
  m_ActorMutex _ := none
  m_listWaite := []
  pc _ := .loop
  accepted _ := []
  handled _ := []

def setBox (s : MailboxState Worker Box Actor Message) (b : Box)
    (box : Mailbox Actor Message) : MailboxState Worker Box Actor Message :=
  { s with box := Function.update s.box b box }

def setPc (s : MailboxState Worker Box Actor Message) (w : Worker)
    (pc : WorkerPc Box) : MailboxState Worker Box Actor Message :=
  { s with pc := Function.update s.pc w pc }

/-!
# The pieces of one step

`leave` is the way out of `Process`, normal or through the `catch`: the lock
object is destroyed and the worker goes back to `ThreadFunc`.
-/

def pushed (s : MailboxState Worker Box Actor Message) (b : Box)
    (pMsg : Option Message) (out : Mailbox.PushOutcome Actor Message) :
    MailboxState Worker Box Actor Message :=
  { s with
    box := Function.update s.box b out.box,
    m_listWaite :=
      if out.scheduled then SchedulerSemaphore.Schedule s.m_listWaite (some b)
      else s.m_listWaite,
    accepted :=
      if out.accepted then Function.update s.accepted b (s.accepted b ++ [pMsg])
      else s.accepted }

def popped (s : MailboxState Worker Box Actor Message) (w : Worker)
    (IsHandling : Nat -> Box -> Bool) : MailboxState Worker Box Actor Message :=
  let result := SchedulerSemaphore.Pop IsHandling s.m_listWaite
  { s with
    m_listWaite := result.2,
    pc := Function.update s.pc w
      (match result.1 with
      | none => .loop
      | some pBox => .popped pBox) }

def locked (s : MailboxState Worker Box Actor Message) (w : Worker) (b : Box) :
    MailboxState Worker Box Actor Message :=
  { s with
    m_ActorMutex := Function.update s.m_ActorMutex b (some w),
    pc := Function.update s.pc w (.locked b) }

def leave (s : MailboxState Worker Box Actor Message) (w : Worker) (b : Box) :
    MailboxState Worker Box Actor Message :=
  { s with
    m_ActorMutex := Function.update s.m_ActorMutex b none,
    pc := Function.update s.pc w .loop }

def consumed (s : MailboxState Worker Box Actor Message) (b : Box)
    (pMsg : Option Message) : MailboxState Worker Box Actor Message :=
  { s with
    box := Function.update s.box b (s.box b).popHandled,
    handled := Function.update s.handled b (s.handled b ++ [pMsg]) }

/-!
# One step

The answer is `none` where the action is not enabled, where an assertion fails,
and where the source would go through a null `m_pActor`.
-/

def step (s : MailboxState Worker Box Actor Message) :
    MailboxAction Worker Box Actor Message ->
      Option (MailboxState Worker Box Actor Message)
  | .PushMsg b pMsg =>
      match (s.box b).PushMsg pMsg with
      | .error _ => none
      | .ok out => some (pushed s b pMsg out)
  | .Schedule pMailBox =>
      some { s with
        m_listWaite := SchedulerSemaphore.Schedule s.m_listWaite pMailBox }
  | .RegisterActor b pActor => some (setBox s b ((s.box b).RegisterActor pActor))
  | .UnRegisterActor b =>
      match s.m_ActorMutex b with
      | some _ => none
      | none => some (setBox s b (s.box b).UnRegisterActor)
  | .Pop w IsHandling =>
      match s.pc w with
      | .loop => some (popped s w IsHandling)
      | _ => none
  | .Lock w =>
      match s.pc w with
      | .popped b =>
          match s.m_ActorMutex b with
          | some _ => none
          | none => some (locked s w b)
      | _ => none
  | .Swap w =>
      match s.pc w with
      | .locked b => some (setPc (setBox s b (s.box b).swapLists) w (.swapped b))
      | _ => none
  | .OnBegin w throws =>
      match s.pc w with
      | .swapped b =>
          match (s.box b).m_pActor with
          | none => none
          | some _ =>
              if throws then some (leave s w b) else some (setPc s w (.begun b))
      | _ => none
  | .StoreUnHanle w =>
      match s.pc w with
      | .begun b => some (setPc (setBox s b (s.box b).storeUnHanle) w (.handling b))
      | _ => none
  | .Handle w throws =>
      match s.pc w with
      | .handling b =>
          match (s.box b).m_listHandle, (s.box b).m_pActor with
          | [], _ => none
          | none :: _, _ => if throws then none else some (consumed s b none)
          | some _ :: _, none => none
          | some pMsg :: _, some _ =>
              if throws then some (leave s w b) else some (consumed s b (some pMsg))
      | _ => none
  | .Release w =>
      match s.pc w with
      | .handling b =>
          match (s.box b).m_listHandle, (s.box b).m_pActor with
          | [], some _ => some (leave s w b)
          | _, _ => none
      | _ => none

/-!
# What one step can do

Every enabled step is one of the following, with the guards it was taken under.
The invariants below are proved from this list alone.
-/

inductive Step (s : MailboxState Worker Box Actor Message) :
    MailboxAction Worker Box Actor Message ->
      MailboxState Worker Box Actor Message -> Prop where
  | push {b : Box} {pMsg : Option Message}
      {out : Mailbox.PushOutcome Actor Message} :
      (s.box b).PushMsg pMsg = .ok out -> Step s (.PushMsg b pMsg) (pushed s b pMsg out)
  | schedule (pMailBox : Option Box) :
      Step s (.Schedule pMailBox)
        { s with
          m_listWaite := SchedulerSemaphore.Schedule s.m_listWaite pMailBox }
  | register (b : Box) (pActor : Actor) :
      Step s (.RegisterActor b pActor) (setBox s b ((s.box b).RegisterActor pActor))
  | unRegister {b : Box} :
      s.m_ActorMutex b = none ->
      Step s (.UnRegisterActor b) (setBox s b (s.box b).UnRegisterActor)
  | pop {w : Worker} (IsHandling : Nat -> Box -> Bool) :
      s.pc w = .loop -> Step s (.Pop w IsHandling) (popped s w IsHandling)
  | lock {w : Worker} {b : Box} :
      s.pc w = .popped b -> s.m_ActorMutex b = none ->
      Step s (.Lock w) (locked s w b)
  | swap {w : Worker} {b : Box} :
      s.pc w = .locked b ->
      Step s (.Swap w) (setPc (setBox s b (s.box b).swapLists) w (.swapped b))
  | onBegin {w : Worker} {b : Box} :
      s.pc w = .swapped b -> (s.box b).m_pActor ≠ none ->
      Step s (.OnBegin w false) (setPc s w (.begun b))
  | onBeginThrows {w : Worker} {b : Box} :
      s.pc w = .swapped b -> (s.box b).m_pActor ≠ none ->
      Step s (.OnBegin w true) (leave s w b)
  | storeUnHanle {w : Worker} {b : Box} :
      s.pc w = .begun b ->
      Step s (.StoreUnHanle w)
        (setPc (setBox s b (s.box b).storeUnHanle) w (.handling b))
  | handle {w : Worker} {b : Box} {pMsg : Option Message}
      {rest : List (Option Message)} :
      s.pc w = .handling b -> (s.box b).m_listHandle = pMsg :: rest ->
      (pMsg ≠ none -> (s.box b).m_pActor ≠ none) ->
      Step s (.Handle w false) (consumed s b pMsg)
  | handleThrows {w : Worker} {b : Box} {msg : Message}
      {rest : List (Option Message)} :
      s.pc w = .handling b -> (s.box b).m_listHandle = some msg :: rest ->
      (s.box b).m_pActor ≠ none ->
      Step s (.Handle w true) (leave s w b)
  | release {w : Worker} {b : Box} :
      s.pc w = .handling b -> (s.box b).m_listHandle = [] ->
      (s.box b).m_pActor ≠ none ->
      Step s (.Release w) (leave s w b)

theorem step_sound {s t : MailboxState Worker Box Actor Message}
    {a : MailboxAction Worker Box Actor Message} (h : step s a = some t) :
    Step s a t := by
  cases a with
  | PushMsg b pMsg =>
      simp only [step] at h
      split at h
      · cases h
      · rename_i out hout
        cases h
        exact Step.push hout
  | Schedule pMailBox =>
      cases h
      exact Step.schedule pMailBox
  | RegisterActor b pActor =>
      cases h
      exact Step.register b pActor
  | UnRegisterActor b =>
      simp only [step] at h
      split at h
      · cases h
      · rename_i hfree
        cases h
        exact Step.unRegister hfree
  | Pop w IsHandling =>
      simp only [step] at h
      split at h
      · rename_i hpc
        cases h
        exact Step.pop IsHandling hpc
      · cases h
  | Lock w =>
      simp only [step] at h
      split at h
      · rename_i b hpc
        split at h
        · cases h
        · rename_i hfree
          cases h
          exact Step.lock hpc hfree
      · cases h
  | Swap w =>
      simp only [step] at h
      split at h
      · rename_i b hpc
        cases h
        exact Step.swap hpc
      · cases h
  | OnBegin w throws =>
      simp only [step] at h
      split at h
      · rename_i b hpc
        split at h
        · cases h
        · rename_i pActor hactor
          have hne : (s.box b).m_pActor ≠ none := by simp [hactor]
          cases throws with
          | true =>
              cases h
              exact Step.onBeginThrows hpc hne
          | false =>
              cases h
              exact Step.onBegin hpc hne
      · cases h
  | StoreUnHanle w =>
      simp only [step] at h
      split at h
      · rename_i b hpc
        cases h
        exact Step.storeUnHanle hpc
      · cases h
  | Handle w throws =>
      simp only [step] at h
      split at h
      · rename_i b hpc
        split at h
        · cases h
        · rename_i rest pActor hlist
          cases throws with
          | true =>
              cases h
          | false =>
              cases h
              exact Step.handle hpc hlist (fun hne => absurd rfl hne)
        · cases h
        · rename_i msg rest pActor hlist hactor
          have hne : (s.box b).m_pActor ≠ none := by simp [hactor]
          cases throws with
          | true =>
              cases h
              exact Step.handleThrows hpc hlist hne
          | false =>
              cases h
              exact Step.handle hpc hlist (fun _ => hne)
      · cases h
  | Release w =>
      simp only [step] at h
      split at h
      · rename_i b hpc
        split at h
        · rename_i pActor hlist hactor
          cases h
          exact Step.release hpc hlist (by simp [hactor])
        · cases h
      · cases h

end MailboxSystem
end LibActor
end GMServer
