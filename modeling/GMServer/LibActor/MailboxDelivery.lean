import GMServer.LibActor.MailboxLock

/-!
# Delivery

The messages a mailbox has accepted are always the handled ones, then
`m_listHandle`, then `m_listRecive`, in that order.  The invariant behind it
says what `m_listHandle` and `m_nUnHanle` are at each point of `Process`, and
that a non-empty receive list is always on its way to a worker.

A handler that throws while messages are left in `m_listHandle` is the one step
that destroys the invariant: the `catch` releases the lock over a list that is
not empty.
-/

namespace GMServer
namespace LibActor

/-- The mailbox a worker has in its hand or processes. -/
def WorkerPc.target {Box : Type} : WorkerPc Box -> Option Box
  | .loop => none
  | .popped pBox => some pBox
  | .locked pBox => some pBox
  | .swapped pBox => some pBox
  | .begun pBox => some pBox
  | .handling pBox => some pBox

namespace MailboxSystem

open Transition

variable {Worker Box Actor Message : Type}

/-!
# The invariant of one mailbox
-/

def Drained (box : Mailbox Actor Message) : Prop :=
  box.m_listHandle = [] ∧ box.IsHandling = false

structure BoxInv (s : MailboxState Worker Box Actor Message) (b : Box) : Prop where
  idle : s.m_ActorMutex b = none -> Drained (s.box b)
  locked : forall w, s.pc w = .locked b -> Drained (s.box b)
  entered : forall w, s.pc w = .swapped b ∨ s.pc w = .begun b ->
    (s.box b).IsHandling = false
  counted : forall w, s.pc w = .handling b ->
    (s.box b).m_nUnHanle = BitVec.ofNat 32 (s.box b).m_listHandle.length
  fifo : s.accepted b =
    s.handled b ++ (s.box b).m_listHandle ++ (s.box b).m_listRecive
  woken : (s.box b).m_listRecive ≠ [] ->
    some b ∈ s.m_listWaite ∨ exists w, (s.pc w).InHand b

theorem boxInv_init (m_pScheduler : Nat) (actors : Box -> Option Actor) (b : Box) :
    BoxInv (init m_pScheduler actors :
      MailboxState Worker Box Actor Message) b where
  idle _ := ⟨rfl, rfl⟩
  locked _ _ := ⟨rfl, rfl⟩
  entered _ _ := rfl
  counted _ _ := rfl
  fifo := rfl
  woken hne := absurd rfl hne

/-!
# The frame of a step

A step that is about another mailbox leaves everything the invariant mentions
alone, and may only add to the wait list.
-/

structure SameFor (b : Box) (s t : MailboxState Worker Box Actor Message) :
    Prop where
  box : t.box b = s.box b
  mutex : t.m_ActorMutex b = s.m_ActorMutex b
  accepted : t.accepted b = s.accepted b
  handled : t.handled b = s.handled b
  waite : some b ∈ s.m_listWaite -> some b ∈ t.m_listWaite
  pc : forall w, t.pc w = s.pc w ∨
    ((s.pc w).target ≠ some b ∧ (t.pc w).target ≠ some b)

theorem sameFor_pc {b : Box} {s t : MailboxState Worker Box Actor Message}
    (h : SameFor b s t) {w : Worker} {pc : WorkerPc Box}
    (htarget : pc.target = some b) : t.pc w = pc <-> s.pc w = pc := by
  rcases h.pc w with hEq | ⟨hs, ht⟩
  · rw [hEq]
  · constructor
    · intro hpc
      rw [hpc] at ht
      exact absurd htarget ht
    · intro hpc
      rw [hpc] at hs
      exact absurd htarget hs

theorem boxInv_of_sameFor {b : Box} {s t : MailboxState Worker Box Actor Message}
    (h : SameFor b s t) (hinv : BoxInv s b) : BoxInv t b where
  idle hfree := by
    rw [h.mutex] at hfree
    rw [h.box]
    exact hinv.idle hfree
  locked w hpc := by
    rw [h.box]
    exact hinv.locked w ((sameFor_pc h rfl).mp hpc)
  entered w hpc := by
    rw [h.box]
    exact hinv.entered w
      (Or.imp (sameFor_pc h rfl).mp (sameFor_pc h rfl).mp hpc)
  counted w hpc := by
    rw [h.box]
    exact hinv.counted w ((sameFor_pc h rfl).mp hpc)
  fifo := by
    rw [h.accepted, h.handled, h.box]
    exact hinv.fifo
  woken hne := by
    rw [h.box] at hne
    rcases hinv.woken hne with hwaite | ⟨w, hhand⟩
    · exact Or.inl (h.waite hwaite)
    · exact Or.inr ⟨w,
        Or.imp (sameFor_pc h rfl).mpr (sameFor_pc h rfl).mpr hhand⟩

theorem pc_update [DecidableEq Worker] {pc : Worker -> WorkerPc Box} {w : Worker}
    {next : WorkerPc Box} {b : Box} (hold : (pc w).target ≠ some b)
    (hnext : next.target ≠ some b) (w' : Worker) :
    Function.update pc w next w' = pc w' ∨
      ((pc w').target ≠ some b ∧
        (Function.update pc w next w').target ≠ some b) := by
  by_cases hw : w' = w
  · subst hw
    rw [Function.update_self]
    exact Or.inr ⟨hold, hnext⟩
  · exact Or.inl (Function.update_of_ne hw next pc)

theorem pc_after [DecidableEq Worker] {pc : Worker -> WorkerPc Box} {w w' : Worker}
    {next found : WorkerPc Box} (h : Function.update pc w next w' = found) :
    (w' = w ∧ next = found) ∨ (w' ≠ w ∧ pc w' = found) := by
  by_cases hw : w' = w
  · subst hw
    rw [Function.update_self] at h
    exact Or.inl ⟨rfl, h⟩
  · rw [Function.update_of_ne hw] at h
    exact Or.inr ⟨hw, h⟩

theorem inHand_after [DecidableEq Worker] {pc : Worker -> WorkerPc Box}
    {w : Worker} {next : WorkerPc Box} {b : Box} (hout : ¬ (pc w).InHand b)
    (h : exists w', (pc w').InHand b) :
    exists w', (Function.update pc w next w').InHand b := by
  rcases h with ⟨w', hhand⟩
  refine ⟨w', ?_⟩
  have hne : w' ≠ w := by
    intro hEq
    rw [hEq] at hhand
    exact hout hhand
  rw [Function.update_of_ne hne]
  exact hhand

/-- The mailbox a step is about; a `Pop` is about the mailbox it returns. -/
def actsOn (s : MailboxState Worker Box Actor Message) :
    MailboxAction Worker Box Actor Message -> Option Box
  | .PushMsg b _ => some b
  | .Schedule _ => none
  | .RegisterActor b _ => some b
  | .UnRegisterActor b => some b
  | .Pop _ IsHandling => (SchedulerSemaphore.Pop IsHandling s.m_listWaite).1
  | .Lock w => (s.pc w).target
  | .Swap w => (s.pc w).target
  | .OnBegin w _ => (s.pc w).target
  | .StoreUnHanle w => (s.pc w).target
  | .Handle w _ => (s.pc w).target
  | .Release w => (s.pc w).target

theorem ne_of_other {acted : Option Box} {b c : Box} (hother : acted ≠ some b)
    (hacted : acted = some c) : b ≠ c := by
  intro hEq
  rw [hEq] at hother
  exact hother hacted

theorem target_of_pc {s : MailboxState Worker Box Actor Message} {w : Worker}
    {pc : WorkerPc Box} {c : Box} (hpc : s.pc w = pc) (htarget : pc.target = some c) :
    (s.pc w).target = some c := by
  rw [hpc]
  exact htarget

/-- A worker acts on no mailbox but the one it has in its hand. -/
theorem eq_of_acts {s : MailboxState Worker Box Actor Message} {w : Worker}
    {pc : WorkerPc Box} {b c : Box} (hpc : s.pc w = pc) (htarget : pc.target = some c)
    (hacts : (s.pc w).target = some b) : c = b := by
  rw [target_of_pc hpc htarget] at hacts
  exact Option.some.inj hacts

variable [DecidableEq Box]

/-!
# Steps of other threads on the mailbox

A push and a registration move no worker.
-/

theorem boxInv_push {s : MailboxState Worker Box Actor Message} {b : Box}
    (hinv : BoxInv s b) {pMsg : Option Message}
    {out : Mailbox.PushOutcome Actor Message}
    (hout : (s.box b).PushMsg pMsg = .ok out) : BoxInv (pushed s b pMsg out) b := by
  rcases Mailbox.pushMsg_cases hout with ⟨_, hEq⟩ | ⟨_, hEq⟩
  · have hsame : pushed s b pMsg out = s := by
      rw [hEq]
      simp [pushed]
    rw [hsame]
    exact hinv
  · rw [hEq]
    constructor
    · intro hfree
      simpa [pushed, Drained, Mailbox.IsHandling] using hinv.idle hfree
    · intro w hpc
      simpa [pushed, Drained, Mailbox.IsHandling] using hinv.locked w hpc
    · intro w hpc
      simpa [pushed, Mailbox.IsHandling] using hinv.entered w hpc
    · intro w hpc
      simpa [pushed] using hinv.counted w hpc
    · have hfifo := hinv.fifo
      simp [pushed, hfifo]
    · intro _
      cases hlist : (s.box b).m_listRecive with
      | nil =>
          -- the push that makes the length one schedules the mailbox
          simp [pushed, SchedulerSemaphore.Schedule]
      | cons first rest =>
          have hne : (s.box b).m_listRecive ≠ [] := by simp [hlist]
          rcases hinv.woken hne with hwaite | hhand
          · simp [pushed, hwaite]
          · exact Or.inr hhand

theorem boxInv_register {s : MailboxState Worker Box Actor Message} {b : Box}
    (hinv : BoxInv s b) (pActor : Actor) :
    BoxInv (setBox s b ((s.box b).RegisterActor pActor)) b where
  idle hfree := by
    simpa [setBox, Drained, Mailbox.IsHandling] using hinv.idle hfree
  locked w hpc := by
    simpa [setBox, Drained, Mailbox.IsHandling] using hinv.locked w hpc
  entered w hpc := by
    simpa [setBox, Mailbox.IsHandling] using hinv.entered w hpc
  counted w hpc := by
    simpa [setBox] using hinv.counted w hpc
  fifo := by
    simpa [setBox] using hinv.fifo
  woken hne := hinv.woken (by simpa [setBox] using hne)

variable [DecidableEq Worker]

/-!
# Steps on other mailboxes
-/

theorem sameFor_leave {s : MailboxState Worker Box Actor Message} {w : Worker}
    {b c : Box} (hpc : (s.pc w).target = some c) (hne : b ≠ c) :
    SameFor b s (leave s w c) where
  box := rfl
  mutex := Function.update_of_ne hne _ _
  accepted := rfl
  handled := rfl
  waite := id
  pc := pc_update (by rw [hpc]; simpa using Ne.symm hne) (by simp [WorkerPc.target])

theorem sameFor_setPc {s : MailboxState Worker Box Actor Message} {w : Worker}
    {b c : Box} {box : Mailbox Actor Message} {next : WorkerPc Box}
    (hpc : (s.pc w).target = some c) (hnext : next.target = some c) (hne : b ≠ c) :
    SameFor b s (setPc (setBox s c box) w next) where
  box := Function.update_of_ne hne _ _
  mutex := rfl
  accepted := rfl
  handled := rfl
  waite := id
  pc :=
    pc_update
      (by
        show (s.pc w).target ≠ some b
        rw [hpc]
        simpa using Ne.symm hne)
      (by rw [hnext]; simpa using Ne.symm hne)

theorem sameFor_step {s t : MailboxState Worker Box Actor Message}
    {a : MailboxAction Worker Box Actor Message} {b : Box}
    (hstep : Step s a t) (hother : actsOn s a ≠ some b) : SameFor b s t := by
  cases hstep with
  | push hout =>
      rename_i c pMsg out
      have hne : b ≠ c := ne_of_other hother rfl
      refine
        { box := Function.update_of_ne hne _ _, mutex := rfl, accepted := ?_,
          handled := rfl, waite := ?_, pc := fun w => Or.inl rfl }
      · simp only [pushed]
        split
        · exact Function.update_of_ne hne _ _
        · rfl
      · intro hmem
        simp only [pushed]
        split
        · exact List.mem_append.mpr (Or.inl hmem)
        · exact hmem
  | schedule pMailBox =>
      exact
        { box := rfl, mutex := rfl, accepted := rfl, handled := rfl,
          waite := fun hmem => List.mem_append.mpr (Or.inl hmem),
          pc := fun w => Or.inl rfl }
  | register c pActor =>
      have hne : b ≠ c := ne_of_other hother rfl
      exact
        { box := Function.update_of_ne hne _ _, mutex := rfl, accepted := rfl,
          handled := rfl, waite := id, pc := fun w => Or.inl rfl }
  | unRegister hfree =>
      rename_i c
      have hne : b ≠ c := ne_of_other hother rfl
      exact
        { box := Function.update_of_ne hne _ _, mutex := rfl, accepted := rfl,
          handled := rfl, waite := id, pc := fun w => Or.inl rfl }
  | pop IsHandling hpc =>
      have hret : (SchedulerSemaphore.Pop IsHandling s.m_listWaite).1 ≠ some b :=
        hother
      refine
        { box := rfl, mutex := rfl, accepted := rfl, handled := rfl,
          waite := ?_, pc := pc_update ?_ ?_ }
      · intro hmem
        rcases SchedulerSemaphore.pop_keeps IsHandling hmem with hgot | hleft
        · exact absurd hgot hret
        · exact hleft
      · rw [hpc]
        simp [WorkerPc.target]
      · cases hgot : (SchedulerSemaphore.Pop IsHandling s.m_listWaite).1 with
        | none =>
            simp [WorkerPc.target]
        | some pBox =>
            rw [hgot] at hret
            exact hret
  | lock hpc hfree =>
      rename_i w c
      have hne : b ≠ c := ne_of_other hother (target_of_pc hpc rfl)
      exact
        { box := rfl, mutex := Function.update_of_ne hne _ _, accepted := rfl,
          handled := rfl, waite := id,
          pc := pc_update (by rw [hpc]; simpa [WorkerPc.target] using Ne.symm hne)
            (by simpa [WorkerPc.target] using Ne.symm hne) }
  | swap hpc =>
      rename_i w c
      have hne : b ≠ c := ne_of_other hother (target_of_pc hpc rfl)
      exact sameFor_setPc (target_of_pc hpc rfl) rfl hne
  | onBegin hpc hactor =>
      rename_i w c
      have hne : b ≠ c := ne_of_other hother (target_of_pc hpc rfl)
      exact
        { box := rfl, mutex := rfl, accepted := rfl, handled := rfl, waite := id,
          pc := pc_update (by rw [hpc]; simpa [WorkerPc.target] using Ne.symm hne)
            (by simpa [WorkerPc.target] using Ne.symm hne) }
  | onBeginThrows hpc hactor =>
      rename_i w c
      have hne : b ≠ c := ne_of_other hother (target_of_pc hpc rfl)
      exact sameFor_leave (target_of_pc hpc rfl) hne
  | storeUnHanle hpc =>
      rename_i w c
      have hne : b ≠ c := ne_of_other hother (target_of_pc hpc rfl)
      exact sameFor_setPc (target_of_pc hpc rfl) rfl hne
  | handle hpc hlist hactor =>
      rename_i w c pMsg rest
      have hne : b ≠ c := ne_of_other hother (target_of_pc hpc rfl)
      exact
        { box := Function.update_of_ne hne _ _, mutex := rfl, accepted := rfl,
          handled := Function.update_of_ne hne _ _, waite := id,
          pc := fun w => Or.inl rfl }
  | handleThrows hpc hlist hactor =>
      rename_i w c msg rest
      have hne : b ≠ c := ne_of_other hother (target_of_pc hpc rfl)
      exact sameFor_leave (target_of_pc hpc rfl) hne
  | release hpc hlist hactor =>
      rename_i w c
      have hne : b ≠ c := ne_of_other hother (target_of_pc hpc rfl)
      exact sameFor_leave (target_of_pc hpc rfl) hne

/-!
# Steps of a worker on the mailbox

One lemma for each step.  While a worker is inside `Process` no other worker
is, so the clauses about program points concern that worker alone.
-/

omit [DecidableEq Box] in
theorem boxInv_pop {s : MailboxState Worker Box Actor Message} {b : Box}
    (hinv : BoxInv s b) {w : Worker} {IsHandling : Nat -> Box -> Bool}
    (hgot : (SchedulerSemaphore.Pop IsHandling s.m_listWaite).1 = some b) :
    BoxInv (popped s w IsHandling) b := by
  have hstays : forall {w' : Worker} {pc : WorkerPc Box},
      (popped s w IsHandling).pc w' = pc -> pc ≠ .popped b -> s.pc w' = pc := by
    intro w' pc hafter hne
    simp only [popped, hgot] at hafter
    rcases pc_after hafter with ⟨_, hnext⟩ | ⟨_, hsame⟩
    · exact absurd hnext.symm hne
    · exact hsame
  constructor
  · exact hinv.idle
  · intro w' hlocked
    exact hinv.locked w' (hstays hlocked (by simp))
  · intro w' hentered
    refine hinv.entered w' (Or.imp ?_ ?_ hentered)
    · exact fun h => hstays h (by simp)
    · exact fun h => hstays h (by simp)
  · intro w' hhandling
    exact hinv.counted w' (hstays hhandling (by simp))
  · exact hinv.fifo
  · intro _
    exact Or.inr ⟨w, Or.inl (by simp [popped, hgot])⟩

theorem boxInv_lock {s : MailboxState Worker Box Actor Message} {b : Box}
    (hlock : LockInv s) (hinv : BoxInv s b) (w : Worker)
    (hfree : s.m_ActorMutex b = none) : BoxInv (locked s w b) b := by
  have hdrained := hinv.idle hfree
  have hout : forall w', ¬ (s.pc w').Holds b := lockInv_free hlock hfree
  constructor
  · intro _
    exact hdrained
  · intro _ _
    exact hdrained
  · intro _ _
    exact hdrained.right
  · intro w' hhandling
    rcases pc_after hhandling with ⟨_, hnext⟩ | ⟨_, hsame⟩
    · cases hnext
    · exact absurd (by simp [hsame]) (hout w')
  · exact hinv.fifo
  · intro hne
    rcases hinv.woken hne with hwaite | ⟨w', hhand⟩
    · exact Or.inl hwaite
    · exact Or.inr ⟨w, Or.inr (by simp [locked])⟩

/-!
A worker that moves between two points of `Process` keeps the lock, so every
other worker is outside.
-/

omit [DecidableEq Box] in
theorem pc_inside {s : MailboxState Worker Box Actor Message} {b : Box}
    (hlock : LockInv s) {w w' : Worker} {next found : WorkerPc Box}
    (hw : (s.pc w).Holds b) (hfound : found.Holds b)
    (h : Function.update s.pc w next w' = found) : next = found := by
  rcases pc_after h with ⟨_, hnext⟩ | ⟨hne, hsame⟩
  · exact hnext
  · rw [← hsame] at hfound
    exact absurd (lockInv_unique hlock hfound hw) hne

theorem boxInv_swap {s : MailboxState Worker Box Actor Message} {b : Box}
    (hlock : LockInv s) (hinv : BoxInv s b) {w : Worker}
    (hpc : s.pc w = .locked b) :
    BoxInv (setPc (setBox s b (s.box b).swapLists) w (.swapped b)) b := by
  have hw : (s.pc w).Holds b := by simp [hpc]
  have hdrained := hinv.locked w hpc
  have hbox : (setPc (setBox s b (s.box b).swapLists) w (.swapped b)).box b =
      (s.box b).swapLists := by
    simp [setPc, setBox]
  have hheld : s.m_ActorMutex b ≠ none := mutex_held hlock hw
  constructor
  · intro hfree
    exact absurd hfree hheld
  · intro w' hlocked
    cases pc_inside hlock hw (by simp) hlocked
  · intro _ _
    rw [hbox]
    exact hdrained.right
  · intro w' hhandling
    cases pc_inside hlock hw (by simp) hhandling
  · rw [hbox]
    have hfifo := hinv.fifo
    simpa [setPc, setBox, hdrained.left] using hfifo
  · intro hne
    rw [hbox, Mailbox.swapLists_m_listRecive] at hne
    exact absurd hdrained.left hne

omit [DecidableEq Box] in
theorem boxInv_begin {s : MailboxState Worker Box Actor Message} {b : Box}
    (hlock : LockInv s) (hinv : BoxInv s b) {w : Worker}
    (hpc : s.pc w = .swapped b) : BoxInv (setPc s w (.begun b)) b := by
  have hw : (s.pc w).Holds b := by simp [hpc]
  constructor
  · exact hinv.idle
  · intro w' hlocked
    cases pc_inside hlock hw (by simp) hlocked
  · intro _ _
    exact hinv.entered w (Or.inl hpc)
  · intro w' hhandling
    cases pc_inside hlock hw (by simp) hhandling
  · exact hinv.fifo
  · intro hne
    exact Or.imp_right (inHand_after (by simp [hpc, WorkerPc.InHand]))
      (hinv.woken hne)

theorem boxInv_store {s : MailboxState Worker Box Actor Message} {b : Box}
    (hlock : LockInv s) (hinv : BoxInv s b) {w : Worker}
    (hpc : s.pc w = .begun b) :
    BoxInv (setPc (setBox s b (s.box b).storeUnHanle) w (.handling b)) b := by
  have hw : (s.pc w).Holds b := by simp [hpc]
  have hbox : (setPc (setBox s b (s.box b).storeUnHanle) w (.handling b)).box b =
      (s.box b).storeUnHanle := by
    simp [setPc, setBox]
  have hheld : s.m_ActorMutex b ≠ none := mutex_held hlock hw
  constructor
  · intro hfree
    exact absurd hfree hheld
  · intro w' hlocked
    cases pc_inside hlock hw (by simp) hlocked
  · intro w' hentered
    rcases hentered with hswapped | hbegun
    · cases pc_inside hlock hw (by simp) hswapped
    · cases pc_inside hlock hw (by simp) hbegun
  · intro _ _
    rw [hbox]
    rfl
  · rw [hbox]
    exact hinv.fifo
  · intro hne
    rw [hbox] at hne
    exact Or.imp_right (inHand_after (by simp [setBox, hpc, WorkerPc.InHand]))
      (hinv.woken hne)

omit [DecidableEq Worker] in
theorem boxInv_handle {s : MailboxState Worker Box Actor Message} {b : Box}
    (hlock : LockInv s) (hinv : BoxInv s b) {w : Worker} {pMsg : Option Message}
    {rest : List (Option Message)} (hpc : s.pc w = .handling b)
    (hlist : (s.box b).m_listHandle = pMsg :: rest) :
    BoxInv (consumed s b pMsg) b := by
  have hw : (s.pc w).Holds b := by simp [hpc]
  have hbox : (consumed s b pMsg).box b = (s.box b).popHandled := by
    simp [consumed]
  have honly : forall {w' : Worker} {pc : WorkerPc Box},
      s.pc w' = pc -> pc.Holds b -> pc = .handling b := by
    intro w' pc hpc' hholds
    rw [← hpc'] at hholds
    rw [← hpc', lockInv_unique hlock hholds hw]
    exact hpc
  have hheld : s.m_ActorMutex b ≠ none := mutex_held hlock hw
  constructor
  · intro hfree
    exact absurd hfree hheld
  · intro w' hlocked
    cases honly hlocked (by simp)
  · intro w' hentered
    rcases hentered with hswapped | hbegun
    · cases honly hswapped (by simp)
    · cases honly hbegun (by simp)
  · intro _ _
    rw [hbox]
    exact Mailbox.popHandled_counts (by simp [hlist]) (hinv.counted w hpc)
  · rw [hbox]
    have hfifo := hinv.fifo
    rw [hlist] at hfifo
    simp [consumed, hfifo, hlist]
  · intro hne
    rw [hbox] at hne
    exact hinv.woken hne

theorem boxInv_leave {s : MailboxState Worker Box Actor Message} {b : Box}
    (hlock : LockInv s) (hinv : BoxInv s b) {w : Worker}
    (hpc : s.pc w = .swapped b ∨ s.pc w = .handling b)
    (hdrained : Drained (s.box b)) : BoxInv (leave s w b) b := by
  have hw : (s.pc w).Holds b := by
    rcases hpc with hpc | hpc <;> simp [hpc]
  constructor
  · intro _
    exact hdrained
  · intro _ _
    exact hdrained
  · intro _ _
    exact hdrained.right
  · intro w' hhandling
    cases pc_inside hlock hw (by simp) hhandling
  · exact hinv.fifo
  · intro hne
    refine Or.imp_right (inHand_after ?_) (hinv.woken hne)
    rcases hpc with hpc | hpc <;> simp [hpc, WorkerPc.InHand]

/-!
# One step and whole runs

The invariant survives every step except the removal of the actor and a throw
over messages that are still in `m_listHandle`.
-/

def Throws : MailboxAction Worker Box Actor Message -> Prop
  | .OnBegin _ throws => throws = true
  | .Handle _ throws => throws = true
  | _ => False

def HarmlessThrow (b : Box) (s : MailboxState Worker Box Actor Message)
    (a : MailboxAction Worker Box Actor Message) : Prop :=
  Throws a -> actsOn s a = some b -> (s.box b).m_listHandle = []

theorem boxInv_step {s t : MailboxState Worker Box Actor Message} {b : Box}
    {a : MailboxAction Worker Box Actor Message}
    (hlock : LockInv s) (hinv : BoxInv s b) (hkeep : a ≠ .UnRegisterActor b)
    (hthrow : HarmlessThrow b s a) (hstep : Step s a t) : BoxInv t b := by
  by_cases hother : actsOn s a = some b
  · cases hstep with
    | push hout =>
        cases hother
        exact boxInv_push hinv hout
    | schedule pMailBox =>
        cases hother
    | register c pActor =>
        cases hother
        exact boxInv_register hinv pActor
    | unRegister hfree =>
        cases hother
        exact absurd rfl hkeep
    | pop IsHandling hpc =>
        exact boxInv_pop hinv hother
    | lock hpc hfree =>
        rename_i w c
        have hc : c = b := eq_of_acts hpc rfl hother
        subst hc
        exact boxInv_lock hlock hinv w hfree
    | swap hpc =>
        rename_i w c
        have hc : c = b := eq_of_acts hpc rfl hother
        subst hc
        exact boxInv_swap hlock hinv hpc
    | onBegin hpc hactor =>
        rename_i w c
        have hc : c = b := eq_of_acts hpc rfl hother
        subst hc
        exact boxInv_begin hlock hinv hpc
    | onBeginThrows hpc hactor =>
        rename_i w c
        have hempty := hthrow rfl hother
        have hc : c = b := eq_of_acts hpc rfl hother
        subst hc
        exact boxInv_leave hlock hinv (Or.inl hpc)
          ⟨hempty, hinv.entered w (Or.inl hpc)⟩
    | storeUnHanle hpc =>
        rename_i w c
        have hc : c = b := eq_of_acts hpc rfl hother
        subst hc
        exact boxInv_store hlock hinv hpc
    | handle hpc hlist hactor =>
        rename_i w c pMsg rest
        have hc : c = b := eq_of_acts hpc rfl hother
        subst hc
        exact boxInv_handle hlock hinv hpc hlist
    | handleThrows hpc hlist hactor =>
        rename_i w c msg rest
        have hempty := hthrow rfl hother
        have hc : c = b := eq_of_acts hpc rfl hother
        subst hc
        rw [hlist] at hempty
        cases hempty
    | release hpc hempty hactor =>
        rename_i w c
        have hc : c = b := eq_of_acts hpc rfl hother
        subst hc
        have hcount := hinv.counted w hpc
        rw [hempty] at hcount
        exact boxInv_leave hlock hinv (Or.inr hpc)
          ⟨hempty, (Mailbox.isHandling_eq_false_iff _).mpr hcount⟩
  · exact boxInv_of_sameFor (sameFor_step hstep hother) hinv

/-!
A run in which the mailbox keeps its actor and its handlers return normally
delivers every accepted message once and in order, and loses no wake-up.
-/

def HandlersReturn (b : Box) (s : MailboxState Worker Box Actor Message)
    (a : MailboxAction Worker Box Actor Message) : Prop :=
  a ≠ .UnRegisterActor b ∧ (actsOn s a = some b -> ¬ Throws a)

structure Delivers (b : Box) (s : MailboxState Worker Box Actor Message) :
    Prop where
  fifo : s.accepted b =
    s.handled b ++ (s.box b).m_listHandle ++ (s.box b).m_listRecive
  exclusive : forall w w', (s.pc w).Holds b -> (s.pc w').Holds b -> w = w'
  woken : (s.box b).m_listRecive ≠ [] ->
    some b ∈ s.m_listWaite ∨ exists w, (s.pc w).InHand b

def DeliveryInv (b : Box) (s : MailboxState Worker Box Actor Message) : Prop :=
  LockInv s ∧ BoxInv s b

omit [DecidableEq Box] [DecidableEq Worker] in
theorem deliveryInv_init (m_pScheduler : Nat) (actors : Box -> Option Actor)
    (b : Box) :
    DeliveryInv b (init m_pScheduler actors :
      MailboxState Worker Box Actor Message) :=
  ⟨lockInv_init m_pScheduler actors, boxInv_init m_pScheduler actors b⟩

theorem deliveryInv_step {s t : MailboxState Worker Box Actor Message} {b : Box}
    {a : MailboxAction Worker Box Actor Message}
    (hinv : DeliveryInv b s) (hkeep : a ≠ .UnRegisterActor b)
    (hthrow : HarmlessThrow b s a) (hstep : step s a = some t) :
    DeliveryInv b t := by
  have hsound := step_sound hstep
  exact ⟨lockInv_step hinv.left hsound,
    boxInv_step hinv.left hinv.right hkeep hthrow hsound⟩

theorem mailbox_delivers {m_pScheduler : Nat} {actors : Box -> Option Actor}
    {b : Box} {actions : List (MailboxAction Worker Box Actor Message)}
    {s : MailboxState Worker Box Actor Message}
    (hok : AllSteps step (HandlersReturn b) (init m_pScheduler actors) actions)
    (hrun : Run step (init m_pScheduler actors) actions = some s) :
    Delivers b s := by
  have hinv : DeliveryInv b s := by
    refine run_invariant ?_ (deliveryInv_init m_pScheduler actors b) hok hrun
    intro u a v hinv hreturn hstep
    refine deliveryInv_step hinv hreturn.left ?_ hstep
    intro hthrows hacts
    exact absurd hthrows (hreturn.right hacts)
  exact
    { fifo := hinv.right.fifo,
      exclusive := fun w w' hw hw' => lockInv_unique hinv.left hw hw',
      woken := hinv.right.woken }

/-- Two messages are pushed while two workers take turns on one mailbox. -/
def twoPushes : List (MailboxAction Nat Nat Nat Nat) :=
  [.PushMsg 0 (some 10), .Pop 0 (fun _ _ => false), .Lock 0, .Swap 0,
    .PushMsg 0 (some 11), .OnBegin 0 false, .Pop 1 (fun _ _ => false),
    .StoreUnHanle 0, .Handle 0 false]

theorem mailbox_delivers_twoPushes :
    Delivers 0
      ((Run step (init 0 (fun _ => some 7)) twoPushes).get (by rfl)) :=
  mailbox_delivers
    (allSteps_of_labels (by simp [twoPushes, HandlersReturn, Throws]) _)
    (Option.some_get _).symm

end MailboxSystem
end LibActor
end GMServer
