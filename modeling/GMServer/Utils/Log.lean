import GMServer.Library.Transition

/-!
# The logger

Entries are pushed by any thread and handled by one of their own, which takes the whole list
at once and looks whether it should stop before it takes the next one.  What has been pushed
behind the last swap is deleted with the logger.
-/

namespace GMServer
namespace Utils

/-!
# States

The mutex is only ever held for one access to the list.  `handling` has the rest of the list
that was swapped away.
-/

namespace Log

inductive ThreadPc (LogData : Type) where
  | test
  | swap
  | handling (listLog : List LogData)
  | exited
  deriving DecidableEq, Repr

/-- What the thread has taken and not handled. -/
def ThreadPc.taken {LogData : Type} : ThreadPc LogData -> List LogData
  | .handling listLog => listLog
  | _ => []

inductive StopPc where
  | notCalled
  | called
  | joining
  | returned
  | destroyed
  deriving DecidableEq, Repr

end Log

open Log

/-- `pushed` are the entries of the calls of `PushLog`, and `handled` those of the calls of
`m_Handle`; `before` says how many had been pushed when `Stop` was called. -/
structure Log (LogData : Type) where
  m_bStop : Bool
  m_listLog : List LogData
  thread : ThreadPc LogData
  stop : StopPc
  pushed : List LogData
  before : Option Nat
  handled : List LogData
  deleted : List LogData
  deriving DecidableEq, Repr

namespace Log

open Transition

variable {LogData : Type}

/-- The thread has just been started. -/
def start : Log LogData :=
  { m_bStop := false, m_listLog := [], thread := .test, stop := .notCalled, pushed := [],
    before := none, handled := [], deleted := [] }

/-!
# Steps
-/

inductive Action (LogData : Type) where
  | PushLog (pLogData : LogData)
  | thread
  | callStop
  | storeStop
  | join
  | destruct
  deriving DecidableEq, Repr

/-- The next step of the thread. -/
def threadStep (s : Log LogData) : Option (Log LogData) :=
  match s.thread with
  | .test => some { s with thread := if s.m_bStop = true then .exited else .swap }
  | .swap => some { s with thread := .handling s.m_listLog, m_listLog := [] }
  | .handling (it :: listLog) =>
      some { s with thread := .handling listLog, handled := s.handled ++ [it] }
  | .handling [] => some { s with thread := .test }
  | .exited => none

/-- Nobody pushes into a logger that is gone. -/
def step (s : Log LogData) : Action LogData -> Option (Log LogData)
  | .PushLog pLogData =>
      if s.stop = .destroyed then none
      else
        some
          { s with
            m_listLog := s.m_listLog ++ [pLogData],
            pushed := s.pushed ++ [pLogData] }
  | .thread => s.threadStep
  | .callStop =>
      if s.stop = .notCalled then
        some { s with stop := .called, before := some s.pushed.length }
      else none
  | .storeStop =>
      if s.stop = .called then some { s with stop := .joining, m_bStop := true } else none
  | .join =>
      match s.stop, s.thread with
      | .joining, .exited => some { s with stop := .returned }
      | _, _ => none
  | .destruct =>
      if s.stop = .returned then
        some
          { s with
            stop := .destroyed,
            m_listLog := [],
            deleted := s.deleted ++ s.m_listLog }
      else none

/-!
# What should be handled

Handled entries come in the order in which they were pushed, each once, and when the thread is
done, the entries that had been pushed before the call of `Stop` are among them.
-/

structure NothingLost (s : Log LogData) : Prop where
  order : s.handled <+: s.pushed
  complete : s.thread = .exited -> forall count, s.before = some count ->
    s.pushed.take count <+: s.handled

/-- When the flag is set, the thread is about to take the list, or the entries that had been
pushed before the call are no longer in it. -/
def Collected (s : Log LogData) : Action LogData -> Prop
  | .storeStop => s.thread = .swap ∨ forall count, s.before = some count ->
      count + s.m_listLog.length ≤ s.pushed.length
  | _ => True

/-!
# Where an entry is
-/

structure Inv (s : Log LogData) : Prop where
  split : s.pushed = s.handled ++ (s.thread.taken ++ (s.deleted ++ s.m_listLog))
  kept : s.stop ≠ .destroyed -> s.deleted = []
  joined : s.stop = .returned ∨ s.stop = .destroyed -> s.thread = .exited
  stopped : s.m_bStop = true <-> s.stop ≠ .notCalled ∧ s.stop ≠ .called
  exited : s.thread = .exited -> s.m_bStop = true
  before : forall count, s.before = some count -> count ≤ s.pushed.length

theorem inv_start : Inv (start : Log LogData) := by
  constructor
  · rfl
  · exact fun _ => rfl
  · rintro (h | h)
    · cases h
    · cases h
  · constructor
    · intro h
      cases h
    · rintro ⟨hne, _⟩
      exact absurd rfl hne
  · intro h
    cases h
  · intro count h
    cases h

theorem threadStep_running {s t : Log LogData} (h : s.threadStep = some t) :
    s.thread ≠ .exited := by
  intro hexited
  unfold threadStep at h
  rw [hexited] at h
  cases h

/-- A step of the thread does not touch the flag, and once the flag is set the list is not
taken again. -/
theorem threadStep_frame {s t : Log LogData} (hstep : s.threadStep = some t) :
    t.m_bStop = s.m_bStop ∧ t.before = s.before ∧ t.pushed = s.pushed ∧ t.stop = s.stop ∧
      t.deleted = s.deleted ∧ (s.m_bStop = true -> t.thread ≠ .swap) := by
  unfold threadStep at hstep
  split at hstep
  · cases hstep
    refine ⟨rfl, rfl, rfl, rfl, rfl, ?_⟩
    intro hstop hswap
    dsimp only at hswap
    rw [if_pos hstop] at hswap
    cases hswap
  · cases hstep
    exact ⟨rfl, rfl, rfl, rfl, rfl, fun _ h => by cases h⟩
  · cases hstep
    exact ⟨rfl, rfl, rfl, rfl, rfl, fun _ h => by cases h⟩
  · cases hstep
    exact ⟨rfl, rfl, rfl, rfl, rfl, fun _ h => by cases h⟩
  · cases hstep

/-- What the thread takes and handles comes from the list and from its hand. -/
theorem threadStep_moves {s t : Log LogData} (hstep : s.threadStep = some t) :
    t.handled ++ (t.thread.taken ++ t.m_listLog) =
      s.handled ++ (s.thread.taken ++ s.m_listLog) := by
  unfold threadStep at hstep
  split at hstep
  · rename_i hthread
    cases hstep
    rw [hthread]
    dsimp only
    split
    · rfl
    · rfl
  · rename_i hthread
    cases hstep
    rw [hthread]
    show s.handled ++ (s.m_listLog ++ []) = _
    rw [List.append_nil]
    rfl
  · rename_i it listLog hthread
    cases hstep
    rw [hthread, List.append_assoc]
    rfl
  · rename_i hthread
    cases hstep
    rw [hthread]
    rfl
  · cases hstep

theorem threadStep_exits {s t : Log LogData} (hstep : s.threadStep = some t)
    (hexited : t.thread = .exited) : s.m_bStop = true := by
  unfold threadStep at hstep
  split at hstep
  · cases hstep
    dsimp only at hexited
    split at hexited
    · assumption
    · cases hexited
  · cases hstep
    cases hexited
  · cases hstep
    cases hexited
  · cases hstep
    cases hexited
  · cases hstep

theorem inv_thread {s t : Log LogData} (hinv : Inv s) (hstep : s.threadStep = some t) :
    Inv t := by
  have hrunning : ¬ (s.stop = .returned ∨ s.stop = .destroyed) :=
    fun h => threadStep_running hstep (hinv.joined h)
  have hkept : s.deleted = [] := hinv.kept (fun h => hrunning (Or.inr h))
  rcases threadStep_frame hstep with ⟨hflag, hbefore, hpushed, hstop, hdeleted, _⟩
  constructor
  · rw [hpushed, hdeleted, hinv.split, hkept, List.nil_append, List.nil_append]
    exact (threadStep_moves hstep).symm
  · exact fun _ => hdeleted.trans hkept
  · rw [hstop]
    exact fun h => absurd h hrunning
  · rw [hflag, hstop]
    exact hinv.stopped
  · rw [hflag]
    exact threadStep_exits hstep
  · rw [hbefore, hpushed]
    exact hinv.before

theorem inv_push {s t : Log LogData} {pLogData : LogData} (hinv : Inv s)
    (hstep : step s (.PushLog pLogData) = some t) : Inv t := by
  simp only [step] at hstep
  split at hstep
  · cases hstep
  · cases hstep
    constructor
    · dsimp only
      rw [hinv.split]
      simp only [List.append_assoc]
    · exact hinv.kept
    · exact hinv.joined
    · exact hinv.stopped
    · exact hinv.exited
    · intro count hcount
      dsimp only
      rw [List.length_append]
      exact Nat.le_add_right_of_le (hinv.before count hcount)

theorem inv_callStop {s t : Log LogData} (hinv : Inv s) (hstep : step s .callStop = some t) :
    Inv t := by
  simp only [step] at hstep
  split at hstep
  · rename_i hstop
    cases hstep
    constructor
    · exact hinv.split
    · exact fun _ => hinv.kept (hstop ▸ by decide)
    · rintro (h | h)
      · cases h
      · cases h
    · dsimp only
      rw [hinv.stopped, hstop]
      exact ⟨fun h => absurd rfl h.left, fun h => absurd rfl h.right⟩
    · exact hinv.exited
    · intro count hcount
      cases hcount
      exact Nat.le_refl _
  · cases hstep

theorem inv_storeStop {s t : Log LogData} (hinv : Inv s) (hstep : step s .storeStop = some t) :
    Inv t := by
  simp only [step] at hstep
  split at hstep
  · rename_i hstop
    cases hstep
    constructor
    · exact hinv.split
    · exact fun _ => hinv.kept (hstop ▸ by decide)
    · rintro (h | h)
      · cases h
      · cases h
    · show true = true <-> StopPc.joining ≠ .notCalled ∧ StopPc.joining ≠ .called
      decide
    · exact fun _ => rfl
    · exact hinv.before
  · cases hstep

theorem inv_join {s t : Log LogData} (hinv : Inv s) (hstep : step s .join = some t) :
    Inv t := by
  simp only [step] at hstep
  split at hstep
  · rename_i hstop hthread
    cases hstep
    constructor
    · exact hinv.split
    · exact fun _ => hinv.kept (hstop ▸ by decide)
    · exact fun _ => hthread
    · refine ⟨fun _ => ⟨?_, ?_⟩, fun _ => hinv.exited hthread⟩
      · exact fun h => by cases h
      · exact fun h => by cases h
    · exact hinv.exited
    · exact hinv.before
  · cases hstep

theorem inv_destruct {s t : Log LogData} (hinv : Inv s) (hstep : step s .destruct = some t) :
    Inv t := by
  simp only [step] at hstep
  split at hstep
  · rename_i hstop
    cases hstep
    have hthread := hinv.joined (Or.inl hstop)
    constructor
    · dsimp only
      rw [hinv.split, List.append_nil]
    · exact fun h => absurd rfl h
    · exact fun _ => hthread
    · refine ⟨fun _ => ⟨?_, ?_⟩, fun _ => hinv.exited hthread⟩
      · exact fun h => by cases h
      · exact fun h => by cases h
    · exact hinv.exited
    · exact hinv.before
  · cases hstep

theorem inv_step {s t : Log LogData} {action : Action LogData} (hinv : Inv s)
    (hstep : step s action = some t) : Inv t := by
  cases action with
  | PushLog pLogData => exact inv_push hinv hstep
  | thread => exact inv_thread hinv hstep
  | callStop => exact inv_callStop hinv hstep
  | storeStop => exact inv_storeStop hinv hstep
  | join => exact inv_join hinv hstep
  | destruct => exact inv_destruct hinv hstep

/-!
# What is taken in time

With the flag set, the list is taken once more or not at all.
-/

/-- How many entries have been taken out of the list. -/
def takenCount (s : Log LogData) : Nat := s.handled.length + s.thread.taken.length

/-- The entries that had been pushed before the call are taken, or will be. -/
def InTime (s : Log LogData) : Prop :=
  s.m_bStop = true -> s.thread = .swap ∨ forall count, s.before = some count ->
    count ≤ s.takenCount

/-- One of them is not, and the list is left to itself. -/
def Late (s : Log LogData) : Prop :=
  s.m_bStop = true ∧ s.thread ≠ .swap ∧
    exists count, s.before = some count ∧ s.takenCount < count

theorem takenCount_le {s : Log LogData} (hinv : Inv s) :
    s.takenCount + s.deleted.length + s.m_listLog.length = s.pushed.length := by
  unfold takenCount
  rw [hinv.split]
  simp only [List.length_append]
  omega

theorem takenCount_threadStep {s t : Log LogData} (hstep : s.threadStep = some t)
    (hne : s.thread ≠ .swap) : t.takenCount = s.takenCount := by
  unfold threadStep at hstep
  split at hstep
  · rename_i hthread
    cases hstep
    unfold takenCount
    rw [hthread]
    dsimp only
    split
    · rfl
    · rfl
  · rename_i hthread
    exact absurd hthread hne
  · rename_i it listLog hthread
    cases hstep
    unfold takenCount
    rw [hthread, List.length_append]
    show s.handled.length + 1 + listLog.length = s.handled.length + (listLog.length + 1)
    omega
  · rename_i hthread
    cases hstep
    unfold takenCount
    rw [hthread]
    rfl
  · cases hstep

/-- The other steps leave alone what the thread has, and only `Stop` sets the flag. -/
theorem step_frame {s t : Log LogData} (hinv : Inv s) {action : Action LogData}
    (hthread : action ≠ .thread) (hstore : action ≠ .storeStop)
    (hstep : step s action = some t) :
    t.m_bStop = s.m_bStop ∧ t.thread = s.thread ∧ t.takenCount = s.takenCount ∧
      (s.m_bStop = true -> t.before = s.before) := by
  cases action with
  | PushLog pLogData =>
      simp only [step] at hstep
      split at hstep
      · cases hstep
      · cases hstep
        exact ⟨rfl, rfl, rfl, fun _ => rfl⟩
  | thread => exact absurd rfl hthread
  | callStop =>
      simp only [step] at hstep
      split at hstep
      · rename_i hstop
        cases hstep
        refine ⟨rfl, rfl, rfl, ?_⟩
        intro hflag
        exact absurd hstop (hinv.stopped.mp hflag).left
      · cases hstep
  | storeStop => exact absurd rfl hstore
  | join =>
      simp only [step] at hstep
      split at hstep
      · cases hstep
        exact ⟨rfl, rfl, rfl, fun _ => rfl⟩
      · cases hstep
  | destruct =>
      simp only [step] at hstep
      split at hstep
      · cases hstep
        exact ⟨rfl, rfl, rfl, fun _ => rfl⟩
      · cases hstep

theorem storeStop_frame {s t : Log LogData} (hinv : Inv s)
    (hstep : step s .storeStop = some t) :
    s.m_bStop ≠ true ∧ s.deleted = [] ∧ t = { s with stop := .joining, m_bStop := true } := by
  simp only [step] at hstep
  split at hstep
  · rename_i hstop
    cases hstep
    refine ⟨?_, ?_, rfl⟩
    · intro hflag
      exact absurd hstop (hinv.stopped.mp hflag).right
    · apply hinv.kept
      rw [hstop]
      decide
  · cases hstep

theorem inTime_step {s t : Log LogData} {action : Action LogData} (hinv : Inv s)
    (htime : InTime s) (hok : Collected s action) (hstep : step s action = some t) :
    InTime t := by
  intro hflag
  by_cases hthread : action = .thread
  · rw [hthread] at hstep
    rcases threadStep_frame hstep with ⟨hstop, hbefore, hpushed, _, hdeleted, _⟩
    right
    rw [hbefore]
    by_cases hswap : s.thread = .swap
    · -- the whole list is taken
      intro count hcount
      have htaken := takenCount_le (inv_thread hinv hstep)
      have hlist : t.m_listLog = [] ∧ t.deleted = [] := by
        have hrunning := threadStep_running hstep
        have hnot : ¬ s.stop = .destroyed := fun h => hrunning (hinv.joined (Or.inr h))
        refine ⟨?_, hdeleted.trans (hinv.kept hnot)⟩
        simp only [step, threadStep, hswap] at hstep
        cases hstep
        rfl
      rw [hlist.left, hlist.right, hpushed] at htaken
      have hle := hinv.before count hcount
      rw [← htaken] at hle
      exact hle
    · rw [takenCount_threadStep hstep hswap]
      exact (htime (hstop ▸ hflag)).resolve_left hswap
  · by_cases hstore : action = .storeStop
    · rw [hstore] at hstep hok
      rcases storeStop_frame hinv hstep with ⟨_, hdeleted, hEq⟩
      rw [hEq]
      rcases hok with hswap | hcollected
      · exact Or.inl hswap
      · right
        intro count hcount
        have htaken := takenCount_le hinv
        have hle := hcollected count hcount
        rw [hdeleted] at htaken
        show count ≤ s.takenCount
        rw [List.length_nil] at htaken
        omega
    · rcases step_frame hinv hthread hstore hstep with ⟨hstop, hsame, htaken, hbefore⟩
      have hset : s.m_bStop = true := hstop ▸ hflag
      rw [hsame, htaken, hbefore hset]
      exact htime hset

theorem late_step {s t : Log LogData} {action : Action LogData} (hinv : Inv s) (hlate : Late s)
    (hstep : step s action = some t) : Late t := by
  rcases hlate with ⟨hflag, hswap, count, hcount, hless⟩
  by_cases hthread : action = .thread
  · rw [hthread] at hstep
    rcases threadStep_frame hstep with ⟨hstop, hbefore, _, _, _, hnever⟩
    refine ⟨hstop.trans hflag, hnever hflag, count, hbefore.trans hcount, ?_⟩
    rw [takenCount_threadStep hstep hswap]
    exact hless
  · by_cases hstore : action = .storeStop
    · rw [hstore] at hstep
      exact absurd hflag (storeStop_frame hinv hstep).left
    · rcases step_frame hinv hthread hstore hstep with ⟨hstop, hsame, htaken, hbefore⟩
      refine ⟨hstop.trans hflag, hsame ▸ hswap, count, (hbefore hflag).trans hcount, ?_⟩
      rw [htaken]
      exact hless

theorem late_of_not_collected {s t : Log LogData} {action : Action LogData} (hinv : Inv s)
    (hbad : ¬ Collected s action) (hstep : step s action = some t) : Late t := by
  cases action with
  | storeStop =>
      rcases storeStop_frame hinv hstep with ⟨_, hdeleted, hEq⟩
      rw [hEq]
      unfold Collected at hbad
      push Not at hbad
      rcases hbad with ⟨hswap, count, hcount, hless⟩
      refine ⟨rfl, hswap, count, hcount, ?_⟩
      have htaken := takenCount_le hinv
      rw [hdeleted, List.length_nil] at htaken
      show s.takenCount < count
      omega
  | _ => exact absurd trivial hbad

theorem nothingLost_of_inTime {s : Log LogData} (hinv : Inv s) (htime : InTime s) :
    NothingLost s := by
  have horder : s.handled <+: s.pushed := ⟨_, hinv.split.symm⟩
  refine { order := horder, complete := ?_ }
  intro hexited count hcount
  have hne : s.thread ≠ .swap := by
    rw [hexited]
    exact fun h => by cases h
  have hle := (htime (hinv.exited hexited)).resolve_left hne count hcount
  unfold takenCount at hle
  rw [hexited] at hle
  apply List.prefix_of_prefix_length_le (List.take_prefix _ _) horder
  rw [List.length_take]
  exact Nat.le_trans (Nat.min_le_left _ _) hle

theorem not_nothingLost_of_late {s : Log LogData} (hinv : Inv s) (hlate : Late s)
    (hexited : s.thread = .exited) : ¬ NothingLost s := by
  intro hnone
  rcases hlate with ⟨_, _, count, hcount, hless⟩
  have hle := (hnone.complete hexited count hcount).length_le
  rw [List.length_take, Nat.min_eq_left (hinv.before count hcount)] at hle
  unfold takenCount at hless
  rw [hexited] at hless
  exact absurd hless (Nat.not_lt.mpr hle)

/-!
# The end of the thread

With the flag set its own steps lead it there.
-/

theorem exits_of_test {s : Log LogData} (hflag : s.m_bStop = true) (hthread : s.thread = .test) :
    Run step s [.thread] = some { s with thread := .exited } := by
  rw [run_cons]
  simp only [step, threadStep, hthread]
  rw [if_pos hflag]
  rfl

theorem exits_of_handling (listLog : List LogData) {s : Log LogData} (hflag : s.m_bStop = true)
    (hthread : s.thread = .handling listLog) :
    exists n t, Run step s (List.replicate n .thread) = some t ∧ t.thread = .exited := by
  induction listLog generalizing s with
  | nil =>
      have hback : step s .thread = some { s with thread := .test } := by
        simp only [step, threadStep, hthread]
      have hexit := exits_of_test (s := { s with thread := .test }) hflag rfl
      exact ⟨2, { s with thread := .exited },
        (run_cons_of_step [Action.thread] hback).trans hexit, rfl⟩
  | cons it listLog ih =>
      have hhandle : step s .thread =
          some { s with thread := .handling listLog, handled := s.handled ++ [it] } := by
        simp only [step, threadStep, hthread]
      rcases ih (s := { s with thread := .handling listLog, handled := s.handled ++ [it] }) hflag
        rfl with ⟨n, t, hrun, hexited⟩
      exact ⟨n + 1, t, (run_cons_of_step _ hhandle).trans hrun, hexited⟩

theorem thread_exits {s : Log LogData} (hflag : s.m_bStop = true) :
    exists n t, Run step s (List.replicate n .thread) = some t ∧ t.thread = .exited := by
  cases hthread : s.thread with
  | test => exact ⟨1, _, exits_of_test hflag hthread, rfl⟩
  | swap =>
      have hswap : step s .thread =
          some { s with thread := .handling s.m_listLog, m_listLog := [] } := by
        simp only [step, threadStep, hthread]
      rcases exits_of_handling s.m_listLog
        (s := { s with thread := .handling s.m_listLog, m_listLog := [] }) hflag rfl with
        ⟨n, t, hrun, hexited⟩
      exact ⟨n + 1, t, (run_cons_of_step _ hswap).trans hrun, hexited⟩
  | handling listLog => exact exits_of_handling listLog hflag hthread
  | exited => exact ⟨0, s, rfl, hthread⟩

/-!
# Every interleaving
-/

theorem inv_and_inTime_step {s t : Log LogData} {action : Action LogData}
    (h : Inv s ∧ InTime s) (hok : Collected s action) (hstep : step s action = some t) :
    Inv t ∧ InTime t :=
  ⟨inv_step h.left hstep, inTime_step h.left h.right hok hstep⟩

theorem late_or_collected {s t : Log LogData} {actions : List (Action LogData)} (hinv : Inv s)
    (hrun : Run step s actions = some t) :
    Inv t ∧ (Late t ∨ AllSteps step Collected s actions) := by
  induction actions generalizing s with
  | nil =>
      cases hrun
      exact ⟨hinv, Or.inr trivial⟩
  | cons action rest ih =>
      rcases run_cons_eq_some hrun with ⟨next, hstep, hrest⟩
      have hnext := inv_step hinv hstep
      rcases ih hnext hrest with ⟨hlast, hlate | hsteps⟩
      · exact ⟨hlast, Or.inl hlate⟩
      · refine ⟨hlast, ?_⟩
        by_cases hok : Collected s action
        · exact Or.inr ((allSteps_cons_iff hstep).mpr ⟨hok, hsteps⟩)
        · have hkeep : forall (u : Log LogData) (a : Action LogData) (v : Log LogData),
              Inv u ∧ Late u -> True -> step u a = some v -> Inv v ∧ Late v :=
            fun u a v h _ hu => ⟨inv_step h.left hu, late_step h.left h.right hu⟩
          have hlate := run_invariant hkeep ⟨hnext, late_of_not_collected hinv hok hstep⟩
            (allSteps_of_labels (fun _ _ _ => trivial) next) hrest
          exact Or.inl hlate.right

theorem entries_handled_iff (actions : List (Action LogData)) :
    (AllSteps step Collected start actions -> AllStates step NothingLost start actions) ∧
      forall s, Run step start actions = some s -> s.thread = .exited ->
        (NothingLost s <-> AllSteps step Collected start actions) := by
  have hstart : Inv (start : Log LogData) ∧ InTime (start : Log LogData) :=
    ⟨inv_start, fun h => by cases h⟩
  have hkeep : forall (s : Log LogData) (a : Action LogData) (t : Log LogData),
      Inv s ∧ InTime s -> Collected s a -> step s a = some t -> Inv t ∧ InTime t :=
    fun s a t => inv_and_inTime_step
  constructor
  · intro hsteps
    exact allStates_of_invariant hkeep (fun s h => nothingLost_of_inTime h.left h.right) hstart
      hsteps
  · intro s hrun hexited
    constructor
    · intro hnone
      rcases late_or_collected hstart.left hrun with ⟨hinv, hlate | hsteps⟩
      · exact absurd hnone (not_nothingLost_of_late hinv hlate hexited)
      · exact hsteps
    · intro hsteps
      have hlast := run_invariant hkeep hstart hsteps hrun
      exact nothingLost_of_inTime hlast.left hlast.right

/-- The entry is pushed behind the swap, and `Stop` is called before the next test. -/
def pushedBehindSwap : List (Action Nat) :=
  [.thread, .thread, .PushLog 7, .callStop, .storeStop, .thread, .thread, .join, .destruct]

theorem entry_deleted :
    exists s : Log Nat, Run step start pushedBehindSwap = some s ∧ s.thread = .exited ∧
      s.before = some 1 ∧ s.pushed = [7] ∧ s.handled = [] ∧ s.deleted = [7] ∧
      ¬ NothingLost s := by
  refine ⟨_, rfl, rfl, rfl, rfl, rfl, rfl, ?_⟩
  intro hnone
  have hle := (hnone.complete rfl 1 rfl).length_le
  exact absurd hle (by decide)

end Log
end Utils
end GMServer
