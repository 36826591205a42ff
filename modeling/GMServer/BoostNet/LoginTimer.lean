import GMServer.Library.Transition
import GMServer.BoostNet.ReadCycle

/-!
# The login timer

`OnConnect` issues the first `ReadHead` and arms a deadline timer, which the handler of a
header read cancels.  `OnConnect` runs on the thread of the acceptor; the handlers of the
session run one after the other on the thread of the session's own io_service.
-/

namespace GMServer
namespace BoostNet

/-- The next call of `OnConnect`. -/
inductive OnConnectPc where
  | ReadHead
  | SetDeadLineTimer
  | returned
  deriving DecidableEq, Repr

/-- The wait on `m_DeadLineTimer`: none, running, or over with its handler queued.  The
handler is then called without an error, whatever `cancel` does after that. -/
inductive DeadLineTimer where
  | idle
  | waiting
  | expired
  deriving DecidableEq, Repr

def DeadLineTimer.cancel : DeadLineTimer -> DeadLineTimer
  | .waiting => .idle
  | timer => timer

theorem DeadLineTimer.cancel_eq_idle_iff (timer : DeadLineTimer) :
    timer.cancel = .idle <-> timer ≠ .expired := by
  cases timer <;> decide

/-!
# States

`heading` is the handler of a header read that has not cancelled the timer yet, with its
result.  A header counts as read when that handler has returned.  The last two fields only
record: whether the connection was closed, and the calls of `m_OnDisconnectHandle`.
-/

structure LoginState where
  session : TCPSession
  onConnect : OnConnectPc
  reading : Option ReadStage
  heading : Option Bool
  m_DeadLineTimer : DeadLineTimer
  headersRead : Nat
  closed : Bool
  disconnects : List SessionHandle
  deriving DecidableEq, Repr

/-- The completions carry whether the read ended without an error. -/
inductive LoginAction where
  | ReadHead
  | SetDeadLineTimer
  | headRead (ok : Bool)
  | CancelDeadLineTimer
  | bodyRead (ok : Bool)
  | expire
  | deadLine
  deriving DecidableEq, Repr

namespace LoginTimer

open Transition

/-- `StartAccept` calls `OnConnect` on the session it has accepted. -/
def init (session : TCPSession) : LoginState :=
  { session := session,
    onConnect := .ReadHead,
    reading := none,
    heading := none,
    m_DeadLineTimer := .idle,
    headersRead := 0,
    closed := false,
    disconnects := [] }

/-!
# Steps

A handler of the session starts when no other one is running.
-/

def OnDisconnect (s : LoginState) : LoginState :=
  { s with disconnects := s.disconnects ++ [s.session.m_OnDisconnectHandle] }

/-- What the handlers of both reads do with an error. -/
def readFailed (s : LoginState) : LoginState :=
  OnDisconnect { s with reading := none, closed := true }

def DisConnect (s : LoginState) : LoginState :=
  { s with session := s.session.ignoreHandles, closed := true }

def step (s : LoginState) : LoginAction -> Option LoginState
  | .ReadHead =>
      if s.onConnect = .ReadHead then
        some { s with onConnect := .SetDeadLineTimer, reading := some .ReadHead }
      else
        none
  | .SetDeadLineTimer =>
      if s.onConnect = .SetDeadLineTimer then
        some { s with onConnect := .returned, m_DeadLineTimer := .waiting }
      else
        none
  | .headRead ok =>
      if s.heading = none ∧ s.reading = some .ReadHead then
        if ok then
          some { s with
            session := s.session.ReadBody.1,
            reading := some .ReadBody,
            heading := some true }
        else
          some { readFailed s with heading := some false }
      else
        none
  | .CancelDeadLineTimer =>
      match s.heading with
      | none => none
      | some ok =>
          some { s with
            heading := none,
            m_DeadLineTimer := s.m_DeadLineTimer.cancel,
            headersRead := s.headersRead + ok.toNat }
  | .bodyRead ok =>
      if s.heading = none ∧ s.reading = some .ReadBody then
        if ok then
          some { s with
            session := { s.session with m_pReadMsg := none },
            reading := some .ReadHead }
        else
          some (readFailed s)
      else
        none
  | .expire =>
      if s.m_DeadLineTimer = .waiting then
        some { s with m_DeadLineTimer := .expired }
      else
        none
  | .deadLine =>
      if s.heading = none ∧ s.m_DeadLineTimer = .expired then
        some (DisConnect (OnDisconnect { s with m_DeadLineTimer := .idle }))
      else
        none

/-!
# The law and its condition
-/

/-- The timer is not armed once a header has been read. -/
def SpokenUnarmed (s : LoginState) : Prop :=
  0 < s.headersRead -> s.m_DeadLineTimer = .idle

/-- The step does not disconnect a session that has spoken because of the timer. -/
def SparesSpoken (s : LoginState) : LoginAction -> Prop
  | .deadLine => s.m_DeadLineTimer = .expired -> s.headersRead = 0
  | _ => True

/-- The timer is armed before a header is read, and cancelled before it expires. -/
def InTime (s : LoginState) : LoginAction -> Prop
  | .SetDeadLineTimer => s.headersRead = 0
  | .CancelDeadLineTimer => s.heading = some true -> s.m_DeadLineTimer ≠ .expired
  | _ => True

instance (s : LoginState) : Decidable (SpokenUnarmed s) :=
  inferInstanceAs (Decidable (_ -> _))

instance (s : LoginState) (a : LoginAction) : Decidable (InTime s a) := by
  unfold InTime
  split <;> infer_instance

/-!
# One step

Only arming, the cancel of a handler and the timer itself touch what the law is about.
-/

theorem spokenUnarmed_congr {s t : LoginState} (hread : t.headersRead = s.headersRead)
    (htimer : t.m_DeadLineTimer = s.m_DeadLineTimer) (hlaw : SpokenUnarmed s) :
    SpokenUnarmed t := by
  unfold SpokenUnarmed
  rw [hread, htimer]
  exact hlaw

theorem spokenUnarmed_step_iff {s t : LoginState} {a : LoginAction}
    (hlaw : SpokenUnarmed s) (hstep : step s a = some t) :
    SpokenUnarmed t <-> InTime s a := by
  cases a with
  | ReadHead =>
      rcases Option.ite_none_right_eq_some.mp hstep with ⟨_, hEq⟩
      cases hEq
      exact iff_of_true (spokenUnarmed_congr rfl rfl hlaw) trivial
  | SetDeadLineTimer =>
      rcases Option.ite_none_right_eq_some.mp hstep with ⟨_, hEq⟩
      cases hEq
      constructor
      · intro hunarmed
        by_contra hspoken
        cases hunarmed (Nat.pos_of_ne_zero hspoken)
      · intro hnone hspoken
        exact absurd hnone (Nat.ne_of_gt hspoken)
  | headRead ok =>
      rcases Option.ite_none_right_eq_some.mp hstep with ⟨_, hEq⟩
      cases ok with
      | true =>
          cases hEq
          exact iff_of_true (spokenUnarmed_congr rfl rfl hlaw) trivial
      | false =>
          cases hEq
          exact iff_of_true (spokenUnarmed_congr rfl rfl hlaw) trivial
  | CancelDeadLineTimer =>
      unfold step at hstep
      cases hheading : s.heading with
      | none =>
          rw [hheading] at hstep
          cases hstep
      | some ok =>
          rw [hheading] at hstep
          cases hstep
          cases ok with
          | true =>
              have hspoken : 0 < s.headersRead + true.toNat := Nat.succ_pos _
              rw [InTime, hheading, forall_prop_of_true rfl, ← DeadLineTimer.cancel_eq_idle_iff]
              exact forall_prop_of_true hspoken
          | false =>
              refine iff_of_true ?_ (fun h => absurd (hheading.symm.trans h) (by decide))
              intro hspoken
              show s.m_DeadLineTimer.cancel = .idle
              rw [hlaw hspoken]
              rfl
  | bodyRead ok =>
      rcases Option.ite_none_right_eq_some.mp hstep with ⟨_, hEq⟩
      cases ok with
      | true =>
          cases hEq
          exact iff_of_true (spokenUnarmed_congr rfl rfl hlaw) trivial
      | false =>
          cases hEq
          exact iff_of_true (spokenUnarmed_congr rfl rfl hlaw) trivial
  | expire =>
      rcases Option.ite_none_right_eq_some.mp hstep with ⟨hwaiting, hEq⟩
      cases hEq
      refine iff_of_true (fun hspoken => ?_) trivial
      cases hwaiting.symm.trans (hlaw hspoken)
  | deadLine =>
      rcases Option.ite_none_right_eq_some.mp hstep with ⟨_, hEq⟩
      cases hEq
      exact iff_of_true (fun _ => rfl) trivial

theorem sparesSpoken_of_unarmed {s : LoginState} (hlaw : SpokenUnarmed s)
    (a : LoginAction) : SparesSpoken s a := by
  cases a with
  | deadLine =>
      intro hexpired
      by_contra hspoken
      cases hexpired.symm.trans (hlaw (Nat.pos_of_ne_zero hspoken))
  | ReadHead => trivial
  | SetDeadLineTimer => trivial
  | headRead ok => trivial
  | CancelDeadLineTimer => trivial
  | bodyRead ok => trivial
  | expire => trivial

/-- Where the law is broken, the timer disconnects the session unless it is cancelled. -/
theorem armed_disconnects {s : LoginState} (hbroken : ¬ SpokenUnarmed s)
    (hheading : s.heading = none) :
    exists actions t u, Run step s actions = some t ∧ ¬ SparesSpoken t .deadLine ∧
      step t .deadLine = some u ∧ u.closed = true := by
  unfold SpokenUnarmed at hbroken
  rw [Classical.not_imp] at hbroken
  rcases hbroken with ⟨hspoken, harmed⟩
  have hkills : forall t : LoginState, t.heading = none -> t.m_DeadLineTimer = .expired ->
      t.headersRead = s.headersRead ->
      ¬ SparesSpoken t .deadLine ∧ exists u, step t .deadLine = some u ∧ u.closed = true := by
    intro t hnone hexpired hread
    constructor
    · intro hspares
      exact Nat.ne_of_gt hspoken (hread.symm.trans (hspares hexpired))
    · exact ⟨_, if_pos ⟨hnone, hexpired⟩, rfl⟩
  cases htimer : s.m_DeadLineTimer with
  | idle => exact absurd htimer harmed
  | waiting =>
      have hstep : step s .expire = some { s with m_DeadLineTimer := .expired } :=
        if_pos htimer
      rcases hkills { s with m_DeadLineTimer := .expired } hheading rfl rfl with
        ⟨hnot, u, hu, hclosed⟩
      exact ⟨[.expire], _, u, by rw [run_cons_of_step [] hstep, run_nil], hnot, hu, hclosed⟩
  | expired =>
      rcases hkills s hheading htimer rfl with ⟨hnot, u, hu, hclosed⟩
      exact ⟨[], s, u, rfl, hnot, hu, hclosed⟩

/-!
# Whole runs
-/

/-- The timer is unarmed in all states with a header read exactly in the runs that arm and
cancel it in time, and in these its expiry disconnects no session that has spoken.  Where the
timer is left armed it still can. -/
theorem spokenUnarmed_iff (session : TCPSession) {actions : List LoginAction}
    {t : LoginState} (hrun : Run step (init session) actions = some t) :
    (AllStates step SpokenUnarmed (init session) actions <->
      AllSteps step InTime (init session) actions) ∧
      (AllSteps step InTime (init session) actions ->
        AllSteps step SparesSpoken (init session) actions) ∧
      (¬ SpokenUnarmed t -> t.heading = none ->
        exists more u v, Run step t more = some u ∧ ¬ SparesSpoken u .deadLine ∧
          step u .deadLine = some v ∧ v.closed = true) := by
  have hkeep : forall s a u, SpokenUnarmed s -> InTime s a -> step s a = some u ->
      SpokenUnarmed u :=
    fun s a u hlaw hintime hstep => (spokenUnarmed_step_iff hlaw hstep).mpr hintime
  have hbreak : forall s a u, SpokenUnarmed s -> True -> ¬ InTime s a -> step s a = some u ->
      ¬ SpokenUnarmed u :=
    fun s a u hlaw _ hlate hstep hnext => hlate ((spokenUnarmed_step_iff hlaw hstep).mp hnext)
  have hstart : SpokenUnarmed (init session) := fun _ => rfl
  refine ⟨?_, ?_, armed_disconnects⟩
  · exact allStates_iff_allSteps (fun s a u hlaw _ => hkeep s a u hlaw)
      (fun s hlaw => hlaw) hbreak hstart (fun _ _ => trivial) hrun
  · exact allSteps_of_invariant hkeep (fun s a hlaw _ => sparesSpoken_of_unarmed hlaw a) hstart

/-!
# A cancel before the timer is armed

The handler of the first header returns while `OnConnect` is between its two calls.
-/

def cancelFirst : List LoginAction :=
  [.ReadHead, .headRead true, .CancelDeadLineTimer, .SetDeadLineTimer, .expire]

theorem cancelFirst_disconnects :
    exists t, Run step (init (TCPSession.new 0)) cancelFirst = some t ∧
      ¬ SpokenUnarmed t ∧ ¬ SparesSpoken t .deadLine ∧ (step t .deadLine).isSome = true := by
  refine ⟨_, rfl, by decide, ?_, by decide⟩
  intro hspares
  cases hspares rfl

def armFirst : List LoginAction :=
  [.ReadHead, .headRead true, .SetDeadLineTimer, .CancelDeadLineTimer, .bodyRead true]

theorem armFirst_unarmed :
    exists t, Run step (init (TCPSession.new 0)) armFirst = some t ∧
      AllStates step SpokenUnarmed (init (TCPSession.new 0)) armFirst := by
  have hrun : (Run step (init (TCPSession.new 0)) armFirst).isSome = true := by
    decide
  rcases Option.isSome_iff_exists.mp hrun with ⟨t, ht⟩
  exact ⟨t, ht, (spokenUnarmed_iff (TCPSession.new 0) ht).left.mpr (by decide)⟩

end LoginTimer
end BoostNet
end GMServer
