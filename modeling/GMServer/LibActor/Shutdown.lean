import GMServer.LibActor.EndPoint

/-!
# Shutting down

`EndPoint::DisConnect` closes the session first and sets `m_bShutDown` after
that.  Whoever tests the flag between the two steps connects again.
-/

namespace GMServer
namespace LibActor
namespace EndPoint

open Transition

/-- Once `DisConnect` has returned, no attempt can succeed and none has. -/
abbrev ShutDownFinal (s : EndPointState) : Prop :=
  s.disConnect = .returned -> countAttempts s.pending = 0 ∧ s.connected = false

/-- The same, and no attempt that was cancelled waits for its completion. -/
abbrev ShutDownIdle (s : EndPointState) : Prop :=
  s.disConnect = .returned -> countConnects s.pending = 0 ∧ s.connected = false

/-!
# The condition

The session is closed while no handler is on its way from a test of the flag to
`DoConnect`, and no handler tests the flag until it is set.
-/

def testsShutDown : List Task -> Bool
  | .OnDisconnect :: _ => true
  | .OnConnetResult false :: _ => true
  | _ => false

def NoRestart (s : EndPointState) : EndPointAction -> Prop
  | .sessionDisConnect => .DoConnect ∉ s.tasks
  | .runTask => s.disConnect = .sessionDone -> testsShutDown s.tasks = false
  | _ => True

instance (s : EndPointState) : (a : EndPointAction) -> Decidable (NoRestart s a)
  | .sessionDisConnect => inferInstanceAs (Decidable (.DoConnect ∉ s.tasks))
  | .runTask => inferInstanceAs (Decidable (_ -> _))
  | .SendPacket _ | .SendPacketList _ | .DoSend | .complete _ _ | .storeShutDown =>
      isTrue trivial

def NoAttempt (s : EndPointState) : EndPointAction -> Prop
  | .sessionDisConnect => countConnects s.pending = 0
  | _ => True

/-!
# The invariant
-/

structure Closed (c : Control) : Prop where
  handle : c.handle = .ignore
  connected : c.connected = false
  attempts : c.attempts = 0
  tasks : .DoConnect ∉ c.tasks

structure ShutDownInv (c : Control) : Prop where
  flag : c.m_bShutDown = true <-> c.disConnect = .returned
  order : .DoConnect ∉ c.tasks.tail
  closed : c.disConnect ≠ .notCalled -> Closed c

theorem shutDownInv_init (m_iPackLen : uint16_t) :
    ShutDownInv (control (init m_iPackLen)) where
  flag := by
    constructor <;> intro h <;> cases h
  order := List.not_mem_nil
  closed := fun h => absurd rfl h

theorem final_of_inv {s : EndPointState} (hinv : ShutDownInv (control s)) :
    ShutDownFinal s := by
  intro hreturned
  have hpc : (control s).disConnect = .returned := hreturned
  have hclosed := hinv.closed (by rw [hpc]; decide)
  exact ⟨hclosed.attempts, hclosed.connected⟩

theorem attempt_pending {s : EndPointState} {i : Nat}
    (hop : s.pending[i]? = some { op := .ConnectServer, aborted := false }) :
    (control s).attempts ≠ 0 := by
  have hattempts : countAttempts (s.pending.eraseIdx i) + 1 = (control s).attempts :=
    attempts_eraseIdx hop
  omega

theorem shutDownInv_success {s : EndPointState} {i : Nat} {op : Operation}
    (hinv : ShutDownInv (control s))
    (hop : s.pending[i]? = some { op := op, aborted := false }) :
    ShutDownInv (control (handleSuccess (taken s i) op)) := by
  rcases op.kinds with hread | ⟨pSend, hwrite⟩ | hconnect
  · rw [control_success_read hread hop]
    exact hinv
  · subst hwrite
    rw [control_success_write hop]
    exact
      { flag := hinv.flag
        order := List.not_mem_nil
        closed := fun h => { hinv.closed h with
            tasks := (by decide : Task.DoConnect ∉ [Task.DoSend]) } }
  · subst hconnect
    rcases control_success_connect hop with ⟨connects, attempts, _, _, hcontrol⟩
    rw [hcontrol]
    exact
      { flag := hinv.flag
        order := (by decide : Task.DoConnect ∉ [Task.OnConnetResult true])
        closed := fun h => absurd (hinv.closed h).attempts (attempt_pending hop) }

theorem shutDownInv_error {s : EndPointState} {i : Nat} {op : Operation} {aborted : Bool}
    (hinv : ShutDownInv (control s))
    (hop : s.pending[i]? = some { op := op, aborted := aborted }) :
    ShutDownInv (control (handleError (taken s i) op)) := by
  have hlost : forall reads,
      ShutDownInv { control s with
        reads := reads, attempts := 0, connected := false,
        tasks := [.DisconnectHandle] } := by
    intro reads
    exact
      { flag := hinv.flag
        order := List.not_mem_nil
        closed := fun h =>
          { handle := (hinv.closed h).handle
            connected := rfl
            attempts := rfl
            tasks := (by decide : Task.DoConnect ∉ [Task.DisconnectHandle]) } }
  rcases op.kinds with hread | ⟨pSend, hwrite⟩ | hconnect
  · rcases control_error_read hread hop with ⟨reads, _, hcontrol⟩
    rw [hcontrol]
    exact hlost reads
  · subst hwrite
    rw [control_error_write hop]
    exact hlost _
  · subst hconnect
    rcases control_error_connect hop with ⟨connects, attempts, _, hattempts, hcontrol⟩
    rw [hcontrol]
    exact
      { flag := hinv.flag
        order := List.not_mem_nil
        closed := fun h =>
          { hinv.closed h with
            attempts := by
              have hzero := (hinv.closed h).attempts
              show attempts = 0
              omega
            tasks := (by decide : Task.DoConnect ∉ [Task.OnConnetResult false]) } }

theorem shutDownInv_task {s t : EndPointState} {task : Task} {rest : List Task}
    (hinv : ShutDownInv (control s)) (htasks : s.tasks = task :: rest)
    (hquiet : NoRestart s .runTask) (ht : handleTask s rest task = some t) :
    ShutDownInv (control t) := by
  have hlist : (control s).tasks = task :: rest := htasks
  have horder : Task.DoConnect ∉ rest := by
    have hall := hinv.order
    rw [hlist] at hall
    exact hall
  have htail : Task.DoConnect ∉ rest.tail :=
    fun h => horder (List.mem_of_mem_tail h)
  -- what is left of the tasks after this one
  have hrest : forall notified,
      ShutDownInv { control s with tasks := rest, notified := notified } := by
    intro notified
    exact
      { flag := hinv.flag
        order := htail
        closed := fun h => { hinv.closed h with tasks := horder } }
  cases handleTask_sound ht with
  | doSend hsend =>
      rw [control_doSend hsend]
      exact hrest _
  | ignored hhandle => exact hrest _
  | notified hhandle =>
      exact
        { flag := hinv.flag
          order := horder
          closed := fun h => by
            have hignore : s.session.m_OnDisconnectHandle = .ignore :=
              (hinv.closed h).handle
            rw [hhandle] at hignore
            cases hignore }
  | shutDown hflag htask => exact hrest _
  | reconnect hflag htask =>
      have htests : testsShutDown s.tasks = true := by
        rw [htasks]
        rcases htask with h | h <;> rw [h] <;> rfl
      refine { flag := hinv.flag, order := horder, closed := ?_ }
      intro h
      exfalso
      cases hpc : s.disConnect with
      | notCalled => exact h hpc
      | sessionDone =>
          have hno := hquiet hpc
          rw [htests] at hno
          cases hno
      | returned =>
          have hset : s.m_bShutDown = true := hinv.flag.mpr hpc
          rw [hset] at hflag
          cases hflag
  | connected hflag =>
      exact hrest _
  | doConnect =>
      rw [control_connectServer]
      refine { flag := hinv.flag, order := htail, closed := ?_ }
      intro h
      have hnot := (hinv.closed h).tasks
      rw [hlist] at hnot
      exact absurd List.mem_cons_self hnot

theorem shutDownInv_step {s t : EndPointState} {a : EndPointAction}
    (hinv : ShutDownInv (control s)) (hquiet : NoRestart s a)
    (hstep : step s a = some t) : ShutDownInv (control t) := by
  cases step_sound hstep with
  | submit session bDoSend ha hhandle =>
      exact
        { flag := hinv.flag
          order := hinv.order
          closed := fun h =>
            { hinv.closed h with
              handle := by rw [← (hinv.closed h).handle]; exact hhandle } }
  | doSend hcalls hsend =>
      rw [control_doSend hsend]
      exact hinv
  | success hfree hop => exact shutDownInv_success hinv hop
  | error hfree hop => exact shutDownInv_error hinv hop
  | task htasks ht => exact shutDownInv_task hinv htasks hquiet ht
  | sessionDisConnect hpc =>
      have hclose := control_close { s with session := s.session.ignoreHandles }
      have hcontrol : control { Close { s with session := s.session.ignoreHandles } with
          disConnect := .sessionDone } =
            { control s with
              connected := false, attempts := 0, handle := .ignore,
              disConnect := .sessionDone } := by
        show { control (Close { s with session := s.session.ignoreHandles }) with
          disConnect := DisConnectPc.sessionDone } = _
        rw [hclose]
        rfl
      rw [hcontrol]
      refine { flag := ⟨?_, fun h => by cases h⟩, order := hinv.order, closed := ?_ }
      · intro hset
        have hreturned : s.disConnect = .returned := hinv.flag.mp hset
        rw [hpc] at hreturned
        cases hreturned
      · intro _
        exact { handle := rfl, connected := rfl, attempts := rfl, tasks := hquiet }
  | storeShutDown hpc =>
      have hcalled : (control s).disConnect ≠ .notCalled := by
        rw [show (control s).disConnect = .sessionDone from hpc]
        decide
      have hclosed := hinv.closed hcalled
      exact
        { flag := ⟨fun _ => rfl, fun _ => rfl⟩
          order := hinv.order
          closed := fun _ => { hclosed with } }

/-!
# Without an attempt in flight

If nothing was connecting when the session was closed, nothing is left that
could wait for a completion.
-/

def NoneWaiting (c : Control) : Prop := c.disConnect ≠ .notCalled -> c.connects = 0

theorem noneWaiting_success {s : EndPointState} {i : Nat} {op : Operation}
    (hinv : ShutDownInv (control s)) (hnone : NoneWaiting (control s))
    (hop : s.pending[i]? = some { op := op, aborted := false }) :
    NoneWaiting (control (handleSuccess (taken s i) op)) := by
  rcases op.kinds with hread | ⟨pSend, hwrite⟩ | hconnect
  · rw [control_success_read hread hop]
    exact hnone
  · subst hwrite
    rw [control_success_write hop]
    exact hnone
  · subst hconnect
    rcases control_success_connect hop with ⟨connects, attempts, _, _, hcontrol⟩
    rw [hcontrol]
    intro hcalled
    exact absurd (hinv.closed hcalled).attempts (attempt_pending hop)

theorem noneWaiting_error {s : EndPointState} {i : Nat} {op : Operation} {aborted : Bool}
    (hnone : NoneWaiting (control s))
    (hop : s.pending[i]? = some { op := op, aborted := aborted }) :
    NoneWaiting (control (handleError (taken s i) op)) := by
  rcases op.kinds with hread | ⟨pSend, hwrite⟩ | hconnect
  · rcases control_error_read hread hop with ⟨reads, _, hcontrol⟩
    rw [hcontrol]
    exact hnone
  · subst hwrite
    rw [control_error_write hop]
    exact hnone
  · subst hconnect
    rcases control_error_connect hop with ⟨connects, attempts, hconnects, _, hcontrol⟩
    rw [hcontrol]
    intro hcalled
    have hzero : (control s).connects = 0 := hnone hcalled
    rw [hzero] at hconnects
    cases hconnects

theorem noneWaiting_step {s t : EndPointState} {a : EndPointAction}
    (hinv : ShutDownInv (control s)) (hnone : NoneWaiting (control s))
    (hidle : NoAttempt s a) (hstep : step s a = some t) : NoneWaiting (control t) := by
  cases step_sound hstep with
  | submit session bDoSend ha hhandle => exact hnone
  | doSend hcalls hsend =>
      rw [control_doSend hsend]
      exact hnone
  | success hfree hop => exact noneWaiting_success hinv hnone hop
  | error hfree hop => exact noneWaiting_error hnone hop
  | task htasks ht =>
      cases handleTask_sound ht with
      | doSend hsend =>
          rw [control_doSend hsend]
          exact hnone
      | ignored hhandle => exact hnone
      | notified hhandle => exact hnone
      | shutDown hflag htask => exact hnone
      | reconnect hflag htask => exact hnone
      | connected hflag => exact hnone
      | doConnect =>
          rw [control_connectServer]
          intro hcalled
          have hnot := (hinv.closed hcalled).tasks
          rw [show (control s).tasks = s.tasks from rfl, htasks] at hnot
          exact absurd List.mem_cons_self hnot
  | sessionDisConnect hpc =>
      intro _
      have hclose := control_close { s with session := s.session.ignoreHandles }
      have hsame : countConnects (Close { s with
          session := s.session.ignoreHandles }).pending = countConnects s.pending :=
        congrArg Control.connects hclose
      exact hsame.trans hidle
  | storeShutDown hpc =>
      intro _
      apply hnone
      rw [show (control s).disConnect = .sessionDone from hpc]
      decide

/-!
# A test between the two steps

It comes out false, and the attempt it leads to outlives `DisConnect`.
-/

theorem restart_of_doConnect {s : EndPointState} {rest : List Task}
    (hpc : s.disConnect = .sessionDone) (htasks : s.tasks = .DoConnect :: rest) :
    exists more t, Run step s more = some t ∧ ¬ ShutDownFinal t := by
  have hstore : step s .storeShutDown =
      some { s with m_bShutDown := true, disConnect := .returned } := by
    simp only [step, hpc]
  have hconnect : step { s with m_bShutDown := true, disConnect := .returned } .runTask =
      some (ConnectServer { s with
        m_bShutDown := true, disConnect := .returned, tasks := rest }) := by
    simp only [step, htasks, handleTask]
  refine ⟨[.storeShutDown, .runTask], _, by
    rw [run_cons_of_step _ hstore, run_cons_of_step _ hconnect, run_nil], ?_⟩
  intro hfinal
  have hzero := (hfinal rfl).left
  have hone := congrArg Control.attempts (control_connectServer { s with
    m_bShutDown := true, disConnect := .returned, tasks := rest })
  rw [show (control (ConnectServer { s with
    m_bShutDown := true, disConnect := .returned, tasks := rest })).attempts = 0 from hzero]
    at hone
  cases hone

theorem head_of_order {tasks : List Task} (horder : Task.DoConnect ∉ tasks.tail)
    (hmem : Task.DoConnect ∈ tasks) : exists rest, tasks = .DoConnect :: rest := by
  cases tasks with
  | nil => cases hmem
  | cons task rest =>
      rcases List.mem_cons.mp hmem with hhead | hlater
      · exact ⟨rest, by rw [hhead]⟩
      · exact absurd hlater horder

theorem restart_of_not_noRestart {s t : EndPointState} {a : EndPointAction}
    (hinv : ShutDownInv (control s)) (hnot : ¬ NoRestart s a)
    (hstep : step s a = some t) :
    exists more u, Run step t more = some u ∧ ¬ ShutDownFinal u := by
  cases hs : step_sound hstep with
  | submit session bDoSend ha hhandle =>
      apply absurd _ hnot
      rcases ha with ⟨pPacket, h⟩ | ⟨listPacket, h⟩ <;> rw [h] <;> trivial
  | doSend hcalls hsend => exact absurd trivial hnot
  | success hfree hop => exact absurd trivial hnot
  | error hfree hop => exact absurd trivial hnot
  | task htasks ht =>
      rename_i task rest
      simp only [NoRestart, Classical.not_imp] at hnot
      rcases hnot with ⟨hpc, htests⟩
      have hflag : s.m_bShutDown = false := by
        cases hset : s.m_bShutDown with
        | false => rfl
        | true =>
            have hreturned : s.disConnect = .returned := hinv.flag.mp hset
            rw [hpc] at hreturned
            cases hreturned
      rw [htasks] at htests
      have hrestart : t = { s with tasks := .DoConnect :: rest } := by
        cases handleTask_sound ht with
        | reconnect _ _ => rfl
        | shutDown hset _ =>
            rw [hflag] at hset
            cases hset
        | doSend hsend => exact absurd rfl htests
        | ignored _ => exact absurd rfl htests
        | notified _ => exact absurd rfl htests
        | connected _ => exact absurd rfl htests
        | doConnect => exact absurd rfl htests
      rw [hrestart]
      exact restart_of_doConnect (s := { s with tasks := .DoConnect :: rest }) hpc rfl
  | sessionDisConnect hpc =>
      rcases head_of_order hinv.order (Classical.not_not.mp hnot) with ⟨rest, htasks⟩
      exact restart_of_doConnect (s := { Close { s with
        session := s.session.ignoreHandles } with disConnect := .sessionDone }) rfl htasks
  | storeShutDown hpc => exact absurd trivial hnot

/-!
# Whole runs
-/

/-- Without a restart in between, shutting down is final; if nothing was
connecting it also leaves nothing behind; and any step to the contrary can be
continued to an attempt after `DisConnect` has returned. -/
theorem noRestart_final (m_iPackLen : uint16_t) {actions : List EndPointAction}
    (hquiet : AllSteps step NoRestart (init m_iPackLen) actions) :
    AllStates step ShutDownFinal (init m_iPackLen) actions ∧
      (AllSteps step NoAttempt (init m_iPackLen) actions ->
        AllStates step ShutDownIdle (init m_iPackLen) actions) ∧
      forall s a t, Run step (init m_iPackLen) actions = some s ->
        ¬ NoRestart s a -> step s a = some t ->
          exists more u, Run step t more = some u ∧ ¬ ShutDownFinal u := by
  have hstart := shutDownInv_init m_iPackLen
  have hkeep : forall s a t, ShutDownInv (control s) -> NoRestart s a ->
      step s a = some t -> ShutDownInv (control t) :=
    fun s a t hinv hno hstep => shutDownInv_step hinv hno hstep
  refine ⟨allStates_of_invariant hkeep (fun s => final_of_inv) hstart hquiet, ?_, ?_⟩
  · intro hidle
    have hkeepBoth : forall s a t,
        (ShutDownInv (control s) ∧ NoneWaiting (control s)) ->
        (NoRestart s a ∧ NoAttempt s a) -> step s a = some t ->
          (ShutDownInv (control t) ∧ NoneWaiting (control t)) := by
      intro s a t hinv hok hstep
      exact ⟨shutDownInv_step hinv.left hok.left hstep,
        noneWaiting_step hinv.left hinv.right hok.right hstep⟩
    have hholds : forall s, (ShutDownInv (control s) ∧ NoneWaiting (control s)) ->
        ShutDownIdle s := by
      intro s hinv hreturned
      refine ⟨hinv.right ?_, (final_of_inv hinv.left hreturned).right⟩
      rw [show (control s).disConnect = .returned from hreturned]
      decide
    exact allStates_of_invariant hkeepBoth hholds
      ⟨hstart, fun hcalled => absurd rfl hcalled⟩ (allSteps_and hquiet hidle)
  · intro s a t hrun hnot hstep
    exact restart_of_not_noRestart (run_invariant hkeep hstart hquiet hrun) hnot hstep

/-- The attempt in flight is cancelled, and its completion finds the flag set. -/
def cancelledAttempt : List EndPointAction :=
  [.sessionDisConnect, .storeShutDown, .complete 0 false, .runTask]

theorem noRestart_final_cancelledAttempt :
    AllStates step ShutDownFinal (init 0) cancelledAttempt :=
  (noRestart_final 0 (by decide)).left

/-- The completion of the cancelled attempt runs before the flag is set. -/
def restartedAttempt : List EndPointAction :=
  [.sessionDisConnect, .complete 0 false, .runTask, .runTask, .storeShutDown]

theorem restartedAttempt_not_final :
    exists s, Run step (init 0) restartedAttempt = some s ∧
      s.disConnect = .returned ∧ countAttempts s.pending = 1 ∧ ¬ ShutDownFinal s ∧
      exists t, step s (.complete 0 true) = some t ∧ t.connected = true :=
  ⟨_, rfl, rfl, rfl, fun h => absurd (h rfl).left (by decide), _, rfl, rfl⟩

end EndPoint
end LibActor
end GMServer
