import GMServer.LibActor.EndPoint

/-!
# Reconnecting

Every completion with an error closes the socket and calls
`m_OnDisconnectHandle`, and closing the socket fails the operations that are
still pending.  While a connection is up a write is pending beside the read,
since `DoSend` must not find the queue empty.
-/

namespace GMServer
namespace LibActor

/-- The tasks that lead to a connect. -/
def Task.reconnects : Task -> Bool
  | .DisconnectHandle => true
  | .OnDisconnect => true
  | .DoConnect => true
  | .OnConnetResult bResult => !bResult
  | .DoSend => false

namespace EndPoint

open BoostNet Transition

structure OneReconnect (s : EndPointState) : Prop where
  notified : s.notified ≤ 1
  connects : countConnects s.pending ≤ 1
  reads : countReads s.pending ≤ 1

/-!
# The condition

Only connects fail: no read and no write completes with an error.
-/

def KeepsConnection (s : EndPointState) : EndPointAction -> Prop
  | .complete i false =>
      match s.pending[i]? with
      | none => True
      | some o => o.op.isConnect = true
  | _ => True

instance (s : EndPointState) : (a : EndPointAction) -> Decidable (KeepsConnection s a)
  | .complete i false =>
      match h : s.pending[i]? with
      | none => isTrue (by simp only [KeepsConnection, h])
      | some o =>
          decidable_of_iff (o.op.isConnect = true) (by simp only [KeepsConnection, h])
  | .complete _ true | .SendPacket _ | .SendPacketList _ | .DoSend | .runTask
  | .sessionDisConnect | .storeShutDown => isTrue trivial

/-!
# The invariant

One thing at a time keeps the session going: a pending read, a pending connect,
or a task that leads to a connect.  The handle has not been called since the
connection was established if it may still be called for it.
-/

def controls (tasks : List Task) : Nat := tasks.countP Task.reconnects

def notices (tasks : List Task) : Nat := tasks.countP (· = .DisconnectHandle)

theorem controls_cons (task : Task) (rest : List Task) :
    controls (task :: rest) = controls rest + if task.reconnects then 1 else 0 :=
  List.countP_cons

theorem notices_cons (task : Task) (rest : List Task) :
    notices (task :: rest) =
      notices rest + if decide (task = .DisconnectHandle) then 1 else 0 :=
  List.countP_cons

structure ReconnectInv (c : Control) : Prop where
  flag : c.m_bShutDown = false
  handle : c.handle = .owner
  notCalled : c.disConnect = .notCalled
  one : c.reads + c.connects + controls c.tasks = 1
  fresh : c.notified + c.reads + notices c.tasks ≤ 1

theorem reconnectInv_init (m_iPackLen : uint16_t) :
    ReconnectInv (control (init m_iPackLen)) where
  flag := rfl
  handle := rfl
  notCalled := rfl
  one := rfl
  fresh := Nat.zero_le 1

theorem oneReconnect_of_inv {s : EndPointState} (hinv : ReconnectInv (control s)) :
    OneReconnect s where
  notified := by
    have hfresh : s.notified + countReads s.pending + notices s.tasks ≤ 1 := hinv.fresh
    omega
  connects := by
    have hone : countReads s.pending + countConnects s.pending + controls s.tasks = 1 :=
      hinv.one
    omega
  reads := by
    have hone : countReads s.pending + countConnects s.pending + controls s.tasks = 1 :=
      hinv.one
    omega

/-!
# Completions and tasks keep it
-/

theorem reconnectInv_success {s : EndPointState} {i : Nat} {op : Operation}
    (hinv : ReconnectInv (control s)) (hfree : s.tasks = [])
    (hop : s.pending[i]? = some { op := op, aborted := false }) :
    ReconnectInv (control (handleSuccess (taken s i) op)) := by
  have htasks : (control s).tasks = [] := hfree
  have hone := hinv.one
  have hfresh := hinv.fresh
  rw [htasks] at hone hfresh
  rcases op.kinds with hread | ⟨pSend, hwrite⟩ | hconnect
  · rw [control_success_read hread hop]
    exact hinv
  · subst hwrite
    rw [control_success_write hop]
    exact { hinv with one := hone, fresh := hfresh }
  · subst hconnect
    rcases control_success_connect hop with ⟨connects, attempts, hconnects, _, hcontrol⟩
    rw [hcontrol]
    have hnone : controls [] = 0 := rfl
    have hreads : (control s).reads = 0 := by omega
    have hleft : connects = 0 := by omega
    exact
      { hinv with
        one := by
          simp only [hreads, hleft]
          rfl
        fresh := by
          simp only [hreads]
          exact Nat.le_refl _ }

theorem reconnectInv_error {s : EndPointState} {i : Nat} {op : Operation} {aborted : Bool}
    (hinv : ReconnectInv (control s)) (hfree : s.tasks = [])
    (hop : s.pending[i]? = some { op := op, aborted := aborted })
    (hkept : KeepsConnection s (.complete i false)) :
    ReconnectInv (control (handleError (taken s i) op)) := by
  have htasks : (control s).tasks = [] := hfree
  have hone := hinv.one
  have hfresh := hinv.fresh
  rw [htasks] at hone hfresh
  have hcontrols : controls [] = 0 := rfl
  simp only [KeepsConnection, hop] at hkept
  cases op with
  | ConnectServer =>
      rcases control_error_connect hop with ⟨connects, attempts, hconnects, _, hcontrol⟩
      rw [hcontrol]
      have hreads : (control s).reads = 0 := by omega
      have hleft : connects = 0 := by omega
      exact
        { hinv with
          one := by
            simp only [hreads, hleft]
            rfl
          fresh := hfresh }
  | ReadHead => cases hkept
  | ReadBody => cases hkept
  | WriteData pSend => cases hkept

theorem reconnectInv_task {s t : EndPointState} {task : Task} {rest : List Task}
    (hinv : ReconnectInv (control s)) (htasks : s.tasks = task :: rest)
    (ht : handleTask s rest task = some t) : ReconnectInv (control t) := by
  have hlist : (control s).tasks = task :: rest := htasks
  have hone := hinv.one
  have hfresh := hinv.fresh
  rw [hlist, controls_cons] at hone
  rw [hlist, notices_cons] at hfresh
  cases handleTask_sound ht with
  | doSend hsend =>
      rw [control_doSend hsend]
      exact { hinv with one := hone, fresh := hfresh }
  | ignored hhandle =>
      have howner : s.session.m_OnDisconnectHandle = .owner := hinv.handle
      rw [howner] at hhandle
      cases hhandle
  | notified hhandle =>
      have hnotified : (control s).notified + 1 + (control s).reads + notices rest ≤ 1 := by
        simp only [decide_true, if_true] at hfresh
        omega
      exact
        { hinv with
          one := by
            show (control s).reads + (control s).connects +
              controls (.OnDisconnect :: rest) = 1
            rw [controls_cons]
            exact hone
          fresh := by
            show (control s).notified + 1 + (control s).reads +
              notices (.OnDisconnect :: rest) ≤ 1
            rw [notices_cons]
            exact hnotified }
  | shutDown hflag htask =>
      have hclear : s.m_bShutDown = false := hinv.flag
      rw [hclear] at hflag
      cases hflag
  | reconnect hflag htask =>
      have hcontrols : controls (task :: rest) = controls (.DoConnect :: rest) := by
        rcases htask with h | h <;> rw [h] <;> rfl
      have hnotices : notices (task :: rest) = notices (.DoConnect :: rest) := by
        rcases htask with h | h <;> rw [h] <;> rfl
      rw [← controls_cons, hcontrols] at hone
      rw [← notices_cons, hnotices] at hfresh
      exact
        { hinv with
          one := hone
          fresh := hfresh }
  | connected hflag =>
      exact
        { hinv with
          one := hone
          fresh := hfresh }
  | doConnect =>
      rw [control_connectServer]
      exact
        { hinv with
          one := by
            show (control s).reads + ((control s).connects + 1) + controls rest = 1
            simp only [Task.reconnects, if_true] at hone
            omega
          fresh := hfresh }

theorem reconnectInv_step {s t : EndPointState} {a : EndPointAction}
    (hinv : ReconnectInv (control s)) (hopen : a ≠ .sessionDisConnect)
    (hkept : KeepsConnection s a) (hstep : step s a = some t) :
    ReconnectInv (control t) := by
  cases step_sound hstep with
  | submit session bDoSend ha hhandle =>
      exact { hinv with handle := by rw [← hinv.handle]; exact hhandle }
  | doSend hcalls hsend =>
      rw [control_doSend hsend]
      exact hinv
  | success hfree hop => exact reconnectInv_success hinv hfree hop
  | error hfree hop => exact reconnectInv_error hinv hfree hop hkept
  | task htasks ht => exact reconnectInv_task hinv htasks ht
  | sessionDisConnect hpc => exact absurd rfl hopen
  | storeShutDown hpc =>
      have hnot : s.disConnect = .notCalled := hinv.notCalled
      rw [hnot] at hpc
      cases hpc

/-!
# A write beside the read

A connect that succeeds and a write that succeeds both call `DoSend`, which starts
the next write.
-/

def countWrites (pending : List PendingOp) : Nat := pending.countP (·.op.isWrite)

def WritesBeside (s : EndPointState) : Prop :=
  0 < countReads s.pending -> Task.DoSend ∈ s.tasks ∨ 0 < countWrites s.pending

theorem countReads_connectServer (s : EndPointState) :
    countReads (ConnectServer s).pending = countReads s.pending :=
  congrArg Control.reads (control_connectServer s)

theorem countWrites_connectServer (s : EndPointState) :
    countWrites (ConnectServer s).pending = countWrites s.pending := by
  unfold ConnectServer Close countWrites
  rw [List.countP_append, List.countP_map]
  rfl

theorem writes_eraseIdx {s : EndPointState} {i : Nat} {op : Operation} {aborted : Bool}
    (hop : s.pending[i]? = some { op := op, aborted := aborted }) :
    countWrites (s.pending.eraseIdx i) + (if op.isWrite then 1 else 0) =
      countWrites s.pending :=
  Pending.countP_eraseIdx (fun o : PendingOp => o.op.isWrite) hop

theorem countWrites_startOp (s : EndPointState) (op : Operation) :
    countWrites (startOp s op).pending =
      countWrites s.pending + if op.isWrite then 1 else 0 := by
  unfold startOp countWrites
  rw [List.countP_append, List.countP_singleton]

theorem writesBeside_doSend {s t : EndPointState} (hsend : DoSend s = some t) :
    WritesBeside t := by
  rcases doSend_starts hsend with ⟨session, pSend, _, ht⟩
  intro _
  right
  rw [ht, countWrites_startOp]
  exact Nat.succ_pos _

theorem writes_of_read {s : EndPointState} {i : Nat} {op : Operation} {aborted : Bool}
    (hbeside : WritesBeside s) (hfree : s.tasks = []) (hread : op.isRead = true)
    (hop : s.pending[i]? = some { op := op, aborted := aborted }) :
    0 < countWrites (s.pending.eraseIdx i) := by
  have hreads := reads_eraseIdx hop
  have hwrites := writes_eraseIdx hop
  have hnot : op.isWrite = false := by
    cases op <;> first | rfl | cases hread
  rw [hread, if_pos rfl] at hreads
  rw [hnot] at hwrites
  rcases hbeside (by omega) with hmem | hsome
  · rw [hfree] at hmem
    cases hmem
  · rw [← hwrites] at hsome
    exact hsome

theorem writesBeside_success {s : EndPointState} {i : Nat} {op : Operation}
    (hbeside : WritesBeside s) (hfree : s.tasks = [])
    (hop : s.pending[i]? = some { op := op, aborted := false }) :
    WritesBeside (handleSuccess (taken s i) op) := by
  intro _
  rcases op.kinds with hread | ⟨pSend, hwrite⟩ | hconnect
  · have hwrites := writes_of_read hbeside hfree hread hop
    right
    cases op with
    | ReadHead =>
        unfold handleSuccess ReadBody
        rw [countWrites_startOp]
        exact hwrites
    | ReadBody =>
        unfold handleSuccess
        rw [countWrites_startOp]
        exact hwrites
    | WriteData pSend => cases hread
    | ConnectServer => cases hread
  · subst hwrite
    exact Or.inl List.mem_cons_self
  · subst hconnect
    exact Or.inl List.mem_cons_self

theorem writesBeside_error {s : EndPointState} {i : Nat} {op : Operation} {aborted : Bool}
    (hbeside : WritesBeside s) (hfree : s.tasks = [])
    (hop : s.pending[i]? = some { op := op, aborted := aborted })
    (hkept : KeepsConnection s (.complete i false)) :
    WritesBeside (handleError (taken s i) op) := by
  simp only [KeepsConnection, hop] at hkept
  cases op with
  | ConnectServer =>
      intro hreading
      right
      have hreads : countReads (s.pending.eraseIdx i) + 0 = countReads s.pending :=
        reads_eraseIdx hop
      have hwrites : countWrites (s.pending.eraseIdx i) + 0 = countWrites s.pending :=
        writes_eraseIdx hop
      have hbefore : 0 < countReads (s.pending.eraseIdx i) := hreading
      show 0 < countWrites (s.pending.eraseIdx i)
      rcases hbeside (by omega) with hmem | hsome
      · rw [hfree] at hmem
        cases hmem
      · omega
  | ReadHead => cases hkept
  | ReadBody => cases hkept
  | WriteData pSend => cases hkept

theorem writesBeside_task {s t : EndPointState} {task : Task} {rest : List Task}
    (hbeside : WritesBeside s) (htasks : s.tasks = task :: rest)
    (ht : handleTask s rest task = some t) : WritesBeside t := by
  have hlater : task ≠ .DoSend -> 0 < countReads s.pending ->
      Task.DoSend ∈ rest ∨ 0 < countWrites s.pending := by
    intro hne hreading
    rcases hbeside hreading with hmem | hsome
    · rw [htasks] at hmem
      rcases List.mem_cons.mp hmem with hhead | hrest
      · exact absurd hhead.symm hne
      · exact Or.inl hrest
    · exact Or.inr hsome
  cases handleTask_sound ht with
  | doSend hsend => exact writesBeside_doSend hsend
  | ignored hhandle => exact hlater (by simp)
  | notified hhandle =>
      intro hreading
      exact (hlater (by simp) hreading).imp (List.mem_cons_of_mem _) id
  | shutDown hflag htask =>
      apply hlater
      rcases htask with h | ⟨bResult, h⟩ <;> rw [h] <;> simp
  | reconnect hflag htask =>
      intro hreading
      have hne : task ≠ .DoSend := by
        rcases htask with h | h <;> rw [h] <;> simp
      exact (hlater hne hreading).imp (List.mem_cons_of_mem _) id
  | connected hflag => exact hlater (by simp)
  | doConnect =>
      unfold WritesBeside
      rw [countReads_connectServer, countWrites_connectServer]
      exact hlater (by simp)

theorem writesBeside_step {s t : EndPointState} {a : EndPointAction}
    (hbeside : WritesBeside s) (hopen : a ≠ .sessionDisConnect)
    (hkept : KeepsConnection s a) (hstep : step s a = some t) : WritesBeside t := by
  cases step_sound hstep with
  | submit session bDoSend ha hhandle => exact hbeside
  | doSend hcalls hsend => exact writesBeside_doSend hsend
  | success hfree hop => exact writesBeside_success hbeside hfree hop
  | error hfree hop => exact writesBeside_error hbeside hfree hop hkept
  | task htasks ht => exact writesBeside_task hbeside htasks ht
  | sessionDisConnect hpc => exact absurd rfl hopen
  | storeShutDown hpc => exact hbeside

/-- Whatever reads or writes, something else is pending. -/
theorem beside_pending {s : EndPointState} {i : Nat} {op : Operation} {aborted : Bool}
    (hinv : ReconnectInv (control s)) (hbeside : WritesBeside s) (hfree : s.tasks = [])
    (hop : s.pending[i]? = some { op := op, aborted := aborted })
    (hconnect : op.isConnect = false) : s.pending.eraseIdx i ≠ [] := by
  intro hnil
  rcases op.kinds with hread | ⟨pSend, hwrite⟩ | hwrong
  · have hwrites := writes_of_read hbeside hfree hread hop
    rw [hnil] at hwrites
    cases hwrites
  · -- one read or one connect is pending beside a write
    subst hwrite
    have hreads := reads_eraseIdx hop
    have hconnects := connects_eraseIdx hop
    rw [hnil] at hreads hconnects
    have hone : countReads s.pending + countConnects s.pending + controls s.tasks = 1 :=
      hinv.one
    rw [hfree, ← hreads, ← hconnects] at hone
    cases hone
  · rw [hwrong] at hconnect
    cases hconnect

/-!
# Two operations that fail

With another operation pending, the error closes the socket, the other operation
fails in its turn, and there is a second call or a second connect.
-/

theorem lost_of_error {s : EndPointState} {op : Operation} (hconnect : op.isConnect = false) :
    exists session, session.m_OnDisconnectHandle = s.session.m_OnDisconnectHandle ∧
      handleError s op = lostConnection { s with session := session } := by
  cases op with
  | ReadHead => exact ⟨s.session, rfl, rfl⟩
  | ReadBody => exact ⟨s.session, rfl, rfl⟩
  | WriteData pSend => exact ⟨s.session.putBack pSend, rfl, rfl⟩
  | ConnectServer => cases hconnect

theorem step_notify {s : EndPointState} {rest : List Task}
    (htasks : s.tasks = .DisconnectHandle :: rest)
    (hhandle : s.session.m_OnDisconnectHandle = .owner) :
    step s .runTask = some { s with
      tasks := .OnDisconnect :: rest, notified := s.notified + 1 } := by
  simp only [step, htasks, handleTask, hhandle]

/-- The tasks after an error, run to their end. -/
theorem run_reconnect {s : EndPointState} (htasks : s.tasks = [.DisconnectHandle])
    (hflag : s.m_bShutDown = false)
    (hhandle : s.session.m_OnDisconnectHandle = .owner) :
    Run step s [.runTask, .runTask, .runTask] =
      some (ConnectServer { s with tasks := [], notified := s.notified + 1 }) := by
  have htest : step { s with tasks := [.OnDisconnect], notified := s.notified + 1 }
      .runTask = some { s with tasks := [.DoConnect], notified := s.notified + 1 } := by
    simp only [step, handleTask, hflag]
    rfl
  rw [run_cons_of_step _ (step_notify htasks hhandle), run_cons_of_step _ htest]
  rfl

theorem fail_first {s : EndPointState} {o : PendingOp} {rest : List PendingOp}
    (htasks : s.tasks = []) (hpending : s.pending = o :: rest)
    (hconnect : o.op.isConnect = false)
    (hhandle : s.session.m_OnDisconnectHandle = .owner) :
    exists t, Run step s [.complete 0 false, .runTask] = some t ∧
      t.notified = s.notified + 1 := by
  have hget : s.pending[0]? = some o := by
    rw [hpending]
    rfl
  rcases lost_of_error (s := taken s 0) hconnect with ⟨session, hsession, hlost⟩
  have hfail : step s (.complete 0 false) = some (handleError (taken s 0) o.op) := by
    simp only [step, htasks, hget]
  have howner : session.m_OnDisconnectHandle = .owner := by
    rw [hsession]
    exact hhandle
  rw [hlost] at hfail
  have hnotify := step_notify (s := lostConnection { taken s 0 with session := session })
    rfl howner
  exact ⟨_, by rw [run_cons_of_step _ hfail, run_cons_of_step _ hnotify, run_nil], rfl⟩

theorem countConnects_append_connect (pending : List PendingOp) :
    countConnects (pending ++ [{ op := .ConnectServer, aborted := false }]) =
      countConnects pending + 1 :=
  List.countP_append

theorem twice_of_pending {s : EndPointState} (htasks : s.tasks = [.DisconnectHandle])
    (hflag : s.m_bShutDown = false)
    (hhandle : s.session.m_OnDisconnectHandle = .owner) (hpending : s.pending ≠ []) :
    exists more t, Run step s more = some t ∧ ¬ OneReconnect t := by
  have hrun := run_reconnect htasks hflag hhandle
  have hshape : (ConnectServer { s with tasks := [], notified := s.notified + 1 }).pending =
      s.pending.map PendingOp.abort ++
        [{ op := .ConnectServer, aborted := false }] := rfl
  cases hlist : s.pending with
  | nil => exact absurd hlist hpending
  | cons o rest =>
      have hmapped : s.pending.map PendingOp.abort =
          o.abort :: rest.map PendingOp.abort := by
        rw [hlist]
        rfl
      rw [hmapped] at hshape
      cases hfirst : o.op.isConnect with
      | true =>
          -- the other operation is itself a connect
          refine ⟨_, _, hrun, ?_⟩
          intro h
          have hcount := h.connects
          rw [hshape, countConnects_append_connect] at hcount
          unfold countConnects at hcount
          rw [List.countP_cons_of_pos (by exact hfirst)] at hcount
          omega
      | false =>
          rcases fail_first rfl hshape hfirst hhandle with ⟨t, hagain, htwice⟩
          refine ⟨_, t, by rw [run_append _ hrun]; exact hagain, ?_⟩
          intro h
          have hcount := h.notified
          have hmore : t.notified = s.notified + 1 + 1 := htwice
          omega

theorem twice_of_loss {s t : EndPointState} {a : EndPointAction}
    (hinv : ReconnectInv (control s)) (hbeside : WritesBeside s)
    (hnot : ¬ KeepsConnection s a) (hstep : step s a = some t) :
    exists more u, Run step t more = some u ∧ ¬ OneReconnect u := by
  cases step_sound hstep with
  | error hfree hop =>
      rename_i i op aborted
      simp only [KeepsConnection, hop] at hnot
      have hconnect : op.isConnect = false := by simpa using hnot
      rcases lost_of_error (s := taken s i) hconnect with ⟨session, hsession, hlost⟩
      rw [hlost]
      apply twice_of_pending (s := lostConnection { taken s i with session := session })
        rfl hinv.flag
      · show session.m_OnDisconnectHandle = .owner
        rw [hsession]
        exact hinv.handle
      · intro hnil
        exact beside_pending hinv hbeside hfree hop hconnect (List.map_eq_nil_iff.mp hnil)
  | submit session bDoSend ha hhandle =>
      apply absurd _ hnot
      rcases ha with ⟨pPacket, h⟩ | ⟨listPacket, h⟩ <;> rw [h] <;> trivial
  | doSend hcalls hsend => exact absurd trivial hnot
  | success hfree hop => exact absurd trivial hnot
  | task htasks ht => exact absurd trivial hnot
  | sessionDisConnect hpc => exact absurd trivial hnot
  | storeShutDown hpc => exact absurd trivial hnot

/-!
# Whole runs
-/

/-- Runs that keep every connection reconnect once for each; any loss after such a
run can be continued to a second reconnect. -/
theorem kept_connections_reconnect_once (m_iPackLen : uint16_t)
    {actions : List EndPointAction} (hopen : .sessionDisConnect ∉ actions)
    (hkept : AllSteps step KeepsConnection (init m_iPackLen) actions) :
    AllStates step OneReconnect (init m_iPackLen) actions ∧
      forall s a t, Run step (init m_iPackLen) actions = some s ->
        ¬ KeepsConnection s a -> step s a = some t ->
          exists more u, Run step t more = some u ∧ ¬ OneReconnect u := by
  have hstart : ReconnectInv (control (init m_iPackLen)) ∧ WritesBeside (init m_iPackLen) :=
    ⟨reconnectInv_init m_iPackLen, fun hreading => absurd hreading (Nat.lt_irrefl 0)⟩
  have hlabels : forall a, a ∈ actions -> forall _s : EndPointState,
      a ≠ .sessionDisConnect := by
    intro a ha _ hEq
    rw [hEq] at ha
    exact hopen ha
  have hboth := allSteps_and (allSteps_of_labels hlabels (init m_iPackLen)) hkept
  have hkeep : forall s a t, (ReconnectInv (control s) ∧ WritesBeside s) ->
      (a ≠ .sessionDisConnect ∧ KeepsConnection s a) -> step s a = some t ->
        (ReconnectInv (control t) ∧ WritesBeside t) := by
    intro s a t hinv hok hstep
    exact ⟨reconnectInv_step hinv.left hok.left hok.right hstep,
      writesBeside_step hinv.right hok.left hok.right hstep⟩
  constructor
  · exact allStates_of_invariant hkeep (fun s hinv => oneReconnect_of_inv hinv.left)
      hstart hboth
  · intro s a t hrun hnot hstep
    rcases run_invariant hkeep hstart hboth hrun with ⟨hinv, hbeside⟩
    exact twice_of_loss hinv hbeside hnot hstep

def aPacket : NetPacketPtr := { mPointer := 1, mPacket := NetPacket.ofMessage [65] }

/-- The first connect fails; the second succeeds, and two packets are written over the
connection while the peer's bytes are read. -/
def secondAttempt : List EndPointAction :=
  [.complete 0 false, .runTask, .runTask, .SendPacketList [aPacket, aPacket],
    .complete 0 true, .runTask, .runTask, .complete 1 true, .runTask, .complete 0 true]

theorem kept_connections_reconnect_once_secondAttempt :
    AllStates step OneReconnect (init 0) secondAttempt :=
  (kept_connections_reconnect_once 0 (by decide) (by decide)).left

/-- A packet is submitted before the connect completes, which starts its write.  The
link drops: the read fails, and then the write does.  The sender calls `DoSend` last,
with the packet back in the queue. -/
def lossWhileWriting : List EndPointAction :=
  [.SendPacket aPacket, .complete 0 true, .runTask, .runTask,
    .complete 0 false, .runTask, .runTask, .runTask,
    .complete 0 false, .runTask, .runTask, .runTask, .DoSend]

theorem lossWhileWriting_reconnects_twice :
    exists s, Run step (init 0) lossWhileWriting = some s ∧
      s.notified = 2 ∧ countConnects s.pending = 2 ∧ ¬ OneReconnect s :=
  ⟨_, rfl, rfl, rfl, fun h => absurd h.notified (by decide)⟩

end EndPoint
end LibActor
end GMServer
