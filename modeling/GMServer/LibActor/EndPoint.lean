import GMServer.Library.Transition
import GMServer.Library.Pending
import GMServer.BoostNet.TCPSession

/-!
# End points

An `EndPoint` keeps one client session connected.  The completion handlers of
the session run one after the other on the thread of its `io_service`; other
threads submit packets and call `DisConnect`.
-/

namespace GMServer
namespace LibActor

open BoostNet

/-!
# Operations and handlers

An operation is named after the function that started it.  An aborted one was
pending when the socket was closed, or was started on a socket without a
connection, and completes with an error.
-/

inductive Operation where
  | ReadHead
  | ReadBody
  | WriteData (pSend : NetPacketPtr)
  | ConnectServer
  deriving DecidableEq, Repr

def Operation.isRead : Operation -> Bool
  | .ReadHead => true
  | .ReadBody => true
  | _ => false

def Operation.isConnect : Operation -> Bool
  | .ConnectServer => true
  | _ => false

def Operation.isWrite : Operation -> Bool
  | .WriteData _ => true
  | _ => false

/-- Reading, writing and connecting are handled in three different ways. -/
theorem Operation.kinds (op : Operation) :
    op.isRead = true ∨ (exists pSend, op = .WriteData pSend) ∨ op = .ConnectServer := by
  cases op with
  | ReadHead => exact Or.inl rfl
  | ReadBody => exact Or.inl rfl
  | WriteData pSend => exact Or.inr (Or.inl ⟨pSend, rfl⟩)
  | ConnectServer => exact Or.inr (Or.inr rfl)

theorem Operation.isConnect_of_isRead {op : Operation} (hread : op.isRead = true) :
    op.isConnect = false := by
  cases op with
  | ReadHead => rfl
  | ReadBody => rfl
  | WriteData pSend => rfl
  | ConnectServer => cases hread

structure PendingOp where
  op : Operation
  aborted : Bool
  deriving DecidableEq, Repr

def PendingOp.abort (o : PendingOp) : PendingOp := { o with aborted := true }

/-- What is left to do of the handler that the thread is running. -/
inductive Task where
  | DoSend
  | DisconnectHandle
  | OnDisconnect
  | DoConnect
  | OnConnetResult (bResult : Bool)
  deriving DecidableEq, Repr

/-- How far `EndPoint::DisConnect` has got. -/
inductive DisConnectPc where
  | notCalled
  | sessionDone
  | returned
  deriving DecidableEq, Repr

/-!
# States

`doSends` counts the calls of `DoSend` by other threads before their critical
section, and `notified` those of `m_OnDisconnectHandle` since the connection was
last established.
-/

structure EndPointState where
  session : TCPSession
  connected : Bool
  pending : List PendingOp
  tasks : List Task
  m_bShutDown : Bool
  doSends : Nat
  notified : Nat
  disConnect : DisConnectPc
  deriving DecidableEq, Repr

inductive EndPointAction where
  | SendPacket (pPacket : NetPacketPtr)
  | SendPacketList (listPacket : List NetPacketPtr)
  | DoSend
  | complete (i : Nat) (success : Bool)
  | runTask
  | sessionDisConnect
  | storeShutDown
  deriving DecidableEq, Repr

namespace EndPoint

open Transition

/-!
# Pieces of the handlers

`ConnectServer` begins by closing the socket in case it is open.  `DoConnect`
resolves the address before that, which is taken to succeed.
-/

def startOp (s : EndPointState) (op : Operation) : EndPointState :=
  { s with pending := s.pending ++ [{ op := op, aborted := !s.connected }] }

def Close (s : EndPointState) : EndPointState :=
  { s with
    connected := false,
    pending := s.pending.map PendingOp.abort }

def ConnectServer (s : EndPointState) : EndPointState :=
  { Close s with
    pending := (Close s).pending ++ [{ op := .ConnectServer, aborted := false }] }

def ReadBody (s : EndPointState) : EndPointState :=
  startOp { s with session := s.session.ReadBody.1 } .ReadBody

def DoSend (s : EndPointState) : Option EndPointState :=
  match s.session.DoSend with
  | none => none
  | some (session, pSend) =>
      some (startOp { s with session := session } (.WriteData pSend))

/-- The completion of a read or a write with an error. -/
def lostConnection (s : EndPointState) : EndPointState :=
  { Close s with tasks := [.DisconnectHandle] }

def handleSuccess (s : EndPointState) : Operation -> EndPointState
  | .ReadHead => ReadBody s
  | .ReadBody =>
      startOp { s with session := { s.session with m_pReadMsg := none } } .ReadHead
  | .WriteData _ => { s with tasks := [.DoSend] }
  | .ConnectServer =>
      { ReadBody { s with connected := true, notified := 0 } with
        tasks := [.DoSend, .OnConnetResult true] }

def handleError (s : EndPointState) : Operation -> EndPointState
  | .ReadHead => lostConnection s
  | .ReadBody => lostConnection s
  | .WriteData pSend => lostConnection { s with session := s.session.putBack pSend }
  | .ConnectServer => { s with tasks := [.OnConnetResult false] }

/-- One piece of a handler; `rest` is what it does afterwards. -/
def handleTask (s : EndPointState) (rest : List Task) : Task -> Option EndPointState
  | .DoSend => DoSend { s with tasks := rest }
  | .DisconnectHandle =>
      match s.session.m_OnDisconnectHandle with
      | .unset => none
      | .ignore => some { s with tasks := rest, notified := s.notified + 1 }
      | .owner =>
          some { s with tasks := .OnDisconnect :: rest, notified := s.notified + 1 }
  | .OnDisconnect =>
      if s.m_bShutDown then some { s with tasks := rest }
      else some { s with tasks := .DoConnect :: rest }
  | .DoConnect => some (ConnectServer { s with tasks := rest })
  | .OnConnetResult bResult =>
      if s.m_bShutDown then
        some { s with tasks := rest }
      else if bResult then
        some { s with tasks := rest, session := s.session.SetOnMsgHandle .owner }
      else
        some { s with tasks := .DoConnect :: rest }

/-!
# Steps

The state after `EndPoint::Connect` is the initial one.  The constructor calls
`shared_from_this`, which throws `bad_weak_ptr` there; the model begins behind it.
A call of `DoSend` that would pop the empty queue has no step.
-/

def init (m_iPackLen : uint16_t) : EndPointState :=
  { session := (TCPSession.new m_iPackLen).SetDisconnctHandle .owner,
    connected := false,
    pending := [{ op := .ConnectServer, aborted := false }],
    tasks := [],
    m_bShutDown := false,
    doSends := 0,
    notified := 0,
    disConnect := .notCalled }

/-- The state without the operation that completes. -/
def taken (s : EndPointState) (i : Nat) : EndPointState :=
  { s with pending := s.pending.eraseIdx i }

def step (s : EndPointState) : EndPointAction -> Option EndPointState
  | .SendPacket pPacket =>
      let (session, bDoSend) := s.session.SendPacket pPacket
      some { s with session := session, doSends := s.doSends + bDoSend.toNat }
  | .SendPacketList listPacket =>
      let (session, bDoSend) := s.session.SendPacketList listPacket
      some { s with session := session, doSends := s.doSends + bDoSend.toNat }
  | .DoSend =>
      match s.doSends with
      | 0 => none
      | doSends + 1 => DoSend { s with doSends := doSends }
  | .complete i success =>
      match s.tasks, s.pending[i]?, success with
      | [], some { op := op, aborted := false }, true =>
          some (handleSuccess (taken s i) op)
      | [], some { op := op, aborted := _ }, false =>
          some (handleError (taken s i) op)
      | _, _, _ => none
  | .runTask =>
      match s.tasks with
      | [] => none
      | task :: rest => handleTask s rest task
  | .sessionDisConnect =>
      match s.disConnect with
      | .notCalled =>
          some { Close { s with session := s.session.ignoreHandles } with
            disConnect := .sessionDone }
      | _ => none
  | .storeShutDown =>
      match s.disConnect with
      | .sessionDone => some { s with m_bShutDown := true, disConnect := .returned }
      | _ => none

/-!
# What a step can do

One constructor for each kind of step, with the state after it in terms of the
pieces above.
-/

inductive Step (s : EndPointState) : EndPointAction -> EndPointState -> Prop where
  | submit {a : EndPointAction} (session : TCPSession) (bDoSend : Bool)
      (ha : (exists pPacket, a = .SendPacket pPacket) ∨
        exists listPacket, a = .SendPacketList listPacket)
      (hhandle : session.m_OnDisconnectHandle = s.session.m_OnDisconnectHandle) :
      Step s a { s with session := session, doSends := s.doSends + bDoSend.toNat }
  | doSend {doSends : Nat} {t : EndPointState} (hcalls : s.doSends = doSends + 1)
      (hsend : DoSend { s with doSends := doSends } = some t) : Step s .DoSend t
  | success {i : Nat} {op : Operation} (hfree : s.tasks = [])
      (hop : s.pending[i]? = some { op := op, aborted := false }) :
      Step s (.complete i true)
        (handleSuccess (taken s i) op)
  | error {i : Nat} {op : Operation} {aborted : Bool} (hfree : s.tasks = [])
      (hop : s.pending[i]? = some { op := op, aborted := aborted }) :
      Step s (.complete i false)
        (handleError (taken s i) op)
  | task {task : Task} {rest : List Task} {t : EndPointState}
      (htasks : s.tasks = task :: rest) (ht : handleTask s rest task = some t) :
      Step s .runTask t
  | sessionDisConnect (hpc : s.disConnect = .notCalled) :
      Step s .sessionDisConnect
        { Close { s with session := s.session.ignoreHandles } with
          disConnect := .sessionDone }
  | storeShutDown (hpc : s.disConnect = .sessionDone) :
      Step s .storeShutDown { s with m_bShutDown := true, disConnect := .returned }

theorem step_sound {s t : EndPointState} {a : EndPointAction}
    (hstep : step s a = some t) : Step s a t := by
  cases a with
  | SendPacket pPacket =>
      cases hstep
      exact Step.submit _ _ (Or.inl ⟨pPacket, rfl⟩) rfl
  | SendPacketList listPacket =>
      cases hstep
      exact Step.submit _ _ (Or.inr ⟨listPacket, rfl⟩) rfl
  | DoSend =>
      simp only [step] at hstep
      split at hstep
      · cases hstep
      · rename_i doSends hcalls
        exact Step.doSend hcalls hstep
  | complete i success =>
      simp only [step] at hstep
      split at hstep
      · rename_i op hfree hop
        cases hstep
        exact Step.success hfree hop
      · rename_i op aborted hfree hop
        cases hstep
        exact Step.error hfree hop
      · cases hstep
  | runTask =>
      simp only [step] at hstep
      split at hstep
      · cases hstep
      · rename_i task rest htasks
        exact Step.task htasks hstep
  | sessionDisConnect =>
      simp only [step] at hstep
      split at hstep
      · rename_i hpc
        cases hstep
        exact Step.sessionDisConnect hpc
      · cases hstep
  | storeShutDown =>
      simp only [step] at hstep
      split at hstep
      · rename_i hpc
        cases hstep
        exact Step.storeShutDown hpc
      · cases hstep

/-- What a task leaves behind. -/
inductive TaskStep (s : EndPointState) (rest : List Task) :
    Task -> EndPointState -> Prop where
  | doSend {t : EndPointState} (hsend : DoSend { s with tasks := rest } = some t) :
      TaskStep s rest .DoSend t
  | ignored (hhandle : s.session.m_OnDisconnectHandle = .ignore) :
      TaskStep s rest .DisconnectHandle
        { s with tasks := rest, notified := s.notified + 1 }
  | notified (hhandle : s.session.m_OnDisconnectHandle = .owner) :
      TaskStep s rest .DisconnectHandle
        { s with tasks := .OnDisconnect :: rest, notified := s.notified + 1 }
  | shutDown {task : Task} (hflag : s.m_bShutDown = true)
      (htask : task = .OnDisconnect ∨ exists bResult, task = .OnConnetResult bResult) :
      TaskStep s rest task { s with tasks := rest }
  | reconnect {task : Task} (hflag : s.m_bShutDown = false)
      (htask : task = .OnDisconnect ∨ task = .OnConnetResult false) :
      TaskStep s rest task { s with tasks := .DoConnect :: rest }
  | connected (hflag : s.m_bShutDown = false) :
      TaskStep s rest (.OnConnetResult true)
        { s with tasks := rest, session := s.session.SetOnMsgHandle .owner }
  | doConnect : TaskStep s rest .DoConnect (ConnectServer { s with tasks := rest })

theorem handleTask_sound {s t : EndPointState} {rest : List Task} {task : Task}
    (ht : handleTask s rest task = some t) : TaskStep s rest task t := by
  cases task with
  | DoSend => exact TaskStep.doSend ht
  | DisconnectHandle =>
      simp only [handleTask] at ht
      split at ht
      · cases ht
      · rename_i hhandle
        cases ht
        exact TaskStep.ignored hhandle
      · rename_i hhandle
        cases ht
        exact TaskStep.notified hhandle
  | OnDisconnect =>
      simp only [handleTask] at ht
      split at ht
      · rename_i hflag
        cases ht
        exact TaskStep.shutDown hflag (Or.inl rfl)
      · rename_i hflag
        cases ht
        exact TaskStep.reconnect (by simpa using hflag) (Or.inl rfl)
  | DoConnect =>
      cases ht
      exact TaskStep.doConnect
  | OnConnetResult bResult =>
      simp only [handleTask] at ht
      split at ht
      · rename_i hflag
        cases ht
        exact TaskStep.shutDown hflag (Or.inr ⟨bResult, rfl⟩)
      · rename_i hflag
        have hclear : s.m_bShutDown = false := by simpa using hflag
        cases bResult with
        | true =>
            cases ht
            exact TaskStep.connected hclear
        | false =>
            cases ht
            exact TaskStep.reconnect hclear (Or.inr rfl)

/-- `DoSend` takes a packet and starts its write. -/
theorem doSend_starts {s t : EndPointState} (hsend : DoSend s = some t) :
    exists session pSend,
      session.m_OnDisconnectHandle = s.session.m_OnDisconnectHandle ∧
        t = startOp { s with session := session } (.WriteData pSend) := by
  unfold DoSend TCPSession.DoSend at hsend
  cases hqueue : s.session.m_listSend with
  | nil =>
      rw [hqueue] at hsend
      cases hsend
  | cons pSend rest =>
      rw [hqueue] at hsend
      cases hsend
      exact ⟨{ s.session with m_listSend := rest }, pSend, rfl, rfl⟩

/-!
# The control view

What decides about connecting: how many reads and connects are pending, aborted
ones included, how many connects may still succeed, and the fields beside the
queue.  Submitting and sending packets is not seen in it.
-/

structure Control where
  reads : Nat
  connects : Nat
  attempts : Nat
  connected : Bool
  tasks : List Task
  m_bShutDown : Bool
  handle : SessionHandle
  notified : Nat
  disConnect : DisConnectPc
  deriving DecidableEq, Repr

def countReads (pending : List PendingOp) : Nat := pending.countP (·.op.isRead)

def countConnects (pending : List PendingOp) : Nat := pending.countP (·.op.isConnect)

def countAttempts (pending : List PendingOp) : Nat :=
  pending.countP (fun o => o.op.isConnect && !o.aborted)

def control (s : EndPointState) : Control :=
  { reads := countReads s.pending,
    connects := countConnects s.pending,
    attempts := countAttempts s.pending,
    connected := s.connected,
    tasks := s.tasks,
    m_bShutDown := s.m_bShutDown,
    handle := s.session.m_OnDisconnectHandle,
    notified := s.notified,
    disConnect := s.disConnect }

theorem control_startOp (s : EndPointState) {op : Operation} (hop : op.isConnect = false) :
    control (startOp s op) =
      { control s with reads := (control s).reads + if op.isRead then 1 else 0 } := by
  unfold control startOp countReads countConnects countAttempts
  simp [List.countP_append, List.countP_singleton, hop]

theorem control_close (s : EndPointState) :
    control (Close s) = { control s with connected := false, attempts := 0 } := by
  unfold control Close countReads countConnects countAttempts
  simp only [List.countP_map]
  congr 1
  rw [List.countP_eq_zero]
  intro o _
  simp [PendingOp.abort]

theorem control_connectServer (s : EndPointState) :
    control (ConnectServer s) =
      { control s with
        connected := false,
        connects := (control s).connects + 1,
        attempts := 1 } := by
  have hclose := control_close s
  unfold control at hclose
  injection hclose with hreads hconnects hattempts
  unfold control ConnectServer
  simp only [countReads, countConnects, countAttempts, List.countP_append,
    List.countP_singleton] at hreads hconnects hattempts ⊢
  rw [hreads, hconnects, hattempts]
  rfl

theorem control_doSend {s t : EndPointState} (hsend : DoSend s = some t) :
    control t = control s := by
  rcases doSend_starts hsend with ⟨session, pSend, hhandle, ht⟩
  rw [ht, control_startOp _ rfl]
  unfold control
  simp [hhandle, Operation.isRead]

/-!
# Completions in the control view
-/

section Completions

variable {s : EndPointState} {i : Nat} {op : Operation} {aborted : Bool}

theorem reads_eraseIdx (hop : s.pending[i]? = some { op := op, aborted := aborted }) :
    countReads (s.pending.eraseIdx i) + (if op.isRead then 1 else 0) =
      countReads s.pending :=
  Pending.countP_eraseIdx (fun o : PendingOp => o.op.isRead) hop

theorem connects_eraseIdx (hop : s.pending[i]? = some { op := op, aborted := aborted }) :
    countConnects (s.pending.eraseIdx i) + (if op.isConnect then 1 else 0) =
      countConnects s.pending :=
  Pending.countP_eraseIdx (fun o : PendingOp => o.op.isConnect) hop

theorem attempts_eraseIdx (hop : s.pending[i]? = some { op := op, aborted := aborted }) :
    countAttempts (s.pending.eraseIdx i) +
        (if op.isConnect && !aborted then 1 else 0) = countAttempts s.pending :=
  Pending.countP_eraseIdx (fun o : PendingOp => o.op.isConnect && !o.aborted) hop

theorem control_taken_write {pSend : NetPacketPtr}
    (hop : s.pending[i]? = some { op := .WriteData pSend, aborted := aborted }) :
    control (taken s i) = control s := by
  have hreads := reads_eraseIdx hop
  have hconnects := connects_eraseIdx hop
  have hattempts := attempts_eraseIdx hop
  simp [Operation.isRead, Operation.isConnect] at hreads hconnects hattempts
  unfold control taken
  rw [hreads, hconnects, hattempts]

theorem control_taken_read (hread : op.isRead = true)
    (hop : s.pending[i]? = some { op := op, aborted := aborted }) :
    exists reads, (control s).reads = reads + 1 ∧
      control (taken s i) = { control s with reads := reads } := by
  have hnot := Operation.isConnect_of_isRead hread
  have hreads := reads_eraseIdx hop
  have hconnects := connects_eraseIdx hop
  have hattempts := attempts_eraseIdx hop
  simp [hread, hnot] at hreads hconnects hattempts
  refine ⟨_, hreads.symm, ?_⟩
  unfold control taken
  simp only
  rw [hconnects, hattempts]

theorem control_taken_connect
    (hop : s.pending[i]? = some { op := .ConnectServer, aborted := aborted }) :
    exists connects attempts, (control s).connects = connects + 1 ∧
      attempts ≤ (control s).attempts ∧
      control (taken s i) =
        { control s with connects := connects, attempts := attempts } := by
  have hreads := reads_eraseIdx hop
  have hconnects := connects_eraseIdx hop
  have hattempts := attempts_eraseIdx hop
  simp [Operation.isRead, Operation.isConnect] at hreads hconnects
  refine ⟨_, countAttempts (s.pending.eraseIdx i), hconnects.symm, ?_, ?_⟩
  · show _ ≤ countAttempts s.pending
    omega
  · unfold control taken
    simp only
    rw [hreads]

theorem control_success_read (hread : op.isRead = true)
    (hop : s.pending[i]? = some { op := op, aborted := aborted }) :
    control (handleSuccess (taken s i) op) = control s := by
  rcases control_taken_read hread hop with ⟨reads, hreads, htaken⟩
  have hsame : { control s with reads := reads + 1 } = control s := by
    rw [← hreads]
  cases op with
  | ReadHead =>
      unfold handleSuccess ReadBody
      rw [control_startOp _ rfl]
      show { control (taken s i) with reads := (control (taken s i)).reads + 1 } = _
      rw [htaken]
      exact hsame
  | ReadBody =>
      unfold handleSuccess
      rw [control_startOp _ rfl]
      show { control (taken s i) with reads := (control (taken s i)).reads + 1 } = _
      rw [htaken]
      exact hsame
  | WriteData pSend => cases hread
  | ConnectServer => cases hread

theorem control_success_write {pSend : NetPacketPtr}
    (hop : s.pending[i]? = some { op := .WriteData pSend, aborted := aborted }) :
    control (handleSuccess (taken s i) (.WriteData pSend)) =
      { control s with tasks := [.DoSend] } := by
  show { control (taken s i) with tasks := [Task.DoSend] } = _
  rw [control_taken_write hop]

theorem control_success_connect
    (hop : s.pending[i]? = some { op := .ConnectServer, aborted := aborted }) :
    exists connects attempts, (control s).connects = connects + 1 ∧
      attempts ≤ (control s).attempts ∧
      control (handleSuccess (taken s i) .ConnectServer) =
        { control s with
          reads := (control s).reads + 1,
          connects := connects,
          attempts := attempts,
          connected := true,
          notified := 0,
          tasks := [.DoSend, .OnConnetResult true] } := by
  rcases control_taken_connect hop with ⟨connects, attempts, hconnects, hattempts, htaken⟩
  refine ⟨connects, attempts, hconnects, hattempts, ?_⟩
  have hread : control (ReadBody { taken s i with connected := true, notified := 0 }) =
      { control (taken s i) with
        reads := (control (taken s i)).reads + 1, connected := true, notified := 0 } := by
    unfold ReadBody
    rw [control_startOp _ rfl]
    rfl
  show { control (ReadBody { taken s i with connected := true, notified := 0 }) with
    tasks := [Task.DoSend, Task.OnConnetResult true] } = _
  rw [hread, htaken]

theorem control_lostConnection (s : EndPointState) :
    control (lostConnection s) =
      { control s with
        attempts := 0, connected := false, tasks := [.DisconnectHandle] } := by
  show { control (Close s) with tasks := [Task.DisconnectHandle] } = _
  rw [control_close]

theorem control_error_read (hread : op.isRead = true)
    (hop : s.pending[i]? = some { op := op, aborted := aborted }) :
    exists reads, (control s).reads = reads + 1 ∧
      control (handleError (taken s i) op) =
        { control s with
          reads := reads,
          attempts := 0,
          connected := false,
          tasks := [.DisconnectHandle] } := by
  rcases control_taken_read hread hop with ⟨reads, hreads, htaken⟩
  have hlost : handleError (taken s i) op = lostConnection (taken s i) := by
    cases op with
    | ReadHead => rfl
    | ReadBody => rfl
    | WriteData pSend => cases hread
    | ConnectServer => cases hread
  exact ⟨reads, hreads, by rw [hlost, control_lostConnection, htaken]⟩

theorem control_error_write {pSend : NetPacketPtr}
    (hop : s.pending[i]? = some { op := .WriteData pSend, aborted := aborted }) :
    control (handleError (taken s i) (.WriteData pSend)) =
      { control s with
        attempts := 0, connected := false, tasks := [.DisconnectHandle] } := by
  unfold handleError
  rw [control_lostConnection]
  show { control (taken s i) with
    attempts := 0, connected := false, tasks := [Task.DisconnectHandle] } = _
  rw [control_taken_write hop]

theorem control_error_connect
    (hop : s.pending[i]? = some { op := .ConnectServer, aborted := aborted }) :
    exists connects attempts, (control s).connects = connects + 1 ∧
      attempts ≤ (control s).attempts ∧
      control (handleError (taken s i) .ConnectServer) =
        { control s with
          connects := connects,
          attempts := attempts,
          tasks := [.OnConnetResult false] } := by
  rcases control_taken_connect hop with ⟨connects, attempts, hconnects, hattempts, htaken⟩
  refine ⟨connects, attempts, hconnects, hattempts, ?_⟩
  show { control (taken s i) with tasks := [Task.OnConnetResult false] } = _
  rw [htaken]

end Completions

end EndPoint
end LibActor
end GMServer
