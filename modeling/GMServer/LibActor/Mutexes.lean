import GMServer.Library.LockOrder

/-!
# The mutexes of a process

Which mutexes the functions lock, and in which order.  A handler runs while its worker holds
`m_ActorMutex` of the mailbox, and may call whatever locks another mutex.
-/

namespace GMServer
namespace LibActor
namespace Mutexes

open Transition LockOrder

inductive MutexMember where
  | Mailbox_m_ActorMutex
  | Mailbox_m_ReciveMutex
  | SchedulerSemaphore_m_Mutex
  | Framework_m_ReciveMutex
  | Directory_m_Mutex
  | NamePool_m_Mutex
  | TCPSession_m_MsgMutex
  | RedisListen_m_Mutex
  | RedisSubMgr_m_MutexListenMap
  | RedisSubMgr_m_MutexRedisKey
  | Log_m_Mutex
  deriving DecidableEq, Repr

/-- A mutex is a member of an object. -/
structure Mutex (pointer : Type) where
  object : pointer
  member : MutexMember
  deriving DecidableEq, Repr

variable {thread pointer : Type}

abbrev Actions (pointer : Type) := List (MutexAction (Mutex pointer))

/-- The scope of a `unique_lock`, or what stands between `lock` and `unlock`. -/
def scope (object : pointer) (member : MutexMember) (actions : Actions pointer) :
    Actions pointer :=
  locked { object := object, member := member } actions

/-!
# Messages

`PushMsg` schedules the mailbox when the message is the only one, and `Pop` waits when the
list is empty; both are left open here.
-/

namespace SchedulerSemaphore

def Schedule (pScheduler : pointer) : Actions pointer :=
  scope pScheduler .SchedulerSemaphore_m_Mutex []

/-- Waiting unlocks the mutex and locks it again.  A wait may end at any time, also without
a notification. -/
def Pop (pScheduler : pointer) (bWaits : Bool) : Actions pointer :=
  if bWaits then
    scope pScheduler .SchedulerSemaphore_m_Mutex [] ++
      scope pScheduler .SchedulerSemaphore_m_Mutex []
  else scope pScheduler .SchedulerSemaphore_m_Mutex []

end SchedulerSemaphore

namespace Mailbox

def PushMsg (pMailBox pScheduler : pointer) (bSchedules : Bool) : Actions pointer :=
  scope pMailBox .Mailbox_m_ReciveMutex
    (if bSchedules then SchedulerSemaphore.Schedule pScheduler else [])

def UnRegisterActor (pMailBox : pointer) : Actions pointer :=
  scope pMailBox .Mailbox_m_ActorMutex (scope pMailBox .Mailbox_m_ReciveMutex [])

/-- What the actor does is between the swap of the lists and the end. -/
def Process (pMailBox : pointer) (handlers : Actions pointer) : Actions pointer :=
  scope pMailBox .Mailbox_m_ActorMutex (scope pMailBox .Mailbox_m_ReciveMutex [] ++ handlers)

end Mailbox

/-- Where `SendMsg` passes a message for one address. -/
inductive Destination (pointer : Type) where
  | SystemMsg
  | SendInternal (pMailBox pScheduler : pointer) (bSchedules : Bool)
  | SendEndPoint
  deriving DecidableEq, Repr

namespace Framework

def SystemMsg (pFramework : pointer) : Actions pointer :=
  scope pFramework .Framework_m_ReciveMutex []

def sendTo (pFramework : pointer) : Destination pointer -> Actions pointer
  | .SystemMsg => SystemMsg pFramework
  | .SendInternal pMailBox pScheduler bSchedules =>
      Mailbox.PushMsg pMailBox pScheduler bSchedules
  | .SendEndPoint => []

/-- For one address, or for a list of them. -/
def SendMsg (pFramework : pointer) (listAdress : List (Destination pointer)) :
    Actions pointer :=
  listAdress.flatMap (sendTo pFramework)

/-- `Allocate` of the directory. -/
def RegisterActor (m_MailBoxes : pointer) : Actions pointer :=
  scope m_MailBoxes .Directory_m_Mutex []

end Framework

def NamePool.Lookup (pNamePool : pointer) : Actions pointer :=
  scope pNamePool .NamePool_m_Mutex []

/-!
# Sessions, Redis and the log
-/

namespace TCPSession

def DoSend (pSession : pointer) : Actions pointer := scope pSession .TCPSession_m_MsgMutex []

/-- `SendPacketList` locks what `SendPacket` locks. -/
def SendPacket (pSession : pointer) (bDoSend : Bool) : Actions pointer :=
  scope pSession .TCPSession_m_MsgMutex [] ++ if bDoSend then DoSend pSession else []

/-- The completion of a write that failed. -/
def writeFailed (pSession : pointer) : Actions pointer :=
  scope pSession .TCPSession_m_MsgMutex []

end TCPSession

namespace RedisSubMgr

def AddListen (pSubMgr : pointer) : Actions pointer :=
  scope pSubMgr .RedisSubMgr_m_MutexListenMap []

def RemoveListen (pSubMgr : pointer) : Actions pointer :=
  scope pSubMgr .RedisSubMgr_m_MutexListenMap []

def AddRediskey (pSubMgr : pointer) : Actions pointer :=
  scope pSubMgr .RedisSubMgr_m_MutexRedisKey []

def GetSubString (pSubMgr : pointer) : Actions pointer :=
  scope pSubMgr .RedisSubMgr_m_MutexRedisKey []

end RedisSubMgr

namespace RedisListen

def Merge (pListen pSubMgr : pointer) : Actions pointer :=
  scope pListen .RedisListen_m_Mutex [] ++ RedisSubMgr.AddRediskey pSubMgr

def AddSyncData (pListen : pointer) : Actions pointer := scope pListen .RedisListen_m_Mutex []

def ExportSyncData (pListen : pointer) : Actions pointer :=
  scope pListen .RedisListen_m_Mutex []

end RedisListen

namespace Log

def PushLog (pLog : pointer) : Actions pointer := scope pLog .Log_m_Mutex []

/-- The thread of the log takes the list. -/
def swapList (pLog : pointer) : Actions pointer := scope pLog .Log_m_Mutex []

end Log

/-!
# What threads do

`Call` is what any code may do, a handler as well; the rest is done by the workers.
-/

inductive Call (pointer : Type) where
  | SendMsg (pFramework : pointer) (listAdress : List (Destination pointer))
  | RegisterActor (m_MailBoxes : pointer)
  | UnRegisterActor (pMailBox : pointer)
  | Lookup (pNamePool : pointer)
  | SendPacket (pSession : pointer) (bDoSend : Bool)
  | DoSend (pSession : pointer)
  | writeFailed (pSession : pointer)
  | AddListen (pSubMgr : pointer)
  | RemoveListen (pSubMgr : pointer)
  | AddRediskey (pSubMgr : pointer)
  | GetSubString (pSubMgr : pointer)
  | Merge (pListen pSubMgr : pointer)
  | AddSyncData (pListen : pointer)
  | ExportSyncData (pListen : pointer)
  | PushLog (pLog : pointer)
  | swapList (pLog : pointer)
  deriving DecidableEq, Repr

def Call.actions : Call pointer -> Actions pointer
  | .SendMsg pFramework listAdress => Framework.SendMsg pFramework listAdress
  | .RegisterActor m_MailBoxes => Framework.RegisterActor m_MailBoxes
  | .UnRegisterActor pMailBox => Mailbox.UnRegisterActor pMailBox
  | .Lookup pNamePool => NamePool.Lookup pNamePool
  | .SendPacket pSession bDoSend => TCPSession.SendPacket pSession bDoSend
  | .DoSend pSession => TCPSession.DoSend pSession
  | .writeFailed pSession => TCPSession.writeFailed pSession
  | .AddListen pSubMgr => RedisSubMgr.AddListen pSubMgr
  | .RemoveListen pSubMgr => RedisSubMgr.RemoveListen pSubMgr
  | .AddRediskey pSubMgr => RedisSubMgr.AddRediskey pSubMgr
  | .GetSubString pSubMgr => RedisSubMgr.GetSubString pSubMgr
  | .Merge pListen pSubMgr => RedisListen.Merge pListen pSubMgr
  | .AddSyncData pListen => RedisListen.AddSyncData pListen
  | .ExportSyncData pListen => RedisListen.ExportSyncData pListen
  | .PushLog pLog => Log.PushLog pLog
  | .swapList pLog => Log.swapList pLog

inductive Activity (pointer : Type) where
  | call (c : Call pointer)
  | Pop (pScheduler : pointer) (bWaits : Bool)
  | Process (pMailBox : pointer) (handlers : List (Call pointer))
  deriving DecidableEq, Repr

def Activity.actions : Activity pointer -> Actions pointer
  | .call c => c.actions
  | .Pop pScheduler bWaits => SchedulerSemaphore.Pop pScheduler bWaits
  | .Process pMailBox handlers => Mailbox.Process pMailBox (handlers.flatMap Call.actions)

/-!
# The order of the mutexes

The actor mutexes come first, by the level of their mailboxes, then `m_ReciveMutex`, then the
ones behind which no other is locked.
-/

/-- Handlers destroy only actors of higher levels than their own. -/
def Activity.DestroysUpwards (level : pointer -> Nat) : Activity pointer -> Prop
  | .Process pMailBox handlers =>
      forall pDestroyed, .UnRegisterActor pDestroyed ∈ handlers -> level pMailBox < level pDestroyed
  | _ => True

def mutexRank (level : pointer -> Nat) (iLevels : Nat) (m : Mutex pointer) : Nat :=
  match m.member with
  | .Mailbox_m_ActorMutex => level m.object
  | .Mailbox_m_ReciveMutex => iLevels
  | _ => iLevels + 1

section Order

variable [DecidableEq pointer] {level : pointer -> Nat} {iLevels : Nat}

theorem block_scope {object : pointer} {member : MutexMember} {low rank : Nat}
    {actions : Actions pointer}
    (hrank : mutexRank level iLevels { object := object, member := member } = rank)
    (hle : low ≤ rank) (hblock : Block (mutexRank level iLevels) (rank + 1) actions) :
    Block (mutexRank level iLevels) low (scope object member actions) := by
  rw [← hrank] at hle hblock
  exact block_locked hle hblock

/-- A mutex that ranks last, with no other one inside. -/
theorem block_last (object : pointer) {member : MutexMember} {low : Nat}
    (hlow : low ≤ iLevels + 1)
    (hlast : mutexRank level iLevels { object := object, member := member } = iLevels + 1) :
    Block (mutexRank level iLevels) low (scope object member []) :=
  block_scope hlast hlow block_nil

theorem block_recive (pMailBox : pointer) {low : Nat} (hlow : low ≤ iLevels)
    {actions : Actions pointer} (hblock : Block (mutexRank level iLevels) (iLevels + 1) actions) :
    Block (mutexRank level iLevels) low (scope pMailBox .Mailbox_m_ReciveMutex actions) :=
  block_scope rfl hlow hblock

theorem block_pushMsg (pMailBox pScheduler : pointer) (bSchedules : Bool) :
    Block (mutexRank level iLevels) iLevels
      (Mailbox.PushMsg pMailBox pScheduler bSchedules) := by
  apply block_recive pMailBox (Nat.le_refl _)
  cases bSchedules with
  | false => exact block_nil
  | true => exact block_last pScheduler (Nat.le_refl _) rfl

theorem block_sendMsg (pFramework : pointer) (listAdress : List (Destination pointer)) :
    Block (mutexRank level iLevels) iLevels (Framework.SendMsg pFramework listAdress) := by
  apply block_flatMap
  intro destination _
  cases destination with
  | SystemMsg => exact block_last pFramework (Nat.le_succ _) rfl
  | SendInternal pMailBox pScheduler bSchedules =>
      exact block_pushMsg pMailBox pScheduler bSchedules
  | SendEndPoint => exact block_nil

theorem block_unRegisterActor (pMailBox : pointer) (hlevel : level pMailBox < iLevels) :
    Block (mutexRank level iLevels) (level pMailBox) (Mailbox.UnRegisterActor pMailBox) :=
  block_scope rfl (Nat.le_refl _) (block_recive pMailBox hlevel block_nil)

theorem block_call {c : Call pointer}
    (hother : forall pMailBox, c ≠ .UnRegisterActor pMailBox) :
    Block (mutexRank level iLevels) iLevels c.actions := by
  cases c with
  | UnRegisterActor pMailBox => exact absurd rfl (hother pMailBox)
  | SendMsg pFramework listAdress => exact block_sendMsg pFramework listAdress
  | SendPacket pSession bDoSend =>
      apply block_append (block_last pSession (Nat.le_succ _) rfl)
      cases bDoSend with
      | false => exact block_nil
      | true => exact block_last pSession (Nat.le_succ _) rfl
  | Merge pListen pSubMgr =>
      exact block_append (block_last pListen (Nat.le_succ _) rfl)
        (block_last pSubMgr (Nat.le_succ _) rfl)
  | _ => exact block_last _ (Nat.le_succ _) rfl

/-- Behind an actor mutex, a handler locks only what ranks above it. -/
theorem block_handler {c : Call pointer} {low : Nat} (hlow : low ≤ iLevels)
    (hlevel : forall p, level p < iLevels)
    (hdestroys : forall pDestroyed, c = .UnRegisterActor pDestroyed -> low ≤ level pDestroyed) :
    Block (mutexRank level iLevels) low c.actions := by
  by_cases hcall : exists pDestroyed, c = .UnRegisterActor pDestroyed
  · rcases hcall with ⟨pDestroyed, hcall⟩
    rw [hcall]
    exact block_mono (hdestroys pDestroyed hcall)
      (block_unRegisterActor pDestroyed (hlevel pDestroyed))
  · push Not at hcall
    exact block_mono hlow (block_call hcall)

theorem activity_ordered {activity : Activity pointer} (hlevel : forall p, level p < iLevels)
    (hupwards : activity.DestroysUpwards level) :
    Ordered (mutexRank level iLevels) [] activity.actions := by
  have hzero : Block (mutexRank level iLevels) 0 activity.actions := by
    cases activity with
    | call c =>
        exact block_handler (Nat.zero_le _) hlevel (fun _ _ => Nat.zero_le _)
    | Pop pScheduler bWaits =>
        apply block_mono (Nat.zero_le iLevels)
        cases bWaits with
        | false => exact block_last pScheduler (Nat.le_succ _) rfl
        | true =>
            exact block_append (block_last pScheduler (Nat.le_succ _) rfl)
              (block_last pScheduler (Nat.le_succ _) rfl)
    | Process pMailBox handlers =>
        apply block_scope rfl (Nat.zero_le (level pMailBox))
        apply block_append
        · exact block_recive pMailBox (hlevel pMailBox) block_nil
        · apply block_flatMap
          intro c hc
          apply block_handler (hlevel pMailBox) hlevel
          intro pDestroyed hcall
          rw [hcall] at hc
          exact hupwards pDestroyed hc
  exact ordered_of_block hzero

end Order

/-!
# Who unlocks an actor mutex
-/

def actorMutex (pMailBox : pointer) : Mutex pointer :=
  { object := pMailBox, member := .Mailbox_m_ActorMutex }

theorem not_unlocked {object pMailBox : pointer} {member : MutexMember} {actions : Actions pointer}
    (hmember : member ≠ .Mailbox_m_ActorMutex)
    (hactions : .unlock (actorMutex pMailBox) ∉ actions) :
    .unlock (actorMutex pMailBox) ∉ scope object member actions := by
  intro hunlock
  rcases unlock_mem_locked.mp hunlock with hsame | hin
  · exact hmember (congrArg Mutex.member hsame).symm
  · exact hactions hin

theorem sendMsg_not_unlocked (pFramework pMailBox : pointer)
    (listAdress : List (Destination pointer)) :
    .unlock (actorMutex pMailBox) ∉ Framework.SendMsg pFramework listAdress := by
  intro hunlock
  rcases List.mem_flatMap.mp hunlock with ⟨destination, _, hin⟩
  revert hin
  cases destination with
  | SystemMsg => exact not_unlocked (by decide) List.not_mem_nil
  | SendInternal pTo pScheduler bSchedules =>
      apply not_unlocked (by decide)
      cases bSchedules with
      | false => exact List.not_mem_nil
      | true => exact not_unlocked (by decide) List.not_mem_nil
  | SendEndPoint => exact List.not_mem_nil

/-- Only the destruction of its actor unlocks the actor mutex of a mailbox. -/
theorem call_not_unlocked {c : Call pointer} {pMailBox : pointer}
    (hother : c ≠ .UnRegisterActor pMailBox) :
    .unlock (actorMutex pMailBox) ∉ c.actions := by
  have hleaf : forall {object : pointer} {member : MutexMember},
      member ≠ .Mailbox_m_ActorMutex ->
        .unlock (actorMutex pMailBox) ∉ scope object member [] :=
    fun hmember => not_unlocked hmember List.not_mem_nil
  have hboth : forall {first second : Actions pointer},
      .unlock (actorMutex pMailBox) ∉ first -> .unlock (actorMutex pMailBox) ∉ second ->
        .unlock (actorMutex pMailBox) ∉ first ++ second := by
    intro first second hfirst hsecond hin
    rcases List.mem_append.mp hin with hin | hin
    · exact hfirst hin
    · exact hsecond hin
  cases c with
  | SendMsg pFramework listAdress => exact sendMsg_not_unlocked pFramework pMailBox listAdress
  | UnRegisterActor pDestroyed =>
      intro hunlock
      rcases unlock_mem_locked.mp hunlock with hsame | hin
      · apply hother
        rw [show pMailBox = pDestroyed from congrArg Mutex.object hsame]
      · exact hleaf (by decide) hin
  | SendPacket pSession bDoSend =>
      apply hboth (hleaf (by decide))
      cases bDoSend with
      | false => exact List.not_mem_nil
      | true => exact hleaf (by decide)
  | Merge pListen pSubMgr => exact hboth (hleaf (by decide)) (hleaf (by decide))
  | _ => exact hleaf (by decide)

/-!
# Whole runs
-/

section Runs

variable [DecidableEq thread] [DecidableEq pointer]

/-- However the threads interleave: as long as something is left to do a thread can go on, and
the calls under way end, with every mutex unlocked. -/
theorem no_deadlock [Fintype thread] {level : pointer -> Nat} {iLevels : Nat}
    {labels : List (LockLabel thread (Activity pointer))} {s : LockState thread (Mutex pointer)}
    (hlevel : forall p, level p < iLevels)
    (hupwards : forall t activity, .start t activity ∈ labels ->
      activity.DestroysUpwards level)
    (hrun : Run (step Activity.actions) init labels = some s) :
    ((exists t, s.todo t ≠ []) -> exists t u, step Activity.actions s (.proceed t) = some u) ∧
      (forall more u, AllSteps (step Activity.actions) Proceeds s more ->
        Run (step Activity.actions) s more = some u -> more.length ≤ stepsLeft s) ∧
      exists more u, AllSteps (step Activity.actions) Proceeds s more ∧
        Run (step Activity.actions) s more = some u ∧ (forall t, u.todo t = []) ∧
          forall m, u.owner m = none := by
  have hordered : AllSteps (step Activity.actions)
      (fun _ a => StartsOrdered (mutexRank level iLevels) Activity.actions a) init labels := by
    apply allSteps_of_labels
    intro a ha _
    cases a with
    | start t activity => exact activity_ordered hlevel (hupwards t activity ha)
    | proceed t => trivial
  have hinv : LockInv (mutexRank level iLevels) s :=
    run_invariant (fun _ _ _ hinv hok hstep => lockInv_step hinv hok hstep) lockInv_init hordered
      hrun
  refine ⟨some_proceeds hinv, ?_, calls_finish hinv⟩
  intro more u hproceeds hmore
  have hlength := length_add_stepsLeft hproceeds hmore
  omega

/-- A parent destroys its child while the child handles a message. -/
def childDestroyed : List (LockLabel Bool (Activity Nat)) :=
  [.start false (.Process 0 [.UnRegisterActor 1]),
    .start true (.Process 1 [.SendMsg 3 [.SendInternal 0 2 true]]),
    .proceed false, .proceed true, .proceed false, .proceed false]

theorem no_deadlock_childDestroyed :
    let s := (Run (step Activity.actions) init childDestroyed).get (by rfl)
    ((exists t, s.todo t ≠ []) -> exists t u, step Activity.actions s (.proceed t) = some u) ∧
      (forall more u, AllSteps (step Activity.actions) Proceeds s more ->
        Run (step Activity.actions) s more = some u -> more.length ≤ stepsLeft s) ∧
      exists more u, AllSteps (step Activity.actions) Proceeds s more ∧
        Run (step Activity.actions) s more = some u ∧ (forall t, u.todo t = []) ∧
          forall m, u.owner m = none := by
  refine @no_deadlock Bool Nat _ _ _ (fun p => p % 2) 2 childDestroyed _
    (fun p => Nat.mod_lt p (by decide)) ?_ (Option.some_get _).symm
  intro t activity hstart
  simp only [childDestroyed, List.mem_cons, LockLabel.start.injEq, reduceCtorEq,
    List.not_mem_nil, or_false] at hstart
  rcases hstart with ⟨_, hactivity⟩ | ⟨_, hactivity⟩
  · rw [hactivity]
    intro pDestroyed hdestroyed
    cases List.mem_singleton.mp hdestroyed
    decide
  · rw [hactivity]
    intro pDestroyed hdestroyed
    cases List.mem_singleton.mp hdestroyed

/-!
# An actor that is destroyed by its own handler
-/

/-- A handler that destroys the actor of its own mailbox never returns, and keeps the mutex.
To lock a `std::mutex` that the thread owns is undefined; here it blocks. -/
theorem destroys_itself_stuck {labels : List (LockLabel thread (Activity pointer))}
    {s u : LockState thread (Mutex pointer)} {t : thread} {pMailBox : pointer}
    {handlers : List (Call pointer)} (hdestroys : .UnRegisterActor pMailBox ∈ handlers)
    (hrun : Run (step Activity.actions) s (.start t (.Process pMailBox handlers) :: labels) =
      some u) :
    u.todo t ≠ [] ∧
      (u.owner (actorMutex pMailBox) = some t ∨
        u.todo t = (Activity.Process pMailBox handlers).actions) := by
  rcases List.eq_append_cons_of_mem hdestroys with ⟨first, later, hhandlers, hfirst⟩
  have hbefore : .unlock (actorMutex pMailBox) ∉
      scope pMailBox .Mailbox_m_ReciveMutex [] ++ first.flatMap Call.actions := by
    intro hin
    rcases List.mem_append.mp hin with hin | hin
    · exact not_unlocked (by decide) List.not_mem_nil hin
    · rcases List.mem_flatMap.mp hin with ⟨c, hc, hin⟩
      refine call_not_unlocked ?_ hin
      intro heq
      rw [heq] at hc
      exact hfirst hc
  have hactions : exists rest, (Activity.Process pMailBox handlers).actions =
      .lock (actorMutex pMailBox) ::
        ((scope pMailBox .Mailbox_m_ReciveMutex [] ++ first.flatMap Call.actions) ++
          .lock (actorMutex pMailBox) :: rest) := by
    refine ⟨scope pMailBox .Mailbox_m_ReciveMutex [] ++ .unlock (actorMutex pMailBox) ::
      (later.flatMap Call.actions ++ [.unlock (actorMutex pMailBox)]), ?_⟩
    rw [hhandlers]
    simp [Activity.actions, Mailbox.Process, Call.actions, Mailbox.UnRegisterActor, scope,
      locked, actorMutex]
  rcases hactions with ⟨rest, hactions⟩
  rcases run_cons_eq_some hrun with ⟨next, hstep, hlater⟩
  have hnext : next.todo t = (Activity.Process pMailBox handlers).actions := by
    cases step_sound hstep with
    | start hidle => exact Function.update_self _ _ _
  rw [hactions] at hnext ⊢
  rcases locked_twice hbefore hnext hlater with htodo | hrelocks
  · rw [htodo]
    exact ⟨List.cons_ne_nil _ _, .inr rfl⟩
  · exact ⟨relocks_busy hrelocks, .inl hrelocks.owner⟩

theorem destroys_itself_stuck_atOnce :
    let u := (Run (step Activity.actions) (init : LockState Bool (Mutex Nat))
      [.start false (.Process 0 [.PushLog 1, .UnRegisterActor 0]), .proceed false,
        .start true (.call (.PushLog 1)), .proceed false]).get (by rfl)
    u.todo false ≠ [] ∧
      (u.owner (actorMutex 0) = some false ∨
        u.todo false = (Activity.Process 0 [.PushLog 1, .UnRegisterActor 0]).actions) :=
  destroys_itself_stuck (List.mem_cons_of_mem _ List.mem_cons_self) (Option.some_get _).symm

end Runs

end Mutexes
end LibActor
end GMServer
