import GMServer.LibActor.Actor
import GMServer.LibActor.Multicast

/-!
# What `SendMsg` answers

Runs of everything that is done with a framework and its mailboxes.  The answer of
`PushMsg` says whether an actor got the message; `SendMsg` does not hand it on.
-/

namespace GMServer
namespace LibActor

/-- The pieces of `Mailbox::Process` that change the mailbox. -/
inductive ProcessPiece where
  | swapLists
  | storeUnHanle
  | popHandled
  deriving DecidableEq

def ProcessPiece.run {Actor Message : Type} :
    ProcessPiece -> Mailbox Actor Message -> Mailbox Actor Message
  | .swapLists => Mailbox.swapLists
  | .storeUnHanle => Mailbox.storeUnHanle
  | .popHandled => Mailbox.popHandled

inductive FrameworkCall (Actor Message : Type) where
  /-- The constructor of an actor with an address of its own. -/
  | setAddress (pActor : Actor) (address : Address)
  | RegisterActor (pActor : Actor) (name : Name)
  | UnRegisterActor (pActor : Actor)
  | SendMsg (pMsg : Option Message) (adress : Address)
  | SendMsgList (pMsg : Option Message) (listAdress : List Address)
  | SystemMsg (pMsg : Option Message)
  | Process (index : uint32_t) (piece : ProcessPiece)
  | Pop (pScheduler : Nat) (IsHandling : Nat -> uint32_t -> Bool)

namespace MessageState

open Transition

variable {Actor Message : Type}

/-- `Pop` of one scheduler. -/
def pop (s : MessageState Actor Message) (pScheduler : Nat)
    (IsHandling : Nat -> uint32_t -> Bool) : MessageState Actor Message :=
  { s with
    m_listWaite := Function.update s.m_listWaite pScheduler
      (SchedulerSemaphore.Pop IsHandling (s.m_listWaite pScheduler)).2 }

section

variable [DecidableEq Actor]

/-- A call whose assertions fail is not enabled. -/
def step (s : MessageState Actor Message) :
    FrameworkCall Actor Message -> Option (MessageState Actor Message)
  | .setAddress pActor address =>
      some { s with framework := ActorState.setAddress s.framework pActor address }
  | .RegisterActor pActor name =>
      (s.framework.RegisterActor pActor name).toOption.map (fun registered =>
        { s with framework := registered.1 })
  | .UnRegisterActor pActor =>
      (s.framework.UnRegisterActor pActor).toOption.map (fun framework =>
        { s with framework := framework })
  | .SendMsg pMsg adress => (s.SendMsg pMsg adress).toOption.map Prod.fst
  | .SendMsgList pMsg listAdress => (s.SendMsgList pMsg listAdress).toOption.map Prod.fst
  | .SystemMsg pMsg => some (s.SystemMsg pMsg).1
  | .Process index piece =>
      (s.framework.m_MailBoxes.GetEntry index).toOption.map (fun box =>
        s.setBox index (piece.run box))
  | .Pop pScheduler IsHandling => some (s.pop pScheduler IsHandling)

end

/-!
# What the answer should say
-/

/-- With an actor at the index, its mailbox has the message and the answer is true;
without one, no mailbox changes and the answer is false. -/
def SendTruth (s : MessageState Actor Message) (pMsg : Option Message)
    (adress : Address) : Prop :=
  match s.actorAt adress.entryIndex with
  | some _ =>
      exists t, s.SendMsg pMsg adress = .ok (t, true) ∧ Appended s t adress.entryIndex pMsg
  | none =>
      exists t, s.SendMsg pMsg adress = .ok (t, false) ∧ forall index,
        t.framework.m_MailBoxes.GetEntry index = s.framework.m_MailBoxes.GetEntry index

/-- A mailbox with an actor has the scheduler of the framework. -/
def Scheduled (s : MessageState Actor Message) : Prop :=
  forall index box, s.framework.m_MailBoxes.GetEntry index = .ok box ->
    box.m_pActor ≠ none -> box.m_pScheduler = s.framework.m_pScheduler

/-- Only `true` is ever returned. -/
theorem sendMsg_true {s t : MessageState Actor Message} {pMsg : Option Message}
    {adress : Address} {bResult : Bool} (hsent : s.SendMsg pMsg adress = .ok (t, bResult)) :
    bResult = true := by
  by_cases hhome : adress.mProcess = s.framework.m_Address.mProcess
  · rw [sendMsg_local hhome] at hsent
    cases hlocal : s.sendLocal pMsg adress with
    | error fault =>
        rw [hlocal] at hsent
        cases hsent
    | ok next =>
        rw [hlocal] at hsent
        cases hsent
        rfl
  · rw [sendMsg_remote hhome] at hsent
    cases hend : s.SendEndPoint (.single pMsg adress) with
    | error fault =>
        rw [hend] at hsent
        cases hsent
    | ok sent =>
        rw [hend] at hsent
        cases hsent
        rfl

theorem sendTruth_iff {s : MessageState Actor Message} (hscheduled : Scheduled s)
    {adress : Address} (hhome : adress.mProcess = s.framework.m_Address.mProcess)
    (hindex : adress.m_Index ≠ 0) (pMsg : Option Message) :
    SendTruth s pMsg adress <->
      s.actorAt adress.entryIndex ≠ none ∧ s.framework.m_pScheduler ≠ none := by
  unfold SendTruth
  cases hactor : s.actorAt adress.entryIndex with
  | none =>
      refine iff_of_false ?_ (fun h => h.left rfl)
      intro ⟨t, hsent, _⟩
      cases sendMsg_true hsent
  | some pActor =>
      rcases actorAt_eq_some.mp hactor with ⟨box, hget, hthere⟩
      have hsome : box.m_pActor ≠ none := by
        rw [hthere]
        exact Option.some_ne_none pActor
      have hsame := hscheduled _ box hget hsome
      rw [and_iff_right (Option.some_ne_none pActor), ← hsame]
      dsimp only
      rw [sendMsg_internal hhome hindex]
      constructor
      · intro ⟨t, hsent, _⟩
        cases hpush : s.pushMsg adress.entryIndex pMsg with
        | error fault =>
            rw [hpush] at hsent
            cases hsent
        | ok sent =>
            rcases (pushMsg_spec hpush).right with ⟨found, hfound, hscheduler, _⟩
            rw [hget] at hfound
            cases hfound
            exact hscheduler
      · intro hscheduler
        rcases pushMsg_ok hget hscheduler pMsg with ⟨t, accepted, hpush⟩
        rcases (pushMsg_spec hpush).right with ⟨found, hfound, _, hcases⟩
        rw [hget] at hfound
        cases hfound
        rcases hcases with ⟨hnone, _⟩ | ⟨_, _, happended⟩
        · exact absurd hnone hsome
        · rw [hpush]
          exact ⟨t, rfl, happended⟩

/-!
# The mailboxes keep their scheduler
-/

theorem scheduled_frame {s t : MessageState Actor Message} (hscheduled : Scheduled s)
    (hframe : PushFrame s t) : Scheduled t := by
  intro index box hget hactor
  rcases hframe.boxes index box hget with ⟨old, hold, hsame, hscheduler⟩
  rw [hsame] at hactor
  rw [hscheduler, hframe.scheduler]
  exact hscheduled index old hold hactor

theorem scheduled_sendEndPoint {s t : MessageState Actor Message}
    (hscheduled : Scheduled s) {call : EndPointCall Message} {bResult : Bool}
    (hsent : s.SendEndPoint call = .ok (t, bResult)) :
    Scheduled t ∧ t.framework = s.framework := by
  unfold SendEndPoint at hsent
  split at hsent
  · cases hsent
  · cases hsent
    exact ⟨hscheduled, rfl⟩

theorem sendMsg_scheduled {s t : MessageState Actor Message} (hscheduled : Scheduled s)
    {pMsg : Option Message} {adress : Address} {bResult : Bool}
    (hsent : s.SendMsg pMsg adress = .ok (t, bResult)) :
    Scheduled t ∧ t.framework.m_Address = s.framework.m_Address ∧
      t.framework.m_pScheduler = s.framework.m_pScheduler := by
  by_cases hhome : adress.mProcess = s.framework.m_Address.mProcess
  · rw [sendMsg_local hhome] at hsent
    cases hlocal : s.sendLocal pMsg adress with
    | error fault =>
        rw [hlocal] at hsent
        cases hsent
    | ok next =>
        rw [hlocal] at hsent
        cases hsent
        have hframe := sendLocal_frame hlocal
        exact ⟨scheduled_frame hscheduled hframe, hframe.address, hframe.scheduler⟩
  · rw [sendMsg_remote hhome] at hsent
    cases hend : s.SendEndPoint (.single pMsg adress) with
    | error fault =>
        rw [hend] at hsent
        cases hsent
    | ok sent =>
        rw [hend] at hsent
        cases hsent
        rcases scheduled_sendEndPoint hscheduled hend with ⟨hkept, hsame⟩
        exact ⟨hkept, by rw [hsame], by rw [hsame]⟩

theorem sendMsgList_scheduled {s t : MessageState Actor Message} (hscheduled : Scheduled s)
    {pMsg : Option Message} {listAdress : List Address} {bResult : Bool}
    (hsent : s.SendMsgList pMsg listAdress = .ok (t, bResult)) :
    Scheduled t ∧ t.framework.m_Address = s.framework.m_Address ∧
      t.framework.m_pScheduler = s.framework.m_pScheduler := by
  rw [sendMsgList_eq] at hsent
  cases hloop : s.sendLoop pMsg [] listAdress with
  | error fault =>
      rw [hloop] at hsent
      cases hsent
  | ok out =>
      rcases out with ⟨sent, collected⟩
      have hframe := (sendLoop_collects hloop).right
      have hkept := scheduled_frame hscheduled hframe
      rw [hloop] at hsent
      dsimp only at hsent
      split at hsent
      · cases hsent
        exact ⟨hkept, hframe.address, hframe.scheduler⟩
      · rcases scheduled_sendEndPoint hkept hsent with ⟨hlast, hsame⟩
        rw [hsame]
        exact ⟨hlast, hframe.address, hframe.scheduler⟩

variable [DecidableEq Actor]

theorem scheduled_register {s : MessageState Actor Message} (hscheduled : Scheduled s)
    {pActor : Actor} {name : Name} {framework : Framework Actor Message} {index : uint32_t}
    (hregister : s.framework.RegisterActor pActor name = .ok (framework, index)) :
    Scheduled { s with framework := framework } ∧
      framework.m_Address = s.framework.m_Address ∧
      framework.m_pScheduler = s.framework.m_pScheduler := by
  rcases told_of_register hregister with ⟨haddress, hscheduler, htold⟩
  rcases ActorState.registers_of_ok hregister with ⟨hindex, hregisters⟩
  refine ⟨?_, haddress, hscheduler⟩
  intro i box hget hactor
  by_cases hi : i = index
  · rcases htold.box with ⟨found, hfound, _, hsame⟩
    rw [hi, hfound] at hget
    cases hget
    exact hsame
  · rw [hindex] at hi
    rcases hregisters.origin i box hi hget with hold | hnew
    · dsimp only
      rw [hscheduler]
      exact hscheduled i box hold hactor
    · rw [hnew] at hactor
      exact absurd rfl hactor

omit [DecidableEq Actor] in
theorem scheduled_unRegister {s : MessageState Actor Message} (hscheduled : Scheduled s)
    {pActor : Actor} {framework : Framework Actor Message}
    (hremove : s.framework.UnRegisterActor pActor = .ok framework) :
    Scheduled { s with framework := framework } ∧
      framework.m_Address = s.framework.m_Address ∧
      framework.m_pScheduler = s.framework.m_pScheduler := by
  unfold Framework.UnRegisterActor at hremove
  dsimp only at hremove
  split at hremove
  · cases hremove
  · rename_i old hold
    cases hremove
    refine ⟨?_, rfl, rfl⟩
    intro i box hget hactor
    have hread := getEntry_setBox s hold old.UnRegisterActor i
    rw [show (s.setBox _ old.UnRegisterActor).framework.m_MailBoxes.GetEntry i = .ok box
      from hget] at hread
    by_cases hi : i = (s.framework.actorAddress pActor).entryIndex
    · rw [if_pos hi] at hread
      cases hread
      exact absurd rfl hactor
    · rw [if_neg hi] at hread
      exact hscheduled i box hread.symm hactor

omit [DecidableEq Actor] in
theorem toOption_map_eq_some {value : Type} {result : Except Fault value}
    {f : value -> MessageState Actor Message} {t : MessageState Actor Message}
    (h : result.toOption.map f = some t) : exists a, result = .ok a ∧ f a = t := by
  rcases Option.map_eq_some_iff.mp h with ⟨a, hsome, hEq⟩
  cases result with
  | error fault => cases hsome
  | ok b =>
      cases hsome
      exact ⟨a, rfl, hEq⟩

/-- Every call keeps the schedulers of the mailboxes, and the framework's own data. -/
theorem scheduled_step {s t : MessageState Actor Message}
    {call : FrameworkCall Actor Message} (hscheduled : Scheduled s)
    (hstep : step s call = some t) :
    Scheduled t ∧ t.framework.m_Address = s.framework.m_Address ∧
      t.framework.m_pScheduler = s.framework.m_pScheduler := by
  cases call with
  | setAddress pActor address =>
      cases hstep
      exact ⟨hscheduled, rfl, rfl⟩
  | RegisterActor pActor name =>
      rcases toOption_map_eq_some hstep with ⟨registered, hregister, hEq⟩
      rw [← hEq]
      exact scheduled_register hscheduled hregister
  | UnRegisterActor pActor =>
      rcases toOption_map_eq_some hstep with ⟨framework, hremove, hEq⟩
      rw [← hEq]
      exact scheduled_unRegister hscheduled hremove
  | SendMsg pMsg adress =>
      rcases toOption_map_eq_some hstep with ⟨sent, hsent, hEq⟩
      rw [← hEq]
      exact sendMsg_scheduled hscheduled hsent
  | SendMsgList pMsg listAdress =>
      rcases toOption_map_eq_some hstep with ⟨sent, hsent, hEq⟩
      rw [← hEq]
      exact sendMsgList_scheduled hscheduled hsent
  | SystemMsg pMsg =>
      cases hstep
      exact ⟨hscheduled, rfl, rfl⟩
  | Process index piece =>
      rcases toOption_map_eq_some hstep with ⟨box, hget, hEq⟩
      rw [← hEq]
      have hframe : PushFrame s (s.setBox index (piece.run box)) := by
        apply pushFrame_setBox hget
        · cases piece with
          | swapLists => rfl
          | storeUnHanle => rfl
          | popHandled => rfl
        · cases piece with
          | swapLists => rfl
          | storeUnHanle => rfl
          | popHandled => rfl
      exact ⟨scheduled_frame hscheduled hframe, rfl, rfl⟩
  | Pop pScheduler IsHandling =>
      cases hstep
      exact ⟨hscheduled, rfl, rfl⟩

/-!
# Whole runs
-/

omit [DecidableEq Actor] in
theorem scheduled_init {pScheduler : Option Nat} {framework : Framework Actor Message}
    (hnew : Framework.new pScheduler = .ok framework) :
    Scheduled (init framework) ∧ framework.m_pScheduler = pScheduler := by
  refine ⟨?_, Framework.new_m_pScheduler hnew⟩
  intro index box hget hactor
  -- nobody is registered, so nobody is in a mailbox
  rcases Option.ne_none_iff_exists'.mp hactor with ⟨pActor, hsome⟩
  have hat : (ActorState.init framework).actorAt index = some pActor :=
    ActorState.actorAt_eq_some.mpr ⟨box, hget, hsome⟩
  cases (ActorState.actorsInv_init hnew).owner index pActor hat

/-- After any run on a new framework the answer is right exactly for an index with an
actor, if there is a scheduler. -/
theorem answer_true_iff (pScheduler : Option Nat) :
    exists framework : Framework Actor Message,
      Framework.new pScheduler = .ok framework ∧
        forall calls s, Run step (init framework) calls = some s -> forall pMsg adress,
          adress.mProcess = s.framework.m_Address.mProcess -> adress.m_Index ≠ 0 ->
            (SendTruth s pMsg adress <->
              s.actorAt adress.entryIndex ≠ none ∧ pScheduler ≠ none) := by
  rcases @Framework.new_spec Actor Message pScheduler with ⟨framework, hnew, _⟩
  rcases scheduled_init hnew with ⟨hinit, hgiven⟩
  refine ⟨framework, hnew, ?_⟩
  intro calls s hrun pMsg adress hhome hindex
  have hkeep : forall (s : MessageState Actor Message) call t,
      (Scheduled s ∧ s.framework.m_pScheduler = pScheduler) -> True ->
        step s call = some t -> Scheduled t ∧ t.framework.m_pScheduler = pScheduler := by
    intro s call t hinv _ hstep
    rcases scheduled_step hinv.left hstep with ⟨hkept, _, hscheduler⟩
    exact ⟨hkept, hscheduler.trans hinv.right⟩
  have hinv := run_invariant hkeep ⟨hinit, hgiven⟩
    (allSteps_of_labels (fun _ _ _ => trivial) _) hrun
  rw [sendTruth_iff hinv.left hhome hindex, hinv.right]

/-!
# An address kept after its actor died

The actor of mailbox 1 is gone, and a message to it is dropped with the answer true.
-/

def removedActor : List (FrameworkCall Nat Nat) :=
  [.RegisterActor 0 { mValue := 0 }, .UnRegisterActor 0]

theorem runs_from_new (calls : List (FrameworkCall Nat Nat))
    (test : MessageState Nat Nat -> Bool)
    (hcheck : ((Framework.new (some 1)).toOption.bind (fun framework : Framework Nat Nat =>
      Run step (init framework) calls)).any test = true) :
    exists (framework : Framework Nat Nat) (s : MessageState Nat Nat),
      Framework.new (some 1) = .ok framework ∧ Run step (init framework) calls = some s ∧
        test s = true := by
  rcases @Framework.new_spec Nat Nat (some 1) with ⟨framework, hnew, _⟩
  rw [hnew] at hcheck
  rcases (Option.any_eq_true _ _).mp hcheck with ⟨s, hrun, hs⟩
  exact ⟨framework, s, hnew, hrun, hs⟩

theorem removedActor_answer :
    exists (framework : Framework Nat Nat) (s : MessageState Nat Nat),
      Framework.new (some 1) = .ok framework ∧
        Run step (init framework) removedActor = some s ∧
        s.actorAt 1 = none ∧ ¬ SendTruth s (some 7) (Address.ofBrief 0 1) := by
  rcases runs_from_new removedActor (fun s => decide (s.actorAt 1 = none))
    (by decide +kernel) with
    ⟨framework, s, hnew, hrun, hnone⟩
  have hgone := of_decide_eq_true hnone
  refine ⟨framework, s, hnew, hrun, hgone, ?_⟩
  intro htruth
  unfold SendTruth at htruth
  rw [show (Address.ofBrief 0 1).entryIndex = 1 by decide, hgone] at htruth
  rcases htruth with ⟨t, hsent, _⟩
  cases sendMsg_true hsent

theorem registeredActor_answer :
    exists (framework : Framework Nat Nat) (s : MessageState Nat Nat),
      Framework.new (some 1) = .ok framework ∧
        Run step (init framework) [.RegisterActor 0 { mValue := 0 }] = some s ∧
        SendTruth s (some 7) (Address.ofBrief 0 1) := by
  rcases @answer_true_iff Nat Nat _ (some 1) with ⟨framework, hnew, hanswer⟩
  rcases runs_from_new [.RegisterActor 0 { mValue := 0 }]
    (fun s => decide (s.actorAt 1 = some 0 ∧
      s.framework.m_Address = Address.ofUint32 0)) (by decide +kernel) with
    ⟨made, s, hmade, hrun, hs⟩
  rcases of_decide_eq_true hs with ⟨hactor, haddress⟩
  rw [hnew] at hmade
  cases hmade
  refine ⟨framework, s, hnew, hrun, ?_⟩
  apply (hanswer _ s hrun (some 7) (Address.ofBrief 0 1) _ (by decide)).mpr
  · rw [show (Address.ofBrief 0 1).entryIndex = 1 by decide, hactor]
    exact ⟨Option.some_ne_none 0, Option.some_ne_none 1⟩
  · rw [haddress]
    decide

end MessageState
end LibActor
end GMServer
