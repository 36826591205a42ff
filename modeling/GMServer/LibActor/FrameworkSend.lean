import GMServer.LibActor.Framework
import GMServer.LibActor.SchedulerSemaphore

/-!
# Sending messages

`Framework::SendMsg` hands a message to a mailbox, to the queue of the system or to
the end point.  Beside the framework the state has what these three write to: the
wait list of each scheduler, in which a mailbox stands by its index, the system
queue, and the calls the end point has got.
-/

namespace GMServer
namespace LibActor

inductive EndPointCall (Message : Type) where
  | single (pMsg : Option Message) (adress : Address)
  | list (pMsg : Option Message) (listAdress : List Address)
  deriving DecidableEq

structure MessageState (Actor Message : Type) where
  framework : Framework Actor Message
  m_listRecive : List (Option Message)
  m_listWaite : Nat -> List (Option uint32_t)
  /-- Null until an end point is made. -/
  m_pEndPoint : Option (List (EndPointCall Message))

namespace MessageState

variable {Actor Message : Type}

def init (framework : Framework Actor Message) : MessageState Actor Message :=
  { framework := framework,
    m_listRecive := [],
    m_listWaite := fun _ => [],
    m_pEndPoint := none }

/-!
# One message
-/

def SystemMsg (s : MessageState Actor Message) (pMsg : Option Message) :
    MessageState Actor Message × Bool :=
  ({ s with m_listRecive := s.m_listRecive ++ [pMsg] }, true)

/-- `m_pScheduler->Schedule(this)` of the mailbox with this index. -/
def schedule (s : MessageState Actor Message) (m_pScheduler : Option Nat)
    (index : uint32_t) : MessageState Actor Message :=
  match m_pScheduler with
  | none => s
  | some pScheduler =>
      { s with
        m_listWaite := Function.update s.m_listWaite pScheduler
          (SchedulerSemaphore.Schedule (s.m_listWaite pScheduler) (some index)) }

def setBox (s : MessageState Actor Message) (index : uint32_t)
    (box : Mailbox Actor Message) : MessageState Actor Message :=
  { s with
    framework := { s.framework with
      m_MailBoxes := s.framework.m_MailBoxes.setEntry index box } }

def pushMsg (s : MessageState Actor Message) (index : uint32_t) (pMsg : Option Message) :
    Except Fault (MessageState Actor Message × Bool) :=
  match s.framework.m_MailBoxes.GetEntry index with
  | .error fault => .error fault
  | .ok box =>
      match box.PushMsg pMsg with
      | .error fault => .error fault
      | .ok out =>
          let pushed := s.setBox index out.box
          .ok (if out.scheduled then pushed.schedule box.m_pScheduler index else pushed,
            out.accepted)

def SendInternal (s : MessageState Actor Message) (pMsg : Option Message)
    (adress : Address) : Except Fault (MessageState Actor Message × Bool) :=
  if s.framework.m_Address.mProcess ≠ adress.mProcess then .error .assertFailed
  else s.pushMsg adress.entryIndex pMsg

def SendEndPoint (s : MessageState Actor Message) (call : EndPointCall Message) :
    Except Fault (MessageState Actor Message × Bool) :=
  match s.m_pEndPoint with
  | none => .error .nullPointer
  | some calls => .ok ({ s with m_pEndPoint := some (calls ++ [call]) }, true)

/-- What the functions it calls return is dropped. -/
def SendMsg (s : MessageState Actor Message) (pMsg : Option Message) (adress : Address) :
    Except Fault (MessageState Actor Message × Bool) :=
  if adress.mProcess = s.framework.m_Address.mProcess then
    if adress.m_Index = 0 then .ok ((s.SystemMsg pMsg).1, true)
    else (s.SendInternal pMsg adress).map (fun sent => (sent.1, true))
  else (s.SendEndPoint (.single pMsg adress)).map (fun sent => (sent.1, true))

/-!
# A list of addresses
-/

/-- The loop; `listEndPoint` collects the addresses of other processes. -/
def sendLoop (s : MessageState Actor Message) (pMsg : Option Message)
    (listEndPoint : List Address) :
    List Address -> Except Fault (MessageState Actor Message × List Address)
  | [] => .ok (s, listEndPoint)
  | it :: rest =>
      if it.mProcess = s.framework.m_Address.mProcess then
        if it.m_Index = 0 then sendLoop (s.SystemMsg pMsg).1 pMsg listEndPoint rest
        else
          match s.SendInternal pMsg it with
          | .error fault => .error fault
          | .ok (sent, _) => sendLoop sent pMsg listEndPoint rest
      else sendLoop s pMsg (listEndPoint ++ [it]) rest

def SendMsgList (s : MessageState Actor Message) (pMsg : Option Message)
    (listAdress : List Address) : Except Fault (MessageState Actor Message × Bool) :=
  match s.sendLoop pMsg [] listAdress with
  | .error fault => .error fault
  | .ok (sent, listEndPoint) =>
      if listEndPoint = [] then .ok (sent, true)
      else sent.SendEndPoint (.list pMsg listEndPoint)

/-!
# What one push changes
-/

def actorAt (s : MessageState Actor Message) (index : uint32_t) : Option Actor :=
  match s.framework.m_MailBoxes.GetEntry index with
  | .error _ => none
  | .ok box => box.m_pActor

/-- The message is the last one of this mailbox, and the other mailboxes are as before. -/
structure Appended (s t : MessageState Actor Message) (index : uint32_t)
    (pMsg : Option Message) : Prop where
  there : exists box, s.framework.m_MailBoxes.GetEntry index = .ok box ∧
    t.framework.m_MailBoxes.GetEntry index =
      .ok { box with m_listRecive := box.m_listRecive ++ [pMsg] }
  others : forall i, i ≠ index ->
    t.framework.m_MailBoxes.GetEntry i = s.framework.m_MailBoxes.GetEntry i

@[simp] theorem schedule_framework (s : MessageState Actor Message)
    (m_pScheduler : Option Nat) (index : uint32_t) :
    (s.schedule m_pScheduler index).framework = s.framework := by
  cases m_pScheduler with
  | none => rfl
  | some pScheduler => rfl

@[simp] theorem schedule_m_pEndPoint (s : MessageState Actor Message)
    (m_pScheduler : Option Nat) (index : uint32_t) :
    (s.schedule m_pScheduler index).m_pEndPoint = s.m_pEndPoint := by
  cases m_pScheduler with
  | none => rfl
  | some pScheduler => rfl

theorem actorAt_eq_some {s : MessageState Actor Message} {index : uint32_t}
    {pActor : Actor} :
    s.actorAt index = some pActor <-> exists box,
      s.framework.m_MailBoxes.GetEntry index = .ok box ∧ box.m_pActor = some pActor := by
  unfold actorAt
  cases s.framework.m_MailBoxes.GetEntry index with
  | error fault =>
      constructor
      · intro h
        cases h
      · intro ⟨box, hget, _⟩
        cases hget
  | ok box =>
      constructor
      · intro h
        exact ⟨box, rfl, h⟩
      · intro ⟨other, hget, hactor⟩
        cases hget
        exact hactor

/-- What a push leaves alone, whatever it finds. -/
structure PushFrame (s t : MessageState Actor Message) : Prop where
  address : t.framework.m_Address = s.framework.m_Address
  scheduler : t.framework.m_pScheduler = s.framework.m_pScheduler
  endPoint : t.m_pEndPoint = s.m_pEndPoint
  boxes : forall index box, t.framework.m_MailBoxes.GetEntry index = .ok box ->
    exists old, s.framework.m_MailBoxes.GetEntry index = .ok old ∧
      box.m_pActor = old.m_pActor ∧ box.m_pScheduler = old.m_pScheduler
  kept : forall index old, s.framework.m_MailBoxes.GetEntry index = .ok old ->
    exists box, t.framework.m_MailBoxes.GetEntry index = .ok box ∧
      box.m_pActor = old.m_pActor ∧ box.m_pScheduler = old.m_pScheduler

theorem getEntry_setBox (s : MessageState Actor Message) {index : uint32_t}
    {old : Mailbox Actor Message} (hget : s.framework.m_MailBoxes.GetEntry index = .ok old)
    (box : Mailbox Actor Message) (i : uint32_t) :
    (s.setBox index box).framework.m_MailBoxes.GetEntry i =
      if i = index then .ok box else s.framework.m_MailBoxes.GetEntry i := by
  by_cases hi : i = index
  · rw [if_pos hi, hi]
    exact Directory.getEntry_setEntry_self hget box
  · rw [if_neg hi]
    exact Directory.getEntry_setEntry_of_ne hi box

theorem pushFrame_setBox {s : MessageState Actor Message} {index : uint32_t}
    {old box : Mailbox Actor Message}
    (hget : s.framework.m_MailBoxes.GetEntry index = .ok old)
    (hactor : box.m_pActor = old.m_pActor) (hscheduler : box.m_pScheduler = old.m_pScheduler) :
    PushFrame s (s.setBox index box) where
  address := rfl
  scheduler := rfl
  endPoint := rfl
  boxes := by
    intro i found hfound
    rw [getEntry_setBox s hget box] at hfound
    by_cases hi : i = index
    · rw [if_pos hi] at hfound
      cases hfound
      exact ⟨old, by rw [hi]; exact hget, hactor, hscheduler⟩
    · rw [if_neg hi] at hfound
      exact ⟨found, hfound, rfl, rfl⟩
  kept := by
    intro i found hfound
    rw [getEntry_setBox s hget box]
    by_cases hi : i = index
    · rw [hi, hget] at hfound
      cases hfound
      exact ⟨box, if_pos hi, hactor, hscheduler⟩
    · exact ⟨found, by rw [if_neg hi]; exact hfound, rfl, rfl⟩

theorem PushFrame.refl (s : MessageState Actor Message) : PushFrame s s where
  address := rfl
  scheduler := rfl
  endPoint := rfl
  boxes := fun _ box hget => ⟨box, hget, rfl, rfl⟩
  kept := fun _ old hget => ⟨old, hget, rfl, rfl⟩

theorem PushFrame.trans {s t u : MessageState Actor Message} (hfirst : PushFrame s t)
    (hsecond : PushFrame t u) : PushFrame s u where
  address := hsecond.address.trans hfirst.address
  scheduler := hsecond.scheduler.trans hfirst.scheduler
  endPoint := hsecond.endPoint.trans hfirst.endPoint
  boxes := by
    intro index box hget
    rcases hsecond.boxes index box hget with ⟨between, hbetween, hactor, hscheduler⟩
    rcases hfirst.boxes index between hbetween with ⟨old, hold, hactor', hscheduler'⟩
    exact ⟨old, hold, hactor.trans hactor', hscheduler.trans hscheduler'⟩
  kept := by
    intro index old hold
    rcases hfirst.kept index old hold with ⟨between, hbetween, hactor, hscheduler⟩
    rcases hsecond.kept index between hbetween with ⟨box, hget, hactor', hscheduler'⟩
    exact ⟨box, hget, hactor'.trans hactor, hscheduler'.trans hscheduler⟩

theorem PushFrame.congr {s t u : MessageState Actor Message} (hframe : PushFrame s t)
    (hframework : u.framework = t.framework) (hend : u.m_pEndPoint = t.m_pEndPoint) :
    PushFrame s u where
  address := by rw [hframework]; exact hframe.address
  scheduler := by rw [hframework]; exact hframe.scheduler
  endPoint := hend.trans hframe.endPoint
  boxes := by rw [hframework]; exact hframe.boxes
  kept := by rw [hframework]; exact hframe.kept

theorem pushMsg_eq_ok {s t : MessageState Actor Message} {index : uint32_t}
    {pMsg : Option Message} {accepted : Bool}
    (hpush : s.pushMsg index pMsg = .ok (t, accepted)) :
    exists box out, s.framework.m_MailBoxes.GetEntry index = .ok box ∧
      box.PushMsg pMsg = .ok out ∧ accepted = out.accepted ∧
      t.framework = (s.setBox index out.box).framework ∧ t.m_pEndPoint = s.m_pEndPoint := by
  unfold pushMsg at hpush
  cases hget : s.framework.m_MailBoxes.GetEntry index with
  | error fault =>
      rw [hget] at hpush
      cases hpush
  | ok box =>
      rw [hget] at hpush
      dsimp only at hpush
      cases hout : box.PushMsg pMsg with
      | error fault =>
          rw [hout] at hpush
          cases hpush
      | ok out =>
          rw [hout] at hpush
          cases hpush
          refine ⟨box, out, rfl, hout, rfl, ?_, ?_⟩
          · split
            · exact schedule_framework _ _ _
            · rfl
          · split
            · exact schedule_m_pEndPoint _ _ _
            · rfl

/-- A push that comes back has found a scheduler, and either nobody or an actor. -/
theorem pushMsg_spec {s t : MessageState Actor Message} {index : uint32_t}
    {pMsg : Option Message} {accepted : Bool}
    (hpush : s.pushMsg index pMsg = .ok (t, accepted)) :
    PushFrame s t ∧ exists box, s.framework.m_MailBoxes.GetEntry index = .ok box ∧
      box.m_pScheduler ≠ none ∧
      (box.m_pActor = none ∧ accepted = false ∧ (forall i,
          t.framework.m_MailBoxes.GetEntry i = s.framework.m_MailBoxes.GetEntry i) ∨
        box.m_pActor ≠ none ∧ accepted = true ∧ Appended s t index pMsg) := by
  rcases pushMsg_eq_ok hpush with ⟨box, out, hget, hout, haccepted, hframework, hend⟩
  have hread := getEntry_setBox s hget out.box
  rw [← hframework] at hread
  have hscheduler : box.m_pScheduler ≠ none := by
    intro hnone
    unfold Mailbox.PushMsg at hout
    rw [if_pos hnone] at hout
    cases hout
  rcases Mailbox.pushMsg_cases hout with ⟨hnobody, hEq⟩ | ⟨hactor, hEq⟩
  · have hframe : PushFrame s (s.setBox index out.box) :=
      pushFrame_setBox hget (by rw [hEq]) (by rw [hEq])
    refine ⟨hframe.congr hframework hend, box, hget, hscheduler,
      Or.inl ⟨hnobody, by rw [haccepted, hEq], ?_⟩⟩
    intro i
    rw [hread, hEq]
    by_cases hi : i = index
    · rw [if_pos hi, hi, hget]
    · rw [if_neg hi]
  · have hframe : PushFrame s (s.setBox index out.box) :=
      pushFrame_setBox hget (by rw [hEq]) (by rw [hEq])
    refine ⟨hframe.congr hframework hend, box, hget, hscheduler,
      Or.inr ⟨hactor, by rw [haccepted, hEq], ?_⟩⟩
    constructor
    case there => exact ⟨box, hget, by rw [hread, if_pos rfl, hEq]⟩
    case others =>
      intro i hi
      rw [hread, if_neg hi]

/-- With a scheduler a push into a mailbox that is there comes back. -/
theorem pushMsg_ok {s : MessageState Actor Message} {index : uint32_t}
    {box : Mailbox Actor Message} (hget : s.framework.m_MailBoxes.GetEntry index = .ok box)
    (hscheduler : box.m_pScheduler ≠ none) (pMsg : Option Message) :
    exists t accepted, s.pushMsg index pMsg = .ok (t, accepted) := by
  unfold pushMsg
  rw [hget]
  dsimp only
  unfold Mailbox.PushMsg
  rw [if_neg hscheduler]
  cases box.m_pActor with
  | none => exact ⟨_, _, rfl⟩
  | some pActor => exact ⟨_, _, rfl⟩

end MessageState
end LibActor
end GMServer
