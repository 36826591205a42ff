import GMServer.Library.Transition
import GMServer.Library.Pending
import GMServer.BoostNet.TCPSession

/-!
# The send queue under many threads

Any thread may submit packets, and each call of `DoSend` is in one of two
places: before its critical section, or with a packet in hand until it has
started the write.  Writes complete in any order, with or without an error.
-/

namespace GMServer
namespace BoostNet

/-- A packet that `DoSend` has taken; `writing` once its write was started. -/
structure InFlight where
  pSend : NetPacketPtr
  writing : Bool
  deriving DecidableEq, Repr

/-!
# States

`doSends` counts the calls of `DoSend` before their critical section.  What is
in flight stands in the order in which it was taken.  The last two fields only
record: what was submitted, and what a completion without error reported.
-/

structure SendState where
  session : TCPSession
  doSends : Nat
  inFlight : List InFlight
  submitted : List NetPacketPtr
  succeeded : List NetPacketPtr
  deriving DecidableEq, Repr

inductive SendAction where
  | SendPacket (pPacket : NetPacketPtr)
  | SendPacketList (listPacket : List NetPacketPtr)
  | DoSend
  | WriteData (i : Nat)
  | WriteSucceeded (i : Nat)
  | WriteFailed (i : Nat)
  | Connected
  deriving DecidableEq, Repr

namespace SendQueue

open Transition

def init (m_iPackLen : uint16_t) : SendState :=
  { session := TCPSession.new m_iPackLen,
    doSends := 0,
    inFlight := [],
    submitted := [],
    succeeded := [] }

/-!
# Steps

The completion of a write calls `DoSend` again, or puts the packet back.  A
successful `ConnectServer` calls `DoSend` for what is left in the queue.  A call
of `DoSend` that would pop the empty queue has no step, and a run ends before it.
-/

def step (s : SendState) : SendAction -> Option SendState
  | .SendPacket pPacket =>
      let (session, bDoSend) := s.session.SendPacket pPacket
      some { s with
        session := session,
        doSends := s.doSends + bDoSend.toNat,
        submitted := s.submitted ++ [pPacket] }
  | .SendPacketList listPacket =>
      let (session, bDoSend) := s.session.SendPacketList listPacket
      some { s with
        session := session,
        doSends := s.doSends + bDoSend.toNat,
        submitted := s.submitted ++ listPacket }
  | .DoSend =>
      match s.doSends with
      | 0 => none
      | doSends + 1 =>
          match s.session.DoSend with
          | none => none
          | some (session, pSend) =>
              some { s with
                session := session,
                doSends := doSends,
                inFlight := s.inFlight ++ [{ pSend := pSend, writing := false }] }
  | .WriteData i =>
      match s.inFlight[i]? with
      | some { pSend := pSend, writing := false } =>
          some { s with
            inFlight := s.inFlight.set i { pSend := pSend, writing := true } }
      | _ => none
  | .WriteSucceeded i =>
      match s.inFlight[i]? with
      | some { pSend := pSend, writing := true } =>
          some { s with
            inFlight := s.inFlight.eraseIdx i,
            doSends := s.doSends + 1,
            succeeded := s.succeeded ++ [pSend] }
      | _ => none
  | .WriteFailed i =>
      match s.inFlight[i]? with
      | some { pSend := pSend, writing := true } =>
          some { s with
            inFlight := s.inFlight.eraseIdx i,
            session := s.session.putBack pSend }
      | _ => none
  | .Connected => some { s with doSends := s.doSends + 1 }

/-- The writes that were started and have not completed. -/
def outstanding (s : SendState) : Nat := s.inFlight.countP (·.writing)

/-- Every call of `DoSend`: waiting, holding a packet, or with a write out. -/
def active (s : SendState) : Nat := s.doSends + s.inFlight.length

def queue (s : SendState) : List NetPacketPtr := s.session.m_listSend

def taken (s : SendState) : List NetPacketPtr := s.inFlight.map (·.pSend)

theorem outstanding_le_active (s : SendState) : outstanding s ≤ active s := by
  have hle : outstanding s ≤ s.inFlight.length := List.countP_le_length
  unfold active
  omega

/-!
# What a step can do

One constructor for each way a step goes.  A packet is submitted alone or in a
list; to the queue both are the same.
-/

inductive Step (s : SendState) : SendAction -> SendState -> Prop where
  | submit {a : SendAction} {t : SendState} (listPacket : List NetPacketPtr)
      (ha : a = .SendPacketList listPacket ∨
        exists pPacket, listPacket = [pPacket] ∧ a = .SendPacket pPacket)
      (hqueue : queue t = queue s ++ listPacket)
      (hcalls : t.doSends = s.doSends + (queue s).isEmpty.toNat)
      (hflight : t.inFlight = s.inFlight)
      (hsubmitted : t.submitted = s.submitted ++ listPacket)
      (hsucceeded : t.succeeded = s.succeeded) : Step s a t
  | doSend {t : SendState} (pSend : NetPacketPtr) (hfront : queue s = pSend :: queue t)
      (hcalls : s.doSends = t.doSends + 1)
      (hflight : t.inFlight = s.inFlight ++ [{ pSend := pSend, writing := false }])
      (hsubmitted : t.submitted = s.submitted)
      (hsucceeded : t.succeeded = s.succeeded) : Step s .DoSend t
  | writeData {t : SendState} (before after : List InFlight) (pSend : NetPacketPtr)
      (hbefore : s.inFlight = before ++ { pSend := pSend, writing := false } :: after)
      (hafter : t.inFlight = before ++ { pSend := pSend, writing := true } :: after)
      (hqueue : queue t = queue s) (hcalls : t.doSends = s.doSends)
      (hsubmitted : t.submitted = s.submitted)
      (hsucceeded : t.succeeded = s.succeeded) : Step s (.WriteData before.length) t
  | succeeded {t : SendState} (before after : List InFlight) (pSend : NetPacketPtr)
      (hbefore : s.inFlight = before ++ { pSend := pSend, writing := true } :: after)
      (hafter : t.inFlight = before ++ after)
      (hqueue : queue t = queue s) (hcalls : t.doSends = s.doSends + 1)
      (hsubmitted : t.submitted = s.submitted)
      (hsucceeded : t.succeeded = s.succeeded ++ [pSend]) :
      Step s (.WriteSucceeded before.length) t
  | failed {t : SendState} (before after : List InFlight) (pSend : NetPacketPtr)
      (hbefore : s.inFlight = before ++ { pSend := pSend, writing := true } :: after)
      (hafter : t.inFlight = before ++ after)
      (hqueue : queue t = pSend :: queue s) (hcalls : t.doSends = s.doSends)
      (hsubmitted : t.submitted = s.submitted)
      (hsucceeded : t.succeeded = s.succeeded) :
      Step s (.WriteFailed before.length) t
  | connected {t : SendState} (hqueue : queue t = queue s)
      (hcalls : t.doSends = s.doSends + 1) (hflight : t.inFlight = s.inFlight)
      (hsubmitted : t.submitted = s.submitted)
      (hsucceeded : t.succeeded = s.succeeded) : Step s .Connected t

theorem set_of_split (before after : List InFlight) (old new : InFlight) :
    (before ++ old :: after).set before.length new = before ++ new :: after := by
  rw [List.set_append_right _ _ (Nat.le_refl _), Nat.sub_self]
  rfl

theorem step_sound {s t : SendState} {a : SendAction} (hstep : step s a = some t) :
    Step s a t := by
  cases a with
  | SendPacket pPacket =>
      cases hstep
      exact Step.submit [pPacket] (Or.inr ⟨pPacket, rfl, rfl⟩) rfl rfl rfl rfl rfl
  | SendPacketList listPacket =>
      cases hstep
      exact Step.submit listPacket (Or.inl rfl) rfl rfl rfl rfl rfl
  | DoSend =>
      cases hcalls : s.doSends with
      | zero =>
          simp only [step, hcalls] at hstep
          cases hstep
      | succ doSends =>
          cases hqueue : s.session.m_listSend with
          | nil =>
              simp only [step, hcalls, TCPSession.DoSend, hqueue] at hstep
              cases hstep
          | cons pSend rest =>
              simp only [step, hcalls, TCPSession.DoSend, hqueue] at hstep
              cases hstep
              exact Step.doSend pSend hqueue hcalls rfl rfl rfl
  | WriteData i =>
      simp only [step] at hstep
      split at hstep
      · rename_i pSend hget
        cases hstep
        rcases Pending.split_at hget with ⟨before, after, hlist, _, hlength⟩
        subst hlength
        refine Step.writeData before after pSend hlist ?_ rfl rfl rfl rfl
        show s.inFlight.set before.length _ = _
        rw [hlist, set_of_split]
      · cases hstep
  | WriteSucceeded i =>
      simp only [step] at hstep
      split at hstep
      · rename_i pSend hget
        cases hstep
        rcases Pending.split_at hget with ⟨before, after, hlist, herase, hlength⟩
        subst hlength
        exact Step.succeeded before after pSend hlist herase rfl rfl rfl rfl
      · cases hstep
  | WriteFailed i =>
      simp only [step] at hstep
      split at hstep
      · rename_i pSend hget
        cases hstep
        rcases Pending.split_at hget with ⟨before, after, hlist, herase, hlength⟩
        subst hlength
        exact Step.failed before after pSend hlist herase rfl rfl rfl rfl
      · cases hstep
  | Connected =>
      cases hstep
      exact Step.connected rfl rfl rfl rfl rfl

/-!
# Two packets
-/

def firstPacket : NetPacketPtr :=
  { mPointer := 1, mPacket := NetPacket.ofMessage [65] }

def secondPacket : NetPacketPtr :=
  { mPointer := 2, mPacket := NetPacket.ofMessage [66] }

end SendQueue
end BoostNet
end GMServer
