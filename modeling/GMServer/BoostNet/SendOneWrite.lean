import GMServer.BoostNet.SendQueue

/-!
# One write at a time

`SendPacket` starts sending when it finds the queue empty, but `DoSend` has
emptied the queue as soon as the last packet is being written.  A successful
connect starts sending in any case.
-/

namespace GMServer
namespace BoostNet
namespace SendQueue

open Transition

abbrev OneWrite (s : SendState) : Prop := outstanding s ≤ 1

/-!
# The condition

Whoever starts a new round of sending does so while no other round is going on:
no call of `DoSend` is under way and no write is outstanding.
-/

def StartsSending (s : SendState) : SendAction -> Prop
  | .SendPacket _ => queue s = []
  | .SendPacketList _ => queue s = []
  | .Connected => True
  | _ => False

def Quiet (s : SendState) (a : SendAction) : Prop :=
  StartsSending s a -> s.doSends = 0 ∧ s.inFlight = []

instance (s : SendState) : (a : SendAction) -> Decidable (StartsSending s a)
  | .SendPacket _ | .SendPacketList _ => inferInstanceAs (Decidable (queue s = []))
  | .Connected => isTrue trivial
  | .DoSend | .WriteData _ | .WriteSucceeded _ | .WriteFailed _ =>
      isFalse (fun h => h)

instance (s : SendState) (a : SendAction) : Decidable (Quiet s a) :=
  inferInstanceAs (Decidable (_ -> _))

/-!
# A quiet run has one round
-/

theorem startsSending_submit {s : SendState} {a : SendAction}
    {listPacket : List NetPacketPtr}
    (ha : a = .SendPacketList listPacket ∨
      exists pPacket, listPacket = [pPacket] ∧ a = .SendPacket pPacket) :
    StartsSending s a <-> queue s = [] := by
  rcases ha with h | ⟨pPacket, _, h⟩
  · rw [h]
    exact Iff.rfl
  · rw [h]
    exact Iff.rfl

/-- Only the start of a round adds to the calls under way. -/
theorem active_step {s t : SendState} {a : SendAction} (hstep : Step s a t) :
    active t ≤ active s ∨ (StartsSending s a ∧ active t = active s + 1) := by
  unfold active
  cases hstep with
  | submit listPacket ha hqueue hcalls hflight hsubmitted hsucceeded =>
      cases hlist : queue s with
      | nil =>
          rw [hlist] at hcalls
          have hone : t.doSends = s.doSends + 1 := hcalls
          have hlength : t.inFlight.length = s.inFlight.length := by rw [hflight]
          exact Or.inr ⟨(startsSending_submit ha).mpr hlist, by omega⟩
      | cons pSend rest =>
          rw [hlist] at hcalls
          have hsame : t.doSends = s.doSends := hcalls
          have hlength : t.inFlight.length = s.inFlight.length := by rw [hflight]
          exact Or.inl (by omega)
  | doSend pSend hfront hcalls hflight hsubmitted hsucceeded =>
      have hlength : t.inFlight.length = s.inFlight.length + 1 := by
        rw [hflight, List.length_append]
        rfl
      exact Or.inl (by omega)
  | writeData before after pSend hbefore hafter hqueue hcalls hsubmitted hsucceeded =>
      apply Or.inl
      rw [hbefore, hafter, hcalls, List.length_append, List.length_append]
      exact Nat.le_refl _
  | succeeded before after pSend hbefore hafter hqueue hcalls hsubmitted hsucceeded =>
      apply Or.inl
      rw [hbefore, hafter, hcalls, List.length_append, List.length_append,
        List.length_cons]
      omega
  | failed before after pSend hbefore hafter hqueue hcalls hsubmitted hsucceeded =>
      apply Or.inl
      rw [hbefore, hafter, hcalls, List.length_append, List.length_append,
        List.length_cons]
      omega
  | connected hqueue hcalls hflight hsubmitted hsucceeded =>
      exact Or.inr ⟨trivial, by rw [hcalls, hflight]; omega⟩

theorem active_quiet_step {s : SendState} {a : SendAction} {t : SendState}
    (hactive : active s ≤ 1) (hquiet : Quiet s a) (hstep : step s a = some t) :
    active t ≤ 1 := by
  rcases active_step (step_sound hstep) with hle | ⟨hstarts, hmore⟩
  · exact Nat.le_trans hle hactive
  · rcases hquiet hstarts with ⟨hcalls, hflight⟩
    unfold active at hmore ⊢
    rw [hcalls, hflight] at hmore
    have hzero : ([] : List InFlight).length = 0 := rfl
    omega

theorem active_of_not_quiet {s : SendState} {a : SendAction} {t : SendState}
    (hnot : ¬ Quiet s a) (hstep : step s a = some t) : 2 ≤ active t := by
  have hstarts : StartsSending s a := by
    by_contra hno
    exact hnot (fun h => absurd h hno)
  have hbusy : 1 ≤ active s := by
    by_contra hidle
    unfold active at hidle
    apply hnot
    intro _
    have hlength : s.inFlight.length = 0 := by omega
    exact ⟨by omega, List.eq_nil_of_length_eq_zero hlength⟩
  cases hs : step_sound hstep with
  | submit listPacket ha hqueue hcalls hflight hsubmitted hsucceeded =>
      have hlist : queue s = [] := (startsSending_submit ha).mp hstarts
      rw [hlist] at hcalls
      have hone : t.doSends = s.doSends + 1 := hcalls
      unfold active at hbusy ⊢
      rw [hone, hflight]
      omega
  | connected hqueue hcalls hflight hsubmitted hsucceeded =>
      unfold active at hbusy ⊢
      rw [hcalls, hflight]
      omega
  | doSend => cases hstarts
  | writeData => cases hstarts
  | succeeded => cases hstarts
  | failed => cases hstarts

theorem oneWrite_of_active {s : SendState} (h : active s ≤ 1) : OneWrite s :=
  Nat.le_trans (outstanding_le_active s) h

/-!
# Two rounds become two writes

With two calls under way it takes two more packets and no completion at all to
have two writes outstanding.
-/

theorem doSend_takes {s : SendState} {calls : Nat} {pSend : NetPacketPtr}
    {rest : List NetPacketPtr} (hcalls : s.doSends = calls + 1)
    (hqueue : queue s = pSend :: rest) :
    exists t, step s .DoSend = some t ∧ t.doSends = calls ∧ queue t = rest ∧
      t.inFlight = s.inFlight ++ [{ pSend := pSend, writing := false }] := by
  have hlist : s.session.m_listSend = pSend :: rest := hqueue
  have hstep : step s .DoSend = some { s with
      session := { s.session with m_listSend := rest },
      doSends := calls,
      inFlight := s.inFlight ++ [{ pSend := pSend, writing := false }] } := by
    simp only [step, hcalls, TCPSession.DoSend, hlist]
  exact ⟨_, hstep, rfl, rfl, rfl⟩

theorem writeData_starts {s : SendState} {before after : List InFlight} {f : InFlight}
    (hflight : s.inFlight = before ++ f :: after) :
    exists more t, Run step s more = some t ∧
      t.inFlight = before ++ { f with writing := true } :: after := by
  cases hwriting : f.writing with
  | true =>
      refine ⟨[], s, rfl, ?_⟩
      rw [hflight, ← hwriting]
  | false =>
      have hget : s.inFlight[before.length]? =
          some { pSend := f.pSend, writing := false } := by
        rw [hflight, Pending.getElem?_of_split, ← hwriting]
      have hstep : step s (.WriteData before.length) = some { s with
          inFlight := s.inFlight.set before.length
            { pSend := f.pSend, writing := true } } := by
        simp only [step, hget]
      refine ⟨[.WriteData before.length], _, run_cons_of_step [] hstep, ?_⟩
      show s.inFlight.set before.length _ = _
      rw [hflight, set_of_split]

theorem two_writes_of_inFlight {s : SendState} (h : 2 ≤ s.inFlight.length) :
    exists more t, Run step s more = some t ∧ ¬ OneWrite t := by
  match hflight : s.inFlight, h with
  | first :: second :: rest, _ =>
      have hfirst : s.inFlight = [] ++ first :: (second :: rest) := hflight
      rcases writeData_starts hfirst with ⟨more, t, hrun, ht⟩
      have hsecond : t.inFlight = [{ first with writing := true }] ++ second :: rest := ht
      rcases writeData_starts hsecond with ⟨more', u, hrun', hu⟩
      refine ⟨more ++ more', u, ?_, ?_⟩
      · rw [run_append more' hrun]
        exact hrun'
      · unfold OneWrite outstanding
        rw [hu]
        simp

theorem two_writes_of_calls (wanted : Nat) {s : SendState}
    (hwanted : 2 ≤ s.inFlight.length + wanted) (hcalls : wanted ≤ s.doSends)
    (hqueue : wanted ≤ (queue s).length) :
    exists more t, Run step s more = some t ∧ ¬ OneWrite t := by
  induction wanted generalizing s with
  | zero =>
      exact two_writes_of_inFlight hwanted
  | succ wanted ih =>
      cases hdo : s.doSends with
      | zero => omega
      | succ calls =>
          cases hlist : queue s with
          | nil =>
              rw [hlist] at hqueue
              cases hqueue
          | cons pSend rest =>
              rcases doSend_takes hdo hlist with ⟨t, hstep, htcalls, htqueue, htflight⟩
              rw [hlist, List.length_cons] at hqueue
              have hlength : t.inFlight.length = s.inFlight.length + 1 := by
                rw [htflight, List.length_append]
                rfl
              rcases ih (s := t) (by omega) (by omega) (by rw [htqueue]; omega) with
                ⟨more, u, hrun, hu⟩
              exact ⟨.DoSend :: more, u, by rw [run_cons_of_step more hstep]; exact hrun, hu⟩

theorem two_writes_of_active {s : SendState} (pPacket : NetPacketPtr)
    (h : 2 ≤ active s) :
    exists more t, Run step s more = some t ∧ ¬ OneWrite t := by
  have hstep : exists t, step s (.SendPacketList [pPacket, pPacket]) = some t ∧
      queue t = queue s ++ [pPacket, pPacket] ∧ s.doSends ≤ t.doSends ∧
      t.inFlight = s.inFlight :=
    ⟨_, rfl, rfl, Nat.le_add_right _ _, rfl⟩
  rcases hstep with ⟨t, hstep, hqueue, hcalls, hflight⟩
  have hlength : 2 ≤ (queue t).length := by
    rw [hqueue, List.length_append]
    exact Nat.le_add_left _ _
  have hmore : exists more u, Run step t more = some u ∧ ¬ OneWrite u := by
    unfold active at h
    apply two_writes_of_calls (2 - s.inFlight.length)
    · rw [hflight]
      omega
    · omega
    · omega
  rcases hmore with ⟨more, u, hrun, hu⟩
  exact ⟨.SendPacketList [pPacket, pPacket] :: more, u,
    by rw [run_cons_of_step more hstep]; exact hrun, hu⟩

/-!
# Whole runs
-/

/-- A quiet run has at most one write outstanding in every state, and from any
state a step that is not quiet can be continued to two. -/
theorem quiet_run_one_write (m_iPackLen : uint16_t) {actions : List SendAction}
    (hquiet : AllSteps step Quiet (init m_iPackLen) actions) :
    AllStates step OneWrite (init m_iPackLen) actions ∧
      forall s a t, ¬ Quiet s a -> step s a = some t ->
        exists more u, Run step t more = some u ∧ ¬ OneWrite u := by
  have hstart : active (init m_iPackLen) ≤ 1 := Nat.zero_le 1
  constructor
  · exact allStates_of_invariant (fun s a t => active_quiet_step)
      (fun s => oneWrite_of_active) hstart hquiet
  · intro s a t hnot hstep
    exact two_writes_of_active { mPointer := 0, mPacket := NetPacket.ofMessage [] }
      (active_of_not_quiet hnot hstep)

def bothInOneList : List SendAction :=
  [.SendPacketList [firstPacket, secondPacket], .DoSend, .WriteData 0,
    .WriteSucceeded 0, .DoSend, .WriteData 0]

theorem quiet_run_one_write_bothInOneList :
    AllStates step OneWrite (init 0) bothInOneList :=
  (quiet_run_one_write 0 (by decide)).left

/-- The second packet finds the queue empty while the first is being written. -/
def twoSends : List SendAction :=
  [.SendPacket firstPacket, .DoSend, .WriteData 0,
    .SendPacket secondPacket, .DoSend, .WriteData 1]

theorem twoSends_two_writes :
    exists s, Run step (init 0) twoSends = some s ∧ ¬ OneWrite s :=
  ⟨_, rfl, by decide⟩

end SendQueue
end BoostNet
end GMServer
