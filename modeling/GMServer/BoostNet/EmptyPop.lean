import GMServer.BoostNet.SendQueue

/-!
# Pops of the empty send queue

`DoSend` calls `pop_front` outside the test for an empty list.  A call of it is
entered from a sender, from the completion of a write or from a connect, and
only a sender has put a packet into the queue before.
-/

namespace GMServer
namespace BoostNet
namespace SendQueue

open Transition

/-- The step is no call of `DoSend` that finds the queue empty; such a call has no step,
but this is asked where a run comes to it. -/
def PopsQueued (s : SendState) : SendAction -> Prop
  | .DoSend => s.doSends ≠ 0 -> queue s ≠ []
  | _ => True

/-- If all calls of `DoSend` before their critical section run now, one by one, each
of them finds a packet. -/
def Drains (s : SendState) : Prop :=
  forall n, AllSteps step PopsQueued s (List.replicate n .DoSend)

/-- The call of `DoSend` that this step enters has a packet of its own in the queue. -/
def Covered (s : SendState) : SendAction -> Prop
  | .SendPacketList listPacket => queue s = [] -> listPacket ≠ []
  | .WriteSucceeded _ => s.doSends < (queue s).length
  | .Connected => s.doSends < (queue s).length
  | _ => True

instance (s : SendState) (a : SendAction) : Decidable (PopsQueued s a) := by
  unfold PopsQueued
  split <;> infer_instance

instance (s : SendState) (a : SendAction) : Decidable (Covered s a) := by
  unfold Covered
  split <;> infer_instance

/-!
# Calls of DoSend and queued packets

The queue is safe as long as it holds a packet for each call of `DoSend`.
-/

theorem popsQueued_of_le {s : SendState} (hle : s.doSends ≤ (queue s).length)
    (a : SendAction) : PopsQueued s a := by
  cases a with
  | DoSend =>
      intro hcalls hempty
      rw [hempty] at hle
      exact hcalls (Nat.le_zero.mp hle)
  | SendPacket pPacket => trivial
  | SendPacketList listPacket => trivial
  | WriteData i => trivial
  | WriteSucceeded i => trivial
  | WriteFailed i => trivial
  | Connected => trivial

theorem drains_of_le {s : SendState} (hle : s.doSends ≤ (queue s).length) : Drains s := by
  intro n
  induction n generalizing s with
  | zero => trivial
  | succ n ih =>
      constructor
      · exact popsQueued_of_le hle .DoSend
      · intro t hstep
        apply ih
        cases step_sound hstep with
        | submit listPacket ha => rcases ha with h | ⟨pPacket, _, h⟩ <;> cases h
        | doSend pSend hfront hcalls =>
            rw [hfront, hcalls, List.length_cons] at hle
            exact Nat.le_of_succ_le_succ hle

theorem doSend_enabled {s : SendState} (hcalls : s.doSends ≠ 0) (hqueue : queue s ≠ []) :
    exists t, step s .DoSend = some t := by
  rcases Nat.exists_eq_succ_of_ne_zero hcalls with ⟨calls, hEq⟩
  rcases List.exists_cons_of_ne_nil hqueue with ⟨pSend, rest, hlist⟩
  have hfront : s.session.m_listSend = pSend :: rest := hlist
  simp only [step, hEq, TCPSession.DoSend, hfront]
  exact ⟨_, rfl⟩

theorem le_of_drains {s : SendState} (hdrains : Drains s) :
    s.doSends ≤ (queue s).length := by
  -- by induction on the calls of DoSend that are under way
  induction hcount : s.doSends generalizing s with
  | zero => exact Nat.zero_le _
  | succ calls ih =>
      have hne : s.doSends ≠ 0 := by
        rw [hcount]
        exact Nat.succ_ne_zero calls
      have hqueue : queue s ≠ [] := (hdrains 1).left hne
      rcases doSend_enabled hne hqueue with ⟨t, hstep⟩
      have hdrainsNext : Drains t := fun n => (hdrains (n + 1)).right t hstep
      cases step_sound hstep with
      | submit listPacket ha => rcases ha with h | ⟨pPacket, _, h⟩ <;> cases h
      | doSend pSend hfront hcalls =>
          rw [hcount] at hcalls
          rw [hfront]
          exact Nat.succ_le_succ (ih hdrainsNext (Nat.succ.inj hcalls).symm)

theorem drains_iff (s : SendState) : Drains s <-> s.doSends ≤ (queue s).length :=
  ⟨le_of_drains, drains_of_le⟩

/-!
# One step

A step keeps a packet for each call exactly if it is covered.
-/

theorem covered_step_iff {s t : SendState} {a : SendAction}
    (hle : s.doSends ≤ (queue s).length) (hstep : step s a = some t) :
    t.doSends ≤ (queue t).length <-> Covered s a := by
  cases step_sound hstep with
  | submit listPacket ha hqueue hcalls =>
      rw [hqueue, hcalls, List.length_append]
      cases hempty : queue s with
      | nil =>
          have hnone : s.doSends = 0 := by
            rw [hempty] at hle
            exact Nat.le_zero.mp hle
          rw [hnone]
          rcases ha with h | ⟨pPacket, hlist, h⟩
          · subst h
            simp [Covered, hempty, Nat.one_le_iff_ne_zero]
          · subst h
            simp [Covered, hlist]
      | cons pSend rest =>
          rw [hempty] at hle
          refine iff_of_true (Nat.le_trans hle (Nat.le_add_right _ _)) ?_
          rcases ha with h | ⟨pPacket, _, h⟩
          · subst h
            intro hnil
            rw [hempty] at hnil
            cases hnil
          · subst h
            trivial
  | doSend pSend hfront hcalls =>
      rw [hfront, hcalls, List.length_cons] at hle
      exact iff_of_true (Nat.le_of_succ_le_succ hle) trivial
  | writeData before after pSend _ _ hqueue hcalls =>
      rw [hqueue, hcalls]
      exact iff_of_true hle trivial
  | succeeded before after pSend _ _ hqueue hcalls =>
      rw [hqueue, hcalls]
      exact Iff.rfl
  | failed before after pSend _ _ hqueue hcalls =>
      rw [hqueue, hcalls]
      exact iff_of_true (Nat.le_succ_of_le hle) trivial
  | connected hqueue hcalls =>
      rw [hqueue, hcalls]
      exact Iff.rfl

/-!
# Whole runs
-/

/-- In a covered run no call of `DoSend` pops the empty queue, and neither would the calls
that are under way at any point of it.  No other run has the second property. -/
theorem popsQueued_iff (m_iPackLen : uint16_t) (actions : List SendAction) :
    (AllSteps step Covered (init m_iPackLen) actions ->
      AllSteps step PopsQueued (init m_iPackLen) actions) ∧
      forall t, Run step (init m_iPackLen) actions = some t ->
        (AllStates step Drains (init m_iPackLen) actions <->
          AllSteps step Covered (init m_iPackLen) actions) := by
  have hzero : (init m_iPackLen).doSends ≤ (queue (init m_iPackLen)).length := Nat.zero_le _
  constructor
  · intro hcovered
    exact allSteps_of_invariant
      (fun s a u hle hcover hstep => (covered_step_iff hle hstep).mpr hcover)
      (fun s a hle _ => popsQueued_of_le hle a) hzero hcovered
  · intro t hrun
    have hkeep : forall s a u, Drains s -> True -> Covered s a -> step s a = some u ->
        Drains u := by
      intro s a u hdrains _ hcovered hstep
      rw [drains_iff] at hdrains ⊢
      exact (covered_step_iff hdrains hstep).mpr hcovered
    have hbreak : forall s a u, Drains s -> True -> ¬ Covered s a -> step s a = some u ->
        ¬ Drains u := by
      intro s a u hdrains _ hnot hstep
      rw [drains_iff] at hdrains ⊢
      exact fun hle => hnot ((covered_step_iff hdrains hstep).mp hle)
    exact allStates_iff_allSteps hkeep (fun s hdrains => hdrains) hbreak
      (drains_of_le hzero) (fun _ _ => trivial) hrun

/-!
# A packet and its completion

The call of `DoSend` that the completion of the only write enters has nothing to send.
-/

def lastWrite : List SendAction :=
  [.SendPacket firstPacket, .DoSend, .WriteData 0, .WriteSucceeded 0]

theorem lastWrite_pops_empty :
    (Run step (init 0) lastWrite).isSome = true ∧
      ¬ AllSteps step PopsQueued (init 0) (lastWrite ++ [.DoSend]) := by
  decide

/-- The second of two packets is put back, and a connect sends it again. -/
def failedWrite : List SendAction :=
  [.SendPacketList [firstPacket, secondPacket], .DoSend, .WriteData 0, .WriteSucceeded 0,
    .DoSend, .WriteData 0, .WriteFailed 0, .Connected, .DoSend]

theorem failedWrite_pops_queued :
    exists t, Run step (init 0) failedWrite = some t ∧
      AllSteps step PopsQueued (init 0) failedWrite := by
  have hrun : (Run step (init 0) failedWrite).isSome = true := by
    decide
  rcases Option.isSome_iff_exists.mp hrun with ⟨t, ht⟩
  exact ⟨t, ht, (popsQueued_iff 0 failedWrite).left (by decide)⟩

end SendQueue
end BoostNet
end GMServer
