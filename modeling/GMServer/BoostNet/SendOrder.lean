import GMServer.BoostNet.SendQueue

/-!
# The order of what is sent

The packets that were written, those in flight and the queue make up what was
submitted, in that order, as long as completions come in the right places.
-/

namespace GMServer
namespace BoostNet
namespace SendQueue

open Transition

abbrev InOrder (s : SendState) : Prop :=
  s.succeeded ++ taken s ++ queue s = s.submitted

/-!
# The condition

A write completes without an error only when its packet is the oldest in flight,
and with an error only when it is the newest: the packet put back then stands
before everything that was taken later.
-/

def EndsInTurn (s : SendState) : SendAction -> Prop
  | .WriteSucceeded i => i = 0
  | .WriteFailed i => i + 1 = s.inFlight.length
  | _ => True

instance (s : SendState) : (a : SendAction) -> Decidable (EndsInTurn s a)
  | .WriteSucceeded i => inferInstanceAs (Decidable (i = 0))
  | .WriteFailed i => inferInstanceAs (Decidable (i + 1 = s.inFlight.length))
  | .SendPacket _ | .SendPacketList _ | .DoSend | .WriteData _ | .Connected =>
      isTrue trivial

def submissions : List SendAction -> List NetPacketPtr
  | [] => []
  | .SendPacket pPacket :: rest => pPacket :: submissions rest
  | .SendPacketList listPacket :: rest => listPacket ++ submissions rest
  | _ :: rest => submissions rest

/-!
# Steps in turn keep the order
-/

theorem inOrder_step {s t : SendState} {a : SendAction} (hin : InOrder s)
    (hturn : EndsInTurn s a) (hstep : step s a = some t) : InOrder t := by
  unfold InOrder taken at hin ⊢
  cases step_sound hstep with
  | submit listPacket ha hqueue hcalls hflight hsubmitted hsucceeded =>
      rw [hqueue, hflight, hsubmitted, hsucceeded, ← hin, List.append_assoc _ (queue s)]
  | doSend pSend hfront hcalls hflight hsubmitted hsucceeded =>
      rw [hflight, hsubmitted, hsucceeded, ← hin, hfront]
      simp
  | writeData before after pSend hbefore hafter hqueue hcalls hsubmitted hsucceeded =>
      rw [hafter, hqueue, hsubmitted, hsucceeded, ← hin, hbefore]
      simp
  | succeeded before after pSend hbefore hafter hqueue hcalls hsubmitted hsucceeded =>
      -- the write that succeeded is the oldest
      have hnil : before = [] := List.eq_nil_of_length_eq_zero hturn
      rw [hafter, hqueue, hsubmitted, hsucceeded, ← hin, hbefore, hnil]
      simp
  | failed before after pSend hbefore hafter hqueue hcalls hsubmitted hsucceeded =>
      -- the write that failed is the newest
      have hnil : after = [] := by
        have hlength : before.length + 1 = s.inFlight.length := hturn
        rw [hbefore, List.length_append, List.length_cons] at hlength
        exact List.eq_nil_of_length_eq_zero (by omega)
      rw [hafter, hqueue, hsubmitted, hsucceeded, ← hin, hbefore, hnil]
      simp
  | connected hqueue hcalls hflight hsubmitted hsucceeded =>
      rw [hqueue, hflight, hsubmitted, hsucceeded, hin]

theorem submitted_step {s t : SendState} {a : SendAction} (rest : List SendAction)
    (hstep : step s a = some t) :
    t.submitted ++ submissions rest = s.submitted ++ submissions (a :: rest) := by
  cases step_sound hstep with
  | submit listPacket ha hqueue hcalls hflight hsubmitted hsucceeded =>
      have hsubmissions : submissions (a :: rest) = listPacket ++ submissions rest := by
        rcases ha with h | ⟨pPacket, hlist, h⟩
        · rw [h]
          rfl
        · rw [h, hlist]
          rfl
      rw [hsubmitted, hsubmissions, List.append_assoc]
  | doSend pSend hfront hcalls hflight hsubmitted hsucceeded =>
      rw [hsubmitted]
      rfl
  | writeData before after pSend hbefore hafter hqueue hcalls hsubmitted hsucceeded =>
      rw [hsubmitted]
      rfl
  | succeeded before after pSend hbefore hafter hqueue hcalls hsubmitted hsucceeded =>
      rw [hsubmitted]
      rfl
  | failed before after pSend hbefore hafter hqueue hcalls hsubmitted hsucceeded =>
      rw [hsubmitted]
      rfl
  | connected hqueue hcalls hflight hsubmitted hsucceeded =>
      rw [hsubmitted]
      rfl

/-!
# A step out of turn breaks it

Moving one packet over others that stand before or behind it changes a sequence
without repetitions.
-/

theorem move_changes {p : NetPacketPtr} {passed rest : List NetPacketPtr}
    (hpassed : passed ≠ []) (hnodup : (p :: (passed ++ rest)).Nodup) :
    p :: (passed ++ rest) ≠ passed ++ p :: rest := by
  intro hEq
  cases passed with
  | nil => exact hpassed rfl
  | cons q passed =>
      have hhead : p = q := (List.cons.inj hEq).left
      apply (List.nodup_cons.mp hnodup).left
      rw [hhead]
      exact List.mem_cons_self

theorem not_inOrder_of_not_turn {s t : SendState} {a : SendAction} (hin : InOrder s)
    (hnodup : s.submitted.Nodup) (hnot : ¬ EndsInTurn s a) (hstep : step s a = some t) :
    ¬ InOrder t := by
  intro hout
  unfold InOrder taken at hin hout
  cases step_sound hstep with
  | succeeded before after pSend hbefore hafter hqueue hcalls hsubmitted hsucceeded =>
      have hpassed : before.map (·.pSend) ≠ [] := by
        intro hnil
        have hlength : before.length = 0 := by simpa using congrArg List.length hnil
        exact hnot hlength
      rw [hafter, hqueue, hsubmitted, hsucceeded, ← hin, hbefore] at hout
      rw [← hin, hbefore] at hnodup
      simp only [List.map_append, List.map_cons, List.append_assoc, List.cons_append,
        List.nil_append] at hout hnodup
      have hmoved := List.append_cancel_left hout
      refine move_changes hpassed ?_ hmoved
      rw [hmoved]
      exact (List.nodup_append.mp hnodup).right.left
  | failed before after pSend hbefore hafter hqueue hcalls hsubmitted hsucceeded =>
      have hpassed : after.map (·.pSend) ≠ [] := by
        intro hnil
        apply hnot
        have hlength : after.length = 0 := by simpa using congrArg List.length hnil
        show before.length + 1 = s.inFlight.length
        rw [hbefore, List.length_append, List.length_cons]
        omega
      rw [hafter, hqueue, hsubmitted, hsucceeded, ← hin, hbefore] at hout
      rw [← hin, hbefore] at hnodup
      simp only [List.map_append, List.map_cons, List.append_assoc,
        List.cons_append] at hout hnodup
      have hmoved := List.append_cancel_left (List.append_cancel_left hout)
      have htail := (List.nodup_append.mp (List.nodup_append.mp hnodup).right.left).right.left
      exact move_changes hpassed htail hmoved.symm
  | submit listPacket ha hqueue hcalls hflight hsubmitted hsucceeded =>
      apply hnot
      rcases ha with h | ⟨pPacket, _, h⟩
      · rw [h]
        trivial
      · rw [h]
        trivial
  | doSend => exact hnot trivial
  | writeData => exact hnot trivial
  | connected => exact hnot trivial

/-!
# Whole runs
-/

/-- Completions in turn keep the order, and when the packets submitted are
pairwise different nothing else does. -/
theorem inOrder_of_turns (m_iPackLen : uint16_t) {actions : List SendAction}
    {s : SendState} (hrun : Run step (init m_iPackLen) actions = some s) :
    (AllSteps step EndsInTurn (init m_iPackLen) actions ->
      AllStates step InOrder (init m_iPackLen) actions) ∧
    ((submissions actions).Nodup ->
      (AllStates step InOrder (init m_iPackLen) actions <->
        AllSteps step EndsInTurn (init m_iPackLen) actions)) := by
  have hstart : InOrder (init m_iPackLen) := rfl
  constructor
  · intro hturns
    exact allStates_of_invariant (fun s a t => inOrder_step) (fun s h => h) hstart hturns
  · intro hdistinct
    let Inv : SendState -> List SendAction -> Prop := fun s rest =>
      InOrder s ∧ (s.submitted ++ submissions rest).Nodup
    have hkeep : forall s a rest t, Inv s (a :: rest) -> EndsInTurn s a ->
        step s a = some t -> Inv t rest := by
      intro s a rest t hinv hturn hstep
      constructor
      · exact inOrder_step hinv.left hturn hstep
      · rw [submitted_step rest hstep]
        exact hinv.right
    have hbreak : forall s a rest t, Inv s (a :: rest) -> ¬ EndsInTurn s a ->
        step s a = some t -> ¬ InOrder t := by
      intro s a rest t hinv hnot hstep
      exact not_inOrder_of_not_turn hinv.left
        (List.nodup_append.mp hinv.right).left hnot hstep
    exact allStates_iff_allSteps_ahead hkeep (fun s rest hinv => hinv.left) hbreak
      ⟨hstart, hdistinct⟩ hrun

/-- The first write fails, and after the reconnect both packets are written. -/
def retried : List SendAction :=
  [.SendPacketList [firstPacket, secondPacket], .DoSend, .WriteData 0,
    .WriteFailed 0, .Connected, .DoSend, .WriteData 0, .WriteSucceeded 0,
    .DoSend, .WriteData 0]

theorem inOrder_of_turns_retried : AllStates step InOrder (init 0) retried := by
  have hrun : exists s, Run step (init 0) retried = some s := ⟨_, rfl⟩
  rcases hrun with ⟨s, hrun⟩
  exact (inOrder_of_turns 0 hrun).left (by decide)

/-- Two packets are in flight when the link drops, and the older one fails first. -/
def bothFail : List SendAction :=
  [.SendPacket firstPacket, .DoSend, .WriteData 0,
    .SendPacket secondPacket, .DoSend, .WriteData 1,
    .WriteFailed 0, .WriteFailed 0]

theorem bothFail_out_of_order :
    exists s, Run step (init 0) bothFail = some s ∧ ¬ InOrder s :=
  ⟨_, rfl, by decide⟩

end SendQueue
end BoostNet
end GMServer
