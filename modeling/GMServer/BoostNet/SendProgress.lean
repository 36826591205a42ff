import GMServer.Library.Amortized
import GMServer.BoostNet.EmptyPop
import GMServer.BoostNet.SendOrder

/-!
# What becomes of a submitted packet

However the calls of `DoSend` and the completions of the writes interleave, a packet is in
the queue, in flight or sent, and in one of them only.  A call of `DoSend` is under way or a
write is out wherever the queue holds a packet, unless a write has failed and the connection
has not come back.
-/

namespace GMServer
namespace BoostNet
namespace SendQueue

open Transition

/-!
# No packet is lost or doubled
-/

def Kept (s : SendState) : Prop :=
  (s.succeeded ++ taken s ++ queue s).Perm s.submitted

theorem kept_step {s t : SendState} {a : SendAction} (hkept : Kept s)
    (hstep : step s a = some t) : Kept t := by
  unfold Kept taken at hkept ⊢
  rw [List.perm_iff_count] at hkept ⊢
  intro pPacket
  have hcount := hkept pPacket
  simp only [List.count_append] at hcount ⊢
  cases step_sound hstep with
  | submit listPacket ha hqueue hcalls hflight hsubmitted hsucceeded =>
      rw [hqueue, hflight, hsubmitted, hsucceeded, List.count_append, List.count_append]
      omega
  | doSend pSend hfront hcalls hflight hsubmitted hsucceeded =>
      rw [hfront, List.count_cons] at hcount
      rw [hflight, hsubmitted, hsucceeded, List.map_append, List.count_append,
        List.map_singleton, List.count_singleton]
      dsimp only
      omega
  | writeData before after pSend hbefore hafter hqueue hcalls hsubmitted hsucceeded =>
      rw [hbefore, List.map_append, List.map_cons] at hcount
      rw [hafter, hqueue, hsubmitted, hsucceeded, List.map_append, List.map_cons]
      exact hcount
  | succeeded before after pSend hbefore hafter hqueue hcalls hsubmitted hsucceeded =>
      rw [hbefore, List.map_append, List.map_cons, List.count_append, List.count_cons] at hcount
      rw [hafter, hqueue, hsubmitted, hsucceeded, List.map_append, List.count_append,
        List.count_append, List.count_singleton]
      dsimp only at hcount
      omega
  | failed before after pSend hbefore hafter hqueue hcalls hsubmitted hsucceeded =>
      rw [hbefore, List.map_append, List.map_cons, List.count_append, List.count_cons] at hcount
      rw [hafter, hqueue, hsubmitted, hsucceeded, List.map_append, List.count_append,
        List.count_cons]
      dsimp only at hcount
      omega
  | connected hqueue hcalls hflight hsubmitted hsucceeded =>
      rw [hqueue, hflight, hsubmitted, hsucceeded]
      exact hcount

theorem submitted_run {s t : SendState} {actions : List SendAction}
    (hrun : Run step s actions = some t) :
    t.submitted = s.submitted ++ submissions actions := by
  induction actions generalizing s with
  | nil =>
      cases hrun
      exact (List.append_nil _).symm
  | cons a rest ih =>
      rcases run_cons_eq_some hrun with ⟨next, hstep, hrest⟩
      rw [ih hrest, submitted_step rest hstep]

/-!
# Work

A call of `DoSend` takes one step, and a packet in the queue three more: its write is
started, completes and calls `DoSend` again.
-/

def InFlight.stepsLeft (f : InFlight) : Nat := if f.writing then 2 else 3

def sendLeft (s : SendState) : Nat :=
  s.doSends + (s.inFlight.map InFlight.stepsLeft).sum + 3 * (queue s).length

def Works (_ : SendState) : SendAction -> Bool
  | .DoSend => true
  | .WriteData _ => true
  | .WriteSucceeded _ => true
  | _ => false

def brings : SendAction -> Nat
  | .SendPacket _ => 4
  | .SendPacketList listPacket => 3 * listPacket.length + 1
  | .WriteFailed _ => 1
  | .Connected => 1
  | _ => 0

theorem work_step {s t : SendState} {a : SendAction} (hstep : step s a = some t) :
    (if Works s a then 1 else 0) + sendLeft t ≤ sendLeft s + brings a := by
  unfold sendLeft
  cases step_sound hstep with
  | submit listPacket ha hqueue hcalls hflight hsubmitted hsucceeded =>
      have hcall : (queue s).isEmpty.toNat ≤ 1 := Bool.toNat_le _
      have hbrings : Works s a = false ∧ brings a = 3 * listPacket.length + 1 := by
        rcases ha with h | ⟨pPacket, hlist, h⟩
        · rw [h]
          exact ⟨rfl, rfl⟩
        · rw [h, hlist]
          exact ⟨rfl, rfl⟩
      rw [hqueue, hcalls, hflight, hbrings.left, hbrings.right, List.length_append]
      simp only [Bool.false_eq_true, if_false]
      omega
  | doSend pSend hfront hcalls hflight hsubmitted hsucceeded =>
      rw [hfront, hflight, hcalls, List.map_append, List.sum_append, List.length_cons]
      simp [Works, brings, InFlight.stepsLeft]
      omega
  | writeData before after pSend hbefore hafter hqueue hcalls hsubmitted hsucceeded =>
      rw [hafter, hqueue, hcalls, hbefore]
      simp [Works, brings, InFlight.stepsLeft]
      omega
  | succeeded before after pSend hbefore hafter hqueue hcalls hsubmitted hsucceeded =>
      rw [hafter, hqueue, hcalls, hbefore]
      simp [Works, brings, InFlight.stepsLeft]
      omega
  | failed before after pSend hbefore hafter hqueue hcalls hsubmitted hsucceeded =>
      rw [hafter, hqueue, hcalls, hbefore]
      simp [Works, brings, InFlight.stepsLeft]
      omega
  | connected hqueue hcalls hflight hsubmitted hsucceeded =>
      rw [hqueue, hcalls, hflight]
      simp [Works, brings]
      omega

/-!
# No packet is left behind
-/

def Lively (s : SendState) : Prop := queue s = [] ∨ 0 < active s

/-- Every write that fails is followed by a connect that succeeds. -/
def Mended : List SendAction -> Prop
  | [] => True
  | .WriteFailed _ :: rest => .Connected ∈ rest ∧ Mended rest
  | _ :: rest => Mended rest

instance decidableMended : (actions : List SendAction) -> Decidable (Mended actions)
  | [] => isTrue trivial
  | .WriteFailed _ :: rest =>
      have := decidableMended rest
      inferInstanceAs (Decidable (_ ∧ Mended rest))
  | .SendPacket _ :: rest => decidableMended rest
  | .SendPacketList _ :: rest => decidableMended rest
  | .DoSend :: rest => decidableMended rest
  | .WriteData _ :: rest => decidableMended rest
  | .WriteSucceeded _ :: rest => decidableMended rest
  | .Connected :: rest => decidableMended rest

theorem mended_cons {a : SendAction} {rest : List SendAction} (h : Mended (a :: rest)) :
    Mended rest ∧ ((exists i, a = .WriteFailed i) -> .Connected ∈ rest) := by
  cases a with
  | WriteFailed i => exact ⟨h.right, fun _ => h.left⟩
  | _ =>
      refine ⟨h, ?_⟩
      intro ⟨i, hfailed⟩
      cases hfailed

theorem lively_step {s t : SendState} {a : SendAction} (hlively : Lively s)
    (hno : ¬ exists i, a = .WriteFailed i) (hstep : step s a = some t) : Lively t := by
  unfold Lively active at hlively ⊢
  cases step_sound hstep with
  | submit listPacket ha hqueue hcalls hflight hsubmitted hsucceeded =>
      right
      rw [hcalls, hflight]
      rcases hlively with hempty | hactive
      · rw [hempty, List.isEmpty_nil, Bool.toNat_true]
        omega
      · omega
  | doSend pSend hfront hcalls hflight hsubmitted hsucceeded =>
      right
      rw [hflight, List.length_append, List.length_singleton]
      omega
  | writeData before after pSend hbefore hafter hqueue hcalls hsubmitted hsucceeded =>
      right
      rw [hafter, List.length_append, List.length_cons]
      omega
  | succeeded before after pSend hbefore hafter hqueue hcalls hsubmitted hsucceeded =>
      right
      rw [hcalls]
      omega
  | failed before after pSend hbefore hafter hqueue hcalls hsubmitted hsucceeded =>
      exact absurd ⟨before.length, rfl⟩ hno
  | connected hqueue hcalls hflight hsubmitted hsucceeded =>
      right
      rw [hcalls]
      omega

theorem lively_run {s t : SendState} {actions : List SendAction}
    (hstart : Lively s ∨ .Connected ∈ actions) (hmended : Mended actions)
    (hrun : Run step s actions = some t) : Lively t := by
  induction actions generalizing s with
  | nil =>
      cases hrun
      rcases hstart with hlively | hmem
      · exact hlively
      · cases hmem
  | cons a rest ih =>
      rcases run_cons_eq_some hrun with ⟨next, hstep, hrest⟩
      rcases mended_cons hmended with ⟨hmendedRest, hfollowed⟩
      refine ih ?_ hmendedRest hrest
      by_cases hlater : .Connected ∈ rest
      · exact Or.inr hlater
      · left
        rcases hstart with hlively | hmem
        · exact lively_step hlively (fun hfailed => hlater (hfollowed hfailed)) hstep
        · rcases List.mem_cons.mp hmem with hfirst | hlast
          · subst hfirst
            cases hstep
            exact Or.inr (Nat.lt_of_lt_of_le (Nat.succ_pos _) (Nat.le_add_right _ _))
          · exact absurd hlast hlater

/-!
# The session on its own

Nothing is submitted, no write fails, and `DoSend` is called where there is a packet.
-/

def Sends (s : SendState) : SendAction -> Prop
  | .DoSend => queue s ≠ []
  | .WriteData _ => True
  | .WriteSucceeded _ => True
  | _ => False

theorem sends_works {s : SendState} {a : SendAction} (h : Sends s a) :
    Works s a = true ∧ brings a = 0 ∧ submissions [a] = [] ∧ ¬ exists i, a = .WriteFailed i := by
  cases a with
  | DoSend => exact ⟨rfl, rfl, rfl, by simp⟩
  | WriteData i => exact ⟨rfl, rfl, rfl, by simp⟩
  | WriteSucceeded i => exact ⟨rfl, rfl, rfl, by simp⟩
  | SendPacket pPacket => cases h
  | SendPacketList listPacket => cases h
  | WriteFailed i => cases h
  | Connected => cases h

theorem idle_sent {s : SendState} (hkept : Kept s) (hlively : Lively s)
    (hidle : Idle step Sends s) : s.succeeded.Perm s.submitted := by
  have hflight : s.inFlight = [] := by
    cases hlist : s.inFlight with
    | nil => rfl
    | cons f rest =>
        cases hwriting : f.writing with
        | false =>
            have hwrite := hidle (.WriteData 0) trivial
            simp only [step, hlist, List.getElem?_cons_zero] at hwrite
            rw [show f = { pSend := f.pSend, writing := false } by rw [← hwriting]] at hwrite
            cases hwrite
        | true =>
            have hwrite := hidle (.WriteSucceeded 0) trivial
            simp only [step, hlist, List.getElem?_cons_zero] at hwrite
            rw [show f = { pSend := f.pSend, writing := true } by rw [← hwriting]] at hwrite
            cases hwrite
  have hqueue : queue s = [] := by
    by_contra hne
    rcases hlively with hempty | hactive
    · exact hne hempty
    · have hcalls : s.doSends ≠ 0 := by
        unfold active at hactive
        rw [hflight, List.length_nil] at hactive
        omega
      rcases doSend_enabled hcalls hne with ⟨t, hstep⟩
      rw [hidle .DoSend hne] at hstep
      cases hstep
  unfold Kept taken at hkept
  rw [hflight, hqueue, List.map_nil, List.append_nil, List.append_nil] at hkept
  exact hkept

/-!
# Whole runs
-/

theorem every_packet_sent (m_iPackLen : uint16_t) {actions : List SendAction} {s : SendState}
    (hrun : Run step (init m_iPackLen) actions = some s) :
    (s.succeeded ++ taken s ++ queue s).Perm (submissions actions) ∧
      countSteps step Works (init m_iPackLen) actions ≤
        (actions.map brings).sum ∧
      (Mended actions ->
        (Idle step Sends s -> s.succeeded.Perm (submissions actions)) ∧
          exists more t, AllSteps step Sends s more ∧ Run step s more = some t ∧
            t.succeeded.Perm (submissions actions)) := by
  have hsubmitted : s.submitted = submissions actions := submitted_run hrun
  have hkept : Kept s := by
    have hany : AllSteps step (fun _ _ => True) (init m_iPackLen) actions :=
      allSteps_of_labels (fun _ _ _ => trivial) _
    apply run_invariant (fun _ _ _ hu _ hstep => kept_step hu hstep) _ hany hrun
    exact List.Perm.refl _
  have hwork : forall (u : SendState) a v, step u a = some v ->
      (if Works u a then 1 else 0) + sendLeft v ≤ sendLeft u + brings a :=
    fun u a v hstep => work_step hstep
  have hbound := run_work hwork hrun
  have hzero : sendLeft (init m_iPackLen) = 0 := rfl
  rw [hzero, Nat.zero_add] at hbound
  refine ⟨?_, Nat.le_trans (Nat.le_add_right _ _) hbound, ?_⟩
  · rw [← hsubmitted]
    exact hkept
  · intro hmended
    have hlively : Lively s := lively_run (Or.inl (Or.inl rfl)) hmended hrun
    rw [← hsubmitted]
    refine ⟨idle_sent hkept hlively, ?_⟩
    have hless : forall (u : SendState) a v, Sends u a -> step u a = some v ->
        sendLeft v < sendLeft u := by
      intro u a v hsends hstep
      have hless := hwork u a v hstep
      rw [if_pos (sends_works hsends).left, (sends_works hsends).right.left] at hless
      omega
    rcases run_to_idle hless s with ⟨more, t, hsends, hmore, hidle⟩
    have hkeep : forall (u : SendState) a v,
        Kept u ∧ Lively u ∧ u.submitted = s.submitted -> Sends u a -> step u a = some v ->
          Kept v ∧ Lively v ∧ v.submitted = s.submitted := by
      intro u a v ⟨hkeptU, hlivelyU, hsame⟩ hsendsU hstep
      rcases sends_works hsendsU with ⟨_, _, hnone, hno⟩
      refine ⟨kept_step hkeptU hstep, lively_step hlivelyU hno hstep, ?_⟩
      have hafter := submitted_step [] hstep
      rw [hnone] at hafter
      simpa [submissions, hsame] using hafter
    rcases run_invariant hkeep ⟨hkept, hlively, rfl⟩ hsends hmore with
      ⟨hkeptAfter, hlivelyAfter, hsame⟩
    have hsent := idle_sent hkeptAfter hlivelyAfter hidle
    rw [hsame] at hsent
    exact ⟨more, t, hsends, hmore, hsent⟩

/-- The first write fails after the second packet was taken, and the connection comes back. -/
def resumed : List SendAction :=
  [.SendPacket firstPacket, .DoSend, .WriteData 0, .SendPacket secondPacket, .DoSend,
    .WriteData 1, .WriteFailed 0, .Connected]

theorem resumed_packets_sent :
    let s := (Run step (init 0) resumed).get (by rfl)
    (s.succeeded ++ taken s ++ queue s).Perm (submissions resumed) ∧
      countSteps step Works (init 0) resumed ≤ (resumed.map brings).sum ∧
      (Mended resumed ->
        (Idle step Sends s -> s.succeeded.Perm (submissions resumed)) ∧
          exists more t, AllSteps step Sends s more ∧ Run step s more = some t ∧
            t.succeeded.Perm (submissions resumed)) :=
  every_packet_sent 0 (Option.some_get _).symm

end SendQueue
end BoostNet
end GMServer
