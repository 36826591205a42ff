import GMServer.LibActor.MailboxDelivery

/-!
# Handlers that throw

`Process` catches `std::exception` around its whole loop.  The message whose
handler threw has not been removed from `m_listHandle` then, and `m_nUnHanle`
still counts it, when the lock is released.  `IsHandling` stays true and `Pop`
takes the mailbox for busy from then on.
-/

namespace GMServer
namespace LibActor
namespace MailboxSystem

open Transition

variable {Worker Box Actor Message : Type}

/-- Between two calls of `Process` nothing is left over from the last one. -/
structure Unpoisoned (b : Box) (s : MailboxState Worker Box Actor Message) :
    Prop where
  drained : s.m_ActorMutex b = none ->
    (s.box b).m_listHandle = [] ∧ (s.box b).IsHandling = false
  ordered : s.accepted b =
    s.handled b ++ (s.box b).m_listHandle ++ (s.box b).m_listRecive

theorem unpoisoned_of_deliveryInv {s : MailboxState Worker Box Actor Message}
    {b : Box} (hinv : DeliveryInv b s) : Unpoisoned b s :=
  { drained := hinv.right.idle, ordered := hinv.right.fifo }

variable [DecidableEq Worker] [DecidableEq Box]

theorem throws_leaves {s t : MailboxState Worker Box Actor Message} {b : Box}
    {a : MailboxAction Worker Box Actor Message} (hstep : Step s a t)
    (hthrows : Throws a) (hacts : actsOn s a = some b) :
    t.m_ActorMutex b = none ∧ t.box b = s.box b := by
  cases hstep with
  | onBeginThrows hpc hactor =>
      rename_i w c
      have hc : c = b := eq_of_acts hpc rfl hacts
      subst hc
      exact ⟨Function.update_self .., rfl⟩
  | handleThrows hpc hlist hactor =>
      rename_i w c msg rest
      have hc : c = b := eq_of_acts hpc rfl hacts
      subst hc
      exact ⟨Function.update_self .., rfl⟩
  | _ => cases hthrows

theorem harmful_throw_poisons {s t : MailboxState Worker Box Actor Message}
    {b : Box} {a : MailboxAction Worker Box Actor Message}
    (hharm : ¬ HarmlessThrow b s a) (hstep : step s a = some t) :
    ¬ Unpoisoned b t := by
  intro hclean
  apply hharm
  intro hthrows hacts
  rcases throws_leaves (step_sound hstep) hthrows hacts with ⟨hfree, hbox⟩
  have hempty := (hclean.drained hfree).left
  rw [hbox] at hempty
  exact hempty

/-!
In a run that keeps the actor, nothing is ever left over exactly when no
handler throws over messages that are still in `m_listHandle`.
-/

theorem unpoisoned_iff_harmless {m_pScheduler : Nat}
    {actors : Box -> Option Actor} {b : Box}
    {actions : List (MailboxAction Worker Box Actor Message)}
    {s : MailboxState Worker Box Actor Message}
    (hkeep : forall a, a ∈ actions -> a ≠ .UnRegisterActor b)
    (hrun : Run step (init m_pScheduler actors) actions = some s) :
    AllStates step (Unpoisoned b) (init m_pScheduler actors) actions <->
      AllSteps step (HarmlessThrow b) (init m_pScheduler actors) actions := by
  refine allStates_iff_allSteps ?_ ?_ ?_
    (deliveryInv_init m_pScheduler actors b) hkeep hrun
  · intro u a v hinv hallowed hharmless hstep
    exact deliveryInv_step hinv hallowed hharmless hstep
  · intro u hinv
    exact unpoisoned_of_deliveryInv hinv
  · intro u a v _ _ hharm hstep
    exact harmful_throw_poisons hharm hstep

/-- One message, whose handler throws. -/
def oneThrow : List (MailboxAction Nat Nat Nat Nat) :=
  [.PushMsg 0 (some 10), .Pop 0 (fun _ _ => false), .Lock 0, .Swap 0,
    .OnBegin 0 false, .StoreUnHanle 0, .Handle 0 true]

theorem unpoisoned_iff_harmless_oneThrow :
    AllStates step (Unpoisoned 0) (init 0 (fun _ => some 7)) oneThrow <->
      AllSteps step (HarmlessThrow 0) (init 0 (fun _ => some 7)) oneThrow :=
  unpoisoned_iff_harmless (s := (Run step (init 0 (fun _ => some 7)) oneThrow).get (by rfl))
    (by simp [oneThrow]) (Option.some_get _).symm

theorem oneThrow_poisons :
    ¬ (forall (actions : List (MailboxAction Nat Nat Nat Nat))
        (s : MailboxState Nat Nat Nat Nat),
      (forall a, a ∈ actions -> a ≠ .UnRegisterActor 0) ->
      Run step (init 0 (fun _ => some 7)) actions = some s ->
      Unpoisoned 0 s) := by
  intro hsafe
  have hclean := hsafe oneThrow
    ((Run step (init 0 (fun _ => some 7)) oneThrow).get (by rfl))
    (by simp [oneThrow]) (Option.some_get _).symm
  have hempty := (hclean.drained rfl).left
  cases hempty

end MailboxSystem
end LibActor
end GMServer
