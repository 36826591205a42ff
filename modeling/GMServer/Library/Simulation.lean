import GMServer.Library.Transition

/-!
# Forward simulation

A relation between the states of two partial transition systems that every step of the
first one keeps by a step of the second one.  Runs of the first one are then runs of the
second one between related states.
-/

namespace GMServer
namespace Transition

variable {state label abstractState abstractLabel : Type}

def Simulates (step : state -> label -> Option state)
    (abstractStep : abstractState -> abstractLabel -> Option abstractState)
    (related : state -> abstractState -> Prop) : Prop :=
  forall {s t : state} {x : abstractState} {a : label}, related s x -> step s a = some t ->
    exists b y, abstractStep x b = some y ∧ related t y

theorem Simulates.run {step : state -> label -> Option state}
    {abstractStep : abstractState -> abstractLabel -> Option abstractState}
    {related : state -> abstractState -> Prop} (hsim : Simulates step abstractStep related)
    {s t : state} {x : abstractState} {labels : List label} (h : related s x)
    (hrun : Run step s labels = some t) :
    exists abstractLabels y, Run abstractStep x abstractLabels = some y ∧ related t y := by
  induction labels generalizing s x with
  | nil =>
      cases hrun
      exact ⟨[], x, rfl, h⟩
  | cons a rest ih =>
      rcases run_cons_eq_some hrun with ⟨next, hstep, hrest⟩
      rcases hsim h hstep with ⟨b, z, hfirst, hnext⟩
      rcases ih hnext hrest with ⟨later, y, hlater, hy⟩
      exact ⟨b :: later, y, (run_cons_of_step later hfirst).trans hlater, hy⟩

end Transition
end GMServer
