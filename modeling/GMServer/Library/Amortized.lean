import Mathlib.Algebra.BigOperators.Group.Finset.Piecewise
import Mathlib.Algebra.GroupWithZero.Nat
import GMServer.Library.Transition

/-!
# Work along a run

Some steps of a run do work and others bring new work.  A measure of the work that is left
bounds how many steps of the first kind a run takes by what the others bring, and a system
in which every step does work comes to a state where no step is enabled.
-/

namespace GMServer
namespace Transition

variable {state label : Type}

def countSteps (step : state -> label -> Option state) (works : state -> label -> Bool) :
    state -> List label -> Nat
  | _, [] => 0
  | s, a :: rest =>
      (if works s a then 1 else 0) +
        match step s a with
        | none => 0
        | some t => countSteps step works t rest

theorem countSteps_cons_of_step {step : state -> label -> Option state}
    {works : state -> label -> Bool} {s t : state} {a : label} (rest : List label)
    (hstep : step s a = some t) :
    countSteps step works s (a :: rest) =
      (if works s a then 1 else 0) + countSteps step works t rest := by
  rw [countSteps, hstep]

theorem run_work {step : state -> label -> Option state} {works : state -> label -> Bool}
    {brings : label -> Nat} {left : state -> Nat}
    (hwork : forall s a t, step s a = some t ->
      (if works s a then 1 else 0) + left t ≤ left s + brings a)
    {s t : state} {labels : List label} (hrun : Run step s labels = some t) :
    countSteps step works s labels + left t ≤ left s + (labels.map brings).sum := by
  induction labels generalizing s with
  | nil =>
      cases hrun
      exact Nat.le_of_eq (Nat.add_comm _ _)
  | cons a rest ih =>
      rcases run_cons_eq_some hrun with ⟨next, hstep, hrest⟩
      have hfirst := hwork s a next hstep
      have hlater := ih hrest
      rw [countSteps_cons_of_step rest hstep, List.map_cons, List.sum_cons]
      omega

/-!
# States in which nothing is left to do
-/

def Idle (step : state -> label -> Option state) (ok : state -> label -> Prop)
    (s : state) : Prop :=
  forall a, ok s a -> step s a = none

theorem run_to_idle {step : state -> label -> Option state} {ok : state -> label -> Prop}
    {left : state -> Nat}
    (hless : forall s a t, ok s a -> step s a = some t -> left t < left s) (s : state) :
    exists labels t, AllSteps step ok s labels ∧ Run step s labels = some t ∧
      Idle step ok t := by
  induction hleft : left s using Nat.strong_induction_on generalizing s with
  | h n ih =>
      by_cases hidle : Idle step ok s
      · exact ⟨[], s, trivial, rfl, hidle⟩
      · unfold Idle at hidle
        push Not at hidle
        rcases hidle with ⟨a, hok, henabled⟩
        rcases Option.ne_none_iff_exists'.mp henabled with ⟨next, hstep⟩
        have hsmaller : left next < n := by
          rw [← hleft]
          exact hless s a next hok hstep
        rcases ih (left next) hsmaller next rfl with ⟨rest, t, hsteps, hrun, ht⟩
        exact ⟨a :: rest, t, (allSteps_cons_iff hstep).mpr ⟨hok, hsteps⟩,
          (run_cons_of_step rest hstep).trans hrun, ht⟩

/-!
# Measures that are sums

A step that changes one part changes the sum by what it changes of that part.
-/

theorem sum_weight_update {part value : Type} [Fintype part] [DecidableEq part]
    (weight : value -> Nat) (f : part -> value) (p : part) (v : value) :
    (∑ q, weight (Function.update f p v q)) + weight (f p) =
      (∑ q, weight (f q)) + weight v := by
  have hcompose : (fun q => weight (Function.update f p v q)) =
      Function.update (fun q => weight (f q)) p (weight v) :=
    Function.comp_update weight f p v
  rw [hcompose, Finset.sum_update_of_mem (Finset.mem_univ p),
    ← Finset.sum_sdiff (Finset.singleton_subset_iff.mpr (Finset.mem_univ p)),
    Finset.sum_singleton]
  omega

end Transition
end GMServer
