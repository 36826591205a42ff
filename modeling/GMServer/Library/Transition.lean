import Mathlib.Data.List.Basic

/-!
# Runs of partial transition systems

A transition system is a partial step function on states and labels.  A run is
a list of labels whose steps are all enabled.  Nothing here knows which program
the states and labels come from: the modules of the model instantiate the step
function and use the rules below by name.
-/

namespace GMServer
namespace Transition

variable {state label : Type}

/-!
# Runs

The step function answers `none` where a label is not enabled, and a run stops
there.  Runs compose along list concatenation.
-/

def Run (step : state -> label -> Option state) : state -> List label -> Option state
  | s, [] => some s
  | s, a :: rest =>
      match step s a with
      | none => none
      | some t => Run step t rest

@[simp] theorem run_nil (step : state -> label -> Option state) (s : state) :
    Run step s [] = some s := rfl

theorem run_cons (step : state -> label -> Option state) (s : state)
    (a : label) (rest : List label) :
    Run step s (a :: rest) =
      match step s a with
      | none => none
      | some t => Run step t rest := rfl

theorem run_cons_of_step {step : state -> label -> Option state}
    {s t : state} {a : label} (rest : List label) (hstep : step s a = some t) :
    Run step s (a :: rest) = Run step t rest := by
  rw [run_cons, hstep]

theorem run_cons_eq_some {step : state -> label -> Option state}
    {s u : state} {a : label} {rest : List label}
    (h : Run step s (a :: rest) = some u) :
    exists t, step s a = some t ∧ Run step t rest = some u := by
  rw [run_cons] at h
  cases hstep : step s a with
  | none =>
      rw [hstep] at h
      cases h
  | some t =>
      rw [hstep] at h
      exact ⟨t, rfl, h⟩

theorem run_append {step : state -> label -> Option state} {s t : state}
    {before : List label} (after : List label)
    (h : Run step s before = some t) :
    Run step s (before ++ after) = Run step t after := by
  induction before generalizing s with
  | nil =>
      cases h
      rfl
  | cons a rest ih =>
      rcases run_cons_eq_some h with ⟨next, hstep, hrest⟩
      rw [List.cons_append, run_cons_of_step _ hstep]
      exact ih hrest

/-!
# Conditions on the steps and on the states of a run

`AllSteps` says that a condition on the state before the step and on the label
is met wherever the run takes a step.  `AllStates` says that every state the
run passes through, the first and the last included, satisfies a property.
-/

def AllSteps (step : state -> label -> Option state)
    (ok : state -> label -> Prop) : state -> List label -> Prop
  | _, [] => True
  | s, a :: rest => ok s a ∧ forall t, step s a = some t -> AllSteps step ok t rest

def AllStates (step : state -> label -> Option state)
    (P : state -> Prop) : state -> List label -> Prop
  | s, [] => P s
  | s, a :: rest => P s ∧ forall t, step s a = some t -> AllStates step P t rest

theorem forall_step_iff {step : state -> label -> Option state} {s t : state}
    {a : label} {P : state -> Prop} (hstep : step s a = some t) :
    (forall u, step s a = some u -> P u) <-> P t := by
  constructor
  · intro h
    exact h t hstep
  · intro h u hu
    rw [hstep] at hu
    cases hu
    exact h

theorem allSteps_cons_iff {step : state -> label -> Option state}
    {ok : state -> label -> Prop} {s t : state} {a : label} {rest : List label}
    (hstep : step s a = some t) :
    AllSteps step ok s (a :: rest) <-> ok s a ∧ AllSteps step ok t rest :=
  and_congr_right' (forall_step_iff (P := fun u => AllSteps step ok u rest) hstep)

theorem allStates_cons_iff {step : state -> label -> Option state}
    {P : state -> Prop} {s t : state} {a : label} {rest : List label}
    (hstep : step s a = some t) :
    AllStates step P s (a :: rest) <-> P s ∧ AllStates step P t rest :=
  and_congr_right' (forall_step_iff (P := fun u => AllStates step P u rest) hstep)

theorem allSteps_of_labels {step : state -> label -> Option state}
    {ok : state -> label -> Prop} {labels : List label}
    (h : forall a, a ∈ labels -> forall s, ok s a) (s : state) :
    AllSteps step ok s labels := by
  induction labels generalizing s with
  | nil =>
      trivial
  | cons a rest ih =>
      constructor
      · exact h a List.mem_cons_self s
      · intro t _
        exact ih (fun c hc => h c (List.mem_cons_of_mem a hc)) t

theorem allSteps_append {step : state -> label -> Option state}
    {ok : state -> label -> Prop} {s : state} {before after : List label}
    (hbefore : AllSteps step ok s before)
    (hafter : forall t, Run step s before = some t -> AllSteps step ok t after) :
    AllSteps step ok s (before ++ after) := by
  induction before generalizing s with
  | nil =>
      exact hafter s rfl
  | cons a rest ih =>
      constructor
      · exact hbefore.left
      · intro t hstep
        apply ih (hbefore.right t hstep)
        intro u hrun
        exact hafter u ((run_cons_of_step rest hstep).trans hrun)

theorem allSteps_after {step : state -> label -> Option state}
    {ok : state -> label -> Prop} {s t : state} {before after : List label}
    (h : AllSteps step ok s (before ++ after)) (hrun : Run step s before = some t) :
    AllSteps step ok t after := by
  induction before generalizing s with
  | nil =>
      cases hrun
      exact h
  | cons a rest ih =>
      rcases run_cons_eq_some hrun with ⟨next, hstep, hrest⟩
      exact ih (h.right next hstep) hrest

theorem allSteps_and {step : state -> label -> Option state}
    {first second : state -> label -> Prop} {s : state} {labels : List label}
    (hfirst : AllSteps step first s labels) (hsecond : AllSteps step second s labels) :
    AllSteps step (fun s a => first s a ∧ second s a) s labels := by
  induction labels generalizing s with
  | nil =>
      trivial
  | cons a rest ih =>
      constructor
      · exact ⟨hfirst.left, hsecond.left⟩
      · intro t hstep
        exact ih (hfirst.right t hstep) (hsecond.right t hstep)

theorem allStates_head {step : state -> label -> Option state}
    {P : state -> Prop} {s : state} {labels : List label}
    (h : AllStates step P s labels) : P s := by
  cases labels with
  | nil =>
      exact h
  | cons a rest =>
      exact h.left

theorem allSteps_of_invariant {step : state -> label -> Option state}
    {strong weak : state -> label -> Prop} {Inv : state -> Prop}
    (hkeep : forall s a t, Inv s -> strong s a -> step s a = some t -> Inv t)
    (himp : forall s a, Inv s -> strong s a -> weak s a)
    {s : state} {labels : List label}
    (hs : Inv s) (h : AllSteps step strong s labels) : AllSteps step weak s labels := by
  induction labels generalizing s with
  | nil =>
      trivial
  | cons a rest ih =>
      constructor
      · exact himp s a hs h.left
      · intro t hstep
        exact ih (hkeep s a t hs h.left hstep) (h.right t hstep)

/-!
# Deciding the conditions

On a given run both conditions can be evaluated when they can be at one step.
-/

instance decidableAllSteps (step : state -> label -> Option state)
    (ok : state -> label -> Prop) [forall s a, Decidable (ok s a)] :
    forall s labels, Decidable (AllSteps step ok s labels)
  | _, [] => isTrue trivial
  | s, a :: rest =>
      match hstep : step s a with
      | none =>
          decidable_of_iff (ok s a)
            (and_iff_left (fun t ht => by rw [hstep] at ht; cases ht)).symm
      | some t =>
          have : Decidable (AllSteps step ok t rest) :=
            decidableAllSteps step ok t rest
          decidable_of_iff (ok s a ∧ AllSteps step ok t rest)
            (allSteps_cons_iff hstep).symm

instance decidableAllStates (step : state -> label -> Option state)
    (P : state -> Prop) [forall s, Decidable (P s)] :
    forall s labels, Decidable (AllStates step P s labels)
  | s, [] => inferInstanceAs (Decidable (P s))
  | s, a :: rest =>
      match hstep : step s a with
      | none =>
          decidable_of_iff (P s)
            (and_iff_left (fun t ht => by rw [hstep] at ht; cases ht)).symm
      | some t =>
          have : Decidable (AllStates step P t rest) :=
            decidableAllStates step P t rest
          decidable_of_iff (P s ∧ AllStates step P t rest)
            (allStates_cons_iff hstep).symm

/-!
# Invariant rules

The first rules are the induction over a run: what holds at the start and is
kept by every step that meets the condition holds along every run whose steps
meet it.  The last two are for properties that a single bad step breaks at once;
there the condition on the steps is also necessary.
-/

theorem run_invariant {step : state -> label -> Option state}
    {ok : state -> label -> Prop} {Inv : state -> Prop}
    (hkeep : forall s a t, Inv s -> ok s a -> step s a = some t -> Inv t)
    {s t : state} {labels : List label}
    (hs : Inv s) (hok : AllSteps step ok s labels)
    (hrun : Run step s labels = some t) : Inv t := by
  induction labels generalizing s with
  | nil =>
      cases hrun
      exact hs
  | cons a rest ih =>
      rcases run_cons_eq_some hrun with ⟨next, hstep, hrest⟩
      have hsteps := (allSteps_cons_iff hstep).mp hok
      exact ih (hkeep s a next hs hsteps.left hstep) hsteps.right hrest

theorem allStates_of_invariant {step : state -> label -> Option state}
    {ok : state -> label -> Prop} {Inv P : state -> Prop}
    (hkeep : forall s a t, Inv s -> ok s a -> step s a = some t -> Inv t)
    (hholds : forall s, Inv s -> P s)
    {s : state} {labels : List label}
    (hs : Inv s) (hok : AllSteps step ok s labels) : AllStates step P s labels := by
  induction labels generalizing s with
  | nil =>
      exact hholds s hs
  | cons a rest ih =>
      constructor
      · exact hholds s hs
      · intro t hstep
        exact ih (hkeep s a t hs hok.left hstep) (hok.right t hstep)

theorem run_exists {step : state -> label -> Option state} {Inv : state -> Prop}
    (hkeep : forall s a, Inv s -> exists t, step s a = some t ∧ Inv t)
    {s : state} (hs : Inv s) (labels : List label) : exists t, Run step s labels = some t := by
  induction labels generalizing s with
  | nil => exact ⟨s, rfl⟩
  | cons a rest ih =>
      rcases hkeep s a hs with ⟨next, hstep, hnext⟩
      rcases ih hnext with ⟨t, hrest⟩
      exact ⟨t, (run_cons_of_step rest hstep).trans hrest⟩

/-- The invariant of this rule may speak of the labels still to come. -/
theorem allStates_iff_allSteps_ahead {step : state -> label -> Option state}
    {ok : state -> label -> Prop} {Inv : state -> List label -> Prop}
    {P : state -> Prop}
    (hkeep : forall s a rest t,
      Inv s (a :: rest) -> ok s a -> step s a = some t -> Inv t rest)
    (hholds : forall s labels, Inv s labels -> P s)
    (hbreak : forall s a rest t,
      Inv s (a :: rest) -> ¬ ok s a -> step s a = some t -> ¬ P t)
    {s t : state} {labels : List label}
    (hs : Inv s labels) (hrun : Run step s labels = some t) :
    AllStates step P s labels <-> AllSteps step ok s labels := by
  induction labels generalizing s with
  | nil =>
      exact ⟨fun _ => trivial, fun _ => hholds s [] hs⟩
  | cons a rest ih =>
      rcases run_cons_eq_some hrun with ⟨next, hstep, hrest⟩
      rw [allStates_cons_iff hstep, allSteps_cons_iff hstep]
      constructor
      · intro ⟨_, hnext⟩
        have hok : ok s a := by
          by_contra hbad
          exact hbreak s a rest next hs hbad hstep (allStates_head hnext)
        exact ⟨hok, (ih (hkeep s a rest next hs hok hstep) hrest).mp hnext⟩
      · intro ⟨hok, hsteps⟩
        exact ⟨hholds s _ hs, (ih (hkeep s a rest next hs hok hstep) hrest).mpr hsteps⟩

theorem allStates_iff_allSteps {step : state -> label -> Option state}
    {allowed : label -> Prop} {ok : state -> label -> Prop} {Inv P : state -> Prop}
    (hkeep : forall s a t,
      Inv s -> allowed a -> ok s a -> step s a = some t -> Inv t)
    (hholds : forall s, Inv s -> P s)
    (hbreak : forall s a t,
      Inv s -> allowed a -> ¬ ok s a -> step s a = some t -> ¬ P t)
    {s t : state} {labels : List label}
    (hs : Inv s) (hallowed : forall a, a ∈ labels -> allowed a)
    (hrun : Run step s labels = some t) :
    AllStates step P s labels <-> AllSteps step ok s labels := by
  let InvAhead : state -> List label -> Prop :=
    fun s labels => Inv s ∧ forall a, a ∈ labels -> allowed a
  have hkeepAhead : forall s a rest t, InvAhead s (a :: rest) -> ok s a ->
      step s a = some t -> InvAhead t rest := by
    intro s a rest t hinv hok hstep
    exact ⟨hkeep s a t hinv.left (hinv.right a List.mem_cons_self) hok hstep,
      fun c hc => hinv.right c (List.mem_cons_of_mem a hc)⟩
  have hbreakAhead : forall s a rest t, InvAhead s (a :: rest) -> ¬ ok s a ->
      step s a = some t -> ¬ P t := by
    intro s a rest t hinv hbad hstep
    exact hbreak s a t hinv.left (hinv.right a List.mem_cons_self) hbad hstep
  have hstart : InvAhead s labels := ⟨hs, hallowed⟩
  exact allStates_iff_allSteps_ahead hkeepAhead
    (fun s labels hinv => hholds s hinv.left) hbreakAhead hstart hrun

end Transition
end GMServer
