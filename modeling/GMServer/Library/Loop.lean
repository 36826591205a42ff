import Mathlib.Logic.Basic

/-!
# Loops

A pass through a loop leaves it with a result or goes on with a new state.  The fuel
bounds the number of passes; a loop comes to its end if each pass leaves less to do.
-/

namespace GMServer
namespace Loops

variable {state result : Type}

inductive Pass (state result : Type) where
  | goOn (s : state)
  | leave (r : result)
  deriving DecidableEq, Repr

/-- No result stands for a pass that is not defined or for a loop that is not left in time. -/
def Loop (pass : state -> Option (Pass state result)) : Nat -> state -> Option result
  | 0, _ => none
  | fuel + 1, s =>
      match pass s with
      | none => none
      | some (.leave r) => some r
      | some (.goOn t) => Loop pass fuel t

theorem loop_leave {pass : state -> Option (Pass state result)} {s : state} {r : result}
    (hpass : pass s = some (.leave r)) (fuel : Nat) : Loop pass (fuel + 1) s = some r := by
  rw [Loop, hpass]

theorem loop_goOn {pass : state -> Option (Pass state result)} {s t : state}
    (hpass : pass s = some (.goOn t)) (fuel : Nat) :
    Loop pass (fuel + 1) s = Loop pass fuel t := by
  rw [Loop, hpass]

/-- What a loop has to keep and what it has to reach, with a bound for what is left to do. -/
theorem loop_ends {pass : state -> Option (Pass state result)} {Inv : state -> Prop}
    {Post : result -> Prop} {left : state -> Nat}
    (hpass : forall s, Inv s ->
      (exists r, pass s = some (.leave r) ∧ Post r) ∨
        exists t, pass s = some (.goOn t) ∧ Inv t ∧ left t < left s)
    {fuel : Nat} {s : state} (hinv : Inv s) (hfuel : left s < fuel) :
    exists r, Loop pass fuel s = some r ∧ Post r := by
  induction fuel generalizing s with
  | zero => exact absurd hfuel (Nat.not_lt_zero _)
  | succ fuel ih =>
      rcases hpass s hinv with ⟨r, hleave, hpost⟩ | ⟨t, hgo, hnext, hless⟩
      · exact ⟨r, loop_leave hleave fuel, hpost⟩
      · rw [loop_goOn hgo]
        exact ih hnext (Nat.lt_of_lt_of_le hless (Nat.le_of_lt_succ hfuel))

end Loops
end GMServer
