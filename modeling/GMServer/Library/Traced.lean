import GMServer.Library.Transition

/-!
# Calls that are traced

A computation on a state that also leaves the list of the calls it has made of something
else.  Whether these calls keep to a protocol is a run of the protocol, whose phase is read
off the state before and after the computation.
-/

namespace GMServer

structure Traced (state label result : Type) where
  state : state
  result : result
  trace : List label

namespace Traced

open Transition

variable {state label first second phase : Type}

def ret (s : state) (result : first) : Traced state label first :=
  { state := s, result := result, trace := [] }

def andThen (done : Traced state label first)
    (next : state -> first -> Traced state label second) : Traced state label second :=
  { next done.state done.result with
    trace := done.trace ++ (next done.state done.result).trace }

@[simp] theorem andThen_state (done : Traced state label first)
    (next : state -> first -> Traced state label second) :
    (done.andThen next).state = (next done.state done.result).state := rfl

@[simp] theorem andThen_result (done : Traced state label first)
    (next : state -> first -> Traced state label second) :
    (done.andThen next).result = (next done.state done.result).result := rfl

@[simp] theorem andThen_trace (done : Traced state label first)
    (next : state -> first -> Traced state label second) :
    (done.andThen next).trace = done.trace ++ (next done.state done.result).trace := rfl

/-- From this state on the calls keep to the protocol. -/
def Follows (protocol : phase -> label -> Option phase) (phaseOf : state -> phase) (s : state)
    (done : Traced state label first) : Prop :=
  Run protocol (phaseOf s) done.trace = some (phaseOf done.state)

variable {protocol : phase -> label -> Option phase} {phaseOf : state -> phase} {s : state}

theorem follows_ret (result : first) :
    Follows protocol phaseOf s (ret s result : Traced state label first) := rfl

theorem follows_andThen {done : Traced state label first}
    {next : state -> first -> Traced state label second}
    (hdone : Follows protocol phaseOf s done)
    (hnext : Follows protocol phaseOf done.state (next done.state done.result)) :
    Follows protocol phaseOf s (done.andThen next) := by
  unfold Follows at hdone hnext ⊢
  rw [andThen_trace, andThen_state, run_append _ hdone]
  exact hnext

end Traced
end GMServer
