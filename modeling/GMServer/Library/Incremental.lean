import Mathlib.Data.List.Basic

/-!
# Reading in pieces

A reader takes symbols off the front of what has come in, or it waits for more.  What
it takes does not depend on what comes later, so that it makes no difference in which
pieces the symbols come.
-/

namespace GMServer
namespace Incremental

variable {state symbol : Type}

/-- No result stands for waiting. -/
abbrev Reader (state symbol : Type) := state -> List symbol -> Option (state × List symbol)

structure Steady (read : Reader state symbol) : Prop where
  later : forall {s t : state} {u v : List symbol}, read s u = some (t, v) ->
    forall w, read s (u ++ w) = some (t, v ++ w)
  less : forall {s t : state} {u v : List symbol}, read s u = some (t, v) -> v.length < u.length

/-!
# Reading on until nothing can be taken
-/

def settleFrom (read : Reader state symbol) : Nat -> state -> List symbol -> state × List symbol
  | 0, s, u => (s, u)
  | fuel + 1, s, u =>
      match read s u with
      | none => (s, u)
      | some (t, v) => settleFrom read fuel t v

/-- Each symbol is taken at most once. -/
def settle (read : Reader state symbol) (s : state) (u : List symbol) : state × List symbol :=
  settleFrom read u.length s u

/-- What a reader does with the symbols that are there. -/
inductive Takes (read : Reader state symbol) :
    state -> List symbol -> state -> List symbol -> Prop where
  | refl (s : state) (u : List symbol) : Takes read s u s u
  | step {s t x : state} {u v w : List symbol} (h : read s u = some (t, v))
      (rest : Takes read t v x w) : Takes read s u x w

theorem Takes.single {read : Reader state symbol} {s t : state} {u v : List symbol}
    (h : read s u = some (t, v)) : Takes read s u t v :=
  .step h (.refl t v)

theorem Takes.trans {read : Reader state symbol} {s t x : state} {u v w : List symbol}
    (hfirst : Takes read s u t v) (hsecond : Takes read t v x w) : Takes read s u x w := by
  induction hfirst with
  | refl s u => exact hsecond
  | step h _ ih => exact .step h (ih hsecond)

section

variable {read : Reader state symbol}

theorem waits_nil (hread : Steady read) (s : state) : read s [] = none := by
  cases h : read s [] with
  | none => rfl
  | some result => exact absurd (hread.less h) (Nat.not_lt_zero _)

theorem settleFrom_enough (hread : Steady read) {fuel more : Nat} {s : state}
    {u : List symbol} (hfuel : u.length ≤ fuel) (hmore : u.length ≤ more) :
    settleFrom read fuel s u = settleFrom read more s u := by
  induction fuel generalizing more s u with
  | zero =>
      have hnil : u = [] := List.length_eq_zero_iff.mp (Nat.le_zero.mp hfuel)
      cases more with
      | zero => rfl
      | succ more =>
          rw [settleFrom, settleFrom, hnil, waits_nil hread]
  | succ fuel ih =>
      cases hcase : read s u with
      | none =>
          cases more with
          | zero => rw [settleFrom, settleFrom, hcase]
          | succ more => rw [settleFrom, settleFrom, hcase]
      | some result =>
          rcases result with ⟨t, v⟩
          have hless := hread.less hcase
          cases more with
          | zero => exact absurd (Nat.lt_of_lt_of_le hless hmore) (Nat.not_lt_zero _)
          | succ more =>
              rw [settleFrom, settleFrom, hcase]
              exact ih (by omega) (by omega)

theorem settle_waits {s : state} {u : List symbol} (h : read s u = none) :
    settle read s u = (s, u) := by
  unfold settle
  cases u with
  | nil => rfl
  | cons c rest =>
      rw [List.length_cons, settleFrom, h]

theorem settle_read (hread : Steady read) {s t : state} {u v : List symbol}
    (h : read s u = some (t, v)) : settle read s u = settle read t v := by
  have hless := hread.less h
  unfold settle
  rw [settleFrom_enough hread (Nat.le_refl _) (Nat.le_succ _), settleFrom, h]
  exact settleFrom_enough hread (Nat.le_of_lt hless) (Nat.le_refl _)

theorem settle_takes (hread : Steady read) {s t : state} {u v : List symbol}
    (h : Takes read s u t v) : settle read s u = settle read t v := by
  induction h with
  | refl s u => rfl
  | step h _ ih => rw [settle_read hread h, ih]

/-- Settling takes symbols until the reader waits. -/
theorem takes_settle (hread : Steady read) (s : state) (u : List symbol) :
    Takes read s u (settle read s u).1 (settle read s u).2 ∧
      read (settle read s u).1 (settle read s u).2 = none := by
  cases h : read s u with
  | none =>
      rw [settle_waits h]
      exact ⟨.refl s u, h⟩
  | some result =>
      rcases result with ⟨t, v⟩
      have hless := hread.less h
      have hnext := takes_settle hread t v
      rw [settle_read hread h]
      exact ⟨.step h hnext.left, hnext.right⟩
termination_by u.length

theorem Takes.later (hread : Steady read) {s t : state} {u v : List symbol}
    (h : Takes read s u t v) (w : List symbol) : Takes read s (u ++ w) t (v ++ w) := by
  induction h with
  | refl s u => exact .refl s (u ++ w)
  | step h _ ih => exact .step (hread.later h w) ih

/-- It makes no difference whether the later symbols are there from the start. -/
theorem settle_append (hread : Steady read) (s : state) (u w : List symbol) :
    settle read s (u ++ w) =
      settle read (settle read s u).1 ((settle read s u).2 ++ w) :=
  settle_takes hread ((takes_settle hread s u).left.later hread w)

end

/-!
# What grows while symbols are taken
-/

theorem Takes.grows {read : Reader state symbol} (le : state -> state -> Prop)
    (hrefl : forall s, le s s) (htrans : forall {s t x}, le s t -> le t x -> le s x)
    (hstep : forall {s t : state} {u v : List symbol}, read s u = some (t, v) -> le s t)
    {s t : state} {u v : List symbol} (h : Takes read s u t v) : le s t := by
  induction h with
  | refl s u => exact hrefl s
  | step h _ ih => exact htrans (hstep h) ih

/-- A reader that comes to rest between two results has made a new one since it took a
symbol. -/
theorem Takes.made {read : Reader state symbol} {atRest : state -> Prop} {made : state -> Nat}
    (hmore : forall {s t : state} {u v : List symbol}, read s u = some (t, v) ->
      made s ≤ made t ∧ (atRest t -> made s < made t))
    {s t : state} {u v : List symbol} (h : Takes read s u t v) (hrest : atRest t) :
    made s < made t ∨ s = t ∧ u = v := by
  induction h with
  | refl s u => exact Or.inr ⟨rfl, rfl⟩
  | step h _ ih =>
      rcases hmore h with ⟨hle, hlt⟩
      rcases ih hrest with hmade | ⟨hsame, _⟩
      · exact Or.inl (Nat.lt_of_le_of_lt hle hmade)
      · rw [← hsame] at hrest ⊢
        exact Or.inl (hlt hrest)

end Incremental
end GMServer
