import Mathlib.Data.Fintype.EquivFin
import Mathlib.Data.Fintype.Lattice
import GMServer.Library.Amortized

/-!
# Threads that lock mutexes in an order

A call of a thread is known by what it locks and unlocks.  Where every call locks its mutexes
in ascending rank, some thread can always go on; a mutex that its owner locks again is never
unlocked.
-/

namespace GMServer
namespace LockOrder

open Transition

variable {thread mutex call : Type}

inductive MutexAction (mutex : Type) where
  | lock (m : mutex)
  | unlock (m : mutex)
  deriving DecidableEq, Repr

/-- `todo` is what a thread has left of the call it has started. -/
structure LockState (thread mutex : Type) where
  owner : mutex -> Option thread
  todo : thread -> List (MutexAction mutex)

inductive LockLabel (thread call : Type) where
  | start (t : thread) (c : call)
  | proceed (t : thread)
  deriving DecidableEq, Repr

def init : LockState thread mutex :=
  { owner := fun _ => none, todo := fun _ => [] }

section Steps

variable [DecidableEq thread] [DecidableEq mutex]

def proceed (s : LockState thread mutex) (t : thread) : Option (LockState thread mutex) :=
  match s.todo t with
  | [] => none
  | .lock m :: rest =>
      if s.owner m = none then
        some
          { owner := Function.update s.owner m (some t),
            todo := Function.update s.todo t rest }
      else none
  | .unlock m :: rest =>
      if s.owner m = some t then
        some { owner := Function.update s.owner m none, todo := Function.update s.todo t rest }
      else none

/-- A call is started behind the one before. -/
def step (body : call -> List (MutexAction mutex)) (s : LockState thread mutex) :
    LockLabel thread call -> Option (LockState thread mutex)
  | .start t c =>
      match s.todo t with
      | [] => some { s with todo := Function.update s.todo t (body c) }
      | _ => none
  | .proceed t => proceed s t

/-!
# What a step can do
-/

inductive Step (body : call -> List (MutexAction mutex)) (s : LockState thread mutex) :
    LockLabel thread call -> LockState thread mutex -> Prop where
  | start {t : thread} {c : call} (hidle : s.todo t = []) :
      Step body s (.start t c) { s with todo := Function.update s.todo t (body c) }
  | lock {t : thread} {m : mutex} {rest : List (MutexAction mutex)}
      (htodo : s.todo t = .lock m :: rest) (hfree : s.owner m = none) :
      Step body s (.proceed t)
        { owner := Function.update s.owner m (some t),
          todo := Function.update s.todo t rest }
  | unlock {t : thread} {m : mutex} {rest : List (MutexAction mutex)}
      (htodo : s.todo t = .unlock m :: rest) (howner : s.owner m = some t) :
      Step body s (.proceed t)
        { owner := Function.update s.owner m none, todo := Function.update s.todo t rest }

variable {body : call -> List (MutexAction mutex)} {s u : LockState thread mutex}

theorem step_sound {a : LockLabel thread call} (hstep : step body s a = some u) :
    Step body s a u := by
  cases a with
  | start t c =>
      simp only [step] at hstep
      split at hstep
      · rename_i hidle
        cases hstep
        exact .start hidle
      · cases hstep
  | proceed t =>
      simp only [step, proceed] at hstep
      split at hstep
      · cases hstep
      · rename_i m rest htodo
        split at hstep
        · rename_i hfree
          cases hstep
          exact .lock htodo hfree
        · cases hstep
      · rename_i m rest htodo
        split at hstep
        · rename_i howner
          cases hstep
          exact .unlock htodo howner
        · cases hstep

theorem lock_enabled {t : thread} {m : mutex} {rest : List (MutexAction mutex)}
    (htodo : s.todo t = .lock m :: rest) (hfree : s.owner m = none) :
    exists u, step body s (.proceed t) = some u := by
  simp only [step, proceed, htodo, if_pos hfree]
  exact ⟨_, rfl⟩

theorem unlock_enabled {t : thread} {m : mutex} {rest : List (MutexAction mutex)}
    (htodo : s.todo t = .unlock m :: rest) (howner : s.owner m = some t) :
    exists u, step body s (.proceed t) = some u := by
  simp only [step, proceed, htodo, if_pos howner]
  exact ⟨_, rfl⟩

end Steps

/-!
# Calls in order

`Ordered rank held` is a call that holds `held` already: what it locks ranks above all that it
holds, it unlocks what it holds, and it ends without holding any mutex.
-/

section Order

variable [DecidableEq mutex]

def Ordered (rank : mutex -> Nat) : List mutex -> List (MutexAction mutex) -> Prop
  | held, [] => held = []
  | held, .lock m :: rest => (forall h, h ∈ held -> rank h < rank m) ∧ Ordered rank (m :: held) rest
  | held, .unlock m :: rest => m ∈ held ∧ Ordered rank (held.erase m) rest

/-- What can be done while only mutexes below `low` are held, and holds no more after it. -/
def Block (rank : mutex -> Nat) (low : Nat) (actions : List (MutexAction mutex)) : Prop :=
  forall held rest, (forall h, h ∈ held -> rank h < low) -> Ordered rank held rest ->
    Ordered rank held (actions ++ rest)

/-- The scope of a lock. -/
def locked (m : mutex) (actions : List (MutexAction mutex)) : List (MutexAction mutex) :=
  .lock m :: (actions ++ [.unlock m])

variable {rank : mutex -> Nat} {low : Nat} {actions : List (MutexAction mutex)}

omit [DecidableEq mutex] in
theorem unlock_mem_locked {m m' : mutex} :
    .unlock m' ∈ locked m actions <-> m' = m ∨ .unlock m' ∈ actions := by
  unfold locked
  simp [or_comm]

theorem block_nil : Block rank low [] := fun _ _ _ hrest => hrest

theorem block_append {more : List (MutexAction mutex)} (hfirst : Block rank low actions)
    (hsecond : Block rank low more) : Block rank low (actions ++ more) := by
  intro held rest hheld hrest
  rw [List.append_assoc]
  exact hfirst held _ hheld (hsecond held rest hheld hrest)

theorem block_mono {high : Nat} (hle : low ≤ high) (hblock : Block rank high actions) :
    Block rank low actions :=
  fun held rest hheld hrest =>
    hblock held rest (fun h hh => Nat.lt_of_lt_of_le (hheld h hh) hle) hrest

theorem block_locked {m : mutex} (hle : low ≤ rank m)
    (hblock : Block rank (rank m + 1) actions) : Block rank low (locked m actions) := by
  intro held rest hheld hrest
  refine ⟨fun h hh => Nat.lt_of_lt_of_le (hheld h hh) hle, ?_⟩
  show Ordered rank (m :: held) ((actions ++ [.unlock m]) ++ rest)
  rw [List.append_assoc]
  apply hblock
  · intro h hh
    rcases List.mem_cons.mp hh with heq | hin
    · rw [heq]
      exact Nat.lt_succ_self _
    · exact Nat.lt_succ_of_lt (Nat.lt_of_lt_of_le (hheld h hin) hle)
  · refine ⟨List.mem_cons_self, ?_⟩
    rw [List.erase_cons_head]
    exact hrest

theorem block_flatMap {item : Type} {items : List item}
    {actionsOf : item -> List (MutexAction mutex)}
    (hblocks : forall i, i ∈ items -> Block rank low (actionsOf i)) :
    Block rank low (items.flatMap actionsOf) := by
  induction items with
  | nil => exact block_nil
  | cons first rest ih =>
      rw [List.flatMap_cons]
      exact block_append (hblocks first List.mem_cons_self)
        (ih (fun i hi => hblocks i (List.mem_cons_of_mem first hi)))

theorem ordered_of_block (hblock : Block rank low actions) : Ordered rank [] actions := by
  have hordered := hblock [] [] (fun h hh => absurd hh List.not_mem_nil) rfl
  rw [List.append_nil] at hordered
  exact hordered

end Order

/-!
# The mutexes that are held
-/

section Held

variable [DecidableEq thread] [DecidableEq mutex]

structure Held (rank : mutex -> Nat) (s : LockState thread mutex)
    (held : thread -> List mutex) : Prop where
  owner : forall m t, s.owner m = some t <-> m ∈ held t
  nodup : forall t, (held t).Nodup
  ordered : forall t, Ordered rank (held t) (s.todo t)

def LockInv (rank : mutex -> Nat) (s : LockState thread mutex) : Prop :=
  exists held, Held rank s held

variable {rank : mutex -> Nat} {body : call -> List (MutexAction mutex)}
  {s u : LockState thread mutex}

omit [DecidableEq thread] in
theorem lockInv_init : LockInv rank (init : LockState thread mutex) := by
  refine ⟨fun _ => [], ?_, fun _ => List.nodup_nil, fun _ => rfl⟩
  intro m t
  constructor
  · intro howner
    cases howner
  · intro hm
    cases hm

theorem ordered_update {held : thread -> List mutex} {todo : thread -> List (MutexAction mutex)}
    (hordered : forall t, Ordered rank (held t) (todo t)) (t : thread) {now : List mutex}
    {rest : List (MutexAction mutex)} (hnext : Ordered rank now rest) (t' : thread) :
    Ordered rank (Function.update held t now t') (Function.update todo t rest t') := by
  by_cases ht : t' = t
  · subst ht
    rw [Function.update_self, Function.update_self]
    exact hnext
  · rw [Function.update_of_ne ht, Function.update_of_ne ht]
    exact hordered t'

omit [DecidableEq mutex] in
theorem nodup_update {held : thread -> List mutex} (hnodup : forall t, (held t).Nodup)
    (t : thread) {now : List mutex} (hnow : now.Nodup) (t' : thread) :
    (Function.update held t now t').Nodup :=
  (Function.forall_update_iff held (fun _ l => l.Nodup)).mpr ⟨hnow, fun t _ => hnodup t⟩ t'

theorem held_start {held : thread -> List mutex} (hheld : Held rank s held) {t : thread}
    (hidle : s.todo t = []) {actions : List (MutexAction mutex)}
    (hordered : Ordered rank [] actions) :
    Held rank { s with todo := Function.update s.todo t actions } held where
  owner := hheld.owner
  nodup := hheld.nodup
  ordered := by
    have hnone : held t = [] := by
      have hdone := hheld.ordered t
      rw [hidle] at hdone
      exact hdone
    rw [← hnone] at hordered
    have hupdated := ordered_update hheld.ordered t hordered
    rw [Function.update_eq_self] at hupdated
    exact hupdated

theorem held_lock {held : thread -> List mutex} (hheld : Held rank s held) {t : thread}
    {m : mutex} {rest : List (MutexAction mutex)} (htodo : s.todo t = .lock m :: rest)
    (hfree : s.owner m = none) :
    Held rank
      { owner := Function.update s.owner m (some t), todo := Function.update s.todo t rest }
      (Function.update held t (m :: held t)) := by
  have hout : forall t', m ∉ held t' := by
    intro t' hm
    have howner := (hheld.owner m t').mpr hm
    rw [hfree] at howner
    cases howner
  have hordered := hheld.ordered t
  rw [htodo] at hordered
  constructor
  case owner =>
    intro m' t'
    have hold := hheld.owner m' t'
    by_cases ht : t' = t
    · subst ht
      rw [Function.update_self, List.mem_cons, ← hold]
      by_cases hm : m' = m
      · subst hm
        simp
      · simp [hm]
    · rw [Function.update_of_ne ht, ← hold]
      by_cases hm : m' = m
      · subst hm
        simp [hfree, Ne.symm ht]
      · simp [Function.update_of_ne hm]
  case nodup =>
    exact nodup_update hheld.nodup t (List.nodup_cons.mpr ⟨hout t, hheld.nodup t⟩)
  case ordered => exact ordered_update hheld.ordered t hordered.right

theorem held_unlock {held : thread -> List mutex} (hheld : Held rank s held) {t : thread}
    {m : mutex} {rest : List (MutexAction mutex)} (htodo : s.todo t = .unlock m :: rest)
    (howner : s.owner m = some t) :
    Held rank
      { owner := Function.update s.owner m none, todo := Function.update s.todo t rest }
      (Function.update held t ((held t).erase m)) := by
  have hordered := hheld.ordered t
  rw [htodo] at hordered
  constructor
  case owner =>
    intro m' t'
    have hold := hheld.owner m' t'
    by_cases ht : t' = t
    · subst ht
      rw [Function.update_self, (hheld.nodup t').mem_erase_iff, ← hold]
      by_cases hm : m' = m
      · subst hm
        simp
      · simp [hm]
    · rw [Function.update_of_ne ht, ← hold]
      by_cases hm : m' = m
      · subst hm
        simp [howner, Ne.symm ht]
      · simp [Function.update_of_ne hm]
  case nodup => exact nodup_update hheld.nodup t ((hheld.nodup t).erase m)
  case ordered => exact ordered_update hheld.ordered t hordered.right

def StartsOrdered (rank : mutex -> Nat) (body : call -> List (MutexAction mutex)) :
    LockLabel thread call -> Prop
  | .start _ c => Ordered rank [] (body c)
  | .proceed _ => True

theorem lockInv_step {a : LockLabel thread call} (hinv : LockInv rank s)
    (hordered : StartsOrdered rank body a) (hstep : step body s a = some u) :
    LockInv rank u := by
  rcases hinv with ⟨held, hheld⟩
  cases step_sound hstep with
  | start hidle => exact ⟨held, held_start hheld hidle hordered⟩
  | lock htodo hfree => exact ⟨_, held_lock hheld htodo hfree⟩
  | unlock htodo howner => exact ⟨_, held_unlock hheld htodo howner⟩

/-!
# Some thread can go on

Of the threads that have something left, take one whose next mutex ranks highest.  If another
thread owns it, that one waits for a mutex that ranks higher still, or can go on.
-/

def wanted (rank : mutex -> Nat) : List (MutexAction mutex) -> Nat
  | .lock m :: _ => rank m
  | _ => 0

theorem some_proceeds [Finite thread] (hinv : LockInv rank s)
    (hbusy : exists t, s.todo t ≠ []) : exists t u, step body s (.proceed t) = some u := by
  rcases hinv with ⟨held, hheld⟩
  rcases hbusy with ⟨t, ht⟩
  have : Nonempty { t // s.todo t ≠ [] } := ⟨⟨t, ht⟩⟩
  rcases Finite.exists_max (fun busy : { t // s.todo t ≠ [] } => wanted rank (s.todo busy.val))
    with ⟨⟨highest, hhighest⟩, hmax⟩
  have hunlock : forall t m rest, s.todo t = .unlock m :: rest ->
      exists t u, step body s (.proceed t) = some u := by
    intro t m rest htodo
    have hordered := hheld.ordered t
    rw [htodo] at hordered
    exact ⟨t, unlock_enabled htodo ((hheld.owner m t).mpr hordered.left)⟩
  match htodo : s.todo highest, hhighest with
  | .unlock m :: rest, _ => exact hunlock highest m rest htodo
  | .lock m :: rest, _ =>
      cases howner : s.owner m with
      | none => exact ⟨highest, lock_enabled htodo howner⟩
      | some other =>
          have hm : m ∈ held other := (hheld.owner m other).mp howner
          have hordered := hheld.ordered other
          match hothers : s.todo other with
          | [] =>
              rw [hothers] at hordered
              rw [show held other = [] from hordered] at hm
              cases hm
          | .unlock m' :: rest' => exact hunlock other m' rest' hothers
          | .lock m' :: rest' =>
              rw [hothers] at hordered
              have hhigher : rank m < rank m' := hordered.left m hm
              have hle := hmax ⟨other, by rw [hothers]; exact List.cons_ne_nil _ _⟩
              simp only [htodo, hothers, wanted] at hle
              omega

/-!
# The calls that are under way end
-/

def Proceeds (_ : LockState thread mutex) : LockLabel thread call -> Prop
  | .start _ _ => False
  | .proceed _ => True

def stepsLeft [Fintype thread] (s : LockState thread mutex) : Nat := ∑ t, (s.todo t).length

theorem stepsLeft_step [Fintype thread] {a : LockLabel thread call} (hproceeds : Proceeds s a)
    (hstep : step body s a = some u) : stepsLeft u + 1 = stepsLeft s := by
  have hless : forall (t : thread) (action : MutexAction mutex) rest,
      s.todo t = action :: rest ->
        (∑ t', (Function.update s.todo t rest t').length) + 1 = stepsLeft s := by
    intro t action rest htodo
    have hsum := sum_weight_update List.length s.todo t rest
    rw [htodo, List.length_cons] at hsum
    unfold stepsLeft
    omega
  cases step_sound hstep with
  | start hidle => cases hproceeds
  | lock htodo hfree => exact hless _ _ _ htodo
  | unlock htodo howner => exact hless _ _ _ htodo

theorem length_add_stepsLeft [Fintype thread] {labels : List (LockLabel thread call)}
    (hproceeds : AllSteps (step body) Proceeds s labels)
    (hrun : Run (step body) s labels = some u) : labels.length + stepsLeft u = stepsLeft s := by
  induction labels generalizing s with
  | nil =>
      cases hrun
      exact Nat.zero_add _
  | cons a rest ih =>
      rcases run_cons_eq_some hrun with ⟨next, hstep, hrest⟩
      have hfirst := stepsLeft_step hproceeds.left hstep
      have hlater := ih (hproceeds.right next hstep) hrest
      rw [List.length_cons]
      omega

theorem calls_finish [Fintype thread] (hinv : LockInv rank s) :
    exists labels u, AllSteps (step body) Proceeds s labels ∧
      Run (step body) s labels = some u ∧ (forall t, u.todo t = []) ∧
        forall m, u.owner m = none := by
  have hless : forall (v : LockState thread mutex) (a : LockLabel thread call) w,
      Proceeds v a -> step body v a = some w -> stepsLeft w < stepsLeft v := by
    intro v a w hproceeds hstep
    have hone := stepsLeft_step hproceeds hstep
    omega
  rcases run_to_idle hless s with ⟨labels, u, hproceeds, hrun, hidle⟩
  have hkeep : forall (v : LockState thread mutex) (a : LockLabel thread call) w,
      LockInv rank v -> Proceeds v a -> step body v a = some w -> LockInv rank w := by
    intro v a w hinv hproceeds hstep
    cases a with
    | start t c => cases hproceeds
    | proceed t =>
        exact lockInv_step hinv (show StartsOrdered rank body (.proceed t) from trivial) hstep
  have hafter : LockInv rank u := run_invariant hkeep hinv hproceeds hrun
  have hdone : forall t, u.todo t = [] := by
    intro t
    by_contra hbusy
    have hgoesOn : exists t v, step body u (.proceed t) = some v :=
      some_proceeds hafter ⟨t, hbusy⟩
    rcases hgoesOn with ⟨t', v, hstep⟩
    rw [hidle (.proceed t') trivial] at hstep
    cases hstep
  refine ⟨labels, u, hproceeds, hrun, hdone, ?_⟩
  rcases hafter with ⟨held, hheld⟩
  intro m
  cases howner : u.owner m with
  | none => rfl
  | some t =>
      have hm := (hheld.owner m t).mp howner
      have hordered := hheld.ordered t
      rw [hdone t] at hordered
      rw [show held t = [] from hordered] at hm
      cases hm

/-!
# A mutex that is locked twice
-/

/-- The thread will lock the mutex again before it unlocks it. -/
structure Relocks (t : thread) (m : mutex) (s : LockState thread mutex) : Prop where
  owner : s.owner m = some t
  todo : exists before rest, s.todo t = before ++ .lock m :: rest ∧ .unlock m ∉ before

theorem relocks_step {t : thread} {m : mutex} {a : LockLabel thread call}
    (hrelocks : Relocks t m s) (hstep : step body s a = some u) : Relocks t m u := by
  rcases hrelocks.todo with ⟨before, rest, htodo, hbefore⟩
  have howner := hrelocks.owner
  have hother : forall {t' : thread} {owner' : mutex -> Option thread}
      {rest' : List (MutexAction mutex)}, t' ≠ t -> owner' m = some t ->
        Relocks t m { owner := owner', todo := Function.update s.todo t' rest' } := by
    intro t' owner' rest' ht howner'
    exact ⟨howner', before, rest, (Function.update_of_ne (Ne.symm ht) _ _).trans htodo, hbefore⟩
  cases step_sound hstep with
  | start hidle =>
      rename_i t' c
      by_cases ht : t' = t
      · rw [ht, htodo] at hidle
        cases before <;> cases hidle
      · exact hother ht howner
  | lock hnext hfree =>
      rename_i t' m' rest'
      have hm : m' ≠ m := by
        intro heq
        rw [heq, howner] at hfree
        cases hfree
      have hkept : Function.update s.owner m' (some t') m = some t := by
        rw [Function.update_of_ne (Ne.symm hm)]
        exact howner
      by_cases ht : t' = t
      · subst ht
        refine ⟨hkept, ?_⟩
        rw [htodo] at hnext
        cases before with
        | nil =>
            cases hnext
            exact absurd rfl hm
        | cons first before =>
            rw [List.cons_append] at hnext
            refine ⟨before, rest, ?_, fun hin => hbefore (List.mem_cons_of_mem first hin)⟩
            exact (Function.update_self _ _ _).trans (List.cons.inj hnext).right.symm
      · exact hother ht hkept
  | unlock hnext hheld =>
      rename_i t' m' rest'
      by_cases ht : t' = t
      · subst ht
        rw [htodo] at hnext
        cases before with
        | nil => cases hnext
        | cons first before =>
            rw [List.cons_append] at hnext
            have hfirst : first = .unlock m' := (List.cons.inj hnext).left
            have hm : m' ≠ m := by
              intro heq
              rw [hfirst, heq] at hbefore
              exact hbefore List.mem_cons_self
            refine ⟨?_, before, rest, ?_, fun hin => hbefore (List.mem_cons_of_mem first hin)⟩
            · exact (Function.update_of_ne (Ne.symm hm) _ _).trans howner
            · exact (Function.update_self _ _ _).trans (List.cons.inj hnext).right.symm
      · have hm : m' ≠ m := by
          intro heq
          rw [heq, howner] at hheld
          exact ht (Option.some.inj hheld).symm
        apply hother ht
        exact (Function.update_of_ne (Ne.symm hm) _ _).trans howner

theorem relocks_forever {t : thread} {m : mutex} {labels : List (LockLabel thread call)}
    (hrelocks : Relocks t m s) (hrun : Run (step body) s labels = some u) : Relocks t m u :=
  run_invariant (fun _ _ _ hinv (_ : True) hstep => relocks_step hinv hstep) hrelocks
    (allSteps_of_labels (fun _ _ _ => trivial) _) hrun

omit [DecidableEq thread] [DecidableEq mutex] in
theorem relocks_busy {t : thread} {m : mutex} (hrelocks : Relocks t m s) : s.todo t ≠ [] := by
  rcases hrelocks.todo with ⟨before, rest, htodo, _⟩
  rw [htodo]
  exact List.append_ne_nil_of_right_ne_nil before (List.cons_ne_nil _ rest)

/-- A call that locks a mutex twice never gets behind the second time. -/
theorem locked_twice {t : thread} {m : mutex} {before rest : List (MutexAction mutex)}
    (hbefore : .unlock m ∉ before) {labels : List (LockLabel thread call)}
    (htodo : s.todo t = .lock m :: (before ++ .lock m :: rest))
    (hrun : Run (step body) s labels = some u) :
    u.todo t = .lock m :: (before ++ .lock m :: rest) ∨ Relocks t m u := by
  induction labels generalizing s with
  | nil =>
      cases hrun
      exact .inl htodo
  | cons a later ih =>
      rcases run_cons_eq_some hrun with ⟨next, hstep, hlater⟩
      have hother : forall {t' : thread} {actions : List (MutexAction mutex)}, t' ≠ t ->
          Function.update s.todo t' actions t = .lock m :: (before ++ .lock m :: rest) :=
        fun ht => (Function.update_of_ne (Ne.symm ht) _ _).trans htodo
      cases step_sound hstep with
      | start hidle =>
          apply ih (hother _) hlater
          intro ht
          rw [ht, htodo] at hidle
          cases hidle
      | lock hnext hfree =>
          rename_i t' m' rest'
          by_cases ht : t' = t
          · subst ht
            rw [htodo] at hnext
            cases hnext
            refine .inr (relocks_forever ⟨?_, before, rest, ?_, hbefore⟩ hlater)
            · exact Function.update_self _ _ _
            · exact Function.update_self _ _ _
          · exact ih (hother ht) hlater
      | unlock hnext hheld =>
          apply ih (hother _) hlater
          intro ht
          rw [ht, htodo] at hnext
          cases hnext

end Held

end LockOrder
end GMServer
