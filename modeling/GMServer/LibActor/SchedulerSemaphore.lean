import GMServer.LibActor.Mailbox

/-!
# The wait list of the scheduler

`Schedule` appends a mailbox to `m_listWaite`.  `Pop` scans the list from the
front, drops null entries, skips the mailboxes that answer `IsHandling`, and
puts the skipped ones back at the end.
-/

namespace GMServer
namespace LibActor
namespace SchedulerSemaphore

variable {Box : Type}

def Schedule (m_listWaite : List (Option Box)) (pMailBox : Option Box) :
    List (Option Box) :=
  m_listWaite ++ [pMailBox]

/-!
# Pop

`IsHandling` reads an atomic that a thread inside `Process` changes without
holding the scheduler's mutex, so two scans of one mailbox in one `Pop` may get
different answers.  The answers are a function of the position in the list.
The result is the mailbox returned, the entries not scanned, and `listBusy`.
-/

def scan (IsHandling : Nat -> Box -> Bool) :
    Nat -> List (Option Box) -> Option Box × List (Option Box) × List Box
  | _, [] => (none, [], [])
  | n, none :: rest => scan IsHandling (n + 1) rest
  | n, some pBox :: rest =>
      if IsHandling n pBox then
        let result := scan IsHandling (n + 1) rest
        (result.1, result.2.1, pBox :: result.2.2)
      else
        (some pBox, rest, [])

def Pop (IsHandling : Nat -> Box -> Bool) (m_listWaite : List (Option Box)) :
    Option Box × List (Option Box) :=
  let result := scan IsHandling 0 m_listWaite
  (result.1, result.2.1 ++ result.2.2.map some)

/-!
# Where the scheduled mailboxes go

Every mailbox that was scheduled is still scheduled after a `Pop`, or is the
one returned, and nothing else is scheduled or returned.
-/

theorem scan_keeps (IsHandling : Nat -> Box -> Bool) (n : Nat)
    (l : List (Option Box)) (pBox : Box) (h : some pBox ∈ l) :
    (scan IsHandling n l).1 = some pBox ∨
      some pBox ∈ (scan IsHandling n l).2.1 ∨
      pBox ∈ (scan IsHandling n l).2.2 := by
  induction l generalizing n with
  | nil =>
      cases h
  | cons entry rest ih =>
      cases entry with
      | none =>
          have hrest : some pBox ∈ rest := by simpa using h
          exact ih (n + 1) hrest
      | some front =>
          unfold scan
          split
          · rcases List.mem_cons.mp h with hfront | hrest
            · have hEq : pBox = front := Option.some.inj hfront
              exact Or.inr (Or.inr (by simp [hEq]))
            · rcases ih (n + 1) hrest with hret | hleft | hbusy
              · exact Or.inl hret
              · exact Or.inr (Or.inl hleft)
              · exact Or.inr (Or.inr (List.mem_cons_of_mem front hbusy))
          · rcases List.mem_cons.mp h with hfront | hrest
            · exact Or.inl hfront.symm
            · exact Or.inr (Or.inl hrest)

theorem scan_from (IsHandling : Nat -> Box -> Bool) (n : Nat)
    (l : List (Option Box)) (pBox : Box)
    (h : (scan IsHandling n l).1 = some pBox ∨
      some pBox ∈ (scan IsHandling n l).2.1 ∨
      pBox ∈ (scan IsHandling n l).2.2) : some pBox ∈ l := by
  induction l generalizing n with
  | nil =>
      simp [scan] at h
  | cons entry rest ih =>
      cases entry with
      | none =>
          exact List.mem_cons_of_mem none (ih (n + 1) h)
      | some front =>
          unfold scan at h
          split at h
          · rcases h with hret | hleft | hbusy
            · exact List.mem_cons_of_mem _ (ih (n + 1) (Or.inl hret))
            · exact List.mem_cons_of_mem _ (ih (n + 1) (Or.inr (Or.inl hleft)))
            · rcases List.mem_cons.mp hbusy with hEq | hrest
              · simp [hEq]
              · exact List.mem_cons_of_mem _ (ih (n + 1) (Or.inr (Or.inr hrest)))
          · rcases h with hret | hleft | hbusy
            · simp [← hret]
            · exact List.mem_cons_of_mem _ hleft
            · cases hbusy

theorem pop_keeps (IsHandling : Nat -> Box -> Bool) {l : List (Option Box)}
    {pBox : Box} (h : some pBox ∈ l) :
    (Pop IsHandling l).1 = some pBox ∨ some pBox ∈ (Pop IsHandling l).2 := by
  rcases scan_keeps IsHandling 0 l pBox h with hret | hleft | hbusy
  · exact Or.inl hret
  · exact Or.inr (List.mem_append.mpr (Or.inl hleft))
  · exact Or.inr (List.mem_append.mpr (Or.inr (List.mem_map.mpr ⟨pBox, hbusy, rfl⟩)))

theorem pop_returns_scheduled {IsHandling : Nat -> Box -> Bool}
    {l : List (Option Box)} {pBox : Box}
    (h : (Pop IsHandling l).1 = some pBox) : some pBox ∈ l :=
  scan_from IsHandling 0 l pBox (Or.inl h)

theorem pop_leaves_scheduled {IsHandling : Nat -> Box -> Bool}
    {l : List (Option Box)} {pBox : Box}
    (h : some pBox ∈ (Pop IsHandling l).2) : some pBox ∈ l := by
  rcases List.mem_append.mp h with hleft | hbusy
  · exact scan_from IsHandling 0 l pBox (Or.inr (Or.inl hleft))
  · rcases List.mem_map.mp hbusy with ⟨busy, hmem, hEq⟩
    rw [← hEq]
    exact scan_from IsHandling 0 l busy (Or.inr (Or.inr hmem))

/-!
# What one Pop does to the list

The list falls into the entries that were scanned in vain, the one that is returned if there is
one, and those that were not scanned.  `n` is the position of the first entry.
-/

/-- The mailboxes among the entries were busy when they were scanned. -/
def AllBusy (IsHandling : Nat -> Box -> Bool) (n : Nat) (scanned : List (Option Box)) : Prop :=
  forall i pBox, scanned[i]? = some (some pBox) -> IsHandling (n + i) pBox = true

theorem allBusy_cons {IsHandling : Nat -> Box -> Bool} {n : Nat} {entry : Option Box}
    {scanned : List (Option Box)}
    (hentry : forall pBox, entry = some pBox -> IsHandling n pBox = true)
    (hrest : AllBusy IsHandling (n + 1) scanned) : AllBusy IsHandling n (entry :: scanned) := by
  intro i pBox hget
  cases i with
  | zero =>
      rw [List.getElem?_cons_zero] at hget
      exact hentry pBox (Option.some.inj hget)
  | succ i =>
      rw [List.getElem?_cons_succ] at hget
      have hbusy := hrest i pBox hget
      rw [Nat.add_assoc, Nat.add_comm 1 i] at hbusy
      exact hbusy

/-- The scan stops at the first mailbox that is not busy, or at the end. -/
def StopsBehind (IsHandling : Nat -> Box -> Bool) (n : Nat) (l scanned : List (Option Box))
    (pBox : Option Box) (rest : List (Option Box)) : Prop :=
  match pBox with
  | none => l = scanned ∧ rest = []
  | some pIdle =>
      l = scanned ++ some pIdle :: rest ∧ IsHandling (n + scanned.length) pIdle = false

theorem stopsBehind_cons {IsHandling : Nat -> Box -> Bool} {n : Nat}
    {l scanned rest : List (Option Box)} {pBox : Option Box} (entry : Option Box)
    (h : StopsBehind IsHandling (n + 1) l scanned pBox rest) :
    StopsBehind IsHandling n (entry :: l) (entry :: scanned) pBox rest := by
  cases pBox with
  | none => exact ⟨congrArg (entry :: ·) h.left, h.right⟩
  | some pIdle =>
      refine ⟨congrArg (entry :: ·) h.left, ?_⟩
      have hidle := h.right
      rw [Nat.add_assoc, Nat.add_comm 1 scanned.length] at hidle
      exact hidle

theorem scan_splits (IsHandling : Nat -> Box -> Bool) (n : Nat) (l : List (Option Box)) :
    exists scanned, AllBusy IsHandling n scanned ∧
      (scan IsHandling n l).2.2.map some = scanned.filter Option.isSome ∧
      StopsBehind IsHandling n l scanned (scan IsHandling n l).1 (scan IsHandling n l).2.1 := by
  induction l generalizing n with
  | nil =>
      refine ⟨[], ?_, rfl, rfl, rfl⟩
      intro i pBox hget
      cases hget
  | cons entry l ih =>
      rcases ih (n + 1) with ⟨scanned, hbusy, hfilter, hstop⟩
      cases entry with
      | none =>
          refine ⟨none :: scanned, allBusy_cons (fun _ h => by cases h) hbusy, ?_,
            stopsBehind_cons none hstop⟩
          rw [List.filter_cons_of_neg Bool.false_ne_true]
          exact hfilter
      | some front =>
          cases hfront : IsHandling n front with
          | true =>
              refine ⟨some front :: scanned, allBusy_cons ?_ hbusy, ?_, ?_⟩
              · intro pBox hEq
                rw [← Option.some.inj hEq]
                exact hfront
              · rw [List.filter_cons_of_pos rfl, ← hfilter]
                simp only [scan, hfront, if_true, List.map_cons]
              · simp only [scan, hfront, if_true]
                exact stopsBehind_cons (some front) hstop
          | false =>
              refine ⟨[], ?_, ?_, ?_⟩
              · intro i pBox hget
                cases hget
              · simp [scan, hfront]
              · simp only [scan, hfront]
                exact ⟨rfl, hfront⟩

/-- Every mailbox keeps its multiplicity, except the one that is returned. -/
theorem count_of_stopsBehind [DecidableEq Box] {IsHandling : Nat -> Box -> Bool} {n : Nat}
    {l scanned rest : List (Option Box)} {pBox : Option Box}
    (h : StopsBehind IsHandling n l scanned pBox rest) (pOther : Box) :
    (rest ++ scanned.filter Option.isSome).count (some pOther) +
        (if pBox = some pOther then 1 else 0) = l.count (some pOther) := by
  have hfilter : (scanned.filter Option.isSome).count (some pOther) =
      scanned.count (some pOther) := List.count_filter rfl
  rw [List.count_append, hfilter]
  cases pBox with
  | none =>
      rw [h.left, h.right, if_neg (fun hEq => by cases hEq)]
      simp only [List.count_nil, Nat.zero_add, Nat.add_zero]
  | some pIdle =>
      rw [h.left, List.count_append, List.count_cons]
      simp only [beq_iff_eq]
      omega

theorem pop_critical_section [DecidableEq Box] (IsHandling : Nat -> Box -> Bool)
    (m_listWaite : List (Option Box)) :
    exists scanned rest, AllBusy IsHandling 0 scanned ∧
      StopsBehind IsHandling 0 m_listWaite scanned (Pop IsHandling m_listWaite).1 rest ∧
      (Pop IsHandling m_listWaite).2 = rest ++ scanned.filter Option.isSome ∧
      forall pBox, (Pop IsHandling m_listWaite).2.count (some pBox) +
          (if (Pop IsHandling m_listWaite).1 = some pBox then 1 else 0) =
        m_listWaite.count (some pBox) := by
  rcases scan_splits IsHandling 0 m_listWaite with ⟨scanned, hbusy, hfilter, hstop⟩
  have hleft : (Pop IsHandling m_listWaite).2 =
      (scan IsHandling 0 m_listWaite).2.1 ++ scanned.filter Option.isSome := by
    rw [← hfilter]
    rfl
  refine ⟨scanned, _, hbusy, hstop, hleft, ?_⟩
  intro pBox
  rw [hleft]
  exact count_of_stopsBehind hstop pBox

/-!
# The mailboxes that are still scheduled

A `Pop` may drop null entries, but takes at most one mailbox from the list.
-/

theorem countP_of_stopsBehind {IsHandling : Nat -> Box -> Bool} {n : Nat}
    {l scanned rest : List (Option Box)} {pBox : Option Box}
    (h : StopsBehind IsHandling n l scanned pBox rest) :
    (rest ++ scanned.filter Option.isSome).countP Option.isSome +
        (if pBox.isSome then 1 else 0) = l.countP Option.isSome := by
  have hkept : (scanned.filter Option.isSome).countP Option.isSome =
      scanned.countP Option.isSome := by
    rw [List.countP_filter]
    simp only [Bool.and_self]
  rw [List.countP_append, hkept]
  cases pBox with
  | none =>
      rw [h.left, h.right]
      simp
  | some pIdle =>
      rw [h.left, List.countP_append, List.countP_cons]
      simp only [Option.isSome_some, if_true]
      omega

/-- A `Pop` takes one mailbox from the list when it returns one, and none otherwise. -/
theorem pop_scheduled (IsHandling : Nat -> Box -> Bool) (l : List (Option Box)) :
    (Pop IsHandling l).2.countP Option.isSome +
        (if (Pop IsHandling l).1.isSome then 1 else 0) = l.countP Option.isSome := by
  rcases scan_splits IsHandling 0 l with ⟨scanned, _, hfilter, hstop⟩
  have htaken := countP_of_stopsBehind hstop
  rw [← hfilter] at htaken
  exact htaken

theorem pop_length_le (IsHandling : Nat -> Box -> Bool) (l : List (Option Box)) :
    (Pop IsHandling l).2.length ≤ l.length := by
  rcases scan_splits IsHandling 0 l with ⟨scanned, _, hfilter, hstop⟩
  have hkept : (scanned.filter Option.isSome).length ≤ scanned.length :=
    List.length_filter_le _ _
  unfold Pop
  simp only [hfilter, List.length_append]
  cases hgot : (scan IsHandling 0 l).1 with
  | none =>
      rw [hgot] at hstop
      have hlength := congrArg List.length hstop.left
      rw [hstop.right, List.length_nil, Nat.zero_add]
      omega
  | some pIdle =>
      rw [hgot] at hstop
      have hlength := congrArg List.length hstop.left
      rw [List.length_append, List.length_cons] at hlength
      omega

/-- A `Pop` returns a mailbox if there is one that is not handling. -/
theorem pop_finds {IsHandling : Nat -> Box -> Bool} {l : List (Option Box)} {pBox : Box}
    (hmem : some pBox ∈ l) (hidle : forall n, IsHandling n pBox = false) :
    (Pop IsHandling l).1 ≠ none := by
  intro hnone
  rcases scan_splits IsHandling 0 l with ⟨scanned, hbusy, _, hstop⟩
  have hgot : (scan IsHandling 0 l).1 = none := hnone
  rw [hgot] at hstop
  rw [hstop.left] at hmem
  rcases List.mem_iff_getElem?.mp hmem with ⟨i, hget⟩
  have hbusy := hbusy i pBox hget
  rw [hidle] at hbusy
  cases hbusy

end SchedulerSemaphore
end LibActor
end GMServer
