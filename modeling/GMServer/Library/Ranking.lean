import Mathlib.Data.List.Sort
import Mathlib.Data.List.Induction
import Mathlib.Data.Prod.Lex

/-!
# Ranked lists

Lists in descending order of a rank.  An entry that is out of place rises until the entry
in front of it makes it stay, and of the entries that were ever added a list of bounded
length keeps the best.
-/

namespace GMServer
namespace Ranking

variable {entry value : Type}

/-!
# Rising

The entry at a position changes places with the one in front of it, again and again.
Where it stops is returned with the list.
-/

section Rise

variable (stays : entry -> entry -> Prop) [DecidableRel stays]

def rise (list : List entry) : Nat -> List entry × Nat
  | 0 => (list, 0)
  | i + 1 =>
      match list[i]?, list[i + 1]? with
      | some front, some back =>
          if stays back front then (list, i + 1)
          else rise ((list.set i back).set (i + 1) front) i
      | _, _ => (list, i + 1)

/-- The entries in front are cut in two: it stays behind the last of the first part, and
passes the entries of the second part. -/
theorem rise_append (list rest : List entry) (e : entry) :
    exists before passed, list = before ++ passed ∧
      rise stays (list ++ e :: rest) list.length =
        (before ++ e :: (passed ++ rest), before.length) ∧
      (forall a, before.getLast? = some a -> stays e a) ∧
      forall a, a ∈ passed -> ¬ stays e a := by
  induction list using List.reverseRecOn generalizing rest with
  | nil =>
      refine ⟨[], [], rfl, rfl, ?_, List.forall_mem_nil _⟩
      intro a h
      cases h
  | append_singleton list front ih =>
      have hfront : (list ++ [front] ++ e :: rest)[list.length]? = some front := by
        rw [List.append_assoc, List.getElem?_append_right (Nat.le_refl _), Nat.sub_self]
        rfl
      have hback : (list ++ [front] ++ e :: rest)[list.length + 1]? = some e := by
        rw [List.append_assoc, List.getElem?_append_right (Nat.le_add_right _ 1),
          Nat.add_sub_cancel_left]
        rfl
      rw [List.length_append, List.length_singleton, rise, hfront, hback]
      dsimp only
      by_cases hstays : stays e front
      · rw [if_pos hstays]
        refine ⟨list ++ [front], [], (List.append_nil _).symm, ?_, ?_, List.forall_mem_nil _⟩
        · rw [List.nil_append, List.length_append, List.length_singleton]
        · intro a ha
          rw [List.getLast?_concat] at ha
          cases ha
          exact hstays
      · have hswap : ((list ++ [front] ++ e :: rest).set list.length e).set (list.length + 1)
            front = list ++ e :: front :: rest := by
          rw [List.append_assoc, List.set_append_right _ _ (Nat.le_refl _), Nat.sub_self,
            List.set_append_right _ _ (Nat.le_add_right _ 1), Nat.add_sub_cancel_left]
          rfl
        rw [if_neg hstays, hswap]
        rcases ih (front :: rest) with ⟨before, passed, hlist, hrise, hlast, hpassed⟩
        refine ⟨before, passed ++ [front], ?_, ?_, hlast, ?_⟩
        · rw [hlist, List.append_assoc]
        · rw [hrise, List.append_assoc, List.singleton_append]
        · intro a ha
          rcases List.mem_append.mp ha with hold | hnew
          · exact hpassed a hold
          · rw [List.mem_singleton.mp hnew]
            exact hstays

theorem rise_perm (list : List entry) {i : Nat} (hi : i < list.length) :
    (rise stays list i).1.Perm list := by
  have hsplit : list = list.take i ++ list[i] :: list.drop (i + 1) := by
    rw [← List.drop_eq_getElem_cons hi, List.take_append_drop]
  have hlength : (list.take i).length = i := by
    rw [List.length_take, Nat.min_eq_left (Nat.le_of_lt hi)]
  rcases rise_append stays (list.take i) (list.drop (i + 1)) list[i] with
    ⟨before, passed, hlist, hrise, _, _⟩
  rw [hlength, ← hsplit] at hrise
  rw [hrise]
  refine List.Perm.trans ?_ (List.Perm.of_eq hsplit.symm)
  rw [hlist, List.append_assoc]
  exact (List.perm_middle.symm).append_left before

end Rise

/-!
# Descending ranks
-/

section Ranked

variable [LinearOrder value] {rank : entry -> value}

def NotBelow (rank : entry -> value) (front back : entry) : Prop := rank back ≤ rank front

instance (front back : entry) : Decidable (NotBelow rank front back) :=
  inferInstanceAs (Decidable (_ ≤ _))

def Ranked (rank : entry -> value) (list : List entry) : Prop := list.Pairwise (NotBelow rank)

instance (list : List entry) : Decidable (Ranked rank list) :=
  inferInstanceAs (Decidable (List.Pairwise _ _))

theorem ranked_append {list rest : List entry} :
    Ranked rank (list ++ rest) <->
      Ranked rank list ∧ Ranked rank rest ∧
        forall a, a ∈ list -> forall b, b ∈ rest -> rank b ≤ rank a :=
  List.pairwise_append

theorem ranked_cons {e : entry} {rest : List entry} :
    Ranked rank (e :: rest) <->
      (forall b, b ∈ rest -> rank b ≤ rank e) ∧ Ranked rank rest :=
  List.pairwise_cons

/-- The last entry of a ranked list is the least one. -/
theorem getLast_least {list : List entry} (hranked : Ranked rank list) {last a : entry}
    (hlast : list.getLast? = some last) (ha : a ∈ list) : rank last ≤ rank a := by
  rcases List.getLast?_eq_some_iff.mp hlast with ⟨before, hlist⟩
  rw [hlist] at hranked ha
  rcases List.mem_append.mp ha with hearlier | hsame
  · exact (ranked_append.mp hranked).right.right a hearlier last (List.mem_singleton_self last)
  · rw [List.mem_singleton.mp hsame]

variable {stays : entry -> entry -> Prop} [DecidableRel stays]

/-- A risen entry stands where it belongs, if it was not below what is behind it. -/
theorem ranked_rise {list rest : List entry} {e : entry}
    (hstays : forall a, stays e a -> rank e ≤ rank a)
    (hpasses : forall a, ¬ stays e a -> rank a ≤ rank e)
    (hranked : Ranked rank (list ++ rest)) (hbehind : forall b, b ∈ rest -> rank b ≤ rank e) :
    Ranked rank (rise stays (list ++ e :: rest) list.length).1 := by
  rcases rise_append stays list rest e with ⟨before, passed, hlist, hrise, hlast, hpassed⟩
  rw [hlist, List.append_assoc] at hranked
  rcases ranked_append.mp hranked with ⟨hbefore, hafter, hcross⟩
  rw [hrise]
  apply ranked_append.mpr
  refine ⟨hbefore, ranked_cons.mpr ⟨?_, hafter⟩, ?_⟩
  · intro b hb
    rcases List.mem_append.mp hb with hb | hb
    · exact hpasses b (hpassed b hb)
    · exact hbehind b hb
  · intro a ha b hb
    rcases List.mem_cons.mp hb with hsame | hb
    · rw [hsame]
      cases hend : before.getLast? with
      | none =>
          rw [List.getLast?_eq_none_iff.mp hend] at ha
          cases ha
      | some last => exact (hstays last (hlast last hend)).trans (getLast_least hbefore hend ha)
    · exact hcross a ha b hb

theorem orderedInsert_append (r : entry -> entry -> Prop) [DecidableRel r]
    {before passed : List entry} {e : entry} (hbefore : forall a, a ∈ before -> ¬ r e a)
    (hpassed : forall a, a ∈ passed -> r e a) :
    (before ++ passed).orderedInsert r e = before ++ e :: passed := by
  induction before with
  | nil =>
      cases passed with
      | nil => rfl
      | cons a passed => exact List.orderedInsert_cons_of_le r _ (hpassed a List.mem_cons_self)
  | cons a before ih =>
      rw [List.cons_append, List.orderedInsert_of_not_le r _ (hbefore a List.mem_cons_self),
        ih (fun b hb => hbefore b (List.mem_cons_of_mem a hb)), List.cons_append]

/-- From the end of a ranked list it rises to where it is inserted in order. -/
theorem rise_eq_orderedInsert {list : List entry} {e : entry}
    (hstays : forall a, stays e a <-> rank e < rank a) (hranked : Ranked rank list) :
    (rise stays (list ++ [e]) list.length).1 =
      list.orderedInsert (NotBelow rank) e := by
  rcases rise_append stays list [] e with ⟨before, passed, hlist, hrise, hlast, hpassed⟩
  rw [hrise, List.append_nil, hlist]
  rw [hlist] at hranked
  symm
  apply orderedInsert_append
  · intro a ha
    unfold NotBelow
    rw [not_le]
    cases hend : before.getLast? with
    | none =>
        rw [List.getLast?_eq_none_iff.mp hend] at ha
        cases ha
    | some last =>
        exact lt_of_lt_of_le ((hstays last).mp (hlast last hend))
          (getLast_least (ranked_append.mp hranked).left hend ha)
  · intro a ha
    exact not_lt.mp (fun hlt => hpassed a ha ((hstays a).mpr hlt))

end Ranked

/-!
# The best entries

What is cut off a list is never needed again: an insertion into the first entries gives
the first entries of what the insertion into the whole list gives.
-/

theorem take_orderedInsert (r : entry -> entry -> Prop) [DecidableRel r] (n : Nat)
    (list : List entry) (e : entry) :
    ((list.take n).orderedInsert r e).take n = (list.orderedInsert r e).take n := by
  induction list generalizing n with
  | nil => rw [List.take_nil]
  | cons a list ih =>
      cases n with
      | zero => rw [List.take_zero, List.take_zero]
      | succ n =>
          rw [List.take_succ_cons]
          by_cases ha : r e a
          · rw [List.orderedInsert_cons_of_le r _ ha, List.orderedInsert_cons_of_le r _ ha,
              List.take_succ_cons, List.take_succ_cons]
            cases n with
            | zero => rfl
            | succ n => rw [List.take_succ_cons, List.take_succ_cons, List.take_take,
                Nat.min_eq_left (Nat.le_succ n)]
          · rw [List.orderedInsert_of_not_le r _ ha, List.orderedInsert_of_not_le r _ ha,
              List.take_succ_cons, List.take_succ_cons, ih]

/-!
# Ties

Entries are numbered in the order in which they come.  Of two with the same rank the later
one stands in front.
-/

section Ties

variable [LinearOrder value] (rank : entry -> value)

/-- The first one stands in front of the second one, or is the second one. -/
def InFront (one two : entry × Nat) : Prop :=
  rank two.1 < rank one.1 ∨ (rank one.1 = rank two.1 ∧ two.2 ≤ one.2)

instance (one two : entry × Nat) : Decidable (InFront rank one two) :=
  inferInstanceAs (Decidable (_ ∨ _))

theorem inFront_iff {one two : entry × Nat} :
    InFront rank one two <-> toLex (rank two.1, two.2) ≤ toLex (rank one.1, one.2) := by
  unfold InFront
  rw [Prod.Lex.toLex_le_toLex]
  exact or_congr_right (and_congr_left' eq_comm)

instance : Std.Total (InFront rank) where
  total one two := by
    rw [inFront_iff, inFront_iff]
    exact le_total _ _

instance : IsTrans (entry × Nat) (InFront rank) where
  trans one two three := by
    rw [inFront_iff, inFront_iff, inFront_iff]
    exact fun hfirst hsecond => hsecond.trans hfirst

/-- All entries, the best one first. -/
def ranking (entries : List entry) : List entry :=
  (entries.zipIdx.insertionSort (InFront rank)).map Prod.fst

theorem ranked_ranking (entries : List entry) : Ranked rank (ranking rank entries) := by
  unfold Ranked ranking
  rw [List.pairwise_map]
  apply List.Pairwise.imp _ (List.pairwise_insertionSort (InFront rank) entries.zipIdx)
  intro one two hfront
  rcases hfront with hlt | ⟨heq, _⟩
  · exact le_of_lt hlt
  · exact le_of_eq heq.symm

theorem lt_of_mem_zipIdx {entries : List entry} {it : entry × Nat}
    (h : it ∈ entries.zipIdx) : it.2 < entries.length := by
  rw [List.mk_mem_zipIdx_iff_getElem?] at h
  exact (List.getElem?_eq_some_iff.mp h).choose

/-- A sorted list of numbered entries is known from its entries. -/
theorem zipIdx_sorted_unique {entries : List entry} {one two : List (entry × Nat)}
    (hone : one.Pairwise (InFront rank)) (htwo : two.Pairwise (InFront rank))
    (honePerm : one.Perm entries.zipIdx) (htwoPerm : two.Perm entries.zipIdx) : one = two := by
  apply List.Perm.eq_of_pairwise _ hone htwo (honePerm.trans htwoPerm.symm)
  intro a b ha hb hab hba
  rw [inFront_iff] at hab hba
  have hsame := toLex.injective (le_antisymm hba hab)
  have hplace : a.2 = b.2 := (Prod.mk.inj hsame).right
  have hgetA := List.mk_mem_zipIdx_iff_getElem?.mp (honePerm.mem_iff.mp ha)
  have hgetB := List.mk_mem_zipIdx_iff_getElem?.mp (htwoPerm.mem_iff.mp hb)
  rw [hplace, hgetB] at hgetA
  exact Prod.ext (Option.some.inj hgetA).symm hplace

/-- The next entry goes in front of the entries that are not above it. -/
theorem ranking_concat (entries : List entry) (e : entry) :
    ranking rank (entries ++ [e]) =
      (ranking rank entries).orderedInsert (NotBelow rank) e := by
  have hzip : (entries ++ [e]).zipIdx = entries.zipIdx ++ [(e, entries.length)] := by
    rw [List.zipIdx_append, Nat.zero_add]
    rfl
  have hnew : forall it, it ∈ entries.zipIdx.insertionSort (InFront rank) ->
      (InFront rank (e, entries.length) it <-> NotBelow rank e it.1) := by
    intro it hit
    have hearlier := lt_of_mem_zipIdx ((List.mem_insertionSort _).mp hit)
    unfold InFront NotBelow
    rw [and_iff_left (Nat.le_of_lt hearlier), eq_comm, le_iff_lt_or_eq]
  have hsorted : (entries ++ [e]).zipIdx.insertionSort (InFront rank) =
      (entries.zipIdx.insertionSort (InFront rank)).orderedInsert (InFront rank)
        (e, entries.length) := by
    apply zipIdx_sorted_unique rank (List.pairwise_insertionSort _ _)
      (List.Pairwise.orderedInsert _ _ (List.pairwise_insertionSort _ _))
      (List.perm_insertionSort _ _)
    rw [hzip]
    exact ((List.perm_orderedInsert _ _ _).trans
      ((List.perm_insertionSort _ _).cons _)).trans (List.perm_append_singleton _ _).symm
  unfold ranking
  rw [hsorted]
  generalize entries.zipIdx.insertionSort (InFront rank) = sorted at hnew
  induction sorted with
  | nil => rfl
  | cons it sorted ih =>
      have hit := hnew it List.mem_cons_self
      have hrest := ih (fun other h => hnew other (List.mem_cons_of_mem it h))
      by_cases hfront : InFront rank (e, entries.length) it
      · rw [List.orderedInsert_cons_of_le _ _ hfront, List.map_cons, List.map_cons,
          List.orderedInsert_cons_of_le _ _ (hit.mp hfront)]
      · rw [List.orderedInsert_of_not_le _ _ hfront, List.map_cons, List.map_cons,
          List.orderedInsert_of_not_le _ _ (fun h => hfront (hit.mpr h)), hrest]

end Ties

end Ranking
end GMServer
