import GMServer.Library.Ranking
import GMServer.Utils.AssertUtils

/-!
# Rank lists

A `TRank` keeps the best of the entries that were added to it.  Every addition goes to
the end of the vector, rises, and pushes the last entry out when there are too many.
-/

namespace GMServer
namespace Utils

structure TRank (KeyType ValueType : Type) where
  MaxSize : uint32_t
  vRank : List (KeyType × ValueType)
  deriving DecidableEq, Repr

namespace TRank

variable {KeyType ValueType : Type}

def new (iMaxSize : uint32_t) : TRank KeyType ValueType := { MaxSize := iMaxSize, vRank := [] }

section

variable [LinearOrder ValueType]

def Add (rank : TRank KeyType ValueType) (key : KeyType) (value : ValueType) :
    TRank KeyType ValueType :=
  let pushed := rank.vRank ++ [(key, value)]
  let risen := (Ranking.rise (fun stBack stFront => stBack.2 < stFront.2) pushed
    (pushed.length - 1)).1
  { rank with
    vRank := if rank.MaxSize.toNat < risen.length then risen.dropLast else risen }

/-- The calls of `Add`, one after the other. -/
def addAll (rank : TRank KeyType ValueType) (added : List (KeyType × ValueType)) :
    TRank KeyType ValueType :=
  added.foldl (fun rank it => rank.Add it.1 it.2) rank

/-- An addition to the first entries of a ranked list. -/
theorem Add_vRank {rank : TRank KeyType ValueType} {all : List (KeyType × ValueType)}
    (hranked : Ranking.Ranked Prod.snd all)
    (hbest : rank.vRank = all.take rank.MaxSize.toNat) (it : KeyType × ValueType) :
    (rank.Add it.1 it.2).vRank =
      (all.orderedInsert (Ranking.NotBelow Prod.snd) it).take rank.MaxSize.toNat := by
  have hkept : Ranking.Ranked Prod.snd rank.vRank := by
    rw [hbest]
    exact List.Pairwise.sublist (List.take_sublist _ _) hranked
  have hlength : rank.vRank.length ≤ rank.MaxSize.toNat := by
    rw [hbest]
    exact List.length_take_le _ _
  have hrisen : (Ranking.rise (fun stBack stFront : KeyType × ValueType => stBack.2 < stFront.2)
      (rank.vRank ++ [it]) rank.vRank.length).1 =
        rank.vRank.orderedInsert (Ranking.NotBelow Prod.snd) it :=
    Ranking.rise_eq_orderedInsert (fun stFront => Iff.rfl) hkept
  unfold Add
  dsimp only
  rw [List.length_append, List.length_singleton, Nat.add_sub_cancel, hrisen,
    List.orderedInsert_length, ← Ranking.take_orderedInsert, ← hbest]
  by_cases hfull : rank.MaxSize.toNat < rank.vRank.length + 1
  · have hsize : rank.vRank.length = rank.MaxSize.toNat :=
      Nat.le_antisymm hlength (Nat.le_of_lt_succ hfull)
    rw [if_pos hfull, List.dropLast_eq_take, List.orderedInsert_length, Nat.add_sub_cancel,
      hsize]
  · rw [if_neg hfull, List.take_of_length_le]
    rw [List.orderedInsert_length]
    exact Nat.le_of_not_lt hfull

@[simp] theorem addAll_MaxSize (rank : TRank KeyType ValueType)
    (added : List (KeyType × ValueType)) : (rank.addAll added).MaxSize = rank.MaxSize := by
  induction added generalizing rank with
  | nil => rfl
  | cons it added ih => exact ih (rank.Add it.1 it.2)

theorem addAll_concat (rank : TRank KeyType ValueType) (added : List (KeyType × ValueType))
    (it : KeyType × ValueType) :
    rank.addAll (added ++ [it]) = (rank.addAll added).Add it.1 it.2 := by
  unfold addAll
  rw [List.foldl_append, List.foldl_cons, List.foldl_nil]

/-- The vector holds the best entries of all that were ever added, best first, the later
one of two equal values in front. -/
theorem vRank_best (iMaxSize : uint32_t) (added : List (KeyType × ValueType)) :
    ((new iMaxSize).addAll added).vRank =
      (Ranking.ranking Prod.snd added).take iMaxSize.toNat := by
  induction added using List.reverseRecOn with
  | nil => exact List.take_nil.symm
  | append_singleton added it ih =>
      have hsize : ((new iMaxSize).addAll added).MaxSize = iMaxSize := addAll_MaxSize _ _
      have hadd := Add_vRank (Ranking.ranked_ranking Prod.snd added)
        (ih.trans (congrArg (fun size => List.take (BitVec.toNat size) _) hsize.symm)) it
      rw [addAll_concat, Ranking.ranking_concat, hadd, hsize]

example : ((new 2).addAll [('a', 5), ('b', 7), ('c', 5), ('d', 6), ('e', 6)]).vRank =
    [('b', 7), ('e', 6)] := by
  decide

end

end TRank

end Utils
end GMServer
