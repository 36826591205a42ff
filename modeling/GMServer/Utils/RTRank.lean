import Mathlib.Data.Finset.Erase
import Mathlib.Data.Finset.Insert
import GMServer.Library.Ranking
import GMServer.Library.Transition
import GMServer.Utils.AssertUtils

/-!
# Rank lists with changing values

A `TRTRank` has one entry for each key.  An addition for a key that is listed changes the
value of its entry; an entry that was changed or is new rises, and the last one goes when
there are too many.  The listed keys are also kept in a set.
-/

namespace GMServer
namespace Utils

structure TRTRank (KeyType ValueType : Type) where
  MaxSize : uint32_t
  vRank : List (KeyType × ValueType)
  vKey : Finset KeyType
  deriving DecidableEq

inductive RankCall (KeyType ValueType : Type) where
  | Add (key : KeyType) (value : ValueType)
  | Remove (key : KeyType)
  | Clear
  deriving DecidableEq, Repr

namespace TRTRank

open Transition

variable {KeyType ValueType : Type}

def new (iMaxSize : uint32_t) : TRTRank KeyType ValueType :=
  { MaxSize := iMaxSize, vRank := [], vKey := ∅ }

/-!
# The operations

Iterators are positions in the list.
-/

section Operations

variable [DecidableEq KeyType]

def popBack (rank : TRTRank KeyType ValueType) : TRTRank KeyType ValueType :=
  match rank.vRank.getLast? with
  | none => rank
  | some back =>
      { rank with vKey := rank.vKey.erase back.1, vRank := rank.vRank.dropLast }

def Remove (rank : TRTRank KeyType ValueType) (key : KeyType) :
    TRTRank KeyType ValueType × Bool :=
  if key ∈ rank.vKey then
    ({ rank with
        vRank := rank.vRank.eraseP (fun it => it.1 = key),
        vKey := rank.vKey.erase key }, true)
  else (rank, false)

def Clear (rank : TRTRank KeyType ValueType) : TRTRank KeyType ValueType :=
  { rank with vRank := [], vKey := ∅ }

variable [LinearOrder ValueType]

/-- The loop, with the position at which it leaves `itNew`. -/
def moveUp (vRank : List (KeyType × ValueType)) (itNew : Nat) :
    List (KeyType × ValueType) × Nat :=
  Ranking.rise (fun stNew stBefore => stNew.2 ≤ stBefore.2) vRank itNew

/-- The comparison with the first entry behind the loop. -/
def swapBegin (vRank : List (KeyType × ValueType)) (itNew : Nat) :
    List (KeyType × ValueType) :=
  match vRank[itNew]?, vRank[0]? with
  | some stNew, some stBegin =>
      if stBegin.2 < stNew.2 then (vRank.set itNew stBegin).set 0 stNew else vRank
  | _, _ => vRank

/-- What `Add` does once `itNew` is found. -/
def settle (rank : TRTRank KeyType ValueType) (itNew : Nat) : TRTRank KeyType ValueType :=
  if rank.vRank.length = 1 then rank
  else
    let risen := moveUp rank.vRank itNew
    let moved := { rank with vRank := swapBegin risen.1 risen.2 }
    if moved.MaxSize.toNat < moved.vRank.length then moved.popBack else moved

variable [HAdd ValueType ValueType ValueType]

/-- No result stands for the use of `vRank.end()`. -/
def Add (rank : TRTRank KeyType ValueType) (key : KeyType) (value : ValueType) :
    Option (TRTRank KeyType ValueType) :=
  if key ∈ rank.vKey then
    match rank.vRank.findIdx? (fun it => it.1 = key) with
    | some itNew =>
        let vRank := rank.vRank.modify itNew (fun it => (it.1, it.2 + value))
        some ({ rank with vRank := vRank }.settle itNew)
    | none => if rank.vRank.length = 1 then some rank else none
  else
    let vRank := rank.vRank ++ [(key, value)]
    some ({ rank with vRank := vRank, vKey := insert key rank.vKey }.settle rank.vRank.length)

def step (rank : TRTRank KeyType ValueType) :
    RankCall KeyType ValueType -> Option (TRTRank KeyType ValueType)
  | .Add key value => rank.Add key value
  | .Remove key => some (rank.Remove key).1
  | .Clear => some rank.Clear

end Operations

/-- `KeyType()` if there is no entry. -/
def Front [Inhabited KeyType] (rank : TRTRank KeyType ValueType) : KeyType :=
  match rank.vRank.head? with
  | none => default
  | some front => front.1

def Listed (rank : TRTRank KeyType ValueType) (key : KeyType) : Prop :=
  key ∈ rank.vRank.map Prod.fst

/-!
# What one addition does

The entries behind `settle` are those before it in another order, less the last one when
there are too many.
-/

section Settle

variable [LinearOrder ValueType]

theorem swapBegin_perm (vRank : List (KeyType × ValueType)) (itNew : Nat) :
    (swapBegin vRank itNew).Perm vRank := by
  unfold swapBegin
  cases hnew : vRank[itNew]? with
  | none => exact List.Perm.refl _
  | some stNew =>
      cases hbegin : vRank[0]? with
      | none => exact List.Perm.refl _
      | some stBegin =>
          rcases List.getElem?_eq_some_iff.mp hnew with ⟨hitNew, hstNew⟩
          rcases List.getElem?_eq_some_iff.mp hbegin with ⟨hzero, hstBegin⟩
          dsimp only
          split
          · have hswap := List.set_set_perm hitNew hzero
            rw [hstNew, hstBegin] at hswap
            exact hswap
          · exact List.Perm.refl _

omit [LinearOrder ValueType] in
theorem popBack_concat [DecidableEq KeyType] (rank : TRTRank KeyType ValueType)
    (kept : List (KeyType × ValueType)) (back : KeyType × ValueType) :
    { rank with vRank := kept ++ [back] }.popBack =
      { rank with vKey := rank.vKey.erase back.1, vRank := kept } := by
  unfold popBack
  dsimp only
  rw [List.getLast?_concat, List.dropLast_concat]

theorem settle_cases [DecidableEq KeyType] (rank : TRTRank KeyType ValueType) {itNew : Nat}
    (hitNew : itNew < rank.vRank.length) :
    exists list, list.Perm rank.vRank ∧
      ((rank.settle itNew = { rank with vRank := list } ∧
          (list.length ≤ rank.MaxSize.toNat ∨ list.length = 1)) ∨
        exists kept back, list = kept ++ [back] ∧
          rank.settle itNew =
            { rank with vKey := rank.vKey.erase back.1, vRank := kept }) := by
  by_cases hone : rank.vRank.length = 1
  · refine ⟨rank.vRank, List.Perm.refl _, Or.inl ⟨?_, Or.inr hone⟩⟩
    unfold settle
    rw [if_pos hone]
  · have hrisen : (moveUp rank.vRank itNew).1.Perm rank.vRank :=
      Ranking.rise_perm _ rank.vRank hitNew
    have hmoved := (swapBegin_perm _ (moveUp rank.vRank itNew).2).trans hrisen
    unfold settle
    rw [if_neg hone]
    dsimp only
    generalize swapBegin (moveUp rank.vRank itNew).1 (moveUp rank.vRank itNew).2 = list at hmoved
    refine ⟨list, hmoved, ?_⟩
    by_cases hfull : rank.MaxSize.toNat < list.length
    · right
      have hne : list ≠ [] := List.ne_nil_of_length_pos (Nat.zero_lt_of_lt hfull)
      rw [if_pos hfull]
      refine ⟨list.dropLast, list.getLast hne, (List.dropLast_concat_getLast hne).symm, ?_⟩
      rw [← popBack_concat, List.dropLast_concat_getLast]
    · left
      rw [if_neg hfull]
      exact ⟨rfl, Or.inl (Nat.le_of_not_lt hfull)⟩

end Settle

/-!
# The index

The set has the keys of the list, and no key is listed twice.
-/

structure Indexed (rank : TRTRank KeyType ValueType) : Prop where
  distinct : (rank.vRank.map Prod.fst).Nodup
  keys : forall key, key ∈ rank.vKey <-> rank.Listed key
  size : rank.vRank.length ≤ max rank.MaxSize.toNat 1

theorem indexed_new (iMaxSize : uint32_t) :
    Indexed (new iMaxSize : TRTRank KeyType ValueType) where
  distinct := List.nodup_nil
  keys := fun key => ⟨fun h => absurd h (Finset.notMem_empty key), fun h => by cases h⟩
  size := Nat.zero_le _

section Index

variable [DecidableEq KeyType]

theorem indexed_popped {rank : TRTRank KeyType ValueType}
    {kept : List (KeyType × ValueType)} {back : KeyType × ValueType}
    (hdistinct : ((kept ++ [back]).map Prod.fst).Nodup)
    (hkeys : forall key, key ∈ rank.vKey <-> key ∈ (kept ++ [back]).map Prod.fst)
    (hsize : kept.length ≤ max rank.MaxSize.toNat 1) :
    Indexed { rank with vKey := rank.vKey.erase back.1, vRank := kept } := by
  rw [List.map_append, List.map_singleton, List.nodup_append'] at hdistinct
  rcases hdistinct with ⟨hkept, _, hback⟩
  refine { distinct := hkept, keys := ?_, size := hsize }
  intro key
  rw [Finset.mem_erase, hkeys, List.map_append, List.mem_append, List.map_singleton,
    List.mem_singleton]
  constructor
  · intro h
    exact h.right.resolve_right h.left
  · intro hlisted
    refine ⟨?_, Or.inl hlisted⟩
    intro hEq
    exact hback (hEq ▸ hlisted) List.mem_cons_self

variable [LinearOrder ValueType]

theorem indexed_settle {rank : TRTRank KeyType ValueType} {itNew : Nat}
    (hitNew : itNew < rank.vRank.length) (hdistinct : (rank.vRank.map Prod.fst).Nodup)
    (hkeys : forall key, key ∈ rank.vKey <-> rank.Listed key)
    (hsize : rank.vRank.length ≤ max rank.MaxSize.toNat 1 + 1) :
    Indexed (rank.settle itNew) := by
  rcases settle_cases rank hitNew with ⟨list, hperm, hcases⟩
  have hlistKeys := hperm.map Prod.fst
  have hlistDistinct := hlistKeys.nodup_iff.mpr hdistinct
  have hlistMem : forall key, key ∈ rank.vKey <-> key ∈ list.map Prod.fst :=
    fun key => (hkeys key).trans hlistKeys.mem_iff.symm
  rcases hcases with ⟨hsettle, hbound⟩ | ⟨kept, back, hlist, hsettle⟩
  · rw [hsettle]
    refine { distinct := hlistDistinct, keys := hlistMem, size := ?_ }
    rcases hbound with hbound | hone
    · exact hbound.trans (Nat.le_max_left _ _)
    · exact (Nat.le_of_eq hone).trans (Nat.le_max_right _ _)
  · rw [hlist] at hlistDistinct hlistMem
    rw [← hperm.length_eq, hlist, List.length_append, List.length_singleton] at hsize
    rw [hsettle]
    exact indexed_popped hlistDistinct hlistMem (Nat.le_of_succ_le_succ hsize)

theorem mem_settle {rank : TRTRank KeyType ValueType} {itNew : Nat}
    (hitNew : itNew < rank.vRank.length) {it : KeyType × ValueType}
    (h : it ∈ (rank.settle itNew).vRank) : it ∈ rank.vRank := by
  rcases settle_cases rank hitNew with ⟨list, hperm, ⟨hsettle, _⟩ | ⟨kept, back, hlist, hsettle⟩⟩
  · rw [hsettle] at h
    exact hperm.mem_iff.mp h
  · rw [hsettle] at h
    apply hperm.mem_iff.mp
    rw [hlist]
    exact List.mem_append_left _ h

end Index

/-!
# One call

An addition first puts the entry into the list, or changes it where it is.
-/

section Calls

variable [DecidableEq KeyType] [HAdd ValueType ValueType ValueType]

inductive Placed (rank : TRTRank KeyType ValueType) (key : KeyType) (value : ValueType) :
    TRTRank KeyType ValueType -> Nat -> Prop where
  | changed {before after : List (KeyType × ValueType)} {old : ValueType}
      (hfound : rank.vRank = before ++ (key, old) :: after) :
      Placed rank key value { rank with vRank := before ++ (key, old + value) :: after }
        before.length
  | pushed (hnew : ¬ rank.Listed key) :
      Placed rank key value
        { rank with vRank := rank.vRank ++ [(key, value)], vKey := insert key rank.vKey }
        rank.vRank.length

theorem Placed.inside {rank placed : TRTRank KeyType ValueType} {key : KeyType}
    {value : ValueType} {itNew : Nat} (h : Placed rank key value placed itNew) :
    itNew < placed.vRank.length := by
  cases h with
  | changed hfound =>
      dsimp only
      rw [List.length_append, List.length_cons]
      exact Nat.lt_add_of_pos_right (Nat.succ_pos _)
  | pushed hnew =>
      dsimp only
      rw [List.length_append, List.length_singleton]
      exact Nat.lt_succ_self _

/-- Only the entry of the key itself is not an old one. -/
theorem Placed.mem {rank placed : TRTRank KeyType ValueType} {key : KeyType}
    {value : ValueType} {itNew : Nat} (h : Placed rank key value placed itNew)
    {it : KeyType × ValueType} (hit : it ∈ placed.vRank) (hother : it.1 ≠ key) :
    it ∈ rank.vRank := by
  cases h with
  | changed hfound =>
      rw [hfound]
      rcases List.mem_append.mp hit with hbefore | hafter
      · exact List.mem_append_left _ hbefore
      · rcases List.mem_cons.mp hafter with hsame | hafter
        · rw [hsame] at hother
          exact absurd rfl hother
        · exact List.mem_append_right _ (List.mem_cons_of_mem _ hafter)
  | pushed hnew =>
      rcases List.mem_append.mp hit with hold | hlast
      · exact hold
      · rw [List.mem_singleton.mp hlast] at hother
        exact absurd rfl hother

variable [LinearOrder ValueType]

theorem Add_found {rank : TRTRank KeyType ValueType} (hindexed : rank.Indexed)
    {before after : List (KeyType × ValueType)} {key : KeyType} {old : ValueType}
    (hfound : rank.vRank = before ++ (key, old) :: after) (value : ValueType) :
    rank.Add key value =
      some ({ rank with vRank := before ++ (key, old + value) :: after }.settle
        before.length) := by
  have hlisted : key ∈ rank.vKey := by
    rw [hindexed.keys, Listed, hfound, List.map_append, List.map_cons]
    exact List.mem_append_right _ List.mem_cons_self
  have hdistinct := hindexed.distinct
  rw [hfound, List.map_append, List.map_cons, List.nodup_append'] at hdistinct
  have hbefore : before.findIdx? (fun it => it.1 = key) = none := by
    rw [List.findIdx?_eq_none_iff]
    intro it hit
    apply decide_eq_false
    intro hkey
    have hearlier : key ∈ before.map Prod.fst := List.mem_map.mpr ⟨it, hit, hkey⟩
    exact hdistinct.right.right hearlier List.mem_cons_self
  have hfind : (before ++ (key, old) :: after).findIdx? (fun it => it.1 = key) =
      some before.length := by
    rw [List.findIdx?_append, hbefore, List.findIdx?_cons, decide_eq_true rfl, if_pos rfl]
    exact congrArg some (Nat.zero_add _)
  have hmodify : (before ++ (key, old) :: after).modify before.length
      (fun it => (it.1, it.2 + value)) = before ++ (key, old + value) :: after :=
    List.modifyTailIdx_add (List.modifyHead _) 0 before ((key, old) :: after)
  unfold Add
  rw [if_pos hlisted, hfound, hfind]
  dsimp only
  rw [hmodify]

theorem Add_placed {rank : TRTRank KeyType ValueType} (hindexed : rank.Indexed)
    (key : KeyType) (value : ValueType) :
    exists placed itNew, Placed rank key value placed itNew ∧
      rank.Add key value = some (placed.settle itNew) := by
  by_cases hlisted : rank.Listed key
  · rcases List.mem_map.mp hlisted with ⟨it, hit, hkey⟩
    rcases List.append_of_mem hit with ⟨before, after, hlist⟩
    have hfound : rank.vRank = before ++ (key, it.2) :: after := by rw [hlist, ← hkey]
    exact ⟨_, _, .changed hfound, Add_found hindexed hfound value⟩
  · refine ⟨_, _, .pushed hlisted, ?_⟩
    unfold Add
    rw [if_neg (mt (hindexed.keys key).mp hlisted)]

theorem Placed.indexed_settle {rank placed : TRTRank KeyType ValueType} {key : KeyType}
    {value : ValueType} {itNew : Nat} (h : Placed rank key value placed itNew)
    (hindexed : rank.Indexed) : (placed.settle itNew).Indexed := by
  apply TRTRank.indexed_settle h.inside
  · cases h with
    | changed hfound =>
        have hdistinct := hindexed.distinct
        rw [hfound, List.map_append, List.map_cons] at hdistinct
        rw [List.map_append, List.map_cons]
        exact hdistinct
    | pushed hnew =>
        rw [List.map_append, List.map_singleton]
        exact List.nodup_append_comm.mp (List.nodup_cons.mpr ⟨hnew, hindexed.distinct⟩)
  · intro other
    cases h with
    | changed hfound =>
        have hkeys := hindexed.keys other
        unfold Listed at hkeys ⊢
        rw [hfound, List.map_append, List.map_cons] at hkeys
        rw [List.map_append, List.map_cons]
        exact hkeys
    | pushed hnew =>
        unfold Listed
        rw [Finset.mem_insert, hindexed.keys, List.map_append, List.mem_append,
          List.map_singleton, List.mem_singleton, or_comm]
        rfl
  · have hsize := hindexed.size
    cases h with
    | changed hfound =>
        rw [hfound, List.length_append, List.length_cons] at hsize
        rw [List.length_append, List.length_cons]
        exact Nat.le_succ_of_le hsize
    | pushed hnew =>
        rw [List.length_append, List.length_singleton]
        exact Nat.succ_le_succ hsize

omit [HAdd ValueType ValueType ValueType] [LinearOrder ValueType] in
theorem eraseP_key {list : List (KeyType × ValueType)} (hdistinct : (list.map Prod.fst).Nodup)
    (key : KeyType) :
    list.eraseP (fun it => it.1 = key) = list.filter (fun it => it.1 ≠ key) := by
  induction list with
  | nil => rfl
  | cons it rest ih =>
      rw [List.map_cons, List.nodup_cons] at hdistinct
      rcases hdistinct with ⟨hfirst, hrest⟩
      by_cases hkey : it.1 = key
      · have hsame : decide (it.1 = key) = true := decide_eq_true hkey
        have hgone : ¬ decide (it.1 ≠ key) = true := fun h => of_decide_eq_true h hkey
        rw [List.eraseP_cons, hsame, cond_true, List.filter_cons, if_neg hgone,
          List.filter_eq_self.mpr]
        intro other hother
        apply decide_eq_true
        intro hsame
        exact hfirst (List.mem_map.mpr ⟨other, hother, hsame.trans hkey.symm⟩)
      · have hother : decide (it.1 = key) = false := decide_eq_false hkey
        rw [List.eraseP_cons, hother, cond_false, List.filter_cons,
          if_pos (decide_eq_true hkey), ih hrest]

omit [HAdd ValueType ValueType ValueType] [LinearOrder ValueType] in
theorem Remove_eq {rank : TRTRank KeyType ValueType} (hindexed : rank.Indexed)
    (key : KeyType) :
    (rank.Remove key).1 =
        { rank with
          vRank := rank.vRank.filter (fun it => it.1 ≠ key), vKey := rank.vKey.erase key } ∧
      ((rank.Remove key).2 = true <-> rank.Listed key) := by
  unfold Remove
  by_cases hlisted : key ∈ rank.vKey
  · rw [if_pos hlisted, eraseP_key hindexed.distinct]
    exact ⟨rfl, iff_of_true rfl ((hindexed.keys key).mp hlisted)⟩
  · have habsent := mt (hindexed.keys key).mpr hlisted
    rw [if_neg hlisted, Finset.erase_eq_of_notMem hlisted, List.filter_eq_self.mpr]
    · exact ⟨rfl, iff_of_false Bool.false_ne_true habsent⟩
    · intro it hit
      apply decide_eq_true
      intro hkey
      exact habsent (List.mem_map.mpr ⟨it, hit, hkey⟩)

omit [HAdd ValueType ValueType ValueType] [LinearOrder ValueType] in
theorem indexed_Remove {rank : TRTRank KeyType ValueType} (hindexed : rank.Indexed)
    (key : KeyType) : (rank.Remove key).1.Indexed := by
  rw [(Remove_eq hindexed key).left]
  refine { distinct := ?_, keys := ?_, size := ?_ }
  · exact hindexed.distinct.sublist ((List.filter_sublist).map Prod.fst)
  · intro other
    unfold Listed
    rw [Finset.mem_erase, hindexed.keys, Listed, List.mem_map, List.mem_map]
    constructor
    · intro ⟨hother, it, hit, hkey⟩
      refine ⟨it, List.mem_filter.mpr ⟨hit, decide_eq_true ?_⟩, hkey⟩
      rw [hkey]
      exact hother
    · intro ⟨it, hit, hkey⟩
      rcases List.mem_filter.mp hit with ⟨hold, hother⟩
      rw [← hkey]
      exact ⟨of_decide_eq_true hother, it, hold, rfl⟩
  · exact (List.length_filter_le _ _).trans hindexed.size

theorem indexed_step {rank : TRTRank KeyType ValueType} (hindexed : rank.Indexed)
    (call : RankCall KeyType ValueType) :
    exists next, step rank call = some next ∧ next.Indexed := by
  cases call with
  | Add key value =>
      rcases Add_placed hindexed key value with ⟨placed, itNew, hplaced, hadd⟩
      exact ⟨placed.settle itNew, hadd, hplaced.indexed_settle hindexed⟩
  | Remove key => exact ⟨(rank.Remove key).1, rfl, indexed_Remove hindexed key⟩
  | Clear =>
      refine ⟨rank.Clear, rfl, { distinct := List.nodup_nil, keys := ?_, size := Nat.zero_le _ }⟩
      exact fun key => ⟨fun h => absurd h (Finset.notMem_empty key), fun h => by cases h⟩

/-!
# The index along a run

What the calls do to the entries of other keys, and what `Remove` answers.
-/

/-- The call comes to its end, and leaves the other keys alone. -/
def Faithful (rank : TRTRank KeyType ValueType) (call : RankCall KeyType ValueType) : Prop :=
  exists next, step rank call = some next ∧
    match call with
    | .Add key _ => forall it, it ∈ next.vRank -> it.1 ≠ key -> it ∈ rank.vRank
    | .Remove key =>
        ((rank.Remove key).2 = true <-> rank.Listed key) ∧
          next.vRank = rank.vRank.filter (fun it => it.1 ≠ key)
    | .Clear => next.vRank = []

theorem faithful_step {rank : TRTRank KeyType ValueType} (hindexed : rank.Indexed)
    (call : RankCall KeyType ValueType) : Faithful rank call := by
  cases call with
  | Add key value =>
      rcases Add_placed hindexed key value with ⟨placed, itNew, hplaced, hadd⟩
      refine ⟨placed.settle itNew, hadd, ?_⟩
      intro it hit hother
      exact hplaced.mem (mem_settle hplaced.inside hit) hother
  | Remove key =>
      rcases Remove_eq hindexed key with ⟨hremoved, hanswer⟩
      exact ⟨(rank.Remove key).1, rfl, hanswer, congrArg vRank hremoved⟩
  | Clear => exact ⟨rank.Clear, rfl, rfl⟩

/-- Along every run the set has the keys of the list, and a call is about its key alone. -/
theorem index_matches (iMaxSize : uint32_t) (calls : List (RankCall KeyType ValueType)) :
    AllStates step Indexed (new iMaxSize) calls ∧
      AllSteps step Faithful (new iMaxSize) calls := by
  have hkeep : forall (rank : TRTRank KeyType ValueType) call next, rank.Indexed -> True ->
      step rank call = some next -> next.Indexed := by
    intro rank call next hindexed _ hstep
    rcases indexed_step hindexed call with ⟨after, hafter, hkept⟩
    rw [hstep] at hafter
    cases hafter
    exact hkept
  have hall : AllSteps step (fun _ _ => True) (new iMaxSize) calls :=
    allSteps_of_labels (fun _ _ _ => trivial) _
  constructor
  · exact allStates_of_invariant hkeep (fun _ hindexed => hindexed) (indexed_new iMaxSize) hall
  · exact allSteps_of_invariant hkeep (fun rank call hindexed _ => faithful_step hindexed call)
      (indexed_new iMaxSize) hall

end Calls

/-!
# Order

An entry only ever rises.  One whose value falls below that of the entry behind it stays
where it is.
-/

section Order

variable [LinearOrder ValueType]

def Ordered [Inhabited KeyType] (rank : TRTRank KeyType ValueType) : Prop :=
  Ranking.Ranked Prod.snd rank.vRank ∧
    forall it, it ∈ rank.vRank ->
      exists top, top ∈ rank.vRank ∧ top.1 = rank.Front ∧ it.2 ≤ top.2

instance [DecidableEq KeyType] [Inhabited KeyType] (rank : TRTRank KeyType ValueType) :
    Decidable rank.Ordered :=
  inferInstanceAs (Decidable (_ ∧ _))

theorem ordered_iff [Inhabited KeyType] (rank : TRTRank KeyType ValueType) :
    rank.Ordered <-> Ranking.Ranked Prod.snd rank.vRank := by
  refine and_iff_left_of_imp ?_
  intro hranked it hit
  unfold Front
  cases hlist : rank.vRank with
  | nil =>
      rw [hlist] at hit
      cases hit
  | cons front rest =>
      rw [hlist] at hit hranked
      refine ⟨front, List.mem_cons_self, rfl, ?_⟩
      rcases List.mem_cons.mp hit with hsame | hbehind
      · rw [hsame]
      · exact (Ranking.ranked_cons.mp hranked).left it hbehind

theorem swapBegin_of_le {vRank : List (KeyType × ValueType)} {itNew : Nat}
    (h : forall stNew stBegin, vRank[itNew]? = some stNew -> vRank[0]? = some stBegin ->
      stNew.2 ≤ stBegin.2) : swapBegin vRank itNew = vRank := by
  unfold swapBegin
  cases hnew : vRank[itNew]? with
  | none => rfl
  | some stNew =>
      cases hbegin : vRank[0]? with
      | none => rfl
      | some stBegin =>
          dsimp only
          rw [if_neg (not_lt.mpr (h stNew stBegin hnew hbegin))]

/-- Nothing is left for the comparison with the first entry to do. -/
theorem swapBegin_ranked {vRank : List (KeyType × ValueType)}
    (hranked : Ranking.Ranked Prod.snd vRank) (itNew : Nat) :
    swapBegin vRank itNew = vRank := by
  apply swapBegin_of_le
  intro stNew stBegin hnew hbegin
  cases vRank with
  | nil => cases hnew
  | cons front rest =>
      cases hbegin
      rcases List.mem_cons.mp (List.mem_of_getElem? hnew) with hsame | hbehind
      · rw [hsame]
      · exact (Ranking.ranked_cons.mp hranked).left stNew hbehind

variable [DecidableEq KeyType]

omit [LinearOrder ValueType] in
theorem popBack_sublist (rank : TRTRank KeyType ValueType) :
    rank.popBack.vRank.Sublist rank.vRank := by
  unfold popBack
  cases rank.vRank.getLast? with
  | none => exact List.Sublist.refl _
  | some back => exact List.dropLast_sublist _

/-- The entry at `itNew` may be out of place, but not below what is behind it. -/
theorem ranked_settle {rank : TRTRank KeyType ValueType}
    {before after : List (KeyType × ValueType)} {it : KeyType × ValueType}
    (hlist : rank.vRank = before ++ it :: after)
    (hranked : Ranking.Ranked Prod.snd (before ++ after))
    (hbehind : forall b, b ∈ after -> b.2 ≤ it.2) :
    Ranking.Ranked Prod.snd (rank.settle before.length).vRank := by
  have hrisen : Ranking.Ranked Prod.snd (moveUp rank.vRank before.length).1 := by
    rw [hlist]
    exact Ranking.ranked_rise (fun a hstays => hstays) (fun a hpasses => le_of_not_ge hpasses)
      hranked hbehind
  unfold settle
  by_cases hone : rank.vRank.length = 1
  · rw [if_pos hone]
    rcases List.length_eq_one_iff.mp hone with ⟨only, honly⟩
    rw [honly]
    exact List.pairwise_singleton _ _
  · rw [if_neg hone]
    dsimp only
    rw [swapBegin_ranked hrisen]
    split
    · exact List.Pairwise.sublist (popBack_sublist _) hrisen
    · exact hrisen

/-- An entry below the one behind it, and not above those in front, is left there. -/
theorem settle_stays {rank : TRTRank KeyType ValueType}
    {before after : List (KeyType × ValueType)} {it next : KeyType × ValueType}
    (hlist : rank.vRank = before ++ it :: next :: after)
    (hfront : forall a, a ∈ before -> it.2 ≤ a.2)
    (hsize : rank.vRank.length ≤ rank.MaxSize.toNat) :
    rank.settle before.length = rank := by
  have hone : rank.vRank.length ≠ 1 := by
    rw [hlist, List.length_append, List.length_cons, List.length_cons]
    omega
  have hrisen : moveUp rank.vRank before.length = (rank.vRank, before.length) := by
    unfold moveUp
    rcases Ranking.rise_append
        (fun stNew stBefore : KeyType × ValueType => stNew.2 ≤ stBefore.2) before
        (next :: after) it with ⟨stayed, passed, hsplit, hrise, _, hpassed⟩
    have hnone : passed = [] := by
      apply List.eq_nil_iff_forall_not_mem.mpr
      intro a ha
      refine hpassed a ha (hfront a ?_)
      rw [hsplit]
      exact List.mem_append_right _ ha
    rw [hnone, List.append_nil] at hsplit
    rw [hlist, hrise, hnone, List.nil_append, ← hsplit]
  have hswap : swapBegin rank.vRank before.length = rank.vRank := by
    apply swapBegin_of_le
    intro stNew stBegin hnew hbegin
    rw [hlist, List.getElem?_append_right (Nat.le_refl _), Nat.sub_self] at hnew
    cases hnew
    cases before with
    | nil =>
        rw [hlist] at hbegin
        cases hbegin
        exact le_refl _
    | cons first before =>
        rw [hlist] at hbegin
        cases hbegin
        exact hfront stBegin List.mem_cons_self
  unfold settle
  rw [if_neg hone, hrisen]
  dsimp only
  rw [hswap, if_neg (Nat.not_lt.mpr hsize)]

variable [HAdd ValueType ValueType ValueType]

/-- The new value of a listed key is not below that of the entry right behind it. -/
def KeepsPlace (rank : TRTRank KeyType ValueType) : RankCall KeyType ValueType -> Prop
  | .Add key value =>
      forall before old next after, rank.vRank = before ++ (key, old) :: next :: after ->
        next.2 ≤ old + value
  | .Remove _ => True
  | .Clear => True

theorem ranked_step {rank next : TRTRank KeyType ValueType} (hindexed : rank.Indexed)
    (hranked : Ranking.Ranked Prod.snd rank.vRank) {call : RankCall KeyType ValueType}
    (hkeeps : rank.KeepsPlace call) (hstep : step rank call = some next) :
    Ranking.Ranked Prod.snd next.vRank := by
  cases call with
  | Add key value =>
      rcases Add_placed hindexed key value with ⟨placed, itNew, hplaced, hadd⟩
      cases hadd.symm.trans hstep
      cases hplaced with
      | changed hfound =>
          rename_i before after old
          rw [hfound] at hranked
          apply ranked_settle rfl
          · exact List.Pairwise.sublist
              ((List.sublist_cons_self _ _).append_left before) hranked
          · intro b hb
            cases after with
            | nil => cases hb
            | cons first rest =>
                have hfirst := hkeeps before old first rest hfound
                have hafter := (Ranking.ranked_append.mp hranked).right.left
                rcases List.mem_cons.mp hb with hsame | hrest
                · rw [hsame]
                  exact hfirst
                · have hbelow := (Ranking.ranked_cons.mp hafter).right
                  exact ((Ranking.ranked_cons.mp hbelow).left b hrest).trans hfirst
      | pushed hnew =>
          apply ranked_settle rfl
          · rw [List.append_nil]
            exact hranked
          · exact List.forall_mem_nil _
  | Remove key =>
      cases hstep
      rw [(Remove_eq hindexed key).left]
      exact List.Pairwise.sublist List.filter_sublist hranked
  | Clear =>
      cases hstep
      exact List.Pairwise.nil

theorem not_ranked_step {rank next : TRTRank KeyType ValueType} (hindexed : rank.Indexed)
    (hranked : Ranking.Ranked Prod.snd rank.vRank) {call : RankCall KeyType ValueType}
    (hfalls : ¬ rank.KeepsPlace call) (hstep : step rank call = some next) :
    ¬ Ranking.Ranked Prod.snd next.vRank := by
  cases call with
  | Add key value =>
      unfold KeepsPlace at hfalls
      push Not at hfalls
      rcases hfalls with ⟨before, old, behind, after, hfound, hlt⟩
      have hsize := hindexed.size
      rw [hfound] at hranked hsize
      rcases Ranking.ranked_append.mp hranked with ⟨_, hafter, hcross⟩
      have holdLe := (Ranking.ranked_cons.mp hafter).left behind List.mem_cons_self
      have hfront : forall a, a ∈ before -> old + value ≤ a.2 := by
        intro a ha
        exact (le_of_lt hlt).trans (holdLe.trans (hcross a ha _ List.mem_cons_self))
      have hadd := Add_found hindexed hfound value
      rw [settle_stays rfl hfront] at hadd
      · cases hadd.symm.trans hstep
        intro hnext
        have hnextAfter := (Ranking.ranked_append.mp hnext).right.left
        exact absurd ((Ranking.ranked_cons.mp hnextAfter).left behind List.mem_cons_self)
          (not_le.mpr hlt)
      · rw [List.length_append, List.length_cons, List.length_cons] at hsize ⊢
        dsimp only
        omega
  | Remove key => exact absurd trivial hfalls
  | Clear => exact absurd trivial hfalls

/-- The list stays in order along a run exactly if no addition puts a listed key below
the entry behind it. -/
theorem ordered_run_iff [Inhabited KeyType] (iMaxSize : uint32_t)
    (calls : List (RankCall KeyType ValueType)) :
    AllStates step Ordered (new iMaxSize) calls <->
      AllSteps step KeepsPlace (new iMaxSize) calls := by
  let Inv : TRTRank KeyType ValueType -> Prop :=
    fun rank => rank.Indexed ∧ Ranking.Ranked Prod.snd rank.vRank
  have hrun : exists last, Run step (new iMaxSize) calls = some last :=
    run_exists (fun _ call hindexed => indexed_step hindexed call) (indexed_new iMaxSize) calls
  have hkeep : forall rank (call : RankCall KeyType ValueType) next, Inv rank -> True ->
      rank.KeepsPlace call -> step rank call = some next -> Inv next := by
    intro rank call next hinv _ hkeeps hstep
    rcases indexed_step hinv.left call with ⟨after, hafter, hkept⟩
    cases hafter.symm.trans hstep
    exact ⟨hkept, ranked_step hinv.left hinv.right hkeeps hstep⟩
  have hbreak : forall rank (call : RankCall KeyType ValueType) next, Inv rank -> True ->
      ¬ rank.KeepsPlace call -> step rank call = some next -> ¬ next.Ordered := by
    intro rank call next hinv _ hfalls hstep hordered
    exact not_ranked_step hinv.left hinv.right hfalls hstep ((ordered_iff next).mp hordered)
  have hstart : Inv (new iMaxSize) := ⟨indexed_new iMaxSize, List.Pairwise.nil⟩
  rcases hrun with ⟨last, hrun⟩
  exact allStates_iff_allSteps hkeep (fun rank hinv => (ordered_iff rank).mpr hinv.right) hbreak
    hstart (fun _ _ => trivial) hrun

/-- The first key loses its place, and keeps it. -/
def lowered : List (RankCall Char Int) := [.Add 'a' 5, .Add 'b' 3, .Add 'a' (-4)]

theorem not_ordered_lowered :
    ¬ forall (iMaxSize : uint32_t) (calls : List (RankCall Char Int)),
      AllStates step Ordered (new iMaxSize) calls := by
  intro h
  exact absurd (h 10 lowered) (by decide)

end Order

end TRTRank
end Utils
end GMServer
