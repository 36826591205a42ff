import Mathlib.Data.List.Nodup
import Mathlib.Data.List.Induction
import Mathlib.Logic.Function.Basic

/-!
# Replaying writes

A store is a function from addresses to what is written there.  A list of writes
is replayed on it from the first to the last, so that the last write to an address
is the one that stays.
-/

namespace GMServer
namespace Replay

variable {addr value : Type} [DecidableEq addr]

abbrev Store (addr value : Type) := addr -> Option value

def replay (store : Store addr value) (writes : List (addr × value)) : Store addr value :=
  writes.foldl (fun written write => Function.update written write.1 (some write.2)) store

theorem replay_nil (store : Store addr value) : replay store [] = store := rfl

theorem replay_cons (store : Store addr value) (write : addr × value)
    (writes : List (addr × value)) :
    replay store (write :: writes) =
      replay (Function.update store write.1 (some write.2)) writes := rfl

theorem replay_append (store : Store addr value) (first second : List (addr × value)) :
    replay store (first ++ second) = replay (replay store first) second :=
  List.foldl_append

/-!
# What stays
-/

theorem replay_of_not_mem {writes : List (addr × value)} {a : addr}
    (ha : a ∉ writes.map Prod.fst) (store : Store addr value) :
    replay store writes a = store a := by
  induction writes generalizing store with
  | nil => rfl
  | cons write writes ih =>
      rw [List.map_cons, List.mem_cons, not_or] at ha
      rw [replay_cons, ih ha.right, Function.update_of_ne ha.left]

theorem replay_of_mem {writes : List (addr × value)} {a : addr}
    (ha : a ∈ writes.map Prod.fst) (store other : Store addr value) :
    replay store writes a = replay other writes a ∧ replay store writes a ≠ none := by
  induction writes generalizing store other with
  | nil => cases ha
  | cons write writes ih =>
      rw [replay_cons, replay_cons]
      by_cases hlater : a ∈ writes.map Prod.fst
      · exact ih hlater _ _
      · rw [List.map_cons, List.mem_cons] at ha
        have hfirst := ha.resolve_right hlater
        rw [replay_of_not_mem hlater, replay_of_not_mem hlater, hfirst,
          Function.update_self, Function.update_self]
        exact ⟨rfl, Option.some_ne_none _⟩

/-- What was written last, or else what was there. -/
theorem replay_eq_or (store : Store addr value) (writes : List (addr × value)) (a : addr) :
    replay store writes a = (replay (fun _ => none) writes a).or (store a) := by
  by_cases ha : a ∈ writes.map Prod.fst
  · rcases replay_of_mem ha store (fun _ => none) with ⟨hsame, hne⟩
    rcases Option.ne_none_iff_exists'.mp hne with ⟨v, hv⟩
    rw [← hsame, hv, Option.some_or]
  · rw [replay_of_not_mem ha, replay_of_not_mem ha, Option.none_or]

theorem mem_of_replay {writes : List (addr × value)} {store : Store addr value} {a : addr}
    {v : value} (h : replay store writes a = some v) : (a, v) ∈ writes ∨ store a = some v := by
  induction writes generalizing store with
  | nil => exact Or.inr h
  | cons write writes ih =>
      rw [replay_cons] at h
      rcases ih h with hlater | hearlier
      · exact Or.inl (List.mem_cons_of_mem write hlater)
      · by_cases hsame : a = write.1
        · rw [hsame, Function.update_self] at hearlier
          rw [hsame, ← Option.some.inj hearlier]
          exact Or.inl List.mem_cons_self
        · rw [Function.update_of_ne hsame] at hearlier
          exact Or.inr hearlier

theorem replay_of_distinct {writes : List (addr × value)} {a : addr} {v : value}
    (hdistinct : (writes.map Prod.fst).Nodup) (hmem : (a, v) ∈ writes)
    (store : Store addr value) : replay store writes a = some v := by
  induction writes generalizing store with
  | nil => cases hmem
  | cons write writes ih =>
      rw [List.map_cons, List.nodup_cons] at hdistinct
      rw [replay_cons]
      rcases List.mem_cons.mp hmem with hfirst | hrest
      · rw [← hfirst] at hdistinct ⊢
        rw [replay_of_not_mem hdistinct.left, Function.update_self]
      · exact ih hdistinct.right hrest _

/-- A list with distinct addresses has one entry for each of them. -/
theorem filter_of_distinct {writes : List (addr × value)} {a : addr} {v : value}
    (hdistinct : (writes.map Prod.fst).Nodup) (hmem : (a, v) ∈ writes) :
    writes.filter (fun write => write.1 = a) = [(a, v)] := by
  induction writes with
  | nil => cases hmem
  | cons write writes ih =>
      rw [List.map_cons, List.nodup_cons] at hdistinct
      rcases List.mem_cons.mp hmem with hfirst | hrest
      · rw [← hfirst] at hdistinct ⊢
        rw [List.filter_cons, if_pos (decide_eq_true rfl), List.filter_eq_nil_iff.mpr]
        intro other hother hsame
        exact hdistinct.left (List.mem_map.mpr ⟨other, hother, of_decide_eq_true hsame⟩)
      · have hne : ¬ decide (write.1 = a) = true := by
          intro hsame
          apply hdistinct.left
          rw [of_decide_eq_true hsame]
          exact List.mem_map.mpr ⟨(a, v), hrest, rfl⟩
        rw [List.filter_cons, if_neg hne, ih hdistinct.right hrest]

/-- All that is written to the address is the same. -/
theorem replay_of_agreeing {writes : List (addr × value)} {a : addr} {v : value}
    (hmem : (a, v) ∈ writes) (hagree : forall w, (a, w) ∈ writes -> w = v)
    (store : Store addr value) : replay store writes a = some v := by
  have hkey : a ∈ writes.map Prod.fst := List.mem_map.mpr ⟨(a, v), hmem, rfl⟩
  rcases replay_of_mem hkey store (fun _ => none) with ⟨hsame, hne⟩
  rcases Option.ne_none_iff_exists'.mp hne with ⟨w, hw⟩
  rcases mem_of_replay (hsame.symm.trans hw) with hwritten | hbefore
  · rw [hw, hagree w hwritten]
  · cases hbefore

/-!
# The last write
-/

def WrittenLast (writes : List (addr × value)) (a : addr) (v : value) : Prop :=
  exists earlier later, writes = earlier ++ (a, v) :: later ∧ a ∉ later.map Prod.fst

omit [DecidableEq addr] in
theorem writtenLast_cons {write : addr × value} {writes : List (addr × value)} {a : addr}
    {v : value} :
    WrittenLast (write :: writes) a v <->
      WrittenLast writes a v ∨ (a ∉ writes.map Prod.fst ∧ write = (a, v)) := by
  constructor
  · intro h
    rcases h with ⟨earlier, later, hwrites, hlast⟩
    cases earlier with
    | nil =>
        cases hwrites
        exact Or.inr ⟨hlast, rfl⟩
    | cons first earlier =>
        cases hwrites
        exact Or.inl ⟨earlier, later, rfl, hlast⟩
  · intro h
    rcases h with ⟨earlier, later, hwrites, hlast⟩ | ⟨hlast, hwrite⟩
    · exact ⟨write :: earlier, later, congrArg (write :: ·) hwrites, hlast⟩
    · exact ⟨[], writes, congrArg (· :: writes) hwrite, hlast⟩

omit [DecidableEq addr] in
theorem writtenLast_of_distinct {writes : List (addr × value)} {a : addr} {v : value}
    (hdistinct : (writes.map Prod.fst).Nodup) (hmem : (a, v) ∈ writes) :
    WrittenLast writes a v := by
  rcases List.append_of_mem hmem with ⟨earlier, later, hwrites⟩
  refine ⟨earlier, later, hwrites, ?_⟩
  rw [hwrites, List.map_append, List.map_cons] at hdistinct
  exact (List.nodup_cons.mp (List.nodup_append.mp hdistinct).right.left).left

omit [DecidableEq addr] in
theorem writtenLast_map {other : Type} {f : value -> other} {writes : List (addr × value)}
    {a : addr} {w : other} :
    WrittenLast (writes.map (fun write => (write.1, f write.2))) a w <->
      exists v, WrittenLast writes a v ∧ f v = w := by
  induction writes with
  | nil =>
      constructor
      · intro h
        rcases h with ⟨earlier, later, hnil, _⟩
        exact absurd hnil.symm (List.append_ne_nil_of_right_ne_nil _ (List.cons_ne_nil _ _))
      · intro h
        rcases h with ⟨_, ⟨earlier, later, hnil, _⟩, _⟩
        exact absurd hnil.symm (List.append_ne_nil_of_right_ne_nil _ (List.cons_ne_nil _ _))
  | cons write writes ih =>
      have hkeys : (writes.map (fun write => (write.1, f write.2))).map Prod.fst =
          writes.map Prod.fst := by
        rw [List.map_map]
        rfl
      rw [List.map_cons, writtenLast_cons, ih, hkeys]
      constructor
      · intro h
        rcases h with ⟨v, hlast, hv⟩ | ⟨hnot, hEq⟩
        · exact ⟨v, writtenLast_cons.mpr (Or.inl hlast), hv⟩
        · rcases Prod.mk.inj hEq with ⟨haddr, hv⟩
          exact ⟨write.2, writtenLast_cons.mpr (Or.inr ⟨hnot, Prod.ext haddr rfl⟩), hv⟩
      · intro h
        rcases h with ⟨v, hlast, hv⟩
        rcases writtenLast_cons.mp hlast with hlater | ⟨hnot, hEq⟩
        · exact Or.inl ⟨v, hlater, hv⟩
        · rw [hEq]
          exact Or.inr ⟨hnot, Prod.ext rfl hv⟩

/-- A value is there if it was written last, or was there and nothing was written. -/
theorem replay_eq_some_iff {store : Store addr value} {writes : List (addr × value)} {a : addr}
    {v : value} :
    replay store writes a = some v <->
      WrittenLast writes a v ∨ (a ∉ writes.map Prod.fst ∧ store a = some v) := by
  induction writes generalizing store with
  | nil =>
      constructor
      · intro h
        exact Or.inr ⟨List.not_mem_nil, h⟩
      · intro h
        rcases h with ⟨earlier, later, hnil, _⟩ | h
        · exact absurd hnil.symm (List.append_ne_nil_of_right_ne_nil _ (List.cons_ne_nil _ _))
        · exact h.right
  | cons write writes ih =>
      rw [replay_cons, ih, writtenLast_cons, or_assoc]
      apply or_congr_right
      rw [List.map_cons, List.mem_cons, not_or]
      by_cases hsame : a = write.1
      · rw [hsame, Function.update_self]
        constructor
        · intro h
          cases h.right
          exact Or.inl ⟨h.left, rfl⟩
        · intro h
          rcases h with ⟨hlast, hwrite⟩ | ⟨hother, _⟩
          · exact ⟨hlast, congrArg (fun it => some it.2) hwrite⟩
          · exact absurd rfl hother.left
      · rw [Function.update_of_ne hsame]
        constructor
        · intro h
          exact Or.inr ⟨⟨hsame, h.left⟩, h.right⟩
        · intro h
          rcases h with ⟨_, hwrite⟩ | ⟨hother, hthere⟩
          · exact absurd (congrArg Prod.fst hwrite).symm hsame
          · exact ⟨hother.right, hthere⟩

/-!
# Renaming

Writes whose addresses are renamed, without two of them becoming one.
-/

section Rename

variable {name : Type} [DecidableEq name]

def rename (toName : addr -> name) (writes : List (addr × value)) : List (name × value) :=
  writes.map (fun write => (toName write.1, write.2))

omit [DecidableEq addr] [DecidableEq name] in
theorem keys_rename (toName : addr -> name) (writes : List (addr × value)) :
    (rename toName writes).map Prod.fst = (writes.map Prod.fst).map toName := by
  unfold rename
  rw [List.map_map, List.map_map]
  rfl

theorem replay_rename {toName : addr -> name} {writes : List (addr × value)} {a : addr}
    (hinjective : forall b, b ∈ writes.map Prod.fst -> toName b = toName a -> b = a)
    (store : Store name value) :
    replay store (rename toName writes) (toName a) =
      replay (fun b => store (toName b)) writes a := by
  induction writes using List.reverseRecOn with
  | nil => rfl
  | append_singleton writes write ih =>
      have hearlier : forall b, b ∈ writes.map Prod.fst -> toName b = toName a -> b = a := by
        intro b hb
        exact hinjective b (by
          rw [List.map_append]
          exact List.mem_append_left _ hb)
      unfold rename at ih ⊢
      rw [List.map_append, replay_append, replay_append, List.map_singleton, replay_cons,
        replay_cons, replay_nil, replay_nil]
      dsimp only
      by_cases hsame : write.1 = a
      · rw [hsame, Function.update_self, Function.update_self]
      · have hname : toName a ≠ toName write.1 := by
          intro hEq
          apply hsame
          apply hinjective write.1 _ hEq.symm
          rw [List.map_append]
          exact List.mem_append_right _ List.mem_cons_self
        rw [Function.update_of_ne hname, Function.update_of_ne (Ne.symm hsame),
          ih hearlier]

/-- One write for each address, with the text that stays there, does what all the writes
do. -/
theorem replay_coalesced {toName : addr -> name} {writes coalesced : List (addr × value)}
    (hinjective : forall a b, a ∈ writes.map Prod.fst -> b ∈ writes.map Prod.fst ->
      toName a = toName b -> a = b)
    (hdistinct : (coalesced.map Prod.fst).Nodup)
    (hsame : forall a v, (a, v) ∈ coalesced <-> replay (fun _ => none) writes a = some v)
    (store : Store name value) :
    replay store (rename toName coalesced) = replay store (rename toName writes) := by
  have hkeys : forall a, a ∈ coalesced.map Prod.fst -> a ∈ writes.map Prod.fst := by
    intro a ha
    by_contra hnot
    rcases List.mem_map.mp ha with ⟨write, hwrite, hEq⟩
    have hstays := (hsame write.1 write.2).mp hwrite
    rw [hEq, replay_of_not_mem hnot] at hstays
    cases hstays
  funext b
  by_cases hb : b ∈ (writes.map Prod.fst).map toName
  · rcases List.mem_map.mp hb with ⟨a, ha, hEq⟩
    rw [← hEq, replay_rename (fun c hc => hinjective c a (hkeys c hc) ha),
      replay_rename (fun c hc => hinjective c a hc ha)]
    rcases replay_of_mem ha (fun c => store (toName c)) (fun _ => none) with ⟨hstore, hne⟩
    rcases Option.ne_none_iff_exists'.mp hne with ⟨v, hv⟩
    rw [hv, replay_of_distinct hdistinct ((hsame a v).mpr (hstore.symm.trans hv))]
  · have hcoalesced : b ∉ (coalesced.map Prod.fst).map toName := by
      intro h
      rcases List.mem_map.mp h with ⟨a, ha, hEq⟩
      exact hb (List.mem_map.mpr ⟨a, hkeys a ha, hEq⟩)
    rw [← keys_rename] at hb hcoalesced
    rw [replay_of_not_mem hb, replay_of_not_mem hcoalesced]

end Rename

/-!
# Lists of parts

Parts that are labelled apart have nothing in common.
-/

theorem nodup_flatMap_of_label {part entry label : Type} {parts : List part}
    {entries : part -> List entry} {f : part -> label} {g : entry -> label}
    (hparts : (parts.map f).Nodup)
    (hentries : forall one, one ∈ parts -> (entries one).Nodup)
    (hlabel : forall one, one ∈ parts -> forall it, it ∈ entries one -> g it = f one) :
    (parts.flatMap entries).Nodup := by
  induction parts with
  | nil => exact List.nodup_nil
  | cons one parts ih =>
      rw [List.map_cons, List.nodup_cons] at hparts
      rw [List.flatMap_cons, List.nodup_append']
      refine ⟨hentries one List.mem_cons_self,
        ih hparts.right (fun other h => hentries other (List.mem_cons_of_mem one h))
          (fun other h => hlabel other (List.mem_cons_of_mem one h)), ?_⟩
      intro it hone hlater
      rcases List.mem_flatMap.mp hlater with ⟨other, hother, hit⟩
      apply hparts.left
      rw [← hlabel one List.mem_cons_self it hone,
        hlabel other (List.mem_cons_of_mem one hother) it hit]
      exact List.mem_map.mpr ⟨other, hother, rfl⟩

end Replay
end GMServer
