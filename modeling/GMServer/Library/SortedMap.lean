import Mathlib.Data.List.Basic

/-!
# Sorted maps

`Std.ExtTreeMap` with the few operations that an ordered associative container
has beside it: its first entry, and the update of an entry in place.
-/

namespace GMServer
namespace SortedMap

open Std

variable {key value : Type} [Ord key] [TransOrd key]

/-!
# Lookup

The comparison of the keys is an equality, so that a lookup after an insertion
or a removal is decided by whether the keys are equal.
-/

section Lookup

variable [LawfulEqOrd key] [DecidableEq key]

theorem getElem?_insert_eq (m : ExtTreeMap key value) (k a : key) (v : value) :
    (m.insert k v)[a]? = if k = a then some v else m[a]? := by
  rw [ExtTreeMap.getElem?_insert]
  simp only [Std.compare_eq_iff_eq]

theorem getElem?_insert_same (m : ExtTreeMap key value) (k : key) (v : value) :
    (m.insert k v)[k]? = some v := by
  rw [getElem?_insert_eq, if_pos rfl]

theorem getElem?_insert_ne (m : ExtTreeMap key value) {k a : key} (v : value)
    (hne : k ≠ a) : (m.insert k v)[a]? = m[a]? := by
  rw [getElem?_insert_eq, if_neg hne]

theorem getElem?_erase_eq (m : ExtTreeMap key value) (k a : key) :
    (m.erase k)[a]? = if k = a then none else m[a]? := by
  rw [ExtTreeMap.getElem?_erase]
  simp only [Std.compare_eq_iff_eq]

theorem getElem?_erase_some {m : ExtTreeMap key value} {k a : key} {v : value}
    (h : (m.erase k)[a]? = some v) : k ≠ a ∧ m[a]? = some v := by
  rw [getElem?_erase_eq] at h
  split at h
  · cases h
  · exact ⟨‹_›, h⟩

end Lookup

/-!
# Filling a map from a list

Of the entries with one key the last one stays.
-/

section Fill

variable [LawfulEqOrd key] [DecidableEq key]

def fill (m : ExtTreeMap key value) (entries : List (key × value)) : ExtTreeMap key value :=
  entries.foldl (fun filled entry => filled.insert entry.1 entry.2) m

omit [LawfulEqOrd key] [DecidableEq key] in
theorem fill_cons (m : ExtTreeMap key value) (entry : key × value)
    (entries : List (key × value)) :
    fill m (entry :: entries) = fill (m.insert entry.1 entry.2) entries := rfl

theorem fill_of_not_mem {k : key} {entries : List (key × value)}
    (hkey : forall entry, entry ∈ entries -> entry.1 ≠ k) (m : ExtTreeMap key value) :
    (fill m entries)[k]? = m[k]? := by
  induction entries generalizing m with
  | nil => rfl
  | cons entry entries ih =>
      rw [fill_cons, ih (fun other h => hkey other (List.mem_cons_of_mem entry h)),
        getElem?_insert_ne _ _ (hkey entry List.mem_cons_self)]

theorem fill_of_mem {k : key} {v : value} {entries : List (key × value)}
    (hdistinct : (entries.map Prod.fst).Nodup) (hmem : (k, v) ∈ entries)
    (m : ExtTreeMap key value) : (fill m entries)[k]? = some v := by
  induction entries generalizing m with
  | nil => cases hmem
  | cons entry entries ih =>
      rw [List.map_cons, List.nodup_cons] at hdistinct
      rw [fill_cons]
      rcases List.mem_cons.mp hmem with hfirst | hrest
      · rw [← hfirst] at hdistinct ⊢
        have hother : forall other, other ∈ entries -> other.1 ≠ k := by
          intro other hother hEq
          exact hdistinct.left (List.mem_map.mpr ⟨other, hother, hEq⟩)
        rw [fill_of_not_mem hother, getElem?_insert_same]
      · exact ih hdistinct.right hrest _

omit [DecidableEq key] in
theorem nodup_keys (m : ExtTreeMap key value) : (m.toList.map Prod.fst).Nodup := by
  rw [ExtTreeMap.map_fst_toList_eq_keys]
  apply List.Pairwise.imp _ (ExtTreeMap.distinct_keys (t := m))
  intro one two hdistinct hEq
  exact hdistinct (Std.compare_eq_iff_eq.mpr hEq)

theorem fill_toList (m : ExtTreeMap key value) : fill ∅ m.toList = m := by
  apply ExtTreeMap.ext_getElem?
  intro k
  cases hget : m[k]? with
  | none =>
      have hkey : forall entry, entry ∈ m.toList -> entry.1 ≠ k := by
        intro entry hentry hEq
        have hsome := ExtTreeMap.mem_toList_iff_getElem?_eq_some.mp hentry
        rw [hEq, hget] at hsome
        cases hsome
      rw [fill_of_not_mem hkey]
      rfl
  | some v =>
      exact fill_of_mem (nodup_keys m) (ExtTreeMap.mem_toList_iff_getElem?_eq_some.mpr hget) ∅

end Fill

/-!
# The first entry
-/

def first (m : ExtTreeMap key value) : Option (key × value) := m.toList.head?

theorem first_eq_none_iff {m : ExtTreeMap key value} : first m = none <-> m = ∅ := by
  unfold first
  rw [List.head?_eq_none_iff]
  exact ExtTreeMap.toList_eq_nil_iff

theorem first_getElem? [LawfulEqOrd key] {m : ExtTreeMap key value} {k : key} {v : value}
    (h : first m = some (k, v)) : m[k]? = some v :=
  ExtTreeMap.mem_toList_iff_getElem?_eq_some.mp (List.mem_of_head? h)

theorem first_least [LawfulEqOrd key] {m : ExtTreeMap key value} {k a : key} {v w : value}
    (h : first m = some (k, v)) (ha : m[a]? = some w) : (compare k a).isLE := by
  have hmem : (a, w) ∈ m.toList := ExtTreeMap.mem_toList_iff_getElem?_eq_some.mpr ha
  have hordered := ExtTreeMap.ordered_keys_toList (t := m)
  unfold first at h
  cases hlist : m.toList with
  | nil =>
      rw [hlist] at h
      cases h
  | cons head rest =>
      rw [hlist] at h hmem hordered
      cases h
      rcases List.mem_cons.mp hmem with hsame | hlater
      · cases hsame
        rw [ReflOrd.compare_self]
        rfl
      · rw [List.rel_of_pairwise_cons hordered hlater]
        rfl

theorem size_erase_first [LawfulEqOrd key] {m : ExtTreeMap key value} {k : key} {v : value}
    (h : first m = some (k, v)) : (m.erase k).size + 1 = m.size := by
  have hcontains : m.contains k = true := by
    rw [ExtTreeMap.contains_eq_isSome_getElem?, first_getElem? h]
    rfl
  have hpositive : m.size ≠ 0 := by
    intro hzero
    rw [ExtTreeMap.eq_empty_iff_size_eq_zero.mpr hzero] at h
    cases h
  rw [ExtTreeMap.size_erase, if_pos hcontains]
  exact Nat.succ_pred_eq_of_ne_zero hpositive

/-!
# The next entry
-/

def next (m : ExtTreeMap key value) (k : key) : Option (key × value) :=
  m.toList.find? (fun entry => compare k entry.1 = .lt)

theorem next_getElem? [LawfulEqOrd key] {m : ExtTreeMap key value} {k a : key} {v : value}
    (h : next m k = some (a, v)) : m[a]? = some v :=
  ExtTreeMap.mem_toList_iff_getElem?_eq_some.mp (List.mem_of_find?_eq_some h)

theorem next_after {m : ExtTreeMap key value} {k a : key} {v : value}
    (h : next m k = some (a, v)) : compare k a = .lt := by
  unfold next at h
  have hfound := List.find?_some h
  exact of_decide_eq_true hfound

theorem next_none [LawfulEqOrd key] {m : ExtTreeMap key value} {k a : key} {v : value}
    (h : next m k = none) (ha : m[a]? = some v) : compare k a ≠ .lt := by
  have hmem : (a, v) ∈ m.toList := ExtTreeMap.mem_toList_iff_getElem?_eq_some.mpr ha
  exact fun hlt => List.find?_eq_none.mp h _ hmem (decide_eq_true hlt)

theorem next_least [LawfulEqOrd key] {m : ExtTreeMap key value} {k a b : key} {v w : value}
    (h : next m k = some (a, v)) (hb : m[b]? = some w) (hlt : compare k b = .lt) :
    (compare a b).isLE := by
  have hmem : (b, w) ∈ m.toList := ExtTreeMap.mem_toList_iff_getElem?_eq_some.mpr hb
  have hordered := ExtTreeMap.ordered_keys_toList (t := m)
  rcases List.find?_eq_some_iff_append.mp h with ⟨_, before, after, hlist, hbefore⟩
  rw [hlist] at hmem hordered
  rcases List.mem_append.mp hmem with hearlier | hlater
  · have hskip := hbefore _ hearlier
    rw [decide_eq_true hlt] at hskip
    cases hskip
  · rcases List.mem_cons.mp hlater with hsame | hrest
    · cases hsame
      rw [ReflOrd.compare_self]
      rfl
    · rw [List.rel_of_pairwise_cons (List.pairwise_append.mp hordered).right.left hrest]
      rfl

/-!
# Words as keys

Machine words are compared as unsigned numbers.
-/

theorem isLE_compare_word {w : Nat} {a b : BitVec w} : (compare a b).isLE <-> a ≤ b := by
  show (compareOfLessAndEq a b).isLE <-> a ≤ b
  unfold compareOfLessAndEq
  by_cases hlt : a < b
  · rw [if_pos hlt]
    exact ⟨fun _ => BitVec.le_of_lt hlt, fun _ => rfl⟩
  · rw [if_neg hlt]
    by_cases heq : a = b
    · rw [if_pos heq]
      exact ⟨fun _ => heq ▸ BitVec.le_refl a, fun _ => rfl⟩
    · rw [if_neg heq]
      constructor
      · intro h
        cases h
      · intro hle
        exact absurd (BitVec.lt_of_le_ne hle heq) hlt

theorem first_le {w : Nat} {m : ExtTreeMap (BitVec w) value} {k a : BitVec w} {v u : value}
    (h : first m = some (k, v)) (ha : m[a]? = some u) : k ≤ a :=
  isLE_compare_word.mp (first_least h ha)

theorem compare_word_eq_lt {w : Nat} {a b : BitVec w} : compare a b = .lt <-> a < b := by
  show compareOfLessAndEq a b = .lt <-> a < b
  unfold compareOfLessAndEq
  by_cases hlt : a < b
  · rw [if_pos hlt]
    exact ⟨fun _ => hlt, fun _ => rfl⟩
  · rw [if_neg hlt]
    refine ⟨fun h => ?_, fun h => absurd h hlt⟩
    split at h
    · cases h
    · cases h

theorem lt_next {w : Nat} {m : ExtTreeMap (BitVec w) value} {k a : BitVec w} {v : value}
    (h : next m k = some (a, v)) : k < a :=
  compare_word_eq_lt.mp (next_after h)

theorem next_le {w : Nat} {m : ExtTreeMap (BitVec w) value} {k a b : BitVec w} {v u : value}
    (h : next m k = some (a, v)) (hb : m[b]? = some u) (hlt : k < b) : a ≤ b :=
  isLE_compare_word.mp (next_least h hb (compare_word_eq_lt.mpr hlt))

theorem le_of_next_none {w : Nat} {m : ExtTreeMap (BitVec w) value} {k b : BitVec w} {u : value}
    (h : next m k = none) (hb : m[b]? = some u) : b ≤ k :=
  BitVec.not_lt.mp (fun hlt => next_none h hb (compare_word_eq_lt.mpr hlt))

end SortedMap
end GMServer
