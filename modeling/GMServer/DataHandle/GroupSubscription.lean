import Mathlib.Data.List.Count
import GMServer.Library.Pending
import GMServer.Library.Transition
import GMServer.DataHandle.RedisSubMgr

/-!
# Every group is subscribed once

Groups are added by any thread, and the thread behind the connection takes what has gathered.
Both hold the mutex while they touch the manager; the text of a command is made without it, of
a list that nobody else has.
-/

namespace GMServer
namespace DataHandle

namespace RedisSubMgr

/-!
# The two functions in parts
-/

/-- What is made of the list that was swapped away. -/
def subString (listTemp : List uint32_t) : Text :=
  if listTemp = [] then []
  else commandText ("SUBSCRIBE".toList :: listTemp.map (fun it => Text.decimal it.toNat))

theorem AddRediskey_old {subMgr : RedisSubMgr} {it : uint32_t} (h : it ∈ subMgr.m_AllRedisKey) :
    subMgr.AddRediskey [it] = subMgr := if_pos h

theorem AddRediskey_new {subMgr : RedisSubMgr} {it : uint32_t} (h : it ∉ subMgr.m_AllRedisKey) :
    subMgr.AddRediskey [it] =
      { m_AllRedisKey := it :: subMgr.m_AllRedisKey,
        m_listRedisKey := subMgr.m_listRedisKey ++ [it] } := if_neg h

theorem mem_AddRediskey (subMgr : RedisSubMgr) (it iRedisKey : uint32_t) :
    iRedisKey ∈ (subMgr.AddRediskey [it]).m_AllRedisKey <->
      iRedisKey = it ∨ iRedisKey ∈ subMgr.m_AllRedisKey := by
  by_cases hold : it ∈ subMgr.m_AllRedisKey
  · rw [AddRediskey_old hold]
    constructor
    · exact Or.inr
    · rintro (hEq | hmem)
      · rw [hEq]
        exact hold
      · exact hmem
  · rw [AddRediskey_new hold]
    exact List.mem_cons

/-!
# The groups in a command
-/

/-- What a command lists. -/
def listed (strCmd : Text) : List Text := ((redisvFormatCommand strCmd).getD []).tail

theorem decimal_toNat_injective :
    Function.Injective (fun it : uint32_t => Text.decimal it.toNat) :=
  fun _ _ h => BitVec.eq_of_toNat_eq (Text.decimal_injective h)

theorem format_subString {listTemp : List uint32_t} (hne : listTemp ≠ []) :
    redisvFormatCommand (subString listTemp) =
      some ("SUBSCRIBE".toList :: listTemp.map (fun it => Text.decimal it.toNat)) := by
  unfold subString
  rw [if_neg hne]
  apply format_words
  intro word hword
  rcases List.mem_cons.mp hword with hfirst | hrest
  · rw [hfirst]
    decide
  · rcases List.mem_map.mp hrest with ⟨it, _, hEq⟩
    rw [← hEq]
    exact isWord_decimal _

theorem listed_subString (listTemp : List uint32_t) :
    listed (subString listTemp) = listTemp.map (fun it => Text.decimal it.toNat) := by
  by_cases hnil : listTemp = []
  · rw [hnil]
    rfl
  · unfold listed
    rw [format_subString hnil, Option.getD_some, List.tail_cons]

theorem count_listed (iRedisKey : uint32_t) (listTemp : List uint32_t) :
    (listed (subString listTemp)).count (Text.decimal iRedisKey.toNat) =
      listTemp.count iRedisKey := by
  rw [listed_subString]
  exact List.count_map_of_injective listTemp _ decimal_toNat_injective iRedisKey

theorem subString_eq_nil_iff {listTemp : List uint32_t} :
    subString listTemp = [] <-> listTemp = [] := by
  constructor
  · intro h
    by_contra hne
    have hformat := format_subString hne
    rw [h] at hformat
    cases hformat
  · intro hnil
    exact if_pos hnil

end RedisSubMgr

namespace GroupSubscription

open RedisSubMgr

/-!
# States

The mutex is held by a call of `AddRediskey`, of which the set and the rest of the loop are
kept, or it is free.  `writing` are the lists of the calls of `GetSubString` that have swapped.
Of the calls that have returned, the sets of the ones are kept, and of the others what was
pending at the swap and the command.
-/

structure State where
  subMgr : RedisSubMgr
  holder : Option (List uint32_t × List uint32_t)
  writing : List (List uint32_t)
  called : List (List uint32_t)
  added : List (List uint32_t)
  commands : List (List uint32_t × Text)
  deriving DecidableEq, Repr

def start : State :=
  { subMgr := RedisSubMgr.empty, holder := none, writing := [], called := [], added := [],
    commands := [] }

inductive Action where
  | lock (vRedisKey : List uint32_t)
  | add
  | unlock
  | swap
  | write (i : Nat)
  deriving DecidableEq, Repr

def step (s : State) : Action -> Option State
  | .lock vRedisKey =>
      match s.holder with
      | none =>
          some { s with holder := some (vRedisKey, vRedisKey), called := s.called ++ [vRedisKey] }
      | some _ => none
  | .add =>
      match s.holder with
      | some (vRedisKey, it :: rest) =>
          some
            { s with
              holder := some (vRedisKey, rest),
              subMgr := s.subMgr.AddRediskey [it] }
      | _ => none
  | .unlock =>
      match s.holder with
      | some (vRedisKey, []) =>
          some { s with holder := none, added := s.added ++ [vRedisKey] }
      | _ => none
  | .swap =>
      match s.holder with
      | none =>
          some
            { s with
              subMgr := { s.subMgr with m_listRedisKey := [] },
              writing := s.writing ++ [s.subMgr.m_listRedisKey] }
      | some _ => none
  | .write i =>
      match s.writing[i]? with
      | some listTemp =>
          some
            { s with
              writing := s.writing.eraseIdx i,
              commands := s.commands ++ [(listTemp, subString listTemp)] }
      | none => none

/-!
# Where a group is
-/

/-- How often a group is pending, in the list of a call that makes its command, and in a
command that was returned. -/
def occurrences (s : State) (iRedisKey : uint32_t) : Nat :=
  s.subMgr.m_listRedisKey.count iRedisKey + s.writing.flatten.count iRedisKey +
    (s.commands.flatMap (fun it => listed it.2)).count (Text.decimal iRedisKey.toNat)

structure SubscribedOnce (s : State) : Prop where
  once : forall vRedisKey iRedisKey, vRedisKey ∈ s.added -> iRedisKey ∈ vRedisKey ->
    occurrences s iRedisKey = 1
  never_twice : forall iRedisKey, occurrences s iRedisKey ≤ 1
  only_added : forall iRedisKey, occurrences s iRedisKey ≠ 0 ->
    exists vRedisKey, vRedisKey ∈ s.called ∧ iRedisKey ∈ vRedisKey
  commands : forall listTemp strCmd, (listTemp, strCmd) ∈ s.commands ->
    (strCmd = [] <-> listTemp = []) ∧
      (listTemp ≠ [] -> redisvFormatCommand strCmd =
        some ("SUBSCRIBE".toList :: listTemp.map (fun it => Text.decimal it.toNat)))

/-- The groups of `m_AllRedisKey` are those that were handed on. -/
structure Inv (s : State) : Prop where
  known : forall iRedisKey, occurrences s iRedisKey =
    if iRedisKey ∈ s.subMgr.m_AllRedisKey then 1 else 0
  holder : forall vRedisKey rest, s.holder = some (vRedisKey, rest) ->
    vRedisKey ∈ s.called ∧ forall iRedisKey, iRedisKey ∈ vRedisKey ->
      iRedisKey ∈ s.subMgr.m_AllRedisKey ∨ iRedisKey ∈ rest
  rest : forall vRedisKey rest, s.holder = some (vRedisKey, rest) ->
    forall iRedisKey, iRedisKey ∈ rest -> iRedisKey ∈ vRedisKey
  added : forall vRedisKey iRedisKey, vRedisKey ∈ s.added -> iRedisKey ∈ vRedisKey ->
    iRedisKey ∈ s.subMgr.m_AllRedisKey
  called : forall iRedisKey, iRedisKey ∈ s.subMgr.m_AllRedisKey ->
    exists vRedisKey, vRedisKey ∈ s.called ∧ iRedisKey ∈ vRedisKey
  commands : forall it, it ∈ s.commands -> it.2 = subString it.1

theorem inv_start : Inv start := by
  constructor
  · intro iRedisKey
    rfl
  · intro vRedisKey rest h
    cases h
  · intro vRedisKey rest h
    cases h
  · intro vRedisKey iRedisKey h
    cases h
  · intro iRedisKey h
    cases h
  · intro it h
    cases h

theorem subscribedOnce_of_inv {s : State} (hinv : Inv s) : SubscribedOnce s := by
  constructor
  · intro vRedisKey iRedisKey hadded hmem
    rw [hinv.known, if_pos (hinv.added vRedisKey iRedisKey hadded hmem)]
  · intro iRedisKey
    rw [hinv.known]
    split
    · exact Nat.le_refl 1
    · exact Nat.zero_le 1
  · intro iRedisKey hne
    rw [hinv.known] at hne
    split at hne
    · rename_i hknown
      exact hinv.called iRedisKey hknown
    · exact absurd rfl hne
  · intro listTemp strCmd hmem
    have htext : strCmd = subString listTemp := hinv.commands _ hmem
    rw [htext]
    exact ⟨subString_eq_nil_iff, format_subString⟩

/-!
# The steps
-/

theorem occurrences_add (s : State) (it : uint32_t)
    (holder : Option (List uint32_t × List uint32_t)) (iRedisKey : uint32_t) :
    occurrences { s with holder := holder, subMgr := s.subMgr.AddRediskey [it] } iRedisKey =
      occurrences s iRedisKey +
        if it ∉ s.subMgr.m_AllRedisKey ∧ it = iRedisKey then 1 else 0 := by
  unfold occurrences
  dsimp only
  by_cases hold : it ∈ s.subMgr.m_AllRedisKey
  · rw [AddRediskey_old hold, if_neg (fun h => h.left hold), Nat.add_zero]
  · rw [AddRediskey_new hold, List.count_append, List.count_singleton]
    simp only [hold, not_false_eq_true, true_and, beq_iff_eq]
    omega

theorem inv_add {s t : State} (hinv : Inv s) (hstep : step s .add = some t) : Inv t := by
  simp only [step] at hstep
  split at hstep
  · rename_i vRedisKey it rest hholder
    cases hstep
    have hset := hinv.holder vRedisKey (it :: rest) hholder
    have hrest := hinv.rest vRedisKey (it :: rest) hholder
    constructor
    · intro iRedisKey
      rw [occurrences_add, hinv.known]
      by_cases hold : it ∈ s.subMgr.m_AllRedisKey
      · have hnone : ¬ (it ∉ s.subMgr.m_AllRedisKey ∧ it = iRedisKey) := fun h => h.left hold
        rw [if_neg hnone, Nat.add_zero, AddRediskey_old hold]
      · by_cases hsame : iRedisKey = it
        · have hknown : it ∈ (s.subMgr.AddRediskey [it]).m_AllRedisKey :=
            (mem_AddRediskey _ _ _).mpr (Or.inl rfl)
          rw [hsame, if_neg hold, if_pos ⟨hold, rfl⟩, if_pos hknown]
        · have hnone : ¬ (it ∉ s.subMgr.m_AllRedisKey ∧ it = iRedisKey) :=
            fun h => hsame h.right.symm
          rw [if_neg hnone, Nat.add_zero]
          simp only [mem_AddRediskey, hsame, false_or]
    · intro other otherRest h
      cases h
      refine ⟨hset.left, fun iRedisKey hmem => ?_⟩
      dsimp only
      rw [mem_AddRediskey]
      rcases hset.right iRedisKey hmem with hknown | hlater
      · exact Or.inl (Or.inr hknown)
      · rcases List.mem_cons.mp hlater with hEq | hlater
        · exact Or.inl (Or.inl hEq)
        · exact Or.inr hlater
    · intro other otherRest h
      cases h
      exact fun iRedisKey hmem => hrest iRedisKey (List.mem_cons_of_mem _ hmem)
    · intro other iRedisKey hadded hmem
      exact (mem_AddRediskey _ _ _).mpr (Or.inr (hinv.added other iRedisKey hadded hmem))
    · intro iRedisKey hmem
      rcases (mem_AddRediskey _ _ _).mp hmem with hEq | hknown
      · rw [hEq]
        exact ⟨vRedisKey, hset.left, hrest it List.mem_cons_self⟩
      · exact hinv.called iRedisKey hknown
    · exact hinv.commands
  · cases hstep

theorem inv_lock {s t : State} (hinv : Inv s) {vRedisKey : List uint32_t}
    (hstep : step s (.lock vRedisKey) = some t) : Inv t := by
  simp only [step] at hstep
  split at hstep
  · cases hstep
    constructor
    · exact hinv.known
    · intro other rest h
      cases h
      exact ⟨List.mem_append_right _ List.mem_cons_self, fun _ hmem => Or.inr hmem⟩
    · intro other rest h
      cases h
      exact fun _ hmem => hmem
    · exact hinv.added
    · intro iRedisKey hmem
      rcases hinv.called iRedisKey hmem with ⟨other, hother, hin⟩
      exact ⟨other, List.mem_append_left _ hother, hin⟩
    · exact hinv.commands
  · cases hstep

theorem inv_unlock {s t : State} (hinv : Inv s) (hstep : step s .unlock = some t) : Inv t := by
  simp only [step] at hstep
  split at hstep
  · rename_i vRedisKey hholder
    cases hstep
    constructor
    · exact hinv.known
    · intro other rest h
      cases h
    · intro other rest h
      cases h
    · intro other iRedisKey hadded hmem
      rcases List.mem_append.mp hadded with hearlier | hlast
      · exact hinv.added other iRedisKey hearlier hmem
      · rw [List.mem_singleton.mp hlast] at hmem
        exact ((hinv.holder vRedisKey [] hholder).right iRedisKey hmem).resolve_right
          List.not_mem_nil
    · exact hinv.called
    · exact hinv.commands
  · cases hstep

theorem inv_swap {s t : State} (hinv : Inv s) (hstep : step s .swap = some t) : Inv t := by
  simp only [step] at hstep
  split at hstep
  · rename_i hfree
    cases hstep
    have hmoved : forall iRedisKey, occurrences
        { s with
          subMgr := { s.subMgr with m_listRedisKey := [] },
          writing := s.writing ++ [s.subMgr.m_listRedisKey] } iRedisKey =
          occurrences s iRedisKey := by
      intro iRedisKey
      unfold occurrences
      dsimp only
      rw [List.flatten_append, List.flatten_singleton, List.count_append, List.count_nil]
      omega
    constructor
    · intro iRedisKey
      rw [hmoved]
      exact hinv.known iRedisKey
    · exact hinv.holder
    · exact hinv.rest
    · exact hinv.added
    · exact hinv.called
    · exact hinv.commands
  · cases hstep

theorem inv_write {s t : State} (hinv : Inv s) {i : Nat} (hstep : step s (.write i) = some t) :
    Inv t := by
  simp only [step] at hstep
  split at hstep
  · rename_i listTemp hlist
    cases hstep
    have hmoved : forall iRedisKey, occurrences
        { s with
          writing := s.writing.eraseIdx i,
          commands := s.commands ++ [(listTemp, subString listTemp)] } iRedisKey =
          occurrences s iRedisKey := by
      intro iRedisKey
      rcases Pending.split_at hlist with ⟨before, after, hsplit, herase, _⟩
      unfold occurrences
      dsimp only
      rw [herase, hsplit]
      simp only [List.flatten_append, List.flatten_cons, List.flatMap_append,
        List.flatMap_singleton, List.count_append, count_listed]
      omega
    constructor
    · intro iRedisKey
      rw [hmoved]
      exact hinv.known iRedisKey
    · exact hinv.holder
    · exact hinv.rest
    · exact hinv.added
    · exact hinv.called
    · intro it hmem
      rcases List.mem_append.mp hmem with hearlier | hlast
      · exact hinv.commands it hearlier
      · rw [List.mem_singleton.mp hlast]
  · cases hstep

theorem inv_step {s t : State} {action : Action} (hinv : Inv s)
    (hstep : step s action = some t) : Inv t := by
  cases action with
  | lock vRedisKey => exact inv_lock hinv hstep
  | add => exact inv_add hinv hstep
  | unlock => exact inv_unlock hinv hstep
  | swap => exact inv_swap hinv hstep
  | write i => exact inv_write hinv hstep

/-!
# Every interleaving
-/

theorem groups_subscribed_once (actions : List Action) :
    Transition.AllStates step SubscribedOnce start actions :=
  Transition.allStates_of_invariant (fun _ _ _ hinv _ hstep => inv_step hinv hstep)
    (fun _ => subscribedOnce_of_inv) inv_start
    (Transition.allSteps_of_labels (fun _ _ _ => trivial) start)

end GroupSubscription
end DataHandle
end GMServer
