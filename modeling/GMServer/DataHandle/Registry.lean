import GMServer.DataHandle.KeyFieldMgr
import GMServer.Library.Transition

/-!
# Registering and looking up

Runs of the calls that register keys, fields and tables.  Four of the lookups cut the low
byte off the index they are given; `FindDataKey` asks for its truth value instead, and no
key is ever registered under 1.
-/

namespace GMServer
namespace DataHandle

/-- A call of `AddField` goes with the order in which the map is iterated afterwards. -/
inductive RegistryCall where
  | AddKey (pKey : Text) (iIndex : uint32_t)
  | AddField (pField : Text) (iIndex : uint32_t) (eType : FieldType)
      (mField : List (uint32_t × FiledNameType))
  | AddPackageDB (pDB : Text) (iIndex : uint32_t)
  | AddRepeatedDB (pDB : Text) (iIndex : uint32_t)
  deriving DecidableEq

namespace Registry

open Transition KeyFieldMgr

def step (mgr : KeyFieldMgr) : RegistryCall -> Option KeyFieldMgr
  | .AddKey pKey iIndex => some (mgr.AddKey pKey iIndex)
  | .AddField pField iIndex eType mField => mgr.AddField pField iIndex eType mField
  | .AddPackageDB pDB iIndex => some (mgr.AddPackageDB pDB iIndex)
  | .AddRepeatedDB pDB iIndex => some (mgr.AddRepeatedDB pDB iIndex)

/-- The registries that the program can have. -/
def Built (calls : List RegistryCall) (mgr : KeyFieldMgr) : Prop :=
  Run step KeyFieldMgr.empty calls = some mgr

/-!
# Which keys are known
-/

def UsesKey (iKey : uint32_t) : RegistryCall -> Prop
  | .AddKey _ iIndex => keyOf iIndex = iKey
  | .AddField _ iIndex _ _ => keyOf iIndex = iKey
  | _ => False

def KeyUsed (calls : List RegistryCall) (iKey : uint32_t) : Prop :=
  exists call, call ∈ calls ∧ UsesKey iKey call

theorem addField_eq_some {mgr next : KeyFieldMgr} {pField : Text} {iIndex : uint32_t}
    {eType : FieldType} {mField : List (uint32_t × FiledNameType)}
    (h : mgr.AddField pField iIndex eType mField = some next) :
    next = { mgr with
      mKey := Function.update mgr.mKey (keyOf iIndex)
        (some { mgr.dataKey (keyOf iIndex) with mField := mField }) } := by
  unfold AddField at h
  dsimp only at h
  split at h
  · exact (Option.some.inj h).symm
  · cases h

/-- A call makes the key that it uses known and forgets none. -/
theorem step_known {mgr next : KeyFieldMgr} {call : RegistryCall}
    (hstep : step mgr call = some next) (iKey : uint32_t) :
    next.mKey iKey ≠ none <-> mgr.mKey iKey ≠ none ∨ UsesKey iKey call := by
  have hupdate : forall (iIndex : uint32_t) (key : Datakey),
      Function.update mgr.mKey (keyOf iIndex) (some key) iKey ≠ none <->
        mgr.mKey iKey ≠ none ∨ keyOf iIndex = iKey := by
    intro iIndex key
    by_cases hsame : keyOf iIndex = iKey
    · rw [hsame, Function.update_self]
      exact iff_of_true (Option.some_ne_none key) (Or.inr rfl)
    · rw [Function.update_of_ne (Ne.symm hsame)]
      exact (or_iff_left hsame).symm
  cases call with
  | AddKey pKey iIndex =>
      cases hstep
      exact hupdate iIndex _
  | AddField pField iIndex eType mField =>
      rw [addField_eq_some hstep]
      exact hupdate iIndex _
  | AddPackageDB pDB iIndex =>
      cases hstep
      exact (or_iff_left (fun h : False => h)).symm
  | AddRepeatedDB pDB iIndex =>
      cases hstep
      exact (or_iff_left (fun h : False => h)).symm

theorem run_known {mgr last : KeyFieldMgr} {calls : List RegistryCall}
    (hrun : Run step mgr calls = some last) (iKey : uint32_t) :
    last.mKey iKey ≠ none <-> mgr.mKey iKey ≠ none ∨ KeyUsed calls iKey := by
  induction calls generalizing mgr with
  | nil =>
      cases hrun
      constructor
      · intro h
        exact Or.inl h
      · intro h
        rcases h with h | ⟨call, hmem, _⟩
        · exact h
        · cases hmem
  | cons call rest ih =>
      rcases run_cons_eq_some hrun with ⟨next, hstep, hrest⟩
      have hused : KeyUsed (call :: rest) iKey <-> UsesKey iKey call ∨ KeyUsed rest iKey := by
        unfold KeyUsed
        simp only [List.mem_cons, exists_eq_or_imp]
      rw [ih hrest, step_known hstep, hused, or_assoc]

theorem known_iff {calls : List RegistryCall} {mgr : KeyFieldMgr} (hbuilt : Built calls mgr)
    (iKey : uint32_t) : mgr.mKey iKey ≠ none <-> KeyUsed calls iKey := by
  rw [run_known hbuilt]
  exact or_iff_right (fun h => h rfl)

/-- Every key is known under its own number. -/
theorem keyOf_of_known {calls : List RegistryCall} {mgr : KeyFieldMgr}
    (hbuilt : Built calls mgr) {iKey : uint32_t} (hknown : mgr.mKey iKey ≠ none) :
    keyOf iKey = iKey := by
  rcases (known_iff hbuilt iKey).mp hknown with ⟨call, _, huses⟩
  cases call with
  | AddKey pKey iIndex =>
      have hkey : keyOf iIndex = iKey := huses
      rw [← hkey, keyOf_keyOf]
  | AddField pField iIndex eType mField =>
      have hkey : keyOf iIndex = iKey := huses
      rw [← hkey, keyOf_keyOf]
  | AddPackageDB pDB iIndex => cases huses
  | AddRepeatedDB pDB iIndex => cases huses

/-- Only the key zero is ever found. -/
theorem findDataKey_eq {calls : List RegistryCall} {mgr : KeyFieldMgr}
    (hbuilt : Built calls mgr) (iKey : uint32_t) :
    mgr.FindDataKey iKey = if iKey = 0 then mgr.mKey 0 else none := by
  unfold FindDataKey truthOf
  by_cases hzero : iKey = 0
  · rw [if_neg (fun h => h.left hzero), if_pos hzero]
  · rw [if_pos ⟨hzero, by decide⟩, if_neg hzero]
    by_contra hone
    exact absurd (keyOf_of_known hbuilt hone) (by decide)

/-!
# Which table is known for an index
-/

/-- The last registration of a repeated table is the one of this index. -/
def RepeatedAs (calls : List RegistryCall) (pDB : Text) (iIndex : uint32_t) : Prop :=
  exists before after, calls = before ++ .AddRepeatedDB pDB iIndex :: after ∧
    forall other, RegistryCall.AddRepeatedDB pDB other ∉ after

theorem step_repeated {mgr next : KeyFieldMgr} {call : RegistryCall} {pDB : Text}
    (hstep : step mgr call = some next)
    (hother : forall other, call ≠ .AddRepeatedDB pDB other) :
    next.mRepeatedDBName pDB = mgr.mRepeatedDBName pDB := by
  cases call with
  | AddKey pKey iIndex =>
      cases hstep
      rfl
  | AddField pField iIndex eType mField =>
      rw [addField_eq_some hstep]
  | AddPackageDB table iIndex =>
      cases hstep
      rfl
  | AddRepeatedDB table iIndex =>
      cases hstep
      apply Function.update_of_ne
      intro hEq
      exact hother iIndex (hEq ▸ rfl)

theorem run_repeated {mgr last : KeyFieldMgr} {calls : List RegistryCall} {pDB : Text}
    (hrun : Run step mgr calls = some last)
    (hother : forall other, RegistryCall.AddRepeatedDB pDB other ∉ calls) :
    last.mRepeatedDBName pDB = mgr.mRepeatedDBName pDB := by
  induction calls generalizing mgr with
  | nil =>
      cases hrun
      rfl
  | cons call rest ih =>
      rcases run_cons_eq_some hrun with ⟨next, hstep, hrest⟩
      rw [ih hrest (fun other h => hother other (List.mem_cons_of_mem call h))]
      apply step_repeated hstep
      intro other hEq
      exact hother other (hEq ▸ List.mem_cons_self)

theorem run_split {mgr last : KeyFieldMgr} {before after : List RegistryCall}
    (hrun : Run step mgr (before ++ after) = some last) :
    exists middle, Run step mgr before = some middle ∧ Run step middle after = some last := by
  induction before generalizing mgr with
  | nil => exact ⟨mgr, rfl, hrun⟩
  | cons call rest ih =>
      rcases run_cons_eq_some hrun with ⟨next, hstep, hrest⟩
      rcases ih hrest with ⟨middle, hbefore, hafter⟩
      exact ⟨middle, (run_cons_of_step rest hstep).trans hbefore, hafter⟩

theorem mRepeatedDBName_of_last {calls : List RegistryCall} {mgr : KeyFieldMgr}
    (hbuilt : Built calls mgr) {pDB : Text} {iIndex : uint32_t}
    (hlast : RepeatedAs calls pDB iIndex) : mgr.mRepeatedDBName pDB = some iIndex := by
  rcases hlast with ⟨before, after, hcalls, hother⟩
  unfold Built at hbuilt
  rw [hcalls] at hbuilt
  rcases run_split hbuilt with ⟨middle, _, hafter⟩
  rcases run_cons_eq_some hafter with ⟨next, hstep, hrest⟩
  cases hstep
  rw [run_repeated hrest hother]
  exact Function.update_self ..

/-!
# Which keys a table has

A set knows each index once.
-/

theorem step_package {mgr next : KeyFieldMgr} {call : RegistryCall} {pDB : Text}
    (hstep : step mgr call = some next) (h : (mgr.FindPackageDB pDB).Nodup) :
    (next.FindPackageDB pDB).Nodup := by
  cases call with
  | AddKey pKey iIndex =>
      cases hstep
      exact h
  | AddField pField iIndex eType mField =>
      rw [addField_eq_some hstep]
      exact h
  | AddRepeatedDB table iIndex =>
      cases hstep
      exact h
  | AddPackageDB table iIndex =>
      cases hstep
      unfold FindPackageDB AddPackageDB
      dsimp only
      by_cases hsame : pDB = table
      · rw [hsame, Function.update_self]
        rw [hsame] at h
        split
        · exact h
        · rename_i hnew
          exact (List.perm_orderedInsert _ _ _).nodup_iff.mpr (List.nodup_cons.mpr ⟨hnew, h⟩)
      · rw [Function.update_of_ne hsame]
        exact h

theorem findPackageDB_nodup {calls : List RegistryCall} {mgr : KeyFieldMgr}
    (hbuilt : Built calls mgr) (pDB : Text) : (mgr.FindPackageDB pDB).Nodup := by
  have hkeep : forall s call t, (s.FindPackageDB pDB).Nodup -> True -> step s call = some t ->
      (t.FindPackageDB pDB).Nodup :=
    fun s call t h _ hstep => step_package hstep h
  have hsteps : AllSteps step (fun _ _ => True) KeyFieldMgr.empty calls :=
    allSteps_of_labels (fun _ _ _ => trivial) KeyFieldMgr.empty
  have hempty : (KeyFieldMgr.empty.FindPackageDB pDB).Nodup := List.nodup_nil
  exact run_invariant hkeep hempty hsteps hbuilt

/-- Of the keys of a table only the key zero is found. -/
theorem filterMap_findDataKey {calls : List RegistryCall} {mgr : KeyFieldMgr}
    (hbuilt : Built calls mgr) (pDB : Text) :
    (mgr.FindPackageDB pDB).filterMap mgr.FindDataKey =
      if 0 ∈ mgr.FindPackageDB pDB then (mgr.mKey 0).toList else [] := by
  have hnodup := findPackageDB_nodup hbuilt pDB
  generalize mgr.FindPackageDB pDB = indices at hnodup ⊢
  induction indices with
  | nil => rfl
  | cons iIndex rest ih =>
      rcases List.nodup_cons.mp hnodup with ⟨hfresh, hrest⟩
      rw [List.filterMap_cons, findDataKey_eq hbuilt, ih hrest]
      by_cases hzero : iIndex = 0
      · rw [hzero] at hfresh
        rw [if_pos hzero, if_neg hfresh, hzero, if_pos List.mem_cons_self]
        cases mgr.mKey 0 with
        | none => rfl
        | some key => rfl
      · rw [if_neg hzero]
        exact if_congr (List.mem_cons.trans (or_iff_right (fun h => hzero h.symm))).symm rfl rfl

/-!
# Agreement
-/

/-- What the lookups of an index should have to do with each other and with the calls. -/
structure LookupsAgree (calls : List RegistryCall) (mgr : KeyFieldMgr) (i : uint32_t) : Prop where
  found : mgr.FindDataKey i ≠ none <-> KeyUsed calls (keyOf i)
  absent : mgr.FindDataKey i = none ->
    mgr.FindKey i = none ∧ mgr.FindField i = none ∧ mgr.FindKeyField i = (none, none)
  present : forall key, mgr.FindDataKey i = some key ->
    key.pName = mgr.FindKey i ∧ key.GetField (i &&& 0xFF) = mgr.FindField i ∧
      mgr.FindKeyField i = (mgr.FindKey i, mgr.FindField i)
  repeated : forall pDB, RepeatedAs calls pDB i -> KeyUsed calls (keyOf i) ->
    mgr.FindRepeatedDB pDB = mgr.FindDataKey i

/-- The lookups that cut the low byte off agree with the entry of the key. -/
theorem lookups_of_entry (mgr : KeyFieldMgr) (i : uint32_t) :
    match mgr.mKey (keyOf i) with
    | none => mgr.FindKey i = none ∧ mgr.FindField i = none ∧ mgr.FindKeyField i = (none, none)
    | some key => key.pName = mgr.FindKey i ∧ key.GetField (i &&& 0xFF) = mgr.FindField i ∧
        mgr.FindKeyField i = (mgr.FindKey i, mgr.FindField i) := by
  unfold FindKey FindField FindKeyField
  cases hkey : mgr.mKey (keyOf i) with
  | none => exact ⟨rfl, rfl, rfl⟩
  | some key => exact ⟨rfl, rfl, rfl⟩

/-- They agree on the index zero and on the indices whose key nobody registered. -/
theorem lookups_agree_iff {calls : List RegistryCall} {mgr : KeyFieldMgr}
    (hbuilt : Built calls mgr) (i : uint32_t) :
    LookupsAgree calls mgr i <-> i = 0 ∨ ¬ KeyUsed calls (keyOf i) := by
  have hlookups := lookups_of_entry mgr i
  have hknown := known_iff hbuilt (keyOf i)
  have hfind := findDataKey_eq hbuilt i
  constructor
  · intro h
    by_cases hzero : i = 0
    · exact Or.inl hzero
    · right
      intro hused
      apply h.found.mpr hused
      rw [hfind, if_neg hzero]
  · intro h
    have hentry : mgr.FindDataKey i = mgr.mKey (keyOf i) := by
      rcases h with hzero | hunused
      · rw [hfind, if_pos hzero, hzero]
        rfl
      · have hnone : mgr.mKey (keyOf i) = none := by
          by_contra hsome
          exact hunused (hknown.mp hsome)
        rw [hfind, hnone]
        split
        · rename_i hzero
          rw [hzero] at hnone
          exact hnone
        · rfl
    constructor
    · rw [hentry, hknown]
    · intro hnone
      rw [hentry] at hnone
      rw [hnone] at hlookups
      exact hlookups
    · intro key hkey
      rw [hentry] at hkey
      rw [hkey] at hlookups
      exact hlookups
    · intro pDB hlast hused
      have hzero := h.resolve_right (fun hunused => hunused hused)
      unfold FindRepeatedDB
      rw [mRepeatedDBName_of_last hbuilt hlast, hentry, hzero]
      rfl

/-!
# Two keys

One key with the number zero and one with another.
-/

def levelField : FiledNameType := { Name := "Level".toList, eType := .FT_uint32_t }

def playerCalls : List RegistryCall :=
  [.AddKey "player.base".toList 0,
    .AddField "Level".toList 0 .FT_uint32_t [(0, levelField)],
    .AddKey "player.bagequip".toList 0x100,
    .AddRepeatedDB "player_bagequip".toList 0x100]

theorem playerCalls_built : exists mgr, Built playerCalls mgr :=
  Option.isSome_iff_exists.mp (by decide)

theorem level_agrees : exists mgr, Built playerCalls mgr ∧ LookupsAgree playerCalls mgr 0 := by
  rcases playerCalls_built with ⟨mgr, hbuilt⟩
  exact ⟨mgr, hbuilt, (lookups_agree_iff hbuilt 0).mpr (Or.inl rfl)⟩

/-- The second key is registered, and its entry is not found. -/
theorem bagequip_disagrees :
    exists mgr, Built playerCalls mgr ∧ ¬ LookupsAgree playerCalls mgr 0x100 := by
  rcases playerCalls_built with ⟨mgr, hbuilt⟩
  have hused : KeyUsed playerCalls (keyOf 0x100) :=
    ⟨.AddKey "player.bagequip".toList 0x100, by decide, rfl⟩
  refine ⟨mgr, hbuilt, ?_⟩
  intro h
  apply h.found.mpr hused
  rw [findDataKey_eq hbuilt, if_neg (by decide)]

end Registry
end DataHandle
end GMServer
