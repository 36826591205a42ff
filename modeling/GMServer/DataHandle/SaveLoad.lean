import GMServer.DataHandle.LoadFields
import GMServer.DataHandle.Publication

/-!
# Save and load

A save writes the texts of all values of an object, one `HMSET` for each group, and a load
asks for them again.  There are two overloads of each; the test for the name of a group is the
wrong way round in one of them.
-/

namespace GMServer
namespace DataHandle

open Std

namespace RedisAdapter

/-!
# Saving

`m_pRedisWarp` may be the null pointer.
-/

structure Saved (world : Type) where
  state : world
  thrown : Option Exception

/-- `ToString` of the value with a key field. -/
def valueText (mValue : ValueMap) (iKeyField : uint32_t) : Text :=
  match mValue[iKeyField]? with
  | none => []
  | some value => StringValue.ToString value.m_Value

section Saving

variable {world : Type}

/-- What is done for one group behind the test for its name. -/
def saveGroup (server : Option (RedisServer world)) (mgr : KeyFieldMgr) (mValue : ValueMap)
    (state : world) (hash : Text) (listValue : List uint32_t) : Option (Saved world) :=
  match listValue.mapM mgr.FindField, server with
  | some fields, some m_pRedisWarp =>
      (RedisWrap.Execute m_pRedisWarp state
          (HashWrite.text
            { hash := hash, pairs := fields.zip (listValue.map (valueText mValue)) })).map
        (fun next => { state := next, thrown := none })
  | _, _ => some { state := state, thrown := some .runtime_error }

def saveEach (server : Option (RedisServer world)) (mgr : KeyFieldMgr) (mValue : ValueMap)
    (hashOf : Text -> Text) (state : world) :
    List (uint32_t × List uint32_t) -> Option (Saved world)
  | [] => some { state := state, thrown := none }
  | it :: rest =>
      match mgr.FindKey it.1 with
      | none => some { state := state, thrown := some .runtime_error }
      | some sKey =>
          (saveGroup server mgr mValue state (hashOf sKey) it.2).bind (fun saved =>
            if saved.thrown = none then saveEach server mgr mValue hashOf saved.state rest
            else some saved)

/-- A name that is found is reported as missing; without one the null pointer is written to
the stream, for which there is no result. -/
def Save (mgr : KeyFieldMgr) (state : world) (mValue : ValueMap) : Option (Saved world) :=
  match (mapLoad mValue.keys).toList with
  | [] => some { state := state, thrown := none }
  | it :: _ =>
      match mgr.FindKey it.1 with
      | some _ => some { state := state, thrown := some .runtime_error }
      | none => none

def SaveIndex (server : Option (RedisServer world)) (mgr : KeyFieldMgr) (state : world)
    (iKey iIndex : uint64_t) (mValue : ValueMap) : Option (Saved world) :=
  saveEach server mgr mValue (elementHash iKey iIndex) state (mapLoad mValue.keys).toList

end Saving

/-!
# The round trip

Fresh values are given by their key fields.
-/

variable {pointer : Type} {mgr : KeyFieldMgr} {hashOf : Text -> Text} {mValue : ValueMap}
  {server : Option (RedisServer RedisStore)} {store : RedisStore}

def cellOf (mgr : KeyFieldMgr) (hashOf : Text -> Text) (iKeyField : uint32_t) : Text × Text :=
  (hashOf (mgr.keyName iKeyField), mgr.fieldName iKeyField)

/-- What a save that returns leaves behind, and what the load finds. -/
structure SavedAll (server : Option (RedisServer RedisStore)) (mgr : KeyFieldMgr)
    (hashOf : Text -> Text) (mValue : ValueMap)
    (load : RedisServer RedisStore -> RedisStore ->
      Option (Loaded RedisStore × RedisAdapter pointer))
    (before after : RedisStore) : Prop where
  loaded : forall m_pRedisWarp, server = some m_pRedisWarp ->
    exists result, load m_pRedisWarp after = some result ∧ result.1.thrown = none ∧
      forall iKeyField, iKeyField ∈ mValue ->
        textsFor result.1.calls iKeyField = [valueText mValue iKeyField]
  hashes : forall hash,
    (forall iKeyField, iKeyField ∈ mValue -> (cellOf mgr hashOf iKeyField).1 ≠ hash) ->
      after hash = before hash
  fields : forall cell,
    (forall iKeyField, iKeyField ∈ mValue -> cellOf mgr hashOf iKeyField ≠ cell) ->
      hashesOf after cell = hashesOf before cell

/-- A save throws for a reason only, and what it has saved is loaded. -/
def RoundTrip (server : Option (RedisServer RedisStore)) (mgr : KeyFieldMgr)
    (hashOf : Text -> Text) (mValue : ValueMap)
    (load : RedisServer RedisStore -> RedisStore ->
      Option (Loaded RedisStore × RedisAdapter pointer))
    (store : RedisStore) (save : Option (Saved RedisStore)) : Prop :=
  exists saved, save = some saved ∧
    (saved.thrown ≠ none -> server = none ∨
      exists iKeyField, iKeyField ∈ mValue ∧ ¬ mgr.Registered iKeyField) ∧
    (saved.thrown = none -> SavedAll server mgr hashOf mValue load store saved.state)

/-- The texts arrive, the hashes take them, and no field is written twice with different
texts. -/
structure Savable (mgr : KeyFieldMgr) (hashOf : Text -> Text) (mValue : ValueMap)
    (store : RedisStore) : Prop where
  texts : forall iKeyField, iKeyField ∈ mValue -> '\x00' ∉ valueText mValue iKeyField
  typed : forall iKeyField, iKeyField ∈ mValue ->
    fieldsOf (store (cellOf mgr hashOf iKeyField).1) ≠ none
  agree : forall one two, one ∈ mValue -> two ∈ mValue ->
    cellOf mgr hashOf one = cellOf mgr hashOf two -> valueText mValue one = valueText mValue two

/-!
# What is written
-/

def groupWrite (mgr : KeyFieldMgr) (hashOf : Text -> Text) (mValue : ValueMap)
    (it : uint32_t × List uint32_t) : HashWrite :=
  { hash := hashOf (mgr.keyName it.1),
    pairs := it.2.map (fun iKeyField => (mgr.fieldName iKeyField, valueText mValue iKeyField)) }

def groupWrites (mgr : KeyFieldMgr) (hashOf : Text -> Text) (mValue : ValueMap) :
    List HashWrite :=
  (mapLoad mValue.keys).toList.map (groupWrite mgr hashOf mValue)

theorem saveGroup_writes {m_pRedisWarp : RedisServer RedisStore}
    (hserver : HashCommands m_pRedisWarp) (store : RedisStore)
    {it : uint32_t × List uint32_t}
    (hregistered : forall iKeyField, iKeyField ∈ it.2 -> mgr.Registered iKeyField)
    (hwords : WordWrite (groupWrite mgr hashOf mValue it)) :
    saveGroup (some m_pRedisWarp) mgr mValue store (hashOf (mgr.keyName it.1)) it.2 =
      some { state := applyWrite store (groupWrite mgr hashOf mValue it), thrown := none } := by
  have hpairs : (it.2.map mgr.fieldName).zip (it.2.map (valueText mValue)) =
      it.2.map (fun iKeyField => (mgr.fieldName iKeyField, valueText mValue iKeyField)) :=
    List.zip_map'
  unfold saveGroup
  rw [mapM_findField hregistered]
  dsimp only
  rw [hpairs]
  unfold RedisWrap.Execute RedisWrap.DoCmd
  show ((Option.map _ (redisvFormatCommand (groupWrite mgr hashOf mValue it).text)).map _).map _ = _
  rw [format_hashWrite hwords, Option.map_some, Option.map_some, Option.map_some, hserver.hmset]
  rfl

theorem saveEach_writes {m_pRedisWarp : RedisServer RedisStore}
    (hserver : HashCommands m_pRedisWarp) (store : RedisStore)
    {groups : List (uint32_t × List uint32_t)}
    (hgroups : forall it, it ∈ groups -> mgr.FindKey it.1 = some (mgr.keyName it.1) ∧
      (forall iKeyField, iKeyField ∈ it.2 -> mgr.Registered iKeyField) ∧
        WordWrite (groupWrite mgr hashOf mValue it)) :
    saveEach (some m_pRedisWarp) mgr mValue hashOf store groups =
      some
        { state := (groups.map (groupWrite mgr hashOf mValue)).foldl applyWrite store,
          thrown := none } := by
  induction groups generalizing store with
  | nil => rfl
  | cons it groups ih =>
      rcases hgroups it List.mem_cons_self with ⟨hkey, hregistered, hwords⟩
      unfold saveEach
      rw [hkey]
      dsimp only
      rw [saveGroup_writes hserver store hregistered hwords, Option.bind_some, if_pos rfl,
        ih _ (fun other h => hgroups other (List.mem_cons_of_mem it h))]
      rfl

/-- Cells and texts of the values. -/
theorem mem_cells_groupWrites {cell : Text × Text} {text : Text} :
    (cell, text) ∈ (groupWrites mgr hashOf mValue).flatMap HashWrite.cells <->
      exists iKeyField, iKeyField ∈ mValue ∧ cellOf mgr hashOf iKeyField = cell ∧
        valueText mValue iKeyField = text := by
  have hcells : forall it, (groupWrite mgr hashOf mValue it).cells =
      it.2.map (fun iKeyField =>
        ((hashOf (mgr.keyName it.1), mgr.fieldName iKeyField), valueText mValue iKeyField)) :=
    fun it => List.map_map
  have hcell : forall {iKey iKeyField : uint32_t}, keyOf iKeyField = iKey ->
      (hashOf (mgr.keyName iKey), mgr.fieldName iKeyField) = cellOf mgr hashOf iKeyField := by
    intro iKey iKeyField hkey
    rw [← keyName_group mgr hkey]
    rfl
  unfold groupWrites
  rw [List.flatMap_map, List.mem_flatMap]
  constructor
  · rintro ⟨it, hit, hwritten⟩
    rw [hcells] at hwritten
    rcases List.mem_map.mp hwritten with ⟨iKeyField, hmem, hEq⟩
    rcases ((mem_mapLoad hit).right iKeyField).mp hmem with ⟨hvalue, hkey⟩
    rw [hcell hkey] at hEq
    cases hEq
    exact ⟨iKeyField, ExtTreeMap.mem_keys.mp hvalue, rfl, rfl⟩
  · rintro ⟨iKeyField, hvalue, hsame, htext⟩
    rcases exists_mem_mapLoad (ExtTreeMap.mem_keys.mpr hvalue) with ⟨it, hit, hmem⟩
    have hkey := (((mem_mapLoad hit).right iKeyField).mp hmem).right
    refine ⟨it, hit, ?_⟩
    rw [hcells, ← hsame, ← htext, ← hcell hkey]
    exact List.mem_map.mpr ⟨iKeyField, hmem, rfl⟩

theorem exists_of_mem_group {it : uint32_t × List uint32_t}
    (hit : it ∈ (mapLoad mValue.keys).toList) :
    exists iKeyField, iKeyField ∈ mValue ∧ keyOf iKeyField = it.1 := by
  rcases mem_mapLoad hit with ⟨hne, hmem⟩
  rcases List.exists_mem_of_ne_nil _ hne with ⟨iKeyField, hfirst⟩
  rcases (hmem iKeyField).mp hfirst with ⟨hvalue, hkey⟩
  exact ⟨iKeyField, ExtTreeMap.mem_keys.mp hvalue, hkey⟩

theorem mem_of_mem_group {it : uint32_t × List uint32_t}
    (hit : it ∈ (mapLoad mValue.keys).toList) {iKeyField : uint32_t}
    (hmem : iKeyField ∈ it.2) : iKeyField ∈ mValue :=
  ExtTreeMap.mem_keys.mp (((mem_mapLoad hit).right iKeyField).mp hmem).left

theorem registered_group
    (hregistered : forall iKeyField, iKeyField ∈ mValue -> mgr.Registered iKeyField)
    {it : uint32_t × List uint32_t} (hit : it ∈ (mapLoad mValue.keys).toList) :
    mgr.FindKey it.1 = some (mgr.keyName it.1) ∧
      forall iKeyField, iKeyField ∈ it.2 -> mgr.Registered iKeyField := by
  rcases exists_of_mem_group hit with ⟨first, hfirst, hkey⟩
  exact ⟨findKey_group hkey (hregistered first hfirst),
    fun iKeyField hmem => hregistered iKeyField (mem_of_mem_group hit hmem)⟩

theorem valueText_ne_nil {iKeyField : uint32_t} (hmem : iKeyField ∈ mValue) :
    valueText mValue iKeyField ≠ [] := by
  rw [ExtTreeMap.mem_iff_isSome_getElem?] at hmem
  rcases Option.isSome_iff_exists.mp hmem with ⟨value, hvalue⟩
  unfold valueText
  rw [hvalue]
  exact StringValue.toString_ne_nil value.m_Value

/-- Texts that are words are all written. -/
theorem save_writes {m_pRedisWarp : RedisServer RedisStore}
    (hserver : HashCommands m_pRedisWarp) (store : RedisStore)
    (hasked : forall iKeyField, iKeyField ∈ mValue -> Asked mgr hashOf iKeyField)
    (htexts : forall iKeyField, iKeyField ∈ mValue -> IsWord (valueText mValue iKeyField)) :
    saveEach (some m_pRedisWarp) mgr mValue hashOf store (mapLoad mValue.keys).toList =
      some { state := (groupWrites mgr hashOf mValue).foldl applyWrite store, thrown := none } := by
  apply saveEach_writes hserver store
  intro it hit
  rcases registered_group (fun iKeyField h => (hasked iKeyField h).registered) hit with
    ⟨hfound, hregistered⟩
  rcases exists_of_mem_group hit with ⟨first, hfirst, hkey⟩
  refine ⟨hfound, hregistered, ?_, ?_⟩
  · show IsWord (hashOf (mgr.keyName it.1))
    rw [← keyName_group mgr hkey]
    exact (hasked first hfirst).hash
  · intro pair hpair
    rcases List.mem_map.mp hpair with ⟨iKeyField, hmem, hEq⟩
    have hvalue := mem_of_mem_group hit hmem
    rw [← hEq]
    exact ⟨(hasked iKeyField hvalue).field, htexts iKeyField hvalue⟩

theorem readField_eq_hashesOf (store : RedisStore) (iKeyField : uint32_t) :
    readField mgr store hashOf iKeyField =
      (hashesOf store (cellOf mgr hashOf iKeyField)).map cStr := by
  unfold readField hashesOf cellOf
  dsimp only
  cases fieldsOf (store (hashOf (mgr.keyName iKeyField))) with
  | none => rfl
  | some fields => rfl

theorem readField_saved (hsavable : Savable mgr hashOf mValue store) {iKeyField : uint32_t}
    (hmem : iKeyField ∈ mValue) :
    readField mgr ((groupWrites mgr hashOf mValue).foldl applyWrite store) hashOf iKeyField =
      some (valueText mValue iKeyField) := by
  have hwritten : (cellOf mgr hashOf iKeyField, valueText mValue iKeyField) ∈
      (groupWrites mgr hashOf mValue).flatMap HashWrite.cells :=
    mem_cells_groupWrites.mpr ⟨iKeyField, hmem, rfl, rfl⟩
  have hagree : forall text, (cellOf mgr hashOf iKeyField, text) ∈
      (groupWrites mgr hashOf mValue).flatMap HashWrite.cells ->
        text = valueText mValue iKeyField := by
    intro text htext
    rcases mem_cells_groupWrites.mp htext with ⟨other, hother, hcell, hEq⟩
    rw [← hEq]
    exact hsavable.agree other iKeyField hother hmem hcell
  rw [readField_eq_hashesOf, hashesOf_foldl_applyWrite _ (hsavable.typed iKeyField hmem),
    HashWrite.foldl_applyTo, Replay.replay_of_agreeing hwritten hagree, Option.map_some,
    cStr_eq_self (hsavable.texts iKeyField hmem)]

/-!
# What is not written
-/

theorem foldl_applyWrite_frame {writes : List HashWrite} {hash : Text}
    (hother : forall write, write ∈ writes -> write.hash ≠ hash) (store : RedisStore) :
    writes.foldl applyWrite store hash = store hash := by
  induction writes generalizing store with
  | nil => rfl
  | cons write writes ih =>
      rw [List.foldl_cons, ih (fun later h => hother later (List.mem_cons_of_mem write h))]
      exact hmset_frame (Ne.symm (hother write List.mem_cons_self)) _

theorem hashesOf_frame {cell : Text × Text}
    (hother : forall iKeyField, iKeyField ∈ mValue -> cellOf mgr hashOf iKeyField ≠ cell)
    (store : RedisStore) :
    hashesOf ((groupWrites mgr hashOf mValue).foldl applyWrite store) cell =
      hashesOf store cell := by
  by_cases htyped : fieldsOf (store cell.1) = none
  · have hafter := (typed_foldl_applyWrite store (groupWrites mgr hashOf mValue) cell.1).mpr htyped
    unfold hashesOf
    rw [hafter, htyped]
  · rw [hashesOf_foldl_applyWrite _ htyped, HashWrite.foldl_applyTo, Replay.replay_of_not_mem]
    intro hmem
    rcases List.mem_map.mp hmem with ⟨⟨other, text⟩, hwritten, hEq⟩
    rcases mem_cells_groupWrites.mp hwritten with ⟨iKeyField, hvalue, hcell, _⟩
    exact hother iKeyField hvalue (hcell.trans hEq)

theorem hashes_frame {hash : Text}
    (hother : forall iKeyField, iKeyField ∈ mValue -> (cellOf mgr hashOf iKeyField).1 ≠ hash)
    (store : RedisStore) :
    (groupWrites mgr hashOf mValue).foldl applyWrite store hash = store hash := by
  apply foldl_applyWrite_frame
  intro write hwrite
  rcases List.mem_map.mp hwrite with ⟨it, hit, hEq⟩
  rcases exists_of_mem_group hit with ⟨iKeyField, hvalue, hkey⟩
  rw [← hEq]
  show hashOf (mgr.keyName it.1) ≠ hash
  rw [← keyName_group mgr hkey]
  exact hother iKeyField hvalue

/-!
# When the round trip works
-/

theorem isWord_valueText (hplain : forall iKeyField, iKeyField ∈ mValue ->
      Plain (valueText mValue iKeyField))
    (hzero : forall iKeyField, iKeyField ∈ mValue -> '\x00' ∉ valueText mValue iKeyField)
    (iKeyField : uint32_t) (hmem : iKeyField ∈ mValue) : IsWord (valueText mValue iKeyField) :=
  ⟨hplain iKeyField hmem, hzero iKeyField hmem, valueText_ne_nil hmem⟩

theorem loaded_iff {m_pRedisWarp : RedisServer RedisStore} (hserver : HashCommands m_pRedisWarp)
    (adapter : RedisAdapter pointer) (iKey : uint64_t)
    (hasked : forall iKeyField, iKeyField ∈ mValue -> Asked mgr hashOf iKeyField)
    (after : RedisStore) :
    (exists result, loadFrom m_pRedisWarp mgr adapter hashOf after iKey mValue.keys =
        some result ∧ result.1.thrown = none ∧
        forall iKeyField, iKeyField ∈ mValue ->
          textsFor result.1.calls iKeyField = [valueText mValue iKeyField]) <->
      forall iKeyField, iKeyField ∈ mValue ->
        readField mgr after hashOf iKeyField = some (valueText mValue iKeyField) := by
  rcases loadFrom_own hserver adapter after iKey hasked with ⟨result, hload, hown⟩
  have htexts : forall iKeyField, iKeyField ∈ mValue ->
      (textsFor result.1.calls iKeyField = [valueText mValue iKeyField] <->
        readField mgr after hashOf iKeyField = some (valueText mValue iKeyField)) := by
    intro iKeyField hmem
    rw [hown.own iKeyField, if_pos hmem]
    cases readField mgr after hashOf iKeyField with
    | none => exact iff_of_false (fun h => by cases h) (fun h => by cases h)
    | some text => exact List.singleton_inj.trans Option.some_inj.symm
  constructor
  · rintro ⟨other, hother, _, hcalls⟩ iKeyField hmem
    cases hload.symm.trans hother
    exact (htexts iKeyField hmem).mp (hcalls iKeyField hmem)
  · intro hread
    exact ⟨result, hload, hown.returned,
      fun iKeyField hmem => (htexts iKeyField hmem).mpr (hread iKeyField hmem)⟩

theorem savable_of_saved {m_pRedisWarp : RedisServer RedisStore}
    (hserver : HashCommands m_pRedisWarp)
    (hasked : forall iKeyField, iKeyField ∈ mValue -> Asked mgr hashOf iKeyField)
    (hplain : forall iKeyField, iKeyField ∈ mValue -> Plain (valueText mValue iKeyField))
    {saved : Saved RedisStore}
    (hsave : saveEach (some m_pRedisWarp) mgr mValue hashOf store (mapLoad mValue.keys).toList =
      some saved)
    (hread : forall iKeyField, iKeyField ∈ mValue ->
      readField mgr saved.state hashOf iKeyField = some (valueText mValue iKeyField)) :
    Savable mgr hashOf mValue store := by
  have hzero : forall iKeyField, iKeyField ∈ mValue -> '\x00' ∉ valueText mValue iKeyField := by
    intro iKeyField hmem hchar
    have htext := hread iKeyField hmem
    rw [readField_eq_hashesOf] at htext
    rcases Option.map_eq_some_iff.mp htext with ⟨stored, _, hEq⟩
    rw [← hEq] at hchar
    exact (of_mem_cStr hchar).right rfl
  have hwrites := save_writes hserver store hasked (isWord_valueText hplain hzero)
  cases hwrites.symm.trans hsave
  constructor
  case texts => exact hzero
  case typed =>
    intro iKeyField hmem hother
    have hafter := (typed_foldl_applyWrite store (groupWrites mgr hashOf mValue)
      (cellOf mgr hashOf iKeyField).1).mpr hother
    have htext := hread iKeyField hmem
    rw [readField_eq_hashesOf] at htext
    unfold hashesOf at htext
    rw [hafter] at htext
    cases htext
  case agree =>
    intro one two hone htwo hcell
    have hfirst := hread one hone
    have hsecond := hread two htwo
    rw [readField_eq_hashesOf] at hfirst hsecond
    rw [hcell, hsecond] at hfirst
    exact (Option.some.inj hfirst).symm

theorem roundTrip_connected_iff {m_pRedisWarp : RedisServer RedisStore}
    (hserver : HashCommands m_pRedisWarp) (adapter : RedisAdapter pointer) (iKey : uint64_t)
    (hasked : forall iKeyField, iKeyField ∈ mValue -> Asked mgr hashOf iKeyField)
    (hplain : forall iKeyField, iKeyField ∈ mValue -> Plain (valueText mValue iKeyField)) :
    RoundTrip (some m_pRedisWarp) mgr hashOf mValue
        (fun wrap after => loadFrom wrap mgr adapter hashOf after iKey mValue.keys) store
        (saveEach (some m_pRedisWarp) mgr mValue hashOf store (mapLoad mValue.keys).toList) <->
      Savable mgr hashOf mValue store := by
  constructor
  · rintro ⟨saved, hsave, hthrows, hreturns⟩
    have hreturned : saved.thrown = none := by
      by_contra hthrown
      rcases hthrows hthrown with hnone | ⟨iKeyField, hmem, hmissing⟩
      · cases hnone
      · exact hmissing (hasked iKeyField hmem).registered
    exact savable_of_saved hserver hasked hplain hsave
      ((loaded_iff hserver adapter iKey hasked saved.state).mp
        ((hreturns hreturned).loaded m_pRedisWarp rfl))
  · intro hsavable
    refine ⟨_, save_writes hserver store hasked (isWord_valueText hplain hsavable.texts),
      fun h => absurd rfl h, fun _ => ?_⟩
    constructor
    case loaded =>
      intro wrap hwrap
      cases hwrap
      exact (loaded_iff hserver adapter iKey hasked _).mpr
        (fun iKeyField hmem => readField_saved hsavable hmem)
    case hashes => exact fun hash hother => hashes_frame hother store
    case fields => exact fun cell hother => hashesOf_frame hother store

theorem saveEach_alone (mgr : KeyFieldMgr) (hashOf : Text -> Text) (mValue : ValueMap)
    (store : RedisStore) (groups : List (uint32_t × List uint32_t)) :
    exists thrown, saveEach none mgr mValue hashOf store groups =
      some { state := store, thrown := thrown } := by
  cases groups with
  | nil => exact ⟨none, rfl⟩
  | cons it groups =>
      unfold saveEach
      cases mgr.FindKey it.1 with
      | none => exact ⟨_, rfl⟩
      | some sKey =>
          unfold saveGroup
          cases it.2.mapM mgr.FindField with
          | none => exact ⟨_, rfl⟩
          | some fields => exact ⟨_, rfl⟩

/-- Without a connection nothing is saved. -/
theorem roundTrip_alone {load : RedisServer RedisStore -> RedisStore ->
      Option (Loaded RedisStore × RedisAdapter pointer)} {thrown : Option Exception} :
    RoundTrip none mgr hashOf mValue load store (some { state := store, thrown := thrown }) :=
  ⟨_, rfl, fun _ => Or.inl rfl, fun _ =>
    { loaded := fun _ h => absurd h.symm (Option.some_ne_none _),
      hashes := fun _ _ => rfl,
      fields := fun _ _ => rfl }⟩

theorem roundTrip_each_iff
    (hserver : forall m_pRedisWarp, server = some m_pRedisWarp -> HashCommands m_pRedisWarp)
    (adapter : RedisAdapter pointer) (iKey : uint64_t)
    (hasked : forall iKeyField, iKeyField ∈ mValue -> Asked mgr hashOf iKeyField)
    (hplain : forall iKeyField, iKeyField ∈ mValue -> Plain (valueText mValue iKeyField)) :
    RoundTrip server mgr hashOf mValue
        (fun wrap after => loadFrom wrap mgr adapter hashOf after iKey mValue.keys) store
        (saveEach server mgr mValue hashOf store (mapLoad mValue.keys).toList) <->
      server = none ∨ Savable mgr hashOf mValue store := by
  cases server with
  | none =>
      rcases saveEach_alone mgr hashOf mValue store
        (mapLoad mValue.keys).toList with ⟨thrown, hsave⟩
      rw [hsave]
      exact iff_of_true roundTrip_alone (Or.inl rfl)
  | some m_pRedisWarp =>
      rw [roundTrip_connected_iff (hserver m_pRedisWarp rfl) adapter iKey hasked hplain]
      exact ⟨Or.inr, fun h => h.resolve_left (fun hnone => by cases hnone)⟩

theorem roundTrip_struct_iff
    (hserver : forall m_pRedisWarp, server = some m_pRedisWarp -> HashCommands m_pRedisWarp)
    (adapter : RedisAdapter pointer) (iKey : uint64_t)
    (hregistered : forall iKeyField, iKeyField ∈ mValue -> mgr.Registered iKeyField) :
    RoundTrip server mgr hashOf mValue
        (fun wrap after => loadFrom wrap mgr adapter hashOf after iKey mValue.keys) store
        (Save mgr store mValue) <->
      (forall iKeyField, iKeyField ∉ mValue) ∨ server = none := by
  unfold Save
  cases hgroups : (mapLoad mValue.keys).toList with
  | nil =>
      have hempty : forall iKeyField, iKeyField ∉ mValue := by
        intro iKeyField hmem
        rcases exists_mem_mapLoad (ExtTreeMap.mem_keys.mpr hmem) with ⟨it, hit, _⟩
        rw [hgroups] at hit
        cases hit
      refine iff_of_true ⟨_, rfl, fun h => absurd rfl h, fun _ => ?_⟩ (Or.inl hempty)
      constructor
      case loaded =>
        intro m_pRedisWarp hwrap
        have hasked : forall iKeyField, iKeyField ∈ mValue -> Asked mgr hashOf iKeyField :=
          fun iKeyField hmem => absurd hmem (hempty iKeyField)
        exact (loaded_iff (hserver m_pRedisWarp hwrap) adapter iKey hasked store).mpr
          (fun iKeyField hmem => absurd hmem (hempty iKeyField))
      case hashes => exact fun _ _ => rfl
      case fields => exact fun _ _ => rfl
  | cons it groups =>
      have hit : it ∈ (mapLoad mValue.keys).toList := by
        rw [hgroups]
        exact List.mem_cons_self
      rcases exists_of_mem_group hit with ⟨first, hfirst, hkey⟩
      dsimp only
      rw [findKey_group hkey (hregistered first hfirst)]
      constructor
      · rintro ⟨saved, hsave, hthrows, _⟩
        cases hsave
        rcases hthrows (fun h => by cases h) with hnone | ⟨iKeyField, hmem, hmissing⟩
        · exact Or.inr hnone
        · exact absurd (hregistered iKeyField hmem) hmissing
      · rintro (hempty | hnone)
        · exact absurd hfirst (hempty first)
        · rw [hnone]
          exact roundTrip_alone

/-- `Save(iKey, mValue)` does it only for nothing or without a connection; the overload for
elements does it for everything that can be saved. -/
theorem save_load_iff
    (hserver : forall m_pRedisWarp, server = some m_pRedisWarp -> HashCommands m_pRedisWarp)
    (hregistered : forall iKeyField, iKeyField ∈ mValue -> mgr.Registered iKeyField)
    (hplain : forall iKeyField, iKeyField ∈ mValue -> Plain (valueText mValue iKeyField))
    (adapter : RedisAdapter pointer) (store : RedisStore) (iKey iIndex : uint64_t) :
    (RoundTrip server mgr (structHash iKey) mValue
        (fun wrap after => Load wrap mgr adapter after iKey mValue.keys) store
        (Save mgr store mValue) <->
      (forall iKeyField, iKeyField ∉ mValue) ∨ server = none) ∧
    ((forall iKeyField, iKeyField ∈ mValue -> QueryNames mgr iKeyField) ->
      (RoundTrip server mgr (elementHash iKey iIndex) mValue
          (fun wrap after => LoadIndex wrap mgr adapter after iKey iIndex mValue.keys) store
          (SaveIndex server mgr store iKey iIndex mValue) <->
        server = none ∨ Savable mgr (elementHash iKey iIndex) mValue store)) := by
  constructor
  · exact roundTrip_struct_iff hserver adapter iKey hregistered
  · intro hnames
    exact roundTrip_each_iff hserver adapter iKey
      (fun iKeyField h => asked_element (hnames iKeyField h) iKey iIndex) hplain

/-- A store without hashes. -/
def emptyStore : RedisStore := fun _ => none

theorem twoKeys_roundTrip :
    RoundTrip (some hashServer) twoKeysMgr (elementHash 1 2) threeFields
      (fun wrap after => LoadIndex wrap twoKeysMgr idleAdapter after 1 2 threeFields.keys)
      emptyStore
      (SaveIndex (some hashServer) twoKeysMgr emptyStore 1 2 threeFields) := by
  have hserver : forall m_pRedisWarp, some hashServer = some m_pRedisWarp ->
      HashCommands m_pRedisWarp := by
    intro m_pRedisWarp hwrap
    cases hwrap
    exact hashServer_commands
  have hplain : forall iKeyField, iKeyField ∈ threeFields ->
      Plain (valueText threeFields iKeyField) := by
    intro iKeyField hmem
    rcases mem_threeFields hmem with rfl | rfl | rfl
    · decide
    · decide
    · decide
  have hregistered : forall iKeyField, iKeyField ∈ threeFields ->
      twoKeysMgr.Registered iKeyField :=
    fun _ hmem => (queryNames_threeFields hmem).registered
  apply ((save_load_iff hserver hregistered hplain idleAdapter emptyStore 1 2).right
    (fun _ hmem => queryNames_threeFields hmem)).mpr
  right
  constructor
  case texts =>
    intro iKeyField hmem
    rcases mem_threeFields hmem with rfl | rfl | rfl
    · decide
    · decide
    · decide
  case typed => exact fun _ _ => Option.some_ne_none _
  case agree =>
    -- no two of the fields have one name
    have hdistinct : forall one two, one ∈ threeFields -> two ∈ threeFields ->
        twoKeysMgr.fieldName one = twoKeysMgr.fieldName two -> one = two := by
      intro one two hone htwo
      rcases mem_threeFields hone with rfl | rfl | rfl <;>
        rcases mem_threeFields htwo with rfl | rfl | rfl <;> decide
    intro one two hone htwo hcell
    rw [hdistinct one two hone htwo (congrArg Prod.snd hcell)]

theorem eq_of_mem_oneField {iKeyField : uint32_t} (hmem : iKeyField ∈ oneField) :
    iKeyField = 0x101 := by
  rcases ExtTreeMap.mem_insert.mp hmem with hsame | hnone
  · exact (Std.compare_eq_iff_eq.mp hsame).symm
  · exact absurd hnone ExtTreeMap.not_mem_empty

/-- The name of the group is there, and the save reports that it is not. -/
theorem rate_not_saved :
    ¬ RoundTrip (some hashServer) (oneFieldMgr "rate".toList) (structHash 1) oneField
        (fun wrap after =>
          Load wrap (oneFieldMgr "rate".toList) idleAdapter after 1 oneField.keys)
        emptyStore (Save (oneFieldMgr "rate".toList) emptyStore oneField) := by
  have hsave : Save (oneFieldMgr "rate".toList) emptyStore oneField =
      some { state := emptyStore, thrown := some .runtime_error } := rfl
  rintro ⟨saved, hsaved, hthrows, _⟩
  cases hsave.symm.trans hsaved
  rcases hthrows (fun h => by cases h) with hnone | ⟨iKeyField, hmem, hmissing⟩
  · cases hnone
  · rw [eq_of_mem_oneField hmem] at hmissing
    exact hmissing ⟨"user".toList, "rate".toList, by decide, by decide⟩

end RedisAdapter
end DataHandle
end GMServer
