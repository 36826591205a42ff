import GMServer.DataHandle.StructSync
import GMServer.DataHandle.RedisAdapter

/-!
# Every value gets its own field

A load takes the values of an object apart into groups, asks for each group in one command
and hands out the reply by position.  The names go into the command as they are, so that they
must be words; then no value gets the text of another one.
-/

namespace GMServer
namespace DataHandle

open Std

namespace RedisAdapter

variable {pointer : Type} {mgr : KeyFieldMgr} {store : RedisStore} {hashOf : Text -> Text}

/-- The texts that a value was given, in their order. -/
def textsFor (calls : List (uint32_t × Text)) (iKeyField : uint32_t) : List Text :=
  (calls.filter (fun call => call.1 = iKeyField)).map Prod.snd

/-!
# Position and field
-/

theorem sublist_mapLoad {mValue : List uint32_t} {it : uint32_t × List uint32_t}
    (h : it ∈ (mapLoad mValue).toList) : List.Sublist it.2 mValue := by
  have hget := ExtTreeMap.mem_toList_iff_getElem?_eq_some.mp h
  rw [getElem?_mapLoad] at hget
  split at hget
  · cases hget
  · rw [← Option.some.inj hget]
    exact List.filter_sublist

theorem readCalls_sublist (listValue : List uint32_t) :
    List.Sublist ((readCalls mgr store hashOf listValue).map Prod.fst) listValue := by
  unfold readCalls
  induction listValue with
  | nil => exact List.Sublist.slnil
  | cons iKeyField listValue ih =>
      rw [List.filterMap_cons]
      cases readField mgr store hashOf iKeyField with
      | none => exact ih.cons iKeyField
      | some text => exact ih.cons_cons iKeyField

/-- No value is called twice. -/
theorem nodup_callsOf {mValue : List uint32_t} (hdistinct : mValue.Nodup) :
    ((callsOf mgr store hashOf mValue).map Prod.fst).Nodup := by
  unfold callsOf
  rw [List.map_flatMap]
  apply Replay.nodup_flatMap_of_label (g := keyOf) (SortedMap.nodup_keys (mapLoad mValue))
  · intro it hit
    exact (hdistinct.sublist (sublist_mapLoad hit)).sublist (readCalls_sublist it.2)
  · intro it hit iKeyField hmem
    have hgroup := (readCalls_sublist it.2).mem hmem
    exact (((mem_mapLoad hit).right iKeyField).mp hgroup).right

theorem textsFor_callsOf {mValue : List uint32_t} (hdistinct : mValue.Nodup)
    (iKeyField : uint32_t) :
    textsFor (callsOf mgr store hashOf mValue) iKeyField =
      if iKeyField ∈ mValue then (readField mgr store hashOf iKeyField).toList else [] := by
  have hnone : (forall text, (iKeyField, text) ∉ callsOf mgr store hashOf mValue) ->
      textsFor (callsOf mgr store hashOf mValue) iKeyField = [] := by
    intro habsent
    unfold textsFor
    rw [List.map_eq_nil_iff, List.filter_eq_nil_iff]
    intro call hcall hsame
    apply habsent call.2
    rw [← of_decide_eq_true hsame]
    exact hcall
  by_cases hmem : iKeyField ∈ mValue
  · rw [if_pos hmem]
    cases hread : readField mgr store hashOf iKeyField with
    | none =>
        apply hnone
        intro text hcall
        rw [(mem_callsOf.mp hcall).right] at hread
        cases hread
    | some text =>
        unfold textsFor
        rw [Replay.filter_of_distinct (nodup_callsOf hdistinct) (mem_callsOf.mpr ⟨hmem, hread⟩)]
        rfl
  · rw [if_neg hmem]
    exact hnone (fun text hcall => hmem (mem_callsOf.mp hcall).left)

/-!
# What the listener records
-/

theorem mem_keys_mapLoad {mValue : List uint32_t} {iRedisKey : uint32_t} :
    iRedisKey ∈ (mapLoad mValue).keys <->
      exists iKeyField, iKeyField ∈ mValue ∧ keyOf iKeyField = iRedisKey := by
  rw [ExtTreeMap.mem_keys, ExtTreeMap.mem_iff_isSome_getElem?, getElem?_mapLoad]
  constructor
  · intro hsome
    split at hsome
    · cases hsome
    · rename_i hne
      rcases List.exists_mem_of_ne_nil _ hne with ⟨iKeyField, hmem⟩
      rw [List.mem_filter, decide_eq_true_eq] at hmem
      exact ⟨iKeyField, hmem⟩
  · rintro ⟨iKeyField, hmem, hkey⟩
    have hfilter : iKeyField ∈ mValue.filter (fun iKeyField => keyOf iKeyField = iRedisKey) :=
      List.mem_filter.mpr ⟨hmem, decide_eq_true hkey⟩
    rw [if_neg (List.ne_nil_of_mem hfilter)]
    rfl

end RedisAdapter

theorem RedisListen.mem_merge (listen : RedisListen) (iKey : uint64_t)
    (vRedisKey : List uint32_t) (iRedisKey : uint32_t) :
    iRedisKey ∈ (listen.Merge iKey vRedisKey).m_vRedisKey <->
      iRedisKey ∈ vRedisKey ∨ iRedisKey ∈ listen.m_vRedisKey := by
  unfold RedisListen.Merge
  dsimp only
  generalize listen.m_vRedisKey = known
  induction vRedisKey generalizing known with
  | nil => simp only [List.foldl_nil, List.not_mem_nil, false_or]
  | cons first vRedisKey ih =>
      rw [List.foldl_cons, ih, List.mem_insert_iff, List.mem_cons, or_left_comm, or_assoc]

namespace RedisAdapter

/-!
# The loads
-/

/-- A registered key field whose names are no more than one argument each. -/
structure QueryNames (mgr : KeyFieldMgr) (iKeyField : uint32_t) : Prop where
  registered : mgr.Registered iKeyField
  key : Plain (mgr.keyName iKeyField) ∧ '\x00' ∉ mgr.keyName iKeyField
  field : IsWord (mgr.fieldName iKeyField)

/-- How a load of these values ends. -/
structure LoadedOwn (mgr : KeyFieldMgr) (store : RedisStore) (hashOf : Text -> Text)
    (iKey : uint64_t) (mValue : ValueMap) (adapter : RedisAdapter pointer)
    (result : Loaded RedisStore × RedisAdapter pointer) : Prop where
  returned : result.1.thrown = none
  kept : result.1.state = store
  own : forall iKeyField, textsFor result.1.calls iKeyField =
    if iKeyField ∈ mValue then (readField mgr store hashOf iKeyField).toList else []
  keys : forall iOther, iOther ∈ result.2.m_Listen.m_vKey <->
    iOther = iKey ∨ iOther ∈ adapter.m_Listen.m_vKey
  groups : forall iRedisKey, iRedisKey ∈ result.2.m_Listen.m_vRedisKey <->
    (exists iKeyField, iKeyField ∈ mValue ∧ keyOf iKeyField = iRedisKey) ∨
      iRedisKey ∈ adapter.m_Listen.m_vRedisKey

theorem nodup_keys_values (mValue : ValueMap) : mValue.keys.Nodup := by
  rw [← ExtTreeMap.map_fst_toList_eq_keys]
  exact SortedMap.nodup_keys mValue

theorem loadFrom_own {server : RedisServer RedisStore} (hserver : HashCommands server)
    (adapter : RedisAdapter pointer) (store : RedisStore) (iKey : uint64_t) {mValue : ValueMap}
    (hasked : forall iKeyField, iKeyField ∈ mValue -> Asked mgr hashOf iKeyField) :
    exists result, loadFrom server mgr adapter hashOf store iKey mValue.keys = some result ∧
      LoadedOwn mgr store hashOf iKey mValue adapter result := by
  refine ⟨_, loadFrom_calls hserver adapter store iKey
    (fun iKeyField h => hasked iKeyField (ExtTreeMap.mem_keys.mp h)), ?_⟩
  constructor
  case returned => rfl
  case kept => rfl
  case own =>
    intro iKeyField
    dsimp only
    rw [textsFor_callsOf (nodup_keys_values mValue)]
    simp only [ExtTreeMap.mem_keys]
  case keys =>
    intro iOther
    exact List.mem_insert_iff
  case groups =>
    intro iRedisKey
    dsimp only
    rw [RedisListen.mem_merge, mem_keys_mapLoad]
    simp only [ExtTreeMap.mem_keys]

theorem asked_struct {iKeyField : uint32_t} (hnames : QueryNames mgr iKeyField)
    (iKey : uint64_t) : Asked mgr (structHash iKey) iKeyField :=
  { registered := hnames.registered,
    hash := IsWord.append_plain hnames.key.left hnames.key.right
      (IsWord.cons (by decide) (isWord_decimal _)),
    field := hnames.field }

theorem asked_element {iKeyField : uint32_t} (hnames : QueryNames mgr iKeyField)
    (iKey iIndex : uint64_t) : Asked mgr (elementHash iKey iIndex) iKeyField :=
  { registered := hnames.registered,
    hash := IsWord.append_plain hnames.key.left hnames.key.right
      (IsWord.cons (by decide) ((isWord_decimal _).join (by decide) (isWord_decimal _))),
    field := hnames.field }

/-- Both loads give each value the text of its own field, once, and nothing to others. -/
theorem load_own_fields {server : RedisServer RedisStore} (hserver : HashCommands server)
    (adapter : RedisAdapter pointer) (store : RedisStore) (iKey iIndex : uint64_t)
    {mValue : ValueMap}
    (hnames : forall iKeyField, iKeyField ∈ mValue -> QueryNames mgr iKeyField) :
    (exists result, Load server mgr adapter store iKey mValue.keys = some result ∧
      LoadedOwn mgr store (structHash iKey) iKey mValue adapter result) ∧
    (exists result, LoadIndex server mgr adapter store iKey iIndex mValue.keys = some result ∧
      LoadedOwn mgr store (elementHash iKey iIndex) iKey mValue adapter result) :=
  ⟨loadFrom_own hserver adapter store iKey
      (fun iKeyField h => asked_struct (hnames iKeyField h) iKey),
    loadFrom_own hserver adapter store iKey
      (fun iKeyField h => asked_element (hnames iKeyField h) iKey iIndex)⟩

/-- A key with one field. -/
def oneFieldMgr (sField : Text) : KeyFieldMgr :=
  { mKey := fun iKey =>
      if iKey = 0x100 then
        some
          { pName := some "user".toList,
            mField := [(1, { Name := sField, eType := .FT_uint32_t })] }
      else none,
    mPackageDBName := fun _ => [],
    mRepeatedDBName := fun _ => none }

def oneField : ValueMap :=
  (∅ : ValueMap).insert 0x101 { IsConst := true, m_Value := .uint32 0 }

def oneFieldStore (sField : Text) : RedisStore := fun hash =>
  if hash = "user:1".toList then
    some (.hash (fun name => if name = sField then some "7".toList else none))
  else none

def idleAdapter : RedisAdapter Unit := empty

/-- Two keys, the first one with two fields. -/
def twoKeysMgr : KeyFieldMgr :=
  { mKey := fun iKey =>
      if iKey = 0x100 then
        some
          { pName := some "user".toList,
            mField := [(1, { Name := "rate".toList, eType := .FT_uint32_t }),
              (2, { Name := "title".toList, eType := .FT_string })] }
      else if iKey = 0x200 then
        some
          { pName := some "guild".toList,
            mField := [(1, { Name := "level".toList, eType := .FT_uint32_t })] }
      else none,
    mPackageDBName := fun _ => [],
    mRepeatedDBName := fun _ => none }

def threeFields : ValueMap :=
  (((∅ : ValueMap).insert 0x101 { IsConst := true, m_Value := .uint32 7 }).insert 0x102
    { IsConst := true, m_Value := .string "ab".toList }).insert 0x201
    { IsConst := true, m_Value := .uint32 3 }

/-- There is no title, and the element has nothing in the first group. -/
def untitledStore : RedisStore := fun hash =>
  if hash = "user:1".toList then
    some (.hash (fun name => if name = "rate".toList then some "7".toList else none))
  else if hash = "guild:1".toList ∨ hash = "guild:1:2".toList then
    some (.hash (fun name => if name = "level".toList then some "3".toList else none))
  else none

theorem mem_threeFields {iKeyField : uint32_t} (hmem : iKeyField ∈ threeFields) :
    iKeyField = 0x101 ∨ iKeyField = 0x102 ∨ iKeyField = 0x201 := by
  rcases ExtTreeMap.mem_insert.mp hmem with hthird | hrest
  · exact Or.inr (Or.inr (Std.compare_eq_iff_eq.mp hthird).symm)
  · rcases ExtTreeMap.mem_insert.mp hrest with hsecond | hlast
    · exact Or.inr (Or.inl (Std.compare_eq_iff_eq.mp hsecond).symm)
    · rcases ExtTreeMap.mem_insert.mp hlast with hfirst | hnone
      · exact Or.inl (Std.compare_eq_iff_eq.mp hfirst).symm
      · exact absurd hnone ExtTreeMap.not_mem_empty

theorem queryNames_threeFields {iKeyField : uint32_t} (hmem : iKeyField ∈ threeFields) :
    QueryNames twoKeysMgr iKeyField := by
  rcases mem_threeFields hmem with rfl | rfl | rfl
  · exact
      { registered := ⟨"user".toList, "rate".toList, by decide, by decide⟩,
        key := by decide,
        field := by decide }
  · exact
      { registered := ⟨"user".toList, "title".toList, by decide, by decide⟩,
        key := by decide,
        field := by decide }
  · exact
      { registered := ⟨"guild".toList, "level".toList, by decide, by decide⟩,
        key := by decide,
        field := by decide }

theorem twoKeys_loaded :
    (exists result, Load hashServer twoKeysMgr idleAdapter untitledStore 1 threeFields.keys =
        some result ∧
      LoadedOwn twoKeysMgr untitledStore (structHash 1) 1 threeFields idleAdapter result) ∧
    (exists result, LoadIndex hashServer twoKeysMgr idleAdapter untitledStore 1 2
        threeFields.keys = some result ∧
      LoadedOwn twoKeysMgr untitledStore (elementHash 1 2) 1 threeFields idleAdapter result) :=
  load_own_fields hashServer_commands idleAdapter untitledStore 1 2
    (fun _ hmem => queryNames_threeFields hmem)

/-- The command has one percent sign where the name has two. -/
theorem percent_not_loaded :
    (oneFieldMgr "rate%%".toList).Registered 0x101 ∧
      ' ' ∉ (oneFieldMgr "rate%%".toList).fieldName 0x101 ∧
      ¬ exists result, Load hashServer (oneFieldMgr "rate%%".toList) idleAdapter
          (oneFieldStore "rate%%".toList) 1 oneField.keys = some result ∧
        LoadedOwn (oneFieldMgr "rate%%".toList) (oneFieldStore "rate%%".toList) (structHash 1) 1
          oneField idleAdapter result := by
  refine ⟨⟨"user".toList, "rate%%".toList, by decide, by decide⟩, by decide, ?_⟩
  rintro ⟨result, hload, hown⟩
  have hcalls : (Load hashServer (oneFieldMgr "rate%%".toList) idleAdapter
      (oneFieldStore "rate%%".toList) 1 oneField.keys).map (fun loaded => loaded.1.calls) =
        some [] := by
    decide
  have hread : readField (oneFieldMgr "rate%%".toList) (oneFieldStore "rate%%".toList)
      (structHash 1) 0x101 = some "7".toList := by
    decide
  have hmem : (0x101 : uint32_t) ∈ oneField := by
    decide
  rw [hload] at hcalls
  have hempty : result.1.calls = [] := Option.some.inj hcalls
  have htexts := hown.own 0x101
  rw [hempty, if_pos hmem, hread] at htexts
  cases htexts

end RedisAdapter
end DataHandle
end GMServer
