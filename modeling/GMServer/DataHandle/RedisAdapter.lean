import GMServer.DataHandle.RedisListen
import GMServer.DataHandle.RedisWrap

/-!
# The adapter

A `RedisAdapter` gathers changed values in its buffer, sends them with `PubAndSet`
and loads values with one `HMGET` for each key.
-/

namespace GMServer
namespace DataHandle

open Std

/-- Structs are known to the adapter by their pointers. -/
structure RedisAdapter (pointer : Type) where
  m_Buffer : RedisBuffer
  m_Listen : RedisListen
  m_AllData : ExtTreeMap uint64_t (List pointer)

namespace RedisAdapter

section

variable {pointer world : Type}

/-!
# Writing
-/

def SetValue (adapter : RedisAdapter pointer) (iKey : uint64_t) (iKeyField : uint32_t)
    (strValue : Text) : RedisAdapter pointer :=
  { adapter with m_Buffer := adapter.m_Buffer.AddValueChange iKey 0 iKeyField strValue }

/-- The overload for repeated elements; the index goes nowhere. -/
def SetIndexValue (adapter : RedisAdapter pointer) (iKey _iIndex : uint64_t)
    (iKeyField : uint32_t) (strValue : Text) : RedisAdapter pointer :=
  { adapter with m_Buffer := adapter.m_Buffer.AddValueChange iKey 0 iKeyField strValue }

/-- The commands are executed as they come; with an exception the buffer stays. -/
def PubAndSet (server : RedisServer world) (mgr : KeyFieldMgr) (adapter : RedisAdapter pointer)
    (state : world) : Option (world × Option Exception × RedisAdapter pointer) :=
  let batch := RedisBuffer.Batch mgr adapter.m_Buffer
  (RedisWrap.executeAll server state batch.1.commands).map (fun next =>
    (next, batch.1.thrown, { adapter with m_Buffer := batch.2 }))

/-!
# Loading

The values to load are given by their key fields, in the order of the `ValueMap`.
-/

def mapLoad (mValue : List uint32_t) : ExtTreeMap uint32_t (List uint32_t) :=
  mValue.foldl (fun loads iKeyField =>
    loads.insert (keyOf iKeyField) (loads[keyOf iKeyField]?.getD [] ++ [iKeyField])) ∅

def structHash (iKey : uint64_t) (sKey : Text) : Text := sKey ++ ':' :: Text.decimal iKey.toNat

def elementHash (iKey iIndex : uint64_t) (sKey : Text) : Text :=
  sKey ++ ':' :: (Text.decimal iKey.toNat ++ ':' :: Text.decimal iIndex.toNat)

def queryText (hash : Text) (fields : List Text) : Text :=
  "HMGET ".toList ++ hash ++ ' ' :: commandText fields

/-- `calls` are the calls of `Sync` with their values. -/
structure Loaded (world : Type) where
  state : world
  calls : List (uint32_t × Text)
  thrown : Option Exception

def loadEach (server : RedisServer world) (mgr : KeyFieldMgr) (hashOf : Text -> Text)
    (state : world) : List (uint32_t × List uint32_t) -> Option (Loaded world)
  | [] => some { state := state, calls := [], thrown := none }
  | it :: rest =>
      match mgr.FindKey it.1, it.2.mapM mgr.FindField with
      | some sKey, some fields =>
          (RedisWrap.Load server state (queryText (hashOf sKey) fields) it.2).bind (fun result =>
            (loadEach server mgr hashOf result.1 rest).map (fun loaded =>
              { loaded with calls := result.2 ++ loaded.calls }))
      | _, _ => some { state := state, calls := [], thrown := some .runtime_error }

/-- What the overloads of `Load` share; only a load without exceptions is recorded. -/
def loadFrom (server : RedisServer world) (mgr : KeyFieldMgr) (adapter : RedisAdapter pointer)
    (hashOf : Text -> Text) (state : world) (iKey : uint64_t) (mValue : List uint32_t) :
    Option (Loaded world × RedisAdapter pointer) :=
  (loadEach server mgr hashOf state (mapLoad mValue).toList).map (fun loaded =>
    (loaded,
      if loaded.thrown = none then
        { adapter with m_Listen := adapter.m_Listen.Merge iKey (mapLoad mValue).keys }
      else adapter))

def Load (server : RedisServer world) (mgr : KeyFieldMgr) (adapter : RedisAdapter pointer)
    (state : world) (iKey : uint64_t) (mValue : List uint32_t) :
    Option (Loaded world × RedisAdapter pointer) :=
  loadFrom server mgr adapter (structHash iKey) state iKey mValue

def LoadIndex (server : RedisServer world) (mgr : KeyFieldMgr) (adapter : RedisAdapter pointer)
    (state : world) (iKey iIndex : uint64_t) (mValue : List uint32_t) :
    Option (Loaded world × RedisAdapter pointer) :=
  loadFrom server mgr adapter (elementHash iKey iIndex) state iKey mValue

end

/-!
# What is loaded
-/

/-- Names that are words, as the generated registrations have them. -/
structure WordNames (mgr : KeyFieldMgr) : Prop where
  keys : forall iKey sKey, mgr.FindKey iKey = some sKey -> IsWord sKey
  fields : forall iKeyField sField, mgr.FindField iKeyField = some sField -> IsWord sField

/-- The text of a key field in the store, as a C string. -/
def readField (mgr : KeyFieldMgr) (store : RedisStore) (hashOf : Text -> Text)
    (iKeyField : uint32_t) : Option Text :=
  (fieldsOf (store (hashOf (mgr.keyName iKeyField)))).bind (fun fields =>
    (fields (mgr.fieldName iKeyField)).map cStr)

def readCalls (mgr : KeyFieldMgr) (store : RedisStore) (hashOf : Text -> Text)
    (listValue : List uint32_t) : List (uint32_t × Text) :=
  listValue.filterMap (fun iKeyField =>
    (readField mgr store hashOf iKeyField).map (fun text => (iKeyField, text)))

theorem readField_of_keyName {mgr : KeyFieldMgr} {iKey iKeyField : uint32_t}
    (hname : mgr.keyName iKeyField = mgr.keyName iKey) {store : RedisStore}
    {hashOf : Text -> Text} :
    readField mgr store hashOf iKeyField =
      (fieldsOf (store (hashOf (mgr.keyName iKey)))).bind (fun fields =>
        (fields (mgr.fieldName iKeyField)).map cStr) := by
  unfold readField
  rw [hname]

theorem mem_readCalls {mgr : KeyFieldMgr} {store : RedisStore} {hashOf : Text -> Text}
    {listValue : List uint32_t} {iKeyField : uint32_t} {text : Text} :
    (iKeyField, text) ∈ readCalls mgr store hashOf listValue <->
      iKeyField ∈ listValue ∧ readField mgr store hashOf iKeyField = some text := by
  unfold readCalls
  rw [List.mem_filterMap]
  constructor
  · intro h
    rcases h with ⟨other, hmem, hcall⟩
    rcases Option.map_eq_some_iff.mp hcall with ⟨read, hread, hEq⟩
    cases hEq
    exact ⟨hmem, hread⟩
  · intro h
    refine ⟨iKeyField, h.left, ?_⟩
    rw [h.right]
    rfl

theorem isWord_structHash {sKey : Text} (hword : IsWord sKey) (iKey : uint64_t) :
    IsWord (structHash iKey sKey) :=
  hword.join (by decide) (isWord_decimal _)

theorem isWord_elementHash {sKey : Text} (hword : IsWord sKey) (iKey iIndex : uint64_t) :
    IsWord (elementHash iKey iIndex sKey) :=
  hword.join (by decide) ((isWord_decimal _).join (by decide) (isWord_decimal _))

theorem format_queryText {hash : Text} {fields : List Text} (hhash : IsWord hash)
    (hfields : forall field, field ∈ fields -> IsWord field) :
    redisvFormatCommand (queryText hash fields) = some ("HMGET".toList :: hash :: fields) := by
  have hquery : queryText hash fields = commandText ("HMGET".toList :: hash :: fields) := by
    rw [commandText_cons, commandText_cons]
    rfl
  have hcommand : IsWord "HMGET".toList := by decide
  have hargs : forall word, word ∈ hash :: fields -> IsWord word :=
    List.forall_mem_cons.mpr ⟨hhash, hfields⟩
  rw [hquery]
  exact format_words (List.forall_mem_cons.mpr ⟨hcommand, hargs⟩)

theorem syncElements_reply (toText : uint32_t -> Option Text) (listValue : List uint32_t) :
    RedisWrap.syncElements listValue (listValue.map (fun iKeyField =>
        match toText iKeyField with
        | some value => Reply.string value
        | none => Reply.nil)) =
      some (listValue.filterMap (fun iKeyField =>
        ((toText iKeyField).map cStr).map (fun text => (iKeyField, text)))) := by
  induction listValue with
  | nil => rfl
  | cons iKeyField listValue ih =>
      rw [List.map_cons, RedisWrap.syncElements, ih, List.filterMap_cons]
      cases toText iKeyField with
      | none => rfl
      | some value => rfl

theorem mapM_findField {mgr : KeyFieldMgr} {listValue : List uint32_t}
    (hregistered : forall iKeyField, iKeyField ∈ listValue -> mgr.Registered iKeyField) :
    listValue.mapM mgr.FindField = some (listValue.map mgr.fieldName) := by
  induction listValue with
  | nil => rfl
  | cons iKeyField listValue ih =>
      have hfirst := (KeyFieldMgr.names_of_registered
        (hregistered iKeyField List.mem_cons_self)).right
      rw [List.mapM_cons, hfirst,
        ih (fun other h => hregistered other (List.mem_cons_of_mem iKeyField h))]
      rfl

/-- The query for a value has its words. -/
structure Asked (mgr : KeyFieldMgr) (hashOf : Text -> Text) (iKeyField : uint32_t) : Prop where
  registered : mgr.Registered iKeyField
  hash : IsWord (hashOf (mgr.keyName iKeyField))
  field : IsWord (mgr.fieldName iKeyField)

theorem asked_of_wordNames {mgr : KeyFieldMgr} (hwords : WordNames mgr) {hashOf : Text -> Text}
    (hhash : forall sKey, IsWord sKey -> IsWord (hashOf sKey)) {iKeyField : uint32_t}
    (hregistered : mgr.Registered iKeyField) : Asked mgr hashOf iKeyField := by
  rcases KeyFieldMgr.names_of_registered hregistered with ⟨hkey, hfield⟩
  exact
    { registered := hregistered,
      hash := hhash _ (hwords.keys _ _ hkey),
      field := hwords.fields _ _ hfield }

theorem keyName_group (mgr : KeyFieldMgr) {iKey iKeyField : uint32_t}
    (hkey : keyOf iKeyField = iKey) : mgr.keyName iKeyField = mgr.keyName iKey := by
  rw [← hkey, mgr.keyName_keyOf]

theorem findKey_group {mgr : KeyFieldMgr} {iKey iKeyField : uint32_t}
    (hkey : keyOf iKeyField = iKey) (hregistered : mgr.Registered iKeyField) :
    mgr.FindKey iKey = some (mgr.keyName iKey) := by
  rw [← hkey, mgr.findKey_keyOf, mgr.keyName_keyOf]
  exact (KeyFieldMgr.names_of_registered hregistered).left

/-- One `HMGET` hands every value the text of its own field. -/
theorem Load_group {server : RedisServer RedisStore} (hserver : HashCommands server)
    {mgr : KeyFieldMgr} {hashOf : Text -> Text} (store : RedisStore)
    {iKey : uint32_t} {listValue : List uint32_t} (hne : listValue ≠ [])
    (hgroup : forall iKeyField, iKeyField ∈ listValue ->
      keyOf iKeyField = iKey ∧ Asked mgr hashOf iKeyField) :
    mgr.FindKey iKey = some (mgr.keyName iKey) ∧
      listValue.mapM mgr.FindField = some (listValue.map mgr.fieldName) ∧
      RedisWrap.Load server store
          (queryText (hashOf (mgr.keyName iKey)) (listValue.map mgr.fieldName)) listValue =
        some (store, readCalls mgr store hashOf listValue) := by
  have hkeyName : forall iKeyField, iKeyField ∈ listValue ->
      mgr.keyName iKeyField = mgr.keyName iKey :=
    fun iKeyField hmem => keyName_group mgr (hgroup iKeyField hmem).left
  have hfirst : mgr.FindKey iKey = some (mgr.keyName iKey) ∧
      IsWord (hashOf (mgr.keyName iKey)) := by
    rcases List.exists_mem_of_ne_nil _ hne with ⟨iKeyField, hmem⟩
    rcases hgroup iKeyField hmem with ⟨hkey, hasked⟩
    refine ⟨findKey_group hkey hasked.registered, ?_⟩
    rw [← hkeyName iKeyField hmem]
    exact hasked.hash
  rcases hfirst with ⟨hfind, hhash⟩
  have hfieldWords : forall field, field ∈ listValue.map mgr.fieldName -> IsWord field := by
    intro field hfield
    rcases List.mem_map.mp hfield with ⟨iKeyField, hmem, hEq⟩
    rw [← hEq]
    exact (hgroup iKeyField hmem).right.field
  have hnames : listValue.map mgr.fieldName ≠ [] := fun h => hne (List.map_eq_nil_iff.mp h)
  refine ⟨hfind, mapM_findField (fun iKeyField h => (hgroup iKeyField h).right.registered), ?_⟩
  unfold RedisWrap.Load RedisWrap.DoCmd
  rw [format_queryText hhash hfieldWords, Option.map_some,
    Option.bind_some, hserver.hmget _ _ _ hnames]
  unfold hmget
  cases hfields : fieldsOf (store (hashOf (mgr.keyName iKey))) with
  | none =>
      have hcalls : readCalls mgr store hashOf listValue = [] := by
        unfold readCalls
        rw [List.filterMap_eq_nil_iff]
        intro iKeyField hmem
        rw [readField_of_keyName (hkeyName iKeyField hmem), hfields]
        rfl
      rw [hcalls]
      rfl
  | some fields =>
      have hcalls : readCalls mgr store hashOf listValue =
          listValue.filterMap (fun iKeyField =>
            ((fields (mgr.fieldName iKeyField)).map cStr).map (fun text =>
              (iKeyField, text))) := by
        apply List.filterMap_congr
        intro iKeyField hmem
        rw [readField_of_keyName (hkeyName iKeyField hmem), hfields]
        rfl
      rw [hcalls]
      dsimp only [RedisWrap.syncReply]
      rw [List.map_map]
      have helements := syncElements_reply (fun iKeyField => fields (mgr.fieldName iKeyField))
        listValue
      exact congrArg (Option.map (fun calls => (store, calls))) helements

theorem mapLoad_append (mValue : List uint32_t) (iKeyField : uint32_t) :
    mapLoad (mValue ++ [iKeyField]) =
      (mapLoad mValue).insert (keyOf iKeyField)
        ((mapLoad mValue)[keyOf iKeyField]?.getD [] ++ [iKeyField]) :=
  List.foldl_append

/-- The values that are loaded for a key. -/
theorem getElem?_mapLoad (mValue : List uint32_t) (iKey : uint32_t) :
    (mapLoad mValue)[iKey]? =
      if mValue.filter (fun iKeyField => keyOf iKeyField = iKey) = [] then none
      else some (mValue.filter (fun iKeyField => keyOf iKeyField = iKey)) := by
  induction mValue using List.reverseRecOn with
  | nil => rfl
  | append_singleton mValue iKeyField ih =>
      rw [mapLoad_append, SortedMap.getElem?_insert_eq, List.filter_append]
      by_cases hkey : keyOf iKeyField = iKey
      · have hsingle : [iKeyField].filter (fun other => keyOf other = iKey) = [iKeyField] :=
          List.filter_cons_of_pos (decide_eq_true hkey)
        rw [if_pos hkey, hsingle, hkey, ih,
          if_neg (List.append_ne_nil_of_right_ne_nil _ (List.cons_ne_nil _ _))]
        by_cases hnil : mValue.filter (fun other => keyOf other = iKey) = []
        · rw [if_pos hnil, hnil]
          rfl
        · rw [if_neg hnil, Option.getD_some]
      · have hsingle : [iKeyField].filter (fun other => keyOf other = iKey) = [] :=
          List.filter_cons_of_neg (by rw [decide_eq_true_eq]; exact hkey)
        rw [if_neg hkey, hsingle, List.append_nil, ih]

theorem mem_mapLoad {mValue : List uint32_t} {it : uint32_t × List uint32_t}
    (h : it ∈ (mapLoad mValue).toList) :
    it.2 ≠ [] ∧ forall iKeyField, iKeyField ∈ it.2 <->
      iKeyField ∈ mValue ∧ keyOf iKeyField = it.1 := by
  have hget := ExtTreeMap.mem_toList_iff_getElem?_eq_some.mp h
  rw [getElem?_mapLoad] at hget
  split at hget
  · cases hget
  · rename_i hne
    rw [← Option.some.inj hget]
    refine ⟨hne, ?_⟩
    intro iKeyField
    rw [List.mem_filter, decide_eq_true_eq]

theorem exists_mem_mapLoad {mValue : List uint32_t} {iKeyField : uint32_t}
    (h : iKeyField ∈ mValue) :
    exists it, it ∈ (mapLoad mValue).toList ∧ iKeyField ∈ it.2 := by
  have hmem : iKeyField ∈ mValue.filter (fun other => keyOf other = keyOf iKeyField) := by
    rw [List.mem_filter, decide_eq_true_eq]
    exact ⟨h, rfl⟩
  refine ⟨(keyOf iKeyField, mValue.filter (fun other => keyOf other = keyOf iKeyField)), ?_, hmem⟩
  apply ExtTreeMap.mem_toList_iff_getElem?_eq_some.mpr
  rw [getElem?_mapLoad, if_neg (List.ne_nil_of_mem hmem)]

theorem loadEach_reads {server : RedisServer RedisStore} (hserver : HashCommands server)
    {mgr : KeyFieldMgr} {hashOf : Text -> Text} (store : RedisStore)
    {loads : List (uint32_t × List uint32_t)}
    (hloads : forall it, it ∈ loads -> it.2 ≠ [] ∧ forall iKeyField, iKeyField ∈ it.2 ->
      keyOf iKeyField = it.1 ∧ Asked mgr hashOf iKeyField) :
    loadEach server mgr hashOf store loads =
      some
        { state := store,
          calls := loads.flatMap (fun it => readCalls mgr store hashOf it.2),
          thrown := none } := by
  induction loads with
  | nil => rfl
  | cons it loads ih =>
      rcases hloads it List.mem_cons_self with ⟨hne, hgroup⟩
      rcases Load_group hserver store hne hgroup with ⟨hkey, hfields, hload⟩
      unfold loadEach
      rw [hkey, hfields]
      dsimp only
      rw [hload, Option.bind_some, ih (fun other h => hloads other (List.mem_cons_of_mem it h)),
        Option.map_some, List.flatMap_cons]

/-- The calls of `Sync` of a load, group by group. -/
def callsOf (mgr : KeyFieldMgr) (store : RedisStore) (hashOf : Text -> Text)
    (mValue : List uint32_t) : List (uint32_t × Text) :=
  (mapLoad mValue).toList.flatMap (fun it => readCalls mgr store hashOf it.2)

theorem loadFrom_calls {pointer : Type} {server : RedisServer RedisStore}
    (hserver : HashCommands server) {mgr : KeyFieldMgr} {hashOf : Text -> Text}
    (adapter : RedisAdapter pointer) (store : RedisStore) (iKey : uint64_t)
    {mValue : List uint32_t}
    (hasked : forall iKeyField, iKeyField ∈ mValue -> Asked mgr hashOf iKeyField) :
    loadFrom server mgr adapter hashOf store iKey mValue =
      some ({ state := store, calls := callsOf mgr store hashOf mValue, thrown := none },
        { adapter with m_Listen := adapter.m_Listen.Merge iKey (mapLoad mValue).keys }) := by
  have hloads : forall it, it ∈ (mapLoad mValue).toList -> it.2 ≠ [] ∧
      forall iKeyField, iKeyField ∈ it.2 ->
        keyOf iKeyField = it.1 ∧ Asked mgr hashOf iKeyField := by
    intro it hit
    rcases mem_mapLoad hit with ⟨hne, hmem⟩
    refine ⟨hne, ?_⟩
    intro iKeyField h
    rcases (hmem iKeyField).mp h with ⟨hvalue, hkey⟩
    exact ⟨hkey, hasked iKeyField hvalue⟩
  unfold loadFrom
  rw [loadEach_reads hserver store hloads]
  rfl

theorem mem_callsOf {mgr : KeyFieldMgr} {store : RedisStore} {hashOf : Text -> Text}
    {mValue : List uint32_t} {iKeyField : uint32_t} {text : Text} :
    (iKeyField, text) ∈ callsOf mgr store hashOf mValue <->
      iKeyField ∈ mValue ∧ readField mgr store hashOf iKeyField = some text := by
  unfold callsOf
  rw [List.mem_flatMap]
  constructor
  · intro h
    rcases h with ⟨it, hit, hcall⟩
    rcases mem_readCalls.mp hcall with ⟨hmem, hread⟩
    exact ⟨(((mem_mapLoad hit).right iKeyField).mp hmem).left, hread⟩
  · intro h
    rcases exists_mem_mapLoad h.left with ⟨it, hit, hmem⟩
    exact ⟨it, hit, mem_readCalls.mpr ⟨hmem, h.right⟩⟩

/-- A load of registered values leaves the store as it is and hands each value the text of
its field, if there is one. -/
theorem loadFrom_reads {pointer : Type} {server : RedisServer RedisStore}
    (hserver : HashCommands server) {mgr : KeyFieldMgr} (hwords : WordNames mgr)
    {hashOf : Text -> Text} (hhash : forall sKey, IsWord sKey -> IsWord (hashOf sKey))
    (adapter : RedisAdapter pointer) (store : RedisStore) (iKey : uint64_t)
    {mValue : List uint32_t}
    (hregistered : forall iKeyField, iKeyField ∈ mValue -> mgr.Registered iKeyField) :
    exists loaded, loadFrom server mgr adapter hashOf store iKey mValue =
        some (loaded,
          { adapter with m_Listen := adapter.m_Listen.Merge iKey (mapLoad mValue).keys }) ∧
      loaded.state = store ∧ loaded.thrown = none ∧
      forall iKeyField text, (iKeyField, text) ∈ loaded.calls <->
        iKeyField ∈ mValue ∧ readField mgr store hashOf iKeyField = some text :=
  ⟨_,
    loadFrom_calls hserver adapter store iKey
      (fun iKeyField h => asked_of_wordNames hwords hhash (hregistered iKeyField h)),
    rfl, rfl, fun _ _ => mem_callsOf⟩

end RedisAdapter
end DataHandle
end GMServer
