import GMServer.DataHandle.Publication

/-!
# Reading back what was written

A value that is set and published is read back by the load for the struct it was set
in.  The overload for repeated elements drops the index, and the load for the element
does not see the value.
-/

namespace GMServer
namespace DataHandle
namespace RedisAdapter

open Std

variable {pointer : Type}

/-!
# The property

What `PubAndSet` sends is read by `load`, whatever is loaded with it, and no hash has
changed but the one that is read.
-/

def ReadsBack (server : RedisServer RedisStore) (mgr : KeyFieldMgr)
    (written : RedisAdapter pointer) (hashOf : Text -> Text)
    (load : RedisAdapter pointer -> RedisStore -> List uint32_t ->
      Option (Loaded RedisStore × RedisAdapter pointer))
    (iKeyField : uint32_t) (strValue : Text) (store : RedisStore) : Prop :=
  exists next adapter, written.PubAndSet server mgr store = some (next, none, adapter) ∧
    (forall mValue, iKeyField ∈ mValue ->
      (forall other, other ∈ mValue -> mgr.Registered other) ->
      exists loaded later, load adapter next mValue = some (loaded, later) ∧
        loaded.thrown = none ∧
        forall text, (iKeyField, text) ∈ loaded.calls <-> text = strValue) ∧
    forall name, name ≠ hashOf (mgr.keyName iKeyField) -> next name = store name

/-- `SetValue(iKey, value)` and `Load(iKey, values)`. -/
def StructReadsBack (server : RedisServer RedisStore) (mgr : KeyFieldMgr)
    (adapter : RedisAdapter pointer) (iKey : uint64_t) (iKeyField : uint32_t) (strValue : Text)
    (store : RedisStore) : Prop :=
  ReadsBack server mgr (adapter.SetValue iKey iKeyField strValue) (structHash iKey)
    (fun later state mValue => later.Load server mgr state iKey mValue) iKeyField strValue store

/-- `SetValue(iKey, iIndex, value)` and `Load(iKey, iIndex, values)`. -/
def ElementReadsBack (server : RedisServer RedisStore) (mgr : KeyFieldMgr)
    (adapter : RedisAdapter pointer) (iKey iIndex : uint64_t) (iKeyField : uint32_t)
    (strValue : Text) (store : RedisStore) : Prop :=
  ReadsBack server mgr (adapter.SetIndexValue iKey iIndex iKeyField strValue)
    (elementHash iKey iIndex)
    (fun later state mValue => later.LoadIndex server mgr state iKey iIndex mValue)
    iKeyField strValue store

theorem setIndexValue_eq (adapter : RedisAdapter pointer) (iKey iIndex : uint64_t)
    (iKeyField : uint32_t) (strValue : Text) :
    adapter.SetIndexValue iKey iIndex iKeyField strValue =
      adapter.SetValue iKey iKeyField strValue := rfl

/-!
# One change

What is sent for a single change behind an empty buffer.
-/

section Change

variable {server : RedisServer RedisStore} {mgr : KeyFieldMgr} {adapter : RedisAdapter pointer}
  {iKey : uint64_t} {iKeyField : uint32_t} {strValue : Text} {store : RedisStore}

theorem hashName_struct (hkey : iKey ≠ 0) (sKey : Text) :
    RedisBuffer.hashName sKey iKey 0 = structHash iKey sKey := by
  unfold RedisBuffer.hashName structHash
  rw [if_pos hkey, if_neg (fun h => h rfl), List.append_nil]

def singleFlush (iKey : uint64_t) (iKeyField : uint32_t) (strValue : Text) : Flush :=
  { place := { iKey := keyOf iKeyField, iFirstKey := iKey, iSecondKey := 0 },
    fields := [(iKeyField, strValue)] }

theorem Batch_single (hregistered : mgr.Registered iKeyField) :
    RedisBuffer.Batch mgr (RedisBuffer.empty.AddValueChange iKey 0 iKeyField strValue) =
      ({ commands := (singleFlush iKey iKeyField strValue).commands mgr, thrown := none },
        RedisBuffer.empty) := by
  rcases KeyFieldMgr.names_of_registered hregistered with ⟨hkey, hfield⟩
  have hflushes : (RedisBuffer.empty.AddValueChange iKey 0 iKeyField strValue).flushes =
      [singleFlush iKey iKeyField strValue] := rfl
  have hkeys : (RedisBuffer.empty.AddValueChange iKey 0 iKeyField
      strValue).m_mBuffer.toList.map Prod.fst = [keyOf iKeyField] := rfl
  rw [RedisBuffer.Batch_commands, hflushes, List.flatMap_singleton]
  · intro itKey hmem hnone
    have hone := List.mem_map_of_mem (f := Prod.fst) hmem
    rw [hkeys, List.mem_singleton] at hone
    rw [hone, mgr.findKey_keyOf, hkey] at hnone
    cases hnone
  · intro flush hmem field hone hnone
    rw [hflushes, List.mem_singleton] at hmem
    rw [hmem] at hone
    rw [List.mem_singleton.mp hone, hfield] at hnone
    cases hnone

theorem text_singleFlush (hkey : iKey ≠ 0) :
    ((singleFlush iKey iKeyField strValue).hashWrite mgr).text =
      commandText ["HMSET".toList, structHash iKey (mgr.keyName iKeyField),
        mgr.fieldName iKeyField] ++ (strValue ++ [' ']) := by
  have hhash : ((singleFlush iKey iKeyField strValue).hashWrite mgr).hash =
      structHash iKey (mgr.keyName iKeyField) := by
    show RedisBuffer.hashName (mgr.keyName (keyOf iKeyField)) iKey 0 = _
    rw [mgr.keyName_keyOf, hashName_struct hkey]
  unfold HashWrite.text
  rw [hhash, commandText_cons, commandText_cons, commandText_cons]
  unfold RedisBuffer.saveText HashWrite.pairsText singleFlush Flush.hashWrite commandText
  simp only [List.map_cons, List.map_nil, List.flatMap_cons, List.flatMap_nil, List.append_nil,
    List.append_assoc, List.cons_append]
  rfl

theorem format_singleFlush (hwords : WordNames mgr) (hregistered : mgr.Registered iKeyField)
    (hkey : iKey ≠ 0) :
    redisvFormatCommand ((singleFlush iKey iKeyField strValue).hashWrite mgr).text =
      (formatFrom [] false (cStr (strValue ++ [' ']))).map (fun args =>
        "HMSET".toList :: structHash iKey (mgr.keyName iKeyField) ::
          mgr.fieldName iKeyField :: args) := by
  rcases KeyFieldMgr.names_of_registered hregistered with ⟨hfindKey, hfindField⟩
  rw [text_singleFlush hkey, format_words_append]
  · rfl
  · intro word hmem
    simp only [List.mem_cons, List.not_mem_nil, or_false] at hmem
    rcases hmem with hEq | hEq | hEq
    · rw [hEq]
      decide
    · rw [hEq]
      exact isWord_structHash (hwords.keys _ _ hfindKey) iKey
    · rw [hEq]
      exact hwords.fields _ _ hfindField

/-- The only hash that is touched is the one of the struct. -/
theorem pubAndSet_store (hserver : HashCommands server) (hwords : WordNames mgr)
    (hempty : adapter.m_Buffer = RedisBuffer.empty) (hregistered : mgr.Registered iKeyField)
    (hkey : iKey ≠ 0) {next : RedisStore} {thrown : Option Exception}
    {later : RedisAdapter pointer}
    (h : (adapter.SetValue iKey iKeyField strValue).PubAndSet server mgr store =
      some (next, thrown, later)) :
    exists args, formatFrom [] false (cStr (strValue ++ [' '])) = some args ∧
      next = (hmset store (structHash iKey (mgr.keyName iKeyField))
        (mgr.fieldName iKeyField :: args)).1 := by
  unfold PubAndSet SetValue at h
  dsimp only at h
  rw [hempty, Batch_single hregistered] at h
  unfold Flush.commands RedisWrap.executeAll RedisWrap.executeAll RedisWrap.executeAll
    RedisWrap.Execute RedisWrap.DoCmd at h
  rw [format_singleFlush hwords hregistered hkey, format_change] at h
  rcases Option.map_eq_some_iff.mp h with ⟨state, hstate, hEq⟩
  cases hEq
  rcases Option.bind_eq_some_iff.mp hstate with ⟨saved, hsaved, hrest⟩
  rcases Option.bind_eq_some_iff.mp hrest with ⟨published, hpublished, hdone⟩
  cases hdone
  simp only [Option.map_map, Option.map_eq_some_iff, Function.comp] at hsaved hpublished
  rcases hsaved with ⟨args, hargs, hsave⟩
  rcases hpublished with ⟨message, _, hpublish⟩
  refine ⟨args, hargs, ?_⟩
  rw [← hpublish, hserver.publish, ← hsave, hserver.hmset]

/-- A text that is a word is sent and stored as it is. -/
theorem pubAndSet_word (hserver : HashCommands server) (hwords : WordNames mgr)
    (hempty : adapter.m_Buffer = RedisBuffer.empty) (hregistered : mgr.Registered iKeyField)
    (hkey : iKey ≠ 0) (hvalue : IsWord strValue) :
    (adapter.SetValue iKey iKeyField strValue).PubAndSet server mgr store =
      some
        ((hmset store (structHash iKey (mgr.keyName iKeyField))
          [mgr.fieldName iKeyField, strValue]).1, none, adapter) := by
  have hfields : forall field, field ∈ (singleFlush iKey iKeyField strValue).fields ->
      IsWord field.2 := by
    intro field hmem
    rw [List.mem_singleton.mp hmem]
    exact hvalue
  have hadapter : { adapter with m_Buffer := RedisBuffer.empty } = adapter := by
    rw [← hempty]
  unfold PubAndSet SetValue
  dsimp only
  rw [hempty, Batch_single hregistered]
  unfold Flush.commands RedisWrap.executeAll RedisWrap.executeAll RedisWrap.executeAll
    RedisWrap.Execute RedisWrap.DoCmd
  rw [format_singleFlush hwords hregistered hkey, format_change,
    format_word (isWord_syncPayload hfields _ _), format_word_space hvalue]
  simp only [Option.map_some, Option.bind_some]
  rw [hserver.publish, hserver.hmset, hadapter]

/-- What `HMSET` leaves in a missing hash came with its arguments. -/
theorem readField_hmset {name : Text} {args : List Text} {text : Text} (hashOf : Text -> Text)
    (hmissing : store (hashOf (mgr.keyName iKeyField)) = none)
    (h : readField mgr (hmset store (hashOf (mgr.keyName iKeyField)) (name :: args)).1 hashOf
      iKeyField = some text) :
    exists raw, raw ∈ args ∧ cStr raw = text := by
  unfold readField hmset at h
  rw [hmissing] at h
  split at h
  · rename_i pair pairs fields hpairs hfields
    cases hfields
    dsimp only at h
    rw [Function.update_self] at h
    rcases Option.map_eq_some_iff.mp h with ⟨raw, hraw, hEq⟩
    rcases Replay.mem_of_replay hraw with hmem | hnone
    · exact ⟨raw, HashWrite.mem_pairUp hpairs hmem, hEq⟩
    · cases hnone
  · dsimp only at h
    rw [hmissing] at h
    cases h

/-- A text that arrives as an argument, as it was, is a word. -/
theorem isWord_of_arg {args : List Text} (hne : strValue ≠ [])
    (hformat : formatFrom [] false (cStr (strValue ++ [' '])) = some args) {raw : Text}
    (hmem : raw ∈ args) (hraw : cStr raw = strValue) : IsWord strValue := by
  rcases mem_formatFrom List.not_mem_nil hformat hmem with ⟨hspace, hsub⟩
  have hzeroRaw : '\x00' ∉ raw := by
    intro hc
    exact (of_mem_cStr ((hsub _ hc).resolve_left List.not_mem_nil)).right rfl
  rw [cStr_eq_self hzeroRaw] at hraw
  rw [hraw] at hspace hzeroRaw hmem
  have hfree : '\x00' ∉ strValue ++ [' '] := by
    rw [List.mem_append, not_or]
    exact ⟨hzeroRaw, by decide⟩
  rw [cStr_eq_self hfree] at hformat
  have hpart : (unescapePart strValue).bind (fun part => some [part]) = some args := by
    cases hvalue : strValue with
    | nil => exact absurd hvalue hne
    | cons c rest =>
        rw [hvalue] at hformat hspace
        have hc : c ≠ ' ' := fun hEq => hspace (hEq ▸ List.mem_cons_self)
        rw [List.cons_append, formatFrom_touched hc, ← List.cons_append,
          formatFrom_part hspace] at hformat
        exact hformat
  rcases Option.bind_eq_some_iff.mp hpart with ⟨part, hunescape, hargs⟩
  rw [← Option.some.inj hargs, List.mem_singleton] at hmem
  rw [← hmem] at hunescape
  refine ⟨?_, hzeroRaw, hne⟩
  intro c hc
  constructor
  · intro hEq
    exact hspace (hEq ▸ hc)
  · intro hEq
    exact Nat.lt_irrefl _ ((unescapePart_spec hunescape).right.left (hEq ▸ hc))

/-!
# Structs
-/

theorem structReadsBack_of_word (hserver : HashCommands server) (hwords : WordNames mgr)
    (hempty : adapter.m_Buffer = RedisBuffer.empty) (hregistered : mgr.Registered iKeyField)
    (hkey : iKey ≠ 0) (hvalue : IsWord strValue) {fields : Fields}
    (hhash : fieldsOf (store (structHash iKey (mgr.keyName iKeyField))) = some fields) :
    StructReadsBack server mgr adapter iKey iKeyField strValue store := by
  refine ⟨_, adapter, pubAndSet_word hserver hwords hempty hregistered hkey hvalue, ?_, ?_⟩
  · intro mValue hmem hother
    rcases loadFrom_reads hserver hwords (fun sKey h => isWord_structHash h iKey) adapter _ iKey
      hother with ⟨loaded, hload, _, hthrown, hcalls⟩
    refine ⟨loaded, _, hload, hthrown, ?_⟩
    intro text
    have hread : readField mgr (hmset store (structHash iKey (mgr.keyName iKeyField))
        [mgr.fieldName iKeyField, strValue]).1 (structHash iKey) iKeyField = some strValue := by
      unfold readField hmset
      rw [hhash]
      dsimp only [HashWrite.pairUp, Option.map_some]
      rw [Function.update_self]
      show (Replay.replay fields [(mgr.fieldName iKeyField, strValue)]
        (mgr.fieldName iKeyField)).map cStr = some strValue
      rw [Replay.replay_cons, Replay.replay_nil, Function.update_self, Option.map_some,
        cStr_eq_self hvalue.right.left]
    rw [hcalls, hread]
    constructor
    · intro h
      exact (Option.some.inj h.right).symm
    · intro h
      rw [h]
      exact ⟨hmem, rfl⟩
  · intro name hne
    exact hmset_frame hne _

/-- The text that a load reads after the value was sent. -/
theorem readField_of_readsBack (hserver : HashCommands server) (hwords : WordNames mgr)
    (hempty : adapter.m_Buffer = RedisBuffer.empty) (hregistered : mgr.Registered iKeyField)
    (hkey : iKey ≠ 0) {hashOf : Text -> Text}
    (hhash : forall sKey, IsWord sKey -> IsWord (hashOf sKey))
    (h : ReadsBack server mgr (adapter.SetValue iKey iKeyField strValue) hashOf
      (fun later state mValue => later.loadFrom server mgr hashOf state iKey mValue)
      iKeyField strValue store) :
    exists args, formatFrom [] false (cStr (strValue ++ [' '])) = some args ∧
      readField mgr (hmset store (structHash iKey (mgr.keyName iKeyField))
        (mgr.fieldName iKeyField :: args)).1 hashOf iKeyField = some strValue := by
  rcases h with ⟨next, later, hsent, hload, _⟩
  rcases pubAndSet_store hserver hwords hempty hregistered hkey hsent with ⟨args, hargs, hnext⟩
  have hone : forall other, other ∈ [iKeyField] -> mgr.Registered other := by
    intro other hmem
    rw [List.mem_singleton.mp hmem]
    exact hregistered
  rcases hload [iKeyField] List.mem_cons_self hone with ⟨loaded, after, hloaded, _, hcalls⟩
  rcases loadFrom_reads hserver hwords hhash later next iKey hone with
    ⟨loaded', hloaded', _, _, hreads⟩
  cases hloaded'.symm.trans hloaded
  refine ⟨args, hargs, ?_⟩
  rw [← hnext]
  exact ((hreads iKeyField strValue).mp ((hcalls strValue).mpr rfl)).right

theorem isWord_of_structReadsBack (hserver : HashCommands server) (hwords : WordNames mgr)
    (hempty : adapter.m_Buffer = RedisBuffer.empty) (hregistered : mgr.Registered iKeyField)
    (hkey : iKey ≠ 0) (hne : strValue ≠ [])
    (h : StructReadsBack server mgr adapter iKey iKeyField strValue (fun _ => none)) :
    IsWord strValue := by
  rcases readField_of_readsBack hserver hwords hempty hregistered hkey
    (fun sKey hword => isWord_structHash hword iKey) h with ⟨args, hargs, hread⟩
  rcases readField_hmset (structHash iKey) rfl hread with ⟨raw, hraw, hEq⟩
  exact isWord_of_arg hne hargs hraw hEq

theorem not_structReadsBack_of_other (hserver : HashCommands server) (hwords : WordNames mgr)
    (hempty : adapter.m_Buffer = RedisBuffer.empty) (hregistered : mgr.Registered iKeyField)
    (hkey : iKey ≠ 0)
    (hother : store (structHash iKey (mgr.keyName iKeyField)) = some .other) :
    ¬ StructReadsBack server mgr adapter iKey iKeyField strValue store := by
  intro h
  rcases readField_of_readsBack hserver hwords hempty hregistered hkey
    (fun sKey hword => isWord_structHash hword iKey) h with ⟨args, _, hread⟩
  unfold readField hmset at hread
  rw [hother] at hread
  split at hread
  · rename_i hfields
    cases hfields
  · dsimp only at hread
    rw [hother] at hread
    cases hread

/-!
# Elements
-/

theorem elementHash_ne (iIndex : uint64_t) (sKey : Text) :
    elementHash iKey iIndex sKey ≠ structHash iKey sKey := by
  intro hEq
  unfold elementHash structHash at hEq
  have hrest := (List.cons.inj (List.append_cancel_left hEq)).right
  have hlength := congrArg List.length hrest
  rw [List.length_append, List.length_cons] at hlength
  exact Nat.ne_of_gt (Nat.lt_add_of_pos_right (Nat.succ_pos _)) hlength

/-- The value of an element is never brought to where the element is loaded from. -/
theorem readField_of_elementReadsBack (hserver : HashCommands server) (hwords : WordNames mgr)
    (hempty : adapter.m_Buffer = RedisBuffer.empty) (hregistered : mgr.Registered iKeyField)
    (hkey : iKey ≠ 0) {iIndex : uint64_t}
    (h : ElementReadsBack server mgr adapter iKey iIndex iKeyField strValue store) :
    readField mgr store (elementHash iKey iIndex) iKeyField = some strValue := by
  unfold ElementReadsBack at h
  rw [setIndexValue_eq] at h
  rcases readField_of_readsBack hserver hwords hempty hregistered hkey
    (fun sKey hword => isWord_elementHash hword iKey iIndex) h with ⟨args, _, hread⟩
  unfold readField at hread ⊢
  rw [hmset_frame (elementHash_ne iIndex _)] at hread
  exact hread

end Change

/-!
# Which values are read back
-/

/-- A value whose text is one argument: no string with a space, a percent sign or a zero
character in it. -/
def Unbroken (value : StringValue.Value) : Prop :=
  forall strValue, value = .string strValue ->
    forall c, c ∈ strValue -> c ≠ ' ' ∧ c ≠ '%' ∧ c ≠ '\x00'

theorem isWord_toString_iff (value : StringValue.Value) :
    IsWord (StringValue.ToString value) <-> Unbroken value := by
  constructor
  · intro hword strValue hEq c hc
    rw [hEq] at hword
    have hmem : c ∈ StringValue.ToString (.string strValue) :=
      List.mem_cons_of_mem _ (List.mem_append_left _ hc)
    refine ⟨(hword.left c hmem).left, (hword.left c hmem).right, ?_⟩
    intro hzero
    exact hword.right.left (hzero ▸ hmem)
  · intro hunbroken
    cases hvalue : value with
    | string strValue =>
        have hquote : IsWord ['"'] := by decide
        have hstring : IsWord (strValue ++ ['"']) := by
          by_cases hnil : strValue = []
          · rw [hnil]
            exact hquote
          · have hword : IsWord strValue :=
              ⟨fun c hc => ⟨(hunbroken strValue hvalue c hc).left,
                  (hunbroken strValue hvalue c hc).right.left⟩,
                fun hc => (hunbroken strValue hvalue _ hc).right.right rfl, hnil⟩
            exact hword.append hquote
        exact IsWord.cons (by decide) hstring
    | _ =>
        apply isWord_of_clean _ (StringValue.toString_ne_nil _)
        rw [StringValue.clean_toString_iff]
        intro strValue hEq
        cases hEq

/-- What an element is given never gets to the element; what a struct is given is read back
if its text is one argument, whatever the store holds under that hash. -/
theorem readsBack_iff {server : RedisServer RedisStore} (hserver : HashCommands server)
    {mgr : KeyFieldMgr} (hwords : WordNames mgr) {adapter : RedisAdapter pointer}
    (hempty : adapter.m_Buffer = RedisBuffer.empty) {iKeyField : uint32_t}
    (hregistered : mgr.Registered iKeyField) {iKey : uint64_t} (hkey : iKey ≠ 0)
    (value : StringValue.Value) :
    (forall iIndex,
      (¬ forall store, ElementReadsBack server mgr adapter iKey iIndex iKeyField
        (StringValue.ToString value) store) ∧
      forall store, ElementReadsBack server mgr adapter iKey iIndex iKeyField
          (StringValue.ToString value) store ->
        readField mgr store (elementHash iKey iIndex) iKeyField =
          some (StringValue.ToString value)) ∧
      ((forall store, fieldsOf (store (structHash iKey (mgr.keyName iKeyField))) ≠ none ->
          StructReadsBack server mgr adapter iKey iKeyField (StringValue.ToString value) store) <->
        Unbroken value) ∧
      forall store, fieldsOf (store (structHash iKey (mgr.keyName iKeyField))) = none ->
        ¬ StructReadsBack server mgr adapter iKey iKeyField (StringValue.ToString value)
          store := by
  refine ⟨?_, ?_, ?_⟩
  · intro iIndex
    constructor
    · intro hall
      have hread := readField_of_elementReadsBack hserver hwords hempty hregistered hkey
        (hall (fun _ => none))
      cases hread
    · intro store h
      exact readField_of_elementReadsBack hserver hwords hempty hregistered hkey h
  · constructor
    · intro hall
      apply (isWord_toString_iff value).mp
      apply isWord_of_structReadsBack hserver hwords hempty hregistered hkey
        (StringValue.toString_ne_nil value)
      exact hall (fun _ => none) (Option.some_ne_none _)
    · intro hunbroken store hhash
      rcases Option.ne_none_iff_exists'.mp hhash with ⟨fields, hfields⟩
      exact structReadsBack_of_word hserver hwords hempty hregistered hkey
        ((isWord_toString_iff value).mpr hunbroken) hfields
  · intro store hhash
    apply not_structReadsBack_of_other hserver hwords hempty hregistered hkey
    cases hvalue : store (structHash iKey (mgr.keyName iKeyField)) with
    | none =>
        rw [hvalue] at hhash
        cases hhash
    | some stored =>
        cases stored with
        | hash fields =>
            rw [hvalue] at hhash
            cases hhash
        | other => rfl

/-- An adapter that nothing was done with. -/
def fresh : RedisAdapter Unit :=
  { m_Buffer := RedisBuffer.empty, m_Listen := RedisListen.empty, m_AllData := ∅ }

theorem wordNames_nameOnly : WordNames nameOnlyMgr := by
  constructor
  · intro iKey sKey h
    unfold KeyFieldMgr.FindKey nameOnlyMgr at h
    dsimp only at h
    split at h
    · cases h
      decide
    · cases h
  · intro iKeyField sField h
    unfold KeyFieldMgr.FindField nameOnlyMgr at h
    dsimp only at h
    split at h
    · unfold Datakey.GetField at h
      simp only [Option.bind_some, List.lookup_cons, List.lookup_nil] at h
      split at h
      · cases h
        decide
      · cases h
    · cases h

theorem name_readsBack :
    (¬ forall store, ElementReadsBack hashServer nameOnlyMgr fresh 5 7 0x101
      (StringValue.ToString (.string "ab".toList)) store) ∧
      ((forall store, fieldsOf (store (structHash 5 (nameOnlyMgr.keyName 0x101))) ≠ none ->
          StructReadsBack hashServer nameOnlyMgr fresh 5 0x101
            (StringValue.ToString (.string "ab".toList)) store) <->
        Unbroken (.string "ab".toList)) := by
  have hall := readsBack_iff hashServer_commands wordNames_nameOnly
    (show fresh.m_Buffer = RedisBuffer.empty from rfl)
    (show nameOnlyMgr.Registered 0x101 from ⟨"user".toList, "name".toList, rfl, rfl⟩)
    (show (5 : uint64_t) ≠ 0 by decide) (.string "ab".toList)
  exact ⟨(hall.left 7).left, hall.right.left⟩

theorem elementName_not_readBack :
    ¬ ElementReadsBack hashServer nameOnlyMgr fresh 5 7 0x101
      (StringValue.ToString (.uint32 1)) (fun _ => none) := by
  intro h
  have hread := readField_of_elementReadsBack hashServer_commands wordNames_nameOnly
    (show fresh.m_Buffer = RedisBuffer.empty from rfl)
    ⟨"user".toList, "name".toList, rfl, rfl⟩ (by decide) h
  cases hread

end RedisAdapter
end DataHandle
end GMServer
