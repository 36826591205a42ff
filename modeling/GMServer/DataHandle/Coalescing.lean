import GMServer.Library.Replay
import GMServer.DataHandle.SyncWire

/-!
# Coalesced writes

The buffer keeps one text for each key field under a first and a second key.  What
`Batch` makes of it is one write for each hash that was touched, and it leaves a
store as if every change had been written at once.
-/

namespace GMServer
namespace DataHandle

open Std

/-!
# Writes to hashes

An `HMSET` names a hash and sets fields in it, in the order in which they stand.
-/

/-- The texts under the names of the hashes and of the fields in them. -/
abbrev HashStore := Replay.Store (Text × Text) Text

structure HashWrite where
  hash : Text
  pairs : List (Text × Text)
  deriving DecidableEq, Repr

namespace HashWrite

def cells (write : HashWrite) : List ((Text × Text) × Text) :=
  write.pairs.map (fun pair => ((write.hash, pair.1), pair.2))

def applyTo (store : HashStore) (write : HashWrite) : HashStore :=
  Replay.replay store write.cells

def pairsText (pairs : List (Text × Text)) : Text :=
  pairs.flatMap (fun pair => pair.1 ++ ' ' :: (pair.2 ++ [' ']))

def text (write : HashWrite) : Text := RedisBuffer.saveText write.hash (pairsText write.pairs)

theorem foldl_applyTo (store : HashStore) (writes : List HashWrite) :
    writes.foldl applyTo store = Replay.replay store (writes.flatMap cells) := by
  induction writes generalizing store with
  | nil => rfl
  | cons write writes ih =>
      rw [List.foldl_cons, List.flatMap_cons, Replay.replay_append, ih]
      rfl

/-- Reads fields and texts in turns. -/
def pairUp : List Text -> Option (List (Text × Text))
  | [] => some []
  | [_] => none
  | field :: value :: rest => (pairUp rest).map ((field, value) :: ·)

/-- Reads a command string, cut at its spaces. -/
def ofText (strCmd : Text) : Option HashWrite :=
  match Text.pieces ' ' strCmd with
  | command :: hash :: rest =>
      if command = "HMSET".toList then
        (pairUp rest).map (fun pairs => { hash := hash, pairs := pairs })
      else none
  | _ => none

theorem mem_pairUp {list : List Text} {pairs : List (Text × Text)}
    (h : pairUp list = some pairs) {pair : Text × Text} (hpair : pair ∈ pairs) :
    pair.2 ∈ list.tail := by
  fun_induction pairUp list generalizing pairs with
  | case1 =>
      cases h
      cases hpair
  | case2 field => cases h
  | case3 field value rest ih =>
      rcases Option.map_eq_some_iff.mp h with ⟨later, hlater, hEq⟩
      rw [← hEq] at hpair
      rcases List.mem_cons.mp hpair with hfirst | hrest
      · rw [hfirst]
        exact List.mem_cons_self
      · exact List.mem_cons_of_mem _ (List.mem_of_mem_tail (ih hlater hrest))

theorem pieces_pairsText {pairs : List (Text × Text)}
    (hpairs : forall pair, pair ∈ pairs -> ' ' ∉ pair.1 ∧ ' ' ∉ pair.2) :
    pairUp (Text.pieces ' ' (pairsText pairs)) = some pairs := by
  induction pairs with
  | nil => rfl
  | cons pair pairs ih =>
      have hpair := hpairs pair List.mem_cons_self
      have hrest := ih (fun other h => hpairs other (List.mem_cons_of_mem pair h))
      have hcons : pairsText (pair :: pairs) =
          pair.1 ++ ' ' :: (pair.2 ++ ' ' :: pairsText pairs) := by
        unfold pairsText
        simp only [List.flatMap_cons, List.append_assoc, List.cons_append, List.nil_append]
      rw [hcons, Text.pieces_cons hpair.left, Text.pieces_cons hpair.right, pairUp, hrest]
      rfl

/-- Names and texts without spaces are read as they were written. -/
theorem ofText_text {write : HashWrite} (hhash : ' ' ∉ write.hash)
    (hpairs : forall pair, pair ∈ write.pairs -> ' ' ∉ pair.1 ∧ ' ' ∉ pair.2) :
    ofText write.text = some write := by
  have hpieces : Text.pieces ' ' write.text =
      "HMSET".toList :: write.hash :: Text.pieces ' ' (pairsText write.pairs) := by
    show Text.pieces ' ' ("HMSET".toList ++ ' ' ::
      (write.hash ++ ' ' :: pairsText write.pairs)) = _
    rw [Text.pieces_cons (by decide), Text.pieces_cons hhash]
  unfold ofText
  rw [hpieces]
  show (if "HMSET".toList = "HMSET".toList then _ else _) = _
  rw [if_pos rfl, pieces_pairsText hpairs]
  rfl

end HashWrite

/-!
# Names of hashes

The parts of the name of a hash are separated by `:`, so different first and second
keys of different names never have one hash.
-/

namespace RedisBuffer

theorem pieces_hashName {sKey : Text} (hname : ':' ∉ sKey) {iFirstKey : uint64_t}
    (hfirst : iFirstKey ≠ 0) (iSecondKey : uint64_t) :
    Text.pieces ':' (hashName sKey iFirstKey iSecondKey) =
      sKey :: Text.decimal iFirstKey.toNat ::
        (if iSecondKey ≠ 0 then [Text.decimal iSecondKey.toNat] else []) := by
  have hdigits : forall n, ':' ∉ Text.decimal n := Text.not_mem_decimal rfl
  unfold hashName
  rw [if_pos hfirst, Text.pieces_cons hname]
  by_cases hsecond : iSecondKey ≠ 0
  · rw [if_pos hsecond, if_pos hsecond, Text.pieces_cons (hdigits _),
      Text.pieces_last (hdigits _) (Text.decimal_ne_nil _)]
  · rw [if_neg hsecond, if_neg hsecond, List.append_nil,
      Text.pieces_last (hdigits _) (Text.decimal_ne_nil _)]

theorem decimal_key_injective {one two : uint64_t}
    (h : Text.decimal one.toNat = Text.decimal two.toNat) : one = two :=
  BitVec.eq_of_toNat_eq (Text.decimal_injective h)

theorem hashName_injective {sKey sOther : Text} (hname : ':' ∉ sKey) (hother : ':' ∉ sOther)
    {iFirst iSecond iFirst' iSecond' : uint64_t} (hkeys : iFirst ≠ 0 ∨ iSecond = 0)
    (hkeys' : iFirst' ≠ 0 ∨ iSecond' = 0)
    (h : hashName sKey iFirst iSecond = hashName sOther iFirst' iSecond') :
    sKey = sOther ∧ iFirst = iFirst' ∧ iSecond = iSecond' := by
  have hplain : forall name : Text, hashName name 0 0 = name := fun name => rfl
  have hcolon : forall (name : Text) (iKey iIndex : uint64_t), iKey ≠ 0 ->
      ':' ∈ hashName name iKey iIndex := by
    intro name iKey iIndex hkey
    unfold hashName
    rw [if_pos hkey]
    exact List.mem_append_right _ List.mem_cons_self
  by_cases hfirst : iFirst = 0
  · have hsecond := hkeys.resolve_left (fun hne => hne hfirst)
    rw [hfirst, hsecond, hplain] at h
    by_cases hfirst' : iFirst' = 0
    · have hsecond' := hkeys'.resolve_left (fun hne => hne hfirst')
      rw [hfirst', hsecond', hplain] at h
      exact ⟨h, hfirst.trans hfirst'.symm, hsecond.trans hsecond'.symm⟩
    · rw [h] at hname
      exact absurd (hcolon sOther iFirst' iSecond' hfirst') hname
  · by_cases hfirst' : iFirst' = 0
    · have hsecond' := hkeys'.resolve_left (fun hne => hne hfirst')
      rw [hfirst', hsecond', hplain] at h
      rw [← h] at hother
      exact absurd (hcolon sKey iFirst iSecond hfirst) hother
    · have hpieces := congrArg (Text.pieces ':') h
      rw [pieces_hashName hname hfirst, pieces_hashName hother hfirst', List.cons.injEq,
        List.cons.injEq] at hpieces
      rcases hpieces with ⟨hsame, hdigits, hrest⟩
      refine ⟨hsame, decimal_key_injective hdigits, ?_⟩
      by_cases hsecond : iSecond = 0
      · by_cases hsecond' : iSecond' = 0
        · rw [hsecond, hsecond']
        · rw [if_neg (not_not.mpr hsecond), if_pos hsecond'] at hrest
          cases hrest
      · by_cases hsecond' : iSecond' = 0
        · rw [if_pos hsecond, if_neg (not_not.mpr hsecond')] at hrest
          cases hrest
        · rw [if_pos hsecond, if_pos hsecond'] at hrest
          exact decimal_key_injective (List.cons.inj hrest).left

end RedisBuffer

/-!
# Changes

A change lies at an address; the addresses of one key under a first and a second
key share a place in the buffer.
-/

structure Change where
  i64Key : uint64_t
  iIndex : uint64_t
  iKeyField : uint32_t
  strValue : Text
  deriving DecidableEq, Repr

structure Place where
  iKey : uint32_t
  iFirstKey : uint64_t
  iSecondKey : uint64_t
  deriving DecidableEq, Repr

structure Address where
  iFirstKey : uint64_t
  iSecondKey : uint64_t
  iKeyField : uint32_t
  deriving DecidableEq, Repr

def Address.place (address : Address) : Place :=
  { iKey := keyOf address.iKeyField, iFirstKey := address.iFirstKey,
    iSecondKey := address.iSecondKey }

def Change.address (change : Change) : Address :=
  { iFirstKey := change.i64Key, iSecondKey := change.iIndex, iKeyField := change.iKeyField }

def Change.place (change : Change) : Place := change.address.place

def buffered (changes : List Change) : RedisBuffer :=
  changes.foldl (fun buffer change =>
    buffer.AddValueChange change.i64Key change.iIndex change.iKeyField change.strValue)
    RedisBuffer.empty

theorem buffered_append (changes : List Change) (change : Change) :
    buffered (changes ++ [change]) =
      (buffered changes).AddValueChange change.i64Key change.iIndex change.iKeyField
        change.strValue :=
  List.foldl_append

namespace RedisBuffer

def fieldsAt (buffer : RedisBuffer) (place : Place) : Option FieldBuffer :=
  ((buffer.m_mBuffer[place.iKey]?.getD ∅)[place.iFirstKey]?.getD ∅)[place.iSecondKey]?

def valueAt (buffer : RedisBuffer) (address : Address) : Option Text :=
  (buffer.fieldsAt address.place).bind (fun mapField => mapField[address.iKeyField]?)

theorem fieldsAt_addValueChange (buffer : RedisBuffer) (change : Change) (place : Place) :
    (buffer.AddValueChange change.i64Key change.iIndex change.iKeyField
        change.strValue).fieldsAt place =
      if change.place = place then
        some (((buffer.fieldsAt place).getD ∅).insert change.iKeyField change.strValue)
      else buffer.fieldsAt place := by
  cases place with
  | mk iKey iFirstKey iSecondKey =>
      unfold fieldsAt AddValueChange KeyBuffer.ValueChange FieldBuffer.ValueChange Change.place
        Change.address Address.place
      simp only [SortedMap.getElem?_insert_eq, Place.mk.injEq]
      by_cases hkey : keyOf change.iKeyField = iKey
      · rw [if_pos hkey, Option.getD_some, SortedMap.getElem?_insert_eq]
        by_cases hfirst : change.i64Key = iFirstKey
        · rw [if_pos hfirst, Option.getD_some, SortedMap.getElem?_insert_eq]
          by_cases hsecond : change.iIndex = iSecondKey
          · rw [if_pos hsecond, if_pos ⟨hkey, hfirst, hsecond⟩, hkey, hfirst, hsecond]
          · rw [if_neg hsecond, if_neg (fun h => hsecond h.right.right), hkey, hfirst]
        · rw [if_neg hfirst, if_neg (fun h => hfirst h.right.left), hkey]
      · rw [if_neg hkey, if_neg (fun h => hkey h.left)]

theorem valueAt_addValueChange (buffer : RedisBuffer) (change : Change) :
    (buffer.AddValueChange change.i64Key change.iIndex change.iKeyField
        change.strValue).valueAt =
      Function.update buffer.valueAt change.address (some change.strValue) := by
  funext address
  unfold valueAt
  rw [fieldsAt_addValueChange]
  by_cases hsame : address = change.address
  · have hplace : change.place = change.address.place := rfl
    rw [hsame, Function.update_self, if_pos hplace, Option.bind_some]
    exact SortedMap.getElem?_insert_same _ _ _
  · rw [Function.update_of_ne hsame]
    by_cases hplace : change.place = address.place
    · have hfield : change.iKeyField ≠ address.iKeyField := by
        intro hEq
        apply hsame
        cases address with
        | mk iFirstKey iSecondKey iKeyField =>
            cases hEq
            cases hplace
            rfl
      rw [if_pos hplace, Option.bind_some, SortedMap.getElem?_insert_ne _ _ hfield]
      cases buffer.fieldsAt address.place with
      | none => rfl
      | some mapField => rfl
    · rw [if_neg hplace]

end RedisBuffer

/-!
# What has gathered
-/

def Change.cell (change : Change) : Address × Text := (change.address, change.strValue)

/-- The buffer keeps the last text of each address. -/
theorem valueAt_buffered (changes : List Change) :
    (buffered changes).valueAt = Replay.replay (fun _ => none) (changes.map Change.cell) := by
  induction changes using List.reverseRecOn with
  | nil =>
      funext address
      rfl
  | append_singleton changes change ih =>
      rw [buffered_append, RedisBuffer.valueAt_addValueChange, ih, List.map_append,
        Replay.replay_append]
      rfl

theorem valueAt_of_mem {changes : List Change} {change : Change} (hmem : change ∈ changes) :
    (buffered changes).valueAt change.address ≠ none := by
  have hkey : change.address ∈ (changes.map Change.cell).map Prod.fst := by
    rw [List.map_map]
    exact List.mem_map.mpr ⟨change, hmem, rfl⟩
  rw [valueAt_buffered]
  exact (Replay.replay_of_mem hkey (fun _ => none) (fun _ => none)).right

theorem fieldsAt_buffered_isSome (changes : List Change) (place : Place) :
    ((buffered changes).fieldsAt place).isSome = true <->
      exists change, change ∈ changes ∧ change.place = place := by
  induction changes using List.reverseRecOn with
  | nil =>
      constructor
      · intro h
        cases h
      · intro h
        rcases h with ⟨change, hmem, _⟩
        cases hmem
  | append_singleton changes change ih =>
      rw [buffered_append, RedisBuffer.fieldsAt_addValueChange]
      by_cases hplace : change.place = place
      · rw [if_pos hplace]
        constructor
        · intro _
          exact ⟨change, List.mem_append_right _ List.mem_cons_self, hplace⟩
        · intro _
          rfl
      · rw [if_neg hplace, ih]
        constructor
        · intro h
          rcases h with ⟨other, hmem, hEq⟩
          exact ⟨other, List.mem_append_left _ hmem, hEq⟩
        · intro h
          rcases h with ⟨other, hmem, hEq⟩
          rcases List.mem_append.mp hmem with hold | hnew
          · exact ⟨other, hold, hEq⟩
          · rw [List.mem_singleton.mp hnew] at hEq
            exact absurd hEq hplace

/-- Every text in the buffer lies at the address of a change. -/
theorem change_of_fieldsAt {changes : List Change} {place : Place} {mapField : FieldBuffer}
    (h : (buffered changes).fieldsAt place = some mapField) {iKeyField : uint32_t}
    {strValue : Text} (hget : mapField[iKeyField]? = some strValue) :
    exists change, change ∈ changes ∧ change.place = place ∧ change.iKeyField = iKeyField ∧
      change.strValue = strValue := by
  induction changes using List.reverseRecOn generalizing mapField with
  | nil => cases h
  | append_singleton changes change ih =>
      have hearlier : (exists other, other ∈ changes ∧ other.place = place ∧
          other.iKeyField = iKeyField ∧ other.strValue = strValue) ->
          exists other, other ∈ changes ++ [change] ∧ other.place = place ∧
            other.iKeyField = iKeyField ∧ other.strValue = strValue := by
        intro hsome
        rcases hsome with ⟨other, hmem, hother⟩
        exact ⟨other, List.mem_append_left _ hmem, hother⟩
      rw [buffered_append, RedisBuffer.fieldsAt_addValueChange] at h
      split at h
      · rename_i hplace
        cases h
        rw [SortedMap.getElem?_insert_eq] at hget
        split at hget
        · rename_i hfield
          cases hget
          exact ⟨change, List.mem_append_right _ List.mem_cons_self, hplace, hfield, rfl⟩
        · cases hold : (buffered changes).fieldsAt place with
          | none =>
              rw [hold] at hget
              cases hget
          | some oldField =>
              rw [hold] at hget
              exact hearlier (ih hold hget)
      · exact hearlier (ih h hget)

theorem change_of_key {changes : List Change} {iKey : uint32_t} {mapBuffer : KeyBuffer}
    (h : (buffered changes).m_mBuffer[iKey]? = some mapBuffer) :
    exists change, change ∈ changes ∧ keyOf change.iKeyField = iKey := by
  induction changes using List.reverseRecOn generalizing mapBuffer with
  | nil => cases h
  | append_singleton changes change ih =>
      rw [buffered_append] at h
      unfold RedisBuffer.AddValueChange at h
      rw [SortedMap.getElem?_insert_eq] at h
      split at h
      · rename_i hkey
        exact ⟨change, List.mem_append_right _ List.mem_cons_self, hkey⟩
      · rcases ih h with ⟨other, hmem, hother⟩
        exact ⟨other, List.mem_append_left _ hmem, hother⟩

/-!
# What one batch writes
-/

/-- The fields that are written for one place, with one `HMSET` and one publish. -/
structure Flush where
  place : Place
  fields : List (uint32_t × Text)
  deriving DecidableEq, Repr

namespace KeyFieldMgr

def keyName (mgr : KeyFieldMgr) (iKey : uint32_t) : Text := (mgr.FindKey iKey).getD []

def fieldName (mgr : KeyFieldMgr) (iKeyField : uint32_t) : Text :=
  (mgr.FindField iKeyField).getD []

end KeyFieldMgr

namespace Flush

def hashWrite (mgr : KeyFieldMgr) (flush : Flush) : HashWrite :=
  { hash := RedisBuffer.hashName (mgr.keyName flush.place.iKey) flush.place.iFirstKey
      flush.place.iSecondKey,
    pairs := flush.fields.map (fun field => (mgr.fieldName field.1, field.2)) }

def change (flush : Flush) : Text :=
  RedisBuffer.publishText flush.place.iKey
    (RedisBuffer.syncPayload flush.place.iFirstKey flush.place.iSecondKey
      (publishFields flush.fields))

def commands (mgr : KeyFieldMgr) (flush : Flush) : List Text :=
  [(flush.hashWrite mgr).text, flush.change]

def address (flush : Flush) (iKeyField : uint32_t) : Address :=
  { iFirstKey := flush.place.iFirstKey, iSecondKey := flush.place.iSecondKey,
    iKeyField := iKeyField }

def cells (flush : Flush) : List (Address × Text) :=
  flush.fields.map (fun field => (flush.address field.1, field.2))

end Flush

namespace RedisBuffer

def flushesSecond (iKey : uint32_t) (itKeyFirst : uint64_t × SecondBuffer) : List Flush :=
  itKeyFirst.2.toList.map (fun itKeySecond =>
    { place := { iKey := iKey, iFirstKey := itKeyFirst.1, iSecondKey := itKeySecond.1 },
      fields := itKeySecond.2.toList })

def flushesKey (itKey : uint32_t × KeyBuffer) : List Flush :=
  itKey.2.toList.flatMap (flushesSecond itKey.1)

def flushes (buffer : RedisBuffer) : List Flush := buffer.m_mBuffer.toList.flatMap flushesKey

theorem fieldTexts_save {mgr : KeyFieldMgr} {fields : List (uint32_t × Text)}
    {texts : Text × Text} (h : fieldTexts mgr fields = some texts) :
    texts.1 = HashWrite.pairsText
      (fields.map (fun field => (mgr.fieldName field.1, field.2))) := by
  induction fields generalizing texts with
  | nil =>
      cases h
      rfl
  | cons field fields ih =>
      unfold fieldTexts at h
      split at h
      · cases h
      · rename_i sField hfind
        rcases Option.map_eq_some_iff.mp h with ⟨rest, hrest, hEq⟩
        have hname : mgr.fieldName field.1 = sField := by
          unfold KeyFieldMgr.fieldName
          rw [hfind]
          rfl
        have hpairs := ih hrest
        unfold HashWrite.pairsText at hpairs ⊢
        rw [← hEq, List.map_cons, List.flatMap_cons, ← hpairs, hname]
        simp only [List.append_assoc, List.cons_append, List.nil_append]

theorem emitEach_of_none {entry : Type} {emit : entry -> Emitted} {list : List entry}
    (hlist : forall it, it ∈ list -> (emit it).thrown = none) :
    emitEach emit list =
      { commands := list.flatMap (fun it => (emit it).commands), thrown := none } := by
  induction list with
  | nil => rfl
  | cons it list ih =>
      have hrest := ih (fun other h => hlist other (List.mem_cons_of_mem it h))
      unfold emitEach
      rw [hlist it List.mem_cons_self, hrest]
      rfl

theorem batchSecond_commands {mgr : KeyFieldMgr} {iKey : uint32_t}
    {itKeyFirst : uint64_t × SecondBuffer} {itKeySecond : uint64_t × FieldBuffer}
    (hfields : forall field, field ∈ itKeySecond.2.toList -> mgr.FindField field.1 ≠ none) :
    batchSecond mgr iKey (mgr.keyName iKey) itKeyFirst.1 itKeySecond =
      { commands := Flush.commands mgr
          { place := { iKey := iKey, iFirstKey := itKeyFirst.1, iSecondKey := itKeySecond.1 },
            fields := itKeySecond.2.toList },
        thrown := none } := by
  rcases fieldTexts_registered hfields with ⟨texts, htexts⟩
  unfold batchSecond Flush.commands Flush.hashWrite Flush.change HashWrite.text
  rw [htexts, ← fieldTexts_publish htexts, ← fieldTexts_save htexts]

theorem mem_flushesKey {itKey : uint32_t × KeyBuffer} {flush : Flush} :
    flush ∈ flushesKey itKey <->
      exists itKeyFirst itKeySecond, itKeyFirst ∈ itKey.2.toList ∧
        itKeySecond ∈ itKeyFirst.2.toList ∧
        flush =
          { place := { iKey := itKey.1, iFirstKey := itKeyFirst.1, iSecondKey := itKeySecond.1 },
            fields := itKeySecond.2.toList } := by
  unfold flushesKey flushesSecond
  rw [List.mem_flatMap]
  constructor
  · intro h
    rcases h with ⟨itKeyFirst, hfirst, hmem⟩
    rcases List.mem_map.mp hmem with ⟨itKeySecond, hsecond, hEq⟩
    exact ⟨itKeyFirst, itKeySecond, hfirst, hsecond, hEq.symm⟩
  · intro h
    rcases h with ⟨itKeyFirst, itKeySecond, hfirst, hsecond, hEq⟩
    exact ⟨itKeyFirst, hfirst, List.mem_map.mpr ⟨itKeySecond, hsecond, hEq.symm⟩⟩

theorem batchKey_commands {mgr : KeyFieldMgr} {itKey : uint32_t × KeyBuffer}
    (hkey : mgr.FindKey itKey.1 ≠ none)
    (hfields : forall flush, flush ∈ flushesKey itKey ->
      forall field, field ∈ flush.fields -> mgr.FindField field.1 ≠ none) :
    batchKey mgr itKey =
      { commands := (flushesKey itKey).flatMap (Flush.commands mgr), thrown := none } := by
  rcases Option.ne_none_iff_exists'.mp hkey with ⟨sKey, hname⟩
  have hkeyName : mgr.keyName itKey.1 = sKey := by
    unfold KeyFieldMgr.keyName
    rw [hname]
    rfl
  have hsecond : forall itKeyFirst, itKeyFirst ∈ itKey.2.toList ->
      emitEach (batchSecond mgr itKey.1 sKey itKeyFirst.1) itKeyFirst.2.toList =
        { commands := (flushesSecond itKey.1 itKeyFirst).flatMap (Flush.commands mgr),
          thrown := none } := by
    intro itKeyFirst hfirst
    have hcommands : forall itKeySecond, itKeySecond ∈ itKeyFirst.2.toList ->
        batchSecond mgr itKey.1 sKey itKeyFirst.1 itKeySecond =
          { commands := Flush.commands mgr
              { place :=
                  { iKey := itKey.1, iFirstKey := itKeyFirst.1, iSecondKey := itKeySecond.1 },
                fields := itKeySecond.2.toList },
            thrown := none } := by
      intro itKeySecond hitSecond
      rw [← hkeyName]
      apply batchSecond_commands
      exact hfields _ (mem_flushesKey.mpr ⟨itKeyFirst, itKeySecond, hfirst, hitSecond, rfl⟩)
    rw [emitEach_of_none (fun it h => by rw [hcommands it h])]
    unfold flushesSecond
    rw [List.flatMap_map]
    congr 1
    apply List.flatMap_congr
    intro it h
    rw [hcommands it h]
  unfold batchKey
  rw [hname]
  dsimp only
  rw [emitEach_of_none (fun it h => by rw [hsecond it h])]
  unfold flushesKey
  rw [List.flatMap_assoc]
  congr 1
  apply List.flatMap_congr
  intro it h
  rw [hsecond it h]

theorem Batch_commands {mgr : KeyFieldMgr} {buffer : RedisBuffer}
    (hkeys : forall itKey, itKey ∈ buffer.m_mBuffer.toList -> mgr.FindKey itKey.1 ≠ none)
    (hfields : forall flush, flush ∈ buffer.flushes ->
      forall field, field ∈ flush.fields -> mgr.FindField field.1 ≠ none) :
    Batch mgr buffer =
      ({ commands := buffer.flushes.flatMap (Flush.commands mgr), thrown := none }, empty) := by
  have hkey : forall itKey, itKey ∈ buffer.m_mBuffer.toList ->
      batchKey mgr itKey =
        { commands := (flushesKey itKey).flatMap (Flush.commands mgr), thrown := none } := by
    intro itKey hmem
    apply batchKey_commands (hkeys itKey hmem)
    intro flush hflush
    exact hfields flush (List.mem_flatMap.mpr ⟨itKey, hmem, hflush⟩)
  have hcommands : (buffer.m_mBuffer.toList.flatMap fun itKey => (batchKey mgr itKey).commands) =
      buffer.flushes.flatMap (Flush.commands mgr) := by
    unfold flushes
    rw [List.flatMap_assoc]
    apply List.flatMap_congr
    intro itKey hmem
    rw [hkey itKey hmem]
  unfold Batch
  rw [emitEach_of_none (fun it h => by rw [hkey it h]), hcommands]
  rfl

/-!
# What is written where
-/

theorem mem_flushes {buffer : RedisBuffer} {flush : Flush} :
    flush ∈ buffer.flushes <->
      exists mapField, buffer.fieldsAt flush.place = some mapField ∧
        flush.fields = mapField.toList := by
  unfold flushes
  rw [List.mem_flatMap]
  constructor
  · intro h
    rcases h with ⟨itKey, hkey, hmem⟩
    rcases mem_flushesKey.mp hmem with ⟨itKeyFirst, itKeySecond, hfirst, hsecond, hEq⟩
    refine ⟨itKeySecond.2, ?_, by rw [hEq]⟩
    rw [hEq]
    unfold fieldsAt
    dsimp only
    rw [ExtTreeMap.mem_toList_iff_getElem?_eq_some.mp hkey, Option.getD_some,
      ExtTreeMap.mem_toList_iff_getElem?_eq_some.mp hfirst, Option.getD_some,
      ExtTreeMap.mem_toList_iff_getElem?_eq_some.mp hsecond]
  · intro h
    rcases h with ⟨mapField, hplace, hfields⟩
    unfold fieldsAt at hplace
    cases hkey : buffer.m_mBuffer[flush.place.iKey]? with
    | none =>
        rw [hkey] at hplace
        cases hplace
    | some mapBuffer =>
        rw [hkey, Option.getD_some] at hplace
        cases hfirst : mapBuffer[flush.place.iFirstKey]? with
        | none =>
            rw [hfirst] at hplace
            cases hplace
        | some second =>
            rw [hfirst, Option.getD_some] at hplace
            refine ⟨(flush.place.iKey, mapBuffer),
              ExtTreeMap.mem_toList_iff_getElem?_eq_some.mpr hkey, ?_⟩
            apply mem_flushesKey.mpr
            refine ⟨(flush.place.iFirstKey, second), (flush.place.iSecondKey, mapField),
              ExtTreeMap.mem_toList_iff_getElem?_eq_some.mpr hfirst,
              ExtTreeMap.mem_toList_iff_getElem?_eq_some.mpr hplace, ?_⟩
            rw [← hfields]

theorem nodup_places (buffer : RedisBuffer) : (buffer.flushes.map Flush.place).Nodup := by
  unfold flushes
  rw [List.map_flatMap]
  apply Replay.nodup_flatMap_of_label (f := Prod.fst) (g := Place.iKey)
  · exact SortedMap.nodup_keys _
  · intro itKey _
    unfold flushesKey
    rw [List.map_flatMap]
    apply Replay.nodup_flatMap_of_label (f := Prod.fst) (g := Place.iFirstKey)
    · exact SortedMap.nodup_keys _
    · intro itKeyFirst _
      unfold flushesSecond
      rw [List.map_map]
      apply List.Nodup.of_map Place.iSecondKey
      rw [List.map_map]
      exact SortedMap.nodup_keys itKeyFirst.2
    · intro itKeyFirst _ place hplace
      unfold flushesSecond at hplace
      rw [List.map_map] at hplace
      rcases List.mem_map.mp hplace with ⟨itKeySecond, _, hEq⟩
      rw [← hEq]
      rfl
  · intro itKey _ place hplace
    rcases List.mem_map.mp hplace with ⟨flush, hflush, hEq⟩
    rcases mem_flushesKey.mp hflush with ⟨itKeyFirst, itKeySecond, _, _, hshape⟩
    rw [← hEq, hshape]

end RedisBuffer

/-- The address of a field that is written has the place it is written for. -/
theorem place_address {changes : List Change} {flush : Flush}
    (hflush : flush ∈ (buffered changes).flushes) {field : uint32_t × Text}
    (hfield : field ∈ flush.fields) : (flush.address field.1).place = flush.place := by
  rcases RedisBuffer.mem_flushes.mp hflush with ⟨mapField, hplace, hfields⟩
  rw [hfields] at hfield
  rcases change_of_fieldsAt hplace (ExtTreeMap.mem_toList_iff_getElem?_eq_some.mp hfield) with
    ⟨change, _, hchange, hkeyField, _⟩
  unfold Flush.address
  rw [← hchange, ← hkeyField]
  rfl

/-- The cells of the buffer: one for each address that holds a text. -/
theorem mem_cells_buffered {changes : List Change} {address : Address} {strValue : Text} :
    (address, strValue) ∈ (buffered changes).flushes.flatMap Flush.cells <->
      (buffered changes).valueAt address = some strValue := by
  unfold RedisBuffer.valueAt
  rw [List.mem_flatMap, Option.bind_eq_some_iff]
  constructor
  · intro h
    rcases h with ⟨flush, hflush, hcell⟩
    rcases List.mem_map.mp hcell with ⟨field, hfield, hEq⟩
    rcases RedisBuffer.mem_flushes.mp hflush with ⟨mapField, hplace, hfields⟩
    have hsame := place_address hflush hfield
    rw [hfields] at hfield
    cases hEq
    rw [hsame]
    exact ⟨mapField, hplace, ExtTreeMap.mem_toList_iff_getElem?_eq_some.mp hfield⟩
  · intro h
    rcases h with ⟨mapField, hplace, hget⟩
    refine ⟨{ place := address.place, fields := mapField.toList },
      RedisBuffer.mem_flushes.mpr ⟨mapField, hplace, rfl⟩, ?_⟩
    exact List.mem_map.mpr ⟨(address.iKeyField, strValue),
      ExtTreeMap.mem_toList_iff_getElem?_eq_some.mpr hget, rfl⟩

theorem keys_cells (flush : Flush) :
    flush.cells.map Prod.fst = (flush.fields.map Prod.fst).map flush.address := by
  unfold Flush.cells
  rw [List.map_map, List.map_map]
  rfl

theorem nodup_cells_buffered (changes : List Change) :
    (((buffered changes).flushes.flatMap Flush.cells).map Prod.fst).Nodup := by
  rw [List.map_flatMap]
  apply Replay.nodup_flatMap_of_label (f := Flush.place) (g := Address.place)
  · exact RedisBuffer.nodup_places _
  · intro flush hflush
    rcases RedisBuffer.mem_flushes.mp hflush with ⟨mapField, _, hfields⟩
    rw [keys_cells, hfields]
    apply List.Nodup.map _ (SortedMap.nodup_keys mapField)
    intro one two hEq
    exact congrArg Address.iKeyField hEq
  · intro flush hflush address haddress
    rw [keys_cells, List.map_map] at haddress
    rcases List.mem_map.mp haddress with ⟨field, hfield, hEq⟩
    rw [← hEq]
    exact place_address hflush hfield

/-!
# Replaying the changes

The names that the addresses have in Redis are different for different addresses.
-/

/-- The names that are registered are different, and those of keys have no separators. -/
structure DistinctNames (mgr : KeyFieldMgr) : Prop where
  keys : forall iKey iOther sKey, mgr.FindKey iKey = some sKey ->
    mgr.FindKey iOther = some sKey -> keyOf iKey = keyOf iOther
  plain : forall iKey sKey, mgr.FindKey iKey = some sKey -> ':' ∉ sKey ∧ ' ' ∉ sKey
  fields : forall iKeyField iOther sField, keyOf iKeyField = keyOf iOther ->
    mgr.FindField iKeyField = some sField -> mgr.FindField iOther = some sField ->
    iKeyField = iOther

/-- Whether an address is the address of a registered field in a hash of its own. -/
def Address.Named (mgr : KeyFieldMgr) (address : Address) : Prop :=
  mgr.Registered address.iKeyField ∧ (address.iFirstKey ≠ 0 ∨ address.iSecondKey = 0)

def Address.cellName (mgr : KeyFieldMgr) (address : Address) : Text × Text :=
  (RedisBuffer.hashName (mgr.keyName address.iKeyField) address.iFirstKey address.iSecondKey,
    mgr.fieldName address.iKeyField)

/-- The `HMSET` of a single change. -/
def Change.hashWrite (mgr : KeyFieldMgr) (change : Change) : HashWrite :=
  { hash := RedisBuffer.hashName (mgr.keyName change.iKeyField) change.i64Key change.iIndex,
    pairs := [(mgr.fieldName change.iKeyField, change.strValue)] }

namespace KeyFieldMgr

theorem names_of_registered {mgr : KeyFieldMgr} {iKeyField : uint32_t}
    (h : mgr.Registered iKeyField) :
    mgr.FindKey iKeyField = some (mgr.keyName iKeyField) ∧
      mgr.FindField iKeyField = some (mgr.fieldName iKeyField) := by
  rcases h with ⟨sKey, sField, hkey, hfield⟩
  unfold keyName fieldName
  rw [hkey, hfield]
  exact ⟨rfl, rfl⟩

theorem keyName_keyOf (mgr : KeyFieldMgr) (iKeyField : uint32_t) :
    mgr.keyName (keyOf iKeyField) = mgr.keyName iKeyField := by
  unfold keyName
  rw [findKey_keyOf]

end KeyFieldMgr

theorem cellName_injective {mgr : KeyFieldMgr} (hnames : DistinctNames mgr) {one two : Address}
    (hone : one.Named mgr) (htwo : two.Named mgr)
    (h : one.cellName mgr = two.cellName mgr) : one = two := by
  rcases KeyFieldMgr.names_of_registered hone.left with ⟨hkey, hfield⟩
  rcases KeyFieldMgr.names_of_registered htwo.left with ⟨hkey', hfield'⟩
  have hhash := congrArg Prod.fst h
  have hname : mgr.fieldName one.iKeyField = mgr.fieldName two.iKeyField :=
    congrArg Prod.snd h
  rcases RedisBuffer.hashName_injective (hnames.plain _ _ hkey).left (hnames.plain _ _ hkey').left
    hone.right htwo.right hhash with ⟨hsKey, hfirst, hsecond⟩
  rw [hsKey] at hkey
  rw [hname] at hfield
  have hkeyField := hnames.fields _ _ _ (hnames.keys _ _ _ hkey hkey') hfield hfield'
  cases one
  cases two
  cases hfirst
  cases hsecond
  cases hkeyField
  rfl

theorem cells_hashWrite {mgr : KeyFieldMgr} {changes : List Change} {flush : Flush}
    (hflush : flush ∈ (buffered changes).flushes) :
    (flush.hashWrite mgr).cells = Replay.rename (Address.cellName mgr) flush.cells := by
  unfold HashWrite.cells Flush.hashWrite Flush.cells Replay.rename
  rw [List.map_map, List.map_map]
  apply List.map_congr_left
  intro field hfield
  have hkey : keyOf field.1 = flush.place.iKey :=
    congrArg Place.iKey (place_address hflush hfield)
  unfold Address.cellName
  dsimp only [Function.comp]
  rw [← hkey, KeyFieldMgr.keyName_keyOf]
  rfl

theorem cells_changes (mgr : KeyFieldMgr) (changes : List Change) :
    (changes.map (Change.hashWrite mgr)).flatMap HashWrite.cells =
      Replay.rename (Address.cellName mgr) (changes.map Change.cell) := by
  unfold Replay.rename
  rw [List.flatMap_map, List.map_map, List.map_eq_flatMap]
  rfl

theorem named_of_cells {mgr : KeyFieldMgr} {changes : List Change}
    (hchanges : forall change, change ∈ changes -> change.address.Named mgr) {address : Address}
    (haddress : address ∈ (changes.map Change.cell).map Prod.fst) : address.Named mgr := by
  rw [List.map_map] at haddress
  rcases List.mem_map.mp haddress with ⟨change, hmem, hEq⟩
  rw [← hEq]
  exact hchanges change hmem

theorem replay_buffered {mgr : KeyFieldMgr} (hnames : DistinctNames mgr) {changes : List Change}
    (hchanges : forall change, change ∈ changes -> change.address.Named mgr)
    (store : HashStore) :
    ((buffered changes).flushes.map (Flush.hashWrite mgr)).foldl HashWrite.applyTo store =
      (changes.map (Change.hashWrite mgr)).foldl HashWrite.applyTo store := by
  have hflushed : ((buffered changes).flushes.map (Flush.hashWrite mgr)).flatMap
      HashWrite.cells = Replay.rename (Address.cellName mgr)
        ((buffered changes).flushes.flatMap Flush.cells) := by
    unfold Replay.rename
    rw [List.flatMap_map, List.map_flatMap]
    apply List.flatMap_congr
    intro flush hflush
    exact cells_hashWrite hflush
  rw [HashWrite.foldl_applyTo, HashWrite.foldl_applyTo, hflushed, cells_changes]
  apply Replay.replay_coalesced
  · intro one two hone htwo hEq
    exact cellName_injective hnames (named_of_cells hchanges hone) (named_of_cells hchanges htwo)
      hEq
  · exact nodup_cells_buffered changes
  · intro address strValue
    rw [mem_cells_buffered, valueAt_buffered]

/-!
# The batch
-/

/-- What is issued for a sequence of changes: one `HMSET` for each place that was touched
and with it one publish of the same fields, together doing to any store what the changes do
one after the other, and read back as such from the command strings. -/
structure Coalesced (mgr : KeyFieldMgr) (changes : List Change) (flushes : List Flush) :
    Prop where
  issued : RedisBuffer.Batch mgr (buffered changes) =
    ({ commands := flushes.flatMap (Flush.commands mgr), thrown := none }, RedisBuffer.empty)
  once : (flushes.map Flush.place).Nodup
  touched : forall place, place ∈ flushes.map Flush.place <->
    exists change, change ∈ changes ∧ change.place = place
  replayed : forall store : HashStore,
    (flushes.map (Flush.hashWrite mgr)).foldl HashWrite.applyTo store =
      (changes.map (Change.hashWrite mgr)).foldl HashWrite.applyTo store
  readable : (forall iKeyField sField, mgr.FindField iKeyField = some sField -> ' ' ∉ sField) ->
    (forall flush, flush ∈ flushes ->
      HashWrite.ofText (flush.hashWrite mgr).text = some (flush.hashWrite mgr)) ∧
    forall change, change ∈ changes ->
      HashWrite.ofText (change.hashWrite mgr).text = some (change.hashWrite mgr)

theorem place_mem_flushes_iff {changes : List Change} {place : Place} :
    place ∈ (buffered changes).flushes.map Flush.place <->
      exists change, change ∈ changes ∧ change.place = place := by
  rw [← fieldsAt_buffered_isSome, Option.isSome_iff_exists, List.mem_map]
  constructor
  · intro h
    rcases h with ⟨flush, hflush, hEq⟩
    rcases RedisBuffer.mem_flushes.mp hflush with ⟨mapField, hplace, _⟩
    rw [hEq] at hplace
    exact ⟨mapField, hplace⟩
  · intro h
    rcases h with ⟨mapField, hplace⟩
    exact ⟨{ place := place, fields := mapField.toList },
      RedisBuffer.mem_flushes.mpr ⟨mapField, hplace, rfl⟩, rfl⟩

theorem change_of_field {changes : List Change} {flush : Flush}
    (hflush : flush ∈ (buffered changes).flushes) {field : uint32_t × Text}
    (hfield : field ∈ flush.fields) :
    exists change, change ∈ changes ∧ change.iKeyField = field.1 ∧ change.strValue = field.2 := by
  rcases RedisBuffer.mem_flushes.mp hflush with ⟨mapField, hplace, hfields⟩
  rw [hfields] at hfield
  rcases change_of_fieldsAt hplace (ExtTreeMap.mem_toList_iff_getElem?_eq_some.mp hfield) with
    ⟨change, hmem, _, hkeyField, hvalue⟩
  exact ⟨change, hmem, hkeyField, hvalue⟩

theorem not_mem_hashName {c : Char} (hdigit : c.isDigit = false) (hcolon : c ≠ ':')
    {sKey : Text} (hname : c ∉ sKey) (iFirstKey iSecondKey : uint64_t) :
    c ∉ RedisBuffer.hashName sKey iFirstKey iSecondKey := by
  have hdigits : forall n, c ∉ Text.decimal n := Text.not_mem_decimal hdigit
  unfold RedisBuffer.hashName
  split
  · rw [List.mem_append, List.mem_cons, List.mem_append, not_or, not_or, not_or]
    refine ⟨hname, hcolon, hdigits _, ?_⟩
    split
    · rw [List.mem_cons, not_or]
      exact ⟨hcolon, hdigits _⟩
    · exact List.not_mem_nil
  · exact hname

/-- A batch of registered changes goes through. -/
theorem Batch_buffered {mgr : KeyFieldMgr} {changes : List Change}
    (hregistered : forall change, change ∈ changes -> mgr.Registered change.iKeyField) :
    RedisBuffer.Batch mgr (buffered changes) =
      ({ commands := (buffered changes).flushes.flatMap (Flush.commands mgr), thrown := none },
        RedisBuffer.empty) := by
  apply RedisBuffer.Batch_commands
  · intro itKey hmem hnone
    rcases change_of_key (ExtTreeMap.mem_toList_iff_getElem?_eq_some.mp hmem) with
      ⟨change, hchange, hkey⟩
    have hfind := (KeyFieldMgr.names_of_registered (hregistered change hchange)).left
    rw [← hkey, mgr.findKey_keyOf, hfind] at hnone
    cases hnone
  · intro flush hflush field hfield hnone
    rcases change_of_field hflush hfield with ⟨change, hchange, hkeyField, _⟩
    have hfind := (KeyFieldMgr.names_of_registered (hregistered change hchange)).right
    rw [hkeyField, hnone] at hfind
    cases hfind

/-- Coalescing equals replay. -/
theorem batch_coalesces {mgr : KeyFieldMgr} (hnames : DistinctNames mgr) {changes : List Change}
    (hchanges : forall change, change ∈ changes ->
      change.address.Named mgr ∧ ' ' ∉ change.strValue) :
    exists flushes, Coalesced mgr changes flushes := by
  have hregistered : forall change, change ∈ changes -> mgr.Registered change.iKeyField :=
    fun change hmem => (hchanges change hmem).left.left
  have hkeyName : forall change, change ∈ changes -> ' ' ∉ mgr.keyName change.iKeyField := by
    intro change hmem
    have hfind := (KeyFieldMgr.names_of_registered (hregistered change hmem)).left
    exact (hnames.plain _ _ hfind).right
  refine ⟨(buffered changes).flushes, ?_⟩
  constructor
  · exact Batch_buffered hregistered
  · exact RedisBuffer.nodup_places _
  · intro place
    exact place_mem_flushes_iff
  · exact replay_buffered hnames (fun change hmem => (hchanges change hmem).left)
  · intro hfieldNames
    have hfieldName : forall change, change ∈ changes ->
        ' ' ∉ mgr.fieldName change.iKeyField := by
      intro change hmem
      have hfind := (KeyFieldMgr.names_of_registered (hregistered change hmem)).right
      exact hfieldNames _ _ hfind
    constructor
    · intro flush hflush
      rcases place_mem_flushes_iff.mp (List.mem_map.mpr ⟨flush, hflush, rfl⟩) with
        ⟨change, hmem, hplace⟩
      apply HashWrite.ofText_text
      · apply not_mem_hashName rfl (by decide)
        have hkey := hkeyName change hmem
        rw [← mgr.keyName_keyOf] at hkey
        rw [← hplace]
        exact hkey
      · intro pair hpair
        rcases List.mem_map.mp hpair with ⟨field, hfield, hEq⟩
        rcases change_of_field hflush hfield with ⟨other, hother, hkeyField, hvalue⟩
        rw [← hEq, ← hkeyField, ← hvalue]
        exact ⟨hfieldName other hother, (hchanges other hother).right⟩
    · intro change hmem
      apply HashWrite.ofText_text
      · exact not_mem_hashName rfl (by decide) (hkeyName change hmem) _ _
      · intro pair hpair
        rw [List.mem_singleton.mp hpair]
        exact ⟨hfieldName change hmem, (hchanges change hmem).right⟩

theorem distinctNames_nameOnly : DistinctNames nameOnlyMgr := by
  have hkey : forall iKey sKey, nameOnlyMgr.FindKey iKey = some sKey ->
      keyOf iKey = 0x100 ∧ sKey = "user".toList := by
    intro iKey sKey h
    unfold KeyFieldMgr.FindKey nameOnlyMgr at h
    dsimp only at h
    split at h
    · rename_i hsame
      cases h
      exact ⟨hsame, rfl⟩
    · cases h
  have hfield : forall iKeyField sField, nameOnlyMgr.FindField iKeyField = some sField ->
      iKeyField &&& 0xFF = 1 := by
    intro iKeyField sField h
    unfold KeyFieldMgr.FindField nameOnlyMgr at h
    dsimp only at h
    split at h
    · unfold Datakey.GetField at h
      simp only [Option.bind_some, List.lookup_cons, List.lookup_nil] at h
      split at h
      · exact eq_of_beq ‹_›
      · cases h
    · cases h
  constructor
  · intro iKey iOther sKey hone htwo
    rw [(hkey _ _ hone).left, (hkey _ _ htwo).left]
  · intro iKey sKey h
    rw [(hkey _ _ h).right]
    decide
  · intro iKeyField iOther sField hsame hone htwo
    apply keyField_ext hsame
    rw [hfield _ _ hone, hfield _ _ htwo]

/-- A name that is changed twice, and another one in between. -/
def renamings : List Change :=
  [{ i64Key := 5, iIndex := 0, iKeyField := 0x101, strValue := "\"ab\"".toList },
    { i64Key := 6, iIndex := 2, iKeyField := 0x101, strValue := "\"x\"".toList },
    { i64Key := 5, iIndex := 0, iKeyField := 0x101, strValue := "\"cd\"".toList }]

theorem renamings_coalesce : exists flushes, Coalesced nameOnlyMgr renamings flushes := by
  apply batch_coalesces distinctNames_nameOnly
  have hregistered : nameOnlyMgr.Registered 0x101 := ⟨"user".toList, "name".toList, rfl, rfl⟩
  intro change hmem
  unfold renamings at hmem
  simp only [List.mem_cons, List.not_mem_nil, or_false] at hmem
  rcases hmem with hEq | hEq | hEq
  · rw [hEq]
    exact ⟨⟨hregistered, by decide⟩, by decide⟩
  · rw [hEq]
    exact ⟨⟨hregistered, by decide⟩, by decide⟩
  · rw [hEq]
    exact ⟨⟨hregistered, by decide⟩, by decide⟩

end DataHandle
end GMServer
