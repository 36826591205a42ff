import GMServer.DataHandle.BatchRuns
import GMServer.DataHandle.SaveLoad

/-!
# The arguments that arrive

The texts of values go into command strings as they are; the quotation marks around a
string mean nothing to `redisCommand`.  What arrives is what was meant exactly if no word
of a command is empty or holds a space or a percent sign.
-/

namespace GMServer
namespace DataHandle

open Std
open RedisAdapter

/-!
# What a server is asked
-/

/-- A server that keeps the argument lists it receives. -/
def recorder : RedisServer (List (List Text)) := fun received argv => (received ++ [argv], none)

theorem executeAll_recorder (received : List (List Text)) (commands : List Text) :
    RedisWrap.executeAll recorder received commands =
      (commands.mapM redisvFormatCommand).map (received ++ ·) := by
  induction commands generalizing received with
  | nil =>
      show some received = some (received ++ [])
      rw [List.append_nil]
  | cons strCmd commands ih =>
      unfold RedisWrap.executeAll RedisWrap.Execute RedisWrap.DoCmd
      rw [List.mapM_cons]
      cases redisvFormatCommand strCmd with
      | none => rfl
      | some argv =>
          show RedisWrap.executeAll recorder (received ++ [argv]) commands = _
          rw [ih]
          show _ = Option.map _ (Option.bind _ _)
          cases commands.mapM redisvFormatCommand with
          | none => rfl
          | some lists =>
              show some (received ++ [argv] ++ lists) = some (received ++ argv :: lists)
              rw [List.append_assoc, List.singleton_append]

theorem length_of_mapM {commands : List Text} {lists : List (List Text)}
    (h : commands.mapM redisvFormatCommand = some lists) : lists.length = commands.length := by
  induction commands generalizing lists with
  | nil =>
      cases h
      rfl
  | cons strCmd commands ih =>
      rw [List.mapM_cons] at h
      rcases Option.bind_eq_some_iff.mp h with ⟨argv, _, hrest⟩
      rcases Option.bind_eq_some_iff.mp hrest with ⟨more, hmore, hEq⟩
      cases hEq
      rw [List.length_cons, List.length_cons, ih hmore]

/-- Part by part. -/
theorem mapM_flatMap_iff {part : Type} {commands : part -> List Text}
    {arguments : part -> List (List Text)}
    (hlength : forall one, (arguments one).length = (commands one).length) (parts : List part) :
    (parts.flatMap commands).mapM redisvFormatCommand = some (parts.flatMap arguments) <->
      forall one, one ∈ parts ->
        (commands one).mapM redisvFormatCommand = some (arguments one) := by
  induction parts with
  | nil =>
      constructor
      · intro _ one hone
        cases hone
      · intro _
        rfl
  | cons first parts ih =>
      rw [List.flatMap_cons, List.flatMap_cons, List.mapM_append, List.forall_mem_cons, ← ih]
      constructor
      · intro h
        rcases Option.bind_eq_some_iff.mp h with ⟨lists, hfirst, hrest⟩
        rcases Option.bind_eq_some_iff.mp hrest with ⟨more, hmore, hEq⟩
        have hlists : lists.length = (arguments first).length := by
          rw [length_of_mapM hfirst, hlength]
        rcases List.append_inj (Option.some.inj hEq) hlists with ⟨hone, htwo⟩
        rw [hfirst, hmore, hone, htwo]
        exact ⟨rfl, rfl⟩
      · intro h
        rw [h.left, h.right]
        rfl

def HashWrite.arguments (write : HashWrite) : List Text :=
  "HMSET".toList :: write.hash :: pairWords write.pairs

/-- What the commands for a place are meant to be. -/
def Flush.arguments (mgr : KeyFieldMgr) (flush : Flush) : List (List Text) :=
  [(flush.hashWrite mgr).arguments,
    ["publish".toList, Text.decimal flush.place.iKey.toNat,
      RedisBuffer.syncPayload flush.place.iFirstKey flush.place.iSecondKey
        (publishFields flush.fields)]]

/-!
# Words
-/

/-- Names without spaces and percent signs; they are C strings. -/
structure PlainNames (mgr : KeyFieldMgr) : Prop where
  keys : forall iKey sKey, mgr.FindKey iKey = some sKey -> Plain sKey ∧ '\x00' ∉ sKey
  fields : forall iKeyField sField, mgr.FindField iKeyField = some sField ->
    Plain sField ∧ '\x00' ∉ sField

def PlainValue (value : StringValue.Value) : Prop :=
  forall strValue, value = .string strValue -> Plain strValue

/-- A `std::string` without NUL characters, or a value of another type. -/
def NulFree (value : StringValue.Value) : Prop :=
  forall strValue, value = .string strValue -> '\x00' ∉ strValue

theorem plain_append_iff {first second : Text} :
    Plain (first ++ second) <-> Plain first ∧ Plain second := List.forall_mem_append

theorem plain_toString_iff (value : StringValue.Value) :
    Plain (StringValue.ToString value) <-> PlainValue value := by
  have hnumber : (forall strValue, value ≠ .string strValue) ->
      Plain (StringValue.ToString value) := by
    intro hne
    apply plain_of_clean
    exact (StringValue.clean_toString_iff value).mpr (fun strValue h => absurd h (hne strValue))
  constructor
  · intro h strValue hvalue
    rw [hvalue] at h
    intro c hc
    exact h c (List.mem_cons_of_mem _ (List.mem_append_left _ hc))
  · intro h
    by_cases hstring : exists strValue, value = .string strValue
    · rcases hstring with ⟨strValue, hvalue⟩
      have hquote : Plain ['"'] := by decide
      rw [hvalue]
      exact plain_append_iff.mpr ⟨hquote, plain_append_iff.mpr ⟨h strValue hvalue, hquote⟩⟩
    · exact hnumber (fun strValue hvalue => hstring ⟨strValue, hvalue⟩)

theorem nul_not_mem_toString {value : StringValue.Value} (h : NulFree value) :
    '\x00' ∉ StringValue.ToString value := by
  by_cases hstring : exists strValue, value = .string strValue
  · rcases hstring with ⟨strValue, hvalue⟩
    rw [hvalue]
    intro hmem
    rcases List.mem_cons.mp hmem with hquote | hrest
    · cases hquote
    · rcases List.mem_append.mp hrest with hin | hquote
      · exact h strValue hvalue hin
      · cases List.mem_singleton.mp hquote
  · have hclean := (StringValue.clean_toString_iff value).mpr
      (fun strValue hvalue => absurd ⟨strValue, hvalue⟩ hstring)
    exact not_mem_of_clean hclean rfl

theorem isWord_hashName_iff {sKey : Text} (hplain : Plain sKey) (hzero : '\x00' ∉ sKey)
    (iFirstKey iSecondKey : uint64_t) :
    IsWord (RedisBuffer.hashName sKey iFirstKey iSecondKey) <-> sKey ≠ [] ∨ iFirstKey ≠ 0 := by
  unfold RedisBuffer.hashName
  by_cases hfirst : iFirstKey ≠ 0
  · rw [if_pos hfirst]
    constructor
    · intro _
      exact Or.inr hfirst
    · intro _
      apply IsWord.append_plain hplain hzero
      apply IsWord.cons (by decide)
      by_cases hsecond : iSecondKey ≠ 0
      · rw [if_pos hsecond]
        exact (isWord_decimal _).join (by decide) (isWord_decimal _)
      · rw [if_neg hsecond, List.append_nil]
        exact isWord_decimal _
  · rw [if_neg hfirst]
    constructor
    · intro h
      exact Or.inl h.right.right
    · intro h
      exact ⟨hplain, hzero, h.resolve_right hfirst⟩

/-- The words of a write are words exactly if its text is read as them. -/
theorem write_read_iff {write : HashWrite} (hhash : '\x00' ∉ write.hash)
    (hpairs : forall pair, pair ∈ write.pairs -> '\x00' ∉ pair.1 ∧ '\x00' ∉ pair.2) :
    redisvFormatCommand write.text = some write.arguments <-> WordWrite write := by
  have hnul : forall word, word ∈ write.arguments -> '\x00' ∉ word := by
    intro word hword
    rcases List.mem_cons.mp hword with hcommand | hrest
    · rw [hcommand]
      decide
    · rcases List.mem_cons.mp hrest with hname | hpart
      · rw [hname]
        exact hhash
      · rcases List.mem_flatMap.mp hpart with ⟨pair, hpair, hone⟩
        rcases List.mem_cons.mp hone with hfield | hvalue
        · rw [hfield]
          exact (hpairs pair hpair).left
        · rw [List.mem_singleton.mp hvalue]
          exact (hpairs pair hpair).right
  constructor
  · intro h
    rw [text_eq_commandText] at h
    have hwords := (format_words_iff hnul).mp h
    have hargs := (List.forall_mem_cons.mp (List.forall_mem_cons.mp hwords).right)
    refine ⟨hargs.left, ?_⟩
    intro pair hpair
    constructor
    · exact hargs.right pair.1 (List.mem_flatMap.mpr ⟨pair, hpair, List.mem_cons_self⟩)
    · exact hargs.right pair.2 (List.mem_flatMap.mpr
        ⟨pair, hpair, List.mem_cons_of_mem _ List.mem_cons_self⟩)
  · exact format_hashWrite

theorem mapM_pair_iff {first second : Text} {one two : List Text} :
    [first, second].mapM redisvFormatCommand = some [one, two] <->
      redisvFormatCommand first = some one ∧ redisvFormatCommand second = some two := by
  rw [List.mapM_cons, List.mapM_cons, List.mapM_nil]
  constructor
  · intro h
    rcases Option.bind_eq_some_iff.mp h with ⟨argv, hfirst, hrest⟩
    rcases Option.bind_eq_some_iff.mp hrest with ⟨more, hmore, hEq⟩
    rcases Option.bind_eq_some_iff.mp hmore with ⟨other, hsecond, hlist⟩
    cases hlist
    cases hEq
    exact ⟨hfirst, hsecond⟩
  · intro h
    rw [h.left, h.right]
    rfl

/-!
# The commands of a batch
-/

structure Assigned where
  iKey : uint64_t
  iIndex : uint64_t
  iKeyField : uint32_t
  value : StringValue.Value

namespace Assigned

def change (assigned : Assigned) : Change :=
  { i64Key := assigned.iKey, iIndex := assigned.iIndex, iKeyField := assigned.iKeyField,
    strValue := StringValue.ToString assigned.value }

def cell (assigned : Assigned) : Address × StringValue.Value :=
  (assigned.change.address, assigned.value)

end Assigned

/-- The values that were assigned last have no spaces and percent signs, and no name that is a
word of its own is empty. -/
structure Readable (mgr : KeyFieldMgr) (assigned : List Assigned) : Prop where
  names : forall it, it ∈ assigned -> mgr.fieldName it.iKeyField ≠ [] ∧
    (mgr.keyName it.iKeyField ≠ [] ∨ it.iKey ≠ 0)
  values : forall address value,
    Replay.WrittenLast (assigned.map Assigned.cell) address value -> PlainValue value

section Batches

variable {mgr : KeyFieldMgr} {assigned : List Assigned}

theorem isWord_fieldName_iff (hnames : PlainNames mgr) {iKeyField : uint32_t}
    (hregistered : mgr.Registered iKeyField) :
    IsWord (mgr.fieldName iKeyField) <-> mgr.fieldName iKeyField ≠ [] := by
  have hfield := (KeyFieldMgr.names_of_registered hregistered).right
  rcases hnames.fields _ _ hfield with ⟨hplain, hzero⟩
  exact ⟨fun h => h.right.right, fun h => ⟨hplain, hzero, h⟩⟩

/-- A text in the buffer is that of a value. -/
theorem valueAt_assigned {address : Address} {strValue : Text} :
    (buffered (assigned.map Assigned.change)).valueAt address = some strValue <->
      exists value, Replay.WrittenLast (assigned.map Assigned.cell) address value ∧
        StringValue.ToString value = strValue := by
  have hcells : (assigned.map Assigned.change).map Change.cell =
      (assigned.map Assigned.cell).map (fun write =>
        (write.1, StringValue.ToString write.2)) := by
    rw [List.map_map, List.map_map]
    rfl
  rw [valueAt_buffered, Replay.replay_eq_some_iff, hcells, Replay.writtenLast_map]
  constructor
  · intro h
    rcases h with hlast | ⟨_, hnone⟩
    · exact hlast
    · cases hnone
  · exact Or.inl

theorem mem_of_writtenLast {address : Address} {value : StringValue.Value}
    (h : Replay.WrittenLast (assigned.map Assigned.cell) address value) :
    exists it, it ∈ assigned ∧ it.change.address = address ∧ it.value = value := by
  rcases h with ⟨earlier, later, hwrites, _⟩
  have hmem : (address, value) ∈ assigned.map Assigned.cell := by
    rw [hwrites]
    exact List.mem_append_right _ List.mem_cons_self
  rcases List.mem_map.mp hmem with ⟨it, hit, hEq⟩
  exact ⟨it, hit, congrArg Prod.fst hEq, congrArg Prod.snd hEq⟩

theorem flush_read_iff (hnames : PlainNames mgr)
    (hregistered : forall it, it ∈ assigned -> mgr.Registered it.iKeyField)
    (hzero : forall it, it ∈ assigned -> NulFree it.value) {flush : Flush}
    (hflush : flush ∈ (buffered (assigned.map Assigned.change)).flushes) :
    (flush.commands mgr).mapM redisvFormatCommand = some (flush.arguments mgr) <->
      (mgr.keyName flush.place.iKey ≠ [] ∨ flush.place.iFirstKey ≠ 0) ∧
        forall field, field ∈ flush.fields ->
          mgr.fieldName field.1 ≠ [] ∧ Plain field.2 := by
  have hfields : forall field, field ∈ flush.fields -> mgr.Registered field.1 ∧
      '\x00' ∉ field.2 ∧ field.2 ≠ [] := by
    intro field hfield
    rcases change_of_field hflush hfield with ⟨change, hchange, hkeyField, hvalue⟩
    rcases List.mem_map.mp hchange with ⟨it, hit, hEq⟩
    rw [← hkeyField, ← hvalue, ← hEq]
    exact ⟨hregistered it hit, nul_not_mem_toString (hzero it hit),
      StringValue.toString_ne_nil it.value⟩
  have hkey : Plain (mgr.keyName flush.place.iKey) ∧ '\x00' ∉ mgr.keyName flush.place.iKey := by
    rcases RedisBuffer.exists_field hflush with ⟨field, hfield⟩
    have hplace := congrArg Place.iKey (place_address hflush hfield)
    have hfound := (KeyFieldMgr.names_of_registered (hfields field hfield).left).left
    rw [← KeyFieldMgr.keyName_keyOf, ← mgr.findKey_keyOf] at hfound
    rw [← hplace]
    exact hnames.keys _ _ hfound
  have hhash := isWord_hashName_iff hkey.left hkey.right flush.place.iFirstKey
    flush.place.iSecondKey
  have hfieldName : forall field, field ∈ flush.fields -> '\x00' ∉ mgr.fieldName field.1 :=
    fun field hfield => (hnames.fields _ _
      (KeyFieldMgr.names_of_registered (hfields field hfield).left).right).right
  have hread : redisvFormatCommand (flush.hashWrite mgr).text =
      some (flush.hashWrite mgr).arguments <-> WordWrite (flush.hashWrite mgr) := by
    apply write_read_iff
    · exact not_mem_hashName rfl (by decide) hkey.right _ _
    · intro pair hpair
      rcases List.mem_map.mp hpair with ⟨field, hfield, hEq⟩
      rw [← hEq]
      exact ⟨hfieldName field hfield, (hfields field hfield).right.left⟩
  show [(flush.hashWrite mgr).text, flush.change].mapM redisvFormatCommand = _ <-> _
  unfold Flush.arguments
  rw [mapM_pair_iff, hread]
  constructor
  · intro h
    refine ⟨hhash.mp h.left.left, ?_⟩
    intro field hfield
    have hpair := h.left.right _ (List.mem_map.mpr ⟨field, hfield, rfl⟩)
    exact ⟨hpair.left.right.right, hpair.right.left⟩
  · intro h
    have hvalues : forall field, field ∈ flush.fields -> IsWord field.2 := by
      intro field hfield
      rcases hfields field hfield with ⟨_, hnul, hne⟩
      exact ⟨(h.right field hfield).right, hnul, hne⟩
    refine ⟨⟨hhash.mpr h.left, ?_⟩, ?_⟩
    · intro pair hpair
      rcases List.mem_map.mp hpair with ⟨field, hfield, hEq⟩
      rw [← hEq]
      exact ⟨(isWord_fieldName_iff hnames (hfields field hfield).left).mpr
        (h.right field hfield).left, hvalues field hfield⟩
    · rw [format_change, format_word (isWord_syncPayload hvalues _ _)]
      rfl

/-- What the texts in the buffer have to be. -/
theorem readable_iff :
    Readable mgr assigned <->
      forall address strValue,
        (buffered (assigned.map Assigned.change)).valueAt address = some strValue ->
          (mgr.keyName address.iKeyField ≠ [] ∨ address.iFirstKey ≠ 0) ∧
            mgr.fieldName address.iKeyField ≠ [] ∧ Plain strValue := by
  constructor
  · intro h address strValue hvalue
    rcases valueAt_assigned.mp hvalue with ⟨value, hlast, htext⟩
    rcases mem_of_writtenLast hlast with ⟨it, hit, haddress, _⟩
    rw [← htext, ← haddress]
    exact ⟨(h.names it hit).right, (h.names it hit).left,
      (plain_toString_iff value).mpr (h.values address value hlast)⟩
  · intro h
    constructor
    · intro it hit
      have hchange : it.change ∈ assigned.map Assigned.change :=
        List.mem_map.mpr ⟨it, hit, rfl⟩
      rcases Option.ne_none_iff_exists'.mp (valueAt_of_mem hchange) with ⟨strValue, hvalue⟩
      rcases h _ _ hvalue with ⟨hname, hfield, _⟩
      exact ⟨hfield, hname⟩
    · intro address value hlast
      have hvalue := valueAt_assigned.mpr ⟨value, hlast, rfl⟩
      exact (plain_toString_iff value).mp (h _ _ hvalue).right.right

theorem batch_read_iff (hnames : PlainNames mgr)
    (hregistered : forall it, it ∈ assigned -> mgr.Registered it.iKeyField)
    (hzero : forall it, it ∈ assigned -> NulFree it.value) :
    RedisWrap.executeAll recorder []
        (RedisBuffer.Batch mgr (buffered (assigned.map Assigned.change))).1.commands =
      some ((buffered (assigned.map Assigned.change)).flushes.flatMap (Flush.arguments mgr)) <->
    Readable mgr assigned := by
  have hchanges : forall change, change ∈ assigned.map Assigned.change ->
      mgr.Registered change.iKeyField := by
    intro change hchange
    rcases List.mem_map.mp hchange with ⟨it, hit, hEq⟩
    rw [← hEq]
    exact hregistered it hit
  have hreceived : forall lists : List (List Text), [] ++ lists = lists := fun _ => rfl
  rw [executeAll_recorder, Batch_buffered hchanges, Option.map_congr (fun lists _ =>
    hreceived lists), Option.map_id', mapM_flatMap_iff (fun _ => rfl), readable_iff]
  constructor
  · intro h address strValue hvalue
    rcases List.mem_flatMap.mp (mem_cells_buffered.mpr hvalue) with ⟨flush, hflush, hcell⟩
    rcases List.mem_map.mp hcell with ⟨field, hfield, hEq⟩
    have hread := (flush_read_iff hnames hregistered hzero hflush).mp (h flush hflush)
    have hplace := place_address hflush hfield
    cases hEq
    rw [← KeyFieldMgr.keyName_keyOf]
    have hkey : keyOf (flush.address field.1).iKeyField = flush.place.iKey :=
      congrArg Place.iKey hplace
    rw [hkey]
    exact ⟨hread.left, hread.right field hfield⟩
  · intro h flush hflush
    apply (flush_read_iff hnames hregistered hzero hflush).mpr
    have hfields : forall field, field ∈ flush.fields ->
        (mgr.keyName flush.place.iKey ≠ [] ∨ flush.place.iFirstKey ≠ 0) ∧
          mgr.fieldName field.1 ≠ [] ∧ Plain field.2 := by
      intro field hfield
      have hvalue := mem_cells_buffered.mp (List.mem_flatMap.mpr
        ⟨flush, hflush, List.mem_map.mpr ⟨field, hfield, rfl⟩⟩)
      have hkey : keyOf field.1 = flush.place.iKey :=
        congrArg Place.iKey (place_address hflush hfield)
      rw [← hkey, KeyFieldMgr.keyName_keyOf]
      exact h _ _ hvalue
    rcases RedisBuffer.exists_field hflush with ⟨field, hfield⟩
    exact ⟨(hfields field hfield).left, fun other hother => (hfields other hother).right⟩

end Batches

/-!
# The commands of a save
-/

section Saves

variable {mgr : KeyFieldMgr} {mValue : ValueMap}

theorem saveGroup_recorder {hashOf : Text -> Text} (received : List (List Text))
    {it : uint32_t × List uint32_t}
    (hregistered : forall iKeyField, iKeyField ∈ it.2 -> mgr.Registered iKeyField) :
    saveGroup (some recorder) mgr mValue received (hashOf (mgr.keyName it.1)) it.2 =
      (redisvFormatCommand (groupWrite mgr hashOf mValue it).text).map (fun argv =>
        { state := received ++ [argv], thrown := none }) := by
  have hpairs : (it.2.map mgr.fieldName).zip (it.2.map (valueText mValue)) =
      it.2.map (fun iKeyField => (mgr.fieldName iKeyField, valueText mValue iKeyField)) :=
    List.zip_map'
  unfold saveGroup
  rw [mapM_findField hregistered]
  dsimp only
  rw [hpairs]
  unfold RedisWrap.Execute RedisWrap.DoCmd
  rw [Option.map_map, Option.map_map]
  rfl

theorem saveEach_recorder {hashOf : Text -> Text} (received : List (List Text))
    {groups : List (uint32_t × List uint32_t)}
    (hgroups : forall it, it ∈ groups -> mgr.FindKey it.1 = some (mgr.keyName it.1) ∧
      forall iKeyField, iKeyField ∈ it.2 -> mgr.Registered iKeyField) :
    saveEach (some recorder) mgr mValue hashOf received groups =
      ((groups.map (fun it => (groupWrite mgr hashOf mValue it).text)).mapM
        redisvFormatCommand).map (fun lists =>
          { state := received ++ lists, thrown := none }) := by
  induction groups generalizing received with
  | nil =>
      show some (Saved.mk received none) = some (Saved.mk (received ++ []) none)
      rw [List.append_nil]
  | cons it groups ih =>
      rcases hgroups it List.mem_cons_self with ⟨hkey, hregistered⟩
      unfold saveEach
      rw [hkey]
      dsimp only
      rw [saveGroup_recorder received hregistered, List.map_cons, List.mapM_cons]
      cases redisvFormatCommand (groupWrite mgr hashOf mValue it).text with
      | none => rfl
      | some argv =>
          rw [Option.map_some, Option.bind_some, if_pos rfl,
            ih _ (fun other h => hgroups other (List.mem_cons_of_mem it h))]
          show _ = Option.map _ (Option.bind _ _)
          cases (groups.map (fun it =>
              (groupWrite mgr hashOf mValue it).text)).mapM redisvFormatCommand with
          | none => rfl
          | some lists =>
              show some (Saved.mk (received ++ [argv] ++ lists) none) =
                some (Saved.mk (received ++ argv :: lists) none)
              rw [List.append_assoc, List.singleton_append]

theorem groupWrite_read_iff (hnames : PlainNames mgr)
    (hregistered : forall iKeyField, iKeyField ∈ mValue -> mgr.Registered iKeyField)
    (hzero : forall (iKeyField : uint32_t) (value : IValue),
      mValue[iKeyField]? = some value -> NulFree value.m_Value) (iKey iIndex : uint64_t)
    {it : uint32_t × List uint32_t} (hit : it ∈ (mapLoad mValue.keys).toList) :
    redisvFormatCommand (groupWrite mgr (elementHash iKey iIndex) mValue it).text =
        some (groupWrite mgr (elementHash iKey iIndex) mValue it).arguments <->
      forall iKeyField, iKeyField ∈ it.2 ->
        mgr.fieldName iKeyField ≠ [] ∧ Plain (valueText mValue iKeyField) := by
  have hvalues : forall iKeyField, iKeyField ∈ it.2 -> iKeyField ∈ mValue :=
    fun _ => mem_of_mem_group hit
  have htexts : forall iKeyField, iKeyField ∈ it.2 ->
      '\x00' ∉ valueText mValue iKeyField ∧ valueText mValue iKeyField ≠ [] := by
    intro iKeyField hmem
    refine ⟨?_, valueText_ne_nil (hvalues iKeyField hmem)⟩
    unfold valueText
    cases hvalue : mValue[iKeyField]? with
    | none => exact List.not_mem_nil
    | some value => exact nul_not_mem_toString (hzero iKeyField value hvalue)
  have hhash : IsWord (elementHash iKey iIndex (mgr.keyName it.1)) := by
    rcases exists_of_mem_group hit with ⟨first, hfirst, hkey⟩
    have hfound := findKey_group hkey (hregistered first hfirst)
    rcases hnames.keys _ _ hfound with ⟨hplain, hnul⟩
    exact IsWord.append_plain hplain hnul
      (IsWord.cons (by decide) ((isWord_decimal _).join (by decide) (isWord_decimal _)))
  rw [write_read_iff hhash.right.left]
  · constructor
    · intro h iKeyField hmem
      have hpair := h.right _ (List.mem_map.mpr ⟨iKeyField, hmem, rfl⟩)
      exact ⟨hpair.left.right.right, hpair.right.left⟩
    · intro h
      refine ⟨hhash, ?_⟩
      intro pair hpair
      rcases List.mem_map.mp hpair with ⟨iKeyField, hmem, hEq⟩
      rcases h iKeyField hmem with ⟨hfield, hplain⟩
      rw [← hEq]
      exact ⟨(isWord_fieldName_iff hnames (hregistered _ (hvalues _ hmem))).mpr hfield,
        hplain, htexts iKeyField hmem⟩
  · intro pair hpair
    rcases List.mem_map.mp hpair with ⟨iKeyField, hmem, hEq⟩
    rw [← hEq]
    have hfound := (KeyFieldMgr.names_of_registered (hregistered _ (hvalues _ hmem))).right
    exact ⟨(hnames.fields _ _ hfound).right, (htexts iKeyField hmem).left⟩

theorem map_saved_eq_iff (one : Option (List (List Text))) (two : List (List Text)) :
    one.map (fun lists => ({ state := [] ++ lists, thrown := none } : Saved _)) =
        some { state := two, thrown := none } <-> one = some two := by
  cases one with
  | none =>
      constructor
      · intro h
        cases h
      · intro h
        cases h
  | some lists =>
      constructor
      · intro h
        cases h
        rfl
      · intro h
        cases h
        rfl

theorem mapM_singleton_iff (sCmd : Text) (argv : List Text) :
    [sCmd].mapM redisvFormatCommand = some [argv] <-> redisvFormatCommand sCmd = some argv := by
  rw [List.mapM_cons, List.mapM_nil]
  cases redisvFormatCommand sCmd with
  | none =>
      constructor
      · intro h
        cases h
      · intro h
        cases h
  | some other =>
      show some [other] = some [argv] <-> some other = some argv
      rw [Option.some_inj, Option.some_inj, List.singleton_inj]

/-- The groups have all fields of the package between them. -/
theorem groups_plain_iff :
    (forall it, it ∈ (mapLoad mValue.keys).toList -> forall iKeyField, iKeyField ∈ it.2 ->
        mgr.fieldName iKeyField ≠ [] ∧ Plain (valueText mValue iKeyField)) <->
      forall (iKeyField : uint32_t) (value : IValue), mValue[iKeyField]? = some value ->
        mgr.fieldName iKeyField ≠ [] ∧ PlainValue value.m_Value := by
  have htext : forall (iKeyField : uint32_t) (value : IValue),
      mValue[iKeyField]? = some value ->
        valueText mValue iKeyField = StringValue.ToString value.m_Value := by
    intro iKeyField value hvalue
    unfold valueText
    rw [hvalue]
  constructor
  · intro h iKeyField value hvalue
    have hmem : iKeyField ∈ mValue := by
      rw [ExtTreeMap.mem_iff_isSome_getElem?, hvalue]
      rfl
    rcases exists_mem_mapLoad (ExtTreeMap.mem_keys.mpr hmem) with ⟨it, hit, hthere⟩
    rcases h it hit iKeyField hthere with ⟨hfield, hplain⟩
    rw [htext iKeyField value hvalue] at hplain
    exact ⟨hfield, (plain_toString_iff value.m_Value).mp hplain⟩
  · intro h it hit iKeyField hmem
    have hthere := mem_of_mem_group hit hmem
    rw [ExtTreeMap.mem_iff_isSome_getElem?] at hthere
    rcases Option.isSome_iff_exists.mp hthere with ⟨value, hvalue⟩
    rcases h iKeyField value hvalue with ⟨hfield, hplain⟩
    refine ⟨hfield, ?_⟩
    rw [htext iKeyField value hvalue]
    exact (plain_toString_iff value.m_Value).mpr hplain

theorem saveIndex_read_iff (hnames : PlainNames mgr)
    (hregistered : forall iKeyField, iKeyField ∈ mValue -> mgr.Registered iKeyField)
    (hzero : forall (iKeyField : uint32_t) (value : IValue),
      mValue[iKeyField]? = some value -> NulFree value.m_Value) (iKey iIndex : uint64_t) :
    SaveIndex (some recorder) mgr [] iKey iIndex mValue =
        some
          { state := (groupWrites mgr (elementHash iKey iIndex) mValue).map HashWrite.arguments,
            thrown := none } <->
      forall (iKeyField : uint32_t) (value : IValue), mValue[iKeyField]? = some value ->
        mgr.fieldName iKeyField ≠ [] ∧ PlainValue value.m_Value := by
  have hone : forall it, it ∈ (mapLoad mValue.keys).toList ->
      ([(groupWrite mgr (elementHash iKey iIndex) mValue it).text].mapM redisvFormatCommand =
          some [(groupWrite mgr (elementHash iKey iIndex) mValue it).arguments] <->
        forall iKeyField, iKeyField ∈ it.2 ->
          mgr.fieldName iKeyField ≠ [] ∧ Plain (valueText mValue iKeyField)) :=
    fun it hit => (mapM_singleton_iff _ _).trans
      (groupWrite_read_iff hnames hregistered hzero iKey iIndex hit)
  unfold SaveIndex groupWrites
  rw [saveEach_recorder [] (fun _ => registered_group hregistered), map_saved_eq_iff,
    List.map_map, List.map_eq_flatMap, List.map_eq_flatMap, mapM_flatMap_iff (fun _ => rfl),
    ← groups_plain_iff]
  exact forall₂_congr hone

/-- The other overload asks nothing of Redis: it throws in front of its first command. -/
theorem save_sends_nothing (received : List (List Text)) {saved : Saved (List (List Text))}
    (h : Save mgr received mValue = some saved) : saved.state = received := by
  unfold Save at h
  split at h
  · cases h
    rfl
  · split at h
    · cases h
      rfl
    · cases h

end Saves

/-!
# All commands
-/

/-- The commands of a batch and of a save arrive as they were meant exactly if the values that
were assigned last have no spaces and percent signs and no name is missing. -/
theorem commands_read_iff {mgr : KeyFieldMgr} (hnames : PlainNames mgr)
    {assigned : List Assigned}
    (hregistered : forall it, it ∈ assigned -> mgr.Registered it.iKeyField)
    (hzero : forall it, it ∈ assigned -> NulFree it.value) {mValue : ValueMap}
    (hvalues : forall iKeyField, iKeyField ∈ mValue -> mgr.Registered iKeyField)
    (hfree : forall (iKeyField : uint32_t) (value : IValue),
      mValue[iKeyField]? = some value -> NulFree value.m_Value) (iKey iIndex : uint64_t) :
    (RedisWrap.executeAll recorder []
          (RedisBuffer.Batch mgr (buffered (assigned.map Assigned.change))).1.commands =
        some ((buffered (assigned.map Assigned.change)).flushes.flatMap (Flush.arguments mgr)) <->
      Readable mgr assigned) ∧
    (SaveIndex (some recorder) mgr [] iKey iIndex mValue =
        some
          { state := (groupWrites mgr (elementHash iKey iIndex) mValue).map HashWrite.arguments,
            thrown := none } <->
      forall (iKeyField : uint32_t) (value : IValue), mValue[iKeyField]? = some value ->
        mgr.fieldName iKeyField ≠ [] ∧ PlainValue value.m_Value) ∧
    forall saved : Saved (List (List Text)), Save mgr [] mValue = some saved -> saved.state = [] :=
  ⟨batch_read_iff hnames hregistered hzero, saveIndex_read_iff hnames hvalues hfree iKey iIndex,
    fun _ h => save_sends_nothing [] h⟩

theorem plainNames_nameOnly : PlainNames nameOnlyMgr := by
  constructor
  · intro iKey sKey h
    unfold KeyFieldMgr.FindKey nameOnlyMgr at h
    dsimp only at h
    split at h
    · cases h
      decide
    · cases h
  · intro iKeyField sField h
    unfold KeyFieldMgr.FindField nameOnlyMgr at h
    dsimp only at h
    split at h
    · unfold Datakey.GetField at h
      simp only [Option.bind_some, List.lookup_cons, List.lookup_nil] at h
      split at h
      · cases h
        decide
      · cases h
    · cases h

def named (strValue : Text) : Assigned :=
  { iKey := 5, iIndex := 0, iKeyField := 0x101, value := .string strValue }

def oneName (strValue : Text) : ValueMap :=
  (∅ : ValueMap).insert 0x101 { IsConst := false, m_Value := .string strValue }

theorem of_mem_oneName {strValue : Text} {iKeyField : uint32_t} {value : IValue}
    (h : (oneName strValue)[iKeyField]? = some value) :
    iKeyField = 0x101 ∧ value.m_Value = .string strValue := by
  unfold oneName at h
  rw [SortedMap.getElem?_insert_eq] at h
  split at h
  · rename_i hkey
    cases h
    exact ⟨hkey.symm, rfl⟩
  · rw [ExtTreeMap.getElem?_empty] at h
    cases h

/-- A name of one word is read as it was meant. -/
theorem one_word_read :
    RedisWrap.executeAll recorder []
        (RedisBuffer.Batch nameOnlyMgr
          (buffered ([named "ab".toList].map Assigned.change))).1.commands =
      some ((buffered ([named "ab".toList].map Assigned.change)).flushes.flatMap
        (Flush.arguments nameOnlyMgr)) ∧
    SaveIndex (some recorder) nameOnlyMgr [] 5 1 (oneName "ab".toList) =
      some
        { state := (groupWrites nameOnlyMgr (elementHash 5 1) (oneName "ab".toList)).map
            HashWrite.arguments,
          thrown := none } := by
  have hregistered : nameOnlyMgr.Registered 0x101 := ⟨"user".toList, "name".toList, rfl, rfl⟩
  have hnamed : forall it, it ∈ [named "ab".toList] -> it = named "ab".toList :=
    fun it hit => List.mem_singleton.mp hit
  have hwords : PlainValue (.string "ab".toList) := by
    intro strValue hvalue
    cases hvalue
    decide
  have hnul : NulFree (.string "ab".toList) := by
    intro strValue hvalue
    cases hvalue
    decide
  have hassigned : forall it, it ∈ [named "ab".toList] -> nameOnlyMgr.Registered it.iKeyField := by
    intro it hit
    rw [hnamed it hit]
    exact hregistered
  have hzero : forall it, it ∈ [named "ab".toList] -> NulFree it.value := by
    intro it hit
    rw [hnamed it hit]
    exact hnul
  have hsaved : forall iKeyField, iKeyField ∈ oneName "ab".toList ->
      nameOnlyMgr.Registered iKeyField := by
    intro iKeyField hmem
    rw [ExtTreeMap.mem_iff_isSome_getElem?] at hmem
    rcases Option.isSome_iff_exists.mp hmem with ⟨value, hvalue⟩
    rw [(of_mem_oneName hvalue).left]
    exact hregistered
  have hfree : forall (iKeyField : uint32_t) (value : IValue),
      (oneName "ab".toList)[iKeyField]? = some value -> NulFree value.m_Value := by
    intro iKeyField value hvalue
    rw [(of_mem_oneName hvalue).right]
    exact hnul
  have hread := commands_read_iff plainNames_nameOnly hassigned hzero hsaved hfree 5 1
  refine ⟨hread.left.mpr ?_, hread.right.left.mpr ?_⟩
  · constructor
    · intro it hit
      rw [hnamed it hit]
      exact ⟨by decide, Or.inr (by decide)⟩
    · intro address value hlast
      rcases mem_of_writtenLast hlast with ⟨it, hit, _, hvalue⟩
      rw [← hvalue, hnamed it hit]
      exact hwords
  · intro iKeyField value hvalue
    rcases of_mem_oneName hvalue with ⟨hkey, hstring⟩
    rw [hkey, hstring]
    exact ⟨by decide, hwords⟩

/-- A space in a name adds an argument. -/
theorem two_words_shift :
    ¬ RedisWrap.executeAll recorder []
        (RedisBuffer.Batch nameOnlyMgr
          (buffered ([named "a b".toList].map Assigned.change))).1.commands =
      some ((buffered ([named "a b".toList].map Assigned.change)).flushes.flatMap
        (Flush.arguments nameOnlyMgr)) := by
  decide

end DataHandle
end GMServer
