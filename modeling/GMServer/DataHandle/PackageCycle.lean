import GMServer.DataHandle.LoadPackage
import GMServer.DataHandle.ReadBack
import GMServer.DataHandle.SavedPackage
import GMServer.DataHandle.SqlLiteral

/-!
# From the table and back

A package is loaded from its row, the changes of an adapter go into the hash, and the hash
is saved to the row again.  The columns of fields that were changed get the literals of
their last texts, and nothing else in the tables is changed.
-/

namespace GMServer
namespace DataHandle

open Std

/-!
# Registered fields

The fields of a key are registered under different low bytes.
-/

namespace Registry

open Transition KeyFieldMgr

def Placed (key : Datakey) : Prop :=
  (key.mField.map Prod.fst).Nodup ∧ forall it, it ∈ key.mField -> it.1 &&& 0xFF = it.1

def AllPlaced (mgr : KeyFieldMgr) : Prop :=
  forall iKey pKey, mgr.mKey iKey = some pKey -> Placed pKey

theorem placed_dataKey {mgr : KeyFieldMgr} (h : AllPlaced mgr) (iKey : uint32_t) :
    Placed (mgr.dataKey iKey) := by
  unfold dataKey
  cases hkey : mgr.mKey iKey with
  | none => exact ⟨List.nodup_nil, fun it hmem => absurd hmem List.not_mem_nil⟩
  | some pKey => exact h iKey pKey hkey

theorem allPlaced_update {mgr : KeyFieldMgr} (h : AllPlaced mgr) {iKey : uint32_t}
    {key : Datakey} (hkey : Placed key) :
    AllPlaced { mgr with mKey := Function.update mgr.mKey iKey (some key) } := by
  intro other pKey hfound
  dsimp only at hfound
  by_cases hsame : other = iKey
  · rw [hsame, Function.update_self] at hfound
    cases hfound
    exact hkey
  · rw [Function.update_of_ne hsame] at hfound
    exact h other pKey hfound

theorem placed_fields {key : Datakey} (h : Placed key) {iIndex : uint32_t}
    {field : FiledNameType} {mField : List (uint32_t × FiledNameType)}
    (hperm : mField.Perm ((iIndex &&& 0xFF, field) ::
      key.mField.filter (fun it => it.1 ≠ iIndex &&& 0xFF))) :
    Placed { key with mField := mField } := by
  constructor
  · rw [(hperm.map Prod.fst).nodup_iff, List.map_cons, List.nodup_cons]
    constructor
    · intro hmem
      rcases List.mem_map.mp hmem with ⟨it, hit, hEq⟩
      exact of_decide_eq_true (List.mem_filter.mp hit).right hEq
    · exact h.left.sublist (List.filter_sublist.map Prod.fst)
  · intro it hmem
    rcases List.mem_cons.mp (hperm.mem_iff.mp hmem) with hfirst | hrest
    · rw [hfirst]
      show iIndex &&& 0xFF &&& 0xFF = iIndex &&& 0xFF
      rw [BitVec.and_assoc, BitVec.and_self]
    · exact h.right it (List.mem_filter.mp hrest).left

theorem placed_step {mgr next : KeyFieldMgr} {call : RegistryCall} (h : AllPlaced mgr)
    (hstep : step mgr call = some next) : AllPlaced next := by
  cases call with
  | AddKey pKey iIndex =>
      cases hstep
      exact allPlaced_update h (placed_dataKey h _)
  | AddField pField iIndex eType mField =>
      have hnext := addField_eq_some hstep
      simp only [step, AddField] at hstep
      split at hstep
      · rename_i hperm
        rw [hnext]
        exact allPlaced_update h (placed_fields (placed_dataKey h _) hperm)
      · cases hstep
  | AddPackageDB pDB iIndex =>
      cases hstep
      exact h
  | AddRepeatedDB pDB iIndex =>
      cases hstep
      exact h

theorem placed_built {calls : List RegistryCall} {mgr : KeyFieldMgr} (h : Built calls mgr) :
    AllPlaced mgr := by
  have hkeep : forall (s : KeyFieldMgr) (call : RegistryCall) (t : KeyFieldMgr), AllPlaced s ->
      True -> step s call = some t -> AllPlaced t :=
    fun _ _ _ hplaced _ hstep => placed_step hplaced hstep
  have hempty : AllPlaced KeyFieldMgr.empty := by
    intro iKey pKey hkey
    cases hkey
  exact run_invariant hkeep hempty (allSteps_of_labels (fun _ _ _ => trivial) _) h

/-- A field of the key zero is found under its low byte. -/
theorem findField_zero {calls : List RegistryCall} {mgr : KeyFieldMgr} (h : Built calls mgr)
    {pKey : Datakey} (hkey : mgr.mKey 0 = some pKey) {it : uint32_t × FiledNameType}
    (hmem : it ∈ pKey.mField) :
    mgr.FindKey it.1 = pKey.pName ∧ mgr.FindField it.1 = some it.2.Name := by
  rcases placed_built h 0 pKey hkey with ⟨hdistinct, hplaced⟩
  have hlow := hplaced it hmem
  have hzero : keyOf it.1 = 0 := by
    unfold keyOf
    rw [← hlow, BitVec.and_assoc]
    exact BitVec.and_zero
  have hlookup : pKey.mField.lookup it.1 = some it.2 := by
    rcases List.append_of_mem hmem with ⟨earlier, later, hfields⟩
    apply List.lookup_eq_some_iff.mpr
    refine ⟨earlier, later, hfields, ?_⟩
    intro other hother
    rw [hfields, List.map_append, List.map_cons, List.nodup_append] at hdistinct
    have hne := hdistinct.right.right other.1 (List.mem_map_of_mem hother) it.1
      List.mem_cons_self
    exact bne_iff_ne.mpr (Ne.symm hne)
  unfold FindKey FindField Datakey.GetField
  rw [hzero, hkey, Option.bind_some, Option.bind_some, hlow, hlookup]
  exact ⟨rfl, rfl⟩

end Registry

namespace DataTransfer

open RedisAdapter

/-!
# Columns that come back

The text that a column has in Redis has the same literal again.
-/

def Restorable (localtime_s : Calendar) (clock : Clock) (shown : Text -> Text) (row : Row)
    (field : FiledNameType) : Prop :=
  exists literal, row.columns field.Name = some literal ∧ IsLiteral literal ∧
    IsWord (TranToRedisStr clock (shown literal) field.eType) ∧
    TranToDBStr localtime_s (TranToRedisStr clock (shown literal) field.eType) field.eType =
      .ok literal

theorem restorable_number {localtime_s : Calendar} {clock : Clock} {shown : Text -> Text}
    {row : Row} {field : FiledNameType} {literal : Text}
    (htype : field.eType ≠ .FT_datetime ∧ field.eType ≠ .FT_string)
    (hcolumn : row.columns field.Name = some literal) (hliteral : IsLiteral literal)
    (hword : IsWord literal) (hshown : shown literal = literal) :
    Restorable localtime_s clock shown row field := by
  have hkept : TranToRedisStr clock literal field.eType = literal := by
    unfold TranToRedisStr
    split
    · rename_i hdatetime
      exact absurd hdatetime htype.left
    · rename_i hstring
      exact absurd hstring htype.right
    · rfl
  refine ⟨literal, hcolumn, hliteral, ?_, ?_⟩
  · rw [hshown, hkept]
    exact hword
  · rw [hshown, hkept]
    unfold TranToDBStr
    split
    · rename_i hdatetime
      exact absurd hdatetime htype.left
    · rename_i hstring
      exact absurd hstring htype.right
    · rfl

/-!
# Loading
-/

section

variable {connection pointer : Type} {server : RedisServer RedisStore}
  {reader : MySqlReader connection} {calls : List RegistryCall} {mgr : KeyFieldMgr}
  {clock : Clock} {localtime_s : Calendar} {shown : Text -> Text} {store : RedisStore}
  {columns : List Text} {strDBTable : Text} {i64Key : uint64_t} {mySql : connection}
  {database : connection -> Database} {meaning : Text -> Database -> Database}
  {answer : Text -> Database -> ResultSet} {row : Row} {pKey : Datakey} {pName : Text}

theorem hashText_eq (store : RedisStore) (hash name : Text) :
    hashText store hash name = (hashesOf store (hash, name)).map cStr := by
  unfold hashText hashesOf
  dsimp only
  cases fieldsOf (store hash) with
  | none => rfl
  | some fields => rfl

/-- What is left of the connection is what the query leaves. -/
theorem loadPackage_queried {world : Type} {server : RedisServer world} {redis : world}
    {outcome : Outcome world connection}
    (h : LoadPackageToRedis server reader mgr clock redis mySql strDBTable i64Key =
      some outcome) (hok : outcome.bOK = true) :
    outcome.mySql = (CMysql.Query reader mySql (selectPackageText strDBTable i64Key
      (packageKeys mgr strDBTable))).1 := by
  unfold LoadPackageToRedis at h
  split at h
  · cases h
    cases hok
  · dsimp only at h
    split at h
    · rename_i next exception hquery
      cases h
      cases hok
    · rename_i next result hquery
      split at h
      · cases h
        cases hok
      · rcases Option.map_eq_some_iff.mp h with ⟨loaded, _, hEq⟩
        rw [hquery, ← hEq]

/-- Words are loaded into the hash as they are, and its other fields are kept. -/
structure Loaded (clock : Clock) (shown : Text -> Text) (row : Row) (pKey : Datakey)
    (hash : Text) (before after : RedisStore) : Prop where
  typed : forall name, fieldsOf (after name) = none <-> fieldsOf (before name) = none
  texts : fieldsOf (before hash) ≠ none ->
    (forall text, text ∈ commandTexts clock shown row (fieldList pKey) ->
      IsWord text.1 ∧ IsWord text.2) ->
    forall text, text ∈ commandTexts clock shown row (fieldList pKey) ->
      hashesOf after (hash, text.1) = some text.2

theorem loaded_hmset {texts : List (Text × Text)}
    (htexts : texts = commandTexts clock shown row (fieldList pKey))
    (hdistinct : ((fieldList pKey).map FiledNameType.Name).Nodup) {hash : Text}
    {args : List Text} (hargs : argumentWords texts = some args) :
    Loaded clock shown row pKey hash store (hmset store hash args).1 := by
  constructor
  case typed =>
    intro name
    unfold hmset
    split
    · rename_i pair pairs fields _ hfields
      dsimp only
      by_cases hname : name = hash
      · rw [hname, Function.update_self, hfields]
        exact iff_of_false (Option.some_ne_none _) (Option.some_ne_none _)
      · rw [Function.update_of_ne hname]
    · exact Iff.rfl
  case texts =>
    intro htyped hwords text hmem
    rw [htexts, argumentWords_words hwords] at hargs
    cases hargs
    have hkeys : ((commandTexts clock shown row (fieldList pKey)).map Prod.fst).Nodup := by
      unfold commandTexts
      rw [List.map_map]
      exact hdistinct
    have hwritten := hashesOf_applyWrite
      { hash := hash, pairs := commandTexts clock shown row (fieldList pKey) }
      (show fieldsOf (store (hash, text.1).1) ≠ none from htyped)
    unfold HashWrite.applyTo HashWrite.cells at hwritten
    rw [replay_hash, if_pos rfl, Replay.replay_of_distinct hkeys hmem] at hwritten
    exact hwritten

/-- What is reported as loaded is in the hash, and no table is changed. -/
theorem load_fills (hbuilt : Registry.Built calls mgr) (hserver : HashCommands server)
    (hmySql : CMysql.SqlServer reader.toMySqlClient database meaning)
    (hstores : CMysql.StoresAnswers reader database answer)
    (hqueries : PackageQueries reader meaning answer shown mgr strDBTable i64Key)
    (hwords : WordNames mgr) (hrows : rowsOf (database mySql) strDBTable i64Key = [row])
    {outcome : Outcome RedisStore connection}
    (hload : LoadPackageToRedis server reader mgr clock store mySql strDBTable i64Key =
      some outcome) (hok : outcome.bOK = true) :
    exists pKey pName, 0 ∈ mgr.FindPackageDB strDBTable ∧ mgr.mKey 0 = some pKey ∧
      pKey.pName = some pName ∧ ((fieldList pKey).map FiledNameType.Name).Nodup ∧
      database outcome.mySql = database mySql ∧
      Loaded clock shown row pKey (structHash i64Key pName) store outcome.redis := by
  rcases loadPackage_true hload hok with ⟨next, result, fetched, more, hquery, hfetched, hkeys⟩
  have hnext := loadPackage_queried hload hok
  rw [hquery] at hnext
  rcases packageKey_of_query hbuilt hqueries.malformed hquery with
    ⟨pKey, hmem, hkey, hpackage, hne⟩
  rw [hpackage] at hquery hkeys
  rcases loadKeys_single hkeys with ⟨pName, texts, hpName, htexts, hexecute⟩
  rcases CMysql.query_answered hquery hmySql hstores (hqueries.select pKey hkey) with
    ⟨hsame, hresult⟩
  rw [hqueries.answered pKey hkey, hrows] at hresult
  rw [hresult] at hfetched htexts
  have hname : IsWord pName := by
    apply hwords.keys 0
    unfold KeyFieldMgr.FindKey
    rw [show keyOf 0 = 0 from rfl, hkey]
    exact hpName
  have hnodup := nodup_of_hashTexts rfl htexts
  have hnames : forall field, field ∈ fieldList pKey ->
      field.Name ∈ (fieldsAnswer shown pKey [row]).fields :=
    fun field hfield => List.mem_map_of_mem hfield
  have hEq : texts = commandTexts clock shown row (fieldList pKey) := by
    cases hfetched
    exact Except.ok.inj (htexts.symm.trans (hashTexts_named hnodup hnames))
  have hfilled : texts ≠ [] := by
    rw [hEq]
    exact fun h => hne (List.map_eq_nil_iff.mp h)
  rcases execute_hmsetText hserver (isWord_structHash hname i64Key) hfilled hexecute with
    ⟨args, hargs, hredis⟩
  refine ⟨pKey, pName, hmem, hkey, hpName, hnodup, ?_, ?_⟩
  · rw [hnext, hsame]
  · rw [hredis]
    exact loaded_hmset hEq hnodup hargs

/-!
# Changing

The fields of the key zero have their changes under the first key of the package.
-/

def fieldAddress (i64Key : uint64_t) (it : uint32_t × FiledNameType) : Address :=
  { iFirstKey := i64Key, iSecondKey := 0, iKeyField := it.1 }

/-- The last text of a field, which is the one that was loaded if there is no change. -/
def lastText (clock : Clock) (shown : Text -> Text) (row : Row) (buffer : RedisBuffer)
    (i64Key : uint64_t) (it : uint32_t × FiledNameType) : Text :=
  (buffer.valueAt (fieldAddress i64Key it)).getD
    (TranToRedisStr clock (columnText shown row it.2.Name) it.2.eType)

theorem change_of_valueAt {changes : List Change} {address : Address} {text : Text}
    (h : (buffered changes).valueAt address = some text) :
    exists change, change ∈ changes ∧ change.address = address ∧ change.strValue = text := by
  rw [valueAt_buffered] at h
  rcases Replay.mem_of_replay h with hmem | hnone
  · rcases List.mem_map.mp hmem with ⟨change, hchange, hEq⟩
    exact ⟨change, hchange, congrArg Prod.fst hEq, congrArg Prod.snd hEq⟩
  · cases hnone

theorem cellName_field (hbuilt : Registry.Built calls mgr) (hkey : mgr.mKey 0 = some pKey)
    (hpName : pKey.pName = some pName) (hfirst : i64Key ≠ 0) {it : uint32_t × FiledNameType}
    (hmem : it ∈ pKey.mField) :
    (fieldAddress i64Key it).Named mgr ∧
      (fieldAddress i64Key it).cellName mgr = (structHash i64Key pName, it.2.Name) := by
  rcases Registry.findField_zero hbuilt hkey hmem with ⟨hfindKey, hfindField⟩
  rw [hpName] at hfindKey
  constructor
  · exact ⟨⟨pName, it.2.Name, hfindKey, hfindField⟩, Or.inr rfl⟩
  · unfold Address.cellName fieldAddress KeyFieldMgr.keyName KeyFieldMgr.fieldName
    rw [hfindKey, hfindField, Option.getD_some, Option.getD_some, hashName_struct hfirst]

/-- After the changes every field of the hash has its last text. -/
theorem texts_changed (hbuilt : Registry.Built calls mgr) (hserver : HashCommands server)
    (hwords : WordNames mgr) (hnames : DistinctNames mgr) (hkey : mgr.mKey 0 = some pKey)
    (hpName : pKey.pName = some pName) (hfirst : i64Key ≠ 0) {loaded next : RedisStore}
    (hloaded : Loaded clock shown row pKey (structHash i64Key pName) store loaded)
    (htyped : fieldsOf (store (structHash i64Key pName)) ≠ none)
    (hback : forall field, field ∈ fieldList pKey ->
      Restorable localtime_s clock shown row field)
    {adapter changed : RedisAdapter pointer} {changes : List Change}
    (hbuffer : adapter.m_Buffer = buffered changes)
    (hchanges : forall change, change ∈ changes -> WordChange mgr change)
    {thrown : Option Exception}
    (hset : adapter.PubAndSet server mgr loaded = some (next, thrown, changed))
    {it : uint32_t × FiledNameType} (hmem : it ∈ pKey.mField) :
    hashText next (structHash i64Key pName) it.2.Name =
      some (lastText clock shown row adapter.m_Buffer i64Key it) := by
  have hloadedWords : forall text, text ∈ commandTexts clock shown row (fieldList pKey) ->
      IsWord text.1 ∧ IsWord text.2 := by
    intro text htext
    rcases List.mem_map.mp htext with ⟨field, hfield, hEq⟩
    rcases List.mem_map.mp hfield with ⟨other, hother, hsame⟩
    rcases hback field hfield with ⟨literal, hcolumn, _, hword, _⟩
    rw [← hEq]
    constructor
    · rw [← hsame]
      exact hwords.fields _ _ (Registry.findField_zero hbuilt hkey hother).right
    · unfold columnText
      rw [hcolumn]
      exact hword
  have hfield : (it.2.Name, TranToRedisStr clock (columnText shown row it.2.Name) it.2.eType) ∈
      commandTexts clock shown row (fieldList pKey) :=
    List.mem_map.mpr ⟨it.2, List.mem_map_of_mem hmem, rfl⟩
  have hbefore := hloaded.texts htyped hloadedWords _ hfield
  rcases cellName_field hbuilt hkey hpName hfirst hmem with ⟨hnamed, hcell⟩
  have hthere : fieldsOf (loaded ((fieldAddress i64Key it).cellName mgr).1) ≠ none := by
    rw [hcell]
    exact mt (hloaded.typed _).mp htyped
  rcases pubAndSet_changes hserver hwords hnames hbuffer hchanges loaded with
    ⟨after, hafter, _, htexts⟩
  rw [hset] at hafter
  cases hafter
  have hlast := htexts _ hnamed hthere
  rw [hcell, hbefore] at hlast
  rw [hashText_eq, hlast]
  unfold lastText
  cases hvalue : adapter.m_Buffer.valueAt (fieldAddress i64Key it) with
  | none =>
      rw [Option.none_or, Option.map_some, Option.getD_none]
      congr 1
      exact cStr_eq_self (hloadedWords _ hfield).right.right.left
  | some text =>
      rw [hbuffer] at hvalue
      rcases change_of_valueAt hvalue with ⟨change, hchange, _, hEq⟩
      have hword := (hchanges change hchange).right
      rw [hEq] at hword
      rw [Option.some_or, Option.map_some, Option.getD_some]
      congr 1
      exact cStr_eq_self hword.right.left

/-!
# Saving
-/

/-- One row has got the literals of the changes; all else is as it was. -/
structure Returned (localtime_s : Calendar) (buffer : RedisBuffer) (pKey : Datakey)
    (strDBTable : Text) (i64Key : uint64_t) (before after : Database) : Prop where
  tables : forall other, other ≠ strDBTable -> after other = before other
  row : exists earlier old saved later, before strDBTable = earlier ++ old :: later ∧
    after strDBTable = earlier ++ saved :: later ∧ old.Key = i64Key ∧ saved.Key = i64Key ∧
    saved.Index = old.Index ∧
    (forall it text, it ∈ pKey.mField ->
      buffer.valueAt (fieldAddress i64Key it) = some text -> Holds localtime_s it.2 text saved) ∧
    forall column, (forall it, it ∈ pKey.mField -> it.2.Name = column ->
        buffer.valueAt (fieldAddress i64Key it) = none) ->
      saved.columns column = old.columns column

theorem base_iff {next : RedisStore} {buffer : RedisBuffer}
    (hpackage : 0 ∈ mgr.FindPackageDB strDBTable) (hkey : mgr.mKey 0 = some pKey)
    (hpName : pKey.pName = some pName)
    (htexts : forall it, it ∈ pKey.mField ->
      hashText next (structHash i64Key pName) it.2.Name =
        some (lastText clock shown row buffer i64Key it))
    (hfilled : forall it, it ∈ pKey.mField -> lastText clock shown row buffer i64Key it ≠ [])
    (field : FiledNameType) (raw : Text) :
    BaseField mgr next strDBTable i64Key field raw <->
      exists it, it ∈ pKey.mField ∧ it.2 = field ∧
        raw = lastText clock shown row buffer i64Key it := by
  constructor
  · intro h
    rcases h with ⟨_, found, hfound, foundName, hfoundName, hfield, htext, _⟩
    rw [hkey] at hfound
    cases hfound
    rw [hpName] at hfoundName
    cases hfoundName
    rcases List.mem_map.mp hfield with ⟨it, hmem, hEq⟩
    rw [← hEq, htexts it hmem] at htext
    exact ⟨it, hmem, hEq, (Option.some.inj htext).symm⟩
  · intro h
    rcases h with ⟨it, hmem, hEq, hraw⟩
    rw [← hEq, hraw]
    exact ⟨hpackage, pKey, hkey, pName, hpName, List.mem_map_of_mem hmem, htexts it hmem,
      hfilled it hmem⟩

theorem field_unique (hdistinct : ((fieldList pKey).map FiledNameType.Name).Nodup)
    {one two : uint32_t × FiledNameType} (hone : one ∈ pKey.mField) (htwo : two ∈ pKey.mField)
    (hname : one.2.Name = two.2.Name) : one = two := by
  unfold fieldList at hdistinct
  rw [List.map_map] at hdistinct
  exact List.inj_on_of_nodup_map hdistinct hone htwo hname

/-- A field that was not changed is saved with the literal that it had. -/
theorem lastText_kept {buffer : RedisBuffer} {it : uint32_t × FiledNameType}
    (hback : Restorable localtime_s clock shown row it.2)
    (hnone : buffer.valueAt (fieldAddress i64Key it) = none) :
    exists literal, row.columns it.2.Name = some literal ∧ IsLiteral literal ∧
      IsWord (lastText clock shown row buffer i64Key it) ∧
      TranToDBStr localtime_s (lastText clock shown row buffer i64Key it) it.2.eType =
        .ok literal := by
  rcases hback with ⟨literal, hcolumn, hliteral, hword, htran⟩
  have htext : lastText clock shown row buffer i64Key it =
      TranToRedisStr clock (shown literal) it.2.eType := by
    unfold lastText columnText
    rw [hnone, hcolumn]
    rfl
  rw [htext]
  exact ⟨literal, hcolumn, hliteral, hword, htran⟩

theorem rows_split {before : Database}
    (hrows : rowsOf before strDBTable i64Key = [row]) :
    exists earlier later, before strDBTable = earlier ++ row :: later ∧ row.Key = i64Key ∧
      forall other, other ∈ earlier ++ later -> other.Key ≠ i64Key := by
  unfold rowsOf at hrows
  rcases List.filter_eq_cons_iff.mp hrows with ⟨earlier, later, hbefore, hearlier, hkey, hrest⟩
  refine ⟨earlier, later, hbefore, of_decide_eq_true hkey, ?_⟩
  intro other hmem hsame
  rcases List.mem_append.mp hmem with hfirst | hlast
  · exact hearlier other hfirst (decide_eq_true hsame)
  · exact List.filter_eq_nil_iff.mp hrest other hlast (decide_eq_true hsame)

theorem returned_update {before : Database} {buffer : RedisBuffer}
    {mKeyValue : ExtTreeMap Text Text} {base : FieldTexts}
    (hrows : rowsOf before strDBTable i64Key = [row])
    (hdistinct : ((fieldList pKey).map FiledNameType.Name).Nodup)
    (hback : forall field, field ∈ fieldList pKey ->
      Restorable localtime_s clock shown row field)
    (hcollected : Collected localtime_s base mKeyValue)
    (hbase : forall field raw, base field raw <-> exists it, it ∈ pKey.mField ∧ it.2 = field ∧
      raw = lastText clock shown row buffer i64Key it) :
    Returned localtime_s buffer pKey strDBTable i64Key before
      (updateRows before strDBTable i64Key mKeyValue) := by
  rcases rows_split hrows with ⟨earlier, later, hbefore, hkey, hothers⟩
  have hkept : forall other, other ∈ earlier ++ later ->
      updateRow i64Key mKeyValue other = other := by
    intro other hmem
    unfold updateRow
    rw [if_neg (hothers other hmem)]
  constructor
  case tables =>
    intro other hne
    exact Function.update_of_ne hne _ _
  case row =>
    refine ⟨earlier, row, updateRow i64Key mKeyValue row, later, hbefore, ?_, hkey, ?_,
      updateRow_index row, ?_, ?_⟩
    · unfold updateRows
      rw [Function.update_self, hbefore, List.map_append, List.map_cons,
        (map_eq_self_iff _).mpr (fun other hmem => hkept other (List.mem_append_left _ hmem)),
        (map_eq_self_iff _).mpr (fun other hmem => hkept other (List.mem_append_right _ hmem))]
    · rw [updateRow_key, hkey]
    · intro it text hmem hvalue
      have htext : lastText clock shown row buffer i64Key it = text := by
        unfold lastText
        rw [hvalue, Option.getD_some]
      rcases hcollected.present it.2 text ((hbase it.2 text).mpr ⟨it, hmem, rfl, htext.symm⟩)
        with ⟨literal, hget⟩
      rcases hcollected.source _ _ hget with ⟨field, raw, hfield, hname, htran⟩
      rcases (hbase field raw).mp hfield with ⟨other, hother, hsame, hraw⟩
      rw [← hsame] at hname htran
      rw [field_unique hdistinct hother hmem hname] at hraw htran
      rw [hraw, htext] at htran
      refine ⟨literal, htran, ?_⟩
      rw [updateRow_columns hkey, hget, Option.some_or]
    · intro column hunchanged
      rw [updateRow_columns hkey]
      cases hget : mKeyValue[column]? with
      | none => rfl
      | some literal =>
          rcases hcollected.source _ _ hget with ⟨field, raw, hfield, hname, htran⟩
          rcases (hbase field raw).mp hfield with ⟨it, hmem, hsame, hraw⟩
          rw [← hsame] at hname htran
          rcases lastText_kept (hback it.2 (List.mem_map_of_mem hmem))
            (hunchanged it hmem hname) with ⟨old, hcolumn, _, _, hold⟩
          rw [hraw, hold] at htran
          cases htran
          rw [hname] at hcolumn
          rw [hcolumn, Option.some_or]

/-- A package that is loaded, changed and saved: the fields that were changed get the
literals of their last texts, and nothing else is changed. -/
theorem package_returns (hbuilt : Registry.Built calls mgr) (hserver : HashCommands server)
    (hmySql : CMysql.SqlServer reader.toMySqlClient database meaning)
    (hstores : CMysql.StoresAnswers reader database answer)
    (hqueries : PackageQueries reader meaning answer shown mgr strDBTable i64Key)
    (hstatements : PackageStatements reader meaning answer columns strDBTable i64Key)
    (hwords : WordNames mgr) (hnames : DistinctNames mgr)
    (hcolumns : forall pKey, mgr.mKey 0 = some pKey -> KeyNamed columns pKey)
    (hfirst : i64Key ≠ 0) (hrows : rowsOf (database mySql) strDBTable i64Key = [row])
    (hback : forall pKey field, mgr.mKey 0 = some pKey -> field ∈ fieldList pKey ->
      Restorable localtime_s clock shown row field)
    (htyped : forall pKey pName, mgr.mKey 0 = some pKey -> pKey.pName = some pName ->
      fieldsOf (store (structHash i64Key pName)) ≠ none)
    {loaded : Outcome RedisStore connection}
    (hload : LoadPackageToRedis server reader mgr clock store mySql strDBTable i64Key =
      some loaded) (hloadOK : loaded.bOK = true)
    {adapter changed : RedisAdapter pointer} {changes : List Change}
    (hbuffer : adapter.m_Buffer = buffered changes)
    (hchanges : forall change, change ∈ changes -> WordChange mgr change)
    (hliteral : forall pKey it change literal, mgr.mKey 0 = some pKey -> it ∈ pKey.mField ->
      change ∈ changes -> change.address = fieldAddress i64Key it ->
        TranToDBStr localtime_s change.strValue it.2.eType = .ok literal -> IsLiteral literal)
    {next : RedisStore} {thrown : Option Exception}
    (hset : adapter.PubAndSet server mgr loaded.redis = some (next, thrown, changed))
    {saved : Outcome RedisStore connection}
    (hsave : SavePackageToDB server reader mgr localtime_s next loaded.mySql strDBTable i64Key =
      some saved) (hsaveOK : saved.bOK = true) :
    exists pKey, mgr.mKey 0 = some pKey ∧
      Returned localtime_s adapter.m_Buffer pKey strDBTable i64Key (database mySql)
        (database saved.mySql) := by
  rcases load_fills hbuilt hserver hmySql hstores hqueries hwords hrows hload hloadOK with
    ⟨pKey, pName, hpackage, hkey, hpName, hdistinct, htables, hloaded⟩
  have hrestorable : forall field, field ∈ fieldList pKey ->
      Restorable localtime_s clock shown row field := fun field => hback pKey field hkey
  have htexts : forall it, it ∈ pKey.mField ->
      hashText next (structHash i64Key pName) it.2.Name =
        some (lastText clock shown row adapter.m_Buffer i64Key it) :=
    fun it hmem => texts_changed hbuilt hserver hwords hnames hkey hpName hfirst hloaded
      (htyped pKey pName hkey hpName) hrestorable hbuffer hchanges hset hmem
  -- a text of a change, or one that was loaded
  have hlast : forall it, it ∈ pKey.mField ->
      lastText clock shown row adapter.m_Buffer i64Key it ≠ [] ∧
        forall literal, TranToDBStr localtime_s
            (lastText clock shown row adapter.m_Buffer i64Key it) it.2.eType = .ok literal ->
          IsLiteral literal := by
    intro it hmem
    cases hvalue : adapter.m_Buffer.valueAt (fieldAddress i64Key it) with
    | none =>
        rcases lastText_kept (hrestorable it.2 (List.mem_map_of_mem hmem)) hvalue with
          ⟨old, _, hliteral, hword, hold⟩
        refine ⟨hword.right.right, ?_⟩
        intro literal htran
        rw [hold] at htran
        cases htran
        exact hliteral
    | some text =>
        have htext : lastText clock shown row adapter.m_Buffer i64Key it = text := by
          unfold lastText
          rw [hvalue, Option.getD_some]
        rw [hbuffer] at hvalue
        rcases change_of_valueAt hvalue with ⟨change, hchange, haddress, hEq⟩
        rw [htext, ← hEq]
        exact ⟨(hchanges change hchange).right.right.right,
          fun literal => hliteral pKey it change literal hkey hmem hchange haddress⟩
  have hbase := base_iff hpackage hkey hpName htexts (fun it hmem => (hlast it hmem).left)
  rcases savePackage_true hsave hsaveOK with
    ⟨queried, result, read, mKeyValue, hquery, hread, hcases⟩
  rcases CMysql.query_answered hquery hmySql hstores hstatements.select with
    ⟨hsame, hresult⟩
  have hcollected := collected_base hbuilt hserver hcolumns hread
  rcases hcases with ⟨_, hexecute⟩ | ⟨hnothing, _⟩
  · have hne : mKeyValue ≠ ∅ := by
      intro hempty
      rcases (CMysql.execute_queried hexecute).answered with ⟨w, _, hanswer, _⟩
      rw [hempty] at hanswer
      exact hstatements.malformed w hanswer
    have hliterals : forall field raw literal, BaseField mgr next strDBTable i64Key field raw ->
        TranToDBStr localtime_s raw field.eType = .ok literal -> IsLiteral literal := by
      intro field raw literal hfield htran
      rcases (hbase field raw).mp hfield with ⟨it, hmem, hEq, hraw⟩
      rw [← hEq, hraw] at htran
      exact (hlast it hmem).right literal htran
    have hmeaning := hstatements.update mKeyValue
      (assignable_of_collected hcollected hcolumns hliterals hne)
    have hexecuted := CMysql.execute_done hexecute hmySql (by
      rw [hmeaning, hmeaning, updateRows_repeat])
    rw [hmeaning, hsame, htables] at hexecuted
    rw [hexecuted]
    exact ⟨pKey, hkey, returned_update hrows hdistinct hrestorable hcollected hbase⟩
  · rw [hresult, hstatements.rows, htables, hrows] at hnothing
    cases hnothing

end

/-!
# Earning gold

A player is loaded, his gold goes from 7 to 8, and he is saved.
-/

def moreGold : List Change :=
  [{ i64Key := 5, iIndex := 0, iKeyField := 1, strValue := "8".toList }]

def goldAdapter : RedisAdapter Unit :=
  { fresh with m_Buffer := buffered moreGold }

def goldCycleReader : MySqlReader (Database × ResultSet) :=
  CMysql.answeringReader
    (fun sql => sql = selectPackageText "player".toList 5 [] ||
      sql = updateText "player".toList 5 ∅) levelMeaning goldAnswer

theorem levelMeaning_select {sql : Text} (hfirst : sql.head? = some 'S') (tables : Database) :
    levelMeaning sql tables = tables := by
  apply if_neg
  intro hEq
  have hother : sql.head? = some 'U' := congrArg List.head? hEq
  rw [hfirst] at hother
  exact absurd hother (by decide)

theorem goldCycle_queries :
    PackageQueries goldCycleReader levelMeaning goldAnswer id goldMgr "player".toList 5 := by
  constructor
  case select =>
    intro pKey _ tables
    exact levelMeaning_select rfl tables
  case answered =>
    intro pKey hkey tables
    rw [goldMgr_key] at hkey
    cases hkey
    rfl
  case malformed =>
    apply CMysql.answeringReader_refuses levelMeaning goldAnswer
    rw [decide_eq_true rfl, Bool.true_or]

theorem goldCycle_statements :
    PackageStatements goldCycleReader levelMeaning goldAnswer ["Level".toList, "Gold".toList]
      "player".toList 5 := by
  constructor
  case select =>
    intro tables
    exact levelMeaning_select rfl tables
  case rows =>
    intro tables
    exact List.map_eq_nil_iff
  case update =>
    intro mKeyValue hassignable tables
    have hread := readUpdate_updateText (by decide) hassignable "player".toList 5
    unfold levelMeaning
    rw [hread]
    exact if_pos rfl
  case malformed =>
    apply CMysql.answeringReader_refuses levelMeaning goldAnswer
    rw [Bool.or_eq_true]
    exact Or.inr (decide_eq_true rfl)

theorem goldMgr_only {iKey : uint32_t} {pKey : Datakey} (h : goldMgr.mKey iKey = some pKey) :
    iKey = 0 ∧ pKey = goldKey := by
  have hknown : goldMgr.mKey iKey ≠ none := by
    rw [h]
    exact Option.some_ne_none pKey
  rcases (Registry.known_iff goldMgr_built iKey).mp hknown with ⟨call, hmem, huses⟩
  have hzero : iKey = 0 := by
    unfold goldCalls at hmem
    simp only [List.mem_cons, List.not_mem_nil, or_false] at hmem
    rcases hmem with rfl | rfl | rfl | rfl
    · exact huses.symm
    · exact huses.symm
    · exact huses.symm
    · cases huses
  rw [hzero, goldMgr_key] at h
  exact ⟨hzero, (Option.some.inj h).symm⟩

theorem goldMgr_findKey {iKey : uint32_t} {sKey : Text} (h : goldMgr.FindKey iKey = some sKey) :
    keyOf iKey = 0 ∧ sKey = "player.base".toList := by
  rcases Option.bind_eq_some_iff.mp h with ⟨pKey, hkey, hpName⟩
  rcases goldMgr_only hkey with ⟨hzero, hsame⟩
  rw [hsame] at hpName
  cases hpName
  exact ⟨hzero, rfl⟩

theorem goldMgr_findField {iField : uint32_t} {sField : Text}
    (h : goldMgr.FindField iField = some sField) :
    (iField &&& 0xFF = 0 ∧ sField = "Level".toList) ∨
      (iField &&& 0xFF = 1 ∧ sField = "Gold".toList) := by
  rcases Option.bind_eq_some_iff.mp h with ⟨pKey, hkey, hfield⟩
  rw [(goldMgr_only hkey).right] at hfield
  rcases Option.map_eq_some_iff.mp hfield with ⟨field, hlookup, hname⟩
  simp only [goldKey, List.lookup_cons, List.lookup_nil] at hlookup
  split at hlookup
  · cases hlookup
    exact Or.inl ⟨eq_of_beq ‹_›, hname.symm⟩
  · split at hlookup
    · cases hlookup
      exact Or.inr ⟨eq_of_beq ‹_›, hname.symm⟩
    · cases hlookup

theorem wordNames_gold : WordNames goldMgr := by
  constructor
  · intro iKey sKey h
    rw [(goldMgr_findKey h).right]
    decide
  · intro iKeyField sField h
    rcases goldMgr_findField h with ⟨_, hname⟩ | ⟨_, hname⟩
    · rw [hname]
      decide
    · rw [hname]
      decide

theorem distinctNames_gold : DistinctNames goldMgr := by
  constructor
  · intro iKey iOther sKey hone htwo
    rw [(goldMgr_findKey hone).left, (goldMgr_findKey htwo).left]
  · intro iKey sKey h
    rw [(goldMgr_findKey h).right]
    decide
  · intro iKeyField iOther sField hsame hone htwo
    apply keyField_ext hsame
    rcases goldMgr_findField hone with ⟨hlow, hname⟩ | ⟨hlow, hname⟩
    · rcases goldMgr_findField htwo with ⟨hother, _⟩ | ⟨_, hgold⟩
      · rw [hlow, hother]
      · rw [hname] at hgold
        exact absurd hgold (by decide)
    · rcases goldMgr_findField htwo with ⟨_, hlevel⟩ | ⟨hother, _⟩
      · rw [hname] at hlevel
        exact absurd hlevel (by decide)
      · rw [hlow, hother]

theorem digit_literal {c : Char} (hdigit : c.isDigit = true) : IsLiteral [c] :=
  IsLiteral.number (Or.inl rfl)
    ⟨List.cons_ne_nil _ _, List.forall_mem_singleton.mpr hdigit⟩ (Or.inl rfl)

/-- Whether loading and saving were reported as done, and what they left. -/
def earnGold : Option (Bool × Outcome RedisStore (Database × ResultSet)) :=
  (LoadPackageToRedis hashServer goldCycleReader goldMgr noClock (fun _ => none)
    (goldDatabase (some "9".toList), { fields := [], rows := [] }) "player".toList 5).bind
      (fun loaded =>
        (goldAdapter.PubAndSet hashServer goldMgr loaded.redis).bind (fun changed =>
          (SavePackageToDB hashServer goldCycleReader goldMgr noTime changed.1 loaded.mySql
            "player".toList 5).map (fun saved => (loaded.bOK && saved.bOK, saved))))

theorem gold_returns :
    exists saved, earnGold = some (true, saved) ∧
      Returned noTime (buffered moreGold) goldKey "player".toList 5
        (goldDatabase (some "9".toList)) saved.mySql.1 := by
  have hrun : earnGold.any Prod.fst = true := by
    decide +kernel
  rcases (Option.any_eq_true _ _).mp hrun with ⟨⟨ok, saved⟩, hearn, hok⟩
  have htrue : ok = true := hok
  rw [htrue] at hearn
  refine ⟨saved, hearn, ?_⟩
  rcases Option.bind_eq_some_iff.mp hearn with ⟨loaded, hload, hrest⟩
  rcases Option.bind_eq_some_iff.mp hrest with ⟨⟨next, thrown, changed⟩, hset, hlast⟩
  rcases Option.map_eq_some_iff.mp hlast with ⟨found, hsave, hEq⟩
  rcases Prod.mk.inj hEq with ⟨hboth, hsame⟩
  rw [Bool.and_eq_true] at hboth
  rw [hsame] at hsave hboth
  have hrow : forall field, field ∈ fieldList goldKey ->
      Restorable noTime noClock id (goldRow (some "9".toList)) field := by
    intro field hmem
    rcases List.mem_cons.mp hmem with hlevel | hgold
    · rw [hlevel]
      exact restorable_number (by decide) rfl (digit_literal rfl) (by decide) rfl
    · rw [List.mem_singleton.mp hgold]
      exact restorable_number (by decide) rfl (digit_literal rfl) (by decide) rfl
  have htyped : forall pKey pName, goldMgr.mKey 0 = some pKey -> pKey.pName = some pName ->
      fieldsOf ((fun _ => none : RedisStore) (structHash 5 pName)) ≠ none :=
    fun _ _ _ _ => Option.some_ne_none _
  have hwords : forall change, change ∈ moreGold -> WordChange goldMgr change := by
    intro change hmem
    rw [List.mem_singleton.mp hmem]
    exact ⟨⟨⟨"player.base".toList, "Gold".toList, by decide, by decide⟩, Or.inr rfl⟩,
      by decide⟩
  have hliterals : forall pKey it change literal, goldMgr.mKey 0 = some pKey ->
      it ∈ pKey.mField -> change ∈ moreGold -> change.address = fieldAddress 5 it ->
        TranToDBStr noTime change.strValue it.2.eType = .ok literal -> IsLiteral literal := by
    intro pKey it change literal hkey hmem hchange haddress htran
    rw [List.mem_singleton.mp hchange] at haddress htran
    rw [(goldMgr_only hkey).right] at hmem
    rcases List.mem_cons.mp hmem with hlevel | hgold
    · rw [hlevel] at haddress
      exact absurd haddress (by decide)
    · rw [List.mem_singleton.mp hgold] at htran
      cases htran
      exact digit_literal rfl
  rcases package_returns goldMgr_built hashServer_commands
    (CMysql.answeringReader_server _ _ _) (CMysql.answeringReader_stores _ _ _)
    goldCycle_queries goldCycle_statements wordNames_gold distinctNames_gold
    (by
      intro pKey hkey
      rw [(goldMgr_only hkey).right]
      constructor
      · intro pName hpName
        cases hpName
        decide
      · decide)
    (by decide) rfl
    (fun pKey field hkey hmem => hrow field ((goldMgr_only hkey).right ▸ hmem))
    htyped hload hboth.left rfl hwords hliterals hset hsave hboth.right with
    ⟨pKey, hkey, hreturned⟩
  rw [(goldMgr_only hkey).right] at hreturned
  exact hreturned

end DataTransfer

end DataHandle
end GMServer
