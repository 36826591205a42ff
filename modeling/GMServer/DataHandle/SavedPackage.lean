import GMServer.DataHandle.UpdateText

/-!
# Saved packages

What is reported as saved is right if there was a row and the fields that nobody reads are
in it already: only the key zero is ever found, and a row that is missing is not inserted.
-/

namespace GMServer
namespace DataHandle
namespace DataTransfer

open Std RedisAdapter

/-!
# What should be saved
-/

/-- The text of a field in Redis, as a C string. -/
def hashText (store : RedisStore) (hash name : Text) : Option Text :=
  (fieldsOf (store hash)).bind (fun fields => (fields name).map cStr)

/-- Fields with their texts in Redis. -/
abbrev FieldTexts := FiledNameType -> Text -> Prop

def KeyField (store : RedisStore) (i64Key : uint64_t) (pKey : Datakey) : FieldTexts :=
  fun field raw => exists pName, pKey.pName = some pName ∧ field ∈ fieldList pKey ∧
    hashText store (structHash i64Key pName) field.Name = some raw ∧ raw ≠ []

/-- The fields of all keys that are registered for the table. -/
def PackageField (mgr : KeyFieldMgr) (store : RedisStore) (strDBTable : Text)
    (i64Key : uint64_t) : FieldTexts :=
  fun field raw => exists iKey pKey, iKey ∈ mgr.FindPackageDB strDBTable ∧
    mgr.mKey (keyOf iKey) = some pKey ∧ KeyField store i64Key pKey field raw

/-- The fields of the key zero, if the table has it. -/
def BaseField (mgr : KeyFieldMgr) (store : RedisStore) (strDBTable : Text)
    (i64Key : uint64_t) : FieldTexts :=
  fun field raw => 0 ∈ mgr.FindPackageDB strDBTable ∧
    exists pKey, mgr.mKey 0 = some pKey ∧ KeyField store i64Key pKey field raw

theorem packageField_of_base {mgr : KeyFieldMgr} {store : RedisStore} {strDBTable : Text}
    {i64Key : uint64_t} {field : FiledNameType} {raw : Text}
    (h : BaseField mgr store strDBTable i64Key field raw) :
    PackageField mgr store strDBTable i64Key field raw := by
  rcases h with ⟨hmem, pKey, hkey, hfield⟩
  exact ⟨0, pKey, hmem, hkey, hfield⟩

/-- The column of the field has the literal of its text. -/
def Holds (localtime_s : Calendar) (field : FiledNameType) (raw : Text) (row : Row) : Prop :=
  exists literal, TranToDBStr localtime_s raw field.eType = .ok literal ∧
    row.columns field.Name = some literal

/-- No other column of the row has changed. -/
structure ColumnsKept (wanted : FieldTexts) (row saved : Row) : Prop where
  index : saved.Index = row.Index
  columns : forall column, (forall field raw, wanted field raw -> field.Name ≠ column) ->
    saved.columns column = row.columns column

/-- One row of the key has the values, be it an old one or a new one; all other rows, and all
other tables, are as they were. -/
structure PackageSaved (localtime_s : Calendar) (wanted : FieldTexts) (strDBTable : Text)
    (i64Key : uint64_t) (before after : Database) : Prop where
  tables : forall other, other ≠ strDBTable -> after other = before other
  row : exists earlier old saved later,
    before strDBTable = earlier ++ (Option.toList old ++ later) ∧
      after strDBTable = earlier ++ saved :: later ∧ saved.Key = i64Key ∧
      (forall field raw, wanted field raw -> Holds localtime_s field raw saved) ∧
      (old = none -> rowsOf before strDBTable i64Key = []) ∧
      forall row, old = some row -> row.Key = i64Key ∧ ColumnsKept wanted row saved

/-- There is a row of the key, which has the values of all fields that are not among the
base fields; further rows of the key have the values of the base fields.  Where a base field
gives its name to another one, both have the same literal. -/
structure Savable (localtime_s : Calendar) (wanted base : FieldTexts) (strDBTable : Text)
    (i64Key : uint64_t) (before : Database) : Prop where
  row : exists earlier row later, before strDBTable = earlier ++ row :: later ∧
    row.Key = i64Key ∧
    (forall other, other ∈ earlier ++ later -> other.Key = i64Key ->
      forall field raw, base field raw -> Holds localtime_s field raw other) ∧
    forall field raw, wanted field raw ->
      (forall other text, base other text -> other.Name ≠ field.Name) ->
      Holds localtime_s field raw row
  agree : forall field raw other text, wanted field raw -> base other text ->
    other.Name = field.Name ->
    TranToDBStr localtime_s raw field.eType = TranToDBStr localtime_s text other.eType

/-!
# The update

The values that are collected are those of the base fields.
-/

structure Collected (localtime_s : Calendar) (base : FieldTexts)
    (mKeyValue : ExtTreeMap Text Text) : Prop where
  present : forall field raw, base field raw -> exists literal,
    mKeyValue[field.Name]? = some literal
  source : forall (column literal : Text), mKeyValue[column]? = some literal ->
    exists field raw, base field raw ∧ field.Name = column ∧
      TranToDBStr localtime_s raw field.eType = .ok literal

section

variable {localtime_s : Calendar} {wanted base : FieldTexts} {strDBTable : Text}
  {i64Key : uint64_t} {before : Database} {mKeyValue : ExtTreeMap Text Text}

theorem collected_none (h : Collected localtime_s base mKeyValue) {column : Text}
    (hfree : forall field raw, base field raw -> field.Name ≠ column) :
    mKeyValue[column]? = none := by
  cases hget : mKeyValue[column]? with
  | none => rfl
  | some literal =>
      rcases h.source column literal hget with ⟨field, raw, hbase, hname, _⟩
      exact absurd hname (hfree field raw hbase)

/-- What is collected for a name is the literal of every field that agrees. -/
theorem collected_some (h : Collected localtime_s base mKeyValue) {field : FiledNameType}
    {raw : Text}
    (hagree : forall other text, base other text -> other.Name = field.Name ->
      TranToDBStr localtime_s raw field.eType = TranToDBStr localtime_s text other.eType)
    {other : FiledNameType} {text : Text} (hother : base other text)
    (hname : other.Name = field.Name) :
    exists literal, mKeyValue[field.Name]? = some literal ∧
      TranToDBStr localtime_s raw field.eType = .ok literal := by
  rcases h.present other text hother with ⟨literal, hget⟩
  rw [hname] at hget
  rcases h.source field.Name literal hget with ⟨source, textOf, hsource, hsame, htran⟩
  exact ⟨literal, hget, (hagree source textOf hsource hsame).trans htran⟩

theorem updateRow_columns {row : Row} (hkey : row.Key = i64Key) (column : Text) :
    (updateRow i64Key mKeyValue row).columns column =
      (mKeyValue[column]?).or (row.columns column) := by
  unfold updateRow
  rw [if_pos hkey]

theorem updateRow_key (row : Row) : (updateRow i64Key mKeyValue row).Key = row.Key := by
  unfold updateRow
  split
  · rfl
  · rfl

theorem updateRow_index (row : Row) : (updateRow i64Key mKeyValue row).Index = row.Index := by
  unfold updateRow
  split
  · rfl
  · rfl

/-- After the update a row holds what agrees with a base field, and what it held where no
base field gives its name. -/
theorem holds_updateRow_iff (h : Collected localtime_s base mKeyValue) {row : Row}
    (hkey : row.Key = i64Key) {field : FiledNameType} {raw : Text}
    (hagree : forall other text, base other text -> other.Name = field.Name ->
      TranToDBStr localtime_s raw field.eType = TranToDBStr localtime_s text other.eType) :
    Holds localtime_s field raw (updateRow i64Key mKeyValue row) <->
      ((forall other text, base other text -> other.Name ≠ field.Name) ->
        Holds localtime_s field raw row) := by
  by_cases hnamed : exists other text, base other text ∧ other.Name = field.Name
  · rcases hnamed with ⟨other, text, hother, hname⟩
    rcases collected_some h hagree hother hname with ⟨literal, hget, htran⟩
    refine iff_of_true ⟨literal, htran, ?_⟩ (fun hfree => absurd hname (hfree other text hother))
    rw [updateRow_columns hkey, hget, Option.some_or]
  · have hfree : forall other text, base other text -> other.Name ≠ field.Name :=
      fun other text hother hname => hnamed ⟨other, text, hother, hname⟩
    have hcolumn : (updateRow i64Key mKeyValue row).columns field.Name =
        row.columns field.Name := by
      rw [updateRow_columns hkey, collected_none h hfree, Option.none_or]
    unfold Holds
    rw [hcolumn]
    exact ⟨fun hheld _ => hheld, fun hheld => hheld hfree⟩

/-- A row that has the values already stays as it is. -/
theorem updateRow_eq_self_iff (h : Collected localtime_s base mKeyValue)
    (hagree : forall field raw other text, base field raw -> base other text ->
      other.Name = field.Name ->
      TranToDBStr localtime_s raw field.eType = TranToDBStr localtime_s text other.eType)
    (row : Row) :
    updateRow i64Key mKeyValue row = row <->
      (row.Key = i64Key -> forall field raw, base field raw ->
        Holds localtime_s field raw row) := by
  constructor
  · intro hsame hkey field raw hbase
    rcases collected_some h (fun other text hother hname => hagree field raw other text hbase
      hother hname) hbase rfl with ⟨literal, hget, htran⟩
    refine ⟨literal, htran, ?_⟩
    rw [← hsame, updateRow_columns hkey, hget, Option.some_or]
  · intro hholds
    by_cases hkey : row.Key = i64Key
    · unfold updateRow
      rw [if_pos hkey]
      have hcolumns : (fun column => (mKeyValue[column]?).or (row.columns column)) =
          row.columns := by
        funext column
        cases hget : mKeyValue[column]? with
        | none => rfl
        | some literal =>
            rcases h.source column literal hget with ⟨field, raw, hbase, hname, htran⟩
            rcases hholds hkey field raw hbase with ⟨held, hheld, hcolumn⟩
            rw [htran] at hheld
            cases hheld
            rw [← hname, hcolumn, Option.some_or]
      rw [hcolumns]
    · unfold updateRow
      rw [if_neg hkey]

theorem map_eq_self_iff {entry : Type} {list : List entry} (f : entry -> entry) :
    list.map f = list <-> forall it, it ∈ list -> f it = it := by
  constructor
  · intro h row hmem
    exact List.map_inj_left.mp (h.trans (List.map_id list).symm) row hmem
  · intro h
    exact (List.map_congr_left h).trans (List.map_id list)

theorem packageSaved_of_savable (hbase : forall field raw, base field raw -> wanted field raw)
    (hcollected : Collected localtime_s base mKeyValue)
    (h : Savable localtime_s wanted base strDBTable i64Key before) :
    PackageSaved localtime_s wanted strDBTable i64Key before
      (updateRows before strDBTable i64Key mKeyValue) := by
  rcases h.row with ⟨earlier, row, later, hbefore, hkey, hothers, hrest⟩
  have hagree : forall field raw other text, base field raw -> base other text ->
      other.Name = field.Name ->
      TranToDBStr localtime_s raw field.eType = TranToDBStr localtime_s text other.eType :=
    fun field raw other text hfield hother hname =>
      h.agree field raw other text (hbase field raw hfield) hother hname
  have hkept : forall other, other ∈ earlier ++ later ->
      updateRow i64Key mKeyValue other = other :=
    fun other hmem => (updateRow_eq_self_iff hcollected hagree other).mpr (hothers other hmem)
  constructor
  case tables =>
    intro other hne
    exact Function.update_of_ne hne _ _
  case row =>
    refine ⟨earlier, some row, updateRow i64Key mKeyValue row, later, hbefore, ?_, ?_, ?_, ?_,
      ?_⟩
    · unfold updateRows
      rw [Function.update_self, hbefore, List.map_append, List.map_cons,
        (map_eq_self_iff _).mpr (fun other hmem => hkept other (List.mem_append_left _ hmem)),
        (map_eq_self_iff _).mpr (fun other hmem => hkept other (List.mem_append_right _ hmem))]
    · rw [updateRow_key, hkey]
    · intro field raw hwanted
      exact (holds_updateRow_iff hcollected hkey (fun other text hother hname =>
        h.agree field raw other text hwanted hother hname)).mpr (hrest field raw hwanted)
    · intro hnone
      cases hnone
    · intro other hother
      cases hother
      refine ⟨hkey, updateRow_index row, ?_⟩
      intro column hfree
      rw [updateRow_columns hkey, collected_none hcollected (fun field raw hfield =>
        hfree field raw (hbase field raw hfield)), Option.none_or]

theorem savable_of_packageSaved (hbase : forall field raw, base field raw -> wanted field raw)
    (hcollected : Collected localtime_s base mKeyValue)
    (h : PackageSaved localtime_s wanted strDBTable i64Key before
      (updateRows before strDBTable i64Key mKeyValue)) :
    Savable localtime_s wanted base strDBTable i64Key before := by
  rcases h.row with ⟨earlier, old, saved, later, hbefore, hafter, _, hholds, _, hkept⟩
  unfold updateRows at hafter
  rw [Function.update_self, hbefore] at hafter
  have hlength := congrArg List.length hafter
  cases old with
  | none =>
      -- no row is new
      rw [List.length_map, List.length_append, List.length_append, List.length_append,
        List.length_cons] at hlength
      exact absurd hlength (by
        show earlier.length + (0 + later.length) ≠ earlier.length + (later.length + 1)
        omega)
  | some row =>
      rcases hkept row rfl with ⟨hkey, _⟩
      rw [List.map_append] at hafter
      rcases List.append_inj hafter (List.length_map _) with ⟨hearlier, hrest⟩
      have hcons : updateRow i64Key mKeyValue row :: later.map (updateRow i64Key mKeyValue) =
          saved :: later := hrest
      rcases List.cons_eq_cons.mp hcons with ⟨hrow, hlater⟩
      have hagree : forall field raw other text, wanted field raw -> base other text ->
          other.Name = field.Name ->
          TranToDBStr localtime_s raw field.eType =
            TranToDBStr localtime_s text other.eType := by
        intro field raw other text hwanted hother hname
        rcases hholds field raw hwanted with ⟨one, hone, hcolumn⟩
        rcases hholds other text (hbase other text hother) with ⟨two, htwo, hsame⟩
        rw [hname, hcolumn] at hsame
        cases hsame
        exact hone.trans htwo.symm
      constructor
      case agree => exact hagree
      case row =>
        refine ⟨earlier, row, later, hbefore, hkey, ?_, ?_⟩
        · intro other hmem
          apply (updateRow_eq_self_iff hcollected (fun field raw source text hfield hsource =>
            hagree field raw source text (hbase field raw hfield) hsource) other).mp
          rcases List.mem_append.mp hmem with hfirst | hlast
          · exact (map_eq_self_iff _).mp hearlier other hfirst
          · exact (map_eq_self_iff _).mp hlater other hlast
        · intro field raw hwanted
          have hheld := hholds field raw hwanted
          rw [← hrow] at hheld
          exact (holds_updateRow_iff hcollected hkey (fun other text hother hname =>
            hagree field raw other text hwanted hother hname)).mp hheld

end

/-!
# What is read

The reply to `HMGET` has a text for each field, which is empty where there is none.
-/

section

variable {localtime_s : Calendar} {base : FieldTexts} {mKeyValue values : ExtTreeMap Text Text}

theorem Collected.congr {other : FieldTexts} (h : Collected localtime_s base mKeyValue)
    (hsame : forall field raw, base field raw <-> other field raw) :
    Collected localtime_s other mKeyValue := by
  have hEq : base = other := funext fun field => funext fun raw => propext (hsame field raw)
  rw [← hEq]
  exact h

theorem collected_empty (hnone : forall field raw, ¬ base field raw) :
    Collected localtime_s base ∅ := by
  constructor
  · intro field raw hbase
    exact absurd hbase (hnone field raw)
  · intro column literal hget
    rw [ExtTreeMap.getElem?_empty] at hget
    cases hget

theorem collected_insert (h : Collected localtime_s base mKeyValue) {field : FiledNameType}
    {raw literal : Text} (htran : TranToDBStr localtime_s raw field.eType = .ok literal) :
    Collected localtime_s (fun other text => base other text ∨ (other = field ∧ text = raw))
      (mKeyValue.insert field.Name literal) := by
  constructor
  · intro other text hother
    rw [SortedMap.getElem?_insert_eq]
    by_cases hname : field.Name = other.Name
    · exact ⟨literal, if_pos hname⟩
    · rw [if_neg hname]
      rcases hother with hbase | hnew
      · exact h.present other text hbase
      · exact absurd (congrArg FiledNameType.Name hnew.left.symm) hname
  · intro column found hget
    rw [SortedMap.getElem?_insert_eq] at hget
    split at hget
    · rename_i hname
      cases hget
      exact ⟨field, raw, Or.inr ⟨rfl, rfl⟩, hname, htran⟩
    · rcases h.source column found hget with ⟨other, text, hbase, hname, hother⟩
      exact ⟨other, text, Or.inl hbase, hname, hother⟩

/-- Fields of a list with their texts, if these are not empty. -/
def ListField (textOf : Text -> Text) (fields : List FiledNameType) : FieldTexts :=
  fun field raw => field ∈ fields ∧ textOf field.Name = raw ∧ raw ≠ []

theorem readValues_collected (textOf : Text -> Text) {fields : List FiledNameType}
    (h : Collected localtime_s base mKeyValue)
    (hread : readValues localtime_s mKeyValue fields
      (fields.map (fun field => textOf field.Name)) = .ok values) :
    Collected localtime_s (fun field raw => base field raw ∨ ListField textOf fields field raw)
      values := by
  induction fields generalizing base mKeyValue with
  | nil =>
      cases hread
      exact h.congr (fun field raw => (or_iff_left (fun hlist => by cases hlist.left)).symm)
  | cons first rest ih =>
      rw [List.map_cons, readValues] at hread
      split at hread
      · rename_i hempty
        apply (ih h hread).congr
        intro field raw
        refine or_congr_right ⟨?_, ?_⟩
        · intro hlist
          exact ⟨List.mem_cons_of_mem first hlist.left, hlist.right⟩
        · intro hlist
          rcases List.mem_cons.mp hlist.left with hfirst | hrest
          · rcases hlist.right with ⟨hraw, hfilled⟩
            rw [hfirst, hempty] at hraw
            exact absurd hraw.symm hfilled
          · exact ⟨hrest, hlist.right⟩
      · rename_i hfilled
        split at hread
        · cases hread
        · rename_i literal htran
          apply (ih (collected_insert h htran) hread).congr
          intro field raw
          rw [or_assoc]
          refine or_congr_right ⟨?_, ?_⟩
          · intro hlist
            rcases hlist with hnew | hlater
            · rw [hnew.left, hnew.right]
              exact ⟨List.mem_cons_self, rfl, hfilled⟩
            · exact ⟨List.mem_cons_of_mem first hlater.left, hlater.right⟩
          · intro hlist
            rcases List.mem_cons.mp hlist.left with hfirst | hrest
            · rw [hfirst] at hlist ⊢
              exact Or.inl ⟨rfl, hlist.right.left.symm⟩
            · exact Or.inr ⟨hrest, hlist.right⟩

theorem loadTexts_package {server : RedisServer RedisStore} (hserver : HashCommands server)
    (store : RedisStore) {hash : Text} (hhash : IsWord hash) {names : List Text}
    (hnames : forall name, name ∈ names -> IsWord name) (hne : names ≠ []) :
    exists texts, RedisWrap.LoadTexts server store (packageQuery hash names) =
        some (store, texts) ∧
      (texts = [] ∨ texts = names.map (fun name => (hashText store hash name).getD [])) := by
  have hwords : forall word, word ∈ hash :: names -> IsWord word :=
    List.forall_mem_cons.mpr ⟨hhash, hnames⟩
  have hformat : redisvFormatCommand (packageQuery hash names) =
      some ("HMGET".toList :: hash :: names) := by
    rw [← format_spaced (by decide) hwords, List.flatMap_cons, ← List.append_assoc]
    rfl
  unfold RedisWrap.LoadTexts RedisWrap.DoCmd
  rw [hformat, Option.map_some, Option.map_some, hserver.hmget _ _ _ hne]
  unfold hmget hashText
  cases fieldsOf (store hash) with
  | none => exact ⟨[], rfl, Or.inl rfl⟩
  | some fields =>
      refine ⟨_, rfl, Or.inr ?_⟩
      dsimp only
      rw [List.map_map]
      apply List.map_congr_left
      intro name _
      rw [Function.comp_apply, Option.bind_some]
      cases fields name with
      | none => rfl
      | some value => rfl

theorem getD_eq_iff {found : Option Text} {raw : Text} :
    found.getD [] = raw ∧ raw ≠ [] <-> found = some raw ∧ raw ≠ [] := by
  cases found with
  | none =>
      constructor
      · intro h
        exact absurd h.left.symm h.right
      · intro h
        cases h.left
  | some text => rw [Option.getD_some, Option.some_inj]

/-- What is read for a key is collected from its hash. -/
theorem readKeys_collected {server : RedisServer RedisStore} (hserver : HashCommands server)
    {store loaded : RedisStore} {i64Key : uint64_t} {pKey : Datakey} {pName : Text}
    (hpName : pKey.pName = some pName) (hname : IsWord pName)
    (hfields : forall field, field ∈ fieldList pKey -> IsWord field.Name)
    (hread : readKeys server localtime_s i64Key store ∅ [pKey] = some (loaded, some values)) :
    Collected localtime_s (KeyField store i64Key pKey) values := by
  rcases readKeys_single hpName hread with ⟨texts, hload, hlength, hvalues⟩
  by_cases hnil : fieldList pKey = []
  · rw [hnil] at hvalues
    cases hvalues
    apply collected_empty
    intro field raw hfield
    rcases hfield with ⟨_, _, hmem, _⟩
    rw [hnil] at hmem
    cases hmem
  · have hnames : forall name, name ∈ (fieldList pKey).map FiledNameType.Name ->
        IsWord name := by
      intro name hmem
      rcases List.mem_map.mp hmem with ⟨field, hfield, hsame⟩
      exact hsame ▸ hfields field hfield
    rcases loadTexts_package hserver store (isWord_structHash hname i64Key) hnames
      (fun h => hnil (List.map_eq_nil_iff.mp h)) with ⟨found, hfound, hshape⟩
    rw [hfound] at hload
    cases hload
    rcases hshape with hempty | hall
    · rw [hempty] at hlength
      exact absurd (List.length_eq_zero_iff.mp hlength.symm) hnil
    · rw [hall, List.map_map] at hvalues
      have hstart : Collected localtime_s (fun _ _ => False) ∅ := collected_empty fun _ _ h => h
      apply (readValues_collected (fun name => (hashText store (structHash i64Key pName)
        name).getD []) hstart hvalues).congr
      intro field raw
      rw [false_or]
      unfold KeyField ListField
      rw [getD_eq_iff]
      constructor
      · intro h
        exact ⟨pName, hpName, h⟩
      · intro h
        rcases h with ⟨other, hother, h⟩
        rw [hpName] at hother
        cases hother
        exact h

end

/-!
# What is reported as saved
-/

/-- Words as names, and a column of the table for each field. -/
structure KeyNamed (columns : List Text) (pKey : Datakey) : Prop where
  name : forall pName, pKey.pName = some pName -> IsWord pName
  fields : forall field, field ∈ fieldList pKey -> IsWord field.Name ∧ field.Name ∈ columns

/-- What the documentation of MySQL says about the statements.  The columns are those beside
the key and the index; an update without assignments is no statement. -/
structure PackageStatements {connection : Type} (reader : MySqlReader connection)
    (meaning : Text -> Database -> Database) (answer : Text -> Database -> ResultSet)
    (columns : List Text) (strDBTable : Text) (i64Key : uint64_t) : Prop where
  select : forall tables, meaning (selectAllText strDBTable i64Key) tables = tables
  rows : forall tables, (answer (selectAllText strDBTable i64Key) tables).rows = [] <->
    rowsOf tables strDBTable i64Key = []
  update : forall mKeyValue, Assignable columns mKeyValue -> forall tables,
    meaning (updateText strDBTable i64Key mKeyValue) tables =
      updateRows tables strDBTable i64Key mKeyValue
  malformed : forall w, (reader.mysql_real_query w (updateText strDBTable i64Key ∅)).2 ≠ .ok

section

variable {connection : Type} {server : RedisServer RedisStore} {reader : MySqlReader connection}
  {calls : List RegistryCall} {mgr : KeyFieldMgr} {localtime_s : Calendar}
  {store loaded : RedisStore} {columns : List Text} {strDBTable : Text} {i64Key : uint64_t}
  {mKeyValue : ExtTreeMap Text Text}

theorem collected_base (hbuilt : Registry.Built calls mgr) (hserver : HashCommands server)
    (hnamed : forall pKey, mgr.mKey 0 = some pKey -> KeyNamed columns pKey)
    (hread : readKeys server localtime_s i64Key store ∅ (packageKeys mgr strDBTable) =
      some (loaded, some mKeyValue)) :
    Collected localtime_s (BaseField mgr store strDBTable i64Key) mKeyValue := by
  unfold packageKeys at hread
  rw [Registry.filterMap_findDataKey hbuilt] at hread
  by_cases hmem : 0 ∈ mgr.FindPackageDB strDBTable
  · rw [if_pos hmem] at hread
    cases hkey : mgr.mKey 0 with
    | none =>
        rw [hkey] at hread
        cases hread
        apply collected_empty
        intro field raw hfield
        rcases hfield.right with ⟨pKey, hfound, _⟩
        rw [hkey] at hfound
        cases hfound
    | some pKey =>
        rw [hkey] at hread
        cases hpName : pKey.pName with
        | none =>
            unfold Option.toList readKeys at hread
            rw [hpName] at hread
            cases hread
        | some pName =>
            have hwords := hnamed pKey hkey
            apply (readKeys_collected hserver hpName (hwords.name pName hpName)
              (fun field hfield => (hwords.fields field hfield).left) hread).congr
            intro field raw
            constructor
            · intro h
              exact ⟨hmem, pKey, hkey, h⟩
            · intro h
              rcases h.right with ⟨other, hother, hfield⟩
              rw [hkey] at hother
              cases hother
              exact hfield
  · rw [if_neg hmem] at hread
    cases hread
    exact collected_empty (fun field raw hfield => hmem hfield.left)

theorem assignable_of_collected
    (hcollected : Collected localtime_s (BaseField mgr store strDBTable i64Key) mKeyValue)
    (hnamed : forall pKey, mgr.mKey 0 = some pKey -> KeyNamed columns pKey)
    (hliterals : forall field raw literal, BaseField mgr store strDBTable i64Key field raw ->
      TranToDBStr localtime_s raw field.eType = .ok literal -> IsLiteral literal)
    (hne : mKeyValue ≠ ∅) : Assignable columns mKeyValue := by
  refine ⟨hne, ?_⟩
  intro column literal hget
  rcases hcollected.source column literal hget with ⟨field, raw, hbase, hname, htran⟩
  refine ⟨?_, hliterals field raw literal hbase htran⟩
  rcases hbase.right with ⟨pKey, hkey, _, _, hmem, _⟩
  rw [← hname]
  exact ((hnamed pKey hkey).fields field hmem).right

theorem mem_rowsOf {database : Database} {row : Row} :
    row ∈ rowsOf database strDBTable i64Key <->
      row ∈ database strDBTable ∧ row.Key = i64Key := by
  unfold rowsOf
  rw [List.mem_filter, decide_eq_true_eq]

theorem key_ne_of_noRow {before : Database} (hnone : rowsOf before strDBTable i64Key = [])
    {row : Row} (hmem : row ∈ before strDBTable) : row.Key ≠ i64Key := by
  intro hkey
  have hrow := mem_rowsOf.mpr ⟨hmem, hkey⟩
  rw [hnone] at hrow
  cases hrow

/-- Without a row nothing is saved that leaves the tables as they are. -/
theorem notSaved_of_noRow {wanted : FieldTexts} {before : Database}
    (hnone : rowsOf before strDBTable i64Key = []) :
    ¬ PackageSaved localtime_s wanted strDBTable i64Key before before := by
  intro h
  rcases h.row with ⟨earlier, old, saved, later, _, hafter, hkey, _⟩
  apply key_ne_of_noRow hnone _ hkey
  rw [hafter]
  exact List.mem_append_right _ List.mem_cons_self

theorem notSavable_of_noRow {wanted base : FieldTexts} {before : Database}
    (hnone : rowsOf before strDBTable i64Key = []) :
    ¬ Savable localtime_s wanted base strDBTable i64Key before := by
  intro h
  rcases h.row with ⟨earlier, row, later, hbefore, hkey, _⟩
  apply key_ne_of_noRow hnone _ hkey
  rw [hbefore]
  exact List.mem_append_right _ List.mem_cons_self

/-- What is reported as saved is right exactly if there was a row that holds what nobody
reads. -/
theorem saved_iff_savable (hbuilt : Registry.Built calls mgr) (hserver : HashCommands server)
    {database : connection -> Database} {meaning : Text -> Database -> Database}
    {answer : Text -> Database -> ResultSet}
    (hmySql : CMysql.SqlServer reader.toMySqlClient database meaning)
    (hstores : CMysql.StoresAnswers reader database answer)
    (hstatements : PackageStatements reader meaning answer columns strDBTable i64Key)
    (hnamed : forall pKey, mgr.mKey 0 = some pKey -> KeyNamed columns pKey)
    (hliterals : forall field raw literal, BaseField mgr store strDBTable i64Key field raw ->
      TranToDBStr localtime_s raw field.eType = .ok literal -> IsLiteral literal)
    {mySql : connection} {outcome : Outcome RedisStore connection}
    (hsave : SavePackageToDB server reader mgr localtime_s store mySql strDBTable i64Key =
      some outcome) (hok : outcome.bOK = true) :
    PackageSaved localtime_s (PackageField mgr store strDBTable i64Key) strDBTable i64Key
        (database mySql) (database outcome.mySql) <->
      Savable localtime_s (PackageField mgr store strDBTable i64Key)
        (BaseField mgr store strDBTable i64Key) strDBTable i64Key (database mySql) := by
  rcases savePackage_true hsave hok with ⟨next, result, loaded, mKeyValue, hquery, hread, hcases⟩
  rcases CMysql.query_answered hquery hmySql hstores hstatements.select with
    ⟨hsame, hresult⟩
  have hcollected := collected_base hbuilt hserver hnamed hread
  rcases hcases with ⟨hrows, hexecute⟩ | ⟨hrows, hnext⟩
  · have hne : mKeyValue ≠ ∅ := by
      intro hempty
      rcases (CMysql.execute_queried hexecute).answered with ⟨w, _, hanswer, _⟩
      rw [hempty] at hanswer
      exact hstatements.malformed w hanswer
    have hmeaning := hstatements.update mKeyValue
      (assignable_of_collected hcollected hnamed hliterals hne)
    have hexecuted := CMysql.execute_done hexecute hmySql (by
      rw [hmeaning, hmeaning, updateRows_repeat])
    rw [hmeaning, hsame] at hexecuted
    rw [hexecuted]
    constructor
    · exact savable_of_packageSaved (fun _ _ => packageField_of_base) hcollected
    · exact packageSaved_of_savable (fun _ _ => packageField_of_base) hcollected
  · rw [hresult, hstatements.rows] at hrows
    rw [hnext, hsame]
    exact iff_of_false (notSaved_of_noRow hrows) (notSavable_of_noRow hrows)

end

/-!
# Players

The level of the player 5 is in Redis; he has a row, or has none yet.
-/

/-- A table that has the key zero only, with distinct names, can be saved if there is one
row. -/
theorem savable_of_single {mgr : KeyFieldMgr} {localtime_s : Calendar} {store : RedisStore}
    {strDBTable : Text} {i64Key : uint64_t} {before : Database}
    (honly : mgr.FindPackageDB strDBTable = [0])
    (hdistinct : forall pKey, mgr.mKey 0 = some pKey ->
      ((fieldList pKey).map FiledNameType.Name).Nodup)
    {earlier later : List Row} {row : Row} (hbefore : before strDBTable = earlier ++ row :: later)
    (hkey : row.Key = i64Key) (hunique : forall other, other ∈ earlier ++ later ->
      other.Key ≠ i64Key) :
    Savable localtime_s (PackageField mgr store strDBTable i64Key)
      (BaseField mgr store strDBTable i64Key) strDBTable i64Key before := by
  have hbase : forall field raw, PackageField mgr store strDBTable i64Key field raw ->
      BaseField mgr store strDBTable i64Key field raw := by
    intro field raw hfield
    rcases hfield with ⟨iKey, pKey, hmem, hfound, hfield⟩
    rw [honly] at hmem
    have hzero := List.mem_singleton.mp hmem
    rw [hzero] at hfound
    refine ⟨?_, pKey, hfound, hfield⟩
    rw [honly]
    exact List.mem_cons_self
  constructor
  case row =>
    refine ⟨earlier, row, later, hbefore, hkey, ?_, ?_⟩
    · intro other hmem hsame
      exact absurd hsame (hunique other hmem)
    · intro field raw hwanted hfree
      exact absurd rfl (hfree field raw (hbase field raw hwanted))
  case agree =>
    intro field raw other text hwanted hother hname
    rcases (hbase field raw hwanted).right with ⟨pKey, hfound, pName, hpName, hmem, hraw, _⟩
    rcases hother.right with ⟨same, hsame, otherName, hotherName, hotherMem, htext, _⟩
    rw [hfound] at hsame
    cases hsame
    rw [hpName] at hotherName
    cases hotherName
    have hEq := List.inj_on_of_nodup_map (hdistinct pKey hfound) hotherMem hmem hname
    rw [hEq, hraw] at htext
    cases htext
    rw [hEq]

def levelCalls : List RegistryCall :=
  [.AddKey "player.base".toList 0,
    .AddField "Level".toList 0 .FT_uint32_t [(0, Registry.levelField)],
    .AddPackageDB "player".toList 0]

theorem levelCalls_run :
    (Transition.Run Registry.step KeyFieldMgr.empty levelCalls).isSome = true := by
  decide

def levelMgr : KeyFieldMgr :=
  (Transition.Run Registry.step KeyFieldMgr.empty levelCalls).get levelCalls_run

def levelKey : Datakey :=
  { pName := some "player.base".toList, mField := [(0, Registry.levelField)] }

theorem levelMgr_built : Registry.Built levelCalls levelMgr := (Option.some_get _).symm

theorem levelMgr_key : levelMgr.mKey 0 = some levelKey := by
  decide

def levelStore : RedisStore := fun name =>
  if name = "player.base:5".toList then
    some (.hash (fun field => if field = "Level".toList then some "9".toList else none))
  else none

def levelDatabase (list : List Row) : Database := fun strDBTable =>
  if strDBTable = "player".toList then list else []

def levelRow : Row := { Key := 5, Index := none, columns := fun _ => none }

/-- Updates of the player 5 are executed. -/
def levelMeaning (sql : Text) (tables : Database) : Database :=
  if sql = updateText "player".toList 5 (readUpdate "player".toList sql) then
    updateRows tables "player".toList 5 (readUpdate "player".toList sql)
  else tables

def levelAnswer (_sql : Text) (tables : Database) : ResultSet :=
  { fields := ["Level".toList],
    rows := (rowsOf tables "player".toList 5).map (fun row => [row.columns "Level".toList]) }

def levelReader : MySqlReader (Database × ResultSet) :=
  CMysql.answeringReader (· = updateText "player".toList 5 ∅) levelMeaning levelAnswer

def saveLevel (list : List Row) : Option (Outcome RedisStore (Database × ResultSet)) :=
  SavePackageToDB hashServer levelReader levelMgr noTime levelStore
    (levelDatabase list, { fields := [], rows := [] }) "player".toList 5

theorem levelReader_statements :
    PackageStatements levelReader levelMeaning levelAnswer ["Level".toList] "player".toList
      5 := by
  constructor
  case select =>
    intro tables
    apply if_neg
    intro hEq
    have hfirst := congrArg List.head? hEq
    exact absurd hfirst (by decide)
  case rows =>
    intro tables
    exact List.map_eq_nil_iff
  case update =>
    intro mKeyValue hassignable tables
    have hread := readUpdate_updateText (by decide) hassignable "player".toList 5
    unfold levelMeaning
    rw [hread]
    exact if_pos rfl
  case malformed =>
    exact CMysql.answeringReader_refuses levelMeaning levelAnswer (decide_eq_true rfl)

theorem levelKey_named (pKey : Datakey) (hkey : levelMgr.mKey 0 = some pKey) :
    KeyNamed ["Level".toList] pKey := by
  rw [levelMgr_key] at hkey
  cases hkey
  constructor
  · intro pName hpName
    cases hpName
    decide
  · intro field hmem
    rw [List.mem_singleton.mp hmem]
    decide

theorem level_literal (field : FiledNameType) (raw literal : Text)
    (hbase : BaseField levelMgr levelStore "player".toList 5 field raw)
    (htran : TranToDBStr noTime raw field.eType = .ok literal) : IsLiteral literal := by
  rcases hbase.right with ⟨pKey, hkey, pName, hpName, hmem, hraw, _⟩
  rw [levelMgr_key] at hkey
  cases hkey
  cases hpName
  rw [List.mem_singleton.mp hmem] at hraw htran
  have htext : raw = "9".toList := (Option.some.inj hraw).symm
  rw [htext] at htran
  cases htran
  have hdigits : IsDigits "9".toList :=
    ⟨List.cons_ne_nil _ _, List.all_eq_true.mp (by decide)⟩
  exact IsLiteral.number (Or.inl rfl) hdigits (Or.inl rfl)

theorem level_saved :
    exists outcome, saveLevel [levelRow] = some outcome ∧ outcome.bOK = true ∧
      PackageSaved noTime (PackageField levelMgr levelStore "player".toList 5) "player".toList 5
        (levelDatabase [levelRow]) outcome.mySql.1 := by
  have hrun : (saveLevel [levelRow]).any Outcome.bOK = true := by
    decide +kernel
  rcases (Option.any_eq_true _ _).mp hrun with ⟨outcome, hsave, hok⟩
  refine ⟨outcome, hsave, hok, ?_⟩
  have hiff := saved_iff_savable levelMgr_built hashServer_commands
    (CMysql.answeringReader_server _ _ _) (CMysql.answeringReader_stores _ _ _)
    levelReader_statements levelKey_named level_literal hsave hok
  apply hiff.mpr
  have honly : levelMgr.FindPackageDB "player".toList = [0] := by
    decide
  have hdistinct : forall pKey, levelMgr.mKey 0 = some pKey ->
      ((fieldList pKey).map FiledNameType.Name).Nodup := by
    intro pKey hkey
    rw [levelMgr_key] at hkey
    cases hkey
    exact List.nodup_singleton _
  have hbefore : levelDatabase [levelRow] "player".toList = [] ++ levelRow :: [] := rfl
  exact savable_of_single honly hdistinct hbefore rfl
    (fun other hmem => absurd hmem List.not_mem_nil)

/-- A player without a row gets none. -/
theorem newLevel_notSaved :
    exists outcome, saveLevel [] = some outcome ∧ outcome.bOK = true ∧
      ¬ PackageSaved noTime (PackageField levelMgr levelStore "player".toList 5)
          "player".toList 5 (levelDatabase []) outcome.mySql.1 := by
  have hrun : (saveLevel []).any (fun outcome =>
      outcome.bOK && (outcome.mySql.1 "player".toList).isEmpty) = true := by
    decide +kernel
  rcases (Option.any_eq_true _ _).mp hrun with ⟨outcome, hsave, hcheck⟩
  rw [Bool.and_eq_true, List.isEmpty_iff] at hcheck
  refine ⟨outcome, hsave, hcheck.left, ?_⟩
  intro hsaved
  rcases hsaved.row with ⟨earlier, old, saved, later, _, hafter, _⟩
  rw [hcheck.right] at hafter
  exact absurd hafter.symm (List.append_ne_nil_of_right_ne_nil _ (List.cons_ne_nil _ _))

end DataTransfer
end DataHandle
end GMServer
