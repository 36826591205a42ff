import GMServer.DataHandle.LoadRepeated
import GMServer.DataHandle.Publication
import GMServer.DataHandle.Registry

/-!
# Loading a package

The columns of a row become the fields of a hash, by way of one command string: values that
are not words fall apart or vanish in it, and the fields get what stands behind their names
then.  Only the hash of the key zero is ever written.
-/

namespace GMServer
namespace DataHandle
namespace DataTransfer

open RedisAdapter RedisWrap

/-!
# Command strings
-/

/-- The arguments behind the hash. -/
def argumentWords (texts : List (Text × Text)) : Option (List Text) :=
  formatFrom [] false (cStr (texts.flatMap (fun text => ' ' :: (text.1 ++ ' ' :: text.2))))

theorem format_hmsetText {hash : Text} (hhash : IsWord hash) {texts : List (Text × Text)}
    (hne : texts ≠ []) :
    redisvFormatCommand (hmsetText hash texts) =
      (argumentWords texts).map (fun args => "HMSET".toList :: hash :: args) := by
  have hcommand : IsWord "HMSET".toList := by decide
  unfold argumentWords
  cases texts with
  | nil => exact absurd rfl hne
  | cons text texts =>
      have hsplit := format_word_append hcommand
        (hash ++ (text :: texts).flatMap (fun text => ' ' :: (text.1 ++ ' ' :: text.2)))
      have htext : "HMSET".toList ++ ' ' :: (hash ++
          (text :: texts).flatMap (fun text => ' ' :: (text.1 ++ ' ' :: text.2))) =
            hmsetText hash (text :: texts) := by
        unfold hmsetText
        rw [List.append_assoc]
        rfl
      rw [htext, List.flatMap_cons, List.cons_append] at hsplit
      rw [List.flatMap_cons, List.cons_append]
      generalize (text.1 ++ ' ' :: text.2) ++
        texts.flatMap (fun text => ' ' :: (text.1 ++ ' ' :: text.2)) = more at hsplit ⊢
      have hblank : cStr (' ' :: more) = ' ' :: cStr more := rfl
      rw [cStr_append hhash.right.left, formatFrom_word hhash.left hhash.right.right, hblank,
        List.nil_append, formatFrom_space, Option.map_map] at hsplit
      rw [hblank, formatFrom_blank]
      exact hsplit

/-- Texts that are words arrive as they are. -/
theorem argumentWords_words {texts : List (Text × Text)}
    (hwords : forall text, text ∈ texts -> IsWord text.1 ∧ IsWord text.2) :
    argumentWords texts = some (pairWords texts) := by
  by_cases hne : texts = []
  · rw [hne]
    rfl
  · have hcommand : IsWord "HMSET".toList := by decide
    have hhash : IsWord "hash".toList := by decide
    have htext : "HMSET".toList ++ ("hash".toList :: pairWords texts).flatMap (' ' :: ·) =
        hmsetText "hash".toList texts := by
      have hparts : (pairWords texts).flatMap (' ' :: ·) =
          texts.flatMap (fun text => ' ' :: (text.1 ++ ' ' :: text.2)) := by
        unfold pairWords
        rw [List.flatMap_assoc]
        simp only [List.flatMap_cons, List.flatMap_nil, List.append_nil, List.cons_append]
      rw [List.flatMap_cons, hparts]
      rfl
    have hspaced := format_spaced hcommand
      (List.forall_mem_cons.mpr ⟨hhash, isWord_pairWords hwords⟩)
    rw [htext, format_hmsetText hhash hne] at hspaced
    rcases Option.map_eq_some_iff.mp hspaced with ⟨args, hsome, hEq⟩
    cases hEq
    exact hsome

/-!
# What a command writes
-/

def HoldsText (store : RedisStore) (hash name text : Text) : Prop :=
  exists fields, store hash = some (.hash fields) ∧ fields name = some text

theorem holdsText_iff {store : RedisStore} {hash name text : Text} :
    HoldsText store hash name text <->
      exists fields, fieldsOf (store hash) = some fields ∧ fields name = some text := by
  constructor
  · intro h
    rcases h with ⟨fields, hhash, hname⟩
    rw [hhash]
    exact ⟨fields, rfl, hname⟩
  · intro h
    rcases h with ⟨fields, hfields, hname⟩
    refine ⟨fields, ?_, hname⟩
    cases hheld : store hash with
    | none =>
        rw [hheld] at hfields
        cases hfields
        cases hname
    | some held =>
        rw [hheld] at hfields
        cases held with
        | hash other =>
            cases hfields
            rfl
        | other => cases hfields

theorem holdsText_of_fields {store : RedisStore} {hash : Text} {fields : Fields}
    (hfields : fieldsOf (store hash) = some fields) (name text : Text) :
    HoldsText store hash name text <-> fields name = some text := by
  rw [holdsText_iff, hfields]
  constructor
  · intro h
    rcases h with ⟨other, hother, hname⟩
    cases hother
    exact hname
  · intro h
    exact ⟨fields, rfl, h⟩

/-- The fields and values that `HMSET` reads from its arguments; it does nothing if their
number is odd or there is something else than a hash. -/
def loadedPairs (held : Option RedisValue) (texts : List (Text × Text)) : List (Text × Text) :=
  match fieldsOf held with
  | none => []
  | some _ => ((argumentWords texts).bind HashWrite.pairUp).getD []

theorem fieldsOf_of_loadedPairs {held : Option RedisValue} {texts : List (Text × Text)}
    (h : loadedPairs held texts ≠ []) : exists fields, fieldsOf held = some fields := by
  unfold loadedPairs at h
  split at h
  · exact absurd rfl h
  · rename_i fields hfields
    exact ⟨fields, hfields⟩

theorem hmset_loadedPairs (store : RedisStore) (key : Text) {texts : List (Text × Text)}
    {args : List Text} (hargs : argumentWords texts = some args) :
    (hmset store key args).1 =
      if loadedPairs (store key) texts = [] then store
      else Function.update store key (some (.hash (Replay.replay
        ((fieldsOf (store key)).getD (fun _ => none)) (loadedPairs (store key) texts)))) := by
  unfold hmset loadedPairs
  rw [hargs, Option.bind_some]
  cases fieldsOf (store key) with
  | none =>
      rw [if_pos rfl]
      cases HashWrite.pairUp args with
      | none => rfl
      | some pairs =>
          cases pairs with
          | nil => rfl
          | cons pair pairs => rfl
  | some fields =>
      cases HashWrite.pairUp args with
      | none => exact (if_pos rfl).symm
      | some pairs =>
          cases pairs with
          | nil => exact (if_pos rfl).symm
          | cons pair pairs => exact (if_neg (List.cons_ne_nil _ _)).symm

/-- A text is held if it was written last, or was held and nothing was written. -/
theorem holdsText_hmset {store : RedisStore} {key : Text} {texts : List (Text × Text)}
    {args : List Text} (hargs : argumentWords texts = some args) (hash name text : Text) :
    HoldsText (hmset store key args).1 hash name text <->
      (hash = key ∧ Replay.WrittenLast (loadedPairs (store key) texts) name text) ∨
        ((hash = key -> name ∉ (loadedPairs (store key) texts).map Prod.fst) ∧
          HoldsText store hash name text) := by
  by_cases hsame : hash = key
  · rw [hsame, hmset_loadedPairs store key hargs]
    by_cases hnone : loadedPairs (store key) texts = []
    · rw [if_pos hnone, hnone]
      constructor
      · intro h
        exact Or.inr ⟨fun _ => List.not_mem_nil, h⟩
      · intro h
        rcases h with ⟨_, earlier, later, hnil, _⟩ | ⟨_, h⟩
        · exact absurd hnil.symm (List.append_ne_nil_of_right_ne_nil _ (List.cons_ne_nil _ _))
        · exact h
    · rcases fieldsOf_of_loadedPairs hnone with ⟨fields, hfields⟩
      rw [if_neg hnone, hfields, Option.getD_some]
      have hwritten : fieldsOf (Function.update store key (some (.hash (Replay.replay fields
          (loadedPairs (store key) texts)))) key) =
            some (Replay.replay fields (loadedPairs (store key) texts)) := by
        rw [Function.update_self]
        rfl
      rw [holdsText_of_fields hwritten, holdsText_of_fields hfields, Replay.replay_eq_some_iff]
      simp only [true_and, forall_const]
  · have hframe : HoldsText (hmset store key args).1 hash name text <->
        HoldsText store hash name text := by
      unfold HoldsText
      rw [hmset_frame hsame]
    rw [hframe]
    constructor
    · intro h
      exact Or.inr ⟨fun hEq => absurd hEq hsame, h⟩
    · intro h
      rcases h with ⟨hEq, _⟩ | ⟨_, h⟩
      · exact absurd hEq hsame
      · exact h

/-!
# What is fetched
-/

/-- The answer to a query for the fields of a key. -/
def fieldsAnswer (shown : Text -> Text) (pKey : Datakey) (rows : List Row) : ResultSet :=
  { fields := (fieldList pKey).map FiledNameType.Name,
    rows := rows.map (fun row =>
      ((fieldList pKey).map FiledNameType.Name).map (fun name =>
        (row.columns name).map shown)) }

theorem get_named {result : ResultSet} (hnodup : result.fields.Nodup) {name : Text}
    (hmem : name ∈ result.fields) (toColumn : Text -> Option Text) :
    CMysqlResult.Get result (result.fields.map toColumn) name =
      .ok ((toColumn name).getD []) := by
  rcases List.append_of_mem hmem with ⟨earlier, later, hfields⟩
  rw [CMysqlResult.get_split hfields hnodup, hfields, List.map_append, List.map_cons,
    List.getElem?_append_right (Nat.le_of_eq (List.length_map _)), List.length_map, Nat.sub_self]
  rfl

/-- The fields of a key with what is fetched for them. -/
def commandTexts (clock : Clock) (shown : Text -> Text) (row : Row)
    (fields : List FiledNameType) : List (Text × Text) :=
  fields.map (fun field =>
    (field.Name, TranToRedisStr clock (columnText shown row field.Name) field.eType))

theorem hashTexts_named {clock : Clock} {shown : Text -> Text} {row : Row}
    {result : ResultSet} (hnodup : result.fields.Nodup) {fields : List FiledNameType}
    (hmem : forall field, field ∈ fields -> field.Name ∈ result.fields) :
    hashTexts clock result (result.fields.map (fun name => (row.columns name).map shown)) fields =
      .ok (commandTexts clock shown row fields) := by
  induction fields with
  | nil => rfl
  | cons field fields ih =>
      rw [hashTexts, get_named hnodup (hmem field List.mem_cons_self)]
      dsimp only
      rw [ih (fun other h => hmem other (List.mem_cons_of_mem field h))]
      rfl

theorem get_of_hashTexts {clock : Clock} {result : ResultSet} {row : List (Option Text)}
    {fields : List FiledNameType} {texts : List (Text × Text)}
    (h : hashTexts clock result row fields = .ok texts) {field : FiledNameType}
    (hmem : field ∈ fields) :
    exists strValue, CMysqlResult.Get result row field.Name = .ok strValue := by
  induction fields generalizing texts with
  | nil => cases hmem
  | cons first rest ih =>
      unfold hashTexts at h
      split at h
      · cases h
      · rename_i strValue hget
        cases hrest : hashTexts clock result row rest with
        | error exception =>
            rw [hrest] at h
            cases h
        | ok later =>
            rcases List.mem_cons.mp hmem with hfirst | hlater
            · exact ⟨strValue, hfirst ▸ hget⟩
            · exact ih hrest hlater

/-- All fields can be fetched only if no two have the same name. -/
theorem nodup_of_hashTexts {clock : Clock} {result : ResultSet} {row : List (Option Text)}
    {fields : List FiledNameType} (hfields : result.fields = fields.map FiledNameType.Name)
    {texts : List (Text × Text)} (h : hashTexts clock result row fields = .ok texts) :
    result.fields.Nodup := by
  induction fields using List.reverseRecOn with
  | nil =>
      rw [hfields]
      exact List.nodup_nil
  | append_singleton earlier field _ =>
      by_contra hrepeated
      rw [List.map_append, List.map_singleton] at hfields
      rcases get_of_hashTexts h (List.mem_append_right _ List.mem_cons_self) with
        ⟨strValue, hget⟩
      rw [CMysqlResult.get_last_throws hfields hrepeated] at hget
      cases hget

/-!
# What should be loaded
-/

/-- The hash of a key that is registered for the table. -/
def PackageHash (mgr : KeyFieldMgr) (strDBTable : Text) (i64Key : uint64_t) (pKey : Datakey)
    (hash : Text) : Prop :=
  exists iKey pName, iKey ∈ mgr.FindPackageDB strDBTable ∧ mgr.mKey (keyOf iKey) = some pKey ∧
    pKey.pName = some pName ∧ hash = structHash i64Key pName

/-- The texts that the hashes should hold, one for each column that is not `NULL`. -/
def Wanted (clock : Clock) (shown : Text -> Text) (mgr : KeyFieldMgr) (strDBTable : Text)
    (i64Key : uint64_t) (row : Row) (hash name text : Text) : Prop :=
  exists pKey field literal, PackageHash mgr strDBTable i64Key pKey hash ∧
    field ∈ fieldList pKey ∧ field.Name = name ∧ row.columns field.Name = some literal ∧
    text = TranToRedisStr clock (shown literal) field.eType

structure PackageLoaded (clock : Clock) (shown : Text -> Text) (mgr : KeyFieldMgr)
    (strDBTable : Text) (i64Key : uint64_t) (row : Row) (before after : RedisStore) : Prop where
  texts : forall hash name text, Wanted clock shown mgr strDBTable i64Key row hash name text ->
    HoldsText after hash name text
  others : forall other, (forall pKey, ¬ PackageHash mgr strDBTable i64Key pKey other) ->
    after other = before other

/-- Every text is the last that the arguments for its hash give to its field, or the field
is not among them and has it already.  `key` is the hash that is written. -/
def Loadable (clock : Clock) (shown : Text -> Text) (mgr : KeyFieldMgr) (strDBTable : Text)
    (i64Key : uint64_t) (row : Row) (key : Text) (pairs : List (Text × Text))
    (store : RedisStore) : Prop :=
  forall hash name text, Wanted clock shown mgr strDBTable i64Key row hash name text ->
    (hash = key ∧ Replay.WrittenLast pairs name text) ∨
      ((hash = key -> name ∉ pairs.map Prod.fst) ∧ HoldsText store hash name text)

/-- What the documentation of MySQL says about the queries; a query for no columns is no
statement. -/
structure PackageQueries {connection : Type} (reader : MySqlReader connection)
    (meaning : Text -> Database -> Database) (answer : Text -> Database -> ResultSet)
    (shown : Text -> Text) (mgr : KeyFieldMgr) (strDBTable : Text) (i64Key : uint64_t) :
    Prop where
  select : forall pKey, mgr.mKey 0 = some pKey -> forall tables,
    meaning (selectPackageText strDBTable i64Key [pKey]) tables = tables
  answered : forall pKey, mgr.mKey 0 = some pKey -> forall tables,
    answer (selectPackageText strDBTable i64Key [pKey]) tables =
      fieldsAnswer shown pKey (rowsOf tables strDBTable i64Key)
  malformed : forall w, (reader.mysql_real_query w (selectPackageText strDBTable i64Key [])).2 ≠
    .ok

/-!
# What is reported as loaded
-/

section

variable {connection : Type} {server : RedisServer RedisStore} {reader : MySqlReader connection}
  {calls : List RegistryCall} {mgr : KeyFieldMgr} {clock : Clock} {shown : Text -> Text}
  {store : RedisStore} {strDBTable : Text} {i64Key : uint64_t} {mySql : connection}

/-- A query that is answered is one for the fields of the key zero. -/
theorem packageKey_of_query (hbuilt : Registry.Built calls mgr)
    (hmalformed : forall w,
      (reader.mysql_real_query w (selectPackageText strDBTable i64Key [])).2 ≠ .ok)
    {next : connection} {result : ResultSet}
    (h : CMysql.Query reader mySql (selectPackageText strDBTable i64Key
      (packageKeys mgr strDBTable)) = (next, .ok result)) :
    exists pKey, 0 ∈ mgr.FindPackageDB strDBTable ∧ mgr.mKey 0 = some pKey ∧
      packageKeys mgr strDBTable = [pKey] ∧ fieldList pKey ≠ [] := by
  rcases CMysql.query_accepted h with ⟨w, hok⟩
  have hkeys : packageKeys mgr strDBTable = _ := Registry.filterMap_findDataKey hbuilt strDBTable
  by_cases hmem : 0 ∈ mgr.FindPackageDB strDBTable
  · rw [if_pos hmem] at hkeys
    cases hkey : mgr.mKey 0 with
    | none =>
        rw [hkey] at hkeys
        rw [hkeys] at hok
        exact absurd hok (hmalformed w)
    | some pKey =>
        rw [hkey] at hkeys
        refine ⟨pKey, hmem, rfl, hkeys, ?_⟩
        intro hnil
        have htext : selectPackageText strDBTable i64Key [pKey] =
            selectPackageText strDBTable i64Key [] := by
          unfold selectPackageText
          rw [List.flatMap_cons, hnil]
          rfl
        rw [hkeys] at hok
        apply hmalformed w
        rw [← htext]
        exact hok
  · rw [if_neg hmem] at hkeys
    rw [hkeys] at hok
    exact absurd hok (hmalformed w)

theorem execute_hmsetText (hserver : HashCommands server) {hash : Text} (hhash : IsWord hash)
    {texts : List (Text × Text)} (hne : texts ≠ []) {next : RedisStore}
    (h : Execute server store (hmsetText hash texts) = some next) :
    exists args, argumentWords texts = some args ∧ next = (hmset store hash args).1 := by
  unfold Execute DoCmd at h
  rw [format_hmsetText hhash hne, Option.map_map, Option.map_map] at h
  rcases Option.map_eq_some_iff.mp h with ⟨args, hargs, hEq⟩
  refine ⟨args, hargs, ?_⟩
  rw [← hEq, ← hserver.hmset]
  rfl

theorem packageLoaded_hmset_iff {row : Row} {pKey : Datakey} {key : Text}
    (hkey : PackageHash mgr strDBTable i64Key pKey key) {texts : List (Text × Text)}
    {args : List Text} (hargs : argumentWords texts = some args) :
    PackageLoaded clock shown mgr strDBTable i64Key row store (hmset store key args).1 <->
      Loadable clock shown mgr strDBTable i64Key row key (loadedPairs (store key) texts)
        store := by
  constructor
  · intro h hash name text hwanted
    exact (holdsText_hmset hargs hash name text).mp (h.texts hash name text hwanted)
  · intro h
    constructor
    case texts =>
      intro hash name text hwanted
      exact (holdsText_hmset hargs hash name text).mpr (h hash name text hwanted)
    case others =>
      intro other hother
      apply hmset_frame
      intro hEq
      exact hother pKey (hEq ▸ hkey)

/-- What is reported as loaded is right exactly if the words of the command for the key zero
give every column that is not `NULL` its text, as far as it is not there already. -/
theorem packageLoaded_iff_loadable (hbuilt : Registry.Built calls mgr)
    (hserver : HashCommands server) {database : connection -> Database}
    {meaning : Text -> Database -> Database} {answer : Text -> Database -> ResultSet}
    (hmySql : CMysql.SqlServer reader.toMySqlClient database meaning)
    (hstores : CMysql.StoresAnswers reader database answer)
    (hqueries : PackageQueries reader meaning answer shown mgr strDBTable i64Key)
    (hnamed : forall pKey pName, mgr.mKey 0 = some pKey -> pKey.pName = some pName ->
      IsWord pName)
    {outcome : Outcome RedisStore connection}
    (hload : LoadPackageToRedis server reader mgr clock store mySql strDBTable i64Key =
      some outcome) (hok : outcome.bOK = true) :
    exists pKey pName row rows, 0 ∈ mgr.FindPackageDB strDBTable ∧ mgr.mKey 0 = some pKey ∧
      pKey.pName = some pName ∧
      rowsOf (database mySql) strDBTable i64Key = row :: rows ∧
      (PackageLoaded clock shown mgr strDBTable i64Key row store outcome.redis <->
        Loadable clock shown mgr strDBTable i64Key row (structHash i64Key pName)
          (loadedPairs (store (structHash i64Key pName))
            (commandTexts clock shown row (fieldList pKey))) store) := by
  rcases loadPackage_true hload hok with ⟨next, result, fetched, more, hquery, hrows, hkeys⟩
  rcases packageKey_of_query hbuilt hqueries.malformed hquery with
    ⟨pKey, hmem, hkey, hpackage, hne⟩
  rw [hpackage] at hquery hkeys
  rcases loadKeys_single hkeys with ⟨pName, texts, hpName, htexts, hexecute⟩
  have hresult := (CMysql.query_answered hquery hmySql hstores (hqueries.select pKey hkey)).right
  rw [hqueries.answered pKey hkey] at hresult
  rw [hresult] at hrows htexts
  rcases List.map_eq_cons_iff.mp hrows with ⟨row, rows, hrowsOf, hfetched, _⟩
  refine ⟨pKey, pName, row, rows, hmem, hkey, hpName, hrowsOf, ?_⟩
  have hnodup := nodup_of_hashTexts rfl htexts
  have hnames : forall field, field ∈ fieldList pKey ->
      field.Name ∈ (fieldsAnswer shown pKey (rowsOf (database mySql) strDBTable i64Key)).fields :=
    fun field hfield => List.mem_map_of_mem hfield
  have hEq : texts = commandTexts clock shown row (fieldList pKey) := by
    rw [← hfetched] at htexts
    exact Except.ok.inj (htexts.symm.trans (hashTexts_named hnodup hnames))
  have hfilled : commandTexts clock shown row (fieldList pKey) ≠ [] :=
    fun h => hne (List.map_eq_nil_iff.mp h)
  rw [hEq] at hexecute
  rcases execute_hmsetText hserver (isWord_structHash (hnamed pKey pName hkey hpName) i64Key)
    hfilled hexecute with ⟨args, hargs, hredis⟩
  have hhash : PackageHash mgr strDBTable i64Key pKey (structHash i64Key pName) :=
    ⟨0, pName, hmem, hkey, hpName, rfl⟩
  rw [hredis]
  exact packageLoaded_hmset_iff hhash hargs

end

/-!
# Players again

A row without `NULL` is loaded.  Where the level is `NULL` the command has an odd number of
arguments, and nobody looks at the error.
-/

/-- A table that has the key zero only is loaded if all texts are words and there is nothing
but a hash. -/
theorem loadable_of_words (store : RedisStore) {mgr : KeyFieldMgr} {clock : Clock}
    {shown : Text -> Text} {strDBTable : Text} {i64Key : uint64_t} {row : Row} {pKey : Datakey}
    {pName : Text} (honly : mgr.FindPackageDB strDBTable = [0])
    (hkey : mgr.mKey 0 = some pKey) (hpName : pKey.pName = some pName)
    (hdistinct : ((fieldList pKey).map FiledNameType.Name).Nodup)
    (hwords : forall text, text ∈ commandTexts clock shown row (fieldList pKey) ->
      IsWord text.1 ∧ IsWord text.2)
    {fields : Fields} (hfields : fieldsOf (store (structHash i64Key pName)) = some fields) :
    Loadable clock shown mgr strDBTable i64Key row (structHash i64Key pName)
      (loadedPairs (store (structHash i64Key pName))
        (commandTexts clock shown row (fieldList pKey))) store := by
  have hpairs : loadedPairs (store (structHash i64Key pName))
      (commandTexts clock shown row (fieldList pKey)) =
        commandTexts clock shown row (fieldList pKey) := by
    unfold loadedPairs
    rw [hfields, argumentWords_words hwords, Option.bind_some, pairUp_pairWords]
    rfl
  have hnames : (commandTexts clock shown row (fieldList pKey)).map Prod.fst =
      (fieldList pKey).map FiledNameType.Name := by
    unfold commandTexts
    rw [List.map_map]
    rfl
  rw [hpairs]
  intro hash name text hwanted
  rcases hwanted with ⟨other, field, literal, ⟨iKey, otherName, hmem, hother, hotherName, hhash⟩,
    hfield, hname, hcolumn, htext⟩
  rw [honly] at hmem
  rw [List.mem_singleton.mp hmem] at hother
  cases hkey.symm.trans hother
  cases hpName.symm.trans hotherName
  left
  refine ⟨hhash, Replay.writtenLast_of_distinct (hnames ▸ hdistinct) ?_⟩
  rw [← hname, htext]
  refine List.mem_map.mpr ⟨field, hfield, ?_⟩
  unfold columnText
  rw [hcolumn]
  rfl

def goldField : FiledNameType := { Name := "Gold".toList, eType := .FT_uint32_t }

def goldCalls : List RegistryCall :=
  [.AddKey "player.base".toList 0,
    .AddField "Level".toList 0 .FT_uint32_t [(0, Registry.levelField)],
    .AddField "Gold".toList 1 .FT_uint32_t [(0, Registry.levelField), (1, goldField)],
    .AddPackageDB "player".toList 0]

theorem goldCalls_run :
    (Transition.Run Registry.step KeyFieldMgr.empty goldCalls).isSome = true := by
  decide

def goldMgr : KeyFieldMgr :=
  (Transition.Run Registry.step KeyFieldMgr.empty goldCalls).get goldCalls_run

def goldKey : Datakey :=
  { pName := some "player.base".toList, mField := [(0, Registry.levelField), (1, goldField)] }

theorem goldMgr_built : Registry.Built goldCalls goldMgr := (Option.some_get _).symm

theorem goldMgr_key : goldMgr.mKey 0 = some goldKey := by
  decide

/-- A player with some gold. -/
def goldRow (level : Option Text) : Row :=
  { Key := 5, Index := none,
    columns := fun column =>
      if column = "Level".toList then level
      else if column = "Gold".toList then some "7".toList else none }

def goldDatabase (level : Option Text) : Database := fun strDBTable =>
  if strDBTable = "player".toList then [goldRow level] else []

def goldAnswer (_sql : Text) (tables : Database) : ResultSet :=
  fieldsAnswer id goldKey (rowsOf tables "player".toList 5)

def goldReader : MySqlReader (Database × ResultSet) :=
  CMysql.answeringReader (· = selectPackageText "player".toList 5 []) (fun _ tables => tables)
    goldAnswer

theorem goldReader_queries :
    PackageQueries goldReader (fun _ tables => tables) goldAnswer id goldMgr "player".toList
      5 := by
  constructor
  case select => exact fun _ _ _ => rfl
  case answered =>
    intro pKey hkey tables
    rw [goldMgr_key] at hkey
    cases hkey
    rfl
  case malformed => exact CMysql.answeringReader_refuses _ goldAnswer (decide_eq_true rfl)

theorem goldMgr_named (pKey : Datakey) (pName : Text) (hkey : goldMgr.mKey 0 = some pKey)
    (hpName : pKey.pName = some pName) : IsWord pName := by
  rw [goldMgr_key] at hkey
  cases hkey
  cases hpName
  decide

def loadGold (level : Option Text) : Option (Outcome RedisStore (Database × ResultSet)) :=
  LoadPackageToRedis hashServer goldReader goldMgr noClock (fun _ => none)
    (goldDatabase level, { fields := [], rows := [] }) "player".toList 5

theorem gold_loaded :
    exists outcome, loadGold (some "9".toList) = some outcome ∧ outcome.bOK = true ∧
      PackageLoaded noClock id goldMgr "player".toList 5 (goldRow (some "9".toList))
        (fun _ => none) outcome.redis := by
  have hrun : (loadGold (some "9".toList)).any Outcome.bOK = true := by
    decide +kernel
  rcases (Option.any_eq_true _ _).mp hrun with ⟨outcome, hload, hok⟩
  refine ⟨outcome, hload, hok, ?_⟩
  rcases packageLoaded_iff_loadable goldMgr_built hashServer_commands
    (CMysql.answeringReader_server _ _ _) (CMysql.answeringReader_stores _ _ _)
    goldReader_queries goldMgr_named hload hok with
    ⟨pKey, pName, row, rows, _, hkey, hpName, hrows, hiff⟩
  have honly : goldMgr.FindPackageDB "player".toList = [0] := by
    decide
  have hdistinct : ((fieldList goldKey).map FiledNameType.Name).Nodup := by
    decide
  have hwords : forall text,
      text ∈ commandTexts noClock id (goldRow (some "9".toList)) (fieldList goldKey) ->
        IsWord text.1 ∧ IsWord text.2 := by
    decide
  cases goldMgr_key.symm.trans hkey
  cases hpName
  cases hrows
  apply hiff.mpr
  exact loadable_of_words (fun _ => none) honly goldMgr_key rfl hdistinct hwords rfl

theorem noLevel_notLoaded :
    exists outcome, loadGold none = some outcome ∧ outcome.bOK = true ∧
      ¬ PackageLoaded noClock id goldMgr "player".toList 5 (goldRow none) (fun _ => none)
          outcome.redis := by
  have hrun : (loadGold none).any (fun outcome =>
      outcome.bOK && (outcome.redis "player.base:5".toList).isNone) = true := by
    decide +kernel
  rcases (Option.any_eq_true _ _).mp hrun with ⟨outcome, hload, hcheck⟩
  rw [Bool.and_eq_true, Option.isNone_iff_eq_none] at hcheck
  refine ⟨outcome, hload, hcheck.left, ?_⟩
  intro hloaded
  have hhash : PackageHash goldMgr "player".toList 5 goldKey "player.base:5".toList :=
    ⟨0, "player.base".toList, by decide, goldMgr_key, rfl, rfl⟩
  rcases hloaded.texts _ _ _ ⟨goldKey, goldField, "7".toList, hhash, by decide, rfl, rfl, rfl⟩ with
    ⟨fields, hfields, _⟩
  cases hcheck.right.symm.trans hfields

end DataTransfer
end DataHandle
end GMServer
