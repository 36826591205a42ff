import GMServer.DataHandle.LoadToRedis
import GMServer.DataHandle.SaveRepeated

/-!
# Loading a repeated group

The hashes of the elements should become those of the rows.  They are deleted, with
whatever else the pattern finds, and never written.
-/

namespace GMServer
namespace DataHandle
namespace DataTransfer

open RedisAdapter RedisWrap

/-!
# Keys

What the documentation of Redis says about the commands that list and delete keys, the
former for names without the special characters of patterns.
-/

def NoPattern (word : Text) : Prop := forall c, c ∈ word -> c ∉ "*?[\\".toList

instance (word : Text) : Decidable (NoPattern word) :=
  List.decidableBAll (fun c => c ∉ "*?[\\".toList) word

def deleteKeys (store : RedisStore) (args : List Text) : RedisStore :=
  fun name => if args.contains name then none else store name

theorem deleteKeys_of_mem {store : RedisStore} {args : List Text} {name : Text}
    (h : name ∈ args) : deleteKeys store args name = none :=
  if_pos (List.contains_iff_mem.mpr h)

theorem deleteKeys_of_not_mem {store : RedisStore} {args : List Text} {name : Text}
    (h : name ∉ args) : deleteKeys store args name = store name :=
  if_neg (fun hmem => h (List.contains_iff_mem.mp hmem))

theorem deleteKeys_eq_some {store : RedisStore} {args : List Text} {name : Text}
    {held : RedisValue} :
    deleteKeys store args name = some held <-> name ∉ args ∧ store name = some held := by
  by_cases hmem : name ∈ args
  · rw [deleteKeys_of_mem hmem]
    exact iff_of_false (fun h => by cases h) (fun h => h.left hmem)
  · rw [deleteKeys_of_not_mem hmem]
    exact (and_iff_right hmem).symm

structure KeyCommands (server : RedisServer RedisStore) (store : RedisStore) : Prop where
  keys : forall start, NoPattern start -> exists names : List Text,
    server store ["KEYS".toList, start ++ ['*']] =
        (store, some (.array (names.map Reply.string))) ∧
      forall name, name ∈ names <-> store name ≠ none ∧ start <+: name
  del : forall state args, (server state ("DEL".toList :: args)).1 = deleteKeys state args

/-!
# The deletions

A key goes into its command string as it is, so that its words are deleted.
-/

def delWords (it : Text) : Option (List Text) := formatFrom [] false (cStr it)

def deletedWords (list : List Text) : List Text :=
  list.flatMap (fun it => (delWords it).getD [])

theorem mem_deletedWords {list : List Text} {word : Text} :
    word ∈ deletedWords list <->
      exists it words, it ∈ list ∧ delWords it = some words ∧ word ∈ words := by
  unfold deletedWords
  rw [List.mem_flatMap]
  constructor
  · intro h
    rcases h with ⟨it, hmem, hword⟩
    cases hwords : delWords it with
    | none =>
        rw [hwords] at hword
        cases hword
    | some words =>
        rw [hwords] at hword
        exact ⟨it, words, hmem, hwords, hword⟩
  · intro h
    rcases h with ⟨it, words, hmem, hwords, hword⟩
    refine ⟨it, hmem, ?_⟩
    rw [hwords]
    exact hword

theorem delWords_cStr (it : Text) : delWords (cStr it) = delWords it := by
  unfold delWords
  rw [cStr_cStr]

theorem delWords_word {it : Text} (hword : IsWord it) : delWords it = some [it] :=
  format_word hword

theorem format_delText (it : Text) :
    redisvFormatCommand (delText it) = (delWords it).map ("DEL".toList :: ·) := by
  have hcommand : IsWord "DEL".toList := by decide
  exact format_word_append hcommand it

theorem deleteKeys_deleteKeys (store : RedisStore) (first second : List Text) :
    deleteKeys (deleteKeys store first) second = deleteKeys store (first ++ second) := by
  funext name
  by_cases hsecond : name ∈ second
  · rw [deleteKeys_of_mem hsecond, deleteKeys_of_mem (List.mem_append_right _ hsecond)]
  · rw [deleteKeys_of_not_mem hsecond]
    by_cases hfirst : name ∈ first
    · rw [deleteKeys_of_mem hfirst, deleteKeys_of_mem (List.mem_append_left _ hfirst)]
    · rw [deleteKeys_of_not_mem hfirst, deleteKeys_of_not_mem (fun h =>
        (List.mem_append.mp h).elim hfirst hsecond)]

theorem deletedWords_cStr (list : List Text) :
    deletedWords (list.map cStr) = deletedWords list := by
  unfold deletedWords
  rw [List.flatMap_map]
  simp only [delWords_cStr]

theorem executeAll_del {server : RedisServer RedisStore}
    (hdel : forall state args, (server state ("DEL".toList :: args)).1 = deleteKeys state args)
    {list : List Text} {store next : RedisStore}
    (h : executeAll server store (list.map delText) = some next) :
    next = deleteKeys store (deletedWords list) := by
  induction list generalizing store with
  | nil =>
      cases h
      funext name
      exact (deleteKeys_of_not_mem List.not_mem_nil).symm
  | cons it list ih =>
      rw [List.map_cons] at h
      rcases Option.bind_eq_some_iff.mp h with ⟨deleted, hexecute, hrest⟩
      rcases Option.map_eq_some_iff.mp hexecute with ⟨result, hcmd, hstate⟩
      unfold DoCmd at hcmd
      rw [format_delText, Option.map_map] at hcmd
      rcases Option.map_eq_some_iff.mp hcmd with ⟨words, hwords, hresult⟩
      have hdeleted : deleted = deleteKeys store words := by
        rw [← hstate, ← hresult]
        exact hdel store words
      unfold deletedWords
      rw [ih hrest, hdeleted, deleteKeys_deleteKeys, List.flatMap_cons, hwords]
      rfl

/-!
# Listing the elements
-/

theorem isWord_scanPrefix {pName : Text} (hname : IsWord pName) (i64Key : uint64_t) :
    IsWord (scanPrefix pName i64Key) :=
  hname.join (by decide) ((isWord_decimal _).append (by decide))

theorem noPattern_scanPrefix {pName : Text} (hname : NoPattern pName) (i64Key : uint64_t) :
    NoPattern (scanPrefix pName i64Key) := by
  intro c hc
  rcases List.mem_append.mp hc with hfirst | hrest
  · exact hname c hfirst
  · rcases List.mem_cons.mp hrest with hcolon | hlater
    · rw [hcolon]
      decide
    · rcases List.mem_append.mp hlater with hdigit | hlast
      · intro hspecial
        have hfree : "*?[\\".toList.all (fun d => !d.isDigit) = true := by decide
        have hc := List.all_eq_true.mp hfree c hspecial
        rw [Text.isDigit_of_mem_decimal hdigit] at hc
        cases hc
      · rw [List.mem_singleton.mp hlast]
        decide

theorem elementHash_eq (pName : Text) (i64Key i : uint64_t) :
    elementHash i64Key i pName = scanPrefix pName i64Key ++ Text.decimal i.toNat := by
  unfold elementHash scanPrefix
  rw [List.append_assoc, List.cons_append, List.append_assoc, List.singleton_append]

/-- The texts of the keys that begin like the elements. -/
theorem loadTexts_keys {server : RedisServer RedisStore} {store : RedisStore}
    (hcommands : KeyCommands server store) {pName : Text} (hname : IsWord pName)
    (hpattern : NoPattern pName) (i64Key : uint64_t) :
    exists names : List Text,
      LoadTexts server store (keysText pName i64Key) = some (store, names.map cStr) ∧
        forall name, name ∈ names <-> store name ≠ none ∧ scanPrefix pName i64Key <+: name := by
  rcases hcommands.keys _ (noPattern_scanPrefix hpattern i64Key) with ⟨names, hserver, hnames⟩
  have hword : IsWord (scanPrefix pName i64Key ++ ['*']) :=
    (isWord_scanPrefix hname i64Key).append (by decide)
  have hformat : redisvFormatCommand (keysText pName i64Key) =
      some ["KEYS".toList, scanPrefix pName i64Key ++ ['*']] := by
    have hcommand : IsWord "KEYS".toList := by decide
    have hsplit := format_word_append hcommand (scanPrefix pName i64Key ++ ['*'])
    rw [format_word hword] at hsplit
    exact hsplit
  refine ⟨names, ?_, hnames⟩
  unfold LoadTexts DoCmd
  rw [hformat, Option.map_some, hserver, Option.map_some]
  dsimp only
  rw [List.map_map]
  rfl

/-!
# What should be loaded

`shown` is what the server sends for a literal.
-/

/-- `NULL` is fetched as the empty text. -/
def columnText (shown : Text -> Text) (row : Row) (column : Text) : Text :=
  ((row.columns column).map shown).getD []

structure LoadedRepeated (clock : Clock) (shown : Text -> Text) (pKey : Datakey) (pName : Text)
    (i64Key : uint64_t) (rows : List Row) (before after : RedisStore) : Prop where
  elements : forall i, (exists row, row ∈ rows ∧ row.Index = some i) <->
    exists fields, IsElement after pName i64Key i fields
  once : (rows.filterMap Row.Index).Nodup
  fields : forall row i fields, row ∈ rows -> row.Index = some i ->
    IsElement after pName i64Key i fields -> forall field, field ∈ fieldList pKey ->
      fields field.Name = some (TranToRedisStr clock (columnText shown row field.Name) field.eType)
  others : forall other fields, (forall i, other ≠ elementHash i64Key i pName) ->
    (after other = some (.hash fields) <-> before other = some (.hash fields))

/-- Every hash whose name is a word of a key that begins like the elements is an element. -/
def OnlyElementsNamed (store : RedisStore) (pName : Text) (i64Key : uint64_t) : Prop :=
  forall it words other fields, store it ≠ none -> scanPrefix pName i64Key <+: it ->
    delWords it = some words -> other ∈ words -> store other = some (.hash fields) ->
    exists i, other = elementHash i64Key i pName

/-- The query fails where Redis agrees with the table already; or there are no rows, and no
other hash is deleted with the elements. -/
def NothingToLoad {connection : Type} (reader : MySqlReader connection) (clock : Clock)
    (shown : Text -> Text) (pKey : Datakey) (pName strDBTable : Text) (i64Key : uint64_t)
    (mySql : connection) (rows : List Row) (store : RedisStore) : Prop :=
  match (CMysql.Query reader mySql (selectRepeatedText strDBTable i64Key pKey)).2 with
  | .error _ => LoadedRepeated clock shown pKey pName i64Key rows store store
  | .ok _ => (forall row, row ∈ rows -> row.Index = none) ∧
      OnlyElementsNamed store pName i64Key

section

variable {pName : Text} {i64Key : uint64_t} {store : RedisStore} {names : List Text}

theorem elements_deleted (hname : IsWord pName)
    (hnames : forall name, name ∈ names <-> store name ≠ none ∧
      scanPrefix pName i64Key <+: name) (i : uint64_t) (fields : Fields) :
    ¬ IsElement (deleteKeys store (deletedWords names)) pName i64Key i fields := by
  intro helement
  rcases deleteKeys_eq_some.mp helement with ⟨hkept, hstored⟩
  apply hkept
  refine mem_deletedWords.mpr ⟨elementHash i64Key i pName, [elementHash i64Key i pName], ?_,
    delWords_word (isWord_elementHash hname i64Key i), List.mem_cons_self⟩
  rw [hnames, hstored, elementHash_eq]
  exact ⟨Option.some_ne_none _, List.prefix_append _ _⟩

/-- The other hashes stay if the words that are deleted name none of them. -/
theorem others_kept_iff
    (hnames : forall name, name ∈ names <-> store name ≠ none ∧
      scanPrefix pName i64Key <+: name) :
    (forall other fields, (forall i, other ≠ elementHash i64Key i pName) ->
        (deleteKeys store (deletedWords names) other = some (.hash fields) <->
          store other = some (.hash fields))) <->
      OnlyElementsNamed store pName i64Key := by
  constructor
  · intro h it words other fields hstored hprefix hit hother hhash
    by_contra hnone
    have hkept := (h other fields (fun i hEq => hnone ⟨i, hEq⟩)).mpr hhash
    apply (deleteKeys_eq_some.mp hkept).left
    exact mem_deletedWords.mpr ⟨it, words, (hnames it).mpr ⟨hstored, hprefix⟩, hit, hother⟩
  · intro h other fields hother
    rw [deleteKeys_eq_some]
    apply and_iff_right_of_imp
    intro hhash hdeleted
    rcases mem_deletedWords.mp hdeleted with ⟨it, words, hmem, hit, hword⟩
    rcases (hnames it).mp hmem with ⟨hstored, hprefix⟩
    rcases h it words other fields hstored hprefix hit hword hhash with ⟨i, hEq⟩
    exact hother i hEq

theorem loadedRepeated_deleted_iff {clock : Clock} {shown : Text -> Text} {pKey : Datakey}
    (hname : IsWord pName) {rows : List Row}
    (hnames : forall name, name ∈ names <-> store name ≠ none ∧
      scanPrefix pName i64Key <+: name) :
    LoadedRepeated clock shown pKey pName i64Key rows store
        (deleteKeys store (deletedWords names)) <->
      (forall row, row ∈ rows -> row.Index = none) ∧ OnlyElementsNamed store pName i64Key := by
  have hgone := elements_deleted hname hnames
  have hothers := others_kept_iff hnames
  constructor
  · intro h
    refine ⟨?_, hothers.mp h.others⟩
    intro row hrow
    cases hindex : row.Index with
    | none => rfl
    | some i =>
        rcases (h.elements i).mp ⟨row, hrow, hindex⟩ with ⟨fields, helement⟩
        exact absurd helement (hgone i fields)
  · intro h
    rcases h with ⟨hnone, honly⟩
    constructor
    case elements =>
      intro i
      constructor
      · intro hrow
        rcases hrow with ⟨row, hmem, hindex⟩
        rw [hnone row hmem] at hindex
        cases hindex
      · intro helement
        rcases helement with ⟨fields, helement⟩
        exact absurd helement (hgone i fields)
    case once =>
      rw [List.filterMap_eq_nil_iff.mpr hnone]
      exact List.nodup_nil
    case fields =>
      intro row i fields hrow hindex
      rw [hnone row hrow] at hindex
      cases hindex
    case others => exact hothers.mpr honly

end

/-- What is reported as loaded is right exactly if there was nothing to load; and it is
reported for every table that is known. -/
theorem loaded_iff_nothingToLoad {connection : Type} {server : RedisServer RedisStore}
    {reader : MySqlReader connection} {mgr : KeyFieldMgr} {clock : Clock} {store : RedisStore}
    {mySql : connection} {strDBTable : Text} {i64Key : uint64_t} {pKey : Datakey}
    {pName : Text} (hfind : mgr.FindRepeatedDB strDBTable = some pKey)
    (hpName : pKey.pName = some pName) (hname : IsWord pName) (hpattern : NoPattern pName)
    (hcommands : KeyCommands server store) {outcome : Outcome RedisStore connection}
    (hload : LoadRepeatedToRedis server reader mgr clock store mySql strDBTable i64Key =
      some outcome) (shown : Text -> Text) (database : connection -> Database) :
    outcome.bOK = true ∧
      (LoadedRepeated clock shown pKey pName i64Key
          (rowsOf (database mySql) strDBTable i64Key) store outcome.redis <->
        NothingToLoad reader clock shown pKey pName strDBTable i64Key mySql
          (rowsOf (database mySql) strDBTable i64Key) store) := by
  unfold LoadRepeatedToRedis at hload
  unfold NothingToLoad
  rw [hfind] at hload
  dsimp only at hload
  rcases hquery : CMysql.Query reader mySql (selectRepeatedText strDBTable i64Key pKey) with
    ⟨next, answer⟩
  rw [hquery] at hload
  cases answer with
  | error exception =>
      cases hload
      exact ⟨rfl, Iff.rfl⟩
  | ok result =>
      rcases loadTexts_keys hcommands hname hpattern i64Key with ⟨names, hkeys, hnames⟩
      dsimp only at hload ⊢
      rw [hpName, Option.bind_some, hkeys, Option.bind_some] at hload
      rcases Option.map_eq_some_iff.mp hload with ⟨deleted, hexecute, hEq⟩
      have hdeleted := executeAll_del hcommands.del hexecute
      have hredis : outcome.bOK = true ∧ outcome.redis = deleted := by
        rw [← hEq]
        split
        · exact ⟨rfl, rfl⟩
        · exact ⟨rfl, rfl⟩
      refine ⟨hredis.left, ?_⟩
      rw [hredis.right, hdeleted, deletedWords_cStr]
      exact loadedRepeated_deleted_iff hname hnames

/-!
# Users again

The element of the user 5 is in Redis; his rows are gone, or his row is there.
-/

/-- A server that knows the keys that there are. -/
def keysServer (known : List Text) : RedisServer RedisStore := fun store argv =>
  match argv with
  | [command, pattern] =>
      if command = "KEYS".toList then
        (store, some (.array ((known.filter (fun name =>
          (store name).isSome && pattern.dropLast.isPrefixOf name)).map Reply.string)))
      else if command = "DEL".toList then (deleteKeys store [pattern], some .integer)
      else hashServer store argv
  | command :: args =>
      if command = "DEL".toList then (deleteKeys store args, some .integer)
      else hashServer store argv
  | [] => hashServer store argv

theorem keysServer_commands {known : List Text} {store : RedisStore}
    (hknown : forall name, store name ≠ none -> name ∈ known) :
    KeyCommands (keysServer known) store := by
  constructor
  case keys =>
    intro start _
    refine ⟨_, rfl, ?_⟩
    intro name
    rw [List.mem_filter, Bool.and_eq_true, List.dropLast_concat, List.isPrefixOf_iff_prefix,
      Option.isSome_iff_ne_none]
    exact and_iff_right_of_imp (fun h => hknown name h.left)
  case del =>
    intro state args
    match args with
    | [] => rfl
    | [arg] => rfl
    | arg :: other :: rest => rfl

def usersReader (result : ResultSet) : MySqlReader (Database × Bool) :=
  { usersClient .ok true true with mysql_store_result := fun w => (w, some result) }

/-- The time of a clock that stands still. -/
def noClock : Clock :=
  { mktime := fun _ => 0,
    stTime :=
      { tm_year := 0, tm_mon := 0, tm_mday := 0, tm_hour := 0, tm_min := 0, tm_sec := 0 } }

def loadUsers (database : Database) (rows : List (List (Option Text))) :
    Option (Outcome RedisStore (Database × Bool)) :=
  LoadRepeatedToRedis (keysServer ["user:5:7".toList])
    (usersReader { fields := ["Index".toList, "name".toList], rows := rows }) usersMgr noClock
    elementStore (database, true) "users".toList 5

theorem elementStore_known (name : Text) (h : elementStore name ≠ none) :
    name ∈ ["user:5:7".toList] := by
  unfold elementStore at h
  split at h
  · rename_i hname
    rw [hname]
    exact List.mem_cons_self
  · exact absurd rfl h

/-- The key that the users are registered with. -/
def userKey : Datakey :=
  { pName := some "user".toList, mField := [(1, { Name := "name".toList, eType := .FT_string })] }

theorem elementStore_onlyElements : OnlyElementsNamed elementStore "user".toList 5 := by
  intro it words other fields _ _ _ _ hhash
  have hother := elementStore_known other (by
    rw [hhash]
    exact Option.some_ne_none _)
  refine ⟨7, ?_⟩
  rw [List.mem_singleton.mp hother]
  rfl

theorem noRows_loaded :
    exists outcome, loadUsers (fun _ => []) [] = some outcome ∧ outcome.bOK = true ∧
      LoadedRepeated noClock id userKey "user".toList 5 [] elementStore outcome.redis := by
  have hruns : (loadUsers (fun _ => []) []).isSome := by decide +kernel
  rcases Option.isSome_iff_exists.mp hruns with ⟨outcome, hload⟩
  have hfind : usersMgr.FindRepeatedDB "users".toList = some userKey := rfl
  have hpName : userKey.pName = some "user".toList := rfl
  have hiff := loaded_iff_nothingToLoad hfind hpName
    (by decide) (by decide) (keysServer_commands elementStore_known) hload id Prod.fst
  refine ⟨outcome, hload, hiff.left, hiff.right.mpr ?_⟩
  exact ⟨fun row hrow => absurd hrow List.not_mem_nil, elementStore_onlyElements⟩

/-- The hash of the row is not written, and what was there is deleted. -/
theorem row_notLoaded :
    exists outcome, loadUsers usersDatabase [[some "7".toList, none]] = some outcome ∧
      outcome.bOK = true ∧
      ¬ LoadedRepeated noClock id userKey "user".toList 5 (rowsOf usersDatabase "users".toList 5)
          elementStore outcome.redis := by
  have hrun : (loadUsers usersDatabase [[some "7".toList, none]]).any (fun outcome =>
      outcome.bOK && (outcome.redis "user:5:7".toList).isNone) = true := by
    decide +kernel
  rcases (Option.any_eq_true _ _).mp hrun with ⟨outcome, hload, hcheck⟩
  rw [Bool.and_eq_true, Option.isNone_iff_eq_none] at hcheck
  refine ⟨outcome, hload, hcheck.left, ?_⟩
  intro hloaded
  rcases (hloaded.elements 7).mp ⟨_, List.mem_cons_self, rfl⟩ with ⟨fields, helement⟩
  have hnone : outcome.redis (elementHash 5 7 "user".toList) = none := hcheck.right
  cases hnone.symm.trans helement

end DataTransfer
end DataHandle
end GMServer
