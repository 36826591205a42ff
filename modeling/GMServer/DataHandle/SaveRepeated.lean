import GMServer.DataHandle.DataTransfer
import GMServer.DataHandle.SyncWire

/-!
# Saving a repeated group

What is saved should be one row for each element, and nothing should be lost if that fails.
The rows are deleted and never written again; what a failure leaves depends on what became
of the deletion.
-/

namespace GMServer
namespace DataHandle
namespace DataTransfer

open RedisAdapter

/-!
# The rows of a first key
-/

def rowsOf (database : Database) (strDBTable : Text) (i64Key : uint64_t) : List Row :=
  (database strDBTable).filter (fun row => row.Key = i64Key)

def otherRows (database : Database) (strDBTable : Text) (i64Key : uint64_t) : List Row :=
  (database strDBTable).filter (fun row => row.Key ≠ i64Key)

theorem rowsOf_deleteRows (database : Database) (strDBTable : Text) (i64Key : uint64_t) :
    rowsOf (deleteRows database strDBTable i64Key) strDBTable i64Key = [] := by
  unfold rowsOf deleteRows
  rw [Function.update_self, List.filter_filter, List.filter_eq_nil_iff]
  intro row _ hboth
  rw [Bool.and_eq_true, decide_eq_true_eq, decide_eq_true_eq] at hboth
  exact hboth.right hboth.left

theorem otherRows_deleteRows (database : Database) (strDBTable : Text) (i64Key : uint64_t) :
    otherRows (deleteRows database strDBTable i64Key) strDBTable i64Key =
      otherRows database strDBTable i64Key := by
  unfold otherRows deleteRows
  rw [Function.update_self, List.filter_filter]
  simp only [Bool.and_self]

/-- No table but this one, and in it no row of another first key, has changed. -/
structure OthersKept (before after : Database) (strDBTable : Text) (i64Key : uint64_t) :
    Prop where
  rows : otherRows after strDBTable i64Key = otherRows before strDBTable i64Key
  tables : forall other, other ≠ strDBTable -> after other = before other

theorem othersKept_deleteRows (database : Database) (strDBTable : Text) (i64Key : uint64_t) :
    OthersKept database (deleteRows database strDBTable i64Key) strDBTable i64Key :=
  ⟨otherRows_deleteRows database strDBTable i64Key,
    fun _ hne => Function.update_of_ne hne _ _⟩

/-!
# What should be saved
-/

/-- The literal for a column; a field that is absent or empty leaves it without one. -/
def columnsOf (localtime_s : Calendar) (mField : List FiledNameType) (fields : Fields)
    (column : Text) : Option Text :=
  (mField.find? (fun field => field.Name = column)).bind (fun field =>
    (fields field.Name).bind (fun raw =>
      if cStr raw = [] then none
      else (TranToDBStr localtime_s (cStr raw) field.eType).toOption))

/-- The hash of an element. -/
def IsElement (store : RedisStore) (pName : Text) (i64Key i : uint64_t) (fields : Fields) :
    Prop :=
  store (elementHash i64Key i pName) = some (.hash fields)

structure Saved (localtime_s : Calendar) (pKey : Datakey) (pName : Text) (store : RedisStore)
    (strDBTable : Text) (i64Key : uint64_t) (before after : Database) : Prop where
  rows : forall row, row ∈ rowsOf after strDBTable i64Key <->
    row.Key = i64Key ∧ exists i fields, row.Index = some i ∧
      IsElement store pName i64Key i fields ∧
      row.columns = columnsOf localtime_s (pKey.mField.map Prod.snd) fields
  once : ((rowsOf after strDBTable i64Key).map Row.Index).Nodup
  others : OthersKept before after strDBTable i64Key

theorem saved_deleteRows_iff (localtime_s : Calendar) (pKey : Datakey) (pName : Text)
    (store : RedisStore) (strDBTable : Text) (i64Key : uint64_t) (before : Database) :
    Saved localtime_s pKey pName store strDBTable i64Key before
        (deleteRows before strDBTable i64Key) <->
      forall i fields, ¬ IsElement store pName i64Key i fields := by
  constructor
  · intro h i fields helement
    have hrow := (h.rows
      { Key := i64Key, Index := some i,
        columns := columnsOf localtime_s (pKey.mField.map Prod.snd) fields }).mpr
      ⟨rfl, i, fields, rfl, helement, rfl⟩
    rw [rowsOf_deleteRows] at hrow
    cases hrow
  · intro hnone
    constructor
    · intro row
      rw [rowsOf_deleteRows]
      constructor
      · intro hrow
        cases hrow
      · intro h
        rcases h.right with ⟨i, fields, _, helement, _⟩
        exact absurd helement (hnone i fields)
    · rw [rowsOf_deleteRows]
      exact List.nodup_nil
    · exact othersKept_deleteRows before strDBTable i64Key

/-!
# What is left
-/

section

variable {connection : Type} {client : MySqlClient connection}
  {database : connection -> Database} {meaning : Text -> Database -> Database}
  {mgr : KeyFieldMgr} {localtime_s : Calendar} {mySql : connection} {strDBTable : Text}
  {i64Key : uint64_t}

theorem execute_delete (hserver : CMysql.SqlServer client database meaning)
    (hdelete : forall tables, meaning (deleteText strDBTable i64Key) tables =
      deleteRows tables strDBTable i64Key) :
    CMysql.Answered client database meaning (deleteText strDBTable i64Key) mySql
      (CMysql.Execute client mySql (deleteText strDBTable i64Key)) := by
  apply CMysql.execute_answered hserver
  rw [hdelete, hdelete]
  exact deleteRows_repeat (database mySql) strDBTable i64Key

/-- What is reported as saved is right if there was nothing to save, and only then; and it is
reported whenever the scan comes to its end and the deletion is executed. -/
theorem saved_iff_noElements {server : RedisServer RedisStore} {store : RedisStore}
    (hserver : CMysql.SqlServer client database meaning)
    (hdelete : forall tables, meaning (deleteText strDBTable i64Key) tables =
      deleteRows tables strDBTable i64Key) :
    (forall fuel outcome,
      SaveRepeatedToDB server client mgr localtime_s fuel store mySql strDBTable i64Key =
          some outcome -> outcome.bOK = true ->
        exists pKey pName, mgr.FindRepeatedDB strDBTable = some pKey ∧ pKey.pName = some pName ∧
          (Saved localtime_s pKey pName store strDBTable i64Key (database mySql)
              (database outcome.mySql) <->
            forall i fields, ¬ IsElement store pName i64Key i fields)) ∧
      forall pKey pName fuel scanned next, mgr.FindRepeatedDB strDBTable = some pKey ->
        pKey.pName = some pName ->
        RedisWrap.ScanKey server fuel store i64Key pName [] = some scanned ->
        CMysql.Execute client mySql (deleteText strDBTable i64Key) = (next, none) ->
        SaveRepeatedToDB server client mgr localtime_s fuel store mySql strDBTable i64Key =
          some { redis := scanned.1, mySql := next, bOK := true } := by
  constructor
  · intro fuel outcome hsave hok
    rcases saveRepeated_cases hsave with hunknown | hregistered
    · rw [hunknown.right.right] at hok
      cases hok
    · rcases hregistered with ⟨pKey, pName, hfind, hname, hconnection, hanswer⟩
      refine ⟨pKey, pName, hfind, hname, ?_⟩
      rw [hconnection, (execute_delete hserver hdelete).executed (hanswer.mp hok), hdelete]
      exact saved_deleteRows_iff localtime_s pKey pName store strDBTable i64Key (database mySql)
  · intro pKey pName fuel scanned next hfind hname hscan hexecute
    exact saveRepeated_succeeds hfind hname hscan hexecute

/-- A failure leaves the rows, unless the deletion was executed when its connection was lost;
then none of them is left.  Other rows stay. -/
theorem failed_save_keeps {world : Type} {server : RedisServer world} {fuel : Nat}
    {redis : world} (hserver : CMysql.SqlServer client database meaning)
    (hdelete : forall tables, meaning (deleteText strDBTable i64Key) tables =
      deleteRows tables strDBTable i64Key)
    {outcome : Outcome world connection}
    (hsave : SaveRepeatedToDB server client mgr localtime_s fuel redis mySql strDBTable i64Key =
      some outcome) (hfailed : outcome.bOK = false) :
    OthersKept (database mySql) (database outcome.mySql) strDBTable i64Key ∧
      (rowsOf (database outcome.mySql) strDBTable i64Key =
          rowsOf (database mySql) strDBTable i64Key ∨
        rowsOf (database outcome.mySql) strDBTable i64Key = [] ∧
          CMysql.ExecutedLost client database meaning (deleteText strDBTable i64Key)
            mySql) := by
  have hkept : forall after, after = database mySql ->
      OthersKept (database mySql) after strDBTable i64Key := by
    intro after hsame
    rw [hsame]
    exact ⟨rfl, fun _ _ => rfl⟩
  rcases saveRepeated_cases hsave with hunknown | hregistered
  · rw [hunknown.right.left]
    exact ⟨hkept _ rfl, Or.inl rfl⟩
  · rcases hregistered with ⟨pKey, pName, _, _, hconnection, hanswer⟩
    have hthrown : (CMysql.Execute client mySql (deleteText strDBTable i64Key)).2 ≠ none := by
      intro hnone
      rw [hanswer.mpr hnone] at hfailed
      cases hfailed
    rw [hconnection]
    rcases ((execute_delete hserver hdelete).thrown hthrown).tables with hsame | hexecuted
    · refine ⟨hkept _ hsame, Or.inl ?_⟩
      rw [hsame]
    · rw [hexecuted.left, hdelete]
      exact ⟨othersKept_deleteRows _ _ _,
        Or.inr ⟨rowsOf_deleteRows _ _ _, hexecuted.right⟩⟩

end

/-!
# A table of users

One row of the user 5, whose only element, if there is one, has the index 7.
-/

def usersMgr : KeyFieldMgr :=
  { nameOnlyMgr with
    mRepeatedDBName := fun strDBTable =>
      if strDBTable = "users".toList then some 0x100 else none }

def usersDatabase : Database := fun strDBTable =>
  if strDBTable = "users".toList then
    [{ Key := 5, Index := some 7, columns := fun _ => none }]
  else []

def usersMeaning (sql : Text) (tables : Database) : Database :=
  if sql = deleteText "users".toList 5 then deleteRows tables "users".toList 5 else tables

theorem usersMeaning_delete (tables : Database) :
    usersMeaning (deleteText "users".toList 5) tables = deleteRows tables "users".toList 5 :=
  if_pos rfl

/-- A connection on which every statement is answered with `answer`, be it executed or not,
and which is closed if `up` is not set afterwards. -/
def usersClient (answer : QueryResult) (executed up : Bool) : MySqlClient (Database × Bool) :=
  { Connect := fun w => (w, w.2),
    Disconnect := fun w => w,
    mysql_ping := fun w => (w, true),
    mysql_real_query := fun w sql =>
      ((if executed then usersMeaning sql w.1 else w.1, up), answer) }

theorem usersClient_executes {answer : QueryResult}
    (hanswer : answer = .ok ∨ answer = .CR_SERVER_LOST) (up : Bool) :
    CMysql.SqlServer (usersClient answer true up) Prod.fst usersMeaning := by
  have hexecutes : answer ≠ .CR_SERVER_GONE_ERROR ∧ answer ≠ .refused := by
    rcases hanswer with hEq | hEq
    · rw [hEq]
      decide
    · rw [hEq]
      decide
  constructor
  · exact fun _ => rfl
  · exact fun _ => rfl
  · exact fun _ => rfl
  · exact fun _ _ _ => rfl
  · exact fun _ _ h => absurd h hexecutes.left
  · exact fun _ _ _ => Or.inr rfl
  · exact fun _ _ h => absurd h hexecutes.right

theorem usersClient_refuses (up : Bool) :
    CMysql.SqlServer (usersClient .refused false up) Prod.fst usersMeaning := by
  constructor
  · exact fun _ => rfl
  · exact fun _ => rfl
  · exact fun _ => rfl
  · intro w sql hok
    cases hok
  · exact fun _ _ _ => rfl
  · exact fun _ _ _ => Or.inl rfl
  · exact fun _ _ _ => rfl

/-- The time of a calendar that knows one moment only. -/
def noTime : Calendar := fun _ =>
  { tm_year := 70, tm_mon := 0, tm_mday := 1, tm_hour := 0, tm_min := 0, tm_sec := 0 }

/-- A scan finds what is in `found` with its first step. -/
def scanServer (found : List Text) : RedisServer RedisStore := fun store argv =>
  match argv with
  | command :: _ =>
      if command = "SCAN".toList then
        (store, some (.array [.string ['0'], .array (found.map Reply.string)]))
      else hashServer store argv
  | [] => hashServer store argv

def elementFields : Fields := fun field =>
  if field = "name".toList then some "\"ab\"".toList else none

def elementStore : RedisStore := fun name =>
  if name = "user:5:7".toList then some (.hash elementFields) else none

def saveUsers (found : List Text) (store : RedisStore) (client : MySqlClient (Database × Bool)) :
    Option (Outcome RedisStore (Database × Bool)) :=
  SaveRepeatedToDB (scanServer found) client usersMgr noTime 1 store (usersDatabase, true)
    "users".toList 5

theorem noElements_saved :
    exists outcome pKey pName,
      saveUsers [] (fun _ => none) (usersClient .ok true true) = some outcome ∧
      outcome.bOK = true ∧
      Saved noTime pKey pName (fun _ => none) "users".toList 5 usersDatabase
        outcome.mySql.1 := by
  have hrun : (saveUsers [] (fun _ => none) (usersClient .ok true true)).any Outcome.bOK =
      true := by
    decide +kernel
  rcases (Option.any_eq_true _ _).mp hrun with ⟨outcome, hsave, hok⟩
  rcases (saved_iff_noElements (usersClient_executes (Or.inl rfl) true)
    usersMeaning_delete).left 1 outcome hsave hok with
    ⟨pKey, pName, _, _, hiff⟩
  refine ⟨outcome, pKey, pName, hsave, hok, hiff.mpr ?_⟩
  intro i fields helement
  cases helement

/-- The element is not saved, and its row is gone. -/
theorem element_notSaved :
    exists outcome,
      saveUsers ["user:5:7".toList] elementStore (usersClient .ok true true) = some outcome ∧
      outcome.bOK = true ∧
      forall pKey, ¬ Saved noTime pKey "user".toList elementStore "users".toList 5 usersDatabase
        outcome.mySql.1 := by
  have hrun : (saveUsers ["user:5:7".toList] elementStore (usersClient .ok true true)).any
      (fun outcome => outcome.bOK && (rowsOf outcome.mySql.1 "users".toList 5).isEmpty) =
        true := by
    decide +kernel
  rcases (Option.any_eq_true _ _).mp hrun with ⟨outcome, hsave, hcheck⟩
  rw [Bool.and_eq_true, List.isEmpty_iff] at hcheck
  refine ⟨outcome, hsave, hcheck.left, ?_⟩
  intro pKey hsaved
  have hrow := (hsaved.rows
    { Key := 5, Index := some 7,
      columns := columnsOf noTime (pKey.mField.map Prod.snd) elementFields }).mpr
    ⟨rfl, 7, elementFields, rfl, rfl, rfl⟩
  rw [hcheck.right] at hrow
  cases hrow

theorem refused_save_keeps :
    exists outcome,
      saveUsers ["user:5:7".toList] elementStore (usersClient .refused false true) =
        some outcome ∧
      (rowsOf outcome.mySql.1 "users".toList 5 = rowsOf usersDatabase "users".toList 5 ∨
        rowsOf outcome.mySql.1 "users".toList 5 = [] ∧
          CMysql.ExecutedLost (usersClient .refused false true) Prod.fst usersMeaning
            (deleteText "users".toList 5) (usersDatabase, true)) := by
  have hrun : (saveUsers ["user:5:7".toList] elementStore
      (usersClient .refused false true)).any (fun outcome => !outcome.bOK) = true := by
    decide +kernel
  rcases (Option.any_eq_true _ _).mp hrun with ⟨outcome, hsave, hfailed⟩
  rw [Bool.not_eq_true'] at hfailed
  exact ⟨outcome, hsave, (failed_save_keeps (usersClient_refuses true) usersMeaning_delete hsave
    hfailed).right⟩

/-- The connection is lost behind the deletion and does not come back. -/
theorem lost_save_deletes :
    exists outcome,
      saveUsers ["user:5:7".toList] elementStore (usersClient .CR_SERVER_LOST true false) =
        some outcome ∧
      outcome.bOK = false ∧
      rowsOf outcome.mySql.1 "users".toList 5 ≠ rowsOf usersDatabase "users".toList 5 := by
  have hrun : (saveUsers ["user:5:7".toList] elementStore
      (usersClient .CR_SERVER_LOST true false)).any
      (fun outcome => !outcome.bOK && (rowsOf outcome.mySql.1 "users".toList 5).isEmpty) =
        true := by
    decide +kernel
  rcases (Option.any_eq_true _ _).mp hrun with ⟨outcome, hsave, hcheck⟩
  rw [Bool.and_eq_true, Bool.not_eq_true', List.isEmpty_iff] at hcheck
  refine ⟨outcome, hsave, hcheck.left, ?_⟩
  rw [hcheck.right]
  intro hsame
  have hrow : (rowsOf usersDatabase "users".toList 5).length = 1 := rfl
  rw [← hsame] at hrow
  cases hrow

end DataTransfer
end DataHandle
end GMServer
