import Mathlib.Data.List.Dedup
import GMServer.DataHandle.MySql

/-!
# Results of queries

A query is a statement that is executed and whose result the client library stores.  Values
are fetched by the names of their columns.
-/

namespace GMServer
namespace DataHandle

/-- A value that is missing is `NULL`. -/
structure ResultSet where
  fields : List Text
  rows : List (List (Option Text))

/-- The client library with the function that stores results. -/
structure MySqlReader (world : Type) extends MySqlClient world where
  mysql_store_result : world -> world × Option ResultSet

namespace CMysqlResult

/-!
# Fetching by name

Of columns with the same name the last one is known, and there are fewer names then than
columns.
-/

/-- `m_mField`. -/
def fieldFrom (sField : Text) : Nat -> List Text -> Option Nat
  | _, [] => none
  | i, name :: rest =>
      match fieldFrom sField (i + 1) rest with
      | some later => some later
      | none => if name = sField then some i else none

def fieldIndex (result : ResultSet) (sField : Text) : Option Nat :=
  fieldFrom sField 0 result.fields

/-- `m_mField.size()`. -/
def fieldCount (result : ResultSet) : Nat := result.fields.dedup.length

/-- `Get` on a row that `Next` has fetched. -/
def Get (result : ResultSet) (row : List (Option Text)) (sField : Text) :
    Except Exception Text :=
  match fieldIndex result sField with
  | none => .error .runtime_error
  | some iIndex =>
      if fieldCount result ≤ iIndex then .error .runtime_error
      else .ok ((row[iIndex]?.join).getD [])

theorem fieldFrom_eq_none {sField : Text} {fields : List Text} (hfree : sField ∉ fields)
    (i : Nat) : fieldFrom sField i fields = none := by
  induction fields generalizing i with
  | nil => rfl
  | cons name rest ih =>
      rw [List.mem_cons, not_or] at hfree
      unfold fieldFrom
      rw [ih hfree.right]
      exact if_neg (fun h => hfree.left h.symm)

/-- The last column is known under its name. -/
theorem fieldFrom_append {sField : Text} {earlier later : List Text} (hlater : sField ∉ later)
    (i : Nat) :
    fieldFrom sField i (earlier ++ sField :: later) = some (i + earlier.length) := by
  induction earlier generalizing i with
  | nil =>
      show fieldFrom sField i (sField :: later) = some i
      unfold fieldFrom
      rw [fieldFrom_eq_none hlater]
      exact if_pos rfl
  | cons name rest ih =>
      rw [List.cons_append, fieldFrom, ih]
      dsimp only
      rw [List.length_cons]
      exact congrArg some (by omega)

theorem get_split {result : ResultSet} {earlier later : List Text} {sField : Text}
    (hfields : result.fields = earlier ++ sField :: later) (hnodup : result.fields.Nodup)
    (row : List (Option Text)) :
    Get result row sField = .ok ((row[earlier.length]?.join).getD []) := by
  have hlater : sField ∉ later := by
    rw [hfields] at hnodup
    exact (List.nodup_cons.mp (List.nodup_append.mp hnodup).right.left).left
  have hcount : fieldCount result = result.fields.length := by
    unfold fieldCount
    rw [List.Nodup.dedup hnodup]
  unfold Get fieldIndex
  rw [hcount, hfields, fieldFrom_append hlater, Nat.zero_add]
  dsimp only
  rw [if_neg (by
    rw [List.length_append, List.length_cons]
    omega)]

/-- If names are repeated, the last column cannot be fetched. -/
theorem get_last_throws {result : ResultSet} {earlier : List Text} {sField : Text}
    (hfields : result.fields = earlier ++ [sField]) (hrepeated : ¬ result.fields.Nodup)
    (row : List (Option Text)) : Get result row sField = .error .runtime_error := by
  have hfewer : fieldCount result ≤ earlier.length := by
    have hlt : fieldCount result < result.fields.length := by
      apply Nat.lt_of_le_of_ne (List.dedup_sublist _).length_le
      intro hsame
      apply hrepeated
      rw [← List.dedup_eq_self]
      exact (List.dedup_sublist _).eq_of_length hsame
    have hlength : result.fields.length = earlier.length + 1 := by
      rw [hfields, List.length_append, List.length_singleton]
    omega
  unfold Get fieldIndex
  rw [hfields, fieldFrom_append List.not_mem_nil, Nat.zero_add]
  exact if_pos hfewer

end CMysqlResult

namespace CMysql

/-!
# Queries
-/

variable {world : Type}

def Query (reader : MySqlReader world) (w : world) (sql : Text) :
    world × Except Exception ResultSet :=
  match Execute reader.toMySqlClient w sql with
  | (next, some exception) => (next, .error exception)
  | (next, none) =>
      match reader.mysql_store_result next with
      | (stored, none) => (stored, .error .runtime_error)
      | (stored, some result) => (stored, .ok result)

/-- What is stored behind a statement is its answer; storing it changes no table. -/
structure StoresAnswers (reader : MySqlReader world) (database : world -> Database)
    (answer : Text -> Database -> ResultSet) : Prop where
  tables : forall w, database (reader.mysql_store_result w).1 = database w
  stored : forall w sql result, (reader.mysql_real_query w sql).2 = .ok ->
    (reader.mysql_store_result (reader.mysql_real_query w sql).1).2 = some result ->
    result = answer sql (database w)

/-- A statement that is executed was answered in the end. -/
structure Queried (client : MySqlClient world) (sql : Text) (start next : world) : Prop where
  answered : exists w, Reached client sql start w ∧ (client.mysql_real_query w sql).2 = .ok ∧
    next = (client.mysql_real_query w sql).1

variable {client : MySqlClient world} {sql : Text} {start w next : world}

theorem connected_queried {attempt : world -> world × Option Exception}
    (h : connected client w attempt = (next, none)) :
    attempt (client.Connect w).1 = (next, none) := by
  unfold connected at h
  split at h
  · rename_i open_ hopen
    rw [hopen]
    exact h
  · cases h

theorem lastQuery_queried (hreached : Reached client sql start w)
    (h : lastQuery client sql w = (next, none)) : Queried client sql start next := by
  unfold lastQuery at h
  split at h
  · rename_i after hquery
    cases h
    exact ⟨w, hreached, by rw [hquery], by rw [hquery]⟩
  · cases h

theorem firstQuery_queried (hreached : Reached client sql start w)
    (h : firstQuery client sql w = (next, none)) : Queried client sql start next := by
  have hquery := hreached.query
  unfold firstQuery at h
  split at h
  · rename_i after hok
    cases h
    exact ⟨w, hreached, by rw [hok], by rw [hok]⟩
  · cases h
  · rename_i after answer _ hanswer
    rw [hanswer] at hquery
    exact lastQuery_queried hquery.disconnect.connect (connected_queried h)

theorem execute_queried (h : Execute client start sql = (next, none)) :
    Queried client sql start next := by
  unfold Execute at h
  have hopen := connected_queried h
  have hstart : Reached client sql start start := Reached.start
  have hpinged := hstart.connect.ping
  split at hopen
  · rename_i alive halive
    rw [halive] at hpinged
    exact firstQuery_queried hpinged hopen
  · rename_i gone hgone
    rw [hgone] at hpinged
    exact firstQuery_queried hpinged.disconnect.connect (connected_queried hopen)

/-!
# Statements that only read
-/

variable {database : world -> Database} {meaning : Text -> Database -> Database}

theorem reached_read (hserver : SqlServer client database meaning)
    (hread : forall tables, meaning sql tables = tables) (h : Reached client sql start w) :
    database w = database start := by
  induction h with
  | start => rfl
  | connect _ ih => rw [hserver.connect, ih]
  | disconnect _ ih => rw [hserver.disconnect, ih]
  | ping _ ih => rw [hserver.ping, ih]
  | query _ ih =>
      rename_i before _
      cases hquery : (client.mysql_real_query before sql).2 with
      | ok => rw [hserver.ok before sql hquery, hread, ih]
      | CR_SERVER_GONE_ERROR => rw [hserver.gone before sql hquery, ih]
      | refused => rw [hserver.refused before sql hquery, ih]
      | CR_SERVER_LOST =>
          rcases hserver.lost before sql hquery with hsame | hexecuted
          · rw [hsame, ih]
          · rw [hexecuted, hread, ih]

/-- The result of a query is what was stored behind the statement. -/
theorem query_executed {reader : MySqlReader world} {result : ResultSet}
    (h : Query reader start sql = (next, .ok result)) :
    exists executed, Execute reader.toMySqlClient start sql = (executed, none) ∧
      reader.mysql_store_result executed = (next, some result) := by
  unfold Query at h
  split at h
  · cases h
  · rename_i executed hexecute
    split at h
    · cases h
    · rename_i stored found hstore
      cases h
      exact ⟨executed, hexecute, hstore⟩

theorem query_accepted {reader : MySqlReader world} {result : ResultSet}
    (h : Query reader start sql = (next, .ok result)) :
    exists w, (reader.mysql_real_query w sql).2 = .ok := by
  rcases query_executed h with ⟨executed, hexecute, _⟩
  rcases (execute_queried hexecute).answered with ⟨w, _, hok, _⟩
  exact ⟨w, hok⟩

/-- A query changes no table, and its result is the answer to it. -/
theorem query_answered {reader : MySqlReader world} {answer : Text -> Database -> ResultSet}
    {result : ResultSet} (h : Query reader start sql = (next, .ok result))
    (hserver : SqlServer reader.toMySqlClient database meaning)
    (hstores : StoresAnswers reader database answer)
    (hread : forall tables, meaning sql tables = tables) :
    database next = database start ∧ result = answer sql (database start) := by
  rcases query_executed h with ⟨executed, hexecute, hstore⟩
  rcases (execute_queried hexecute).answered with ⟨w, hreached, hok, hexecuted⟩
  have htables := hstores.tables executed
  rw [hstore] at htables
  rw [hexecuted] at hstore
  constructor
  · rw [htables, execute_done hexecute hserver (by rw [hread, hread]), hread]
  · rw [hstores.stored w sql result hok (by rw [hstore]), reached_read hserver hread hreached]

/-!
# Servers that answer

All statements but those that are malformed are executed and answered.
-/

section

variable (malformed : Text -> Bool) (meaning : Text -> Database -> Database)
  (answer : Text -> Database -> ResultSet)

/-- The tables and what the last statement answered. -/
def answeringReader : MySqlReader (Database × ResultSet) :=
  { Connect := fun w => (w, true),
    Disconnect := fun w => w,
    mysql_ping := fun w => (w, true),
    mysql_real_query := fun w sql =>
      if malformed sql then (w, .refused) else ((meaning sql w.1, answer sql w.1), .ok),
    mysql_store_result := fun w => (w, some w.2) }

theorem answeringReader_query (w : Database × ResultSet) (sql : Text) :
    (malformed sql = true ∧
        (answeringReader malformed meaning answer).mysql_real_query w sql = (w, .refused)) ∨
      (answeringReader malformed meaning answer).mysql_real_query w sql =
        ((meaning sql w.1, answer sql w.1), .ok) := by
  by_cases hmalformed : malformed sql = true
  · exact Or.inl ⟨hmalformed, if_pos hmalformed⟩
  · exact Or.inr (if_neg hmalformed)

theorem answeringReader_server :
    SqlServer (answeringReader malformed meaning answer).toMySqlClient Prod.fst meaning := by
  have hquery := answeringReader_query malformed meaning answer
  constructor
  · exact fun _ => rfl
  · exact fun _ => rfl
  · exact fun _ => rfl
  · intro w sql hok
    rcases hquery w sql with ⟨_, hEq⟩ | hEq
    · rw [hEq] at hok
      cases hok
    · rw [hEq]
  · intro w sql hgone
    rcases hquery w sql with ⟨_, hEq⟩ | hEq
    · rw [hEq]
    · rw [hEq] at hgone
      cases hgone
  · intro w sql hlost
    rcases hquery w sql with ⟨_, hEq⟩ | hEq
    · rw [hEq] at hlost
      cases hlost
    · rw [hEq] at hlost
      cases hlost
  · intro w sql hrefused
    rcases hquery w sql with ⟨_, hEq⟩ | hEq
    · rw [hEq]
    · rw [hEq] at hrefused
      cases hrefused

theorem answeringReader_stores :
    StoresAnswers (answeringReader malformed meaning answer) Prod.fst answer := by
  constructor
  · exact fun _ => rfl
  · intro w sql result hok hstored
    rcases answeringReader_query malformed meaning answer w sql with ⟨_, hEq⟩ | hEq
    · rw [hEq] at hok
      cases hok
    · rw [hEq] at hstored
      cases hstored
      rfl

theorem answeringReader_refuses {malformed : Text -> Bool} {sql : Text}
    (h : malformed sql = true) (w : Database × ResultSet) :
    ((answeringReader malformed meaning answer).mysql_real_query w sql).2 ≠ .ok := by
  intro hok
  have hrefused : (answeringReader malformed meaning answer).mysql_real_query w sql =
      (w, .refused) := if_pos h
  rw [hrefused] at hok
  cases hok

end

end CMysql
end DataHandle
end GMServer
