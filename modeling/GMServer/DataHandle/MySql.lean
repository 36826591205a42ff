import GMServer.DataHandle.RedisCommand

/-!
# The connection to MySQL

`CMysql` talks to the server through the functions of the client library, which are
parameters here: they go from one state of their world to the next and tell what the caller
sees.  A statement whose connection was lost may have been executed or not.
-/

namespace GMServer
namespace DataHandle

/-!
# Tables

The columns hold the literals they were given; `NULL` is no literal.
-/

structure Row where
  Key : uint64_t
  Index : Option uint64_t
  columns : Text -> Option Text

abbrev Database := Text -> List Row

def deleteRows (database : Database) (strDBTable : Text) (i64Key : uint64_t) : Database :=
  Function.update database strDBTable
    ((database strDBTable).filter (fun row => row.Key ≠ i64Key))

def deleteText (strDBTable : Text) (i64Key : uint64_t) : Text :=
  "DELETE FROM ".toList ++ strDBTable ++ " WHERE Key=".toList ++ Text.decimal i64Key.toNat

/-!
# The client library
-/

inductive QueryResult where
  | ok
  | CR_SERVER_GONE_ERROR
  | CR_SERVER_LOST
  | refused
  deriving DecidableEq, Repr

/-- `Connect` and `mysql_ping` tell whether they succeed. -/
structure MySqlClient (world : Type) where
  Connect : world -> world × Bool
  Disconnect : world -> world
  mysql_ping : world -> world × Bool
  mysql_real_query : world -> Text -> world × QueryResult

namespace CMysql

variable {world : Type}

/-- `Connect` throws if it does not succeed. -/
def connected (client : MySqlClient world) (w : world)
    (next : world -> world × Option Exception) : world × Option Exception :=
  match client.Connect w with
  | (open_, true) => next open_
  | (closed, false) => (closed, some .runtime_error)

/-- The second attempt, after which there is no other. -/
def lastQuery (client : MySqlClient world) (sql : Text) (w : world) :
    world × Option Exception :=
  match client.mysql_real_query w sql with
  | (next, .ok) => (next, none)
  | (next, _) => (next, some .runtime_error)

def firstQuery (client : MySqlClient world) (sql : Text) (w : world) :
    world × Option Exception :=
  match client.mysql_real_query w sql with
  | (next, .ok) => (next, none)
  | (next, .refused) => (next, some .runtime_error)
  | (next, _) => connected client (client.Disconnect next) (lastQuery client sql)

def Execute (client : MySqlClient world) (w : world) (sql : Text) :
    world × Option Exception :=
  connected client w (fun open_ =>
    match client.mysql_ping open_ with
    | (alive, true) => firstQuery client sql alive
    | (gone, false) => connected client (client.Disconnect gone) (firstQuery client sql))

/-!
# What a statement does

A statement that is answered has been executed once or, behind a lost connection, twice; for
a statement that can be repeated that is the same.
-/

/-- What the documentation of the client library says about the tables. -/
structure SqlServer (client : MySqlClient world) (database : world -> Database)
    (meaning : Text -> Database -> Database) : Prop where
  connect : forall w, database (client.Connect w).1 = database w
  disconnect : forall w, database (client.Disconnect w) = database w
  ping : forall w, database (client.mysql_ping w).1 = database w
  ok : forall w sql, (client.mysql_real_query w sql).2 = .ok ->
    database (client.mysql_real_query w sql).1 = meaning sql (database w)
  gone : forall w sql, (client.mysql_real_query w sql).2 = .CR_SERVER_GONE_ERROR ->
    database (client.mysql_real_query w sql).1 = database w
  lost : forall w sql, (client.mysql_real_query w sql).2 = .CR_SERVER_LOST ->
    database (client.mysql_real_query w sql).1 = database w ∨
      database (client.mysql_real_query w sql).1 = meaning sql (database w)
  refused : forall w sql, (client.mysql_real_query w sql).2 = .refused ->
    database (client.mysql_real_query w sql).1 = database w

/-- The states of the connection that the execution of a statement can pass through. -/
inductive Reached (client : MySqlClient world) (sql : Text) (start : world) : world -> Prop where
  | start : Reached client sql start start
  | connect {w : world} (h : Reached client sql start w) :
      Reached client sql start (client.Connect w).1
  | disconnect {w : world} (h : Reached client sql start w) :
      Reached client sql start (client.Disconnect w)
  | ping {w : world} (h : Reached client sql start w) :
      Reached client sql start (client.mysql_ping w).1
  | query {w : world} (h : Reached client sql start w) :
      Reached client sql start (client.mysql_real_query w sql).1

/-- An attempt that was executed although the connection was lost before the answer. -/
def ExecutedLost (client : MySqlClient world) (database : world -> Database)
    (meaning : Text -> Database -> Database) (sql : Text) (start : world) : Prop :=
  exists w, Reached client sql start w ∧
    (client.mysql_real_query w sql).2 = .CR_SERVER_LOST ∧ database w = database start ∧
    database (client.mysql_real_query w sql).1 = meaning sql (database start)

/-- Not executed, as far as the answers tell. -/
structure Unanswered (client : MySqlClient world) (database : world -> Database)
    (meaning : Text -> Database -> Database) (sql : Text) (start w : world) : Prop where
  reached : Reached client sql start w
  tables : database w = database start ∨
    database w = meaning sql (database start) ∧ ExecutedLost client database meaning sql start

structure Answered (client : MySqlClient world) (database : world -> Database)
    (meaning : Text -> Database -> Database) (sql : Text) (start : world)
    (result : world × Option Exception) : Prop where
  executed : result.2 = none -> database result.1 = meaning sql (database start)
  thrown : result.2 ≠ none -> Unanswered client database meaning sql start result.1

variable {client : MySqlClient world} {database : world -> Database}
  {meaning : Text -> Database -> Database} {sql : Text} {start w : world}

theorem Unanswered.next (h : Unanswered client database meaning sql start w) {next : world}
    (hreached : Reached client sql start next) (hsame : database next = database w) :
    Unanswered client database meaning sql start next := by
  constructor
  · exact hreached
  · rw [hsame]
    exact h.tables

theorem answered_thrown {next : world} {exception : Exception}
    (h : Unanswered client database meaning sql start next) :
    Answered client database meaning sql start (next, some exception) := by
  constructor
  · intro hnone
    cases hnone
  · intro _
    exact h

theorem answered_executed {next : world} (h : database next = meaning sql (database start)) :
    Answered client database meaning sql start (next, none) := by
  constructor
  · intro _
    exact h
  · intro hthrown
    exact absurd rfl hthrown

theorem connected_answered (hserver : SqlServer client database meaning)
    {next : world -> world × Option Exception}
    (hw : Unanswered client database meaning sql start w)
    (hnext : forall open_, Reached client sql start open_ -> database open_ = database w ->
      Answered client database meaning sql start (next open_)) :
    Answered client database meaning sql start (connected client w next) := by
  have hconnect := hserver.connect w
  have hreached := hw.reached.connect
  unfold connected
  split
  · rename_i open_ hopen
    rw [hopen] at hconnect hreached
    exact hnext open_ hreached hconnect
  · rename_i closed hclosed
    rw [hclosed] at hconnect hreached
    exact answered_thrown (hw.next hreached hconnect)

/-- What an attempt that is not answered leaves, be it the first or the second. -/
theorem unanswered_query (hserver : SqlServer client database meaning)
    (hrepeat : meaning sql (meaning sql (database start)) = meaning sql (database start))
    (hw : Unanswered client database meaning sql start w)
    (hanswer : (client.mysql_real_query w sql).2 ≠ .ok) :
    Unanswered client database meaning sql start (client.mysql_real_query w sql).1 := by
  have hmeaning : meaning sql (database w) = meaning sql (database start) := by
    rcases hw.tables with hsame | hexecuted
    · rw [hsame]
    · rw [hexecuted.left, hrepeat]
  cases hquery : (client.mysql_real_query w sql).2 with
  | ok => exact absurd hquery hanswer
  | CR_SERVER_GONE_ERROR => exact hw.next hw.reached.query (hserver.gone w sql hquery)
  | refused => exact hw.next hw.reached.query (hserver.refused w sql hquery)
  | CR_SERVER_LOST =>
      rcases hserver.lost w sql hquery with hsame | hexecuted
      · exact hw.next hw.reached.query hsame
      · constructor
        · exact hw.reached.query
        · right
          refine ⟨hexecuted.trans hmeaning, ?_⟩
          rcases hw.tables with hbefore | hearlier
          · exact ⟨w, hw.reached, hquery, hbefore, hexecuted.trans hmeaning⟩
          · exact hearlier.right

theorem lastQuery_answered (hserver : SqlServer client database meaning)
    (hrepeat : meaning sql (meaning sql (database start)) = meaning sql (database start))
    (hw : Unanswered client database meaning sql start w) :
    Answered client database meaning sql start (lastQuery client sql w) := by
  have hok := hserver.ok w sql
  have hthrown := unanswered_query hserver hrepeat hw
  unfold lastQuery
  split
  · rename_i next hquery
    rw [hquery] at hok
    apply answered_executed
    rcases hw.tables with hsame | hexecuted
    · rw [hok rfl, hsame]
    · rw [hok rfl, hexecuted.left, hrepeat]
  · rename_i next answer hanswer hquery
    rw [hquery] at hthrown
    exact answered_thrown (hthrown hanswer)

theorem firstQuery_answered (hserver : SqlServer client database meaning)
    (hrepeat : meaning sql (meaning sql (database start)) = meaning sql (database start))
    (hreached : Reached client sql start w) (hw : database w = database start) :
    Answered client database meaning sql start (firstQuery client sql w) := by
  have hok := hserver.ok w sql
  have hthrown := unanswered_query hserver hrepeat ⟨hreached, Or.inl hw⟩
  have hretry : forall next, Unanswered client database meaning sql start next ->
      Answered client database meaning sql start
        (connected client (client.Disconnect next) (lastQuery client sql)) := by
    intro next hnext
    have hclosed := hnext.next hnext.reached.disconnect (hserver.disconnect next)
    apply connected_answered hserver hclosed
    intro open_ hopen hsame
    exact lastQuery_answered hserver hrepeat (hclosed.next hopen hsame)
  unfold firstQuery
  cases hquery : client.mysql_real_query w sql with
  | mk next answer =>
      rw [hquery] at hok hthrown
      dsimp only at hthrown
      cases answer with
      | ok =>
          apply answered_executed
          rw [hok rfl, hw]
      | refused => exact answered_thrown (hthrown (by decide))
      | CR_SERVER_GONE_ERROR => exact hretry next (hthrown (by decide))
      | CR_SERVER_LOST => exact hretry next (hthrown (by decide))

theorem execute_answered (hserver : SqlServer client database meaning)
    (hrepeat : meaning sql (meaning sql (database start)) = meaning sql (database start)) :
    Answered client database meaning sql start (Execute client start sql) := by
  unfold Execute
  apply connected_answered hserver ⟨Reached.start, Or.inl rfl⟩
  intro open_ hopen hsame
  have hping := (hserver.ping open_).trans hsame
  have hpinged := hopen.ping
  split
  · rename_i alive halive
    rw [halive] at hping hpinged
    exact firstQuery_answered hserver hrepeat hpinged hping
  · rename_i gone hgone
    rw [hgone] at hping hpinged
    have hclosed := (hserver.disconnect gone).trans hping
    apply connected_answered hserver ⟨hpinged.disconnect, Or.inl hclosed⟩
    intro again hagain hback
    exact firstQuery_answered hserver hrepeat hagain (hback.trans hclosed)

theorem execute_done {next : world} (h : Execute client start sql = (next, none))
    (hserver : SqlServer client database meaning)
    (hrepeat : meaning sql (meaning sql (database start)) = meaning sql (database start)) :
    database next = meaning sql (database start) := by
  have hexecuted := (execute_answered hserver hrepeat).executed (congrArg Prod.snd h)
  rw [h] at hexecuted
  exact hexecuted

end CMysql

theorem deleteRows_repeat (database : Database) (strDBTable : Text) (i64Key : uint64_t) :
    deleteRows (deleteRows database strDBTable i64Key) strDBTable i64Key =
      deleteRows database strDBTable i64Key := by
  unfold deleteRows
  rw [Function.update_self, Function.update_idem, List.filter_filter]
  simp only [Bool.and_self]

end DataHandle
end GMServer
