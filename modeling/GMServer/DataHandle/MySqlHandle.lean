import GMServer.Library.Traced
import GMServer.DataHandle.MySqlResult

/-!
# The handle of the connection

`CMysql` has one handle of the client library at a time.  The functions of the library are
parameters; each call of them is traced together with the handle that is passed to it.
-/

namespace GMServer
namespace DataHandle

open Traced Transition

structure CDBConf where
  sHost : Text := "127.0.0.1".toList
  iPort : uint16_t := 3306
  sDatabase : Text := []
  sUser : Text := "root".toList
  sPassword : Text := "123456".toList
  sCharset : Text := "utf8".toList
  deriving DecidableEq, Repr

inductive MySqlOption where
  | MYSQL_SET_CHARSET_NAME (csname : Text)
  | MYSQL_OPT_RECONNECT
  deriving DecidableEq, Repr

/-- A function that can fail tells whether it succeeds. -/
structure MySqlLibrary (world handle : Type) where
  mysql_init : world -> world × Option handle
  mysql_options : world -> handle -> MySqlOption -> world × Bool
  mysql_real_connect : world -> handle -> CDBConf -> world × Bool
  mysql_close : world -> handle -> world
  mysql_ping : world -> handle -> world × Bool
  mysql_real_query : world -> handle -> Text -> world × QueryResult
  mysql_store_result : world -> handle -> world × Option ResultSet
  mysql_real_escape_string : world -> handle -> Text -> Text

/-!
# The calls of the library

A handle is got from `mysql_init`, passed to the other functions and given back to
`mysql_close`.  Where there is no handle `mysql_error` tells of `mysql_init`.
-/

inductive LibraryFunction where
  | mysql_options
  | mysql_real_connect
  | mysql_ping
  | mysql_real_query
  | mysql_store_result
  | mysql_real_escape_string
  | mysql_errno
  | mysql_error
  deriving DecidableEq, Repr

inductive LibraryCall (handle : Type) where
  | mysql_init (mysql : Option handle)
  | call (function : LibraryFunction) (mysql : Option handle)
  | mysql_close (mysql : Option handle)
  deriving DecidableEq, Repr

namespace LibraryCall

variable {handle : Type}

/-- The phase is the handle that has not been closed yet. -/
def protocol [DecidableEq handle] :
    Option handle -> LibraryCall handle -> Option (Option handle)
  | none, .mysql_init mysql => some mysql
  | none, .call .mysql_error none => some none
  | some held, .call _ (some mysql) => if mysql = held then some (some held) else none
  | some held, .mysql_close (some mysql) => if mysql = held then some none else none
  | _, _ => none

def isQuery : LibraryCall handle -> Bool
  | .call function _ => function = .mysql_real_query
  | _ => false

end LibraryCall

structure MySqlHandle (world handle : Type) where
  world : world
  m_dbconf : CDBConf
  m_mysql : Option handle

namespace MySqlHandle

variable {world handle result : Type}

abbrev Done (world handle result : Type) :=
  Traced (MySqlHandle world handle) (LibraryCall handle) result

/-!
# Calls with the handle

Of a call with the null pointer nothing is known but that it was made.
-/

def onHandle (s : MySqlHandle world handle) (function : LibraryFunction) (null : result)
    (call : world -> handle -> world × result) : Done world handle result :=
  match s.m_mysql with
  | none => { state := s, result := null, trace := [.call function none] }
  | some mysql =>
      { state := { s with world := (call s.world mysql).1 },
        result := (call s.world mysql).2,
        trace := [.call function (some mysql)] }

/-- `mysql_errno` and `mysql_error`. -/
def tells (s : MySqlHandle world handle) (function : LibraryFunction) :
    Done world handle Unit :=
  onHandle s function () (fun w _ => (w, ()))

section Functions

variable (lib : MySqlLibrary world handle)

def close (s : MySqlHandle world handle) : Done world handle Unit :=
  { state :=
      { s with
        world :=
          match s.m_mysql with
          | none => s.world
          | some mysql => lib.mysql_close s.world mysql,
        m_mysql := none },
    result := (),
    trace := [.mysql_close s.m_mysql] }

/-!
# Connecting
-/

def Disconnect (s : MySqlHandle world handle) : Done world handle Unit :=
  match s.m_mysql with
  | none => ret s ()
  | some _ => close lib s

def giveUp (s : MySqlHandle world handle) : Done world handle (Option Exception) :=
  (tells s .mysql_error).andThen (fun s _ =>
    (close lib s).andThen (fun s _ => ret s (some .runtime_error)))

def setCharset (s : MySqlHandle world handle) : Done world handle Bool :=
  if s.m_dbconf.sCharset = [] then ret s true
  else
    onHandle s .mysql_options false (fun w mysql =>
      lib.mysql_options w mysql (.MYSQL_SET_CHARSET_NAME (cStr s.m_dbconf.sCharset)))

def setReconnect (s : MySqlHandle world handle) : Done world handle Bool :=
  onHandle s .mysql_options false (fun w mysql =>
    lib.mysql_options w mysql .MYSQL_OPT_RECONNECT)

def realConnect (s : MySqlHandle world handle) : Done world handle Bool :=
  onHandle s .mysql_real_connect false (fun w mysql =>
    lib.mysql_real_connect w mysql s.m_dbconf)

def setUp (s : MySqlHandle world handle) : Done world handle (Option Exception) :=
  (setCharset lib s).andThen (fun s bSet =>
    if bSet then
      (setReconnect lib s).andThen (fun s _ =>
        (realConnect lib s).andThen (fun s bConnected =>
          if bConnected then ret s none else giveUp lib s))
    else giveUp lib s)

def Connect (s : MySqlHandle world handle) : Done world handle (Option Exception) :=
  match s.m_mysql with
  | some _ => ret s none
  | none =>
      match lib.mysql_init s.world with
      | (w, none) =>
          { state := { s with world := w },
            result := some .runtime_error,
            trace := [.mysql_init none, .call .mysql_error none] }
      | (w, some mysql) =>
          ({ state := { s with world := w, m_mysql := some mysql },
             result := (),
             trace := [.mysql_init (some mysql)] } : Done world handle Unit).andThen
            (fun s _ => setUp lib s)

def Init (s : MySqlHandle world handle) (dbconf : CDBConf) : Done world handle Unit :=
  (Disconnect lib s).andThen (fun s _ => ret { s with m_dbconf := dbconf } ())

/-!
# Statements
-/

def Escape (s : MySqlHandle world handle) (text : Text) :
    Done world handle (Except Exception Text) :=
  (Connect lib s).andThen (fun s thrown =>
    match thrown with
    | some exception => ret s (.error exception)
    | none =>
        (onHandle s .mysql_real_escape_string [] (fun w mysql =>
          (w, cStr (lib.mysql_real_escape_string w mysql text)))).andThen
          (fun s r => ret s (.ok r)))

def connected (s : MySqlHandle world handle)
    (next : MySqlHandle world handle -> Done world handle (Option Exception)) :
    Done world handle (Option Exception) :=
  (Connect lib s).andThen (fun s thrown =>
    match thrown with
    | some exception => ret s (some exception)
    | none => next s)

def ping (s : MySqlHandle world handle) : Done world handle Bool :=
  onHandle s .mysql_ping false lib.mysql_ping

def realQuery (sql : Text) (s : MySqlHandle world handle) : Done world handle QueryResult :=
  onHandle s .mysql_real_query .refused (fun w mysql => lib.mysql_real_query w mysql sql)

def storeResult (s : MySqlHandle world handle) : Done world handle (Option ResultSet) :=
  onHandle s .mysql_store_result none lib.mysql_store_result

def lastError (s : MySqlHandle world handle) : Done world handle Exception :=
  (tells s .mysql_error).andThen (fun s _ => ret s .runtime_error)

def lastQuery (sql : Text) (s : MySqlHandle world handle) :
    Done world handle (Option Exception) :=
  (realQuery lib sql s).andThen (fun s answer =>
    match answer with
    | .ok => ret s none
    | _ => (lastError s).andThen (fun s exception => ret s (some exception)))

def firstQuery (sql : Text) (s : MySqlHandle world handle) :
    Done world handle (Option Exception) :=
  (realQuery lib sql s).andThen (fun s answer =>
    match answer with
    | .ok => ret s none
    | .refused =>
        (tells s .mysql_errno).andThen (fun s _ =>
          (lastError s).andThen (fun s exception => ret s (some exception)))
    | _ =>
        (tells s .mysql_errno).andThen (fun s _ =>
          (Disconnect lib s).andThen (fun s _ => connected lib s (lastQuery lib sql))))

def Execute (sql : Text) (s : MySqlHandle world handle) :
    Done world handle (Option Exception) :=
  connected lib s (fun s =>
    (ping lib s).andThen (fun s bAlive =>
      if bAlive then firstQuery lib sql s
      else (Disconnect lib s).andThen (fun s _ => connected lib s (firstQuery lib sql))))

def Query (sql : Text) (s : MySqlHandle world handle) :
    Done world handle (Except Exception ResultSet) :=
  (Execute lib sql s).andThen (fun s thrown =>
    match thrown with
    | some exception => ret s (.error exception)
    | none =>
        (storeResult lib s).andThen (fun s res =>
          match res with
          | none => (lastError s).andThen (fun s exception => ret s (.error exception))
          | some result => ret s (.ok result)))

end Functions

/-!
# Sessions

What the owner of a `CMysql` may call, in any order, until it is destructed.
-/

inductive CMysqlCall where
  | Init (dbconf : CDBConf)
  | Connect
  | Disconnect
  | Escape (s : Text)
  | Execute (sql : Text)
  | Query (sql : Text)
  deriving DecidableEq, Repr

def call (lib : MySqlLibrary world handle) (s : MySqlHandle world handle) :
    CMysqlCall -> Done world handle Unit
  | .Init dbconf => Init lib s dbconf
  | .Connect => (Connect lib s).andThen (fun s _ => ret s ())
  | .Disconnect => Disconnect lib s
  | .Escape text => (Escape lib s text).andThen (fun s _ => ret s ())
  | .Execute sql => (Execute lib sql s).andThen (fun s _ => ret s ())
  | .Query sql => (Query lib sql s).andThen (fun s _ => ret s ())

def session (lib : MySqlLibrary world handle) (s : MySqlHandle world handle) :
    List CMysqlCall -> Done world handle Unit
  | [] => ret s ()
  | c :: rest => (call lib s c).andThen (fun s _ => session lib s rest)

def construct (w : world) (dbconf : CDBConf) : MySqlHandle world handle :=
  { world := w, m_dbconf := dbconf, m_mysql := none }

/-- From the constructor to the destructor. -/
def lifetime (lib : MySqlLibrary world handle) (w : world) (dbconf : CDBConf)
    (calls : List CMysqlCall) : Done world handle Unit :=
  (session lib (construct w dbconf) calls).andThen (fun s _ => Disconnect lib s)

/-!
# The handle that is held
-/

section Held

variable [DecidableEq handle]

abbrev Keeps (s : MySqlHandle world handle) (done : Done world handle result) : Prop :=
  Follows LibraryCall.protocol MySqlHandle.m_mysql s done

/-- A handle is held where no exception is thrown. -/
structure Opens (s : MySqlHandle world handle) (done : Done world handle (Option Exception)) :
    Prop where
  keeps : Keeps s done
  held : done.result = none -> done.state.m_mysql ≠ none

variable {lib : MySqlLibrary world handle} {s : MySqlHandle world handle}

omit [DecidableEq handle] in
theorem onHandle_m_mysql (s : MySqlHandle world handle) (function : LibraryFunction)
    (null : result) (call : world -> handle -> world × result) :
    (onHandle s function null call).state.m_mysql = s.m_mysql := by
  unfold onHandle
  split
  · rfl
  · rfl

theorem keeps_onHandle (hheld : s.m_mysql ≠ none) (function : LibraryFunction) (null : result)
    (call : world -> handle -> world × result) : Keeps s (onHandle s function null call) := by
  rcases Option.ne_none_iff_exists'.mp hheld with ⟨mysql, hmysql⟩
  unfold Keeps Follows
  rw [onHandle_m_mysql, onHandle, hmysql]
  simp [run_cons, LibraryCall.protocol]

/-- A call with the handle, and then what is done while it is still held. -/
theorem keeps_call {other : Type} (hheld : s.m_mysql ≠ none) {function : LibraryFunction}
    {null : result} {call : world -> handle -> world × result}
    {next : MySqlHandle world handle -> result -> Done world handle other}
    (hnext : forall s r, s.m_mysql ≠ none -> Keeps s (next s r)) :
    Keeps s ((onHandle s function null call).andThen next) := by
  apply follows_andThen (keeps_onHandle hheld function null call)
  apply hnext
  rw [onHandle_m_mysql]
  exact hheld

theorem keeps_close (hheld : s.m_mysql ≠ none) : Keeps s (close lib s) := by
  rcases Option.ne_none_iff_exists'.mp hheld with ⟨mysql, hmysql⟩
  unfold Keeps Follows close
  rw [hmysql]
  simp [run_cons, LibraryCall.protocol]

theorem keeps_disconnect : Keeps s (Disconnect lib s) := by
  unfold Disconnect
  split
  · exact follows_ret ()
  · rename_i mysql hmysql
    exact keeps_close (by simp [hmysql])

omit [DecidableEq handle] in
theorem disconnect_m_mysql (s : MySqlHandle world handle) :
    (Disconnect lib s).state.m_mysql = none := by
  unfold Disconnect
  split
  · rename_i hmysql
    exact hmysql
  · rfl

theorem opens_held (hheld : s.m_mysql ≠ none) :
    Opens s (ret s none : Done world handle (Option Exception)) :=
  ⟨follows_ret none, fun _ => hheld⟩

theorem opens_thrown (exception : Exception) :
    Opens s (ret s (some exception) : Done world handle (Option Exception)) :=
  ⟨follows_ret (some exception), fun hnone => by cases hnone⟩

theorem opens_andThen {done : Done world handle result}
    {next : MySqlHandle world handle -> result -> Done world handle (Option Exception)}
    (hdone : Keeps s done) (hnext : Opens done.state (next done.state done.result)) :
    Opens s (done.andThen next) :=
  ⟨follows_andThen hdone hnext.keeps, hnext.held⟩

theorem opens_call (hheld : s.m_mysql ≠ none) {function : LibraryFunction} {null : result}
    {call : world -> handle -> world × result}
    {next : MySqlHandle world handle -> result -> Done world handle (Option Exception)}
    (hnext : forall s r, s.m_mysql ≠ none -> Opens s (next s r)) :
    Opens s ((onHandle s function null call).andThen next) := by
  apply opens_andThen (keeps_onHandle hheld function null call)
  apply hnext
  rw [onHandle_m_mysql]
  exact hheld

theorem opens_giveUp (hheld : s.m_mysql ≠ none) : Opens s (giveUp lib s) := by
  apply opens_call hheld
  intro s _ hheld
  exact opens_andThen (keeps_close hheld) (opens_thrown .runtime_error)

theorem opens_setUp (hheld : s.m_mysql ≠ none) : Opens s (setUp lib s) := by
  have hconnect : forall s : MySqlHandle world handle, s.m_mysql ≠ none ->
      Opens s ((realConnect lib s).andThen (fun s bConnected =>
        if bConnected then ret s none else giveUp lib s)) := by
    intro s hheld
    apply opens_call hheld
    intro s bConnected hheld
    cases bConnected with
    | true => exact opens_held hheld
    | false => exact opens_giveUp hheld
  have hoptions : forall (s : MySqlHandle world handle) (bSet : Bool), s.m_mysql ≠ none ->
      Opens s (if bSet then
        (setReconnect lib s).andThen (fun s _ =>
          (realConnect lib s).andThen (fun s bConnected =>
            if bConnected then ret s none else giveUp lib s))
        else giveUp lib s) := by
    intro s bSet hheld
    cases bSet with
    | true => exact opens_call hheld (fun s _ hheld => hconnect s hheld)
    | false => exact opens_giveUp hheld
  unfold setUp setCharset
  split
  · exact opens_andThen (follows_ret true) (hoptions s true hheld)
  · exact opens_call hheld hoptions

theorem opens_connect : Opens s (Connect lib s) := by
  unfold Connect
  split
  · rename_i mysql hmysql
    exact opens_held (by simp [hmysql])
  · rename_i hnone
    split
    · constructor
      · unfold Keeps Follows
        rw [hnone]
        rfl
      · intro hthrown
        cases hthrown
    · rename_i w mysql _
      apply opens_andThen
      · unfold Keeps Follows
        rw [hnone]
        rfl
      · exact opens_setUp (by simp)

theorem opens_connected
    {next : MySqlHandle world handle -> Done world handle (Option Exception)}
    (hnext : forall s, s.m_mysql ≠ none -> Opens s (next s)) :
    Opens s (connected lib s next) := by
  have hopened : Opens s (Connect lib s) := opens_connect
  apply opens_andThen hopened.keeps
  cases hthrown : (Connect lib s).result with
  | none => exact hnext _ (hopened.held hthrown)
  | some exception => exact opens_thrown exception

theorem opens_reconnected
    {next : MySqlHandle world handle -> Done world handle (Option Exception)}
    (hnext : forall s, s.m_mysql ≠ none -> Opens s (next s)) :
    Opens s ((Disconnect lib s).andThen (fun s _ => connected lib s next)) :=
  opens_andThen keeps_disconnect (opens_connected hnext)

theorem keeps_lastError (hheld : s.m_mysql ≠ none) : Keeps s (lastError s) :=
  keeps_call hheld (fun _ _ _ => follows_ret Exception.runtime_error)

theorem opens_lastError (hheld : s.m_mysql ≠ none) :
    Opens s ((lastError s).andThen (fun s exception => ret s (some exception))) :=
  opens_andThen (keeps_lastError hheld) (opens_thrown _)

theorem opens_lastQuery (sql : Text) (hheld : s.m_mysql ≠ none) :
    Opens s (lastQuery lib sql s) := by
  apply opens_call hheld
  intro s answer hheld
  cases answer with
  | ok => exact opens_held hheld
  | _ => exact opens_lastError hheld

theorem opens_firstQuery (sql : Text) (hheld : s.m_mysql ≠ none) :
    Opens s (firstQuery lib sql s) := by
  apply opens_call hheld
  intro s answer hheld
  cases answer with
  | ok => exact opens_held hheld
  | refused => exact opens_call hheld (fun s _ hheld => opens_lastError hheld)
  | _ =>
      apply opens_call hheld
      intro s _ _
      exact opens_reconnected (fun s hheld => opens_lastQuery sql hheld)

theorem opens_execute (sql : Text) : Opens s (Execute lib sql s) := by
  apply opens_connected
  intro s hheld
  apply opens_call hheld
  intro s bAlive hheld
  cases bAlive with
  | true => exact opens_firstQuery sql hheld
  | false => exact opens_reconnected (fun s hheld => opens_firstQuery sql hheld)

theorem keeps_query (sql : Text) : Keeps s (Query lib sql s) := by
  have hexecuted : Opens s (Execute lib sql s) := opens_execute sql
  apply follows_andThen hexecuted.keeps
  cases hthrown : (Execute lib sql s).result with
  | some exception => exact follows_ret _
  | none =>
      apply keeps_call (hexecuted.held hthrown)
      intro s res hheld
      cases res with
      | some stored => exact follows_ret _
      | none => exact follows_andThen (keeps_lastError hheld) (follows_ret _)

theorem keeps_escape (text : Text) : Keeps s (Escape lib s text) := by
  have hopened : Opens s (Connect lib s) := opens_connect
  apply follows_andThen hopened.keeps
  cases hthrown : (Connect lib s).result with
  | some exception => exact follows_ret _
  | none => exact keeps_call (hopened.held hthrown) (fun s r _ => follows_ret _)

theorem keeps_session (s : MySqlHandle world handle) (calls : List CMysqlCall) :
    Keeps s (session lib s calls) := by
  induction calls generalizing s with
  | nil => exact follows_ret ()
  | cons c rest ih =>
      refine follows_andThen ?_ (ih _)
      cases c with
      | Init dbconf => exact follows_andThen keeps_disconnect (follows_ret ())
      | Connect => exact follows_andThen opens_connect.keeps (follows_ret ())
      | Disconnect => exact keeps_disconnect
      | Escape text => exact follows_andThen (keeps_escape text) (follows_ret ())
      | Execute sql => exact follows_andThen (opens_execute sql).keeps (follows_ret ())
      | Query sql => exact follows_andThen (keeps_query sql) (follows_ret ())

end Held

/-!
# How often a statement is sent
-/

section Sent

variable {lib : MySqlLibrary world handle} {s : MySqlHandle world handle}

def sent (done : Done world handle result) : Nat := done.trace.countP LibraryCall.isQuery

theorem sent_andThen {other : Type} {done : Done world handle result}
    {next : MySqlHandle world handle -> result -> Done world handle other} {n m : Nat}
    (hdone : sent done ≤ n) (hnext : forall s r, sent (next s r) ≤ m) :
    sent (done.andThen next) ≤ n + m := by
  have hlater := hnext done.state done.result
  unfold sent at hdone hlater ⊢
  rw [andThen_trace, List.countP_append]
  omega

theorem sent_onHandle {function : LibraryFunction} (hother : function ≠ .mysql_real_query)
    (s : MySqlHandle world handle) (null : result) (call : world -> handle -> world × result) :
    sent (onHandle s function null call) ≤ 0 := by
  unfold sent onHandle
  cases s.m_mysql with
  | none => simp [LibraryCall.isQuery, hother]
  | some mysql => simp [LibraryCall.isQuery, hother]

theorem sent_realQuery (sql : Text) (s : MySqlHandle world handle) :
    sent (realQuery lib sql s) ≤ 1 := List.countP_le_length.trans (by
  unfold realQuery onHandle
  split
  · exact Nat.le_refl 1
  · exact Nat.le_refl 1)

theorem sent_disconnect (s : MySqlHandle world handle) : sent (Disconnect lib s) ≤ 0 := by
  unfold Disconnect
  cases s.m_mysql with
  | none => exact Nat.le_refl _
  | some mysql => exact Nat.le_refl _

theorem sent_lastError (s : MySqlHandle world handle) : sent (lastError s) ≤ 0 :=
  sent_andThen (n := 0) (m := 0) (sent_onHandle (by decide) s () _) (fun _ _ => Nat.le_refl _)

theorem sent_giveUp (s : MySqlHandle world handle) : sent (giveUp lib s) ≤ 0 := by
  apply sent_andThen (n := 0) (m := 0) (sent_onHandle (by decide) s () _)
  intro s _
  exact Nat.le_refl _

theorem sent_setUp (s : MySqlHandle world handle) : sent (setUp lib s) ≤ 0 := by
  have hcharset : sent (setCharset lib s) ≤ 0 := by
    unfold setCharset
    split
    · exact Nat.le_refl _
    · exact sent_onHandle (by decide) s false _
  have hreconnect : forall s : MySqlHandle world handle, sent (setReconnect lib s) ≤ 0 :=
    fun s => sent_onHandle (by decide) s false _
  have hreal : forall s : MySqlHandle world handle, sent (realConnect lib s) ≤ 0 :=
    fun s => sent_onHandle (by decide) s false _
  apply sent_andThen (n := 0) (m := 0) hcharset
  intro s bSet
  cases bSet with
  | false => exact sent_giveUp s
  | true =>
      rw [if_pos rfl]
      apply sent_andThen (n := 0) (m := 0) (hreconnect s)
      intro s _
      apply sent_andThen (n := 0) (m := 0) (hreal s)
      intro s bConnected
      cases bConnected with
      | true => exact Nat.le_refl _
      | false => exact sent_giveUp s

theorem sent_connect (s : MySqlHandle world handle) : sent (Connect lib s) ≤ 0 := by
  unfold Connect
  split
  · exact Nat.le_refl _
  · split
    · exact Nat.le_refl _
    · exact sent_andThen (n := 0) (m := 0) (Nat.le_refl _) (fun s _ => sent_setUp s)

theorem sent_connected {next : MySqlHandle world handle -> Done world handle (Option Exception)}
    {n : Nat} (hnext : forall s, sent (next s) ≤ n) (s : MySqlHandle world handle) :
    sent (connected lib s next) ≤ n := by
  rw [← Nat.zero_add n]
  apply sent_andThen (sent_connect s)
  intro s thrown
  cases thrown with
  | none => exact hnext s
  | some exception => exact Nat.zero_le n

theorem sent_reconnected
    {next : MySqlHandle world handle -> Done world handle (Option Exception)} {n : Nat}
    (hnext : forall s, sent (next s) ≤ n) (s : MySqlHandle world handle) :
    sent ((Disconnect lib s).andThen (fun s _ => connected lib s next)) ≤ n := by
  rw [← Nat.zero_add n]
  exact sent_andThen (sent_disconnect s) (fun s _ => sent_connected hnext s)

theorem sent_lastQuery (sql : Text) (s : MySqlHandle world handle) :
    sent (lastQuery lib sql s) ≤ 1 := by
  apply sent_andThen (n := 1) (m := 0) (sent_realQuery sql s)
  intro s answer
  cases answer with
  | ok => exact Nat.le_refl _
  | _ => exact sent_andThen (n := 0) (m := 0) (sent_lastError s) (fun _ _ => Nat.le_refl _)

/-- The second attempt is the last one. -/
theorem sent_firstQuery (sql : Text) (s : MySqlHandle world handle) :
    sent (firstQuery lib sql s) ≤ 2 := by
  apply sent_andThen (n := 1) (m := 1) (sent_realQuery sql s)
  intro s answer
  have htold : sent (tells s .mysql_errno) ≤ 0 := sent_onHandle (by decide) s () _
  cases answer with
  | ok => exact Nat.zero_le 1
  | refused =>
      apply sent_andThen (n := 0) (m := 1) htold
      intro s _
      exact sent_andThen (n := 0) (m := 1) (sent_lastError s) (fun _ _ => Nat.zero_le 1)
  | _ =>
      apply sent_andThen (n := 0) (m := 1) htold
      intro s _
      exact sent_reconnected (sent_lastQuery sql) s

theorem sent_execute (sql : Text) (s : MySqlHandle world handle) :
    sent (Execute lib sql s) ≤ 2 := by
  apply sent_connected
  intro s
  have hping : sent (ping lib s) ≤ 0 := sent_onHandle (by decide) s false _
  apply sent_andThen (n := 0) (m := 2) hping
  intro s bAlive
  cases bAlive with
  | true => exact sent_firstQuery sql s
  | false => exact sent_reconnected (sent_firstQuery sql) s

theorem sent_query (sql : Text) (s : MySqlHandle world handle) :
    sent (Query lib sql s) ≤ 2 := by
  apply sent_andThen (n := 2) (m := 0) (sent_execute sql s)
  intro s thrown
  cases thrown with
  | some exception => exact Nat.le_refl _
  | none =>
      have hstore : sent (storeResult lib s) ≤ 0 := sent_onHandle (by decide) s none _
      apply sent_andThen (n := 0) (m := 0) hstore
      intro s res
      cases res with
      | some stored => exact Nat.le_refl _
      | none => exact sent_andThen (n := 0) (m := 0) (sent_lastError s) (fun _ _ => Nat.le_refl _)

theorem sent_escape (s : MySqlHandle world handle) (text : Text) :
    sent (Escape lib s text) ≤ 0 := by
  apply sent_andThen (n := 0) (m := 0) (sent_connect s)
  intro s thrown
  cases thrown with
  | some exception => exact Nat.le_refl _
  | none =>
      exact sent_andThen (n := 0) (m := 0) (sent_onHandle (by decide) s [] _)
        (fun _ _ => Nat.le_refl _)

def CMysqlCall.isStatement : CMysqlCall -> Bool
  | .Execute _ => true
  | .Query _ => true
  | _ => false

theorem sent_session (s : MySqlHandle world handle) (calls : List CMysqlCall) :
    sent (session lib s calls) ≤ 2 * calls.countP CMysqlCall.isStatement := by
  induction calls generalizing s with
  | nil => exact Nat.le_refl _
  | cons c rest ih =>
      have hfirst : sent (call lib s c) ≤ if c.isStatement then 2 else 0 := by
        cases c with
        | Init dbconf =>
            exact sent_andThen (n := 0) (m := 0) (sent_disconnect s) (fun _ _ => Nat.le_refl _)
        | Connect =>
            exact sent_andThen (n := 0) (m := 0) (sent_connect s) (fun _ _ => Nat.le_refl _)
        | Disconnect => exact sent_disconnect s
        | Escape text =>
            exact sent_andThen (n := 0) (m := 0) (sent_escape s text) (fun _ _ => Nat.le_refl _)
        | Execute sql =>
            exact sent_andThen (n := 2) (m := 0) (sent_execute sql s) (fun _ _ => Nat.le_refl _)
        | Query sql =>
            exact sent_andThen (n := 2) (m := 0) (sent_query sql s) (fun _ _ => Nat.le_refl _)
      have hboth := sent_andThen hfirst (fun s _ => ih s)
      rw [List.countP_cons]
      refine Nat.le_trans hboth ?_
      split <;> omega

end Sent

/-!
# The connection without its handle

`CMysql.Execute` and `CMysql.Query` know the state of the connection as a whole; on the states
of the handle they are what is done here.
-/

section Client

variable {lib : MySqlLibrary world handle}

def outcome (done : Done world handle result) : MySqlHandle world handle × result :=
  (done.state, done.result)

def client (lib : MySqlLibrary world handle) : MySqlReader (MySqlHandle world handle) where
  Connect s := ((Connect lib s).state, (Connect lib s).result.isNone)
  Disconnect s := (Disconnect lib s).state
  mysql_ping s := outcome (ping lib s)
  mysql_real_query s sql := outcome (realQuery lib sql s)
  mysql_store_result s := outcome (storeResult lib s)

theorem tells_state (s : MySqlHandle world handle) (function : LibraryFunction) :
    (tells s function).state = s := by
  unfold tells onHandle
  split
  · rfl
  · rfl

theorem setUp_thrown (s : MySqlHandle world handle) :
    (setUp lib s).result = none ∨ (setUp lib s).result = some .runtime_error := by
  unfold setUp giveUp
  simp only [andThen_result]
  split
  · simp only [andThen_result]
    split
    · exact .inl rfl
    · exact .inr rfl
  · exact .inr rfl

theorem connect_thrown {s : MySqlHandle world handle} {exception : Exception}
    (hthrown : (Connect lib s).result = some exception) : exception = .runtime_error := by
  unfold Connect at hthrown
  split at hthrown
  · cases hthrown
  · split at hthrown
    · cases hthrown
      rfl
    · rw [andThen_result] at hthrown
      rcases setUp_thrown _ with hnone | hsome
      · rw [hnone] at hthrown
        cases hthrown
      · rw [hsome] at hthrown
        cases hthrown
        rfl

theorem outcome_connected
    {next : MySqlHandle world handle -> Done world handle (Option Exception)}
    {after : MySqlHandle world handle -> MySqlHandle world handle × Option Exception}
    (hnext : forall s, outcome (next s) = after s) (s : MySqlHandle world handle) :
    outcome (connected lib s next) = CMysql.connected (client lib).toMySqlClient s after := by
  unfold connected CMysql.connected client outcome
  simp only [andThen_state, andThen_result]
  cases hthrown : (Connect lib s).result with
  | none => exact hnext _
  | some exception =>
      rw [connect_thrown hthrown]
      rfl

theorem outcome_reconnected
    {next : MySqlHandle world handle -> Done world handle (Option Exception)}
    {after : MySqlHandle world handle -> MySqlHandle world handle × Option Exception}
    (hnext : forall s, outcome (next s) = after s) (s : MySqlHandle world handle) :
    outcome ((Disconnect lib s).andThen (fun s _ => connected lib s next)) =
      CMysql.connected (client lib).toMySqlClient ((client lib).Disconnect s) after :=
  outcome_connected hnext _

theorem outcome_lastError (s : MySqlHandle world handle) :
    outcome ((lastError s).andThen (fun s exception => ret s (some exception))) =
      (s, some .runtime_error) := by
  unfold outcome lastError
  simp only [andThen_state, andThen_result, tells_state]
  rfl

theorem outcome_lastQuery (sql : Text) (s : MySqlHandle world handle) :
    outcome (lastQuery lib sql s) = CMysql.lastQuery (client lib).toMySqlClient sql s := by
  have hquery : (client lib).mysql_real_query s sql =
      ((realQuery lib sql s).state, (realQuery lib sql s).result) := rfl
  unfold CMysql.lastQuery
  rw [hquery]
  unfold lastQuery
  cases hanswer : (realQuery lib sql s).result with
  | ok => simp [outcome, hanswer, ret]
  | _ =>
      have herror := outcome_lastError (realQuery lib sql s).state
      simpa [outcome, hanswer] using herror

theorem outcome_firstQuery (sql : Text) (s : MySqlHandle world handle) :
    outcome (firstQuery lib sql s) = CMysql.firstQuery (client lib).toMySqlClient sql s := by
  have hquery : (client lib).mysql_real_query s sql =
      ((realQuery lib sql s).state, (realQuery lib sql s).result) := rfl
  unfold CMysql.firstQuery
  rw [hquery]
  unfold firstQuery
  cases hanswer : (realQuery lib sql s).result with
  | ok => simp [outcome, hanswer, ret]
  | refused =>
      have herror := outcome_lastError (realQuery lib sql s).state
      simpa [outcome, hanswer, tells_state] using herror
  | _ =>
      have hagain : outcome ((Disconnect lib (realQuery lib sql s).state).andThen
          (fun s _ => connected lib s (lastQuery lib sql))) = _ :=
        outcome_reconnected (outcome_lastQuery sql) (realQuery lib sql s).state
      simpa [outcome, hanswer, tells_state] using hagain

theorem outcome_execute (sql : Text) (s : MySqlHandle world handle) :
    outcome (Execute lib sql s) = CMysql.Execute (client lib).toMySqlClient s sql := by
  apply outcome_connected
  intro s
  have hping : (client lib).mysql_ping s = ((ping lib s).state, (ping lib s).result) := rfl
  rw [hping]
  cases halive : (ping lib s).result with
  | true =>
      have hfirst : outcome (firstQuery lib sql (ping lib s).state) = _ :=
        outcome_firstQuery sql (ping lib s).state
      simpa [outcome, halive] using hfirst
  | false =>
      have hagain : outcome ((Disconnect lib (ping lib s).state).andThen
          (fun s _ => connected lib s (firstQuery lib sql))) = _ :=
        outcome_reconnected (outcome_firstQuery sql) (ping lib s).state
      simpa [outcome, halive] using hagain

theorem outcome_query (sql : Text) (s : MySqlHandle world handle) :
    outcome (Query lib sql s) = CMysql.Query (client lib) s sql := by
  unfold CMysql.Query
  rw [← outcome_execute]
  unfold Query outcome
  simp only [andThen_state, andThen_result]
  cases hthrown : (Execute lib sql s).result with
  | some exception => rfl
  | none =>
      have hstore : (client lib).mysql_store_result (Execute lib sql s).state =
          ((storeResult lib (Execute lib sql s).state).state,
            (storeResult lib (Execute lib sql s).state).result) := rfl
      simp only [andThen_state, andThen_result, hstore]
      cases hresult : (storeResult lib (Execute lib sql s).state).result with
      | none => simp [lastError, tells_state, ret]
      | some stored => rfl

end Client

/-!
# Whole lifetimes
-/

/-- Each handle is passed on only while it is open and is closed once; `m_mysql` is the one
that is open, and behind the destructor there is none.  Statements are sent at most twice as
often as they were asked for.  `Execute` and `Query` are those of the connection without its
handle. -/
theorem handle_discipline [DecidableEq handle] (lib : MySqlLibrary world handle) (w : world)
    (dbconf : CDBConf) (calls : List CMysqlCall) :
    Run LibraryCall.protocol none (session lib (construct w dbconf) calls).trace =
        some (session lib (construct w dbconf) calls).state.m_mysql ∧
      Run LibraryCall.protocol none (lifetime lib w dbconf calls).trace = some none ∧
      sent (lifetime lib w dbconf calls) ≤ 2 * calls.countP CMysqlCall.isStatement ∧
      (forall s sql,
        outcome (Execute lib sql s) = CMysql.Execute (client lib).toMySqlClient s sql ∧
          outcome (Query lib sql s) = CMysql.Query (client lib) s sql) := by
  have hsession : Keeps (construct w dbconf) (session lib (construct w dbconf) calls) :=
    keeps_session _ calls
  refine ⟨hsession, ?_, ?_, fun s sql => ⟨outcome_execute sql s, outcome_query sql s⟩⟩
  · have hlifetime : Keeps (construct w dbconf) (lifetime lib w dbconf calls) :=
      follows_andThen hsession keeps_disconnect
    unfold Keeps Follows lifetime at hlifetime
    rw [andThen_state, disconnect_m_mysql] at hlifetime
    exact hlifetime
  · exact sent_andThen (m := 0) (sent_session _ calls) (fun s _ => sent_disconnect s)

end MySqlHandle
end DataHandle
end GMServer
