import GMServer.DataHandle.Coalescing
import GMServer.DataHandle.RedisCommand

/-!
# The connection to Redis

`RedisWrap` sends command strings and reads what comes back.  The server is a
parameter: it takes the arguments of a command in the state of its world and
replies, or it does not reply at all.
-/

namespace GMServer
namespace DataHandle

open Std

/-!
# Replies
-/

inductive Reply where
  | status
  | error
  | integer
  | nil
  | string (str : Text)
  | array (elements : List Reply)

abbrev RedisServer (world : Type) := world -> List Text -> world × Option Reply

namespace RedisWrap

section

variable {world : Type}

/-- No result stands for a command string that reads a missing argument. -/
def DoCmd (server : RedisServer world) (state : world) (strCmd : Text) :
    Option (world × Option Reply) :=
  (redisvFormatCommand strCmd).map (server state)

def Execute (server : RedisServer world) (state : world) (strCmd : Text) : Option world :=
  (DoCmd server state strCmd).map Prod.fst

/-- Command strings that are executed one after the other. -/
def executeAll (server : RedisServer world) (state : world) : List Text -> Option world
  | [] => some state
  | strCmd :: rest =>
      (Execute server state strCmd).bind (fun next => executeAll server next rest)

/-- The calls of `Sync` for the elements of a reply; there must not be more of them than
values. -/
def syncElements : List uint32_t -> List Reply -> Option (List (uint32_t × Text))
  | _, [] => some []
  | [], _ :: _ => none
  | pValue :: listValue, element :: elements =>
      (syncElements listValue elements).map (fun calls =>
        match element with
        | .string str => (pValue, cStr str) :: calls
        | _ => calls)

def syncReply (listValue : List uint32_t) : Option Reply -> Option (List (uint32_t × Text))
  | some (.array elements) => syncElements listValue elements
  | _ => some []

/-- `Load` into values, which are given by their key fields. -/
def Load (server : RedisServer world) (state : world) (strQuery : Text)
    (listValue : List uint32_t) : Option (world × List (uint32_t × Text)) :=
  (DoCmd server state strQuery).bind (fun result =>
    (syncReply listValue result.2).map (fun calls => (result.1, calls)))

end

end RedisWrap

/-!
# Hashes

What the documentation of Redis says about the commands for hashes and about
`PUBLISH`, as far as the store is concerned.
-/

abbrev Fields := Replay.Store Text Text

inductive RedisValue where
  | hash (fields : Fields)
  | other

abbrev RedisStore := Replay.Store Text RedisValue

/-- A missing hash has no fields; a value of another type has none to speak of. -/
def fieldsOf : Option RedisValue -> Option Fields
  | none => some (fun _ => none)
  | some (.hash fields) => some fields
  | some .other => none

def hmset (store : RedisStore) (key : Text) (args : List Text) : RedisStore × Option Reply :=
  match HashWrite.pairUp args, fieldsOf (store key) with
  | some (pair :: pairs), some fields =>
      (Function.update store key (some (.hash (Replay.replay fields (pair :: pairs)))),
        some .status)
  | _, _ => (store, some .error)

def hmget (store : RedisStore) (key : Text) (names : List Text) : RedisStore × Option Reply :=
  match fieldsOf (store key) with
  | some fields =>
      (store, some (.array (names.map (fun name =>
        match fields name with
        | some value => .string value
        | none => .nil))))
  | none => (store, some .error)

structure HashCommands (server : RedisServer RedisStore) : Prop where
  hmset : forall store key args,
    server store ("HMSET".toList :: key :: args) = hmset store key args
  hmget : forall store key names, names ≠ [] ->
    server store ("HMGET".toList :: key :: names) = hmget store key names
  publish : forall store args, (server store ("publish".toList :: args)).1 = store

theorem hmset_frame {store : RedisStore} {key other : Text} (hne : other ≠ key)
    (args : List Text) : (hmset store key args).1 other = store other := by
  unfold hmset
  split
  · exact Function.update_of_ne hne _ _
  · rfl

/-- A server that knows nothing but these commands. -/
def hashServer : RedisServer RedisStore := fun store argv =>
  match argv with
  | command :: key :: args =>
      if command = "HMSET".toList then hmset store key args
      else if command = "HMGET".toList then hmget store key args
      else (store, some .integer)
  | _ => (store, some .error)

theorem hashServer_commands : HashCommands hashServer := by
  constructor
  · intro store key args
    rfl
  · intro store key names _
    rfl
  · intro store args
    cases args with
    | nil => rfl
    | cons channel rest => rfl

end DataHandle
end GMServer
