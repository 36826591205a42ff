import GMServer.DataHandle.RedisBuffer
import GMServer.DataHandle.RedisCommand

/-!
# Change messages

A change is published on a channel that is named after the key, as fields between
`|` with `:` between a key field and its text.  The subscriber takes channel and
message apart again.
-/

namespace GMServer
namespace DataHandle

open Std

inductive SyncType where
  | eNULL
  | eAdd
  | eDelete
  | eSet
  deriving DecidableEq, Repr

structure RedisSyncData where
  eType : SyncType
  RedisKey : uint32_t
  Firstkey : uint64_t
  SecondKey : uint64_t
  mValue : ExtTreeMap uint32_t Text

namespace RedisSyncData

/-- The loop over the fields of a set message; no result stands for `return false`. -/
def parseFields (mValue : ExtTreeMap uint32_t Text) :
    List Text -> Except Exception (Option (ExtTreeMap uint32_t Text))
  | [] => .ok (some mValue)
  | field :: rest =>
      match StringValue.Split field ':' with
      | [sKeyField, strValue] =>
          match StringValue.stoi sKeyField with
          | .error exception => .error exception
          | .ok iKeyField => parseFields (mValue.insert iKeyField strValue) rest
      | _ => .ok none

def parseType (data : RedisSyncData) (sType : Text) (fields : List Text) :
    Except Exception (Option RedisSyncData) :=
  match sType.head? with
  | some 'A' => .ok (some { data with eType := .eAdd })
  | some 'D' => .ok (some { data with eType := .eDelete })
  | some 'S' =>
      if fields = [] then .ok none
      else
        match parseFields data.mValue fields with
        | .error exception => .error exception
        | .ok none => .ok none
        | .ok (some mValue) => .ok (some { data with eType := .eSet, mValue := mValue })
  | _ => .ok (some data)

/-- No result stands for `false`; the object is dropped then. -/
def Parse (iRedisKey : uint32_t) (pStrMsg : Text) :
    Except Exception (Option RedisSyncData) :=
  match StringValue.Split pStrMsg '|' with
  | sType :: sFirst :: sSecond :: fields =>
      match StringValue.stoull sFirst with
      | .error exception => .error exception
      | .ok Firstkey =>
          match StringValue.stoull sSecond with
          | .error exception => .error exception
          | .ok SecondKey =>
              parseType
                { eType := .eNULL, RedisKey := iRedisKey, Firstkey := Firstkey,
                  SecondKey := SecondKey, mValue := ∅ } sType fields
  | _ => .ok none

end RedisSyncData

/-!
# The way of a message

The server delivers a `publish` with a channel and one message.  `ReadSyncData`
reads the key from the name of the channel and parses the message.
-/

def published (argv : List Text) : Option (Text × Text) :=
  match argv with
  | [command, channel, message] =>
      if command.map Char.toLower = "publish".toList then some (channel, message) else none
  | _ => none

def readMessage (message : Text × Text) : Except Exception (Option RedisSyncData) :=
  RedisSyncData.Parse (StringValue.atoi (cStr message.1)) (cStr message.2)

/-- What becomes of a command string on its way to a subscriber: no result if nothing is
delivered or the string is no format without arguments. -/
def receive (strCmd : Text) : Option (Except Exception (Option RedisSyncData)) :=
  ((redisvFormatCommand strCmd).bind published).map readMessage

def Survives (strCmd : Text) (data : RedisSyncData) : Prop :=
  receive strCmd = some (.ok (some data))

/-!
# Repeated elements
-/

def repeatedPayload (sType : Char) (i64Key i64Index : uint64_t) : Text :=
  sType :: '|' :: (Text.decimal i64Key.toNat ++ '|' :: Text.decimal i64Index.toNat)

def addRepeatedText (i64Key i64Index : uint64_t) (iRedisKey : uint32_t) : Text :=
  RedisBuffer.publishText iRedisKey (repeatedPayload 'A' i64Key i64Index)

def removeRepeatedText (i64Key i64Index : uint64_t) (iRedisKey : uint32_t) : Text :=
  RedisBuffer.publishText iRedisKey (repeatedPayload 'D' i64Key i64Index)

end DataHandle
end GMServer
