import GMServer.Library.SortedMap
import GMServer.DataHandle.KeyFieldMgr

/-!
# The change buffer

Changed values wait in a `RedisBuffer`, sorted by key, first key, second key and
field.  `Batch` turns what has gathered there into one `HMSET` and one `publish`
for each first and second key.
-/

namespace GMServer
namespace DataHandle

open Std

abbrev FieldBuffer := ExtTreeMap uint32_t Text

/-- Second keys to what has changed under them. -/
abbrev SecondBuffer := ExtTreeMap uint64_t FieldBuffer

abbrev KeyBuffer := ExtTreeMap uint64_t SecondBuffer

structure RedisBuffer where
  m_mBuffer : ExtTreeMap uint32_t KeyBuffer

def FieldBuffer.ValueChange (mapField : FieldBuffer) (iKeyField : uint32_t)
    (strValue : Text) : FieldBuffer :=
  mapField.insert iKeyField strValue

def KeyBuffer.ValueChange (mapBuffer : KeyBuffer) (iKeyField : uint32_t)
    (iFirstKey iSecondKey : uint64_t) (strValue : Text) : KeyBuffer :=
  let itFirst := mapBuffer[iFirstKey]?.getD ∅
  let itSecond := itFirst[iSecondKey]?.getD ∅
  mapBuffer.insert iFirstKey
    (itFirst.insert iSecondKey (FieldBuffer.ValueChange itSecond iKeyField strValue))

namespace RedisBuffer

def empty : RedisBuffer := { m_mBuffer := ∅ }

def AddValueChange (buffer : RedisBuffer) (i64Key iIndex : uint64_t) (iKeyField : uint32_t)
    (strValue : Text) : RedisBuffer :=
  { m_mBuffer := buffer.m_mBuffer.insert (keyOf iKeyField)
      (KeyBuffer.ValueChange (buffer.m_mBuffer[keyOf iKeyField]?.getD ∅) iKeyField i64Key
        iIndex strValue) }

/-!
# The commands

`Batch` hands its commands over one by one.  An exception ends it there, and then
the buffer is not cleared.
-/

structure Emitted where
  commands : List Text
  thrown : Option Exception
  deriving DecidableEq, Repr

def emitEach {entry : Type} (emit : entry -> Emitted) : List entry -> Emitted
  | [] => { commands := [], thrown := none }
  | it :: rest =>
      match (emit it).thrown with
      | some exception => { commands := (emit it).commands, thrown := some exception }
      | none =>
          { commands := (emit it).commands ++ (emitEach emit rest).commands,
            thrown := (emitEach emit rest).thrown }

/-- The name of the hash: the first key is left out if it is 0, and with it the second. -/
def hashName (sKey : Text) (iFirstKey iSecondKey : uint64_t) : Text :=
  if iFirstKey ≠ 0 then
    sKey ++ ':' :: (Text.decimal iFirstKey.toNat ++
      (if iSecondKey ≠ 0 then ':' :: Text.decimal iSecondKey.toNat else []))
  else sKey

/-- What the fields add to `ssSave` and to `ssPub`. -/
def fieldTexts (mgr : KeyFieldMgr) : List (uint32_t × Text) -> Option (Text × Text)
  | [] => some ([], [])
  | (iKeyField, strValue) :: rest =>
      match mgr.FindField iKeyField with
      | none => none
      | some sField =>
          (fieldTexts mgr rest).map (fun texts =>
            (sField ++ ' ' :: (strValue ++ ' ' :: texts.1),
              Text.decimal iKeyField.toNat ++ ':' :: (strValue ++ '|' :: texts.2)))

def saveText (hash fields : Text) : Text := "HMSET ".toList ++ hash ++ ' ' :: fields

def syncPayload (iFirstKey iSecondKey : uint64_t) (fields : Text) : Text :=
  "S|".toList ++ Text.decimal iFirstKey.toNat ++
    '|' :: (Text.decimal iSecondKey.toNat ++ '|' :: fields)

def publishText (iRedisKey : uint32_t) (payload : Text) : Text :=
  "publish ".toList ++ Text.decimal iRedisKey.toNat ++ ' ' :: payload

def batchSecond (mgr : KeyFieldMgr) (iRedisKey : uint32_t) (sKey : Text)
    (iFirstKey : uint64_t) (itKeySecond : uint64_t × FieldBuffer) : Emitted :=
  match fieldTexts mgr itKeySecond.2.toList with
  | none => { commands := [], thrown := some .runtime_error }
  | some texts =>
      { commands :=
          [saveText (hashName sKey iFirstKey itKeySecond.1) texts.1,
            publishText iRedisKey (syncPayload iFirstKey itKeySecond.1 texts.2)],
        thrown := none }

def batchKey (mgr : KeyFieldMgr) (itKey : uint32_t × KeyBuffer) : Emitted :=
  match mgr.FindKey itKey.1 with
  | none => { commands := [], thrown := some .runtime_error }
  | some sKey =>
      emitEach (fun itKeyFirst : uint64_t × SecondBuffer =>
        emitEach (batchSecond mgr itKey.1 sKey itKeyFirst.1) itKeyFirst.2.toList)
        itKey.2.toList

def Batch (mgr : KeyFieldMgr) (buffer : RedisBuffer) : Emitted × RedisBuffer :=
  let emitted := emitEach (batchKey mgr) buffer.m_mBuffer.toList
  (emitted, if emitted.thrown = none then empty else buffer)

end RedisBuffer
end DataHandle
end GMServer
