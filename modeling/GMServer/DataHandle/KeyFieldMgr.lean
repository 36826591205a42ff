import Mathlib.Data.List.Sort
import Mathlib.Logic.Function.Basic
import GMServer.DataHandle.StringValue

/-!
# Registered names

A key field is a 32-bit number whose low byte is the field and whose other bytes
are the key.  `KeyFieldMgr` knows the names of both; a hash in Redis is named
after the key, a field in it after the field.  It also knows which keys are saved in
which table.
-/

namespace GMServer
namespace DataHandle

inductive FieldType where
  | FT_int32_t
  | FT_uint32_t
  | FT_int64_t
  | FT_uint64_t
  | FT_float
  | FT_double
  | FT_datetime
  | FT_bool
  | FT_string
  deriving DecidableEq, Repr

structure FiledNameType where
  Name : Text
  eType : FieldType
  deriving DecidableEq, Repr

/-- `mField` is in the order in which the map is iterated. -/
structure Datakey where
  pName : Option Text
  mField : List (uint32_t × FiledNameType)
  deriving DecidableEq, Repr

def Datakey.GetField (key : Datakey) (iField : uint32_t) : Option Text :=
  (key.mField.lookup iField).map FiledNameType.Name

/-- The sets of `mPackageDBName` are in ascending order. -/
structure KeyFieldMgr where
  mKey : uint32_t -> Option Datakey
  mPackageDBName : Text -> List uint32_t
  mRepeatedDBName : Text -> Option uint32_t

/-- `iIndex & ~(0xFF)`. -/
def keyOf (iIndex : uint32_t) : uint32_t := iIndex &&& ~~~0xFF

theorem keyOf_keyOf (iIndex : uint32_t) : keyOf (keyOf iIndex) = keyOf iIndex := by
  unfold keyOf
  rw [BitVec.and_assoc, BitVec.and_self]

/-- A key field is known from its key and its low byte. -/
theorem keyField_ext {one two : uint32_t} (hkey : keyOf one = keyOf two)
    (hfield : one &&& 0xFF = two &&& 0xFF) : one = two := by
  have hparts : forall iKeyField : uint32_t,
      keyOf iKeyField ||| (iKeyField &&& 0xFF) = iKeyField := by
    intro iKeyField
    unfold keyOf
    rw [← BitVec.and_or_distrib_left, BitVec.not_or_self, BitVec.and_allOnes]
  rw [← hparts one, hkey, hfield, hparts two]

namespace KeyFieldMgr

/-!
# Registration

What is registered under a key is created by the first call that names it.
-/

def empty : KeyFieldMgr :=
  { mKey := fun _ => none,
    mPackageDBName := fun _ => [],
    mRepeatedDBName := fun _ => none }

/-- `mKey[iKey]`. -/
def dataKey (mgr : KeyFieldMgr) (iKey : uint32_t) : Datakey :=
  (mgr.mKey iKey).getD { pName := none, mField := [] }

def AddKey (mgr : KeyFieldMgr) (pKey : Text) (iIndex : uint32_t) : KeyFieldMgr :=
  { mgr with
    mKey := Function.update mgr.mKey (keyOf iIndex)
      (some { mgr.dataKey (keyOf iIndex) with pName := some pKey }) }

/-- `mField` is what the map holds afterwards, in the order in which it is iterated then; the
order is not specified. -/
def AddField (mgr : KeyFieldMgr) (pField : Text) (iIndex : uint32_t) (eType : FieldType)
    (mField : List (uint32_t × FiledNameType)) : Option KeyFieldMgr :=
  let key := mgr.dataKey (keyOf iIndex)
  let iField := iIndex &&& 0xFF
  if mField.Perm ((iField, { Name := pField, eType := eType }) ::
      key.mField.filter (fun it => it.1 ≠ iField)) then
    some { mgr with
      mKey := Function.update mgr.mKey (keyOf iIndex) (some { key with mField := mField }) }
  else none

/-- The index goes into the set as it is. -/
def AddPackageDB (mgr : KeyFieldMgr) (pDB : Text) (iIndex : uint32_t) : KeyFieldMgr :=
  let indices := mgr.mPackageDBName pDB
  { mgr with
    mPackageDBName := Function.update mgr.mPackageDBName pDB
      (if iIndex ∈ indices then indices else indices.orderedInsert (· ≤ ·) iIndex) }

def AddRepeatedDB (mgr : KeyFieldMgr) (pDB : Text) (iIndex : uint32_t) : KeyFieldMgr :=
  { mgr with mRepeatedDBName := Function.update mgr.mRepeatedDBName pDB (some iIndex) }

/-!
# Lookups
-/

/-- `iKey && (~0xFF)`, which is a truth value. -/
def truthOf (iKey : uint32_t) : uint32_t := if iKey ≠ 0 ∧ ~~~(0xFF : uint32_t) ≠ 0 then 1 else 0

def FindDataKey (mgr : KeyFieldMgr) (iKey : uint32_t) : Option Datakey :=
  mgr.mKey (truthOf iKey)

def FindKeyField (mgr : KeyFieldMgr) (iKeyField : uint32_t) : Option Text × Option Text :=
  match mgr.mKey (keyOf iKeyField) with
  | none => (none, none)
  | some key => (key.pName, key.GetField (iKeyField &&& 0xFF))

def FindKey (mgr : KeyFieldMgr) (iKey : uint32_t) : Option Text :=
  (mgr.mKey (keyOf iKey)).bind Datakey.pName

def FindField (mgr : KeyFieldMgr) (iField : uint32_t) : Option Text :=
  (mgr.mKey (keyOf iField)).bind (fun key => key.GetField (iField &&& 0xFF))

def FindPackageDB (mgr : KeyFieldMgr) (strDBTableName : Text) : List uint32_t :=
  mgr.mPackageDBName strDBTableName

def FindRepeatedDB (mgr : KeyFieldMgr) (strDBTableName : Text) : Option Datakey :=
  (mgr.mRepeatedDBName strDBTableName).bind mgr.mKey

theorem findKey_keyOf (mgr : KeyFieldMgr) (iKey : uint32_t) :
    mgr.FindKey (keyOf iKey) = mgr.FindKey iKey := by
  unfold FindKey
  rw [keyOf_keyOf]

/-- A key field that is registered together with its key. -/
def Registered (mgr : KeyFieldMgr) (iKeyField : uint32_t) : Prop :=
  exists sKey sField, mgr.FindKey iKeyField = some sKey ∧ mgr.FindField iKeyField = some sField

end KeyFieldMgr
end DataHandle
end GMServer
