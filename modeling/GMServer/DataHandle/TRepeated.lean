import GMServer.DataHandle.StructRegistry

/-!
# Repeated elements

A container keeps the elements of one repeated group under their indices.  Each element has
its index as its key and the container as its data handle, so that the container knows
where a changed field belongs.  Elements are `player_bagequip_data`, whose copies get the
fields and nothing else.
-/

namespace GMServer
namespace DataHandle

open Std

/-!
# Adapters

What an adapter does is left open.  A load calls `Sync` for the texts it finds and answers
or throws.
-/

structure IDataAdapter (world : Type) where
  Load : world -> uint64_t -> uint64_t -> List uint32_t ->
    world × List (uint32_t × Text) × Except Exception Bool
  Save : world -> uint64_t -> uint64_t -> List (uint32_t × Text) -> world × Option Exception
  SetValue : world -> uint64_t -> uint64_t -> uint32_t × Text -> world
  GetAllKey : world -> uint64_t -> uint32_t -> world × Except Exception (List uint64_t)
  AddRepeated : world -> uint64_t -> uint64_t -> uint32_t -> world × Option Exception
  RemoveRepeated : world -> uint64_t -> uint64_t -> uint32_t -> world × Option Exception

/-- How a call ends; a call without a result returns `true`.  A fault is an access through
a null pointer. -/
inductive Outcome where
  | returned (bValue : Bool)
  | thrown (exception : Exception)
  | fault
  deriving DecidableEq, Repr

def Outcome.ofThrown : Option Exception -> Outcome
  | none => .returned true
  | some exception => .thrown exception

/-!
# The struct that the container is a part of
-/

namespace TStruct

variable {world : Type}

def SetValue (owner : TStruct (IDataAdapter world)) (state : world) (iIndex : uint64_t)
    (value : uint32_t × Text) : world :=
  match owner.m_pDataHanle with
  | none => state
  | some adapter => adapter.SetValue state owner.m_i64Key iIndex value

def Load (owner : TStruct (IDataAdapter world)) (state : world) (iIndex : uint64_t)
    (mValue : List uint32_t) : world × List (uint32_t × Text) × Except Exception Bool :=
  match owner.m_pDataHanle with
  | none => (state, [], .ok false)
  | some adapter => adapter.Load state owner.m_i64Key iIndex mValue

/-- The overload with an index does not look whether there is a handle. -/
def Save (owner : TStruct (IDataAdapter world)) (state : world) (iIndex : uint64_t)
    (mValue : List (uint32_t × Text)) : world × Outcome :=
  match owner.m_pDataHanle with
  | none => (state, .fault)
  | some adapter =>
      let saved := adapter.Save state owner.m_i64Key iIndex mValue
      (saved.1, .ofThrown saved.2)

def GetAllKey (owner : TStruct (IDataAdapter world)) (state : world) (key : uint32_t) :
    world × Except Exception (List uint64_t) :=
  match owner.m_pDataHanle with
  | none => (state, .ok [])
  | some adapter => adapter.GetAllKey state owner.m_i64Key key

def AddRepeated (owner : TStruct (IDataAdapter world)) (state : world) (i64Index : uint64_t)
    (iRedisKey : uint32_t) : world × Outcome :=
  match owner.m_pDataHanle with
  | none => (state, .returned true)
  | some adapter =>
      let added := adapter.AddRepeated state owner.m_i64Key i64Index iRedisKey
      (added.1, .ofThrown added.2)

def RemoveRepeated (owner : TStruct (IDataAdapter world)) (state : world)
    (i64Index : uint64_t) (iRedisKey : uint32_t) : world × Outcome :=
  match owner.m_pDataHanle with
  | none => (state, .returned true)
  | some adapter =>
      let removed := adapter.RemoveRepeated state owner.m_i64Key i64Index iRedisKey
      (removed.1, .ofThrown removed.2)

end TStruct

/-!
# Elements
-/

def player_bagequip : uint32_t := 0x100

inductive BagequipField where
  | ConfigId
  | Level
  deriving DecidableEq, Repr

def BagequipField.KeyField : BagequipField -> uint32_t
  | .ConfigId => 0x100
  | .Level => 0x101

/-- The fields are `TValue`s; `container` is the type of pointers to containers. -/
structure PlayerBagequipData (container : Type) extends TStruct container where
  value : BagequipField -> uint32_t

namespace PlayerBagequipData

variable {container : Type}

/-- Both constructors register the two values; `TStruct` is built anew in either. -/
def withValues (value : BagequipField -> uint32_t) : PlayerBagequipData container :=
  { m_i64Key := 0,
    m_mValue := [BagequipField.ConfigId.KeyField, BagequipField.Level.KeyField],
    m_pDataHanle := none,
    value := value }

def new : PlayerBagequipData container := withValues (fun _ => 0)

def copy (other : PlayerBagequipData container) : PlayerBagequipData container :=
  withValues other.value

def SetKey (data : PlayerBagequipData container) (iKey : uint64_t) :
    PlayerBagequipData container :=
  { data with m_i64Key := iKey }

/-- Containers do not keep a registry of their elements. -/
def SetDataHandle (data : PlayerBagequipData container) (this : container) :
    PlayerBagequipData container :=
  { data with m_pDataHanle := some this }

/-- `TBaseValue::Sync` of the value that has the key field. -/
def syncValue (data : PlayerBagequipData container) (call : uint32_t × Text) :
    PlayerBagequipData container :=
  { data with
    value := fun field =>
      if field.KeyField = call.1 then StringValue.atoi call.2 else data.value field }

/-- `TValue::IsConst`. -/
def IsConst (_field : uint32_t) : Bool := false

/-- `IStruct::Sync` hands texts to constant values only. -/
def Sync (data : PlayerBagequipData container) (stValue : SyncValue) :
    PlayerBagequipData container :=
  stValue.mValue.toList.foldl (fun synced it =>
    if it.1 ∈ synced.m_mValue ∧ IsConst it.1 = true then synced.syncValue it else synced) data

/-- The texts of the values in the order of their key fields. -/
def texts (data : PlayerBagequipData container) : List (uint32_t × Text) :=
  [BagequipField.ConfigId, BagequipField.Level].map (fun field =>
    (field.KeyField, StringValue.ToString (.uint32 (data.value field))))

end PlayerBagequipData

/-!
# The container
-/

structure TRepeated (container world : Type) where
  m_pHandle : Option (TStruct (IDataAdapter world))
  m_mValue : ExtTreeMap uint64_t (PlayerBagequipData container)

namespace TRepeated

variable {container world : Type}

def empty (m_pHandle : Option (TStruct (IDataAdapter world))) : TRepeated container world :=
  { m_pHandle := m_pHandle, m_mValue := ∅ }

def Get (repeated : TRepeated container world) (iIndex : uint64_t) :
    Option (PlayerBagequipData container) :=
  repeated.m_mValue[iIndex]?

def put (repeated : TRepeated container world) (iIndex : uint64_t)
    (data : PlayerBagequipData container) : TRepeated container world :=
  { repeated with m_mValue := repeated.m_mValue.insert iIndex data }

/-- `TBaseRepeat::SetValue`. -/
def SetValue (repeated : TRepeated container world) (state : world) (iIndex : uint64_t)
    (value : uint32_t × Text) : world :=
  match repeated.m_pHandle with
  | none => state
  | some owner => owner.SetValue state iIndex value

/-- `TBaseRepeat::Load` with an index. -/
def LoadIndex (repeated : TRepeated container world) (state : world) (iIndex : uint64_t)
    (mValue : List uint32_t) : world × List (uint32_t × Text) × Except Exception Bool :=
  match repeated.m_pHandle with
  | none => (state, [], .ok false)
  | some owner => owner.Load state iIndex mValue

/-- `TBaseRepeat::Save` with an index. -/
def SaveIndex (repeated : TRepeated container world) (state : world) (iIndex : uint64_t)
    (mValue : List (uint32_t × Text)) : world × Outcome :=
  match repeated.m_pHandle with
  | none => (state, .returned true)
  | some owner => owner.Save state iIndex mValue

/-- A value of an element is assigned; the element's handle is this container, if it has
one. -/
def assign (repeated : TRepeated container world) (state : world)
    (data : PlayerBagequipData container) (field : BagequipField) (value : uint32_t) :
    world × PlayerBagequipData container :=
  if data.value field = value then (state, data)
  else
    (match data.m_pDataHanle with
      | none => state
      | some _ =>
          repeated.SetValue state data.m_i64Key
            (field.KeyField, StringValue.ToString (.uint32 value)),
      { data with value := Function.update data.value field value })

/-- `TStruct::Load` of an element. -/
def loadElement (repeated : TRepeated container world) (state : world)
    (data : PlayerBagequipData container) :
    world × PlayerBagequipData container × Except Exception Bool :=
  match data.m_pDataHanle with
  | none => (state, data, .ok false)
  | some _ =>
      if data.m_mValue = [] then (state, data, .ok true)
      else
        let answer := repeated.LoadIndex state data.m_i64Key data.m_mValue
        (answer.1, answer.2.1.foldl PlayerBagequipData.syncValue data, answer.2.2)

/-!
# The operations
-/

variable (this : container)

def loadEach (repeated : TRepeated container world) (state : world) :
    List uint64_t -> (world × TRepeated container world) × Outcome
  | [] => ((state, repeated), .returned true)
  | it :: rest =>
      let stData := (PlayerBagequipData.new.SetKey it).SetDataHandle this
      let loaded := repeated.loadElement state stData
      match loaded.2.2 with
      | .error exception => ((loaded.1, repeated), .thrown exception)
      | .ok false => repeated.loadEach loaded.1 rest
      | .ok true =>
          if (repeated.Get it).isSome then repeated.loadEach loaded.1 rest
          else
            -- the copy in the map has no key, and only its handle is set
            (repeated.put it (loaded.2.1.copy.SetDataHandle this)).loadEach loaded.1 rest

def Load (repeated : TRepeated container world) (state : world) :
    (world × TRepeated container world) × Outcome :=
  match repeated.m_pHandle with
  | none => ((state, repeated), .fault)
  | some owner =>
      let listed := owner.GetAllKey state player_bagequip
      match listed.2 with
      | .error exception => ((listed.1, repeated), .thrown exception)
      | .ok listKey => repeated.loadEach this listed.1 listKey

/-- The insertion behind the load finds the element in place. -/
def AddIndex (repeated : TRepeated container world) (state : world) (iIndex : uint64_t) :
    (world × TRepeated container world) × Outcome :=
  let stData := (((repeated.Get iIndex).getD .new).SetKey iIndex).SetDataHandle this
  let loaded := repeated.loadElement state stData
  ((loaded.1, repeated.put iIndex loaded.2.1),
    match loaded.2.2 with
    | .error exception => .thrown exception
    | .ok _ => .returned true)

def RemoveIndex (repeated : TRepeated container world) (iIndex : uint64_t) :
    TRepeated container world :=
  { repeated with m_mValue := repeated.m_mValue.erase iIndex }

def changeEach (repeated : TRepeated container world) (state : world) :
    List (uint64_t × Bool) -> (world × TRepeated container world) × Outcome
  | [] => ((state, repeated), .returned true)
  | it :: rest =>
      if it.2 = true then
        let added := repeated.AddIndex this state it.1
        match added.2 with
        | .returned _ => added.1.2.changeEach added.1.1 rest
        | _ => added
      else (repeated.RemoveIndex it.1).changeEach state rest

def syncEach (repeated : TRepeated container world) (mValue : List (uint64_t × SyncValue)) :
    TRepeated container world :=
  mValue.foldl (fun synced it =>
    match synced.Get it.1 with
    | none => synced
    | some data => synced.put it.1 (data.Sync it.2)) repeated

def Sync (repeated : TRepeated container world) (state : world) (stRepeated : SyncRepeated) :
    (world × TRepeated container world) × Outcome :=
  let changed := repeated.changeEach this state stRepeated.vChange
  match changed.2 with
  | .returned bValue =>
      ((changed.1.1, changed.1.2.syncEach stRepeated.mValue.toList), .returned bValue)
  | _ => changed

/-- What follows the insertion in `Add`. -/
def announce (repeated : TRepeated container world) (state : world)
    (data : PlayerBagequipData container) (i64Index : uint64_t) : world × Outcome :=
  let saved := repeated.SaveIndex state data.m_i64Key data.texts
  match saved.2, repeated.m_pHandle with
  | .returned _, some owner => owner.AddRepeated saved.1 i64Index player_bagequip
  | outcome, _ => (saved.1, outcome)

/-- The element is put under its own key and gets the index as its key afterwards. -/
def Add (repeated : TRepeated container world) (state : world)
    (stData : PlayerBagequipData container) (i64Index : uint64_t) :
    (world × TRepeated container world) × Outcome :=
  if (repeated.Get stData.m_i64Key).isSome then ((state, repeated), .returned false)
  else
    let element := (stData.copy.SetKey i64Index).SetDataHandle this
    let added := repeated.put stData.m_i64Key element
    let announced := added.announce state element i64Index
    ((announced.1, added), announced.2)

def Remove (repeated : TRepeated container world) (state : world) (i64Index : uint64_t) :
    (world × TRepeated container world) × Outcome :=
  let removed := repeated.RemoveIndex i64Index
  match repeated.m_pHandle with
  | none => ((state, removed), .fault)
  | some owner =>
      let told := owner.RemoveRepeated state i64Index player_bagequip
      ((told.1, removed), told.2)

end TRepeated
end DataHandle
end GMServer
