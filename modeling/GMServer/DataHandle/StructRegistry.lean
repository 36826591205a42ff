import GMServer.DataHandle.SyncDispatch
import GMServer.Library.Transition

/-!
# The structs of the adapters

An adapter keeps pointers to the structs it has to hand events to, by their keys.  A
struct gets there when it is given the adapter as its data handle, and leaves with its
destruction.
-/

namespace GMServer
namespace DataHandle

open Std

/-- The values are given by their key fields. -/
structure TStruct (adapter : Type) where
  m_i64Key : uint64_t
  m_mValue : List uint32_t
  m_pDataHanle : Option adapter
  deriving DecidableEq

namespace RedisAdapter

variable {pointer world : Type}

def empty : RedisAdapter pointer :=
  { m_Buffer := RedisBuffer.empty, m_Listen := RedisListen.empty, m_AllData := ∅ }

section

variable [DecidableEq pointer]

def RegistStruct (adapter : RedisAdapter pointer) (pIStruct : pointer) (GetKey : uint64_t) :
    RedisAdapter pointer :=
  { adapter with
    m_AllData := adapter.m_AllData.insert GetKey ((adapter.structsOf GetKey).insert pIStruct) }

def UnRegistStruct (adapter : RedisAdapter pointer) (pIStruct : pointer) (GetKey : uint64_t) :
    RedisAdapter pointer :=
  { adapter with
    m_AllData :=
      adapter.m_AllData.insert GetKey ((adapter.structsOf GetKey).filter (· ≠ pIStruct)) }

theorem mem_structsOf_regist (adapter : RedisAdapter pointer) (pIStruct : pointer)
    (GetKey iKey : uint64_t) (p : pointer) :
    p ∈ (adapter.RegistStruct pIStruct GetKey).structsOf iKey <->
      p ∈ adapter.structsOf iKey ∨ iKey = GetKey ∧ p = pIStruct := by
  unfold RegistStruct structsOf
  rw [SortedMap.getElem?_insert_eq]
  by_cases hkey : GetKey = iKey
  · rw [if_pos hkey, Option.getD_some, List.mem_insert_iff, hkey]
    constructor
    · intro h
      rcases h with hsame | hold
      · exact Or.inr ⟨rfl, hsame⟩
      · exact Or.inl hold
    · intro h
      rcases h with hold | ⟨_, hsame⟩
      · exact Or.inr hold
      · exact Or.inl hsame
  · rw [if_neg hkey]
    exact (or_iff_left (fun h => hkey h.left.symm)).symm

theorem mem_structsOf_unRegist (adapter : RedisAdapter pointer) (pIStruct : pointer)
    (GetKey iKey : uint64_t) (p : pointer) :
    p ∈ (adapter.UnRegistStruct pIStruct GetKey).structsOf iKey <->
      p ∈ adapter.structsOf iKey ∧ ¬ (iKey = GetKey ∧ p = pIStruct) := by
  unfold UnRegistStruct structsOf
  rw [SortedMap.getElem?_insert_eq]
  by_cases hkey : GetKey = iKey
  · rw [if_pos hkey, Option.getD_some, List.mem_filter, decide_eq_true_eq, hkey]
    exact and_congr_right (fun _ => not_congr (and_iff_right rfl).symm)
  · rw [if_neg hkey]
    exact (and_iff_left (fun h => hkey h.left.symm)).symm

end

/-- What a load reads stays out of the registry. -/
theorem structsOf_of_load {server : RedisServer world} {mgr : KeyFieldMgr}
    {adapter next : RedisAdapter pointer} {state : world} {iKey : uint64_t}
    {mValue : List uint32_t} {loaded : Loaded world}
    (h : adapter.Load server mgr state iKey mValue = some (loaded, next)) :
    next.structsOf = adapter.structsOf := by
  unfold Load loadFrom at h
  rcases Option.map_eq_some_iff.mp h with ⟨read, _, hEq⟩
  cases hEq
  split
  · rfl
  · rfl

end RedisAdapter

/-!
# Structs and adapters

A struct that is made as a copy has the key and the handle of the other one.  Adapters are
there from the start, with nothing in them.
-/

structure StructState (pointer adapter world : Type) where
  structs : pointer -> Option (TStruct adapter)
  adapters : adapter -> RedisAdapter pointer
  redis : world

inductive StructCall (pointer adapter : Type) where
  | construct (this : pointer) (mValue : List uint32_t)
  | copy (this other : pointer)
  | setKey (this : pointer) (iKey : uint64_t)
  | setDataHandle (this : pointer) (pDataHanle : Option adapter)
  | load (a : adapter) (t : pointer)
  | destruct (this : pointer)
  deriving DecidableEq

namespace StructState

open Transition

variable {pointer adapter world : Type}

def init (redis : world) : StructState pointer adapter world :=
  { structs := fun _ => none, adapters := fun _ => RedisAdapter.empty, redis := redis }

variable [DecidableEq pointer] [DecidableEq adapter]

def setStruct (s : StructState pointer adapter world) (this : pointer)
    (value : Option (TStruct adapter)) : StructState pointer adapter world :=
  { s with structs := Function.update s.structs this value }

def setAdapter (s : StructState pointer adapter world) (a : adapter)
    (value : RedisAdapter pointer) : StructState pointer adapter world :=
  { s with adapters := Function.update s.adapters a value }

def SetDataHandle (s : StructState pointer adapter world) (this : pointer)
    (value : TStruct adapter) (pDataHanle : Option adapter) :
    StructState pointer adapter world :=
  let handled := s.setStruct this (some { value with m_pDataHanle := pDataHanle })
  match pDataHanle with
  | none => handled
  | some a => handled.setAdapter a ((s.adapters a).RegistStruct this value.m_i64Key)

/-- `t.Load()` behind `SetDataHandle`.  The elements of its containers have these as their
handles; what is read for them is left out. -/
def loadValues (server : RedisServer world) (mgr : KeyFieldMgr)
    (s : StructState pointer adapter world) (a : adapter) (value : TStruct adapter) :
    Option (StructState pointer adapter world) :=
  if value.m_mValue = [] then some s
  else
    ((s.adapters a).Load server mgr s.redis value.m_i64Key value.m_mValue).map (fun result =>
      { s.setAdapter a result.2 with redis := result.1.state })

/-- `RedisAdapter::Load`. -/
def Load (server : RedisServer world) (mgr : KeyFieldMgr)
    (s : StructState pointer adapter world) (a : adapter) (t : pointer)
    (value : TStruct adapter) : Option (StructState pointer adapter world) :=
  loadValues server mgr (s.SetDataHandle t value (some a)) a value

/-- `TStruct::~TStruct`. -/
def destruct (s : StructState pointer adapter world) (this : pointer)
    (value : TStruct adapter) : StructState pointer adapter world :=
  let destroyed := s.setStruct this none
  match value.m_pDataHanle with
  | none => destroyed
  | some a => destroyed.setAdapter a ((s.adapters a).UnRegistStruct this value.m_i64Key)

/-- A new struct is where no living one is; everything else is done with living ones. -/
def step (server : RedisServer world) (mgr : KeyFieldMgr)
    (s : StructState pointer adapter world) :
    StructCall pointer adapter -> Option (StructState pointer adapter world)
  | .construct this mValue =>
      if s.structs this = none then
        some (s.setStruct this
          (some { m_i64Key := 0, m_mValue := mValue, m_pDataHanle := none }))
      else none
  | .copy this other =>
      if s.structs this = none then
        (s.structs other).map (fun value => s.setStruct this (some value))
      else none
  | .setKey this iKey =>
      (s.structs this).map (fun value =>
        s.setStruct this (some { value with m_i64Key := iKey }))
  | .setDataHandle this pDataHanle =>
      (s.structs this).map (fun value => s.SetDataHandle this value pDataHanle)
  | .load a t => (s.structs t).bind (fun value => s.Load server mgr a t value)
  | .destruct this => (s.structs this).map (fun value => s.destruct this value)

/-!
# What the registry should hold
-/

def Registered (s : StructState pointer adapter world) (a : adapter) (iKey : uint64_t)
    (p : pointer) : Prop :=
  p ∈ (s.adapters a).structsOf iKey

/-- Every pointer in a registry is a living struct with that key and that handle. -/
def RegistryLive (s : StructState pointer adapter world) : Prop :=
  forall a iKey p, s.Registered a iKey p ->
    exists value, s.structs p = some value ∧ value.m_i64Key = iKey ∧
      value.m_pDataHanle = some a

/-- The struct stands in the registry of its handle, under its key. -/
def InRegistry (s : StructState pointer adapter world) (p : pointer)
    (value : TStruct adapter) (a : adapter) : Prop :=
  s.structs p = some value ∧ value.m_pDataHanle = some a ∧ s.Registered a value.m_i64Key p

/-- A struct that stands in a registry keeps its key and its handle. -/
def Keeps (s : StructState pointer adapter world) : StructCall pointer adapter -> Prop
  | .setKey this iKey =>
      forall value a, s.InRegistry this value a -> iKey = value.m_i64Key
  | .setDataHandle this pDataHanle =>
      forall value a, s.InRegistry this value a -> pDataHanle = some a
  | .load b t => forall value a, s.InRegistry t value a -> b = a
  | _ => True

/-!
# What the operations do to structs and registries
-/

theorem structs_setDataHandle (s : StructState pointer adapter world) (this : pointer)
    (value : TStruct adapter) (pDataHanle : Option adapter) :
    (s.SetDataHandle this value pDataHanle).structs =
      Function.update s.structs this (some { value with m_pDataHanle := pDataHanle }) := by
  cases pDataHanle with
  | none => rfl
  | some a => rfl

theorem registered_setDataHandle (s : StructState pointer adapter world) (this : pointer)
    (value : TStruct adapter) (pDataHanle : Option adapter) (a : adapter) (iKey : uint64_t)
    (p : pointer) :
    (s.SetDataHandle this value pDataHanle).Registered a iKey p <->
      s.Registered a iKey p ∨
        pDataHanle = some a ∧ iKey = value.m_i64Key ∧ p = this := by
  cases pDataHanle with
  | none => exact (or_iff_left (fun h => by cases h.left)).symm
  | some b =>
      unfold Registered SetDataHandle setAdapter
      dsimp only
      by_cases hsame : a = b
      · rw [hsame, Function.update_self, RedisAdapter.mem_structsOf_regist]
        exact or_congr_right (and_iff_right rfl).symm
      · rw [Function.update_of_ne hsame]
        exact (or_iff_left (fun h => hsame (Option.some.inj h.left).symm)).symm

theorem load_spec {server : RedisServer world} {mgr : KeyFieldMgr}
    {s t : StructState pointer adapter world} {a : adapter} {this : pointer}
    {value : TStruct adapter} (h : s.Load server mgr a this value = some t) :
    t.structs = (s.SetDataHandle this value (some a)).structs ∧
      forall b iKey p, t.Registered b iKey p <->
        (s.SetDataHandle this value (some a)).Registered b iKey p := by
  unfold Load loadValues at h
  split at h
  · cases h
    exact ⟨rfl, fun _ _ _ => Iff.rfl⟩
  · rcases Option.map_eq_some_iff.mp h with ⟨result, hload, hEq⟩
    cases hEq
    refine ⟨rfl, ?_⟩
    intro b iKey p
    unfold Registered setAdapter
    dsimp only
    by_cases hsame : b = a
    · rw [hsame, Function.update_self, RedisAdapter.structsOf_of_load hload]
    · rw [Function.update_of_ne hsame]

theorem structs_destruct (s : StructState pointer adapter world) (this : pointer)
    (value : TStruct adapter) :
    (s.destruct this value).structs = Function.update s.structs this none := by
  unfold destruct
  cases value.m_pDataHanle with
  | none => rfl
  | some a => rfl

theorem registered_destruct (s : StructState pointer adapter world) (this : pointer)
    (value : TStruct adapter) (a : adapter) (iKey : uint64_t) (p : pointer) :
    (s.destruct this value).Registered a iKey p <->
      s.Registered a iKey p ∧
        ¬ (value.m_pDataHanle = some a ∧ iKey = value.m_i64Key ∧ p = this) := by
  unfold destruct
  cases hhandle : value.m_pDataHanle with
  | none => exact (and_iff_left (fun h => by cases h.left)).symm
  | some b =>
      unfold Registered setAdapter
      dsimp only
      by_cases hsame : a = b
      · rw [hsame, Function.update_self, RedisAdapter.mem_structsOf_unRegist]
        exact and_congr_right (fun _ => not_congr (and_iff_right rfl).symm)
      · rw [Function.update_of_ne hsame]
        exact (and_iff_left (fun h => hsame (Option.some.inj h.left).symm)).symm

/-!
# One step
-/

omit [DecidableEq adapter] in
/-- A pointer in a registry is not that of a new struct. -/
theorem registryLive_new {s : StructState pointer adapter world} (hlive : s.RegistryLive)
    {this : pointer} (hnew : s.structs this = none) (value : TStruct adapter) :
    (s.setStruct this (some value)).RegistryLive := by
  intro a iKey p hmem
  rcases hlive a iKey p hmem with ⟨old, hold, hkey, hhandle⟩
  have hne : p ≠ this := by
    intro hEq
    rw [hEq, hnew] at hold
    cases hold
  exact ⟨old, (Function.update_of_ne hne _ _).trans hold, hkey, hhandle⟩

omit [DecidableEq adapter] in
theorem registryLive_setKey {s : StructState pointer adapter world} (hlive : s.RegistryLive)
    {this : pointer} {value : TStruct adapter} (hvalue : s.structs this = some value)
    {iKey : uint64_t} (hkeeps : s.Keeps (.setKey this iKey)) :
    (s.setStruct this (some { value with m_i64Key := iKey })).RegistryLive := by
  intro a k p hmem
  rcases hlive a k p hmem with ⟨old, hold, hkey, hhandle⟩
  by_cases hEq : p = this
  · rw [hEq] at hold hmem
    rw [hvalue] at hold
    cases hold
    rw [← hkey] at hmem
    have hsame : iKey = value.m_i64Key := hkeeps value a ⟨hvalue, hhandle, hmem⟩
    rw [hEq]
    exact ⟨_, Function.update_self _ _ _, hsame.trans hkey, hhandle⟩
  · exact ⟨old, (Function.update_of_ne hEq _ _).trans hold, hkey, hhandle⟩

/-- A struct that stands in a registry gets the handle that it has. -/
theorem registryLive_setDataHandle {s : StructState pointer adapter world}
    (hlive : s.RegistryLive) {this : pointer} {value : TStruct adapter}
    (hvalue : s.structs this = some value) {pDataHanle : Option adapter}
    (hkeeps : s.Keeps (.setDataHandle this pDataHanle)) :
    (s.SetDataHandle this value pDataHanle).RegistryLive := by
  intro a k p hmem
  rw [structs_setDataHandle]
  rcases (registered_setDataHandle s this value pDataHanle a k p).mp hmem with
    hbefore | ⟨hhandle, hkey, hthis⟩
  · rcases hlive a k p hbefore with ⟨old, hold, hkey, hhandle⟩
    by_cases hEq : p = this
    · rw [hEq] at hold hbefore
      rw [hvalue] at hold
      cases hold
      rw [← hkey] at hbefore
      have hsame : pDataHanle = some a := hkeeps value a ⟨hvalue, hhandle, hbefore⟩
      rw [hEq]
      exact ⟨_, Function.update_self _ _ _, hkey, hsame⟩
    · exact ⟨old, (Function.update_of_ne hEq _ _).trans hold, hkey, hhandle⟩
  · rw [hthis]
    exact ⟨_, Function.update_self _ _ _, hkey.symm, hhandle⟩

theorem registryLive_destruct {s : StructState pointer adapter world}
    (hlive : s.RegistryLive) {this : pointer} {value : TStruct adapter}
    (hvalue : s.structs this = some value) : (s.destruct this value).RegistryLive := by
  intro a k p hmem
  rcases (registered_destruct s this value a k p).mp hmem with ⟨hbefore, hleft⟩
  rcases hlive a k p hbefore with ⟨old, hold, hkey, hhandle⟩
  have hne : p ≠ this := by
    intro hEq
    rw [hEq, hvalue] at hold
    cases hold
    exact hleft ⟨hhandle, hkey.symm, hEq⟩
  rw [structs_destruct]
  exact ⟨old, (Function.update_of_ne hne _ _).trans hold, hkey, hhandle⟩

omit [DecidableEq pointer] [DecidableEq adapter] in
theorem registryLive_of_same {s t : StructState pointer adapter world}
    (hstructs : t.structs = s.structs)
    (hregistered : forall a iKey p, t.Registered a iKey p <-> s.Registered a iKey p) :
    t.RegistryLive <-> s.RegistryLive := by
  unfold RegistryLive
  rw [hstructs]
  exact forall_congr' (fun a => forall_congr' (fun iKey => forall_congr' (fun p =>
    imp_congr_left (hregistered a iKey p))))

theorem step_keeps {server : RedisServer world} {mgr : KeyFieldMgr}
    {s t : StructState pointer adapter world} {call : StructCall pointer adapter}
    (hlive : s.RegistryLive) (hkeeps : s.Keeps call)
    (hstep : step server mgr s call = some t) : t.RegistryLive := by
  unfold step at hstep
  cases call with
  | construct this mValue =>
      dsimp only at hstep
      split at hstep
      · rename_i hnew
        cases hstep
        exact registryLive_new hlive hnew _
      · cases hstep
  | copy this other =>
      dsimp only at hstep
      split at hstep
      · rename_i hnew
        rcases Option.map_eq_some_iff.mp hstep with ⟨value, _, hEq⟩
        cases hEq
        exact registryLive_new hlive hnew value
      · cases hstep
  | setKey this iKey =>
      rcases Option.map_eq_some_iff.mp hstep with ⟨value, hvalue, hEq⟩
      cases hEq
      exact registryLive_setKey hlive hvalue hkeeps
  | setDataHandle this pDataHanle =>
      rcases Option.map_eq_some_iff.mp hstep with ⟨value, hvalue, hEq⟩
      cases hEq
      exact registryLive_setDataHandle hlive hvalue hkeeps
  | load a this =>
      rcases Option.bind_eq_some_iff.mp hstep with ⟨value, hvalue, hload⟩
      rcases load_spec hload with ⟨hstructs, hregistered⟩
      have hhandle : s.Keeps (.setDataHandle this (some a)) :=
        fun old b h => congrArg some (hkeeps old b h)
      exact (registryLive_of_same hstructs hregistered).mpr
        (registryLive_setDataHandle hlive hvalue hhandle)
  | destruct this =>
      rcases Option.map_eq_some_iff.mp hstep with ⟨value, hvalue, hEq⟩
      cases hEq
      exact registryLive_destruct hlive hvalue

/-- The old entry stays when the handle changes. -/
theorem not_registryLive_setDataHandle {s : StructState pointer adapter world}
    {this : pointer} {pDataHanle : Option adapter}
    (hbad : ¬ s.Keeps (.setDataHandle this pDataHanle)) (value : TStruct adapter) :
    ¬ (s.SetDataHandle this value pDataHanle).RegistryLive := by
  intro hlive
  apply hbad
  intro old a hold
  rcases hold with ⟨hstruct, _, hmem⟩
  rcases hlive a old.m_i64Key this
    ((registered_setDataHandle s this value pDataHanle a _ this).mpr (Or.inl hmem)) with
    ⟨later, hlater, _, hhandle⟩
  rw [structs_setDataHandle, Function.update_self] at hlater
  cases hlater
  exact hhandle

theorem step_breaks {server : RedisServer world} {mgr : KeyFieldMgr}
    {s t : StructState pointer adapter world} {call : StructCall pointer adapter}
    (hbad : ¬ s.Keeps call) (hstep : step server mgr s call = some t) : ¬ t.RegistryLive := by
  cases call with
  | construct this mValue => exact absurd trivial hbad
  | copy this other => exact absurd trivial hbad
  | setKey this iKey =>
      rcases Option.map_eq_some_iff.mp hstep with ⟨value, hvalue, hEq⟩
      cases hEq
      intro hlive
      apply hbad
      intro old a hold
      rcases hold with ⟨hstruct, _, hmem⟩
      rcases hlive a old.m_i64Key this hmem with ⟨later, hlater, hkey, _⟩
      have hself := (Function.update_self _ _ _).symm.trans hlater
      cases hself
      exact hkey
  | setDataHandle this pDataHanle =>
      rcases Option.map_eq_some_iff.mp hstep with ⟨value, hvalue, hEq⟩
      cases hEq
      exact not_registryLive_setDataHandle hbad value
  | load a this =>
      rcases Option.bind_eq_some_iff.mp hstep with ⟨value, hvalue, hload⟩
      rcases load_spec hload with ⟨hstructs, hregistered⟩
      rw [registryLive_of_same hstructs hregistered]
      refine not_registryLive_setDataHandle ?_ value
      intro hhandle
      exact hbad (fun old b h => Option.some.inj (hhandle old b h))
  | destruct this => exact absurd trivial hbad

/-!
# Runs
-/

omit [DecidableEq pointer] [DecidableEq adapter] in
theorem registryLive_init (redis : world) :
    (init redis : StructState pointer adapter world).RegistryLive := by
  intro a iKey p hmem
  cases hmem

/-- A registry holds only live structs all along exactly if no struct gets another key or
another handle while it stands in one. -/
theorem registryLive_iff {server : RedisServer world} {mgr : KeyFieldMgr} {redis : world}
    {calls : List (StructCall pointer adapter)} {t : StructState pointer adapter world}
    (hrun : Run (step server mgr) (init redis) calls = some t) :
    AllStates (step server mgr) RegistryLive (init redis) calls <->
      AllSteps (step server mgr) Keeps (init redis) calls := by
  let Inv : StructState pointer adapter world -> List (StructCall pointer adapter) -> Prop :=
    fun s _ => s.RegistryLive
  have hstart : Inv (init redis) calls := registryLive_init redis
  refine allStates_iff_allSteps_ahead ?_ ?_ ?_ hstart hrun
  · intro s call rest u hlive hkeeps hstep
    exact step_keeps hlive hkeeps hstep
  · intro s rest hlive
    exact hlive
  · intro s call rest u _ hbad hstep
    exact step_breaks hbad hstep

/-- A struct that gets its key before its handle. -/
def keyFirst : List (StructCall Nat Nat) :=
  [.construct 0 [], .setKey 0 5, .load 0 0, .destruct 0]

theorem keyFirst_live :
    AllStates (step hashServer KeyFieldMgr.empty) RegistryLive
      (init (fun _ => none) : StructState Nat Nat RedisStore) keyFirst := by
  have hrun : exists t, Run (step hashServer KeyFieldMgr.empty)
      (init (fun _ => none) : StructState Nat Nat RedisStore) keyFirst = some t := ⟨_, rfl⟩
  rcases hrun with ⟨t, hrun⟩
  rw [registryLive_iff hrun]
  have hhandle : forall {s : StructState Nat Nat RedisStore} {value : TStruct Nat} {a : Nat},
      (s.structs 0).bind TStruct.m_pDataHanle = none -> ¬ s.InRegistry 0 value a := by
    intro s value a hnone h
    rw [h.left, Option.bind_some, h.right.left] at hnone
    cases hnone
  refine ⟨trivial, fun constructed hconstruct => ?_⟩
  cases hconstruct
  refine ⟨fun value a h => absurd h (hhandle rfl), fun keyed hkey => ?_⟩
  cases hkey
  refine ⟨fun value a h => absurd h (hhandle rfl), fun loaded hload => ?_⟩
  exact ⟨trivial, fun _ _ => trivial⟩

/-- And one that gets it afterwards; the registry still has it when it is gone. -/
def keyAfterwards : List (StructCall Nat Nat) :=
  [.construct 0 [], .setDataHandle 0 (some 0), .setKey 0 5, .destruct 0]

theorem keyAfterwards_dangling :
    exists t : StructState Nat Nat RedisStore,
      Run (step hashServer KeyFieldMgr.empty) (init (fun _ => none)) keyAfterwards = some t ∧
        t.structs 0 = none ∧ t.Registered 0 0 0 ∧ ¬ t.RegistryLive := by
  have hregistered : exists t : StructState Nat Nat RedisStore,
      Run (step hashServer KeyFieldMgr.empty) (init (fun _ => none)) keyAfterwards = some t ∧
        t.structs 0 = none ∧ t.Registered 0 0 0 := by
    refine ⟨_, rfl, rfl, ?_⟩
    apply (registered_destruct _ _ _ _ _ _).mpr
    refine ⟨?_, fun h => absurd h.right.left (by decide)⟩
    exact (registered_setDataHandle _ _ _ _ _ _ _).mpr (Or.inr ⟨rfl, rfl, rfl⟩)
  rcases hregistered with ⟨t, hrun, hdestroyed, hmem⟩
  refine ⟨t, hrun, hdestroyed, hmem, ?_⟩
  intro hlive
  rcases hlive 0 0 0 hmem with ⟨value, hvalue, _⟩
  rw [hdestroyed] at hvalue
  cases hvalue

end StructState
end DataHandle
end GMServer
