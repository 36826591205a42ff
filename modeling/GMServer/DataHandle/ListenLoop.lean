import GMServer.DataHandle.RedisListen
import GMServer.Library.Transition

/-!
# Listeners that come and go

Adapters put their listeners into the map of `RedisSubMgr` under the number of their actor
and take them out again when they are destroyed.  The subscribing thread runs through the
map and hands what it has read to one listener after the other; between two of its steps
anything can happen.
-/

namespace GMServer
namespace DataHandle

open Std

/-- What an adapter has to do with deliveries. -/
structure ListenAdapter where
  m_iActorId : uint32_t
  m_Listen : RedisListen

/-- An iterator that is not at the end; `dangling` is one whose entry has been erased. -/
inductive MapIterator where
  | node (iActorID : uint32_t)
  | dangling
  deriving DecidableEq

/-- The loop has still to call the listener at its iterator, or it has just done so. -/
structure DeliveryLoop where
  it : MapIterator
  called : Bool
  listData : List RedisSyncData

/-- A listener in the map is given by the adapter that it is a part of. -/
structure ListenState (pointer : Type) where
  adapters : pointer -> Option ListenAdapter
  m_mListen : ExtTreeMap uint32_t pointer
  loop : Option DeliveryLoop

inductive ListenCall (pointer : Type) where
  | construct (this : pointer)
  | init (this : pointer) (iActorId : uint32_t)
  | destruct (this : pointer)
  | startLoop (listData : List RedisSyncData)
  | addSyncData
  | increment

def MapIterator.erased (it : MapIterator) (iActorID : uint32_t) : MapIterator :=
  if it = .node iActorID then .dangling else it

namespace ListenState

open Transition

variable {pointer : Type}

def start : ListenState pointer :=
  { adapters := fun _ => none, m_mListen := ∅, loop := none }

def AddListen (s : ListenState pointer) (iActorID : uint32_t) (pListen : pointer) :
    ListenState pointer :=
  { s with m_mListen := s.m_mListen.insert iActorID pListen }

/-- Entries that are erased take the iterators to them along. -/
def RemoveListen (s : ListenState pointer) (iActorID : uint32_t) : ListenState pointer :=
  match s.m_mListen[iActorID]? with
  | none => s
  | some _ =>
      { s with
        m_mListen := s.m_mListen.erase iActorID,
        loop := s.loop.map (fun loop => { loop with it := loop.it.erased iActorID }) }

def listenerAt (s : ListenState pointer) : MapIterator -> Option pointer
  | .node iActorID => s.m_mListen[iActorID]?
  | .dangling => none

/-- The loop over the map goes on at the next entry, if there is one. -/
def loopAt (listData : List RedisSyncData) (entry : Option (uint32_t × pointer)) :
    Option DeliveryLoop :=
  entry.map (fun entry => { it := .node entry.1, called := false, listData := listData })

variable [DecidableEq pointer]

def setAdapter (s : ListenState pointer) (this : pointer) (value : Option ListenAdapter) :
    ListenState pointer :=
  { s with adapters := Function.update s.adapters this value }

def Init (s : ListenState pointer) (this : pointer) (value : ListenAdapter)
    (iActorId : uint32_t) : ListenState pointer :=
  let named := s.setAdapter this (some { value with m_iActorId := iActorId })
  if 0 < iActorId then named.AddListen iActorId this else named

/-- `RedisAdapter::~RedisAdapter`. -/
def destruct (s : ListenState pointer) (this : pointer) (value : ListenAdapter) :
    ListenState pointer :=
  if value.m_iActorId ≠ 0 then (s.RemoveListen value.m_iActorId).setAdapter this none
  else s.setAdapter this none

/-- A call for a destroyed adapter does nothing that is known. -/
def addSyncData (s : ListenState pointer) (loop : DeliveryLoop) : ListenState pointer :=
  let called := { s with loop := some { loop with called := true } }
  match s.listenerAt loop.it with
  | none => called
  | some pListen =>
      match s.adapters pListen with
      | none => called
      | some value =>
          called.setAdapter pListen
            (some { value with m_Listen := value.m_Listen.AddSyncData loop.listData })

def increment (s : ListenState pointer) (loop : DeliveryLoop) : ListenState pointer :=
  match loop.it with
  | .dangling => { s with loop := some { loop with called := false } }
  | .node iActorID =>
      { s with loop := loopAt loop.listData (SortedMap.next s.m_mListen iActorID) }

/-- A new adapter is where no living one is, and only living ones are initialised and
destroyed.  The loop is entered with at least one change. -/
def step (s : ListenState pointer) : ListenCall pointer -> Option (ListenState pointer)
  | .construct this =>
      if (s.adapters this).isSome then none
      else some (s.setAdapter this (some { m_iActorId := 0, m_Listen := RedisListen.empty }))
  | .init this iActorId => (s.adapters this).map (fun value => s.Init this value iActorId)
  | .destruct this => (s.adapters this).map (fun value => s.destruct this value)
  | .startLoop listData =>
      if s.loop.isSome ∨ listData = [] then none
      else some { s with loop := loopAt listData (SortedMap.first s.m_mListen) }
  | .addSyncData =>
      s.loop.bind (fun loop => if loop.called then none else some (s.addSyncData loop))
  | .increment =>
      s.loop.bind (fun loop => if loop.called then some (s.increment loop) else none)

/-!
# Who should be called
-/

def CallsLiving (s : ListenState pointer) : ListenCall pointer -> Prop
  | .addSyncData =>
      forall loop, s.loop = some loop ->
        exists pListen, s.listenerAt loop.it = some pListen ∧ (s.adapters pListen).isSome
  | _ => True

/-- An adapter that is destroyed has no listener under another number than its last one,
and the loop is not at the entry of that number. -/
def Unlisted (s : ListenState pointer) : ListenCall pointer -> Prop
  | .destruct this =>
      forall value, s.adapters this = some value ->
        (forall iActorID, s.m_mListen[iActorID]? = some this -> iActorID = value.m_iActorId) ∧
          forall loop, s.loop = some loop -> loop.it ≠ .node value.m_iActorId
  | _ => True

/-!
# The invariant
-/

omit [DecidableEq pointer] in
structure ListenInv (s : ListenState pointer) : Prop where
  living : forall (iActorID : uint32_t) (pListen : pointer),
    s.m_mListen[iActorID]? = some pListen -> (s.adapters pListen).isSome
  numbered : s.m_mListen[(0 : uint32_t)]? = none
  placed : forall loop, s.loop = some loop ->
    exists (iActorID : uint32_t) (pListen : pointer),
      loop.it = .node iActorID ∧ s.m_mListen[iActorID]? = some pListen

omit [DecidableEq pointer] in
theorem listenInv_start : (start : ListenState pointer).ListenInv := by
  constructor
  case living =>
    intro iActorID pListen h
    cases h
  case numbered => rfl
  case placed =>
    intro loop h
    cases h

theorem isSome_setAdapter (s : ListenState pointer) (this : pointer) (value : ListenAdapter)
    {p : pointer} (h : (s.adapters p).isSome) :
    ((s.setAdapter this (some value)).adapters p).isSome := by
  unfold setAdapter
  dsimp only
  by_cases hsame : p = this
  · rw [hsame, Function.update_self]
    rfl
  · rw [Function.update_of_ne hsame]
    exact h

theorem listenInv_setAdapter {s : ListenState pointer} (hinv : s.ListenInv) (this : pointer)
    (value : ListenAdapter) : (s.setAdapter this (some value)).ListenInv := by
  constructor
  case living =>
    intro iActorID pListen h
    exact isSome_setAdapter s this value (hinv.living iActorID pListen h)
  case numbered => exact hinv.numbered
  case placed => exact hinv.placed

omit [DecidableEq pointer] in
theorem addListen_entry (s : ListenState pointer) (iActorID k : uint32_t) (pListen : pointer) :
    (s.AddListen iActorID pListen).m_mListen[k]? =
      if iActorID = k then some pListen else s.m_mListen[k]? :=
  SortedMap.getElem?_insert_eq _ _ _ _

omit [DecidableEq pointer] in
theorem listenInv_addListen {s : ListenState pointer} (hinv : s.ListenInv)
    {iActorID : uint32_t} (hne : iActorID ≠ 0) {pListen : pointer}
    (hliving : (s.adapters pListen).isSome) : (s.AddListen iActorID pListen).ListenInv := by
  constructor
  case living =>
    intro k other h
    rw [addListen_entry] at h
    split at h
    · cases h
      exact hliving
    · exact hinv.living k other h
  case numbered =>
    rw [addListen_entry, if_neg hne]
    exact hinv.numbered
  case placed =>
    intro loop hloop
    rcases hinv.placed loop hloop with ⟨k, other, hit, hentry⟩
    by_cases hsame : iActorID = k
    · exact ⟨k, pListen, hit, by rw [addListen_entry, if_pos hsame]⟩
    · exact ⟨k, other, hit, by rw [addListen_entry, if_neg hsame, hentry]⟩

theorem listenInv_init {s : ListenState pointer} (hinv : s.ListenInv) (this : pointer)
    (value : ListenAdapter) (iActorId : uint32_t) : (s.Init this value iActorId).ListenInv := by
  have hnamed := listenInv_setAdapter hinv this { value with m_iActorId := iActorId }
  unfold Init
  dsimp only
  split
  · rename_i hpositive
    have hne : iActorId ≠ 0 := fun hzero => BitVec.lt_irrefl _ (hzero ▸ hpositive)
    have hliving : ((s.setAdapter this
        (some { value with m_iActorId := iActorId })).adapters this).isSome :=
      Option.isSome_iff_exists.mpr ⟨_, Function.update_self _ _ _⟩
    exact listenInv_addListen hnamed hne hliving
  · exact hnamed

omit [DecidableEq pointer] in
/-- What is still in the map is where it was. -/
theorem removeListen_entry {s : ListenState pointer} {iActorID k : uint32_t} :
    (s.RemoveListen iActorID).m_mListen[k]? =
      if iActorID = k then none else s.m_mListen[k]? := by
  unfold RemoveListen
  cases hentry : s.m_mListen[iActorID]? with
  | none =>
      dsimp only
      by_cases hsame : iActorID = k
      · rw [if_pos hsame, ← hsame, hentry]
      · rw [if_neg hsame]
  | some pListen => exact SortedMap.getElem?_erase_eq _ _ _

omit [DecidableEq pointer] in
theorem removeListen_loop {s : ListenState pointer} {iActorID : uint32_t}
    (haway : forall loop, s.loop = some loop -> loop.it ≠ .node iActorID) :
    (s.RemoveListen iActorID).loop = s.loop := by
  unfold RemoveListen
  cases s.m_mListen[iActorID]? with
  | none => rfl
  | some pListen =>
      dsimp only
      cases hloop : s.loop with
      | none => rfl
      | some loop =>
          rw [Option.map_some]
          unfold MapIterator.erased
          rw [if_neg (haway loop hloop)]

omit [DecidableEq pointer] in
@[simp] theorem removeListen_adapters (s : ListenState pointer) (iActorID : uint32_t) :
    (s.RemoveListen iActorID).adapters = s.adapters := by
  unfold RemoveListen
  split
  · rfl
  · rfl

/-- Without an entry of its own an adapter is not missed. -/
theorem listenInv_forget {s : ListenState pointer} (hinv : s.ListenInv) {this : pointer}
    (hunlisted : forall iActorID : uint32_t, s.m_mListen[iActorID]? ≠ some this) :
    (s.setAdapter this none).ListenInv := by
  constructor
  case living =>
    intro iActorID pListen h
    have hne : pListen ≠ this := fun hsame => hunlisted iActorID (hsame ▸ h)
    rw [show (s.setAdapter this none).adapters pListen = s.adapters pListen from
      Function.update_of_ne hne _ _]
    exact hinv.living iActorID pListen h
  case numbered => exact hinv.numbered
  case placed => exact hinv.placed

omit [DecidableEq pointer] in
theorem listenInv_removeListen {s : ListenState pointer} (hinv : s.ListenInv)
    {iActorID : uint32_t} (haway : forall loop, s.loop = some loop -> loop.it ≠ .node iActorID) :
    (s.RemoveListen iActorID).ListenInv := by
  constructor
  case living =>
    intro k pListen h
    rw [removeListen_entry] at h
    split at h
    · cases h
    · rw [removeListen_adapters]
      exact hinv.living k pListen h
  case numbered =>
    rw [removeListen_entry, hinv.numbered]
    split
    · rfl
    · rfl
  case placed =>
    intro loop hloop
    rw [removeListen_loop haway] at hloop
    rcases hinv.placed loop hloop with ⟨k, pListen, hit, hentry⟩
    refine ⟨k, pListen, hit, ?_⟩
    have hne : iActorID ≠ k := fun hsame => haway loop hloop (hsame ▸ hit)
    rw [removeListen_entry, if_neg hne]
    exact hentry

theorem listenInv_destruct {s : ListenState pointer} (hinv : s.ListenInv) {this : pointer}
    {value : ListenAdapter} (hvalue : s.adapters this = some value)
    (hunlisted : s.Unlisted (.destruct this)) : (s.destruct this value).ListenInv := by
  rcases hunlisted value hvalue with ⟨hlast, haway⟩
  unfold destruct
  split
  · apply listenInv_forget (listenInv_removeListen hinv haway)
    intro k h
    rw [removeListen_entry] at h
    split at h
    · cases h
    · rename_i hne
      exact hne (hlast k h).symm
  · rename_i hzero
    apply listenInv_forget hinv
    intro k h
    rw [hlast k h, Classical.not_not.mp hzero, hinv.numbered] at h
    cases h

theorem listenInv_addSyncData {s : ListenState pointer} (hinv : s.ListenInv)
    {loop : DeliveryLoop} (hloop : s.loop = some loop) : (s.addSyncData loop).ListenInv := by
  have hcalled : { s with loop := some { loop with called := true } }.ListenInv := by
    constructor
    case living => exact hinv.living
    case numbered => exact hinv.numbered
    case placed =>
      intro other hother
      cases hother
      exact hinv.placed loop hloop
  unfold addSyncData
  dsimp only
  split
  · exact hcalled
  · split
    · exact hcalled
    · exact listenInv_setAdapter hcalled _ _

omit [DecidableEq pointer] in
theorem listenInv_loopAt {s : ListenState pointer} (hinv : s.ListenInv)
    {entry : Option (uint32_t × pointer)}
    (hentry : forall k p, entry = some (k, p) -> s.m_mListen[k]? = some p)
    (listData : List RedisSyncData) :
    { s with loop := loopAt listData entry }.ListenInv := by
  constructor
  case living => exact hinv.living
  case numbered => exact hinv.numbered
  case placed =>
    intro loop hloop
    rcases Option.map_eq_some_iff.mp hloop with ⟨found, hfound, hEq⟩
    cases hEq
    exact ⟨found.1, found.2, rfl, hentry _ _ hfound⟩

omit [DecidableEq pointer] in
theorem listenInv_increment {s : ListenState pointer} (hinv : s.ListenInv)
    {loop : DeliveryLoop} (hloop : s.loop = some loop) : (s.increment loop).ListenInv := by
  rcases hinv.placed loop hloop with ⟨iActorID, pListen, hit, _⟩
  unfold increment
  rw [hit]
  exact listenInv_loopAt hinv (fun k p h => SortedMap.next_getElem? h) _

theorem listenInv_step {s t : ListenState pointer} {call : ListenCall pointer}
    (hinv : s.ListenInv) (hunlisted : s.Unlisted call) (hstep : step s call = some t) :
    t.ListenInv := by
  cases call with
  | construct this =>
      unfold step at hstep
      dsimp only at hstep
      split at hstep
      · cases hstep
      · cases hstep
        exact listenInv_setAdapter hinv _ _
  | init this iActorId =>
      rcases Option.map_eq_some_iff.mp hstep with ⟨value, _, hEq⟩
      cases hEq
      exact listenInv_init hinv this value iActorId
  | destruct this =>
      rcases Option.map_eq_some_iff.mp hstep with ⟨value, hvalue, hEq⟩
      cases hEq
      exact listenInv_destruct hinv hvalue hunlisted
  | startLoop listData =>
      unfold step at hstep
      dsimp only at hstep
      split at hstep
      · cases hstep
      · cases hstep
        exact listenInv_loopAt hinv (fun k p h => SortedMap.first_getElem? h) listData
  | addSyncData =>
      rcases Option.bind_eq_some_iff.mp hstep with ⟨loop, hloop, hcall⟩
      split at hcall
      · cases hcall
      · cases hcall
        exact listenInv_addSyncData hinv hloop
  | increment =>
      rcases Option.bind_eq_some_iff.mp hstep with ⟨loop, hloop, hnext⟩
      split at hnext
      · cases hnext
        exact listenInv_increment hinv hloop
      · cases hnext

omit [DecidableEq pointer] in
theorem callsLiving_of_inv {s : ListenState pointer} (hinv : s.ListenInv)
    (call : ListenCall pointer) : s.CallsLiving call := by
  cases call with
  | addSyncData =>
      intro loop hloop
      rcases hinv.placed loop hloop with ⟨iActorID, pListen, hit, hentry⟩
      rw [hit]
      exact ⟨pListen, hentry, hinv.living iActorID pListen hentry⟩
  | _ => trivial

/-!
# Where the loop gets to

A listener of a destroyed adapter that stays in the map is called by the loop sooner or
later, and an iterator without an entry is used with the next call.
-/

omit [DecidableEq pointer] in
def InLoop : ListenCall pointer -> Prop
  | .startLoop _ => True
  | .addSyncData => True
  | .increment => True
  | _ => False

/-- The loop alone gets to a call for a destroyed adapter. -/
def Doomed (s : ListenState pointer) : Prop :=
  exists more t, (forall call, call ∈ more -> InLoop call) ∧ Run step s more = some t ∧
    ¬ AllSteps step CallsLiving s more

theorem doomed_of_step {s t : ListenState pointer} {call : ListenCall pointer}
    (hstep : step s call = some t) (hloop : InLoop call) (ht : t.Doomed) : s.Doomed := by
  rcases ht with ⟨more, u, hmore, hrun, hcalls⟩
  refine ⟨call :: more, u, List.forall_mem_cons.mpr ⟨hloop, hmore⟩,
    (run_cons_of_step more hstep).trans hrun, ?_⟩
  intro h
  exact hcalls (h.right t hstep)

theorem step_addSyncData {s : ListenState pointer} {loop : DeliveryLoop}
    (hloop : s.loop = some loop) (hnext : loop.called = false) :
    step s .addSyncData = some (s.addSyncData loop) := by
  unfold step
  dsimp only
  rw [hloop, Option.bind_some, hnext]
  rfl

theorem step_increment {s : ListenState pointer} {loop : DeliveryLoop}
    (hloop : s.loop = some loop) (hcalled : loop.called = true) :
    step s .increment = some (s.increment loop) := by
  unfold step
  dsimp only
  rw [hloop, Option.bind_some, hcalled]
  rfl

theorem doomed_of_call {s : ListenState pointer} {loop : DeliveryLoop}
    (hloop : s.loop = some loop) (hnext : loop.called = false)
    (hdead : ¬ s.CallsLiving .addSyncData) : s.Doomed := by
  refine ⟨[.addSyncData], _, ?_, run_cons_of_step [] (step_addSyncData hloop hnext),
    fun h => hdead h.left⟩
  intro call hcall
  rw [List.mem_singleton.mp hcall]
  trivial

def DeadEntry (s : ListenState pointer) (k : uint32_t) : Prop :=
  exists pListen, s.m_mListen[k]? = some pListen ∧ s.adapters pListen = none

theorem addSyncData_keeps (s : ListenState pointer) (loop : DeliveryLoop) :
    (s.addSyncData loop).m_mListen = s.m_mListen ∧
      (s.addSyncData loop).loop = some { loop with called := true } ∧
        forall k, s.DeadEntry k -> (s.addSyncData loop).DeadEntry k := by
  unfold addSyncData
  dsimp only
  split
  · exact ⟨rfl, rfl, fun k h => h⟩
  · split
    · exact ⟨rfl, rfl, fun k h => h⟩
    · rename_i pListen _ _ value hvalue
      refine ⟨rfl, rfl, ?_⟩
      intro k h
      rcases h with ⟨dead, hentry, hdead⟩
      have hne : dead ≠ pListen := by
        intro hsame
        rw [hsame, hvalue] at hdead
        cases hdead
      exact ⟨dead, hentry, (Function.update_of_ne hne _ _).trans hdead⟩

omit [DecidableEq pointer] in
/-- The destroyed adapter's own entry is no listener to call. -/
theorem not_callsLiving_of_deadEntry {s : ListenState pointer} {k : uint32_t}
    (hdead : s.DeadEntry k) {loop : DeliveryLoop} (hloop : s.loop = some loop)
    (hit : loop.it = .node k) : ¬ s.CallsLiving .addSyncData := by
  intro h
  rcases hdead with ⟨dead, hentry, hnone⟩
  rcases h loop hloop with ⟨pListen, hlistener, hliving⟩
  rw [hit] at hlistener
  have hsame : pListen = dead := Option.some.inj (hlistener.symm.trans hentry)
  rw [hsame, hnone] at hliving
  cases hliving

theorem doomed_of_dangling {s : ListenState pointer} {loop : DeliveryLoop}
    (hloop : s.loop = some loop) (hit : loop.it = .dangling) : s.Doomed := by
  have hcall : forall {t : ListenState pointer},
      t.loop = some { loop with called := false } -> t.Doomed := by
    intro t ht
    refine doomed_of_call ht rfl ?_
    intro h
    rcases h _ ht with ⟨pListen, hlistener, _⟩
    dsimp only at hlistener
    rw [hit] at hlistener
    cases hlistener
  cases hcalled : loop.called with
  | false => exact hcall (hloop.trans (congrArg some (by rw [← hcalled])))
  | true =>
      refine doomed_of_step (step_increment hloop hcalled) trivial (hcall ?_)
      unfold increment
      rw [hit]

variable (pointer) in
/-- The entry is still ahead, or the loop gets to it when it starts again. -/
def Reaches (k : uint32_t) (ahead : Prop) : Prop :=
  ahead ∨ forall s : ListenState pointer, s.DeadEntry k -> s.loop = none -> s.Doomed

/-- The loop goes on to the next entry, which is not behind the one it has to get to. -/
theorem doomed_of_increment {s : ListenState pointer} {k iActorID : uint32_t}
    {loop : DeliveryLoop} (hdead : s.DeadEntry k) (hloop : s.loop = some loop)
    (hit : loop.it = .node iActorID) (hcalled : loop.called = true)
    (hreaches : Reaches pointer k (iActorID < k))
    (hnode : forall (t : ListenState pointer) (j : uint32_t), t.DeadEntry k ->
      t.loop = some { it := .node j, called := false, listData := loop.listData } ->
      iActorID < j -> Reaches pointer k (j ≤ k) -> t.Doomed) : s.Doomed := by
  refine doomed_of_step (step_increment hloop hcalled) trivial ?_
  unfold increment
  rw [hit]
  dsimp only
  rcases hdead with ⟨dead, hentry, hnone⟩
  cases hnext : SortedMap.next s.m_mListen iActorID with
  | none =>
      rcases hreaches with hlt | hidle
      · have hback := SortedMap.le_of_next_none hnext hentry
        exact absurd hlt (BitVec.not_lt.mpr hback)
      · exact hidle _ ⟨dead, hentry, hnone⟩ rfl
  | some entry =>
      refine hnode _ entry.1 ⟨dead, hentry, hnone⟩ rfl (SortedMap.lt_next hnext) ?_
      rcases hreaches with hlt | hidle
      · exact Or.inl (SortedMap.next_le hnext hentry hlt)
      · exact Or.inr hidle

theorem doomed_before {k : uint32_t} (n : Nat) {s : ListenState pointer} {j : uint32_t}
    {listData : List RedisSyncData} (hn : 2 ^ 32 - j.toNat = n) (hdead : s.DeadEntry k)
    (hloop : s.loop = some { it := .node j, called := false, listData := listData })
    (hreaches : Reaches pointer k (j ≤ k)) : s.Doomed := by
  induction n using Nat.strong_induction_on generalizing s j with
  | _ n ih =>
      by_cases hcall : s.CallsLiving .addSyncData
      · rcases s.addSyncData_keeps
          { it := .node j, called := false, listData := listData } with ⟨_, hcalled, hkeeps⟩
        have hpast : Reaches pointer k (j < k) := by
          rcases hreaches with hle | hidle
          · have hne : j ≠ k := by
              intro hsame
              exact not_callsLiving_of_deadEntry hdead hloop (congrArg _ hsame) hcall
            exact Or.inl (BitVec.lt_of_le_ne hle hne)
          · exact Or.inr hidle
        refine doomed_of_step (step_addSyncData hloop rfl) trivial
          (doomed_of_increment (hkeeps k hdead) hcalled rfl rfl hpast ?_)
        intro t i htdead htloop hlt htreaches
        have hmeasure : 2 ^ 32 - i.toNat < n := by
          have hnat : j.toNat < i.toNat := hlt
          have hbound := i.isLt
          omega
        exact ih _ hmeasure rfl htdead htloop htreaches
      · exact doomed_of_call hloop rfl hcall

/-- A message of no known kind. -/
def noChange : RedisSyncData :=
  { eType := .eNULL, RedisKey := 0, Firstkey := 0, SecondKey := 0, mValue := ∅ }

theorem doomed_idle {k : uint32_t} {s : ListenState pointer} (hdead : s.DeadEntry k)
    (hloop : s.loop = none) : s.Doomed := by
  have hstep : step s (.startLoop [noChange]) =
      some { s with loop := loopAt [noChange] (SortedMap.first s.m_mListen) } := by
    unfold step
    dsimp only
    rw [hloop]
    exact if_neg (by simp)
  refine doomed_of_step hstep trivial ?_
  rcases hdead with ⟨dead, hentry, hnone⟩
  cases hfirst : SortedMap.first s.m_mListen with
  | none =>
      rw [SortedMap.first_eq_none_iff.mp hfirst] at hentry
      cases hentry
  | some entry =>
      exact doomed_before _ rfl ⟨dead, hentry, hnone⟩ rfl
        (Or.inl (SortedMap.first_le hfirst hentry))

/-- With a listener of a destroyed adapter in the map the loop gets to a call for it. -/
theorem doomed_of_deadEntry {k : uint32_t} {s : ListenState pointer} (hdead : s.DeadEntry k) :
    s.Doomed := by
  have hreaches : forall ahead : Prop, Reaches pointer k ahead :=
    fun ahead => Or.inr (fun t htdead htloop => doomed_idle htdead htloop)
  cases hloop : s.loop with
  | none => exact doomed_idle hdead hloop
  | some loop =>
      rcases loop with ⟨it, called, listData⟩
      cases it with
      | dangling => exact doomed_of_dangling hloop rfl
      | node j =>
          cases called with
          | false => exact doomed_before _ rfl hdead hloop (hreaches _)
          | true =>
              refine doomed_of_increment hdead hloop rfl rfl (hreaches _) ?_
              intro t i htdead htloop _ htreaches
              exact doomed_before _ rfl htdead htloop htreaches

/-- A destruction that leaves an entry behind, or takes the loop's entry away. -/
theorem doomed_of_destruct {s : ListenState pointer} (hinv : s.ListenInv) {this : pointer}
    {value : ListenAdapter} (hvalue : s.adapters this = some value)
    (hlisted : ¬ s.Unlisted (.destruct this)) : (s.destruct this value).Doomed := by
  by_cases hlast : forall k : uint32_t,
      s.m_mListen[k]? = some this -> k = value.m_iActorId
  · have hat : exists loop, s.loop = some loop ∧ loop.it = .node value.m_iActorId := by
      by_contra hnone
      apply hlisted
      intro other hother
      rw [hvalue] at hother
      cases hother
      exact ⟨hlast, fun loop hloop hit => hnone ⟨loop, hloop, hit⟩⟩
    rcases hat with ⟨loop, hloop, hit⟩
    rcases hinv.placed loop hloop with ⟨k, pListen, hplace, hentry⟩
    have hk : k = value.m_iActorId := by
      rw [hit] at hplace
      cases hplace
      rfl
    rw [hk] at hentry
    have hne : value.m_iActorId ≠ 0 := by
      intro hzero
      rw [hzero, hinv.numbered] at hentry
      cases hentry
    have hdangling : (s.destruct this value).loop = some { loop with it := .dangling } := by
      unfold destruct RemoveListen
      rw [if_pos hne, hentry]
      dsimp only [setAdapter]
      rw [hloop, Option.map_some]
      unfold MapIterator.erased
      rw [if_pos hit]
    exact doomed_of_dangling hdangling rfl
  · rcases Classical.not_forall.mp hlast with ⟨k, hk⟩
    rcases Classical.not_imp.mp hk with ⟨hentry, hne⟩
    refine doomed_of_deadEntry (k := k) ⟨this, ?_, ?_⟩
    · unfold destruct
      split
      · show (s.RemoveListen value.m_iActorId).m_mListen[k]? = some this
        rw [removeListen_entry, if_neg (fun h => hne h.symm)]
        exact hentry
      · exact hentry
    · unfold destruct
      split
      · exact Function.update_self _ _ _
      · exact Function.update_self _ _ _

/-!
# Runs
-/

/-- In a run that destroys only adapters without an entry that stays, and not while the loop
is at the one that goes, every call is for a living adapter.  Any other destruction lets
the loop get to a call for one that is not. -/
theorem callsLiving_of_unlisted {calls : List (ListenCall pointer)} {t : ListenState pointer}
    (hrun : Run step start calls = some t) (hunlisted : AllSteps step Unlisted start calls) :
    AllSteps step CallsLiving start calls ∧
      forall this next, step t (.destruct this) = some next ->
        ¬ t.Unlisted (.destruct this) -> next.Doomed := by
  have hinv : t.ListenInv :=
    run_invariant (fun s call u => listenInv_step) listenInv_start hunlisted hrun
  constructor
  · apply allSteps_of_invariant (fun s call u => listenInv_step) _ listenInv_start hunlisted
    intro s call hs _
    exact callsLiving_of_inv hs call
  · intro this next hstep hlisted
    rcases Option.map_eq_some_iff.mp hstep with ⟨value, hvalue, hEq⟩
    cases hEq
    exact doomed_of_destruct hinv hvalue hlisted

def oneNumber : List (ListenCall Nat) :=
  [.construct 0, .init 0 7, .destruct 0, .startLoop [noChange]]

theorem oneNumber_living : AllSteps step CallsLiving start oneNumber := by
  have hrun : exists t, Run step start oneNumber = some t := ⟨_, rfl⟩
  rcases hrun with ⟨t, hrun⟩
  refine (callsLiving_of_unlisted hrun ?_).left
  refine ⟨trivial, fun constructed hconstruct => ⟨trivial, fun initialised hinit => ?_⟩⟩
  cases hconstruct
  cases hinit
  refine ⟨?_, fun _ _ => ⟨trivial, fun _ _ => trivial⟩⟩
  intro value hvalue
  cases hvalue
  refine ⟨?_, fun loop hloop => by cases hloop⟩
  intro iActorID hentry
  by_contra hne
  have hgone := (addListen_entry _ 7 iActorID 0).symm.trans hentry
  rw [if_neg (fun hsame => hne hsame.symm)] at hgone
  cases hgone

/-- And one that got another number; its first entry is still there. -/
def twoNumbers : List (ListenCall Nat) :=
  [.construct 0, .init 0 7, .init 0 8, .destruct 0, .startLoop [noChange]]

theorem twoNumbers_dead :
    exists t : ListenState Nat, Run step start (twoNumbers ++ [.addSyncData]) = some t ∧
      ¬ AllSteps step CallsLiving start (twoNumbers ++ [.addSyncData]) := by
  have hcheck : (Run step start twoNumbers).any (fun s =>
      decide (s.m_mListen[(7 : uint32_t)]? = some 0 ∧ (s.adapters 0).isNone ∧
        s.loop.map (fun loop => (loop.it, loop.called)) = some (.node 7, false))) = true := by
    decide +kernel
  rcases (Option.any_eq_true _ _).mp hcheck with ⟨s, hrun, hs⟩
  rcases of_decide_eq_true hs with ⟨hentry, hnone, hat⟩
  rcases Option.map_eq_some_iff.mp hat with ⟨loop, hloop, hplace⟩
  have hdead : s.DeadEntry 7 := ⟨0, hentry, Option.isNone_iff_eq_none.mp hnone⟩
  have hstep := step_addSyncData hloop (congrArg Prod.snd hplace)
  refine ⟨_, (run_append _ hrun).trans (run_cons_of_step [] hstep), ?_⟩
  intro hcalls
  exact not_callsLiving_of_deadEntry hdead hloop (congrArg Prod.fst hplace)
    (allSteps_after hcalls hrun).left

end ListenState
end DataHandle
end GMServer
