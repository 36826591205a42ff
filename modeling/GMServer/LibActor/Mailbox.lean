import GMServer.LibActor.Address

/-!
# Mailboxes

The data of one `Mailbox` and the critical sections its member functions run on
it.  An `IMessagePtr` may be null, so a queued message is an `Option`.  Which
thread holds `m_ActorMutex` is not data of the mailbox but of the system of
threads around it, and is kept there.
-/

namespace GMServer
namespace LibActor

/-- A pooled name, equal to another one exactly when the pointers are. -/
structure Name where
  mValue : Nat
  deriving DecidableEq, Repr

structure Mailbox (Actor Message : Type) where
  m_pScheduler : Option Nat
  m_listRecive : List (Option Message)
  m_pActor : Option Actor
  m_listHandle : List (Option Message)
  m_nUnHanle : uint32_t
  m_Name : Name
  m_Address : Address
  deriving DecidableEq, Repr

namespace Mailbox

variable {Actor Message : Type}

def new : Mailbox Actor Message :=
  { m_pScheduler := none,
    m_listRecive := [],
    m_pActor := none,
    m_listHandle := [],
    m_nUnHanle := 0,
    m_Name := { mValue := 0 },
    m_Address := Address.ofUint32 0 }

/-!
# Registration

`IsUsed` compares with the null pointer the way the source does.
-/

def SetName (box : Mailbox Actor Message) (name : Name) :
    Mailbox Actor Message :=
  { box with m_Name := name }

def SetAddress (box : Mailbox Actor Message) (index : Address) :
    Mailbox Actor Message :=
  { box with m_Address := index }

def SetScheduler (box : Mailbox Actor Message) (pScheduler : Option Nat) :
    Mailbox Actor Message :=
  { box with m_pScheduler := pScheduler }

def RegisterActor (box : Mailbox Actor Message) (pActor : Actor) :
    Mailbox Actor Message :=
  { box with m_pActor := some pActor }

def UnRegisterActor (box : Mailbox Actor Message) : Mailbox Actor Message :=
  { box with m_pActor := none, m_listRecive := [] }

def IsUsed (box : Mailbox Actor Message) : Bool := box.m_pActor.isNone

def IsHandling (box : Mailbox Actor Message) : Bool := box.m_nUnHanle != 0

/-!
# Receiving

`PushMsg` runs under `m_ReciveMutex`.  Its outcome carries the value returned
and whether the mailbox was handed to `Schedule`, which happens only when the
queue has just reached length one.
-/

structure PushOutcome (Actor Message : Type) where
  box : Mailbox Actor Message
  scheduled : Bool
  accepted : Bool
  deriving DecidableEq, Repr

def PushMsg (box : Mailbox Actor Message) (pMsg : Option Message) :
    Except Fault (PushOutcome Actor Message) :=
  if box.m_pScheduler = none then
    .error .assertFailed
  else
    match box.m_pActor with
    | none => .ok { box := box, scheduled := false, accepted := false }
    | some _ =>
        let pushed := { box with m_listRecive := box.m_listRecive ++ [pMsg] }
        .ok
          { box := pushed,
            scheduled := pushed.m_listRecive.length == 1,
            accepted := true }

/-!
# Handling

The pieces of `Process` between which other threads may run.  `m_nUnHanle` is
an unsigned 32-bit counter: the size of the list is truncated when it is stored
and the decrement wraps.
-/

def swapLists (box : Mailbox Actor Message) : Mailbox Actor Message :=
  { box with
    m_listHandle := box.m_listRecive,
    m_listRecive := box.m_listHandle }

def storeUnHanle (box : Mailbox Actor Message) : Mailbox Actor Message :=
  { box with m_nUnHanle := BitVec.ofNat 32 box.m_listHandle.length }

def popHandled (box : Mailbox Actor Message) : Mailbox Actor Message :=
  { box with
    m_listHandle := box.m_listHandle.tail,
    m_nUnHanle := box.m_nUnHanle - 1 }

/-!
# Field lemmas
-/

section Fields

variable (box : Mailbox Actor Message) (pActor : Actor)

@[simp] theorem registerActor_m_pActor :
    (box.RegisterActor pActor).m_pActor = some pActor := rfl

@[simp] theorem registerActor_m_listRecive :
    (box.RegisterActor pActor).m_listRecive = box.m_listRecive := rfl

@[simp] theorem registerActor_m_listHandle :
    (box.RegisterActor pActor).m_listHandle = box.m_listHandle := rfl

@[simp] theorem registerActor_m_nUnHanle :
    (box.RegisterActor pActor).m_nUnHanle = box.m_nUnHanle := rfl

@[simp] theorem unRegisterActor_m_pActor : box.UnRegisterActor.m_pActor = none := rfl

@[simp] theorem unRegisterActor_m_listRecive :
    box.UnRegisterActor.m_listRecive = [] := rfl

@[simp] theorem swapLists_m_pActor : box.swapLists.m_pActor = box.m_pActor := rfl

@[simp] theorem swapLists_m_listRecive :
    box.swapLists.m_listRecive = box.m_listHandle := rfl

@[simp] theorem swapLists_m_listHandle :
    box.swapLists.m_listHandle = box.m_listRecive := rfl

@[simp] theorem swapLists_m_nUnHanle :
    box.swapLists.m_nUnHanle = box.m_nUnHanle := rfl

@[simp] theorem storeUnHanle_m_pActor : box.storeUnHanle.m_pActor = box.m_pActor := rfl

@[simp] theorem storeUnHanle_m_listRecive :
    box.storeUnHanle.m_listRecive = box.m_listRecive := rfl

@[simp] theorem storeUnHanle_m_listHandle :
    box.storeUnHanle.m_listHandle = box.m_listHandle := rfl

@[simp] theorem storeUnHanle_m_nUnHanle :
    box.storeUnHanle.m_nUnHanle = BitVec.ofNat 32 box.m_listHandle.length := rfl

@[simp] theorem popHandled_m_pActor : box.popHandled.m_pActor = box.m_pActor := rfl

@[simp] theorem popHandled_m_listRecive :
    box.popHandled.m_listRecive = box.m_listRecive := rfl

@[simp] theorem popHandled_m_listHandle :
    box.popHandled.m_listHandle = box.m_listHandle.tail := rfl

@[simp] theorem popHandled_m_nUnHanle :
    box.popHandled.m_nUnHanle = box.m_nUnHanle - 1 := rfl

end Fields

theorem isHandling_eq_false_iff (box : Mailbox Actor Message) :
    box.IsHandling = false <-> box.m_nUnHanle = 0 := by
  simp [IsHandling]

/-- The counter follows the list through one handled message. -/
theorem popHandled_counts {box : Mailbox Actor Message}
    (hne : box.m_listHandle ≠ [])
    (hcount : box.m_nUnHanle = BitVec.ofNat 32 box.m_listHandle.length) :
    box.popHandled.m_nUnHanle =
      BitVec.ofNat 32 box.popHandled.m_listHandle.length := by
  cases hlist : box.m_listHandle with
  | nil =>
      exact absurd hlist hne
  | cons pMsg rest =>
      rw [popHandled_m_nUnHanle, popHandled_m_listHandle, hcount, hlist,
        List.length_cons, List.tail_cons, BitVec.ofNat_add]
      exact BitVec.add_sub_cancel _ _

/-!
# What one push does
-/

theorem pushMsg_cases {box : Mailbox Actor Message} {pMsg : Option Message}
    {out : PushOutcome Actor Message} (h : box.PushMsg pMsg = .ok out) :
    (box.m_pActor = none ∧
      out = { box := box, scheduled := false, accepted := false }) ∨
    (box.m_pActor ≠ none ∧
      out = { box := { box with m_listRecive := box.m_listRecive ++ [pMsg] },
              scheduled := (box.m_listRecive ++ [pMsg]).length == 1,
              accepted := true }) := by
  unfold PushMsg at h
  split at h
  · cases h
  · cases hactor : box.m_pActor with
    | none =>
        rw [hactor] at h
        cases h
        exact Or.inl ⟨rfl, rfl⟩
    | some pActor =>
        rw [hactor] at h
        cases h
        exact Or.inr ⟨by simp, rfl⟩

end Mailbox

end LibActor
end GMServer
