import GMServer.Library.Transition
import GMServer.LibActor.Framework

/-!
# Actors and their mailboxes

An `Actor` registers itself if it is constructed with the default address, and removes
whatever is in the mailbox of its address when it is destroyed.  Beside the framework the
state records which actors are alive and which of them were registered under which index.
-/

namespace GMServer
namespace LibActor

structure ActorState (Actor Message : Type) where
  framework : Framework Actor Message
  alive : List Actor
  registered : List (Actor × uint32_t)

inductive ActorCall (Actor : Type) where
  | construct (pActor : Actor) (name : Name) (address : Address)
  | destruct (pActor : Actor)
  deriving DecidableEq

namespace ActorState

open Transition

variable {Actor Message : Type}

def init (framework : Framework Actor Message) : ActorState Actor Message :=
  { framework := framework, alive := [], registered := [] }

variable [DecidableEq Actor]

/-- `m_Address(address)`. -/
def setAddress (framework : Framework Actor Message) (pActor : Actor) (address : Address) :
    Framework Actor Message :=
  { framework with actorAddress := Function.update framework.actorAddress pActor address }

/-- `Actor::Actor`. -/
def construct (s : ActorState Actor Message) (pActor : Actor) (name : Name)
    (address : Address) : Except Fault (ActorState Actor Message) :=
  let framework := setAddress s.framework pActor address
  if address = Address.ofUint32 0 then
    (framework.RegisterActor pActor name).map (fun registered =>
      { framework := registered.1,
        alive := pActor :: s.alive,
        registered := (pActor, registered.2) :: s.registered })
  else
    .ok { s with framework := framework, alive := pActor :: s.alive }

/-- `Actor::~Actor`. -/
def destruct (s : ActorState Actor Message) (pActor : Actor) :
    Except Fault (ActorState Actor Message) :=
  (s.framework.UnRegisterActor pActor).map (fun framework =>
    { framework := framework,
      alive := s.alive.filter (· ≠ pActor),
      registered := s.registered.filter (·.1 ≠ pActor) })

/-- A new object is where no living one is; only living ones are destroyed. -/
def step (s : ActorState Actor Message) : ActorCall Actor -> Option (ActorState Actor Message)
  | .construct pActor name address =>
      if pActor ∈ s.alive then none else (s.construct pActor name address).toOption
  | .destruct pActor => if pActor ∈ s.alive then (s.destruct pActor).toOption else none

/-!
# What destruction may do
-/

/-- The actor registered in the mailbox. -/
def actorAt (s : ActorState Actor Message) (index : uint32_t) : Option Actor :=
  match s.framework.m_MailBoxes.GetEntry index with
  | .error _ => none
  | .ok box => box.m_pActor

/-- No access behind the pages of the directory, and no mailbox loses its actor but by that
actor's destruction. -/
def StepSafe (s : ActorState Actor Message) (call : ActorCall Actor) : Prop :=
  (forall pActor, call = .destruct pActor -> pActor ∈ s.alive ->
    exists t, s.destruct pActor = .ok t) ∧
  forall t, step s call = some t -> forall index pActor,
    s.actorAt index = some pActor -> t.actorAt index = none -> call = .destruct pActor

/-- The actor that is destroyed was registered; or an index of the page that its address
names has been issued, and no living actor was registered under its index. -/
def Harmless (s : ActorState Actor Message) : ActorCall Actor -> Prop
  | .construct _ _ _ => True
  | .destruct pActor =>
      let index := (s.framework.actorAddress pActor).entryIndex
      pActor ∈ s.alive -> (pActor, index) ∈ s.registered ∨
        index.toNat / ENTRIES_PER_PAGE * ENTRIES_PER_PAGE <
            s.framework.m_MailBoxes.m_iNextIndex.toNat ∧
          forall entry, entry ∈ s.registered -> entry.2 ≠ index

/-!
# The invariant
-/

omit [DecidableEq Actor] in
structure ActorsInv (s : ActorState Actor Message) : Prop where
  positive : 0 < s.framework.m_MailBoxes.m_iNextIndex.toNat
  bound : s.framework.m_MailBoxes.m_iNextIndex.toNat ≤ MAX_PAGES * ENTRIES_PER_PAGE
  paged : forall index : uint32_t, index.toNat < MAX_PAGES * ENTRIES_PER_PAGE ->
    (s.framework.m_MailBoxes.Paged index <->
      index.toNat / ENTRIES_PER_PAGE * ENTRIES_PER_PAGE <
        s.framework.m_MailBoxes.m_iNextIndex.toNat)
  fresh : forall index box, s.framework.m_MailBoxes.m_iNextIndex.toNat ≤ index.toNat ->
    s.framework.m_MailBoxes.GetEntry index = .ok box -> box = Mailbox.new
  owner : forall index pActor, s.actorAt index = some pActor ->
    (pActor, index) ∈ s.registered
  present : forall pActor index, (pActor, index) ∈ s.registered ->
    pActor ∈ s.alive ∧ (s.framework.actorAddress pActor).entryIndex = index ∧
      s.actorAt index = some pActor

/-!
# One construction
-/

/-- What a registration does to the framework. -/
structure Registers (f f' : Framework Actor Message) (pActor : Actor) : Prop where
  left : f.m_MailBoxes.m_iNextIndex.toNat < MAX_PAGES * ENTRIES_PER_PAGE
  next : f'.m_MailBoxes.m_iNextIndex.toNat = f.m_MailBoxes.m_iNextIndex.toNat + 1
  paged : forall index, f'.m_MailBoxes.Paged index <-> f.m_MailBoxes.Paged index ∨
    index.toNat / ENTRIES_PER_PAGE = f.m_MailBoxes.m_iNextIndex.toNat / ENTRIES_PER_PAGE
  entry : exists box, f'.m_MailBoxes.GetEntry f.m_MailBoxes.m_iNextIndex = .ok box ∧
    box.m_pActor = some pActor
  kept : forall index box, index ≠ f.m_MailBoxes.m_iNextIndex ->
    f.m_MailBoxes.GetEntry index = .ok box -> f'.m_MailBoxes.GetEntry index = .ok box
  origin : forall index box, index ≠ f.m_MailBoxes.m_iNextIndex ->
    f'.m_MailBoxes.GetEntry index = .ok box ->
      f.m_MailBoxes.GetEntry index = .ok box ∨ box = Mailbox.new
  told : (f'.actorAddress pActor).entryIndex = f.m_MailBoxes.m_iNextIndex
  others : forall other, other ≠ pActor -> f'.actorAddress other = f.actorAddress other

theorem registers_of_ok {f f' : Framework Actor Message} {pActor : Actor} {name : Name}
    {index : uint32_t} (hregister : f.RegisterActor pActor name = .ok (f', index)) :
    index = f.m_MailBoxes.m_iNextIndex ∧ Registers f f' pActor := by
  have hleft : f.m_MailBoxes.m_iNextIndex.toNat < MAX_PAGES * ENTRIES_PER_PAGE := by
    by_contra hfull
    exact Framework.registerActor_exhausted (Nat.le_of_not_lt hfull) pActor name _ hregister
  rcases Directory.allocate_fresh hleft with
    ⟨mailBoxes, halloc, hnext, ⟨fresh, hfresh⟩, hkept, horigin⟩
  have hpaged := Directory.paged_allocate hleft halloc
  unfold Framework.RegisterActor at hregister
  rw [halloc] at hregister
  dsimp only at hregister
  split at hregister
  · cases hregister
  · rw [hfresh] at hregister
    dsimp only at hregister
    split at hregister
    · cases hregister
    · split at hregister
      · cases hregister
      · cases hregister
        refine ⟨rfl, hleft, ?_, ?_, ?_, ?_, ?_, ?_, ?_⟩
        · rw [Framework.install_m_iNextIndex]
          exact hnext
        · intro i
          rw [← hpaged i]
          exact Directory.paged_setEntry _ _ _ i
        · exact Framework.install_getEntry_self
            (f := { f with m_MailBoxes := mailBoxes }) hfresh fresh pActor name
        · intro i box hne hget
          rw [Framework.install_getEntry_of_ne _ hne]
          exact hkept i box hget
        · intro i box hne hget
          rw [Framework.install_getEntry_of_ne _ hne] at hget
          exact horigin i box hget
        · exact Framework.install_entryIndex_self _ _ hleft pActor name
        · intro other hne
          exact Framework.install_actorAddress_of_ne _ _ _ hne name

omit [DecidableEq Actor] in
theorem actorAt_eq_some {s : ActorState Actor Message} {index : uint32_t} {pActor : Actor} :
    s.actorAt index = some pActor <->
      exists box, s.framework.m_MailBoxes.GetEntry index = .ok box ∧
        box.m_pActor = some pActor := by
  unfold actorAt
  cases hget : s.framework.m_MailBoxes.GetEntry index with
  | error fault =>
      constructor
      · intro h
        cases h
      · intro h
        rcases h with ⟨box, hbox, _⟩
        cases hbox
  | ok box =>
      constructor
      · intro h
        exact ⟨box, rfl, h⟩
      · intro h
        rcases h with ⟨other, hother, hactor⟩
        cases hother
        exact hactor

omit [DecidableEq Actor] in
/-- Everyone else is where he was. -/
theorem actorAt_registers {s t : ActorState Actor Message} {pActor : Actor}
    (h : Registers s.framework t.framework pActor) {index : uint32_t}
    (hne : index ≠ s.framework.m_MailBoxes.m_iNextIndex) (other : Actor) :
    t.actorAt index = some other <-> s.actorAt index = some other := by
  rw [actorAt_eq_some, actorAt_eq_some]
  constructor
  · intro hafter
    rcases hafter with ⟨box, hget, hactor⟩
    rcases h.origin index box hne hget with hold | hnew
    · exact ⟨box, hold, hactor⟩
    · rw [hnew] at hactor
      cases hactor
  · intro hbefore
    rcases hbefore with ⟨box, hget, hactor⟩
    exact ⟨box, h.kept index box hne hget, hactor⟩

omit [DecidableEq Actor] in
/-- Before an index is issued nobody is there. -/
theorem actorAt_fresh {s : ActorState Actor Message} (hinv : ActorsInv s) {index : uint32_t}
    (hle : s.framework.m_MailBoxes.m_iNextIndex.toNat ≤ index.toNat) (pActor : Actor) :
    s.actorAt index ≠ some pActor := by
  intro h
  rcases actorAt_eq_some.mp h with ⟨box, hget, hactor⟩
  rw [hinv.fresh index box hle hget] at hactor
  cases hactor

theorem step_construct {s t : ActorState Actor Message} {pActor : Actor} {name : Name}
    {address : Address} (hstep : step s (.construct pActor name address) = some t) :
    pActor ∉ s.alive ∧
      ((exists index, (setAddress s.framework pActor address).RegisterActor pActor name =
            .ok (t.framework, index) ∧ t.alive = pActor :: s.alive ∧
            t.registered = (pActor, index) :: s.registered) ∨
        t = { s with
          framework := setAddress s.framework pActor address,
          alive := pActor :: s.alive }) := by
  unfold step at hstep
  dsimp only at hstep
  split at hstep
  · cases hstep
  · rename_i hnew
    refine ⟨hnew, ?_⟩
    unfold construct at hstep
    dsimp only at hstep
    split at hstep
    · left
      cases hresult : (setAddress s.framework pActor address).RegisterActor pActor name with
      | error fault =>
          rw [hresult] at hstep
          cases hstep
      | ok registered =>
          rw [hresult] at hstep
          cases hstep
          exact ⟨registered.2, rfl, rfl, rfl⟩
    · cases hstep
      exact Or.inr rfl

/-- An actor that is told an address and not registered. -/
theorem actorsInv_addressed {s : ActorState Actor Message} {pActor : Actor} (hinv : ActorsInv s)
    (hnew : pActor ∉ s.alive) (address : Address) :
    ActorsInv { s with
      framework := setAddress s.framework pActor address,
      alive := pActor :: s.alive } := by
  constructor
  case positive => exact hinv.positive
  case bound => exact hinv.bound
  case paged => exact hinv.paged
  case fresh => exact hinv.fresh
  case owner => exact hinv.owner
  case present =>
    intro other i hmem
    rcases hinv.present other i hmem with ⟨hother, htold, hat⟩
    have hne : other ≠ pActor := fun hEq => hnew (hEq ▸ hother)
    refine ⟨List.mem_cons_of_mem _ hother, ?_, hat⟩
    rw [← htold]
    exact congrArg Address.entryIndex (Function.update_of_ne hne _ _)

omit [DecidableEq Actor] in
theorem actorsInv_register {s t : ActorState Actor Message} {pActor : Actor}
    (hinv : ActorsInv s) (hregisters : Registers s.framework t.framework pActor)
    (halive : t.alive = s.alive) (hpresent : pActor ∈ s.alive)
    (hfree : forall i, (pActor, i) ∉ s.registered)
    (hregistered : t.registered =
      (pActor, s.framework.m_MailBoxes.m_iNextIndex) :: s.registered) : ActorsInv t := by
  have hnext := hregisters.next
  have hleft : s.framework.m_MailBoxes.m_iNextIndex.toNat < 8192 := hregisters.left
  have hhere : t.actorAt s.framework.m_MailBoxes.m_iNextIndex = some pActor :=
    actorAt_eq_some.mpr hregisters.entry
  have hissued : forall {b : Actor} {i : uint32_t}, (b, i) ∈ s.registered ->
      i ≠ s.framework.m_MailBoxes.m_iNextIndex := by
    intro b i hmem hEq
    exact actorAt_fresh hinv (Nat.le_of_eq (by rw [hEq])) b (hinv.present b i hmem).right.right
  constructor
  case positive => omega
  case bound =>
    show _ ≤ 8192
    omega
  case paged =>
    intro i hi
    rw [hregisters.paged i, hinv.paged i hi, hnext]
    unfold ENTRIES_PER_PAGE
    omega
  case fresh =>
    intro i box hle hget
    have hne : i ≠ s.framework.m_MailBoxes.m_iNextIndex := by
      intro hEq
      rw [hEq, hnext] at hle
      omega
    rcases hregisters.origin i box hne hget with hold | hfresh
    · exact hinv.fresh i box (by omega) hold
    · exact hfresh
  case owner =>
    intro i other hat
    rw [hregistered]
    by_cases hEq : i = s.framework.m_MailBoxes.m_iNextIndex
    · rw [hEq, hhere] at hat
      cases hat
      rw [hEq]
      exact List.mem_cons_self
    · exact List.mem_cons_of_mem _ (hinv.owner i other
        ((actorAt_registers hregisters hEq other).mp hat))
  case present =>
    intro other i hmem
    rw [hregistered] at hmem
    rw [halive]
    rcases List.mem_cons.mp hmem with hfirst | hlater
    · cases hfirst
      exact ⟨hpresent, hregisters.told, hhere⟩
    · rcases hinv.present other i hlater with ⟨hother, htold, hat⟩
      have hne : other ≠ pActor := fun hEq => hfree i (hEq ▸ hlater)
      rw [hregisters.others other hne]
      exact ⟨hother, htold, (actorAt_registers hregisters (hissued hlater) other).mpr hat⟩

theorem actorsInv_construct {s t : ActorState Actor Message} {pActor : Actor} {name : Name}
    {address : Address} (hinv : ActorsInv s)
    (hstep : step s (.construct pActor name address) = some t) : ActorsInv t := by
  rcases step_construct hstep with ⟨hnew, ⟨index, hregister, halive, hregistered⟩ | hplain⟩
  · rcases registers_of_ok hregister with ⟨hindex, hregisters⟩
    rw [hindex] at hregistered
    have hfree : forall i, (pActor, i) ∉ s.registered :=
      fun i hmem => hnew (hinv.present pActor i hmem).left
    exact actorsInv_register (actorsInv_addressed hinv hnew address) hregisters halive
      List.mem_cons_self hfree hregistered
  · rw [hplain]
    exact actorsInv_addressed hinv hnew address

/-!
# One destruction
-/

theorem entryIndex_lt (address : Address) :
    address.entryIndex.toNat < MAX_PAGES * ENTRIES_PER_PAGE := by
  unfold Address.entryIndex
  rw [BitVec.toNat_setWidth]
  show _ < 8192
  have hlt := address.m_Index.isLt
  omega

/-- What a destruction does: the mailbox of the address is emptied. -/
structure Removes (s t : ActorState Actor Message) (pActor : Actor) (index : uint32_t) :
    Prop where
  alive : t.alive = s.alive.filter (· ≠ pActor)
  registered : t.registered = s.registered.filter (·.1 ≠ pActor)
  told : t.framework.actorAddress = s.framework.actorAddress
  next : t.framework.m_MailBoxes.m_iNextIndex = s.framework.m_MailBoxes.m_iNextIndex
  paged : forall i, t.framework.m_MailBoxes.Paged i <-> s.framework.m_MailBoxes.Paged i
  others : forall i, i ≠ index ->
    t.framework.m_MailBoxes.GetEntry i = s.framework.m_MailBoxes.GetEntry i
  entry : exists box, s.framework.m_MailBoxes.GetEntry index = .ok box ∧
    t.framework.m_MailBoxes.GetEntry index = .ok box.UnRegisterActor

theorem destruct_spec {s : ActorState Actor Message} {pActor : Actor} {index : uint32_t}
    (hindex : (s.framework.actorAddress pActor).entryIndex = index) :
    ((exists t, s.destruct pActor = .ok t) <-> s.framework.m_MailBoxes.Paged index) ∧
      forall t, s.destruct pActor = .ok t -> Removes s t pActor index := by
  unfold destruct Framework.UnRegisterActor
  rw [hindex]
  dsimp only
  cases hget : s.framework.m_MailBoxes.GetEntry index with
  | error fault =>
      constructor
      · constructor
        · intro h
          rcases h with ⟨t, ht⟩
          cases ht
        · intro h
          rcases h with ⟨box, hbox⟩
          rw [hget] at hbox
          cases hbox
      · intro t ht
        cases ht
  | ok box =>
      constructor
      · exact iff_of_true ⟨_, rfl⟩ ⟨box, hget⟩
      · intro t ht
        cases ht
        constructor
        case alive => rfl
        case registered => rfl
        case told => rfl
        case next => exact Directory.setEntry_m_iNextIndex ..
        case paged => exact Directory.paged_setEntry _ _ _
        case others =>
          intro i hne
          exact Directory.getEntry_setEntry_of_ne hne _
        case entry => exact ⟨box, hget, Directory.getEntry_setEntry_self hget _⟩

omit [DecidableEq Actor] in
theorem fresh_unRegisterActor :
    (Mailbox.new : Mailbox Actor Message).UnRegisterActor = Mailbox.new := rfl

theorem Removes.emptied {s t : ActorState Actor Message} {pActor : Actor} {index : uint32_t}
    (h : Removes s t pActor index) : t.actorAt index = none := by
  rcases h.entry with ⟨box, _, hafter⟩
  unfold ActorState.actorAt
  rw [hafter]
  rfl

theorem Removes.actorAt {s t : ActorState Actor Message} {pActor : Actor} {index : uint32_t}
    (h : Removes s t pActor index) {i : uint32_t} (hne : i ≠ index) :
    t.actorAt i = s.actorAt i := by
  unfold ActorState.actorAt
  rw [h.others i hne]

theorem step_destruct {s t : ActorState Actor Message} {pActor : Actor}
    (hstep : step s (.destruct pActor) = some t) :
    pActor ∈ s.alive ∧
      Removes s t pActor (s.framework.actorAddress pActor).entryIndex := by
  unfold step at hstep
  dsimp only at hstep
  split at hstep
  · rename_i halive
    cases hresult : s.destruct pActor with
    | error fault =>
        rw [hresult] at hstep
        cases hstep
    | ok other =>
        rw [hresult] at hstep
        cases hstep
        exact ⟨halive, (destruct_spec rfl).right t hresult⟩
  · cases hstep

omit [DecidableEq Actor] in
/-- Whoever is registered where a harmless destruction removes is the actor destroyed. -/
theorem eq_of_harmless {s : ActorState Actor Message} {pActor other : Actor}
    (hinv : ActorsInv s) (hharmless : Harmless s (.destruct pActor)) (halive : pActor ∈ s.alive)
    (hregistered : (other, (s.framework.actorAddress pActor).entryIndex) ∈ s.registered) :
    other = pActor := by
  rcases hharmless halive with hown | ⟨_, hnobody⟩
  · have hthere := (hinv.present _ _ hown).right.right
    rw [(hinv.present _ _ hregistered).right.right] at hthere
    exact Option.some.inj hthere
  · exact absurd rfl (hnobody _ hregistered)

theorem actorsInv_destruct {s t : ActorState Actor Message} {pActor : Actor}
    (hinv : ActorsInv s) (hharmless : Harmless s (.destruct pActor))
    (hstep : step s (.destruct pActor) = some t) : ActorsInv t := by
  rcases step_destruct hstep with ⟨halive, hremoves⟩
  have hmem : forall {entry : Actor × uint32_t}, entry ∈ t.registered <->
      entry ∈ s.registered ∧ entry.1 ≠ pActor := by
    intro entry
    rw [hremoves.registered, List.mem_filter, decide_eq_true_eq]
  constructor
  case positive =>
    rw [hremoves.next]
    exact hinv.positive
  case bound =>
    rw [hremoves.next]
    exact hinv.bound
  case paged =>
    intro i hi
    rw [hremoves.paged, hremoves.next]
    exact hinv.paged i hi
  case fresh =>
    intro i box hle hget
    rw [hremoves.next] at hle
    by_cases hEq : i = (s.framework.actorAddress pActor).entryIndex
    · rcases hremoves.entry with ⟨old, hbefore, hafter⟩
      rw [hEq, hafter] at hget
      rw [← hEq] at hbefore
      rw [hinv.fresh i old hle hbefore, fresh_unRegisterActor] at hget
      exact (Except.ok.inj hget).symm
    · rw [hremoves.others i hEq] at hget
      exact hinv.fresh i box hle hget
  case owner =>
    intro i other hat
    have hne : i ≠ (s.framework.actorAddress pActor).entryIndex := by
      intro hEq
      rw [hEq, hremoves.emptied] at hat
      cases hat
    rw [hremoves.actorAt hne] at hat
    have hregistered := hinv.owner i other hat
    refine hmem.mpr ⟨hregistered, ?_⟩
    intro hEq
    exact hne (hEq ▸ (hinv.present other i hregistered).right.left.symm)
  case present =>
    intro other i hentry
    rcases hmem.mp hentry with ⟨hregistered, hother⟩
    rcases hinv.present other i hregistered with ⟨hliving, htold, hat⟩
    have hne : i ≠ (s.framework.actorAddress pActor).entryIndex := by
      intro hEq
      rw [hEq] at hregistered
      exact hother (eq_of_harmless hinv hharmless halive hregistered)
    refine ⟨?_, ?_, ?_⟩
    · rw [hremoves.alive, List.mem_filter, decide_eq_true_eq]
      exact ⟨hliving, hother⟩
    · rw [hremoves.told]
      exact htold
    · rw [hremoves.actorAt hne]
      exact hat

/-!
# When destruction is safe
-/

omit [DecidableEq Actor] in
theorem actorsInv_init {pScheduler : Option Nat} {framework : Framework Actor Message}
    (hnew : Framework.new pScheduler = .ok framework) : ActorsInv (init framework) := by
  have hleft : (Directory.new : Directory (Mailbox Actor Message)).m_iNextIndex.toNat <
      MAX_PAGES * ENTRIES_PER_PAGE := by
    show (0 : uint32_t).toNat < MAX_PAGES * ENTRIES_PER_PAGE
    decide
  rcases Directory.allocate_fresh hleft with ⟨mailBoxes, halloc, hnext, _, _, hold⟩
  have hpaged := Directory.paged_allocate hleft halloc
  have hone : mailBoxes.m_iNextIndex.toNat = 1 := hnext
  have hnopage : forall i, ¬ (Directory.new : Directory (Mailbox Actor Message)).Paged i := by
    intro i h
    rcases (Directory.paged_iff _ _).mp h with ⟨_, hsome⟩
    exact hsome rfl
  have hbox : forall i (box : Mailbox Actor Message),
      mailBoxes.GetEntry i = .ok box -> box = Mailbox.new := by
    intro i box hget
    exact (hold i box hget).resolve_left (fun hbefore => hnopage i ⟨box, hbefore⟩)
  unfold Framework.new at hnew
  rw [halloc] at hnew
  cases hnew
  constructor
  case positive =>
    show 0 < mailBoxes.m_iNextIndex.toNat
    omega
  case bound =>
    show mailBoxes.m_iNextIndex.toNat ≤ 8192
    omega
  case paged =>
    intro i hi
    show mailBoxes.Paged i <-> _ < mailBoxes.m_iNextIndex.toNat
    rw [hpaged i, or_iff_right (hnopage i), hone]
    show i.toNat / 256 = 0 / 256 <-> i.toNat / 256 * 256 < 1
    omega
  case fresh => exact fun i box _ hget => hbox i box hget
  case owner =>
    intro i pActor hat
    rcases actorAt_eq_some.mp hat with ⟨box, hget, hactor⟩
    rw [hbox i box hget] at hactor
    cases hactor
  case present => exact fun _ _ hmem => absurd hmem List.not_mem_nil

/-- Construction takes a new index, so no registration is lost. -/
theorem stepSafe_construct {s : ActorState Actor Message} (hinv : ActorsInv s) (pActor : Actor)
    (name : Name) (address : Address) : StepSafe s (.construct pActor name address) := by
  constructor
  · intro other hcall
    cases hcall
  · intro t hstep index other hbefore hafter
    rcases step_construct hstep with ⟨_, ⟨issued, hregister, _, _⟩ | hplain⟩
    · have hregisters := (registers_of_ok hregister).right
      have hne : index ≠ s.framework.m_MailBoxes.m_iNextIndex := by
        intro hEq
        exact actorAt_fresh hinv (Nat.le_of_eq (by rw [hEq])) other hbefore
      have hkept := (actorAt_registers (s := { s with
        framework := setAddress s.framework pActor address }) hregisters hne other).mpr hbefore
      rw [hafter] at hkept
      cases hkept
    · rw [hplain] at hafter
      have hkept : s.actorAt index = none := hafter
      rw [hbefore] at hkept
      cases hkept

theorem harmless_of_stepSafe {s : ActorState Actor Message} {pActor : Actor} (hinv : ActorsInv s)
    (hsafe : StepSafe s (.destruct pActor)) : Harmless s (.destruct pActor) := by
  intro halive
  rcases destruct_spec (s := s) (Eq.refl (s.framework.actorAddress pActor).entryIndex) with
    ⟨hpage, hremoves⟩
  have hpaged := hinv.paged _ (entryIndex_lt (s.framework.actorAddress pActor))
  rcases hsafe.left pActor rfl halive with ⟨t, ht⟩
  have hstep : step s (.destruct pActor) = some t := by
    unfold step
    dsimp only
    rw [if_pos halive, ht]
    rfl
  by_cases hown : (pActor, (s.framework.actorAddress pActor).entryIndex) ∈ s.registered
  · exact Or.inl hown
  · refine Or.inr ⟨hpaged.mp (hpage.mp ⟨t, ht⟩), ?_⟩
    intro entry hentry hEq
    -- the actor registered there would lose its mailbox
    have hat := (hinv.present entry.1 entry.2 hentry).right.right
    rw [hEq] at hat
    have hcall := hsafe.right t hstep _ entry.1 hat (hremoves t ht).emptied
    cases hcall
    exact hown (hEq ▸ hentry)

theorem stepSafe_of_harmless {s : ActorState Actor Message} {pActor : Actor} (hinv : ActorsInv s)
    (hharmless : Harmless s (.destruct pActor)) : StepSafe s (.destruct pActor) := by
  have hpage := (destruct_spec (s := s)
    (Eq.refl (s.framework.actorAddress pActor).entryIndex)).left
  have hpaged := hinv.paged _ (entryIndex_lt (s.framework.actorAddress pActor))
  constructor
  · intro other hcall halive
    cases hcall
    apply hpage.mpr
    rcases hharmless halive with hown | ⟨hissued, _⟩
    · rcases actorAt_eq_some.mp (hinv.present _ _ hown).right.right with ⟨box, hget, _⟩
      exact ⟨box, hget⟩
    · exact hpaged.mpr hissued
  · intro t hstep index other hbefore hafter
    rcases step_destruct hstep with ⟨halive, hemptied⟩
    by_cases hindex : index = (s.framework.actorAddress pActor).entryIndex
    · have hregistered := hinv.owner index other hbefore
      rw [hindex] at hregistered
      rw [eq_of_harmless hinv hharmless halive hregistered]
    · rw [hemptied.actorAt hindex, hbefore] at hafter
      cases hafter

theorem stepSafe_iff {s : ActorState Actor Message} (hinv : ActorsInv s)
    (call : ActorCall Actor) : StepSafe s call <-> Harmless s call := by
  cases call with
  | construct pActor name address =>
      exact iff_of_true (stepSafe_construct hinv pActor name address) trivial
  | destruct pActor => exact ⟨harmless_of_stepSafe hinv, stepSafe_of_harmless hinv⟩

theorem actorsInv_step {s t : ActorState Actor Message} {call : ActorCall Actor}
    (hinv : ActorsInv s) (hharmless : Harmless s call) (hstep : step s call = some t) :
    ActorsInv t := by
  cases call with
  | construct pActor name address => exact actorsInv_construct hinv hstep
  | destruct pActor => exact actorsInv_destruct hinv hharmless hstep

/-- On a new framework exactly the runs in which every destruction is harmless are safe. -/
theorem destruction_safe_iff (pScheduler : Option Nat) :
    exists framework : Framework Actor Message,
      Framework.new pScheduler = .ok framework ∧
        forall calls : List (ActorCall Actor),
          AllSteps step StepSafe (init framework) calls <->
            AllSteps step Harmless (init framework) calls := by
  rcases @Framework.new_spec Actor Message pScheduler with ⟨framework, hnew, _⟩
  have hinit := actorsInv_init hnew
  refine ⟨framework, hnew, ?_⟩
  intro calls
  constructor
  · apply allSteps_of_invariant _ _ hinit
    · intro s call t hinv hsafe
      exact actorsInv_step hinv ((stepSafe_iff hinv call).mp hsafe)
    · exact fun s call hinv => (stepSafe_iff hinv call).mp
  · apply allSteps_of_invariant (fun s call t hinv => actorsInv_step hinv) _ hinit
    exact fun s call hinv => (stepSafe_iff hinv call).mpr

/-!
# An actor that was told its address

It is given the index of the one that is registered.
-/

def twoActors : List (ActorCall Nat) :=
  [.construct 0 { mValue := 0 } (Address.ofUint32 0),
    .construct 1 { mValue := 0 } (Address.ofBrief 0 1)]

theorem twoActors_run :
    exists (framework : Framework Nat Nat) (s : ActorState Nat Nat),
      Framework.new (some 1) = .ok framework ∧ Run step (init framework) twoActors = some s ∧
        s.registered = [(0, 1)] ∧ s.alive = [1, 0] ∧
        (s.framework.actorAddress 1).entryIndex = 1 := by
  rcases @Framework.new_spec Nat Nat (some 1) with ⟨framework, hnew, _⟩
  have hcheck : ((Framework.new (some 1)).toOption.bind (fun framework : Framework Nat Nat =>
      Run step (init framework) twoActors)).any (fun s =>
        decide (s.registered = [(0, 1)] ∧ s.alive = [1, 0] ∧
          (s.framework.actorAddress 1).entryIndex = 1)) = true := by
    decide +kernel
  rw [hnew] at hcheck
  rcases (Option.any_eq_true _ _).mp hcheck with ⟨s, hrun, hs⟩
  exact ⟨framework, s, hnew, hrun, of_decide_eq_true hs⟩

/-- Its destruction takes the mailbox from the other. -/
theorem borrowedAddress_unsafe :
    exists framework : Framework Nat Nat, Framework.new (some 1) = .ok framework ∧
      ¬ AllSteps step StepSafe (init framework) (twoActors ++ [.destruct 1]) := by
  rcases twoActors_run with ⟨framework, s, hnew, hrun, hregistered, halive, hindex⟩
  have hinv : ActorsInv s := by
    apply run_invariant (fun s call t hinv => actorsInv_step hinv) (actorsInv_init hnew) _ hrun
    exact ⟨trivial, fun _ _ => ⟨trivial, fun _ _ => trivial⟩⟩
  refine ⟨framework, hnew, ?_⟩
  intro hsafe
  have hharmless := (stepSafe_iff hinv (.destruct 1)).mp (allSteps_after hsafe hrun).left
  have hliving : 1 ∈ s.alive := by
    rw [halive]
    exact List.mem_cons_self
  rcases hharmless hliving with hown | ⟨_, hnobody⟩
  · rw [hregistered, hindex] at hown
    cases List.mem_singleton.mp hown
  · rw [hregistered] at hnobody
    exact hnobody (0, 1) List.mem_cons_self hindex.symm

end ActorState
end LibActor
end GMServer
