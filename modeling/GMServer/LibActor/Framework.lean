import GMServer.LibActor.Mailbox
import GMServer.LibActor.Directory

/-!
# The framework's mailboxes

The part of `Framework` that hands mailboxes to actors.  The address an actor
is told when it is registered is a field of the actor; here it is a map beside
the directory, zero for an actor that was never registered.
-/

namespace GMServer
namespace LibActor

instance (Actor Message : Type) : DirectoryEntry (Mailbox Actor Message) where
  new := Mailbox.new
  IsUsed := Mailbox.IsUsed

structure Framework (Actor Message : Type) where
  m_MailBoxes : Directory (Mailbox Actor Message)
  m_pScheduler : Option Nat
  m_Address : Address
  actorAddress : Actor -> Address

namespace Framework

variable {Actor Message : Type}

/-!
# Construction and registration

The constructor takes index 0 for itself.  `RegisterActor` asserts three things
about the mailbox it was given, and answers with the index as well.
-/

def new (pScheduler : Option Nat) : Except Fault (Framework Actor Message) :=
  match (Directory.new : Directory (Mailbox Actor Message)).Allocate (-1) with
  | .error fault => .error fault
  | .ok (mailBoxes, _) =>
      .ok
        { m_MailBoxes := mailBoxes,
          m_pScheduler := pScheduler,
          m_Address := Address.ofUint32 0,
          actorAddress := fun _ => Address.ofUint32 0 }

variable [DecidableEq Actor]

/-- The writes of `RegisterActor` once its assertions have passed. -/
def install (f : Framework Actor Message) (box : Mailbox Actor Message)
    (index : uint32_t) (pActor : Actor) (name : Name) : Framework Actor Message :=
  let address := Address.ofBrief (f.m_Address.mProcess.setWidth 16) (index.setWidth 16)
  let named := ((box.SetScheduler f.m_pScheduler).SetName name).SetAddress address
  { f with
    m_MailBoxes := f.m_MailBoxes.setEntry index (named.RegisterActor pActor),
    actorAddress := Function.update f.actorAddress pActor address }

def RegisterActor (f : Framework Actor Message) (pActor : Actor) (name : Name) :
    Except Fault (Framework Actor Message × uint32_t) :=
  match f.m_MailBoxes.Allocate (-1) with
  | .error fault => .error fault
  | .ok (mailBoxes, nNewIndex) =>
      if nNewIndex = -1 then
        .error .assertFailed
      else
        match mailBoxes.GetEntry nNewIndex with
        | .error fault => .error fault
        | .ok box =>
            if box.m_pActor ≠ none then
              .error .assertFailed
            else if box.m_Address.m_Uint32 ≠ 0 then
              .error .assertFailed
            else
              .ok (install { f with m_MailBoxes := mailBoxes } box nNewIndex pActor name,
                nNewIndex)

def UnRegisterActor (f : Framework Actor Message) (pActor : Actor) :
    Except Fault (Framework Actor Message) :=
  let index := (f.actorAddress pActor).entryIndex
  match f.m_MailBoxes.GetEntry index with
  | .error fault => .error fault
  | .ok box =>
      .ok { f with
        m_MailBoxes := f.m_MailBoxes.setEntry index box.UnRegisterActor }

/-!
# What holds of a framework

Indices below `m_iNextIndex` have been issued and have their page; a mailbox
that exists but was never issued is as its constructor left it.  Every actor's
address names an issued mailbox, and no other actor is in it.
-/

omit [DecidableEq Actor] in
structure FrameworkInv (f : Framework Actor Message) : Prop where
  positive : 0 < f.m_MailBoxes.m_iNextIndex.toNat
  bound : f.m_MailBoxes.m_iNextIndex.toNat ≤ MAX_PAGES * ENTRIES_PER_PAGE
  issued : forall i, i.toNat < f.m_MailBoxes.m_iNextIndex.toNat ->
    exists box, f.m_MailBoxes.GetEntry i = .ok box
  fresh : forall i box, f.m_MailBoxes.m_iNextIndex.toNat ≤ i.toNat ->
    f.m_MailBoxes.GetEntry i = .ok box -> box = Mailbox.new
  address : forall pActor,
    (f.actorAddress pActor).entryIndex.toNat < f.m_MailBoxes.m_iNextIndex.toNat
  owner : forall pActor box,
    f.m_MailBoxes.GetEntry (f.actorAddress pActor).entryIndex = .ok box ->
      box.m_pActor = none ∨ box.m_pActor = some pActor

omit [DecidableEq Actor] in
theorem new_spec (pScheduler : Option Nat) :
    exists f : Framework Actor Message, new pScheduler = .ok f ∧
      f.m_MailBoxes.m_iNextIndex.toNat = 1 ∧ FrameworkInv f := by
  have hleft : (Directory.new : Directory (Mailbox Actor Message)).m_iNextIndex.toNat <
      MAX_PAGES * ENTRIES_PER_PAGE := by
    show (0 : uint32_t).toNat < MAX_PAGES * ENTRIES_PER_PAGE
    decide
  rcases Directory.allocate_fresh hleft with
    ⟨mailBoxes, halloc, hnext, ⟨first, hfirst⟩, _, hold⟩
  have hnone : forall i (box : Mailbox Actor Message),
      mailBoxes.GetEntry i = .ok box -> box = Mailbox.new := by
    intro i box hget
    rcases hold i box hget with hbefore | hnew
    · rcases Directory.getEntry_page hbefore with ⟨_, page, hpage, _⟩
      cases hpage
    · exact hnew
  have hone : mailBoxes.m_iNextIndex.toNat = 1 := hnext
  refine ⟨_, by unfold new; rw [halloc], hone, ?_⟩
  constructor
  case positive =>
    show 0 < mailBoxes.m_iNextIndex.toNat
    omega
  case bound =>
    show mailBoxes.m_iNextIndex.toNat ≤ MAX_PAGES * ENTRIES_PER_PAGE
    rw [hone]
    decide
  case issued =>
    intro i hi
    have hzero : i = 0 := by
      apply BitVec.eq_of_toNat_eq
      show i.toNat = 0
      have hlt : i.toNat < mailBoxes.m_iNextIndex.toNat := hi
      omega
    rw [hzero]
    exact ⟨first, hfirst⟩
  case fresh =>
    intro i box _ hget
    exact hnone i box hget
  case address =>
    intro pActor
    show (Address.ofUint32 0).entryIndex.toNat < mailBoxes.m_iNextIndex.toNat
    rw [Address.entryIndex_ofUint32_zero, hone]
    decide
  case owner =>
    intro pActor box hget
    rw [hnone _ box hget]
    exact Or.inl rfl

omit [DecidableEq Actor] in
theorem new_m_pScheduler {pScheduler : Option Nat} {f : Framework Actor Message}
    (hnew : new pScheduler = .ok f) : f.m_pScheduler = pScheduler := by
  unfold new at hnew
  split at hnew
  · cases hnew
  · cases hnew
    rfl

/-!
# The fresh mailbox

What `RegisterActor` has in hand when it takes a fresh index, and the lemmas
that read the framework back after its writes.
-/

omit [DecidableEq Actor] in
structure FreshEntry (f : Framework Actor Message)
    (mailBoxes : Directory (Mailbox Actor Message)) : Prop where
  next : mailBoxes.m_iNextIndex.toNat = f.m_MailBoxes.m_iNextIndex.toNat + 1
  entry : mailBoxes.GetEntry f.m_MailBoxes.m_iNextIndex = .ok Mailbox.new
  kept : forall i box, f.m_MailBoxes.GetEntry i = .ok box ->
    mailBoxes.GetEntry i = .ok box
  origin : forall i box, mailBoxes.GetEntry i = .ok box ->
    f.m_MailBoxes.GetEntry i = .ok box ∨ box = Mailbox.new

omit [DecidableEq Actor] in
theorem allocate_freshEntry {f : Framework Actor Message} (hinv : FrameworkInv f)
    (hleft : f.m_MailBoxes.m_iNextIndex.toNat < MAX_PAGES * ENTRIES_PER_PAGE) :
    exists mailBoxes,
      f.m_MailBoxes.Allocate (-1) = .ok (mailBoxes, f.m_MailBoxes.m_iNextIndex) ∧
        FreshEntry f mailBoxes := by
  rcases Directory.allocate_fresh hleft with
    ⟨mailBoxes, halloc, hnext, ⟨box, hbox⟩, hkept, horigin⟩
  have hnew : box = Mailbox.new := by
    rcases horigin _ box hbox with hbefore | hnew
    · exact hinv.fresh _ box (Nat.le_refl _) hbefore
    · exact hnew
  rw [hnew] at hbox
  exact ⟨mailBoxes, halloc, hnext, hbox, hkept, horigin⟩

theorem install_getEntry_self {f : Framework Actor Message} {index : uint32_t}
    {old : Mailbox Actor Message} (hget : f.m_MailBoxes.GetEntry index = .ok old)
    (box : Mailbox Actor Message) (pActor : Actor) (name : Name) :
    exists entry, (f.install box index pActor name).m_MailBoxes.GetEntry index =
      .ok entry ∧ entry.m_pActor = some pActor :=
  ⟨_, Directory.getEntry_setEntry_self hget _, rfl⟩

theorem install_getEntry_of_ne (f : Framework Actor Message)
    {index i : uint32_t} (hne : i ≠ index) (box : Mailbox Actor Message)
    (pActor : Actor) (name : Name) :
    (f.install box index pActor name).m_MailBoxes.GetEntry i =
      f.m_MailBoxes.GetEntry i :=
  Directory.getEntry_setEntry_of_ne hne _

@[simp] theorem install_m_iNextIndex (f : Framework Actor Message)
    (box : Mailbox Actor Message) (index : uint32_t) (pActor : Actor) (name : Name) :
    (f.install box index pActor name).m_MailBoxes.m_iNextIndex =
      f.m_MailBoxes.m_iNextIndex :=
  Directory.setEntry_m_iNextIndex ..

theorem install_actorAddress_self (f : Framework Actor Message)
    (box : Mailbox Actor Message) (index : uint32_t) (pActor : Actor) (name : Name) :
    (f.install box index pActor name).actorAddress pActor =
      Address.ofBrief (f.m_Address.mProcess.setWidth 16) (index.setWidth 16) :=
  Function.update_self ..

theorem install_entryIndex_self (f : Framework Actor Message)
    (box : Mailbox Actor Message) {index : uint32_t}
    (hindex : index.toNat < MAX_PAGES * ENTRIES_PER_PAGE) (pActor : Actor) (name : Name) :
    ((f.install box index pActor name).actorAddress pActor).entryIndex = index := by
  rw [install_actorAddress_self]
  exact Address.entryIndex_ofBrief _ hindex

theorem install_actorAddress_of_ne (f : Framework Actor Message)
    (box : Mailbox Actor Message) (index : uint32_t) {pActor other : Actor}
    (hne : other ≠ pActor) (name : Name) :
    (f.install box index pActor name).actorAddress other = f.actorAddress other :=
  Function.update_of_ne hne _ _

/-- Installing an actor in the fresh mailbox keeps the invariant. -/
theorem frameworkInv_install {f : Framework Actor Message} (hinv : FrameworkInv f)
    (hleft : f.m_MailBoxes.m_iNextIndex.toNat < MAX_PAGES * ENTRIES_PER_PAGE)
    {mailBoxes : Directory (Mailbox Actor Message)} (hfresh : FreshEntry f mailBoxes)
    (pActor : Actor) (name : Name) :
    FrameworkInv (install { f with m_MailBoxes := mailBoxes } Mailbox.new
      f.m_MailBoxes.m_iNextIndex pActor name) := by
  have hnext := hfresh.next
  have hself := install_getEntry_self (f := { f with m_MailBoxes := mailBoxes })
    hfresh.entry Mailbox.new pActor name
  have hother : forall i, i ≠ f.m_MailBoxes.m_iNextIndex ->
      (install { f with m_MailBoxes := mailBoxes } Mailbox.new
        f.m_MailBoxes.m_iNextIndex pActor name).m_MailBoxes.GetEntry i =
          mailBoxes.GetEntry i :=
    fun i hi => install_getEntry_of_ne _ hi _ _ _
  have hne_of_lt : forall i : uint32_t,
      i.toNat < f.m_MailBoxes.m_iNextIndex.toNat -> i ≠ f.m_MailBoxes.m_iNextIndex := by
    intro i hi hEq
    rw [hEq] at hi
    omega
  constructor
  case positive =>
    rw [install_m_iNextIndex]
    show 0 < mailBoxes.m_iNextIndex.toNat
    omega
  case bound =>
    rw [install_m_iNextIndex]
    show mailBoxes.m_iNextIndex.toNat ≤ _
    omega
  case issued =>
    intro i hi
    rw [install_m_iNextIndex] at hi
    have hlt : i.toNat < mailBoxes.m_iNextIndex.toNat := hi
    by_cases hEq : i = f.m_MailBoxes.m_iNextIndex
    · rw [hEq]
      rcases hself with ⟨entry, hget, _⟩
      exact ⟨entry, hget⟩
    · have hne : i.toNat ≠ f.m_MailBoxes.m_iNextIndex.toNat :=
        fun h => hEq (BitVec.eq_of_toNat_eq h)
      rcases hinv.issued i (by omega) with ⟨old, hget⟩
      rw [hother i hEq]
      exact ⟨old, hfresh.kept i old hget⟩
  case fresh =>
    intro i entry hi hget
    rw [install_m_iNextIndex] at hi
    have hle : mailBoxes.m_iNextIndex.toNat ≤ i.toNat := hi
    have hne : i ≠ f.m_MailBoxes.m_iNextIndex := by
      intro hEq
      rw [hEq] at hle
      omega
    rw [hother i hne] at hget
    rcases hfresh.origin i entry hget with hbefore | hnew
    · exact hinv.fresh i entry (by omega) hbefore
    · exact hnew
  case address =>
    intro other
    rw [install_m_iNextIndex]
    show _ < mailBoxes.m_iNextIndex.toNat
    by_cases hEq : other = pActor
    · rw [hEq, install_entryIndex_self _ _ hleft]
      omega
    · rw [install_actorAddress_of_ne _ _ _ hEq]
      have hbefore := hinv.address other
      show (f.actorAddress other).entryIndex.toNat < _
      omega
  case owner =>
    intro other entry hget
    by_cases hEq : other = pActor
    · rw [hEq, install_entryIndex_self _ _ hleft] at hget
      rcases hself with ⟨installed, hinstalled, hactor⟩
      rw [hinstalled] at hget
      cases hget
      rw [hEq]
      exact Or.inr hactor
    · have hbefore := hinv.address other
      rcases hinv.issued _ hbefore with ⟨old, hold⟩
      rw [install_actorAddress_of_ne _ _ _ hEq, hother _ (hne_of_lt _ hbefore),
        hfresh.kept _ old hold] at hget
      cases hget
      exact hinv.owner other _ hold

/-!
# One registration

While fresh indices are left, the mailbox handed out is one that was never
issued, so that the assertions hold.  At the bound they never do: the scan
looks for an entry that does not answer `IsUsed`, which is one with an actor,
and without such an entry the index is `-1`.
-/

theorem registerActor_fresh {f : Framework Actor Message} (hinv : FrameworkInv f)
    (hleft : f.m_MailBoxes.m_iNextIndex.toNat < MAX_PAGES * ENTRIES_PER_PAGE)
    (pActor : Actor) (name : Name) :
    exists f', f.RegisterActor pActor name = .ok (f', f.m_MailBoxes.m_iNextIndex) ∧
      f'.m_MailBoxes.m_iNextIndex.toNat = f.m_MailBoxes.m_iNextIndex.toNat + 1 ∧
      FrameworkInv f' ∧
      (exists box, f'.m_MailBoxes.GetEntry f.m_MailBoxes.m_iNextIndex = .ok box ∧
        box.m_pActor = some pActor) ∧
      (forall i box, i ≠ f.m_MailBoxes.m_iNextIndex ->
        f.m_MailBoxes.GetEntry i = .ok box -> f'.m_MailBoxes.GetEntry i = .ok box) := by
  rcases allocate_freshEntry hinv hleft with ⟨mailBoxes, halloc, hfresh⟩
  have hnotMax : f.m_MailBoxes.m_iNextIndex ≠ -1 := by
    intro hEq
    rw [hEq] at hleft
    exact absurd hleft (by decide)
  have hregister : f.RegisterActor pActor name =
      .ok (install { f with m_MailBoxes := mailBoxes } Mailbox.new
        f.m_MailBoxes.m_iNextIndex pActor name, f.m_MailBoxes.m_iNextIndex) := by
    unfold RegisterActor
    simp only [halloc, if_neg hnotMax, hfresh.entry]
    rfl
  refine ⟨_, hregister, ?_, frameworkInv_install hinv hleft hfresh pActor name,
    install_getEntry_self (f := { f with m_MailBoxes := mailBoxes }) hfresh.entry _ _ _, ?_⟩
  · rw [install_m_iNextIndex]
    exact hfresh.next
  · intro i entry hne hget
    rw [install_getEntry_of_ne _ hne]
    exact hfresh.kept i entry hget

theorem registerActor_exhausted {f : Framework Actor Message}
    (hfull : MAX_PAGES * ENTRIES_PER_PAGE ≤ f.m_MailBoxes.m_iNextIndex.toNat)
    (pActor : Actor) (name : Name) (out : Framework Actor Message × uint32_t) :
    f.RegisterActor pActor name ≠ .ok out := by
  intro hregister
  unfold RegisterActor at hregister
  split at hregister
  · cases hregister
  · rename_i mailBoxes nNewIndex halloc
    rcases Directory.allocate_reuse hfull halloc with ⟨box, hget, hused⟩
    have hactor : box.m_pActor ≠ none := by
      intro hnone
      have hfree : box.m_pActor.isNone = false := hused
      rw [hnone] at hfree
      cases hfree
    split at hregister
    · cases hregister
    · simp only [hget, if_pos hactor] at hregister
      cases hregister

/-- A registration installs the actor in the mailbox it was given. -/
theorem registerActor_installed {f f' : Framework Actor Message} {pActor : Actor}
    {name : Name} {index : uint32_t}
    (hregister : f.RegisterActor pActor name = .ok (f', index)) :
    exists mailBoxes box, mailBoxes.GetEntry index = .ok box ∧
      f' = install { f with m_MailBoxes := mailBoxes } box index pActor name := by
  unfold RegisterActor at hregister
  split at hregister
  · cases hregister
  · rename_i mailBoxes nNewIndex halloc
    split at hregister
    · cases hregister
    · split at hregister
      · cases hregister
      · rename_i box hget
        split at hregister
        · cases hregister
        · split at hregister
          · cases hregister
          · cases hregister
            exact ⟨mailBoxes, box, hget, rfl⟩

/-!
# One removal
-/

omit [DecidableEq Actor] in
theorem unRegisterActor_spec {f : Framework Actor Message} (hinv : FrameworkInv f)
    (pActor : Actor) :
    exists f', f.UnRegisterActor pActor = .ok f' ∧
      f'.m_MailBoxes.m_iNextIndex = f.m_MailBoxes.m_iNextIndex ∧
      FrameworkInv f' ∧
      (forall i, i ≠ (f.actorAddress pActor).entryIndex ->
        f'.m_MailBoxes.GetEntry i = f.m_MailBoxes.GetEntry i) := by
  rcases hinv.issued _ (hinv.address pActor) with ⟨box, hbox⟩
  have hother : forall i, i ≠ (f.actorAddress pActor).entryIndex ->
      (f.m_MailBoxes.setEntry (f.actorAddress pActor).entryIndex
        box.UnRegisterActor).GetEntry i = f.m_MailBoxes.GetEntry i :=
    fun i hi => Directory.getEntry_setEntry_of_ne hi _
  have hself : (f.m_MailBoxes.setEntry (f.actorAddress pActor).entryIndex
      box.UnRegisterActor).GetEntry (f.actorAddress pActor).entryIndex =
        .ok box.UnRegisterActor :=
    Directory.getEntry_setEntry_self hbox _
  refine ⟨_, by unfold UnRegisterActor; simp only [hbox]; rfl,
    Directory.setEntry_m_iNextIndex .., ?_, hother⟩
  constructor
  case positive =>
    rw [Directory.setEntry_m_iNextIndex]
    exact hinv.positive
  case bound =>
    rw [Directory.setEntry_m_iNextIndex]
    exact hinv.bound
  case issued =>
    intro i hi
    rw [Directory.setEntry_m_iNextIndex] at hi
    by_cases hEq : i = (f.actorAddress pActor).entryIndex
    · rw [hEq]
      exact ⟨_, hself⟩
    · rcases hinv.issued i hi with ⟨old, hget⟩
      exact ⟨old, by rw [hother i hEq]; exact hget⟩
  case fresh =>
    intro i entry hi hget
    rw [Directory.setEntry_m_iNextIndex] at hi
    have hne : i ≠ (f.actorAddress pActor).entryIndex := by
      intro hEq
      have hlt := hinv.address pActor
      rw [← hEq] at hlt
      omega
    rw [hother i hne] at hget
    exact hinv.fresh i entry hi hget
  case address =>
    intro other
    rw [Directory.setEntry_m_iNextIndex]
    exact hinv.address other
  case owner =>
    intro other entry hget
    by_cases hEq : (f.actorAddress other).entryIndex = (f.actorAddress pActor).entryIndex
    · have hsame : (f.m_MailBoxes.setEntry (f.actorAddress pActor).entryIndex
          box.UnRegisterActor).GetEntry (f.actorAddress other).entryIndex =
            .ok box.UnRegisterActor := by
        rw [hEq]
        exact hself
      rw [hsame] at hget
      cases hget
      exact Or.inl rfl
    · rw [hother _ hEq] at hget
      exact hinv.owner other entry hget

end Framework
end LibActor
end GMServer
