import GMServer.Library.Transition
import GMServer.LibActor.Framework

/-!
# Running out of indices

Runs of `Allocate` on a directory of mailboxes, with actors put into the entries it
returned and taken out of them.  When all indices have been issued, the next call looks
for an entry that does not answer `IsUsed`, and `IsUsed` says that there is no actor.
-/

namespace GMServer
namespace LibActor

structure DirectoryState (Actor Message : Type) where
  directory : Directory (Mailbox Actor Message)
  returned : List uint32_t

inductive DirectoryCall (Actor : Type) where
  | Allocate
  | RegisterActor (index : uint32_t) (pActor : Actor)
  | UnRegisterActor (index : uint32_t)
  deriving DecidableEq

/-!
# The scan
-/

namespace Directory

section Scan

variable {EntryType : Type} [DirectoryEntry EntryType]

/-- Over allocated pages the scan finds the first free entry, or there is none. -/
theorem reuseScan_paged {d : Directory EntryType} {count i : Nat}
    (hpaged : forall j, i ≤ j -> j < i + count -> d.Paged (BitVec.ofNat 32 j)) :
    (reuseScan d count i = .ok (-1) ∧ forall j entry, i ≤ j -> j < i + count ->
      d.GetEntry (BitVec.ofNat 32 j) = .ok entry -> DirectoryEntry.IsUsed entry = true) ∨
    exists j entry, i ≤ j ∧ j < i + count ∧ reuseScan d count i = .ok (BitVec.ofNat 32 j) ∧
      d.GetEntry (BitVec.ofNat 32 j) = .ok entry ∧ DirectoryEntry.IsUsed entry = false := by
  induction count generalizing i with
  | zero =>
      refine Or.inl ⟨rfl, ?_⟩
      intro j entry hle hlt
      omega
  | succ count ih =>
      rcases hpaged i (Nat.le_refl i) (by omega) with ⟨entry, hget⟩
      unfold reuseScan
      rw [hget]
      dsimp only
      cases hused : DirectoryEntry.IsUsed entry with
      | false =>
          refine Or.inr ⟨i, entry, Nat.le_refl i, by omega, ?_, hget, hused⟩
          rfl
      | true =>
          have hnot : ¬ (!true) = true := Bool.false_ne_true
          rw [if_neg hnot]
          rcases ih (i := i + 1) (fun j hle hlt => hpaged j (by omega) (by omega)) with
            ⟨hnone, hall⟩ | ⟨j, free, hle, hlt, hfound⟩
          · refine Or.inl ⟨hnone, ?_⟩
            intro j other hle hlt hother
            by_cases hsame : j = i
            · rw [hsame, hget] at hother
              cases hother
              exact hused
            · exact hall j other (by omega) (by omega) hother
          · exact Or.inr ⟨j, free, by omega, by omega, hfound⟩

theorem chooseIndex_full {d : Directory EntryType}
    (hfull : MAX_PAGES * ENTRIES_PER_PAGE ≤ d.m_iNextIndex.toNat) {found : uint32_t}
    (hscan : reuseScan d (MAX_PAGES * ENTRIES_PER_PAGE) 0 = .ok found) :
    chooseIndex d (-1) = .ok ({ d with
      m_iReuseIndex :=
        if (found + 1).toNat >= MAX_PAGES * ENTRIES_PER_PAGE then 0 else found + 1 },
      found) := by
  unfold chooseIndex
  rw [if_pos rfl, if_neg (Nat.not_lt.mpr hfull), hscan]

/-- With all indices issued, `Allocate` returns an index again or reads behind the page
table, the latter exactly if every entry answers `IsUsed`. -/
theorem allocate_full {d : Directory EntryType}
    (hfull : MAX_PAGES * ENTRIES_PER_PAGE ≤ d.m_iNextIndex.toNat)
    (hpaged : forall index : uint32_t, index.toNat < MAX_PAGES * ENTRIES_PER_PAGE ->
      d.Paged index) :
    (d.Allocate (-1) = .error .outOfBounds ∧ forall index entry,
      d.GetEntry index = .ok entry -> DirectoryEntry.IsUsed entry = true) ∨
    exists d' index, d.Allocate (-1) = .ok (d', index) ∧
      d'.m_Pages = d.m_Pages ∧ d'.m_iNextIndex = d.m_iNextIndex ∧
      exists entry, d.GetEntry index = .ok entry ∧ DirectoryEntry.IsUsed entry = false := by
  have hmax : MAX_PAGES * ENTRIES_PER_PAGE = 8192 := rfl
  have hnumber : forall j, j < 0 + MAX_PAGES * ENTRIES_PER_PAGE ->
      (BitVec.ofNat 32 j).toNat = j := by
    intro j hj
    rw [BitVec.toNat_ofNat]
    omega
  have hthere : forall j, 0 ≤ j -> j < 0 + MAX_PAGES * ENTRIES_PER_PAGE ->
      d.Paged (BitVec.ofNat 32 j) := by
    intro j _ hj
    apply hpaged
    rw [hnumber j hj]
    omega
  unfold Allocate
  rcases reuseScan_paged hthere with ⟨hnone, hall⟩ | ⟨j, entry, _, hj, hfound, hget, hfree⟩
  · left
    rw [chooseIndex_full hfull hnone]
    constructor
    · -- index -1 lies behind the page table
      have hout : ¬ (-1 : uint32_t).toNat / ENTRIES_PER_PAGE < MAX_PAGES := by
        decide
      simp only [allocatePage, dif_neg hout]
    · intro index entry hget
      rcases getEntry_page hget with ⟨hpage, _⟩
      have hlt : index.toNat < MAX_PAGES * ENTRIES_PER_PAGE :=
        (Nat.div_lt_iff_lt_mul (by decide)).mp hpage
      apply hall index.toNat entry (Nat.zero_le _) (by omega)
      rw [BitVec.ofNat_toNat, BitVec.setWidth_eq]
      exact hget
  · right
    rw [chooseIndex_full hfull hfound]
    rcases getEntry_page hget with ⟨hpage, page, hsome, _⟩
    have hle : ¬ d.m_iNextIndex.toNat < (BitVec.ofNat 32 j).toNat := by
      rw [hnumber j hj]
      omega
    simp only [allocatePage, dif_pos hpage, hsome, if_neg hle]
    exact ⟨_, _, rfl, rfl, rfl, entry, hget, hfree⟩

end Scan

end Directory

namespace DirectoryState

open Transition

variable {Actor Message : Type}

def init : DirectoryState Actor Message := { directory := Directory.new, returned := [] }

/-- A write to an entry that was returned. -/
def onEntry (s : DirectoryState Actor Message) (index : uint32_t)
    (f : Mailbox Actor Message -> Mailbox Actor Message) :
    Option (DirectoryState Actor Message) :=
  if index ∈ s.returned then
    (s.directory.GetEntry index).toOption.map (fun box =>
      { s with directory := s.directory.setEntry index (f box) })
  else none

def step (s : DirectoryState Actor Message) :
    DirectoryCall Actor -> Option (DirectoryState Actor Message)
  | .Allocate =>
      (s.directory.Allocate (-1)).toOption.map (fun allocated =>
        { directory := allocated.1, returned := allocated.2 :: s.returned })
  | .RegisterActor index pActor => s.onEntry index (fun box => box.RegisterActor pActor)
  | .UnRegisterActor index => s.onEntry index Mailbox.UnRegisterActor

/-!
# Bounds

`Allocate` comes back with an index that has a page.  What was returned keeps its page,
and so does all that the scan can visit.
-/

def CallOk (s : DirectoryState Actor Message) : DirectoryCall Actor -> Prop
  | .Allocate =>
      exists d index, s.directory.Allocate (-1) = .ok (d, index) ∧
        index.toNat < MAX_PAGES * ENTRIES_PER_PAGE ∧ d.Paged index
  | _ => True

structure PagesOk (s : DirectoryState Actor Message) : Prop where
  returned : forall index, index ∈ s.returned ->
    index.toNat < MAX_PAGES * ENTRIES_PER_PAGE ∧ s.directory.Paged index
  visited : MAX_PAGES * ENTRIES_PER_PAGE ≤ s.directory.m_iNextIndex.toNat ->
    forall index : uint32_t, index.toNat < MAX_PAGES * ENTRIES_PER_PAGE ->
      s.directory.Paged index

def WithinBounds (s : DirectoryState Actor Message) (calls : List (DirectoryCall Actor)) :
    Prop :=
  AllSteps step CallOk s calls ∧ AllStates step PagesOk s calls

/-- There is a fresh index, or an entry in which an actor is registered. -/
def HasEntry (s : DirectoryState Actor Message) : DirectoryCall Actor -> Prop
  | .Allocate =>
      MAX_PAGES * ENTRIES_PER_PAGE ≤ s.directory.m_iNextIndex.toNat ->
        exists index box, s.directory.GetEntry index = .ok box ∧ box.m_pActor ≠ none
  | _ => True

/-!
# The invariant
-/

structure DirectoryInv (s : DirectoryState Actor Message) : Prop where
  bound : s.directory.m_iNextIndex.toNat ≤ MAX_PAGES * ENTRIES_PER_PAGE
  issued : forall index : uint32_t,
    index.toNat < s.directory.m_iNextIndex.toNat -> s.directory.Paged index
  returned : forall index, index ∈ s.returned ->
    index.toNat < s.directory.m_iNextIndex.toNat

theorem directoryInv_init : DirectoryInv (init : DirectoryState Actor Message) where
  bound := Nat.zero_le _
  issued := fun _ hlt => absurd hlt (Nat.not_lt_zero _)
  returned := fun _ hmem => absurd hmem List.not_mem_nil

theorem DirectoryInv.pages {s : DirectoryState Actor Message} (hinv : DirectoryInv s) :
    PagesOk s := by
  constructor
  case returned =>
    intro index hmem
    have hlt := hinv.returned index hmem
    exact ⟨Nat.lt_of_lt_of_le hlt hinv.bound, hinv.issued index hlt⟩
  case visited =>
    intro hfull index hlt
    exact hinv.issued index (Nat.lt_of_lt_of_le hlt hfull)

theorem isUsed_iff (box : Mailbox Actor Message) :
    DirectoryEntry.IsUsed box = true <-> box.m_pActor = none :=
  Option.isNone_iff_eq_none

theorem directoryInv_fresh {s : DirectoryState Actor Message} (hinv : DirectoryInv s)
    (hleft : s.directory.m_iNextIndex.toNat < MAX_PAGES * ENTRIES_PER_PAGE) :
    exists d, s.directory.Allocate (-1) = .ok (d, s.directory.m_iNextIndex) ∧
      DirectoryInv { directory := d, returned := s.directory.m_iNextIndex :: s.returned } := by
  rcases Directory.allocate_fresh hleft with ⟨d, halloc, hnext, hentry, hkept, _⟩
  refine ⟨d, halloc, ?_⟩
  constructor
  case bound =>
    show d.m_iNextIndex.toNat ≤ _
    omega
  case issued =>
    intro index hlt
    have hlt' : index.toNat < d.m_iNextIndex.toNat := hlt
    by_cases hsame : index = s.directory.m_iNextIndex
    · rw [hsame]
      exact hentry
    · have hne : index.toNat ≠ s.directory.m_iNextIndex.toNat :=
        fun h => hsame (BitVec.eq_of_toNat_eq h)
      rcases hinv.issued index (by omega) with ⟨box, hget⟩
      exact ⟨box, hkept index box hget⟩
  case returned =>
    intro index hmem
    show index.toNat < d.m_iNextIndex.toNat
    rcases List.mem_cons.mp hmem with hnew | hold
    · rw [hnew, hnext]
      exact Nat.lt_succ_self _
    · have hlt := hinv.returned index hold
      omega

/-- What `Allocate` does in a state of a run. -/
theorem allocate_cases {s : DirectoryState Actor Message} (hinv : DirectoryInv s) :
    (s.directory.Allocate (-1) = .error .outOfBounds ∧
      ¬ HasEntry s (.Allocate : DirectoryCall Actor)) ∨
    exists d index, s.directory.Allocate (-1) = .ok (d, index) ∧
      HasEntry s (.Allocate : DirectoryCall Actor) ∧
      DirectoryInv { directory := d, returned := index :: s.returned } := by
  by_cases hleft : s.directory.m_iNextIndex.toNat < MAX_PAGES * ENTRIES_PER_PAGE
  · rcases directoryInv_fresh hinv hleft with ⟨d, halloc, hkept⟩
    exact Or.inr ⟨d, _, halloc, fun hfull => absurd hleft (Nat.not_lt.mpr hfull), hkept⟩
  · have hfull := Nat.not_lt.mp hleft
    rcases Directory.allocate_full hfull (hinv.pages.visited hfull) with
      ⟨herror, hall⟩ | ⟨d, index, halloc, hpages, hnext, box, hget, hfree⟩
    · refine Or.inl ⟨herror, ?_⟩
      intro hhas
      rcases hhas hfull with ⟨index, box, hget, hactor⟩
      exact hactor ((isUsed_iff box).mp (hall index box hget))
    · have hsame : forall i, d.GetEntry i = s.directory.GetEntry i := by
        intro i
        unfold Directory.GetEntry
        rw [hpages]
      refine Or.inr ⟨d, index, halloc, ?_, ?_⟩
      · intro _
        refine ⟨index, box, hget, ?_⟩
        intro hnone
        rw [(isUsed_iff box).mpr hnone] at hfree
        cases hfree
      · constructor
        case bound =>
          show d.m_iNextIndex.toNat ≤ _
          rw [hnext]
          exact hinv.bound
        case issued =>
          intro i hlt
          have hlt' : i.toNat < d.m_iNextIndex.toNat := hlt
          rw [hnext] at hlt'
          rcases hinv.issued i hlt' with ⟨old, hold⟩
          exact ⟨old, (hsame i).trans hold⟩
        case returned =>
          intro i hmem
          show i.toNat < d.m_iNextIndex.toNat
          rw [hnext]
          rcases List.mem_cons.mp hmem with hnew | hold
          · rcases Directory.getEntry_page hget with ⟨hpage, _⟩
            rw [hnew]
            exact Nat.lt_of_lt_of_le ((Nat.div_lt_iff_lt_mul (by decide)).mp hpage) hfull
          · exact hinv.returned i hold

theorem onEntry_inv {s t : DirectoryState Actor Message} (hinv : DirectoryInv s)
    {index : uint32_t} {f : Mailbox Actor Message -> Mailbox Actor Message}
    (hstep : s.onEntry index f = some t) : DirectoryInv t := by
  unfold onEntry at hstep
  split at hstep
  · rcases Option.map_eq_some_iff.mp hstep with ⟨box, _, hEq⟩
    rw [← hEq]
    constructor
    case bound =>
      rw [Directory.setEntry_m_iNextIndex]
      exact hinv.bound
    case issued =>
      intro i hi
      rw [Directory.setEntry_m_iNextIndex] at hi
      exact (Directory.paged_setEntry _ _ _ _).mpr (hinv.issued i hi)
    case returned =>
      intro i hi
      rw [Directory.setEntry_m_iNextIndex]
      exact hinv.returned i hi
  · cases hstep

theorem directoryInv_step {s t : DirectoryState Actor Message} {call : DirectoryCall Actor}
    (hinv : DirectoryInv s) (hstep : step s call = some t) : DirectoryInv t := by
  cases call with
  | Allocate =>
      rcases Option.map_eq_some_iff.mp hstep with ⟨allocated, hallocated, hEq⟩
      rw [← hEq]
      rcases allocate_cases hinv with ⟨herror, _⟩ | ⟨d, index, halloc, _, hkept⟩
      · rw [herror] at hallocated
        cases hallocated
      · rw [halloc] at hallocated
        cases hallocated
        exact hkept
  | RegisterActor index pActor => exact onEntry_inv hinv hstep
  | UnRegisterActor index => exact onEntry_inv hinv hstep

theorem callOk_iff {s : DirectoryState Actor Message} (hinv : DirectoryInv s)
    (call : DirectoryCall Actor) : CallOk s call <-> HasEntry s call := by
  cases call with
  | Allocate =>
      rcases allocate_cases hinv with ⟨herror, hnot⟩ | ⟨d, index, halloc, hhas, hkept⟩
      · refine iff_of_false ?_ hnot
        intro ⟨d, index, halloc, _⟩
        rw [herror] at halloc
        cases halloc
      · refine iff_of_true ⟨d, index, halloc, ?_⟩ hhas
        exact hkept.pages.returned index List.mem_cons_self
  | RegisterActor index pActor => exact Iff.rfl
  | UnRegisterActor index => exact Iff.rfl

/-- A run stays within bounds exactly if each `Allocate` behind the last fresh index finds
an entry with an actor. -/
theorem withinBounds_iff (calls : List (DirectoryCall Actor)) :
    WithinBounds (init : DirectoryState Actor Message) calls <->
      AllSteps step HasEntry (init : DirectoryState Actor Message) calls := by
  have hkeep : forall (ok : DirectoryState Actor Message -> DirectoryCall Actor -> Prop) s call t,
      DirectoryInv s -> ok s call -> step s call = some t -> DirectoryInv t :=
    fun _ s call t hinv _ hstep => directoryInv_step hinv hstep
  constructor
  · intro h
    exact allSteps_of_invariant (hkeep CallOk) (fun s call hinv => (callOk_iff hinv call).mp)
      directoryInv_init h.left
  · intro h
    constructor
    · exact allSteps_of_invariant (hkeep HasEntry)
        (fun s call hinv => (callOk_iff hinv call).mpr) directoryInv_init h
    · exact allStates_of_invariant (hkeep HasEntry) (fun s hinv => hinv.pages)
        directoryInv_init h

/-!
# All indices issued and nobody registered

The next `Allocate` finds every entry used.
-/

def exhaust : List (DirectoryCall Nat) := List.replicate 8192 .Allocate ++ [.Allocate]

/-- As long as there are fresh indices, calls of `Allocate` take them one by one. -/
theorem run_allocates {n : Nat} (hn : n ≤ MAX_PAGES * ENTRIES_PER_PAGE) :
    exists s : DirectoryState Nat Nat,
      Run step init (List.replicate n .Allocate) = some s ∧ DirectoryInv s ∧
        s.directory.m_iNextIndex.toNat = n ∧
        forall index box, s.directory.GetEntry index = .ok box -> box.m_pActor = none := by
  induction n with
  | zero =>
      refine ⟨init, rfl, directoryInv_init, rfl, ?_⟩
      intro index box hget
      rcases Directory.getEntry_page hget with ⟨_, page, hpage, _⟩
      cases hpage
  | succ n ih =>
      rcases ih (by omega) with ⟨s, hrun, hinv, hnext, hempty⟩
      have hleft : s.directory.m_iNextIndex.toNat < MAX_PAGES * ENTRIES_PER_PAGE := by
        omega
      rcases Directory.allocate_fresh hleft with ⟨d, halloc, hsucc, _, _, horigin⟩
      have hstep : step s (.Allocate : DirectoryCall Nat) =
          some { directory := d, returned := s.directory.m_iNextIndex :: s.returned } := by
        unfold step
        rw [halloc]
        rfl
      refine ⟨_, ?_, directoryInv_step hinv hstep, by rw [hsucc, hnext], ?_⟩
      · rw [List.replicate_succ', run_append _ hrun, run_cons_of_step _ hstep]
        rfl
      · intro index box hget
        rcases horigin index box hget with hold | hnew
        · exact hempty index box hold
        · rw [hnew]
          rfl

theorem exhaust_outOfBounds :
    ¬ WithinBounds (init : DirectoryState Nat Nat) exhaust := by
  intro h
  rcases run_allocates (n := 8192) (Nat.le_refl _) with ⟨s, hrun, hinv, hnext, hempty⟩
  have hlast := (allSteps_after h.left hrun).left
  have hfull : MAX_PAGES * ENTRIES_PER_PAGE ≤ s.directory.m_iNextIndex.toNat := by
    rw [hnext]
    exact Nat.le_refl _
  rcases (callOk_iff hinv .Allocate).mp hlast hfull with ⟨index, box, hget, hactor⟩
  exact hactor (hempty index box hget)

end DirectoryState
end LibActor
end GMServer
