import Mathlib.Logic.Function.Basic
import GMServer.Utils.AssertUtils

/-!
# The paged directory

`Directory<EntryType>` hands out indices below `MAX_PAGES * ENTRIES_PER_PAGE`
and allocates the page of an index when it is first handed out.  The template
asks its entry type for a default constructor and for `IsUsed`.
-/

namespace GMServer
namespace LibActor

def ENTRIES_PER_PAGE : Nat := 256

def MAX_PAGES : Nat := 32

/-- What the template uses of its entry type. -/
class DirectoryEntry (EntryType : Type) where
  new : EntryType
  IsUsed : EntryType -> Bool

structure Directory (EntryType : Type) where
  m_iNextIndex : uint32_t
  m_Pages : Fin MAX_PAGES -> Option (Fin ENTRIES_PER_PAGE -> EntryType)
  m_iMaxIndex : uint32_t
  m_iReuseIndex : uint32_t

namespace Directory

variable {EntryType : Type}

def new : Directory EntryType :=
  { m_iNextIndex := 0,
    m_Pages := fun _ => none,
    m_iMaxIndex := 0,
    m_iReuseIndex := 0 }

def offsetOf (index : uint32_t) : Fin ENTRIES_PER_PAGE :=
  ⟨index.toNat % ENTRIES_PER_PAGE, Nat.mod_lt _ (by decide)⟩

/-!
# Access

`GetEntry` asserts that the page number is in range and the page allocated.
`setEntry` is a write through the reference that `GetEntry` returns.
-/

def GetEntry (d : Directory EntryType) (index : uint32_t) :
    Except Fault EntryType :=
  if h : index.toNat / ENTRIES_PER_PAGE < MAX_PAGES then
    match d.m_Pages ⟨index.toNat / ENTRIES_PER_PAGE, h⟩ with
    | none => .error .assertFailed
    | some page => .ok (page (offsetOf index))
  else
    .error .assertFailed

def setEntry (d : Directory EntryType) (index : uint32_t) (entry : EntryType) :
    Directory EntryType :=
  if h : index.toNat / ENTRIES_PER_PAGE < MAX_PAGES then
    match d.m_Pages ⟨index.toNat / ENTRIES_PER_PAGE, h⟩ with
    | none => d
    | some page =>
        { d with
          m_Pages :=
            Function.update d.m_Pages ⟨index.toNat / ENTRIES_PER_PAGE, h⟩
              (some (Function.update page (offsetOf index) entry)) }
  else
    d

/-!
# Allocation

Without an index given, a fresh one is taken while there is one; after that the
entries are scanned for one that is not used.  When the scan finds none the
index stays `-1`, and the page table is read far behind its end.
-/

section Allocate

variable [DirectoryEntry EntryType]

def reuseScan (d : Directory EntryType) : Nat -> Nat -> Except Fault uint32_t
  | 0, _ => .ok (-1)
  | count + 1, i =>
      match d.GetEntry (BitVec.ofNat 32 i) with
      | .error fault => .error fault
      | .ok entry =>
          if !DirectoryEntry.IsUsed entry then .ok (BitVec.ofNat 32 i)
          else reuseScan d count (i + 1)

def chooseIndex (d : Directory EntryType) (index : uint32_t) :
    Except Fault (Directory EntryType × uint32_t) :=
  if index = -1 then
    if d.m_iNextIndex.toNat < MAX_PAGES * ENTRIES_PER_PAGE then
      .ok ({ d with m_iNextIndex := d.m_iNextIndex + 1 }, d.m_iNextIndex)
    else
      match reuseScan d (MAX_PAGES * ENTRIES_PER_PAGE) 0 with
      | .error fault => .error fault
      | .ok found =>
          let next := found + 1
          .ok
            ({ d with
                m_iReuseIndex :=
                  if next.toNat >= MAX_PAGES * ENTRIES_PER_PAGE then 0 else next },
              found)
  else
    .ok (d, index)

def allocatePage (d : Directory EntryType) (index : uint32_t) :
    Except Fault (Directory EntryType) :=
  if h : index.toNat / ENTRIES_PER_PAGE < MAX_PAGES then
    match d.m_Pages ⟨index.toNat / ENTRIES_PER_PAGE, h⟩ with
    | some _ => .ok d
    | none =>
        .ok { d with
          m_Pages :=
            Function.update d.m_Pages ⟨index.toNat / ENTRIES_PER_PAGE, h⟩
              (some (fun _ => DirectoryEntry.new)) }
  else
    .error .outOfBounds

def Allocate (d : Directory EntryType) (index : uint32_t) :
    Except Fault (Directory EntryType × uint32_t) :=
  match chooseIndex d index with
  | .error fault => .error fault
  | .ok (chosen, index) =>
      match allocatePage chosen index with
      | .error fault => .error fault
      | .ok paged =>
          if paged.m_iNextIndex.toNat < index.toNat then
            .ok ({ paged with m_iMaxIndex := index }, index)
          else
            .ok (paged, index)

end Allocate

/-!
# Reading back
-/

theorem index_eq_of_page_offset {i j : uint32_t}
    (hpage : i.toNat / ENTRIES_PER_PAGE = j.toNat / ENTRIES_PER_PAGE)
    (hoffset : offsetOf i = offsetOf j) : i = j := by
  have hmod : i.toNat % ENTRIES_PER_PAGE = j.toNat % ENTRIES_PER_PAGE :=
    congrArg Fin.val hoffset
  apply BitVec.eq_of_toNat_eq
  rw [← Nat.div_add_mod i.toNat ENTRIES_PER_PAGE,
    ← Nat.div_add_mod j.toNat ENTRIES_PER_PAGE, hpage, hmod]

theorem getEntry_of_page {d : Directory EntryType} {index : uint32_t}
    (h : index.toNat / ENTRIES_PER_PAGE < MAX_PAGES)
    {page : Fin ENTRIES_PER_PAGE -> EntryType}
    (hpage : d.m_Pages ⟨index.toNat / ENTRIES_PER_PAGE, h⟩ = some page) :
    d.GetEntry index = .ok (page (offsetOf index)) := by
  unfold GetEntry
  rw [dif_pos h, hpage]

theorem getEntry_page {d : Directory EntryType} {index : uint32_t}
    {entry : EntryType} (hget : d.GetEntry index = .ok entry) :
    exists (h : index.toNat / ENTRIES_PER_PAGE < MAX_PAGES)
      (page : Fin ENTRIES_PER_PAGE -> EntryType),
      d.m_Pages ⟨index.toNat / ENTRIES_PER_PAGE, h⟩ = some page ∧
        page (offsetOf index) = entry := by
  unfold GetEntry at hget
  split at hget
  · rename_i h
    split at hget
    · cases hget
    · rename_i page hpage
      cases hget
      exact ⟨h, page, hpage, rfl⟩
  · cases hget

theorem getEntry_error {d : Directory EntryType} {index : uint32_t} {fault : Fault}
    (hget : d.GetEntry index = .error fault) : fault = .assertFailed := by
  unfold GetEntry at hget
  split at hget
  · split at hget
    · cases hget
      rfl
    · cases hget
  · cases hget
    rfl

theorem getEntry_setEntry_self {d : Directory EntryType} {index : uint32_t}
    {old : EntryType} (hget : d.GetEntry index = .ok old) (entry : EntryType) :
    (d.setEntry index entry).GetEntry index = .ok entry := by
  rcases getEntry_page hget with ⟨h, page, hpage, _⟩
  unfold setEntry
  rw [dif_pos h, hpage]
  rw [getEntry_of_page h (Function.update_self ..), Function.update_self]

theorem getEntry_setEntry_of_ne {d : Directory EntryType} {index other : uint32_t}
    (hne : other ≠ index) (entry : EntryType) :
    (d.setEntry index entry).GetEntry other = d.GetEntry other := by
  unfold setEntry
  split
  · rename_i h
    split
    · rfl
    · rename_i page hpage
      unfold GetEntry
      split
      · rename_i hother
        by_cases hsame : other.toNat / ENTRIES_PER_PAGE = index.toNat / ENTRIES_PER_PAGE
        · have hoffset : offsetOf other ≠ offsetOf index := by
            intro hEq
            exact hne (index_eq_of_page_offset hsame hEq)
          simp only [hsame, Function.update_self, hpage]
          rw [Function.update_of_ne hoffset]
        · have hpages : Function.update d.m_Pages ⟨index.toNat / ENTRIES_PER_PAGE, h⟩
              (some (Function.update page (offsetOf index) entry))
              ⟨other.toNat / ENTRIES_PER_PAGE, hother⟩ =
                d.m_Pages ⟨other.toNat / ENTRIES_PER_PAGE, hother⟩ :=
            Function.update_of_ne (by simpa using hsame) _ _
          simp only [hpages]
      · rfl
  · rfl

@[simp] theorem setEntry_m_iNextIndex (d : Directory EntryType)
    (index : uint32_t) (entry : EntryType) :
    (d.setEntry index entry).m_iNextIndex = d.m_iNextIndex := by
  unfold setEntry
  split
  · split <;> rfl
  · rfl

/-!
# One page

Allocating a page keeps the entries there were and adds new ones.
-/

variable [DirectoryEntry EntryType]

theorem allocatePage_spec {d : Directory EntryType} {index : uint32_t}
    (h : index.toNat / ENTRIES_PER_PAGE < MAX_PAGES) :
    exists d', allocatePage d index = .ok d' ∧
      d'.m_iNextIndex = d.m_iNextIndex ∧
      (exists entry, d'.GetEntry index = .ok entry) ∧
      (forall i entry, d.GetEntry i = .ok entry -> d'.GetEntry i = .ok entry) ∧
      (forall i entry, d'.GetEntry i = .ok entry ->
        d.GetEntry i = .ok entry ∨ entry = DirectoryEntry.new) := by
  unfold allocatePage
  rw [dif_pos h]
  cases hpage : d.m_Pages ⟨index.toNat / ENTRIES_PER_PAGE, h⟩ with
  | some page =>
      exact ⟨d, rfl, rfl, ⟨_, getEntry_of_page h hpage⟩,
        fun _ _ hget => hget, fun _ _ hget => Or.inl hget⟩
  | none =>
      refine ⟨_, rfl, rfl, ⟨_, getEntry_of_page h (Function.update_self ..)⟩, ?_, ?_⟩
      · intro i entry hget
        rcases getEntry_page hget with ⟨hi, page, hold, hentry⟩
        have hne : i.toNat / ENTRIES_PER_PAGE ≠ index.toNat / ENTRIES_PER_PAGE := by
          intro hEq
          simp only [hEq, hpage] at hold
          cases hold
        rw [← hentry]
        apply getEntry_of_page hi
        rw [← hold]
        exact Function.update_of_ne (by simpa using hne) _ _
      · intro i entry hget
        rcases getEntry_page hget with ⟨hi, page, hnow, hentry⟩
        by_cases hEq : i.toNat / ENTRIES_PER_PAGE = index.toNat / ENTRIES_PER_PAGE
        · apply Or.inr
          simp only [hEq, Function.update_self] at hnow
          cases hnow
          exact hentry.symm
        · apply Or.inl
          rw [← hentry]
          apply getEntry_of_page hi
          rw [← hnow]
          exact (Function.update_of_ne (by simpa using hEq) _ _).symm

/-!
# The two cases of `Allocate`

While fresh indices are left, the next one is returned and its page is there.
After that, the index returned is one whose entry answers `IsUsed` with false.
-/

theorem allocate_fresh {d : Directory EntryType}
    (hnext : d.m_iNextIndex.toNat < MAX_PAGES * ENTRIES_PER_PAGE) :
    exists d', d.Allocate (-1) = .ok (d', d.m_iNextIndex) ∧
      d'.m_iNextIndex.toNat = d.m_iNextIndex.toNat + 1 ∧
      (exists entry, d'.GetEntry d.m_iNextIndex = .ok entry) ∧
      (forall i entry, d.GetEntry i = .ok entry -> d'.GetEntry i = .ok entry) ∧
      (forall i entry, d'.GetEntry i = .ok entry ->
        d.GetEntry i = .ok entry ∨ entry = DirectoryEntry.new) := by
  have hbound : d.m_iNextIndex.toNat < 8192 := hnext
  have hsucc : (d.m_iNextIndex + 1).toNat = d.m_iNextIndex.toNat + 1 := by
    rw [BitVec.toNat_add]
    show (d.m_iNextIndex.toNat + 1) % 2 ^ 32 = d.m_iNextIndex.toNat + 1
    omega
  have hchoose : chooseIndex d (-1) =
      .ok ({ d with m_iNextIndex := d.m_iNextIndex + 1 }, d.m_iNextIndex) := by
    unfold chooseIndex
    rw [if_pos rfl, if_pos hnext]
  have hpage : d.m_iNextIndex.toNat / ENTRIES_PER_PAGE < MAX_PAGES := by
    unfold ENTRIES_PER_PAGE MAX_PAGES
    omega
  rcases allocatePage_spec (d := { d with m_iNextIndex := d.m_iNextIndex + 1 }) hpage with
    ⟨d', halloc, hd', hentry, hkept, hold⟩
  have hmax : ¬ d'.m_iNextIndex.toNat < d.m_iNextIndex.toNat := by
    rw [hd', hsucc]
    omega
  refine ⟨d', ?_, ?_, hentry, hkept, hold⟩
  · unfold Allocate
    simp only [hchoose, halloc, if_neg hmax]
  · rw [hd', hsucc]

theorem reuseScan_cases {d : Directory EntryType} {count i : Nat}
    (hbound : i + count ≤ MAX_PAGES * ENTRIES_PER_PAGE) {found : uint32_t}
    (hscan : reuseScan d count i = .ok found) :
    found = -1 ∨
      (found.toNat < MAX_PAGES * ENTRIES_PER_PAGE ∧
        exists entry, d.GetEntry found = .ok entry ∧
          DirectoryEntry.IsUsed entry = false) := by
  induction count generalizing i with
  | zero =>
      cases hscan
      exact Or.inl rfl
  | succ count ih =>
      unfold reuseScan at hscan
      split at hscan
      · cases hscan
      · rename_i entry hget
        by_cases hused : DirectoryEntry.IsUsed entry = true
        · rw [if_neg (by simp [hused])] at hscan
          exact ih (by omega) hscan
        · have hfree : DirectoryEntry.IsUsed entry = false := by simpa using hused
          rw [if_pos (by simp [hfree])] at hscan
          cases hscan
          have hmax : MAX_PAGES * ENTRIES_PER_PAGE = 8192 := rfl
          refine Or.inr ⟨?_, entry, hget, hfree⟩
          rw [BitVec.toNat_ofNat]
          omega

theorem allocate_reuse {d d' : Directory EntryType} {index : uint32_t}
    (hnext : MAX_PAGES * ENTRIES_PER_PAGE ≤ d.m_iNextIndex.toNat)
    (hallocate : d.Allocate (-1) = .ok (d', index)) :
    exists entry, d'.GetEntry index = .ok entry ∧
      DirectoryEntry.IsUsed entry = false := by
  unfold Allocate chooseIndex at hallocate
  rw [if_pos rfl, if_neg (by omega)] at hallocate
  cases hscan : reuseScan d (MAX_PAGES * ENTRIES_PER_PAGE) 0 with
  | error fault =>
      simp only [hscan] at hallocate
      cases hallocate
  | ok found =>
      simp only [hscan] at hallocate
      rcases reuseScan_cases (by omega) hscan with hnone | ⟨hlt, entry, hget, hfree⟩
      · -- index -1 lies behind the page table
        have hout : ¬ (-1 : uint32_t).toNat / ENTRIES_PER_PAGE < MAX_PAGES := by
          decide
        rw [hnone] at hallocate
        simp only [allocatePage, dif_neg hout] at hallocate
        cases hallocate
      · rcases getEntry_page hget with ⟨h, page, hpage, _⟩
        simp only [allocatePage, dif_pos h, hpage] at hallocate
        rw [if_neg (by omega)] at hallocate
        cases hallocate
        exact ⟨entry, hget, hfree⟩

/-!
# Which entries there are

Those of the pages that have been allocated.
-/

/-- An index whose page is there. -/
def Paged (d : Directory EntryType) (index : uint32_t) : Prop :=
  exists entry, d.GetEntry index = .ok entry

omit [DirectoryEntry EntryType] in
theorem paged_iff (d : Directory EntryType) (index : uint32_t) :
    d.Paged index <-> exists h : index.toNat / ENTRIES_PER_PAGE < MAX_PAGES,
      d.m_Pages ⟨index.toNat / ENTRIES_PER_PAGE, h⟩ ≠ none := by
  constructor
  · intro h
    rcases h with ⟨entry, hget⟩
    rcases getEntry_page hget with ⟨hpage, page, hsome, _⟩
    exact ⟨hpage, by rw [hsome]; exact Option.some_ne_none page⟩
  · intro h
    rcases h with ⟨hpage, hsome⟩
    rcases Option.ne_none_iff_exists'.mp hsome with ⟨page, hEq⟩
    exact ⟨_, getEntry_of_page hpage hEq⟩

omit [DirectoryEntry EntryType] in
theorem paged_setEntry (d : Directory EntryType) (index : uint32_t) (entry : EntryType)
    (i : uint32_t) : (d.setEntry index entry).Paged i <-> d.Paged i := by
  by_cases hsame : i = index
  · rw [hsame]
    constructor
    · intro h
      rcases (paged_iff _ _).mp h with ⟨hpage, hsome⟩
      rw [paged_iff]
      refine ⟨hpage, ?_⟩
      intro hnone
      apply hsome
      unfold setEntry
      rw [dif_pos hpage, hnone]
      exact hnone
    · intro h
      rcases h with ⟨old, hget⟩
      exact ⟨entry, getEntry_setEntry_self hget entry⟩
  · unfold Paged
    rw [getEntry_setEntry_of_ne hsame]

/-- Allocating a page makes its indices accessible and no others. -/
theorem paged_allocatePage {d d' : Directory EntryType} {index : uint32_t}
    (hallocate : allocatePage d index = .ok d') (i : uint32_t) :
    d'.Paged i <-> d.Paged i ∨
      i.toNat / ENTRIES_PER_PAGE = index.toNat / ENTRIES_PER_PAGE := by
  unfold allocatePage at hallocate
  split at hallocate
  · rename_i h
    split at hallocate
    · rename_i page hpage
      cases hallocate
      constructor
      · intro hi
        exact Or.inl hi
      · intro hi
        rcases hi with hi | hsame
        · exact hi
        · rw [paged_iff]
          simp only [hsame]
          exact ⟨h, by rw [hpage]; exact Option.some_ne_none page⟩
    · rename_i hnone
      cases hallocate
      rw [paged_iff, paged_iff]
      by_cases hsame : i.toNat / ENTRIES_PER_PAGE = index.toNat / ENTRIES_PER_PAGE
      · simp only [hsame, Function.update_self]
        exact iff_of_true ⟨h, Option.some_ne_none _⟩ (Or.inr trivial)
      · rw [or_iff_left hsame]
        apply exists_congr
        intro hi
        dsimp only
        rw [Function.update_of_ne (by simpa using hsame)]
  · cases hallocate

/-- A fresh index brings its page with it. -/
theorem paged_allocate {d d' : Directory EntryType} {index : uint32_t}
    (hnext : d.m_iNextIndex.toNat < MAX_PAGES * ENTRIES_PER_PAGE)
    (hallocate : d.Allocate (-1) = .ok (d', index)) (i : uint32_t) :
    d'.Paged i <-> d.Paged i ∨
      i.toNat / ENTRIES_PER_PAGE = d.m_iNextIndex.toNat / ENTRIES_PER_PAGE := by
  have hchoose : chooseIndex d (-1) =
      .ok ({ d with m_iNextIndex := d.m_iNextIndex + 1 }, d.m_iNextIndex) := by
    unfold chooseIndex
    rw [if_pos rfl, if_pos hnext]
  unfold Allocate at hallocate
  rw [hchoose] at hallocate
  dsimp only at hallocate
  split at hallocate
  · cases hallocate
  · rename_i paged hpaged
    have hpages := paged_allocatePage hpaged i
    split at hallocate
    · cases hallocate
      exact hpages
    · cases hallocate
      exact hpages

end Directory
end LibActor
end GMServer
