import GMServer.Library.Loop
import GMServer.DataHandle.RedisSyncData

/-!
# The two tokenizers

`StringValue::Split` finds one separator after the other and takes the parts between them;
`RedisSyncData::GetString` moves an offset behind the next separator and hands out what it
has passed.  Both are loops over machine words.
-/

namespace GMServer
namespace DataHandle

open Loops

/-!
# Splitting a `std::string`
-/

inductive Platform where
  | X32
  | X64
  deriving DecidableEq, Repr

def Platform.bits : Platform -> Nat
  | .X32 => 32
  | .X64 => 64

theorem Platform.le_bits (platform : Platform) : 32 ≤ platform.bits := by
  cases platform <;> decide

abbrev size_t (platform : Platform) := BitVec platform.bits

namespace StringValue

variable {platform : Platform}

def npos (platform : Platform) : size_t platform := BitVec.allOnes platform.bits

def size (platform : Platform) (str : Text) : size_t platform :=
  BitVec.ofNat platform.bits str.length

def find_first_of (str : Text) (seq : Char) (pos : size_t platform) : size_t platform :=
  match (str.drop pos.toNat).findIdx? (· = seq) with
  | none => npos platform
  | some i => pos + BitVec.ofNat platform.bits i

/-- No result stands for `std::out_of_range`. -/
def substr (str : Text) (pos count : size_t platform) : Option Text :=
  if str.length < pos.toNat then none else some ((str.drop pos.toNat).take count.toNat)

structure Splitting (platform : Platform) where
  iLast : size_t platform
  iIndex : size_t platform
  vOut : List Text
  deriving DecidableEq, Repr

def splitPass (str : Text) (seq : Char) (s : Splitting platform) :
    Option (Pass (Splitting platform) (size_t platform × List Text)) :=
  if s.iIndex ≠ npos platform then
    (substr str s.iLast (s.iIndex - s.iLast)).map (fun piece =>
      .goOn
        { iLast := s.iIndex + 1,
          iIndex := find_first_of str seq (s.iIndex + 1),
          vOut := s.vOut ++ [piece] })
  else some (.leave (s.iLast, s.vOut))

/-- `Split` with the vector it appends to. -/
def SplitInto (platform : Platform) (fuel : Nat) (str : Text) (vOut : List Text) (seq : Char) :
    Option (List Text) :=
  let iLast : size_t platform := 0
  match Loop (splitPass str seq)
      fuel { iLast := iLast, iIndex := find_first_of str seq iLast, vOut := vOut } with
  | none => none
  | some (iLast, vOut) =>
      if size platform str - iLast > 0 then
        (substr str iLast (size platform str - iLast)).map (fun piece => vOut ++ [piece])
      else some vOut

end StringValue

/-!
# Reading a C string
-/

namespace RedisSyncData

/-- The character at an offset; nothing is there behind the terminating NUL. -/
def charAt (pStr : Text) (iOffSet : uint32_t) : Option Char :=
  (pStr ++ ['\x00'])[iOffSet.toNat]?

/-- A `std::string` of so many characters from an offset on. -/
def charsAt (pStr : Text) (iOffSet count : uint32_t) : Option Text :=
  if pStr.length + 1 < iOffSet.toNat + count.toNat then none
  else some (((pStr ++ ['\x00']).drop iOffSet.toNat).take count.toNat)

/-- The loop is left with `iOffSet` and `iCorrect`. -/
def seekPass (pStr : Text) (seq : Char) (iOffSet : uint32_t) :
    Option (Pass uint32_t (uint32_t × uint32_t)) :=
  match charAt pStr iOffSet with
  | none => none
  | some c =>
      if c = '\x00' then some (.leave (iOffSet, 0))
      else if c = seq then some (.leave (iOffSet + 1, 1))
      else some (.goOn (iOffSet + 1))

/-- `GetString`, with the offset it leaves behind. -/
def GetString (fuel : Nat) (pStr : Text) (iOffSet : uint32_t) (seq : Char := '|') :
    Option (Text × uint32_t) :=
  let iBegin := iOffSet
  match Loop (seekPass pStr seq) fuel iOffSet with
  | none => none
  | some (iOffSet, iCorrect) =>
      let iCorrect := if iOffSet = iBegin then 0 else iCorrect
      (charsAt pStr iBegin (iOffSet - iBegin - iCorrect)).map (fun str => (str, iOffSet))

/-- One more call, unless the offset stands on the terminating NUL. -/
def tokenPass (fuel : Nat) (pStr : Text) (seq : Char) (s : uint32_t × List Text) :
    Option (Pass (uint32_t × List Text) (List Text)) :=
  match charAt pStr s.1 with
  | none => none
  | some c =>
      if c = '\x00' then some (.leave s.2)
      else (GetString fuel pStr s.1 seq).map (fun got => .goOn (got.2, s.2 ++ [got.1]))

/-- `GetString` again and again from the offset 0 on. -/
def GetStrings (fuel : Nat) (pStr : Text) (seq : Char) : Option (List Text) :=
  Loop (tokenPass fuel pStr seq) fuel (0, [])

end RedisSyncData

/-!
# Up to the next separator
-/

theorem toNat_succ {w : Nat} {i : BitVec w} (hi : i.toNat + 1 < 2 ^ w) :
    (i + 1).toNat = i.toNat + 1 := by
  have hone : (1 : BitVec w).toNat = 1 := by
    rw [BitVec.ofNat_eq_ofNat, BitVec.toNat_ofNat]
    exact Nat.mod_eq_of_lt (Nat.lt_of_le_of_lt (Nat.le_add_left 1 _) hi)
  rw [BitVec.toNat_add_of_lt (by rw [hone]; exact hi), hone]

theorem drop_cases (text : Text) (n : Nat) (seq : Char) :
    seq ∉ text.drop n ∨
      exists piece rest, text.drop n = piece ++ seq :: rest ∧ seq ∉ piece := by
  by_cases hmem : seq ∈ text.drop n
  · exact Or.inr (List.eq_append_cons_of_mem hmem)
  · exact Or.inl hmem

theorem length_of_drop {text piece rest : Text} {n : Nat} {seq : Char}
    (hdrop : text.drop n = piece ++ seq :: rest) :
    n + piece.length + 1 + rest.length = text.length := by
  have hlength := congrArg List.length hdrop
  rw [List.length_drop, List.length_append, List.length_cons] at hlength
  omega

theorem drop_behind {text piece rest : Text} {n : Nat} {seq : Char}
    (hdrop : text.drop n = piece ++ seq :: rest) :
    text.drop (n + piece.length + 1) = rest := by
  rw [Nat.add_assoc, ← List.drop_drop, hdrop, ← List.drop_drop, List.drop_left]
  rfl

namespace StringValue

variable {platform : Platform} {str : Text} {seq : Char} {vOut : List Text}

theorem find_first_of_none {pos : size_t platform} (hfree : seq ∉ str.drop pos.toNat) :
    find_first_of str seq pos = npos platform := by
  have hnone : (str.drop pos.toNat).findIdx? (· = seq) = none := by
    rw [List.findIdx?_eq_none_iff]
    intro c hc
    exact decide_eq_false (fun hEq => hfree (hEq ▸ hc))
  unfold find_first_of
  rw [hnone]

theorem find_first_of_some (hsize : str.length < 2 ^ platform.bits) {pos : size_t platform}
    {piece rest : Text} (hdrop : str.drop pos.toNat = piece ++ seq :: rest)
    (hfree : seq ∉ piece) :
    find_first_of str seq pos ≠ npos platform ∧
      (find_first_of str seq pos).toNat = pos.toNat + piece.length := by
  have hnone : piece.findIdx? (· = seq) = none := by
    rw [List.findIdx?_eq_none_iff]
    intro c hc
    exact decide_eq_false (fun hEq => hfree (hEq ▸ hc))
  have hsome : (str.drop pos.toNat).findIdx? (· = seq) = some piece.length := by
    rw [hdrop, List.findIdx?_append, hnone, List.findIdx?_cons, if_pos (decide_eq_true rfl)]
    show some (0 + piece.length) = some piece.length
    rw [Nat.zero_add]
  have hlength := length_of_drop hdrop
  have hvalue : (find_first_of str seq pos).toNat = pos.toNat + piece.length := by
    have hpiece : (BitVec.ofNat platform.bits piece.length).toNat = piece.length := by
      rw [BitVec.toNat_ofNat]
      exact Nat.mod_eq_of_lt (by omega)
    unfold find_first_of
    rw [hsome]
    dsimp only
    rw [BitVec.toNat_add_of_lt (by rw [hpiece]; omega), hpiece]
  refine ⟨?_, hvalue⟩
  intro hEq
  rw [hEq] at hvalue
  unfold npos at hvalue
  rw [BitVec.toNat_allOnes] at hvalue
  omega

/-!
# The loop of `Split`

What is in the vector and what the rest of the string is cut into make up the result.
-/

structure SplitInv (str : Text) (seq : Char) (vOut : List Text) (s : Splitting platform) :
    Prop where
  inside : s.iLast.toNat ≤ str.length
  found : s.iIndex = find_first_of str seq s.iLast
  taken : s.vOut ++ Text.pieces seq (str.drop s.iLast.toNat) = vOut ++ Text.pieces seq str

/-- The loop is left where no separator follows. -/
structure SplitEnd (str : Text) (seq : Char) (vOut : List Text)
    (r : size_t platform × List Text) : Prop where
  inside : r.1.toNat ≤ str.length
  free : seq ∉ str.drop r.1.toNat
  taken : r.2 ++ Text.pieces seq (str.drop r.1.toNat) = vOut ++ Text.pieces seq str

theorem splitPass_leaves {s : Splitting platform} (hinv : SplitInv str seq vOut s)
    (hfree : seq ∉ str.drop s.iLast.toNat) :
    splitPass str seq s = some (.leave (s.iLast, s.vOut)) ∧
      SplitEnd str seq vOut (s.iLast, s.vOut) := by
  have hindex : s.iIndex = npos platform := hinv.found.trans (find_first_of_none hfree)
  unfold splitPass
  rw [if_neg (not_not.mpr hindex)]
  exact ⟨rfl, { inside := hinv.inside, free := hfree, taken := hinv.taken }⟩

theorem splitPass_goesOn (hsize : str.length < 2 ^ platform.bits) {s : Splitting platform}
    (hinv : SplitInv str seq vOut s) {piece rest : Text}
    (hdrop : str.drop s.iLast.toNat = piece ++ seq :: rest) (hfree : seq ∉ piece) :
    exists t, splitPass str seq s = some (.goOn t) ∧ SplitInv str seq vOut t ∧
      str.length - t.iLast.toNat < str.length - s.iLast.toNat := by
  have hlength := length_of_drop hdrop
  rcases find_first_of_some hsize hdrop hfree with ⟨hne, hindex⟩
  rw [← hinv.found] at hne hindex
  have hnext : (s.iIndex + 1).toNat = s.iLast.toNat + piece.length + 1 := by
    rw [toNat_succ (by omega), hindex]
  have hcount : (s.iIndex - s.iLast).toNat = piece.length := by
    rw [BitVec.toNat_sub_of_le (by rw [BitVec.le_def]; omega), hindex]
    omega
  have hpiece : substr str s.iLast (s.iIndex - s.iLast) = some piece := by
    unfold substr
    rw [if_neg (by omega), hcount, hdrop, List.take_left]
  refine ⟨{ iLast := s.iIndex + 1, iIndex := find_first_of str seq (s.iIndex + 1),
            vOut := s.vOut ++ [piece] }, ?_, ?_, ?_⟩
  · unfold splitPass
    rw [if_pos hne, hpiece]
    rfl
  · constructor
    · show (s.iIndex + 1).toNat ≤ str.length
      omega
    · rfl
    · dsimp only
      rw [hnext, drop_behind hdrop, ← hinv.taken, hdrop, Text.pieces_cons hfree,
        List.append_assoc, List.singleton_append]
  · show str.length - (s.iIndex + 1).toNat < str.length - s.iLast.toNat
    omega

theorem splitLoop_ends (hsize : str.length < 2 ^ platform.bits) {fuel : Nat}
    (hfuel : str.length < fuel) {s : Splitting platform} (hinv : SplitInv str seq vOut s) :
    exists r, Loop (splitPass str seq) fuel s = some r ∧ SplitEnd str seq vOut r := by
  have hpass : forall s : Splitting platform, SplitInv str seq vOut s ->
      (exists r, splitPass str seq s = some (.leave r) ∧ SplitEnd str seq vOut r) ∨
        exists t, splitPass str seq s = some (.goOn t) ∧ SplitInv str seq vOut t ∧
          str.length - t.iLast.toNat < str.length - s.iLast.toNat := by
    intro s hinv
    rcases drop_cases str s.iLast.toNat seq with hfree | ⟨piece, rest, hdrop, hfree⟩
    · exact Or.inl ⟨_, splitPass_leaves hinv hfree⟩
    · exact Or.inr (splitPass_goesOn hsize hinv hdrop hfree)
  exact loop_ends hpass hinv (Nat.lt_of_le_of_lt (Nat.sub_le _ _) hfuel)

/-- The loop appends what the string is cut into. -/
theorem splitInto_eq (hsize : str.length < 2 ^ platform.bits) {fuel : Nat}
    (hfuel : str.length < fuel) (vOut : List Text) (seq : Char) :
    SplitInto platform fuel str vOut seq = some (vOut ++ Split str seq) := by
  have hstart : SplitInv str seq vOut
      ({ iLast := 0, iIndex := find_first_of str seq 0, vOut := vOut } : Splitting platform) := by
    constructor
    · exact Nat.zero_le _
    · rfl
    · rfl
  rcases splitLoop_ends hsize hfuel hstart with ⟨⟨iLast, out⟩, hloop, hend⟩
  have hinside : iLast.toNat ≤ str.length := hend.inside
  have htaken : out ++ Text.pieces seq (str.drop iLast.toNat) = vOut ++ Text.pieces seq str :=
    hend.taken
  have hcount : (size platform str - iLast).toNat = str.length - iLast.toNat := by
    have hvalue : (size platform str).toNat = str.length := by
      unfold size
      rw [BitVec.toNat_ofNat]
      exact Nat.mod_eq_of_lt hsize
    rw [BitVec.toNat_sub_of_le (by rw [BitVec.le_def]; omega), hvalue]
  unfold SplitInto Split
  dsimp only
  rw [hloop]
  dsimp only
  split
  · rename_i hrest
    have hlast : 0 < str.length - iLast.toNat := by
      rw [← hcount]
      exact BitVec.lt_def.mp hrest
    have hne : str.drop iLast.toNat ≠ [] := by
      rw [← List.length_pos_iff, List.length_drop]
      exact hlast
    have hpiece : substr str iLast (size platform str - iLast) = some (str.drop iLast.toNat) := by
      unfold substr
      rw [if_neg (by omega), hcount, ← List.length_drop, List.take_length]
    rw [hpiece, ← htaken, Text.pieces_last hend.free hne]
    rfl
  · rename_i hrest
    have hlast : str.length - iLast.toNat = 0 := by
      rw [← hcount]
      exact Nat.eq_zero_of_not_pos (fun h => hrest (BitVec.lt_def.mpr h))
    have hnil : str.drop iLast.toNat = [] := List.drop_eq_nil_iff.mpr (by omega)
    rw [← htaken, hnil, show Text.pieces seq [] = [] from rfl, List.append_nil]

end StringValue

namespace RedisSyncData

variable {pStr : Text} {seq : Char} {iBegin iOffSet : uint32_t}

/-!
# The loop of `GetString`

It stops behind the next separator or at the terminating NUL, and the correction term tells
the two apart.
-/

theorem charAt_end (hend : iOffSet.toNat = pStr.length) : charAt pStr iOffSet = some '\x00' := by
  unfold charAt
  rw [hend]
  exact List.getElem?_concat_length

theorem charAt_cons {c : Char} {rest : Text} (hdrop : pStr.drop iOffSet.toNat = c :: rest) :
    charAt pStr iOffSet = some c := by
  have hlength := congrArg List.length hdrop
  rw [List.length_drop, List.length_cons] at hlength
  unfold charAt
  rw [List.getElem?_append_left (by omega), ← List.head?_drop, hdrop]
  rfl

/-- In the string the offset stands on a character of its own or on the terminating NUL. -/
theorem charAt_cases (hzero : '\x00' ∉ pStr) (hinside : iOffSet.toNat ≤ pStr.length) :
    (pStr.drop iOffSet.toNat = [] ∧ iOffSet.toNat = pStr.length ∧
        charAt pStr iOffSet = some '\x00') ∨
      exists c rest, pStr.drop iOffSet.toNat = c :: rest ∧ iOffSet.toNat < pStr.length ∧
        charAt pStr iOffSet = some c ∧ c ≠ '\x00' := by
  cases hrest : pStr.drop iOffSet.toNat with
  | nil =>
      have hend : iOffSet.toNat = pStr.length :=
        Nat.le_antisymm hinside (List.drop_eq_nil_iff.mp hrest)
      exact Or.inl ⟨rfl, hend, charAt_end hend⟩
  | cons c rest =>
      have hlength := congrArg List.length hrest
      rw [List.length_drop, List.length_cons] at hlength
      refine Or.inr ⟨c, rest, rfl, by omega, charAt_cons hrest, ?_⟩
      intro hEq
      rw [hEq] at hrest
      exact hzero (List.mem_of_mem_drop (hrest ▸ List.mem_cons_self))

theorem charsAt_eq (hbegin : iBegin.toNat ≤ pStr.length) {piece rest : Text}
    (hdrop : pStr.drop iBegin.toNat = piece ++ rest) {count : uint32_t}
    (hcount : count.toNat = piece.length) : charsAt pStr iBegin count = some piece := by
  have hlength := congrArg List.length hdrop
  rw [List.length_drop, List.length_append] at hlength
  unfold charsAt
  rw [if_neg (by omega), List.drop_append_of_le_length hbegin, hdrop, List.append_assoc, hcount,
    List.take_left]

/-- The offset has come from `iBegin` without meeting a separator. -/
structure SeekInv (pStr : Text) (seq : Char) (iBegin iOffSet : uint32_t) : Prop where
  inside : iOffSet.toNat ≤ pStr.length
  passed : exists before, seq ∉ before ∧ iOffSet.toNat = iBegin.toNat + before.length ∧
    pStr.drop iBegin.toNat = before ++ pStr.drop iOffSet.toNat

def SeekEnd (pStr : Text) (seq : Char) (iBegin : uint32_t) (r : uint32_t × uint32_t) : Prop :=
  (seq ∉ pStr.drop iBegin.toNat ∧ r.1.toNat = pStr.length ∧ r.2 = 0) ∨
    exists piece rest, pStr.drop iBegin.toNat = piece ++ seq :: rest ∧ seq ∉ piece ∧
      r.1.toNat = iBegin.toNat + piece.length + 1 ∧ r.2 = 1

theorem seekPass_spec (hzero : '\x00' ∉ pStr) (hsize : pStr.length < 2 ^ 32)
    (hinv : SeekInv pStr seq iBegin iOffSet) :
    (exists r, seekPass pStr seq iOffSet = some (.leave r) ∧ SeekEnd pStr seq iBegin r) ∨
      exists t, seekPass pStr seq iOffSet = some (.goOn t) ∧ SeekInv pStr seq iBegin t ∧
        pStr.length - t.toNat < pStr.length - iOffSet.toNat := by
  rcases hinv.passed with ⟨before, hfree, hoffset, hdrop⟩
  unfold seekPass
  rcases charAt_cases hzero hinv.inside with
    ⟨hnil, hend, hchar⟩ | ⟨c, rest, hrest, hinside, hchar, hc⟩
  · rw [hnil, List.append_nil] at hdrop
    rw [hchar]
    dsimp only
    rw [if_pos rfl]
    exact Or.inl ⟨_, rfl, Or.inl ⟨hdrop ▸ hfree, hend, rfl⟩⟩
  · have hnext : (iOffSet + 1).toNat = iOffSet.toNat + 1 := toNat_succ (by omega)
    rw [hchar]
    dsimp only
    rw [if_neg hc]
    by_cases hseq : c = seq
    · rw [if_pos hseq]
      refine Or.inl ⟨_, rfl, Or.inr ⟨before, rest, ?_, hfree, ?_, rfl⟩⟩
      · rw [hdrop, hrest, hseq]
      · rw [hnext, hoffset]
    · rw [if_neg hseq]
      have hbehind : pStr.drop (iOffSet.toNat + 1) = rest := by
        rw [← List.tail_drop, hrest, List.tail_cons]
      refine Or.inr ⟨_, rfl, ?_, by omega⟩
      constructor
      · omega
      · refine ⟨before ++ [c], ?_, ?_, ?_⟩
        · rw [List.mem_append, List.mem_singleton, not_or]
          exact ⟨hfree, Ne.symm hseq⟩
        · rw [hnext, hoffset, List.length_append, List.length_singleton, Nat.add_assoc]
        · rw [hdrop, hrest, hnext, hbehind, List.append_assoc, List.singleton_append]

theorem seekLoop_ends (hzero : '\x00' ∉ pStr) (hsize : pStr.length < 2 ^ 32)
    (hbegin : iBegin.toNat ≤ pStr.length) (seq : Char) {fuel : Nat} (hfuel : pStr.length < fuel) :
    exists r, Loop (seekPass pStr seq) fuel iBegin = some r ∧ SeekEnd pStr seq iBegin r := by
  have hstart : SeekInv pStr seq iBegin iBegin :=
    { inside := hbegin, passed := ⟨[], List.not_mem_nil, rfl, rfl⟩ }
  exact loop_ends (fun _ hinv => seekPass_spec hzero hsize hinv) hstart
    (Nat.lt_of_le_of_lt (Nat.sub_le _ _) hfuel)

/-- A call hands out the next piece: the rest if no separator follows, and otherwise what
stands in front of the next one, which is left out. -/
theorem GetString_spec (hzero : '\x00' ∉ pStr) (hsize : pStr.length < 2 ^ 32)
    (hbegin : iBegin.toNat ≤ pStr.length) (seq : Char) {fuel : Nat} (hfuel : pStr.length < fuel) :
    exists piece iEnd, GetString fuel pStr iBegin seq = some (piece, iEnd) ∧
      ((seq ∉ pStr.drop iBegin.toNat ∧ piece = pStr.drop iBegin.toNat ∧
          iEnd.toNat = pStr.length) ∨
        exists rest, pStr.drop iBegin.toNat = piece ++ seq :: rest ∧ seq ∉ piece ∧
          iEnd.toNat = iBegin.toNat + piece.length + 1) := by
  rcases seekLoop_ends hzero hsize hbegin seq hfuel with ⟨⟨iEnd, iCorrect⟩, hloop, hstop⟩
  unfold GetString
  dsimp only
  rw [hloop]
  dsimp only
  rcases hstop with ⟨hfree, hend, hcorrect⟩ | ⟨piece, rest, hdrop, hfree, hend, hcorrect⟩
  · dsimp only at hend hcorrect
    have hcount : (iEnd - iBegin - 0).toNat = (pStr.drop iBegin.toNat).length := by
      rw [BitVec.ofNat_eq_ofNat, BitVec.sub_zero,
        BitVec.toNat_sub_of_le (by rw [BitVec.le_def]; omega), hend, List.length_drop]
    rw [hcorrect, ite_self, charsAt_eq hbegin (List.append_nil _).symm hcount]
    exact ⟨_, _, rfl, Or.inl ⟨hfree, rfl, hend⟩⟩
  · dsimp only at hend hcorrect
    have hlength := length_of_drop hdrop
    have hne : iEnd ≠ iBegin := by
      intro hEq
      rw [hEq] at hend
      omega
    have hone : (1 : uint32_t).toNat = 1 := rfl
    have hpassed : (iEnd - iBegin).toNat = piece.length + 1 := by
      rw [BitVec.toNat_sub_of_le (by rw [BitVec.le_def]; omega)]
      omega
    have hcount : (iEnd - iBegin - 1).toNat = piece.length := by
      rw [BitVec.toNat_sub_of_le (by rw [BitVec.le_def]; omega)]
      omega
    rw [if_neg hne, hcorrect, charsAt_eq hbegin hdrop hcount]
    exact ⟨_, _, rfl, Or.inr ⟨rest, hdrop, hfree, hend⟩⟩

/-!
# One call after the other
-/

structure TokenInv (pStr : Text) (seq : Char) (s : uint32_t × List Text) : Prop where
  inside : s.1.toNat ≤ pStr.length
  taken : s.2 ++ Text.pieces seq (pStr.drop s.1.toNat) = Text.pieces seq pStr

theorem tokenPass_goesOn (hzero : '\x00' ∉ pStr) (hsize : pStr.length < 2 ^ 32) {fuel : Nat}
    (hfuel : pStr.length < fuel) {s : uint32_t × List Text} (hinv : TokenInv pStr seq s)
    (hinside : s.1.toNat < pStr.length) :
    exists piece iEnd, GetString fuel pStr s.1 seq = some (piece, iEnd) ∧
      TokenInv pStr seq (iEnd, s.2 ++ [piece]) ∧
      pStr.length - iEnd.toNat < pStr.length - s.1.toNat := by
  rcases GetString_spec hzero hsize hinv.inside seq hfuel with
    ⟨piece, iEnd, hgot, ⟨hfree, hpiece, hend⟩ | ⟨rest, hdrop, hfree, hend⟩⟩
  · refine ⟨piece, iEnd, hgot, ?_, by omega⟩
    have hne : pStr.drop s.1.toNat ≠ [] := by
      rw [← List.length_pos_iff, List.length_drop]
      omega
    constructor
    · exact Nat.le_of_eq hend
    · dsimp only
      rw [hend, List.drop_length, show Text.pieces seq [] = [] from rfl, List.append_nil,
        ← hinv.taken, Text.pieces_last hfree hne, hpiece]
  · have hlength := length_of_drop hdrop
    refine ⟨piece, iEnd, hgot, ?_, by omega⟩
    constructor
    · dsimp only
      omega
    · dsimp only
      rw [hend, drop_behind hdrop, ← hinv.taken, hdrop, Text.pieces_cons hfree,
        List.append_assoc, List.singleton_append]

theorem tokenPass_spec (hzero : '\x00' ∉ pStr) (hsize : pStr.length < 2 ^ 32) {fuel : Nat}
    (hfuel : pStr.length < fuel) {s : uint32_t × List Text} (hinv : TokenInv pStr seq s) :
    (exists out, tokenPass fuel pStr seq s = some (.leave out) ∧ out = Text.pieces seq pStr) ∨
      exists t, tokenPass fuel pStr seq s = some (.goOn t) ∧ TokenInv pStr seq t ∧
        pStr.length - t.1.toNat < pStr.length - s.1.toNat := by
  unfold tokenPass
  rcases charAt_cases hzero hinv.inside with
    ⟨hnil, _, hchar⟩ | ⟨c, rest, _, hinside, hchar, hc⟩
  · have htaken := hinv.taken
    rw [hnil, show Text.pieces seq [] = [] from rfl, List.append_nil] at htaken
    rw [hchar]
    dsimp only
    rw [if_pos rfl]
    exact Or.inl ⟨_, rfl, htaken⟩
  · rcases tokenPass_goesOn hzero hsize hfuel hinv hinside with ⟨piece, iEnd, hgot, hnext, hless⟩
    rw [hchar]
    dsimp only
    rw [if_neg hc, hgot]
    exact Or.inr ⟨_, rfl, hnext, hless⟩

theorem GetStrings_eq (hzero : '\x00' ∉ pStr) (hsize : pStr.length < 2 ^ 32) {fuel : Nat}
    (hfuel : pStr.length < fuel) (seq : Char) :
    GetStrings fuel pStr seq = some (StringValue.Split pStr seq) := by
  have hstart : TokenInv pStr seq (0, []) := { inside := Nat.zero_le _, taken := rfl }
  rcases loop_ends (fun _ hinv => tokenPass_spec hzero hsize hfuel hinv) hstart
    (Nat.lt_of_le_of_lt (Nat.sub_le _ _) hfuel) with ⟨out, hloop, hout⟩
  unfold GetStrings StringValue.Split
  rw [hloop, hout]

end RedisSyncData

/-!
# Both of them
-/

/-- Both loops come to their ends with the segments of the text, and segments that are closed by
a separator each are what the text they make up is cut into. -/
theorem tokenizers_agree (platform : Platform) {s : Text} (hzero : '\x00' ∉ s)
    (hsize : s.length < 2 ^ 32) (c : Char) :
    (forall (vOut : List Text) (fuel : Nat), s.length < fuel ->
      StringValue.SplitInto platform fuel s vOut c = some (vOut ++ Text.segments c s)) ∧
    (forall list : List Text, (forall segment, segment ∈ list -> c ∉ segment) ->
      (list.flatMap (fun segment => segment ++ [c])).length < 2 ^ platform.bits ->
        forall (vOut : List Text) (fuel : Nat),
          (list.flatMap (fun segment => segment ++ [c])).length < fuel ->
            StringValue.SplitInto platform fuel (list.flatMap (fun segment => segment ++ [c]))
              vOut c = some (vOut ++ list)) ∧
    forall fuel : Nat, s.length < fuel ->
      RedisSyncData.GetStrings fuel s c = some (Text.segments c s) := by
  have hsplit : StringValue.Split s c = Text.segments c s := Text.pieces_eq_segments c s
  have hbits : s.length < 2 ^ platform.bits :=
    Nat.lt_of_lt_of_le hsize (Nat.pow_le_pow_right (by decide) platform.le_bits)
  refine ⟨?_, ?_, ?_⟩
  · intro vOut fuel hfuel
    rw [StringValue.splitInto_eq hbits hfuel, hsplit]
  · intro list hfree hlength vOut fuel hfuel
    have hback : StringValue.Split (list.flatMap (fun segment => segment ++ [c])) c = list :=
      Text.pieces_flatMap hfree
    rw [StringValue.splitInto_eq hlength hfuel, hback]
  · intro fuel hfuel
    rw [RedisSyncData.GetStrings_eq hzero hsize hfuel, hsplit]

theorem short_text_agrees :
    StringValue.SplitInto .X32 6 "a||b|".toList [] '|' = some ["a".toList, [], "b".toList] ∧
      RedisSyncData.GetStrings 6 "a||b|".toList '|' = some ["a".toList, [], "b".toList] := by
  have hagree := tokenizers_agree .X32 (show '\x00' ∉ "a||b|".toList by decide) (by decide) '|'
  have hsegments : Text.segments '|' "a||b|".toList = ["a".toList, [], "b".toList] := by decide
  rw [hsegments] at hagree
  exact ⟨hagree.left [] 6 (by decide), hagree.right.right 6 (by decide)⟩

end DataHandle
end GMServer
