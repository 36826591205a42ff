import GMServer.Utils.AssertUtils

/-!
# Actor addresses

`Detail::Address` is a union of one 32-bit word with two bit-field views of it.
The fields are laid out from the least significant bit.
-/

namespace GMServer
namespace LibActor

structure Address where
  m_Uint32 : uint32_t
  deriving DecidableEq, Repr

namespace Address

/-!
# The two views

`m_Detail` splits the word into 7, 7, 5 and 13 bits, `m_Brief` into 19 and 13.
Both have the mailbox index in the top 13 bits.
-/

def m_Group (a : Address) : BitVec 7 := a.m_Uint32.extractLsb' 0 7

def m_Channel (a : Address) : BitVec 7 := a.m_Uint32.extractLsb' 7 7

def m_Process (a : Address) : BitVec 5 := a.m_Uint32.extractLsb' 14 5

def m_Index (a : Address) : BitVec 13 := a.m_Uint32.extractLsb' 19 13

def mProcess (a : Address) : BitVec 19 := a.m_Uint32.extractLsb' 0 19

/-!
# Constructors

The constructor from a process and an index takes both as `uint16_t`: a caller
that passes a wider value has it truncated before the bit-fields are written.
-/

def ofUint32 (iIndex : uint32_t) : Address := { m_Uint32 := iIndex }

def ofBrief (iProcessID index : uint16_t) : Address :=
  { m_Uint32 := index.setWidth 13 ++ iProcessID.setWidth 19 }

/-- The mailbox index as the `uint32_t` that `Directory::GetEntry` takes. -/
def entryIndex (a : Address) : uint32_t := a.m_Index.setWidth 32

theorem m_Index_ofBrief (iProcessID index : uint16_t) :
    (ofBrief iProcessID index).m_Index = index.setWidth 13 := by
  unfold m_Index ofBrief
  exact BitVec.extractLsb'_append_eq_left

theorem entryIndex_ofUint32_zero : (ofUint32 0).entryIndex = 0 := by
  decide

theorem entryIndex_ofBrief (iProcessID : uint16_t) {index : uint32_t}
    (hindex : index.toNat < 8192) :
    (ofBrief iProcessID (index.setWidth 16)).entryIndex = index := by
  unfold entryIndex
  rw [m_Index_ofBrief]
  apply BitVec.eq_of_toNat_eq
  simp only [BitVec.toNat_setWidth]
  omega

/-!
# The process

The 19 bits of `m_Brief` are the group, the channel and the process of `m_Detail`.
A process that was given to the constructor has at most 16 of them.
-/

theorem mProcess_eq_iff (a b : Address) :
    a.mProcess = b.mProcess <->
      a.m_Group = b.m_Group ∧ a.m_Channel = b.m_Channel ∧ a.m_Process = b.m_Process := by
  unfold mProcess m_Group m_Channel m_Process
  simp only [← BitVec.toNat_inj, BitVec.extractLsb'_toNat, Nat.shiftRight_eq_div_pow]
  omega

theorem mProcess_ofBrief (iProcessID index : uint16_t) :
    (ofBrief iProcessID index).mProcess = iProcessID.setWidth 19 := by
  unfold mProcess ofBrief
  exact BitVec.extractLsb'_append_eq_right

theorem setWidth_mProcess_iff (a : Address) :
    (a.mProcess.setWidth 16).setWidth 19 = a.mProcess <-> a.m_Process.toNat < 4 := by
  unfold mProcess m_Process
  simp only [← BitVec.toNat_inj, BitVec.toNat_setWidth, BitVec.extractLsb'_toNat,
    Nat.shiftRight_eq_div_pow]
  omega

theorem m_Index_ne_zero {a : Address} (hindex : a.entryIndex ≠ 0) : a.m_Index ≠ 0 := by
  intro hzero
  apply hindex
  unfold entryIndex
  rw [hzero]
  rfl

end Address

end LibActor
end GMServer
