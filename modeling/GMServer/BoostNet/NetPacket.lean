import GMServer.Utils.AssertUtils
import GMServer.Library.Frames

/-!
# Network packets

A `NetPacket` is a string that begins with the payload length, stored as a
`uint16_t` with the low byte first.  The two constructors lay the string out
differently.
-/

namespace GMServer
namespace BoostNet

open Frames

/-- What fits behind a length of two bytes. -/
structure Payload where
  bytes : Bytes
  bound : bytes.length < 65536

structure NetPacket where
  m_strMsg : Bytes
  deriving DecidableEq, Repr

namespace NetPacket

/-!
# Writing through a pointer

A write at an offset replaces the bytes that are there.
-/

def writeAt (offset : Nat) (bytes strMsg : Bytes) : Bytes :=
  strMsg.take offset ++ bytes ++ strMsg.drop (offset + bytes.length)

/-!
# Constructors and accessors

`GetDataPtr` and `GetBuffPtr` are offsets into the string.  `GetSize` truncates
the length of the whole string.
-/

def ofSize (iSize : uint16_t) : NetPacket :=
  { m_strMsg :=
      writeAt 0 (lengthBytes iSize.toNat) (List.replicate (iSize.toNat + 3) 0) }

def ofMessage (strMsg : Bytes) : NetPacket :=
  let iLen : uint16_t := BitVec.ofNat 16 strMsg.length
  { m_strMsg := lengthBytes iLen.toNat ++ strMsg }

def GetDataPtr : Nat := 2

def GetBuffPtr : Nat := 0

def GetSize (p : NetPacket) : uint16_t := BitVec.ofNat 16 p.m_strMsg.length

/-- Storing the payload behind `GetDataPtr()`, as `ReadBody` does. -/
def fillData (p : NetPacket) (data : Bytes) : NetPacket :=
  { m_strMsg := writeAt GetDataPtr data p.m_strMsg }

/-- `GetSize()` bytes from `GetBuffPtr()`: what `DoSend` hands to `WriteData`. -/
def writtenBytes (p : NetPacket) : Bytes :=
  (p.m_strMsg.drop GetBuffPtr).take p.GetSize.toNat

/-!
# The layout
-/

theorem ofMessage_m_strMsg {strMsg : Bytes} (hlen : strMsg.length < 65536) :
    (ofMessage strMsg).m_strMsg = frame strMsg := by
  have hsize : (BitVec.ofNat 16 strMsg.length).toNat = strMsg.length := by
    rw [BitVec.toNat_ofNat]
    exact Nat.mod_eq_of_lt hlen
  show lengthBytes (BitVec.ofNat 16 strMsg.length).toNat ++ strMsg = frame strMsg
  rw [hsize]
  rfl

theorem ofSize_m_strMsg (iSize : uint16_t) :
    (ofSize iSize).m_strMsg =
      lengthBytes iSize.toNat ++ List.replicate (iSize.toNat + 1) 0 := by
  unfold ofSize writeAt
  have hlength : (lengthBytes iSize.toNat).length = 2 := rfl
  rw [hlength, List.take_zero, List.nil_append, List.drop_replicate]
  rfl

/-- A filled packet is the frame of its payload and one byte more. -/
theorem fillData_m_strMsg {data : Bytes} (hlen : data.length < 65536) :
    ((ofSize (BitVec.ofNat 16 data.length)).fillData data).m_strMsg =
      frame data ++ [0] := by
  have hsize : (BitVec.ofNat 16 data.length).toNat = data.length := by
    rw [BitVec.toNat_ofNat]
    exact Nat.mod_eq_of_lt hlen
  unfold fillData writeAt GetDataPtr
  rw [ofSize_m_strMsg, hsize]
  have htake : (lengthBytes data.length ++ List.replicate (data.length + 1) (0 : UInt8)).take 2 =
      lengthBytes data.length := rfl
  have hdrop : (lengthBytes data.length ++ List.replicate (data.length + 1) (0 : UInt8)).drop
      (2 + data.length) = [0] := by
    rw [← List.drop_drop]
    have hskip : (lengthBytes data.length ++
        List.replicate (data.length + 1) (0 : UInt8)).drop 2 =
          List.replicate (data.length + 1) 0 := rfl
    rw [hskip, List.drop_replicate, Nat.add_sub_cancel_left]
    rfl
  rw [htake, hdrop]
  rfl

end NetPacket
end BoostNet
end GMServer
