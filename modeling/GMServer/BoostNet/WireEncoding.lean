import GMServer.BoostNet.NetPacket

/-!
# What a list of packets puts on the wire

A packet that is sent was built from a string, or by size and then filled.  The
receiver expects the frames of the payloads.  `GetSize` is two more than the
payload for the first kind and three more for the second, and it wraps.
-/

namespace GMServer
namespace BoostNet

open Frames

inductive BuiltPacket where
  | message (strMsg : Payload)
  | filled (data : Payload)

namespace BuiltPacket

def packet : BuiltPacket -> NetPacket
  | .message strMsg => NetPacket.ofMessage strMsg.bytes
  | .filled data =>
      (NetPacket.ofSize (BitVec.ofNat 16 data.bytes.length)).fillData data.bytes

def payload : BuiltPacket -> Bytes
  | .message strMsg => strMsg.bytes
  | .filled data => data.bytes

theorem payload_bound (p : BuiltPacket) : p.payload.length < 65536 := by
  cases p with
  | message strMsg => exact strMsg.bound
  | filled data => exact data.bound

end BuiltPacket

def sentBytes (packets : List BuiltPacket) : Bytes :=
  packets.flatMap (fun p => p.packet.writtenBytes)

def payloads (packets : List BuiltPacket) : List Bytes :=
  packets.map BuiltPacket.payload

def EncodesFrames (packets : List BuiltPacket) : Prop :=
  sentBytes packets = encode (payloads packets) ∧
    split (sentBytes packets) = some (payloads packets)

@[simp] theorem sentBytes_cons (p : BuiltPacket) (rest : List BuiltPacket) :
    sentBytes (p :: rest) = p.packet.writtenBytes ++ sentBytes rest := rfl

@[simp] theorem encode_payloads_cons (p : BuiltPacket) (rest : List BuiltPacket) :
    encode (payloads (p :: rest)) = frame p.payload ++ encode (payloads rest) := rfl

/-!
# The condition

A string of at most 65533 bytes is sent as its frame.  A filled packet sends one
zero too many, or, from 65533 bytes on, loses its end; only the loss of 65535
zeros can be made good, when empty filled packets send the zeros later.
`Balanced owed` says that the packets do so, while `owed` zeros are missing.
-/

def Balanced : Nat -> List BuiltPacket -> Prop
  | owed, [] => owed = 0
  | 0, .message strMsg :: rest => strMsg.bytes.length ≤ 65533 ∧ Balanced 0 rest
  | 0, .filled data :: rest =>
      data.bytes = List.replicate 65535 0 ∧ Balanced 65535 rest
  | owed + 1, .message strMsg :: rest => strMsg.bytes = [] ∧ Balanced (owed + 1) rest
  | owed + 1, .filled data :: rest => data.bytes = [] ∧ Balanced owed rest

/-!
# The bytes of one packet
-/

theorem frame_length (payload : Bytes) : (frame payload).length = payload.length + 2 := by
  unfold frame lengthBytes
  simp

theorem frame_nil : frame [] = List.replicate 2 0 := rfl

theorem message_written (strMsg : Payload) :
    (BuiltPacket.message strMsg).packet.writtenBytes =
      (frame strMsg.bytes).take ((strMsg.bytes.length + 2) % 65536) := by
  show ((NetPacket.ofMessage strMsg.bytes).m_strMsg.drop 0).take
    (BitVec.ofNat 16 (NetPacket.ofMessage strMsg.bytes).m_strMsg.length).toNat = _
  rw [NetPacket.ofMessage_m_strMsg strMsg.bound, List.drop_zero, BitVec.toNat_ofNat,
    frame_length]

theorem filled_written (data : Payload) :
    (BuiltPacket.filled data).packet.writtenBytes =
      (frame data.bytes ++ [0]).take ((data.bytes.length + 3) % 65536) := by
  show (((NetPacket.ofSize _).fillData data.bytes).m_strMsg.drop 0).take
    (BitVec.ofNat 16 ((NetPacket.ofSize _).fillData data.bytes).m_strMsg.length).toNat = _
  rw [NetPacket.fillData_m_strMsg data.bound, List.drop_zero, BitVec.toNat_ofNat,
    List.length_append, frame_length]
  rfl

theorem message_complete {strMsg : Payload} (h : strMsg.bytes.length ≤ 65533) :
    (BuiltPacket.message strMsg).packet.writtenBytes = frame strMsg.bytes := by
  rw [message_written, Nat.mod_eq_of_lt (by omega), ← frame_length, List.take_length]

theorem filled_complete {data : Payload} (h : data.bytes.length ≤ 65532) :
    (BuiltPacket.filled data).packet.writtenBytes = frame data.bytes ++ [0] := by
  rw [filled_written, Nat.mod_eq_of_lt (by omega)]
  apply List.take_of_length_le
  rw [List.length_append, frame_length]
  simp

theorem message_truncated {strMsg : Payload} (h : 65533 < strMsg.bytes.length) :
    (BuiltPacket.message strMsg).packet.writtenBytes =
      (lengthBytes strMsg.bytes.length).take (strMsg.bytes.length - 65534) := by
  have hbound := strMsg.bound
  have hsize : (strMsg.bytes.length + 2) % 65536 = strMsg.bytes.length - 65534 := by
    omega
  rw [message_written, hsize]
  apply List.take_append_of_le_length
  show _ ≤ 2
  omega

theorem filled_truncated {data : Payload} (h : 65532 < data.bytes.length) :
    (BuiltPacket.filled data).packet.writtenBytes =
      (lengthBytes data.bytes.length).take (data.bytes.length - 65533) := by
  have hbound := data.bound
  have hsize : (data.bytes.length + 3) % 65536 = data.bytes.length - 65533 := by
    omega
  rw [filled_written, hsize]
  unfold frame
  rw [List.append_assoc]
  apply List.take_append_of_le_length
  show _ ≤ 2
  omega

/-!
# Counting the bytes that are not zero

No packet sends more of them than its frame has, and one that stops inside the
header sends fewer.
-/

def nonzero (bytes : Bytes) : Nat := bytes.countP (· ≠ 0)

theorem nonzero_append (left right : Bytes) :
    nonzero (left ++ right) = nonzero left + nonzero right :=
  List.countP_append

theorem nonzero_replicate (k : Nat) : nonzero (List.replicate k 0) = 0 := by
  unfold nonzero
  rw [List.countP_replicate]
  rfl

theorem nonzero_take_le (k : Nat) (bytes : Bytes) :
    nonzero (bytes.take k) ≤ nonzero bytes :=
  (List.take_sublist k bytes).countP_le

theorem replicate_of_nonzero_eq_zero {bytes : Bytes} (h : nonzero bytes = 0) :
    bytes = List.replicate bytes.length 0 := by
  rw [List.eq_replicate_iff]
  constructor
  · rfl
  · intro c hc
    have hzero := List.countP_eq_zero.mp h c hc
    simpa using hzero

theorem nonzero_written_le (p : BuiltPacket) :
    nonzero p.packet.writtenBytes ≤ nonzero (frame p.payload) := by
  cases p with
  | message strMsg =>
      rw [message_written]
      exact nonzero_take_le _ _
  | filled data =>
      rw [filled_written]
      have hpad : nonzero (frame data.bytes ++ [0]) = nonzero (frame data.bytes) := by
        rw [nonzero_append]
        rfl
      rw [show (BuiltPacket.filled data).payload = data.bytes from rfl, ← hpad]
      exact nonzero_take_le _ _

theorem nonzero_sent_le (packets : List BuiltPacket) :
    nonzero (sentBytes packets) ≤ nonzero (encode (payloads packets)) := by
  induction packets with
  | nil =>
      exact Nat.le_refl 0
  | cons p rest ih =>
      have hp := nonzero_written_le p
      rw [sentBytes_cons, encode_payloads_cons, nonzero_append, nonzero_append]
      omega

/-- A packet that sends too few such bytes cannot be made good by the rest. -/
theorem sent_ne_of_nonzero_lt {p : BuiltPacket} {rest : List BuiltPacket}
    (h : nonzero p.packet.writtenBytes < nonzero (frame p.payload)) (owed : Nat) :
    List.replicate owed 0 ++ encode (payloads (p :: rest)) ≠ sentBytes (p :: rest) := by
  intro hEq
  have hcount := congrArg nonzero hEq
  have hrest := nonzero_sent_le rest
  rw [sentBytes_cons, encode_payloads_cons, nonzero_append, nonzero_append,
    nonzero_append, nonzero_replicate] at hcount
  omega

theorem nonzero_short_header {n k : Nat} (hn : 65533 ≤ n) (hbound : n < 65536)
    (hk : k < 2) :
    nonzero ((lengthBytes n).take k) < nonzero (lengthBytes n) := by
  have hcases : n = 65533 ∨ n = 65534 ∨ n = 65535 := by omega
  have hzero : k = 0 ∨ k = 1 := by omega
  rcases hcases with h | h | h <;> rcases hzero with h' | h' <;> subst h <;> subst h' <;>
    decide

theorem header_nonzero {n : Nat} (hpos : 0 < n) (hbound : n < 65536) :
    exists c, c ∈ lengthBytes n ∧ c ≠ 0 := by
  by_cases hlow : n % 256 = 0
  · refine ⟨UInt8.ofNat (n / 256), by simp [lengthBytes], ?_⟩
    intro hEq
    have hval := congrArg UInt8.toNat hEq
    rw [UInt8.toNat_ofNat'] at hval
    have hz : (0 : UInt8).toNat = 0 := rfl
    omega
  · refine ⟨UInt8.ofNat (n % 256), by simp [lengthBytes], ?_⟩
    intro hEq
    have hval := congrArg UInt8.toNat hEq
    rw [UInt8.toNat_ofNat'] at hval
    have hz : (0 : UInt8).toNat = 0 := rfl
    omega

theorem message_short {strMsg : Payload} (h : 65533 < strMsg.bytes.length) :
    nonzero (BuiltPacket.message strMsg).packet.writtenBytes <
      nonzero (frame (BuiltPacket.message strMsg).payload) := by
  have hbound := strMsg.bound
  have hheader := nonzero_short_header (n := strMsg.bytes.length)
    (k := strMsg.bytes.length - 65534) (by omega) hbound (by omega)
  rw [message_truncated h]
  show _ < nonzero (lengthBytes strMsg.bytes.length ++ strMsg.bytes)
  rw [nonzero_append]
  omega

theorem filled_short {data : Payload} (h : 65532 < data.bytes.length)
    (hne : data.bytes.length ≠ 65535) :
    nonzero (BuiltPacket.filled data).packet.writtenBytes <
      nonzero (frame (BuiltPacket.filled data).payload) := by
  have hbound := data.bound
  have hheader := nonzero_short_header (n := data.bytes.length)
    (k := data.bytes.length - 65533) (by omega) hbound (by omega)
  rw [filled_truncated h]
  show _ < nonzero (lengthBytes data.bytes.length ++ data.bytes)
  rw [nonzero_append]
  omega

theorem filled_header {data : Payload} (h : data.bytes.length = 65535) :
    (BuiltPacket.filled data).packet.writtenBytes = lengthBytes 65535 := by
  rw [filled_truncated (by omega), h]
  rfl

/-- A packet sends its whole header, or too few bytes that are not zero. -/
theorem written_header_or_short (p : BuiltPacket) :
    (exists tail, p.packet.writtenBytes = lengthBytes p.payload.length ++ tail) ∨
      (65533 ≤ p.payload.length ∧
        nonzero p.packet.writtenBytes < nonzero (frame p.payload)) := by
  cases p with
  | message strMsg =>
      by_cases hlong : 65533 < strMsg.bytes.length
      · exact Or.inr ⟨Nat.le_of_lt hlong, message_short hlong⟩
      · exact Or.inl ⟨strMsg.bytes, message_complete (by omega)⟩
  | filled data =>
      by_cases hlong : 65532 < data.bytes.length
      · by_cases hmax : data.bytes.length = 65535
        · refine Or.inl ⟨[], ?_⟩
          rw [filled_header hmax, List.append_nil, ← hmax]
          rfl
        · exact Or.inr ⟨hlong, filled_short hlong hmax⟩
      · refine Or.inl ⟨data.bytes ++ [0], ?_⟩
        rw [filled_complete (by omega)]
        unfold frame
        rw [List.append_assoc]
        rfl

/-!
# Zeros sent too early

The frames never run behind what was sent by a few zeros: the next header that
is not zero would stand at two places.
-/

theorem message_empty {strMsg : Payload} (h : strMsg.bytes = []) :
    (BuiltPacket.message strMsg).packet.writtenBytes = List.replicate 2 0 := by
  rw [message_complete (by rw [h]; decide), h]
  rfl

theorem filled_empty {data : Payload} (h : data.bytes = []) :
    (BuiltPacket.filled data).packet.writtenBytes =
      List.replicate 2 0 ++ List.replicate 1 0 := by
  rw [filled_complete (by rw [h]; decide), h]
  rfl

theorem long_header_head {n : Nat} (hn : 65533 ≤ n) (hbound : n < 65536) :
    exists c tail, lengthBytes n = c :: tail ∧ c ≠ 0 := by
  refine ⟨_, _, rfl, ?_⟩
  have hcases : n = 65533 ∨ n = 65534 ∨ n = 65535 := by omega
  rcases hcases with h | h | h <;> subst h <;> decide

theorem encode_ne_zeros_sent (packets : List BuiltPacket) (k : Nat) :
    encode (payloads packets) ≠ List.replicate (k + 1) 0 ++ sentBytes packets := by
  induction packets generalizing k with
  | nil =>
      intro h
      cases h
  | cons p rest ih =>
      intro h
      rw [encode_payloads_cons, sentBytes_cons] at h
      by_cases hempty : p.payload = []
      · rw [hempty, frame_nil] at h
        cases p with
        | message strMsg =>
            rw [message_empty hempty, replicate_append_comm] at h
            exact ih k (List.append_cancel_left h)
        | filled data =>
            rw [filled_empty hempty, List.append_assoc, replicate_append_comm] at h
            have hrest := List.append_cancel_left h
            rw [← List.append_assoc, List.replicate_append_replicate] at hrest
            exact ih (k + 1) hrest
      · have hpos : 0 < p.payload.length := List.length_pos_iff.mpr hempty
        rcases written_header_or_short p with ⟨tail, hwritten⟩ | ⟨hlong, _⟩
        · unfold frame at h
          rw [hwritten, List.append_assoc, List.append_assoc] at h
          have hzero := padding_eq (j := 0)
            (header_nonzero hpos p.payload_bound) h
          omega
        · rcases long_header_head hlong p.payload_bound with ⟨c, tail, hhead, hc⟩
          unfold frame at h
          rw [hhead, List.replicate_succ] at h
          exact hc (List.cons.inj h).left

/-!
# The condition is exact
-/

theorem message_of_sent {strMsg : Payload} {rest : List BuiltPacket}
    (h : encode (payloads (.message strMsg :: rest)) = sentBytes (.message strMsg :: rest)) :
    strMsg.bytes.length ≤ 65533 ∧ encode (payloads rest) = sentBytes rest := by
  have hfits : strMsg.bytes.length ≤ 65533 := by
    by_contra hlong
    exact sent_ne_of_nonzero_lt (message_short (by omega)) 0 h
  refine ⟨hfits, ?_⟩
  rw [encode_payloads_cons, sentBytes_cons, message_complete hfits] at h
  exact List.append_cancel_left h

theorem filled_of_sent {data : Payload} {rest : List BuiltPacket}
    (h : encode (payloads (.filled data :: rest)) = sentBytes (.filled data :: rest)) :
    data.bytes = List.replicate 65535 0 ∧
      List.replicate 65535 0 ++ encode (payloads rest) = sentBytes rest := by
  by_cases hlong : 65532 < data.bytes.length
  · have hmax : data.bytes.length = 65535 := by
      by_contra hne
      exact sent_ne_of_nonzero_lt (filled_short hlong hne) 0 h
    rw [encode_payloads_cons, sentBytes_cons, filled_header hmax] at h
    have hframe : frame (BuiltPacket.filled data).payload = lengthBytes 65535 ++ data.bytes := by
      rw [← hmax]
      rfl
    rw [hframe, List.append_assoc] at h
    have hrest : data.bytes ++ encode (payloads rest) = sentBytes rest :=
      List.append_cancel_left h
    -- the payload lost has no byte that is not zero
    have hzeros : data.bytes = List.replicate 65535 0 := by
      have hcount := congrArg nonzero hrest
      have hle := nonzero_sent_le rest
      rw [nonzero_append] at hcount
      rw [← hmax]
      exact replicate_of_nonzero_eq_zero (by omega)
    rw [hzeros] at hrest
    exact ⟨hzeros, hrest⟩
  · rw [encode_payloads_cons, sentBytes_cons, filled_complete (by omega)] at h
    have hrest : frame data.bytes ++ encode (payloads rest) =
        frame data.bytes ++ (List.replicate 1 0 ++ sentBytes rest) := by
      rw [← List.append_assoc]
      exact h
    exact absurd (List.append_cancel_left hrest) (encode_ne_zeros_sent rest 0)

/-- A zero too many is made good by an empty packet only. -/
theorem payload_of_owed {p : BuiltPacket} {rest : List BuiltPacket} {owed : Nat}
    (h : List.replicate (owed + 1) 0 ++ encode (payloads (p :: rest)) = sentBytes (p :: rest)) :
    p.payload = [] := by
  by_contra hne
  have hpos : 0 < p.payload.length := List.length_pos_iff.mpr hne
  rcases written_header_or_short p with ⟨tail, hwritten⟩ | ⟨_, hshort⟩
  · rw [encode_payloads_cons, sentBytes_cons, hwritten] at h
    unfold frame at h
    rw [List.append_assoc, List.append_assoc] at h
    have hzero := padding_eq (k := 0) (header_nonzero hpos p.payload_bound) h
    omega
  · exact sent_ne_of_nonzero_lt hshort _ h

theorem balanced_of_sent {packets : List BuiltPacket} {owed : Nat}
    (h : List.replicate owed 0 ++ encode (payloads packets) = sentBytes packets) :
    Balanced owed packets := by
  induction packets generalizing owed with
  | nil =>
      cases owed with
      | zero => exact rfl
      | succ owed => cases h
  | cons p rest ih =>
      cases owed with
      | zero =>
          cases p with
          | message strMsg =>
              rcases message_of_sent h with ⟨hfits, hrest⟩
              exact ⟨hfits, ih hrest⟩
          | filled data =>
              rcases filled_of_sent h with ⟨hzeros, hrest⟩
              exact ⟨hzeros, ih hrest⟩
      | succ owed =>
          have hempty := payload_of_owed h
          rw [encode_payloads_cons, sentBytes_cons, hempty, frame_nil] at h
          cases p with
          | message strMsg =>
              rw [message_empty hempty, replicate_append_comm] at h
              exact ⟨hempty, ih (List.append_cancel_left h)⟩
          | filled data =>
              rw [filled_empty hempty, replicate_append_comm, List.append_assoc] at h
              have hrest := List.append_cancel_left h
              rw [Nat.add_comm, ← List.replicate_append_replicate, List.append_assoc] at hrest
              exact ⟨hempty, ih (List.append_cancel_left hrest)⟩

theorem sent_of_balanced {packets : List BuiltPacket} {owed : Nat}
    (h : Balanced owed packets) :
    List.replicate owed 0 ++ encode (payloads packets) = sentBytes packets := by
  induction packets generalizing owed with
  | nil =>
      have howed : owed = 0 := by
        cases owed <;> exact h
      rw [howed]
      rfl
  | cons p rest ih =>
      rw [encode_payloads_cons, sentBytes_cons]
      cases owed with
      | zero =>
          cases p with
          | message strMsg =>
              rw [message_complete h.left, ← ih h.right]
              rfl
          | filled data =>
              have hmax : data.bytes.length = 65535 := by
                rw [h.left, List.length_replicate]
              have hframe : frame (BuiltPacket.filled data).payload =
                  lengthBytes 65535 ++ data.bytes := by
                rw [← hmax]
                rfl
              rw [filled_header hmax, ← ih h.right, hframe, ← h.left, List.append_assoc]
              rfl
      | succ owed =>
          cases p with
          | message strMsg =>
              have hempty : (BuiltPacket.message strMsg).payload = [] := h.left
              rw [hempty, frame_nil, message_empty h.left, ← ih h.right,
                replicate_append_comm]
          | filled data =>
              have hempty : (BuiltPacket.filled data).payload = [] := h.left
              rw [hempty, frame_nil, filled_empty h.left, ← ih h.right,
                replicate_append_comm, List.append_assoc, ← List.append_assoc
                (List.replicate 1 0), List.replicate_append_replicate, Nat.add_comm 1]

theorem payloads_bound (packets : List BuiltPacket) (bytes : Bytes)
    (h : bytes ∈ payloads packets) : bytes.length < 65536 := by
  rcases List.mem_map.mp h with ⟨p, _, hp⟩
  rw [← hp]
  exact p.payload_bound

theorem sent_eq_encode_iff (packets : List BuiltPacket) :
    sentBytes packets = encode (payloads packets) <-> Balanced 0 packets := by
  constructor
  · intro h
    exact balanced_of_sent h.symm
  · intro h
    exact (sent_of_balanced h).symm

/-- The packets that encode their payloads are the balanced ones. -/
theorem encodesFrames_iff (packets : List BuiltPacket) :
    EncodesFrames packets <-> Balanced 0 packets := by
  unfold EncodesFrames
  rw [← sent_eq_encode_iff]
  constructor
  · intro h
    exact h.left
  · intro h
    constructor
    · exact h
    · rw [h]
      exact split_encode (payloads_bound packets)

/-- Lists of strings that leave room for the header are among them. -/
theorem balanced_messages {packets : List BuiltPacket}
    (h : forall p, p ∈ packets ->
      exists strMsg, p = .message strMsg ∧ strMsg.bytes.length ≤ 65533) :
    Balanced 0 packets := by
  induction packets with
  | nil =>
      exact rfl
  | cons p rest ih =>
      rcases h p List.mem_cons_self with ⟨strMsg, hp, hlen⟩
      rw [hp]
      exact ⟨hlen, ih (fun q hq => h q (List.mem_cons_of_mem _ hq))⟩

/-- A relayed packet of one byte sends a zero behind its frame. -/
theorem oneByte_not_encoded :
    ¬ EncodesFrames [.filled { bytes := [65], bound := by decide }] := by
  intro h
  exact absurd h.left (by decide)

end BoostNet
end GMServer
