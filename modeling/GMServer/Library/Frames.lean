import Mathlib.Data.List.Basic

/-!
# Length-prefixed frames

A byte stream made of frames, each a payload behind its length in two bytes,
low byte first.  Nothing here knows who writes the stream or who reads it.
-/

namespace GMServer
namespace Frames

abbrev Bytes := List UInt8

/-!
# Writing frames
-/

def lengthBytes (n : Nat) : Bytes :=
  [UInt8.ofNat (n % 256), UInt8.ofNat (n / 256)]

def frame (payload : Bytes) : Bytes :=
  lengthBytes payload.length ++ payload

def encode (payloads : List Bytes) : Bytes :=
  payloads.flatMap frame

@[simp] theorem encode_nil : encode [] = [] := rfl

@[simp] theorem encode_cons (payload : Bytes) (rest : List Bytes) :
    encode (payload :: rest) = frame payload ++ encode rest := rfl

/-!
# Reading frames

Two bytes give a length, and that many bytes the payload.  The stream has no
more frames than bytes, which bounds the recursion.
-/

def readLength (low high : UInt8) : Nat := low.toNat + 256 * high.toNat

def splitUpTo : Nat -> Bytes -> Option (List Bytes)
  | _, [] => some []
  | 0, _ :: _ => none
  | _ + 1, [_] => none
  | frames + 1, low :: high :: rest =>
      if rest.length < readLength low high then
        none
      else
        (splitUpTo frames (rest.drop (readLength low high))).map
          (rest.take (readLength low high) :: ·)

def split (stream : Bytes) : Option (List Bytes) :=
  splitUpTo stream.length stream

theorem readLength_lengthBytes {n : Nat} (hn : n < 65536) :
    readLength (UInt8.ofNat (n % 256)) (UInt8.ofNat (n / 256)) = n := by
  unfold readLength
  rw [UInt8.toNat_ofNat', UInt8.toNat_ofNat']
  omega

theorem splitUpTo_encode {payloads : List Bytes}
    (hbound : forall payload, payload ∈ payloads -> payload.length < 65536)
    {frames : Nat} (hframes : payloads.length ≤ frames) :
    splitUpTo frames (encode payloads) = some payloads := by
  induction payloads generalizing frames with
  | nil =>
      cases frames <;> rfl
  | cons payload rest ih =>
      cases frames with
      | zero =>
          cases hframes
      | succ frames =>
          have hlength : readLength (UInt8.ofNat (payload.length % 256))
              (UInt8.ofNat (payload.length / 256)) = payload.length :=
            readLength_lengthBytes (hbound payload List.mem_cons_self)
          have hrest := ih (fun p hp => hbound p (List.mem_cons_of_mem _ hp))
            (Nat.le_of_succ_le_succ hframes)
          show splitUpTo (frames + 1) (UInt8.ofNat (payload.length % 256) ::
            UInt8.ofNat (payload.length / 256) :: (payload ++ encode rest)) = _
          unfold splitUpTo
          rw [hlength, if_neg (by simp), List.drop_left, List.take_left, hrest]
          rfl

theorem length_le_encode (payloads : List Bytes) :
    payloads.length ≤ (encode payloads).length := by
  induction payloads with
  | nil =>
      exact Nat.le_refl 0
  | cons payload rest ih =>
      rw [encode_cons, List.length_append, List.length_cons]
      have hframe : (frame payload).length = payload.length + 2 := by
        unfold frame lengthBytes
        simp
      omega

/-- Reading gives back what was written. -/
theorem split_encode {payloads : List Bytes}
    (hbound : forall payload, payload ∈ payloads -> payload.length < 65536) :
    split (encode payloads) = some payloads :=
  splitUpTo_encode hbound (length_le_encode payloads)

/-!
# Padding

Two streams that differ only in how much padding stands before a common block
are equal only if the padding is, as long as the block is not all padding.
-/

section Padding

variable {α : Type} [DecidableEq α] {z : α}

theorem takeWhile_replicate_append (k : Nat) (rest : List α) :
    (List.replicate k z ++ rest).takeWhile (· = z) =
      List.replicate k z ++ rest.takeWhile (· = z) := by
  induction k with
  | zero =>
      rfl
  | succ k ih =>
      rw [List.replicate_succ, List.cons_append, List.takeWhile_cons_of_pos (by simp), ih]
      rfl

theorem takeWhile_append_of_ne {block : List α} (hblock : exists c, c ∈ block ∧ c ≠ z)
    (rest : List α) :
    (block ++ rest).takeWhile (· = z) = block.takeWhile (· = z) := by
  induction block with
  | nil =>
      rcases hblock with ⟨c, hc, _⟩
      cases hc
  | cons c block ih =>
      rw [List.cons_append]
      cases decEq c z with
      | isTrue hz =>
          have htail : exists c, c ∈ block ∧ c ≠ z := by
            rcases hblock with ⟨d, hd, hne⟩
            cases hd with
            | head => exact absurd hz hne
            | tail _ hmem => exact ⟨d, hmem, hne⟩
          rw [List.takeWhile_cons_of_pos (by simp [hz]),
            List.takeWhile_cons_of_pos (by simp [hz]), ih htail]
      | isFalse hz =>
          rw [List.takeWhile_cons_of_neg (by simp [hz]),
            List.takeWhile_cons_of_neg (by simp [hz])]

theorem padding_eq {block : List α} (hblock : exists c, c ∈ block ∧ c ≠ z)
    {j k : Nat} {left right : List α}
    (h : List.replicate j z ++ (block ++ left) =
      List.replicate k z ++ (block ++ right)) : j = k := by
  have hlead := congrArg (fun l => (l.takeWhile (· = z)).length) h
  simp only [takeWhile_replicate_append, takeWhile_append_of_ne hblock,
    List.length_append, List.length_replicate] at hlead
  omega

omit [DecidableEq α] in
theorem replicate_append_comm (j k : Nat) (rest : List α) :
    List.replicate j z ++ (List.replicate k z ++ rest) =
      List.replicate k z ++ (List.replicate j z ++ rest) := by
  rw [← List.append_assoc, ← List.append_assoc, List.replicate_append_replicate,
    List.replicate_append_replicate, Nat.add_comm]

end Padding

end Frames
end GMServer
