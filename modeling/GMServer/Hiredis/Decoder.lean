import GMServer.Library.Incremental
import GMServer.Hiredis.Reader

/-!
# What a reader decodes

The purpose of the reader without its buffer and its stack: what has come in is read item
by item, and the items are put into the arrays that are still open.
-/

namespace GMServer
namespace Hiredis

open Incremental

/-!
# Lines
-/

/-- The first line and what follows it. -/
def lineOf (u : Text) : Option (Text × Text) :=
  (seekNewline u).map (fun len => (u.take len, u.drop (len + 2)))

/-- The number on a line. -/
def lineNumber (line : Text) : longlong := (readLongLong (line ++ ['\r'])).getD 0

theorem seekNewline_split {u : Text} {len : Nat} (h : seekNewline u = some len) :
    exists line rest, u = line ++ '\r' :: '\n' :: rest ∧ line.length = len := by
  fun_induction seekNewline u generalizing len with
  | case1 => cases h
  | case2 c => cases h
  | case3 c d rest hend =>
      cases h
      exact ⟨[], rest, by rw [hend.left, hend.right]; rfl, rfl⟩
  | case4 c d rest _ ih =>
      rcases Option.map_eq_some_iff.mp h with ⟨before, hbefore, hlen⟩
      rcases ih hbefore with ⟨line, after, hEq, hlength⟩
      refine ⟨c :: line, after, ?_, ?_⟩
      · rw [hEq, List.cons_append]
      · rw [List.length_cons, hlength, hlen]

theorem seekNewline_append {u : Text} {len : Nat} (h : seekNewline u = some len) (w : Text) :
    seekNewline (u ++ w) = some len := by
  fun_induction seekNewline u generalizing len with
  | case1 => cases h
  | case2 c => cases h
  | case3 c d rest hend =>
      cases h
      exact if_pos hend
  | case4 c d rest hend ih =>
      rcases Option.map_eq_some_iff.mp h with ⟨before, hbefore, hlen⟩
      rw [List.cons_append, List.cons_append, seekNewline, if_neg hend, ← List.cons_append,
        ih hbefore, Option.map_some, hlen]

theorem lineOf_split {u line rest : Text} (h : lineOf u = some (line, rest)) :
    seekNewline u = some line.length ∧ u = line ++ '\r' :: '\n' :: rest := by
  rcases Option.map_eq_some_iff.mp h with ⟨len, hseek, hpair⟩
  rcases seekNewline_split hseek with ⟨first, after, hEq, hlength⟩
  rw [← hlength, hEq, List.take_left, ← List.drop_drop, List.drop_left] at hpair
  cases hpair
  rw [hlength]
  exact ⟨hseek, hEq⟩

theorem lineOf_append {u line rest : Text} (h : lineOf u = some (line, rest)) (w : Text) :
    lineOf (u ++ w) = some (line, rest ++ w) := by
  rcases lineOf_split h with ⟨hseek, hEq⟩
  unfold lineOf
  rw [seekNewline_append hseek, Option.map_some, hEq, List.append_assoc, List.take_left,
    ← List.drop_drop, List.drop_left]
  rfl

theorem lineOf_eq_none {u : Text} : lineOf u = none <-> seekNewline u = none :=
  Option.map_eq_none_iff

/-- A number ends with its line. -/
theorem readDigits_line (mult v : longlong) (line rest : Text) :
    exists value, readDigits mult v (line ++ '\r' :: rest) = some value ∧
      readDigits mult v (line ++ ['\r']) = some value := by
  induction line generalizing v with
  | nil => exact ⟨mult * v, if_pos rfl, if_pos rfl⟩
  | cons c line ih =>
      rw [List.cons_append, List.cons_append, readDigits, readDigits]
      by_cases hend : c = '\r'
      · rw [if_pos hend, if_pos hend]
        exact ⟨mult * v, rfl, rfl⟩
      · rw [if_neg hend, if_neg hend]
        by_cases hdigit : c.isDigit = true
        · rw [if_pos hdigit, if_pos hdigit]
          exact ih _
        · rw [if_neg hdigit, if_neg hdigit]
          exact ⟨-1, rfl, rfl⟩

theorem readLongLong_line (line rest : Text) :
    readLongLong (line ++ '\r' :: rest) = some (lineNumber line) := by
  have hread : exists value, readLongLong (line ++ '\r' :: rest) = some value ∧
      readLongLong (line ++ ['\r']) = some value := by
    cases line with
    | nil => exact readDigits_line 1 0 [] rest
    | cons c line =>
        by_cases hminus : c = '-'
        · rw [hminus]
          exact readDigits_line (-1) 0 line rest
        · by_cases hplus : c = '+'
          · rw [hplus]
            exact readDigits_line 1 0 line rest
          · have hother : forall s, readLongLong (c :: s) = readDigits 1 0 (c :: s) := by
              intro s
              unfold readLongLong
              split
              · rename_i hEq
                exact absurd (List.cons.inj hEq).left hminus
              · rename_i hEq
                exact absurd (List.cons.inj hEq).left hplus
              · rfl
            rw [List.cons_append, List.cons_append, hother, hother]
            exact readDigits_line 1 0 (c :: line) rest
  rcases hread with ⟨value, hlong, hshort⟩
  unfold lineNumber
  rw [hlong, hshort]
  rfl

/-!
# Open arrays
-/

/-- An array under construction. -/
structure Frame where
  elements : Nat
  done : List redisReply
  deriving Repr

/-- An object goes into the innermost array; full arrays go on to the next one. -/
def complete (obj : redisReply) : List Frame -> List Frame × Option redisReply
  | [] => ([], some obj)
  | f :: frames =>
      if f.done.length + 1 = f.elements then
        complete (.array f.elements ((f.done ++ [obj]).map some)) frames
      else ({ f with done := f.done ++ [obj] } :: frames, none)

/-- The frames are listed from the innermost array outwards; a type is there once the
first byte of an item has been read. -/
structure Decoder where
  type : Option ReplyType
  frames : List Frame
  returned : List redisReply
  err : Option (ErrorType × Text)
  deriving Repr

namespace Decoder

def start : Decoder := { type := none, frames := [], returned := [], err := none }

def put (d : Decoder) (obj : redisReply) : Decoder :=
  { d with
    type := none, frames := (complete obj d.frames).1,
    returned := d.returned ++ (complete obj d.frames).2.toList }

def fail (d : Decoder) (type : ErrorType) (text : Text) : Decoder :=
  { d with type := none, frames := [], err := some (type, text.take 127) }

def openArray (d : Decoder) (elements : Nat) : Decoder :=
  { d with type := none, frames := { elements := elements, done := [] } :: d.frames }

/-!
# Reading an item
-/

/-- The first byte says what the item is; arrays are nested once. -/
def readType (d : Decoder) (byte : Char) : Decoder :=
  match redisReader.replyTypeOf byte with
  | none => d.fail .protocol (redisReader.protocolByteText byte)
  | some type =>
      if type = .array ∧ d.frames.length = 2 then d.fail .protocol redisReader.nestedText
      else { d with type := some type }

def readBulk (d : Decoder) (line rest : Text) : Option (Decoder × Text) :=
  let len := toLong (lineNumber line)
  if len < 0 then some (d.put .nil, rest)
  else if len.toNat + 2 ≤ rest.length then
    some (d.put (.string (rest.take len.toNat)), rest.drop (len.toNat + 2))
  else none

def readMultiBulk (d : Decoder) (line : Text) : Decoder :=
  let elements := toLong (lineNumber line)
  if elements = -1 then d.put .nil
  else if elements > 0 then d.openArray elements.toNat
  else d.put (.array elements [])

def readItem (d : Decoder) (line rest : Text) : ReplyType -> Option (Decoder × Text)
  | .integer => some (d.put (.integer (lineNumber line).toInt), rest)
  | .status => some (d.put (.status line), rest)
  | .error => some (d.put (.error line), rest)
  | .string => d.readBulk line rest
  | .array => some (d.readMultiBulk line, rest)
  | .nil => none

/-- After an error everything is swallowed. -/
def read : Reader Decoder Char := fun d u =>
  match d.err, d.type, u with
  | some _, _, [] => none
  | some _, _, _ :: rest => some (d, rest)
  | none, none, [] => none
  | none, none, byte :: rest => some (d.readType byte, rest)
  | none, some type, u =>
      (lineOf u).bind (fun split => d.readItem split.1 split.2 type)

theorem readItem_later {d t : Decoder} {line rest v : Text} {type : ReplyType}
    (h : d.readItem line rest type = some (t, v)) (w : Text) :
    d.readItem line (rest ++ w) type = some (t, v ++ w) := by
  cases type with
  | integer => cases h; rfl
  | status => cases h; rfl
  | error => cases h; rfl
  | array => cases h; rfl
  | nil => cases h
  | string =>
      simp only [readItem, readBulk] at h ⊢
      split at h
      · rename_i hnegative
        cases h
        rw [if_pos hnegative]
      · rename_i hlen
        rw [if_neg hlen]
        split at h
        · rename_i hfits
          cases h
          rw [if_pos (by rw [List.length_append]; omega), List.take_append_of_le_length (by omega),
            List.drop_append_of_le_length (by omega)]
        · cases h

theorem readItem_less {d t : Decoder} {line rest v : Text} {type : ReplyType}
    (h : d.readItem line rest type = some (t, v)) : v.length ≤ rest.length := by
  cases type with
  | integer => cases h; exact Nat.le_refl _
  | status => cases h; exact Nat.le_refl _
  | error => cases h; exact Nat.le_refl _
  | array => cases h; exact Nat.le_refl _
  | nil => cases h
  | string =>
      simp only [readItem, readBulk] at h
      split at h
      · cases h
        exact Nat.le_refl _
      · split at h
        · cases h
          rw [List.length_drop]
          exact Nat.sub_le _ _
        · cases h

theorem read_steady : Steady read where
  later := by
    intro d t u v h w
    unfold read at h ⊢
    split at h
    · cases h
    · rename_i herr
      cases h
      rw [herr, List.cons_append]
    · cases h
    · rename_i herr htype
      cases h
      rw [herr, htype, List.cons_append]
    · rename_i type herr htype
      rcases Option.bind_eq_some_iff.mp h with ⟨⟨line, rest⟩, hline, hitem⟩
      rw [herr, htype]
      dsimp only
      rw [lineOf_append hline]
      exact readItem_later hitem w
  less := by
    intro d t u v h
    unfold read at h
    split at h
    · cases h
    · cases h
      exact Nat.lt_succ_self _
    · cases h
    · cases h
      exact Nat.lt_succ_self _
    · rcases Option.bind_eq_some_iff.mp h with ⟨⟨line, rest⟩, hline, hitem⟩
      have hless := readItem_less hitem
      rw [(lineOf_split hline).right, List.length_append, List.length_cons, List.length_cons]
      dsimp only at hless
      omega

/-!
# Steps of the decoder
-/

/-- The ways in which a symbol or an item changes the decoder. -/
inductive Change (d : Decoder) : Decoder -> Prop where
  | swallows (stopped : d.err.isSome) : Change d d
  | types (byte : Char) (goingOn : d.err = none) : Change d (d.readType byte)
  | puts (obj : redisReply) (goingOn : d.err = none) : Change d (d.put obj)
  | opens (elements : Nat) (goingOn : d.err = none) : Change d (d.openArray elements)

theorem readItem_change {d t : Decoder} {line rest v : Text} {type : ReplyType}
    (hgoing : d.err = none) (h : d.readItem line rest type = some (t, v)) : Change d t := by
  cases type with
  | integer =>
      cases h
      exact .puts _ hgoing
  | status =>
      cases h
      exact .puts _ hgoing
  | error =>
      cases h
      exact .puts _ hgoing
  | nil => cases h
  | string =>
      simp only [readItem, readBulk] at h
      split at h
      · cases h
        exact .puts _ hgoing
      · split at h
        · cases h
          exact .puts _ hgoing
        · cases h
  | array =>
      cases h
      unfold readMultiBulk
      dsimp only
      split
      · exact .puts _ hgoing
      · split
        · exact .opens _ hgoing
        · exact .puts _ hgoing

theorem read_change {d t : Decoder} {u v : Text} (h : read d u = some (t, v)) : Change d t := by
  unfold read at h
  split at h
  · cases h
  · rename_i herr
    cases h
    exact .swallows (by rw [herr]; rfl)
  · cases h
  · rename_i herr _
    cases h
    exact .types _ herr
  · rename_i herr _
    rcases Option.bind_eq_some_iff.mp h with ⟨⟨line, rest⟩, _, hitem⟩
    exact readItem_change herr hitem

theorem readType_returned (d : Decoder) (byte : Char) :
    (d.readType byte).returned = d.returned := by
  unfold readType
  split
  · rfl
  · split
    · rfl
    · rfl

theorem Change.returned {d t : Decoder} (h : Change d t) : d.returned <+: t.returned := by
  cases h with
  | swallows stopped => exact List.prefix_rfl
  | types byte goingOn => exact ⟨[], (List.append_nil _).trans (readType_returned d byte).symm⟩
  | puts obj goingOn => exact List.prefix_append _ _
  | opens elements goingOn => exact List.prefix_rfl

/-- What has been returned is not taken back. -/
theorem takes_returned {d t : Decoder} {u v : Text} (h : Takes read d u t v) :
    d.returned <+: t.returned :=
  h.grows (fun d t => d.returned <+: t.returned) (fun _ => List.prefix_rfl)
    List.IsPrefix.trans (fun hread => (read_change hread).returned)

theorem Change.stopped {d t : Decoder} (h : Change d t) (hstopped : d.err.isSome) :
    t.err.isSome := by
  cases h with
  | swallows stopped => exact stopped
  | types byte goingOn =>
      rw [goingOn] at hstopped
      cases hstopped
  | puts obj goingOn => exact hstopped
  | opens elements goingOn => exact hstopped

/-- An error stays. -/
theorem takes_stays_stopped {d t : Decoder} {u v : Text} (h : Takes read d u t v) :
    d.err.isSome -> t.err.isSome :=
  h.grows (fun d t => d.err.isSome -> t.err.isSome) (fun _ hstopped => hstopped)
    (fun hfirst hsecond hstopped => hsecond (hfirst hstopped))
    (fun hread => (read_change hread).stopped)

/-!
# Between two replies
-/

/-- Nothing has been begun that is not complete. -/
structure AtRest (d : Decoder) : Prop where
  type : d.type = none
  frames : d.frames = []
  goingOn : d.err = none

theorem complete_nil {obj : redisReply} {frames : List Frame}
    (h : (complete obj frames).1 = []) : exists reply, (complete obj frames).2 = some reply := by
  induction frames generalizing obj with
  | nil => exact ⟨obj, rfl⟩
  | cons f frames ih =>
      rw [complete] at h ⊢
      split at h
      · rename_i hfull
        rw [if_pos hfull]
        exact ih h
      · cases h

/-- The first byte of an item begins it or fails. -/
theorem readType_begins (d : Decoder) (byte : Char) :
    (d.readType byte).type ≠ none ∨ (d.readType byte).err ≠ none := by
  unfold readType
  split
  · exact Or.inr (Option.some_ne_none _)
  · split
    · exact Or.inr (Option.some_ne_none _)
    · exact Or.inl (Option.some_ne_none _)

theorem Change.made {d t : Decoder} (h : Change d t) (hrest : AtRest t) :
    d.returned.length < t.returned.length := by
  cases h with
  | swallows stopped =>
      rw [hrest.goingOn] at stopped
      cases stopped
  | types byte goingOn =>
      rcases readType_begins d byte with hbegun | hfailed
      · exact absurd hrest.type hbegun
      · exact absurd hrest.goingOn hfailed
  | puts obj goingOn =>
      rcases complete_nil hrest.frames with ⟨reply, hreply⟩
      unfold put
      dsimp only
      rw [hreply, List.length_append]
      exact Nat.lt_succ_self _
  | opens elements goingOn => cases hrest.frames

/-- A decoder that comes to rest has returned something since, unless it has not moved. -/
theorem takes_made {d t : Decoder} {u v : Text} (h : Takes read d u t v) (hrest : AtRest t) :
    d.returned.length < t.returned.length ∨ d = t ∧ u = v :=
  h.made (fun hread =>
    ⟨(read_change hread).returned.length_le, (read_change hread).made⟩) hrest

end Decoder
end Hiredis
end GMServer
