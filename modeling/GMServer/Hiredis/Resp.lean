import GMServer.Hiredis.ReaderRuns

/-!
# Values of the protocol

What a server has to say and how it is written.  A value that is written and read in any
pieces is the reply that stands for it; arrays may be nested twice.
-/

namespace GMServer
namespace Hiredis

open Incremental
open Transition

inductive Resp where
  | error (text : Text)
  | status (text : Text)
  | integer (value : Int)
  | bulk (text : Text)
  | nilBulk
  | nilArray
  | array (elements : List Resp)

namespace Resp

def lineEnd : Text := ['\r', '\n']

def signedDecimal (value : Int) : Text :=
  if value < 0 then '-' :: Text.decimal value.natAbs else Text.decimal value.natAbs

mutual

def encode : Resp -> Text
  | .error text => '-' :: text ++ lineEnd
  | .status text => '+' :: text ++ lineEnd
  | .integer value => ':' :: signedDecimal value ++ lineEnd
  | .bulk text => '$' :: Text.decimal text.length ++ lineEnd ++ text ++ lineEnd
  | .nilBulk => ['$', '-', '1'] ++ lineEnd
  | .nilArray => ['*', '-', '1'] ++ lineEnd
  | .array elements => '*' :: Text.decimal elements.length ++ lineEnd ++ encodeAll elements

def encodeAll : List Resp -> Text
  | [] => []
  | value :: values => encode value ++ encodeAll values

end

mutual

/-- The reply that a value is to be read as. -/
def reply : Resp -> redisReply
  | .error text => .error text
  | .status text => .status text
  | .integer value => .integer value
  | .bulk text => .string text
  | .nilBulk => .nil
  | .nilArray => .nil
  | .array elements => .array elements.length ((replies elements).map some)

def replies : List Resp -> List redisReply
  | [] => []
  | value :: values => reply value :: replies values

end

mutual

/-- Lines without a line end in them, and numbers that the reader can hold. -/
def Sized : Resp -> Prop
  | .error text => ¬ lineEnd <:+: text
  | .status text => ¬ lineEnd <:+: text
  | .integer value => -0x8000000000000000 ≤ value ∧ value < 0x8000000000000000
  | .bulk text => text.length < 0x80000000
  | .nilBulk => True
  | .nilArray => True
  | .array elements => elements.length < 0x80000000 ∧ AllSized elements

def AllSized : List Resp -> Prop
  | [] => True
  | value :: values => Sized value ∧ AllSized values

end

mutual

/-- How many arrays stand around the innermost item. -/
def nesting : Resp -> Nat
  | .nilArray => 1
  | .array elements => 1 + nestingAll elements
  | _ => 0

def nestingAll : List Resp -> Nat
  | [] => 0
  | value :: values => max (nesting value) (nestingAll values)

end

/-!
# Lines
-/

theorem seekNewline_skip {c d : Char} (h : ¬ (c = '\r' ∧ d = '\n')) (rest : Text) :
    seekNewline (c :: d :: rest) = (seekNewline (d :: rest)).map (· + 1) := by
  rw [seekNewline, if_neg h]

theorem seekNewline_line {line : Text} (hline : ¬ lineEnd <:+: line) (rest : Text) :
    seekNewline (line ++ lineEnd ++ rest) = some line.length := by
  induction line with
  | nil => exact if_pos ⟨rfl, rfl⟩
  | cons c line ih =>
      have hnext := ih (fun h => hline (List.infix_cons h))
      cases line with
      | nil =>
          have hskip : ¬ (c = '\r' ∧ '\r' = '\n') := fun h => absurd h.right (by decide)
          show seekNewline (c :: '\r' :: '\n' :: rest) = some 1
          rw [seekNewline_skip hskip,
            show seekNewline ('\r' :: '\n' :: rest) = some 0 from hnext]
          rfl
      | cons d line =>
          have hskip : ¬ (c = '\r' ∧ d = '\n') := by
            intro h
            apply hline
            rw [h.left, h.right]
            exact (List.prefix_append lineEnd line).isInfix
          show seekNewline (c :: d :: (line ++ lineEnd ++ rest)) = some (line.length + 1 + 1)
          rw [seekNewline_skip hskip,
            show seekNewline (d :: (line ++ lineEnd ++ rest)) = some (line.length + 1) from hnext]
          rfl

theorem lineOf_line {line : Text} (hline : ¬ lineEnd <:+: line) (rest : Text) :
    lineOf (line ++ lineEnd ++ rest) = some (line, rest) := by
  unfold lineOf
  rw [seekNewline_line hline, Option.map_some, List.append_assoc, List.take_left,
    ← List.drop_drop, List.drop_left]
  rfl

theorem not_infix_of_not_mem {line : Text} (h : '\r' ∉ line) : ¬ lineEnd <:+: line :=
  fun hinside => h (hinside.subset List.mem_cons_self)

theorem not_infix_decimal (n : Nat) : ¬ lineEnd <:+: Text.decimal n :=
  not_infix_of_not_mem (Text.not_mem_decimal (by decide) n)

theorem not_infix_minus (n : Nat) : ¬ lineEnd <:+: '-' :: Text.decimal n := by
  apply not_infix_of_not_mem
  intro h
  rcases List.mem_cons.mp h with hminus | hdigit
  · exact absurd hminus (by decide)
  · exact Text.not_mem_decimal (by decide) n hdigit

/-!
# Numbers
-/

theorem readDigits_digits {digits : Text} (hdigits : forall c, c ∈ digits -> c.isDigit = true)
    (mult : longlong) (k : Nat) :
    readDigits mult (BitVec.ofNat 64 k) (digits ++ ['\r']) =
      some (mult * BitVec.ofNat 64 (Nat.ofDigitChars 10 digits k)) := by
  induction digits generalizing k with
  | nil => exact if_pos rfl
  | cons c digits ih =>
      have hc := hdigits c List.mem_cons_self
      have hend : c ≠ '\r' := Text.ne_of_isDigit hc (by decide)
      have hvalue : BitVec.ofNat 64 k * 10 + BitVec.ofNat 64 (c.toNat - 48) =
          BitVec.ofNat 64 (10 * k + (c.toNat - '0'.toNat)) := by
        rw [Nat.mul_comm 10 k, BitVec.ofNat_add, BitVec.ofNat_mul]
        rfl
      rw [List.cons_append, readDigits, if_neg hend, if_pos hc, hvalue,
        ih (fun d hd => hdigits d (List.mem_cons_of_mem c hd)), Nat.ofDigitChars_cons]

theorem readDigits_decimal (mult : longlong) (n : Nat) :
    readDigits mult 0 (Text.decimal n ++ ['\r']) = some (mult * BitVec.ofNat 64 n) := by
  have h := readDigits_digits (fun _ => Text.isDigit_of_mem_decimal (n := n)) mult 0
  rw [Text.ofDigitChars_decimal] at h
  exact h

theorem lineNumber_decimal (n : Nat) : lineNumber (Text.decimal n) = BitVec.ofNat 64 n := by
  have hread : readLongLong (Text.decimal n ++ ['\r']) = some (1 * BitVec.ofNat 64 n) := by
    have hdigits := readDigits_decimal 1 n
    cases hdecimal : Text.decimal n with
    | nil => exact absurd hdecimal (Text.decimal_ne_nil n)
    | cons c rest =>
        have hc : c.isDigit = true :=
          Text.isDigit_of_mem_decimal (by rw [hdecimal]; exact List.mem_cons_self)
        rw [hdecimal] at hdigits
        unfold readLongLong
        split
        · rename_i hminus
          exact absurd (List.cons.inj hminus).left (Text.ne_of_isDigit hc (by decide))
        · rename_i hplus
          exact absurd (List.cons.inj hplus).left (Text.ne_of_isDigit hc (by decide))
        · exact hdigits
  unfold lineNumber
  rw [hread, Option.getD_some]
  exact BitVec.one_mul _

theorem lineNumber_minus (n : Nat) :
    lineNumber ('-' :: Text.decimal n) = -1 * BitVec.ofNat 64 n := by
  unfold lineNumber
  rw [List.cons_append,
    show readLongLong ('-' :: (Text.decimal n ++ ['\r'])) = some (-1 * BitVec.ofNat 64 n) from
      readDigits_decimal (-1) n]
  rfl

theorem toLong_small {n : Nat} (hn : n < 0x80000000) : toLong (BitVec.ofNat 64 n) = n := by
  unfold toLong
  rw [BitVec.toInt_eq_toNat_of_lt]
  · rw [BitVec.toNat_setWidth, BitVec.toNat_ofNat]
    omega
  · rw [BitVec.toNat_setWidth, BitVec.toNat_ofNat]
    omega

theorem lineNumber_signed {value : Int} (hlow : -0x8000000000000000 ≤ value)
    (hhigh : value < 0x8000000000000000) :
    (lineNumber (signedDecimal value)).toInt = value := by
  unfold signedDecimal
  split
  · rename_i hnegative
    have hvalue : -1 * BitVec.ofNat 64 value.natAbs = BitVec.ofInt 64 value := by
      rw [← BitVec.ofInt_natCast, Int.ofNat_natAbs_of_nonpos (Int.le_of_lt hnegative),
        BitVec.ofInt_neg]
      exact (BitVec.neg_mul_neg 1 _).trans (BitVec.one_mul _)
    rw [lineNumber_minus, hvalue]
    exact BitVec.toInt_ofInt_eq_self (by decide) hlow hhigh
  · rw [lineNumber_decimal, BitVec.toInt_eq_toNat_of_lt]
    · rw [BitVec.toNat_ofNat]
      omega
    · rw [BitVec.toNat_ofNat]
      omega

theorem signedDecimal_line (value : Int) : ¬ lineEnd <:+: signedDecimal value := by
  unfold signedDecimal
  split
  · exact not_infix_minus _
  · exact not_infix_decimal _

/-!
# Reading what was written
-/

/-- At rest: no item has been begun and nothing has failed. -/
structure Ready (d : Decoder) : Prop where
  type : d.type = none
  goingOn : d.err = none

theorem Ready.put {d : Decoder} (h : Ready d) (obj : redisReply) : Ready (d.put obj) :=
  ⟨rfl, h.goingOn⟩

theorem Ready.openArray {d : Decoder} (h : Ready d) (elements : Nat) :
    Ready (d.openArray elements) :=
  ⟨rfl, h.goingOn⟩

/-- An item is read in two steps: its first byte and the rest. -/
theorem takes_item {d t : Decoder} (h : Ready d) (byte : Char) {type : ReplyType}
    (hbyte : redisReader.replyTypeOf byte = some type)
    (hshallow : type = .array -> d.frames.length ≠ 2) {line rest v : Text}
    (hline : ¬ lineEnd <:+: line)
    (hitem : ({ d with type := some type } : Decoder).readItem line rest type = some (t, v)) :
    Takes Decoder.read d (byte :: (line ++ lineEnd ++ rest)) t v := by
  have hfirst : Decoder.read d (byte :: (line ++ lineEnd ++ rest)) =
      some ({ d with type := some type }, line ++ lineEnd ++ rest) := by
    rw [read_untyped h.goingOn h.type]
    unfold Decoder.readType
    rw [hbyte]
    dsimp only
    rw [if_neg (fun hnested => hshallow hnested.left hnested.right)]
  have hsecond : Decoder.read { d with type := some type } (line ++ lineEnd ++ rest) =
      some (t, v) := by
    rw [read_typed (d := { d with type := some type }) h.goingOn rfl, lineOf_line hline]
    exact hitem
  exact .step hfirst (.single hsecond)

theorem readBulk_fits {d : Decoder} {text : Text} (hsize : text.length < 0x80000000)
    (rest : Text) :
    d.readBulk (Text.decimal text.length) (text ++ lineEnd ++ rest) =
      some (d.put (.string text), rest) := by
  have hlength : (text ++ lineEnd ++ rest).length = text.length + 2 + rest.length := by
    rw [List.length_append, List.length_append]
    rfl
  have hdrop : (text ++ lineEnd ++ rest).drop (text.length + 2) = rest := by
    rw [List.append_assoc, ← List.drop_drop, List.drop_left]
    rfl
  unfold Decoder.readBulk
  rw [lineNumber_decimal, toLong_small hsize]
  dsimp only
  rw [if_neg (by omega), Int.toNat_natCast, if_pos (by omega), hdrop, List.append_assoc,
    List.take_left]

theorem readMultiBulk_opens {d : Decoder} {n : Nat} (hsize : n < 0x80000000) (hn : 0 < n) :
    d.readMultiBulk (Text.decimal n) = d.openArray n := by
  unfold Decoder.readMultiBulk
  rw [lineNumber_decimal, toLong_small hsize]
  dsimp only
  rw [if_neg (by omega), if_pos (by omega), Int.toNat_natCast]

theorem readMultiBulk_empty (d : Decoder) :
    d.readMultiBulk (Text.decimal 0) = d.put (.array 0 []) := by
  unfold Decoder.readMultiBulk
  rw [lineNumber_decimal, toLong_small (by decide)]
  rfl

/-- An element goes into the array that is open, or it closes it. -/
theorem put_element {d : Decoder} {n : Nat} {done : List redisReply} (obj : redisReply) :
    ({ d with type := none, frames := { elements := n, done := done } :: d.frames } :
        Decoder).put obj =
      if done.length + 1 = n then d.put (.array n ((done ++ [obj]).map some))
      else
        { d with
          type := none,
          frames := { elements := n, done := done ++ [obj] } :: d.frames } := by
  unfold Decoder.put
  dsimp only
  rw [complete]
  dsimp only
  split
  · rfl
  · rw [Option.toList_none, List.append_nil]

/-- An array with elements is open behind its head. -/
theorem takes_head {d : Decoder} (h : Ready d) (hdepth : d.frames.length ≠ 2)
    {elements : List Resp} (hsize : elements.length < 0x80000000) (hne : elements ≠ [])
    (rest : Text) :
    Takes Decoder.read d (encode (.array elements) ++ rest) (d.openArray elements.length)
      (encodeAll elements ++ rest) := by
  rw [encode, List.append_assoc, List.append_assoc, List.cons_append, ← List.append_assoc]
  apply takes_item h '*' rfl (fun _ => hdepth) (not_infix_decimal _)
  show some _ = some _
  rw [readMultiBulk_opens hsize (List.length_pos_iff.mpr hne)]
  rfl

mutual

/-- A value that is not nested too deeply is put where the decoder stands. -/
theorem takes_encode (value : Resp) {d : Decoder} (h : Ready d) (hsized : Sized value)
    (hnesting : d.frames.length + nesting value ≤ 2) (rest : Text) :
    Takes Decoder.read d (encode value ++ rest) (d.put (reply value)) rest := by
  cases value with
  | error text =>
      rw [encode, reply, List.append_assoc, List.cons_append, ← List.append_assoc]
      exact takes_item h '-' rfl (fun harray => by cases harray) hsized rfl
  | status text =>
      rw [encode, reply, List.append_assoc, List.cons_append, ← List.append_assoc]
      exact takes_item h '+' rfl (fun harray => by cases harray) hsized rfl
  | integer value =>
      rw [encode, reply, List.append_assoc, List.cons_append, ← List.append_assoc]
      apply takes_item h ':' rfl (fun harray => by cases harray)
        (signedDecimal_line value)
      show some _ = some _
      rw [lineNumber_signed hsized.left hsized.right]
      rfl
  | bulk text =>
      rw [encode, reply, List.append_assoc, List.append_assoc, List.append_assoc, List.cons_append,
        ← List.append_assoc]
      apply takes_item h '$' rfl (fun harray => by cases harray) (not_infix_decimal _)
      rw [← List.append_assoc]
      exact readBulk_fits hsized rest
  | nilBulk =>
      show Takes Decoder.read d ('$' :: (['-', '1'] ++ lineEnd ++ rest)) (d.put .nil) rest
      exact takes_item h '$' rfl (fun harray => by cases harray) (by decide) rfl
  | nilArray =>
      have hdepth : d.frames.length ≠ 2 := by
        rw [nesting] at hnesting
        omega
      show Takes Decoder.read d ('*' :: (['-', '1'] ++ lineEnd ++ rest)) (d.put .nil) rest
      exact takes_item h '*' rfl (fun _ => hdepth) (by decide) rfl
  | array elements =>
      have hdepth : d.frames.length ≠ 2 := by
        rw [nesting] at hnesting
        omega
      cases elements with
      | nil =>
          rw [encode, reply, List.append_assoc, List.append_assoc, List.cons_append,
            ← List.append_assoc]
          apply takes_item h '*' rfl (fun _ => hdepth) (not_infix_decimal 0)
          show some _ = some _
          rw [readMultiBulk_empty]
          rfl
      | cons first others =>
          have hne := List.cons_ne_nil first others
          have hhead := takes_head h hdepth hsized.left hne rest
          have hall := takes_encodeAll (first :: others) hne h [] hsized.right
            (by rw [nesting] at hnesting; omega) rest
          rw [List.length_nil, Nat.zero_add] at hall
          exact hhead.trans hall

/-- The elements of an array that is open are put into it, and the array is closed. -/
theorem takes_encodeAll (values : List Resp) (hne : values ≠ []) {d : Decoder} (h : Ready d)
    (done : List redisReply) (hsized : AllSized values)
    (hnesting : d.frames.length + 1 + nestingAll values ≤ 2) (rest : Text) :
    Takes Decoder.read
      { d with
        type := none,
        frames := { elements := done.length + values.length, done := done } :: d.frames }
      (encodeAll values ++ rest)
      (d.put (.array (done.length + values.length : Nat) ((done ++ replies values).map some)))
      rest := by
  cases values with
  | nil => exact absurd rfl hne
  | cons value values =>
      rw [nestingAll] at hnesting
      rw [encodeAll, List.append_assoc]
      have hready : Ready
          { d with
            type := none,
            frames :=
              { elements := done.length + (value :: values).length, done := done } :: d.frames } :=
        ⟨rfl, h.goingOn⟩
      have hfirst := takes_encode value hready hsized.left
        (by rw [List.length_cons]; omega) (encodeAll values ++ rest)
      rw [put_element] at hfirst
      cases values with
      | nil =>
          rw [if_pos (by rw [List.length_singleton])] at hfirst
          exact hfirst
      | cons next others =>
          rw [if_neg (by rw [List.length_cons, List.length_cons]; omega)] at hfirst
          have hrest := takes_encodeAll (next :: others) (List.cons_ne_nil next others) h
            (done ++ [reply value]) hsized.right (by omega) rest
          have hcount : (done ++ [reply value]).length + (next :: others).length =
              done.length + (value :: next :: others).length := by
            simp only [List.length_append, List.length_cons, List.length_nil]
            omega
          rw [hcount, List.append_assoc] at hrest
          exact hfirst.trans hrest

end

/-!
# Arrays that are nested too deeply
-/

/-- The head of an array is refused where two arrays are open. -/
theorem takes_refused {d : Decoder} (h : Ready d) (hfull : d.frames.length = 2) (rest : Text) :
    Takes Decoder.read d ('*' :: rest) (d.fail .protocol redisReader.nestedText) rest := by
  have hfirst : Decoder.read d ('*' :: rest) =
      some (d.fail .protocol redisReader.nestedText, rest) := by
    rw [read_untyped h.goingOn h.type]
    unfold Decoder.readType
    rw [show redisReader.replyTypeOf '*' = some .array from rfl]
    dsimp only
    rw [if_pos ⟨rfl, hfull⟩]
  exact .single hfirst

mutual

theorem takes_tooDeep (value : Resp) {d : Decoder} (h : Ready d) (hsized : Sized value)
    (hopen : d.frames.length ≤ 2) (hdeep : 2 < d.frames.length + nesting value) (rest : Text) :
    exists v, Takes Decoder.read d (encode value ++ rest)
      (d.fail .protocol redisReader.nestedText) v := by
  cases value with
  | error text => exact absurd hdeep (Nat.not_lt.mpr hopen)
  | status text => exact absurd hdeep (Nat.not_lt.mpr hopen)
  | integer value => exact absurd hdeep (Nat.not_lt.mpr hopen)
  | bulk text => exact absurd hdeep (Nat.not_lt.mpr hopen)
  | nilBulk => exact absurd hdeep (Nat.not_lt.mpr hopen)
  | nilArray =>
      rw [nesting] at hdeep
      exact ⟨_, takes_refused h (by omega) _⟩
  | array elements =>
      rw [nesting] at hdeep
      by_cases hfull : d.frames.length = 2
      · exact ⟨_, takes_refused h hfull _⟩
      · have hne : elements ≠ [] := by
          intro hnil
          rw [hnil, nestingAll] at hdeep
          omega
        have hall := takes_tooDeepAll elements h [] hsized.right (by omega) (by omega) rest
        rcases hall with ⟨v, hall⟩
        rw [List.length_nil, Nat.zero_add] at hall
        exact ⟨v, (takes_head h hfull hsized.left hne rest).trans hall⟩

theorem takes_tooDeepAll (values : List Resp) {d : Decoder} (h : Ready d)
    (done : List redisReply) (hsized : AllSized values) (hopen : d.frames.length + 1 ≤ 2)
    (hdeep : 2 < d.frames.length + 1 + nestingAll values) (rest : Text) :
    exists v, Takes Decoder.read
      { d with
        type := none,
        frames := { elements := done.length + values.length, done := done } :: d.frames }
      (encodeAll values ++ rest) (d.fail .protocol redisReader.nestedText) v := by
  cases values with
  | nil =>
      rw [nestingAll] at hdeep
      omega
  | cons value values =>
      rw [nestingAll] at hdeep
      rw [encodeAll, List.append_assoc]
      have hready : Ready
          { d with
            type := none,
            frames :=
              { elements := done.length + (value :: values).length, done := done } :: d.frames } :=
        ⟨rfl, h.goingOn⟩
      by_cases hvalue : 2 < d.frames.length + 1 + nesting value
      · exact takes_tooDeep value hready hsized.left hopen hvalue _
      · have hfirst := takes_encode value hready hsized.left
          (by rw [List.length_cons]; omega) (encodeAll values ++ rest)
        have hne : values ≠ [] := by
          intro hnil
          rw [hnil, nestingAll] at hdeep
          omega
        have hlength := List.length_pos_iff.mpr hne
        rw [put_element, if_neg (by rw [List.length_cons]; omega)] at hfirst
        rcases takes_tooDeepAll values h (done ++ [reply value]) hsized.right hopen (by omega) rest
          with ⟨v, hrest⟩
        have hcount : (done ++ [reply value]).length + values.length =
            done.length + (value :: values).length := by
          simp only [List.length_append, List.length_cons, List.length_nil]
          omega
        rw [hcount] at hrest
        exact ⟨v, hfirst.trans hrest⟩

end

/-!
# A stream of values
-/

theorem takes_stream {values : List Resp} {d : Decoder} (h : Ready d) (hframes : d.frames = [])
    (hsized : AllSized values) (hnesting : nestingAll values ≤ 2) (rest : Text) :
    Takes Decoder.read d (encodeAll values ++ rest)
      { d with returned := d.returned ++ replies values } rest := by
  induction values generalizing d with
  | nil =>
      rw [encodeAll, replies, List.append_nil]
      exact .refl d rest
  | cons value values ih =>
      rw [nestingAll] at hnesting
      have hput : d.put (reply value) = { d with returned := d.returned ++ [reply value] } := by
        unfold Decoder.put
        rw [hframes, complete, h.type]
        rfl
      have hfirst := takes_encode value h hsized.left (by rw [hframes, List.length_nil]; omega)
        (encodeAll values ++ rest)
      rw [hput] at hfirst
      have hrest := ih (d := { d with returned := d.returned ++ [reply value] })
        ⟨h.type, h.goingOn⟩ hframes hsized.right (by omega)
      rw [List.append_assoc] at hrest
      rw [encodeAll, List.append_assoc]
      exact hfirst.trans hrest

theorem ready_start : Ready Decoder.start := ⟨rfl, rfl⟩

/-- The decoder between two values. -/
def between (values : List Resp) : Decoder := { Decoder.start with returned := replies values }

theorem settle_stream {values : List Resp} (hsized : AllSized values)
    (hnesting : nestingAll values ≤ 2) (rest : Text) :
    settle Decoder.read Decoder.start (encodeAll values ++ rest) =
      settle Decoder.read (between values) rest :=
  settle_takes Decoder.read_steady (takes_stream ready_start rfl hsized hnesting rest)

/-!
# What a run returns
-/

/-- The beginning of a value returns nothing and does not fail. -/
theorem settle_beginning {values : List Resp} {next : Resp} {part missing : Text}
    (hsized : Sized next) (hnesting : nesting next ≤ 2) (hmissing : missing ≠ [])
    (hpart : part ++ missing = encode next) :
    (settle Decoder.read (between values) part).1.returned = replies values ∧
      (settle Decoder.read (between values) part).1.err = none := by
  have hready : Ready (between values) := ⟨rfl, rfl⟩
  have hwhole := takes_encode next hready hsized
    (by rw [show (between values).frames = [] from rfl, List.length_nil]; omega) []
  rw [List.append_nil, ← hpart] at hwhole
  have htakes := (takes_settle Decoder.read_steady (between values) part).left
  generalize settle Decoder.read (between values) part = result at htakes ⊢
  rcases result with ⟨t, y⟩
  have hdone : settle Decoder.read ((between values).put (reply next)) [] =
      ((between values).put (reply next), []) := rfl
  have hsettle := settle_takes Decoder.read_steady (htakes.later Decoder.read_steady missing)
  rw [settle_takes Decoder.read_steady hwhole, hdone] at hsettle
  have hrest := (takes_settle Decoder.read_steady t (y ++ missing)).left
  rw [← hsettle] at hrest
  have hreturned := Decoder.takes_returned htakes
  have hatRest : Decoder.AtRest ((between values).put (reply next)) := ⟨rfl, rfl, rfl⟩
  constructor
  · rcases Decoder.takes_made hrest hatRest with hless | ⟨_, hnil⟩
    · have hlength : t.returned.length < (replies values ++ [reply next]).length := hless
      rw [List.length_append, List.length_singleton] at hlength
      exact (hreturned.eq_of_length_le (Nat.le_of_lt_succ hlength)).symm
    · exact absurd (List.append_eq_nil_iff.mp hnil).right hmissing
  · by_contra hstopped
    have hstays := Decoder.takes_stays_stopped hrest (Option.isSome_iff_ne_none.mpr hstopped)
    cases hstays

open ReaderState

/-- Behind complete values stands a part that returns nothing and does not fail. -/
theorem stream_returned {values : List Resp} {part : Text} {actions : List ReaderAction}
    {s : ReaderState} (hsized : AllSized values) (hnesting : nestingAll values ≤ 2)
    (hreturned : (settle Decoder.read (between values) part).1.returned = replies values)
    (hsound : (settle Decoder.read (between values) part).1.err = none)
    (hfed : fed actions = encodeAll values ++ part) (hrun : Run step init actions = some s) :
    s.returned <+: replies values ∧ s.failure = none ∧
      (s.waiting = true -> s.returned = replies values) := by
  rcases run_inv hrun with ⟨d, u, hinv⟩
  have hall := hinv.settles
  rw [hfed, settle_stream hsized hnesting] at hall
  rw [hall] at hreturned hsound
  have htakes := (takes_settle Decoder.read_steady d u).left
  refine ⟨?_, ?_, ?_⟩
  · rw [← hinv.returned, ← hreturned]
    exact Decoder.takes_returned htakes
  · rw [hinv.failure]
    by_contra hstopped
    have hstays := Decoder.takes_stays_stopped htakes (Option.isSome_iff_ne_none.mpr hstopped)
    rw [hsound] at hstays
    cases hstays
  · intro hwaiting
    rw [settle_waits (hinv.waits hwaiting)] at hreturned
    exact hinv.returned.symm.trans hreturned

/-- Whatever the pieces, the values that have come in completely are returned, in order. -/
theorem values_returned {values : List Resp} {next : Resp} {part missing : Text}
    {actions : List ReaderAction} {s : ReaderState}
    (hsized : AllSized values) (hnesting : nestingAll values ≤ 2)
    (hnext : Sized next) (hflat : nesting next ≤ 2) (hmissing : missing ≠ [])
    (hpart : part ++ missing = encode next) (hfed : fed actions = encodeAll values ++ part)
    (hrun : Run step init actions = some s) :
    s.returned <+: replies values ∧ s.failure = none ∧
      (s.waiting = true -> s.returned = replies values) := by
  rcases @settle_beginning values _ _ _ hnext hflat hmissing hpart with ⟨hreturned, hsound⟩
  exact stream_returned hsized hnesting hreturned hsound hfed hrun

/-- One reply and the first byte of the next one. -/
def halfSent : List ReaderAction :=
  [.feed (encode (.status ['O', 'K'])), .feed ['$'], .getReply, .getReply]

theorem half_sent_returned :
    exists s, Run step init halfSent = some s ∧ s.returned = replies [.status ['O', 'K']] :=
  ⟨_, rfl,
    (@values_returned [.status ['O', 'K']] (.bulk ['h', 'i']) ['$']
      (encode (.bulk ['h', 'i'])).tail halfSent _ ⟨by rw [Sized]; decide, trivial⟩ (by decide)
      (by rw [Sized]; decide) (by decide) (by decide) rfl rfl rfl).right.right rfl⟩

/-- A value that is nested too deeply ends the stream: nothing behind it is returned. -/
theorem nested_refused {values : List Resp} {deep : Resp} {rest : Text}
    {actions : List ReaderAction} {s : ReaderState}
    (hsized : AllSized values) (hnesting : nestingAll values ≤ 2)
    (hdeep : Sized deep) (htooDeep : 2 < nesting deep)
    (hfed : fed actions = encodeAll values ++ (encode deep ++ rest))
    (hrun : Run step init actions = some s) :
    s.returned <+: replies values ∧
      (s.waiting = true ->
        s.returned = replies values ∧ s.failure = some (.protocol, redisReader.nestedText)) := by
  rcases run_inv hrun with ⟨d, u, hinv⟩
  have hready : Ready (between values) := ⟨rfl, rfl⟩
  rcases takes_tooDeep deep hready hdeep (Nat.zero_le 2)
    (by rw [show (between values).frames = [] from rfl, List.length_nil]; omega) rest with
    ⟨v, hrefused⟩
  have hall := hinv.settles
  rw [hfed, settle_stream hsized hnesting, settle_takes Decoder.read_steady
    (hrefused.trans (takes_stopped rfl v))] at hall
  have htakes := (takes_settle Decoder.read_steady d u).left
  rw [← hall] at htakes
  constructor
  · rw [← hinv.returned]
    exact Decoder.takes_returned htakes
  · intro hwaiting
    rw [settle_waits (hinv.waits hwaiting)] at hall
    have hsame : (between values).fail .protocol redisReader.nestedText = d :=
      congrArg Prod.fst hall
    rw [← hinv.returned, hinv.failure, ← hsame]
    exact ⟨rfl, rfl⟩

def threeDeep : Resp := .array [.array [.array [.nilBulk]]]

theorem three_deep_sized : Sized threeDeep := by
  simp only [threeDeep, Sized, AllSized, and_true, List.length_singleton]
  decide

theorem three_deep_refused :
    exists s, Run step init [.feed (encode threeDeep), .getReply] = some s ∧ s.returned = [] ∧
      s.failure = some (.protocol, redisReader.nestedText) :=
  ⟨_, rfl,
    (@nested_refused [] threeDeep [] [.feed (encode threeDeep), .getReply] _ trivial (by decide)
      three_deep_sized (by decide) rfl rfl).right rfl⟩

end Resp
end Hiredis
end GMServer
