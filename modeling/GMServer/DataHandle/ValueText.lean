import GMServer.DataHandle.StringValue

/-!
# Values survive their texts

Fields are kept as the texts of their values.  Signed integers, truth values and texts come
back from what is written of them; unsigned integers are read with functions for signed ones,
which have room for half of them.
-/

namespace GMServer
namespace DataHandle

theorem cStr_decimalInt (n : Int) :
    cStr (StringValue.decimalInt n) = StringValue.decimalInt n := by
  have hdecimal := Text.not_mem_decimal (show Char.isDigit '\x00' = false by decide) n.natAbs
  apply cStr_eq_self
  unfold StringValue.decimalInt StringValue.signed
  split
  · rw [List.mem_cons]
    rintro (hsign | hdigit)
    · exact absurd hsign (by decide)
    · exact hdecimal hdigit
  · exact hdecimal

namespace StringValue

/-!
# Reading a `std::string`
-/

/-- `get` of a `std::string` into a variable of the type that the value has; for truth values
and texts there is none, and floating point numbers are left out. -/
def getString (str : Text) : Value -> Option (Except Exception Value)
  | .int32 _ => some ((stoi str).map .int32)
  | .uint32 _ => some ((stoi str).map .uint32)
  | .int64 _ => some ((stoll str).map .int64)
  | .uint64 _ => some ((stoull str).map .uint64)
  | _ => none

theorem stoi_decimalInt (iValue : BitVec 32) :
    stoi (decimalInt iValue.toInt) = .ok iValue := by
  rcases readNumber_decimalInt iValue.toInt with ⟨number, hread, hvalue⟩
  have hlow := BitVec.le_toInt iValue
  have hhigh := BitVec.toInt_lt (x := iValue)
  unfold stoi
  rw [cStr_decimalInt, hread]
  dsimp only
  rw [hvalue, if_pos ⟨hlow, hhigh⟩, BitVec.ofInt_toInt]

theorem stoll_decimalInt (iValue : BitVec 64) :
    stoll (decimalInt iValue.toInt) = .ok iValue := by
  rcases readNumber_decimalInt iValue.toInt with ⟨number, hread, hvalue⟩
  have hlow := BitVec.le_toInt iValue
  have hhigh := BitVec.toInt_lt (x := iValue)
  unfold stoll
  rw [cStr_decimalInt, hread]
  dsimp only
  rw [hvalue, if_pos ⟨hlow, hhigh⟩, BitVec.ofInt_toInt]

/-!
# Which values come back
-/

/-- A variable of the type of the value. -/
def SameType : Value -> Value -> Prop
  | .int32 _, .int32 _ => True
  | .uint32 _, .uint32 _ => True
  | .int64 _, .int64 _ => True
  | .uint64 _, .uint64 _ => True
  | .bool _, .bool _ => True
  | .float _, .float _ => True
  | .double _, .double _ => True
  | .string _, .string _ => True
  | _, _ => False

def FloatingPoint : Value -> Prop
  | .float _ => True
  | .double _ => True
  | _ => False

def Integer : Value -> Prop
  | .int32 _ => True
  | .uint32 _ => True
  | .int64 _ => True
  | .uint64 _ => True
  | _ => False

/-- The sign bit of an unsigned integer is not set, and a text has no zero in it. -/
def Fits : Value -> Prop
  | .uint32 iValue => iValue.toNat < 2 ^ 31
  | .uint64 iValue => iValue.toNat < 2 ^ 63
  | .string strValue => '\x00' ∉ strValue
  | _ => True

theorem get_uint64_iff (iValue : uint64_t) :
    _atoi64 (Text.decimal iValue.toNat) = iValue <-> iValue.toNat < 2 ^ 63 := by
  rw [_atoi64_decimal]
  split
  · rename_i hsmall
    exact ⟨fun _ => hsmall, fun _ => rfl⟩
  · rename_i hlarge
    constructor
    · intro h
      rw [← h] at hlarge
      exact absurd (by decide) hlarge
    · intro hsmall
      exact absurd hsmall hlarge

/-- A text with a zero in it is cut there. -/
theorem get_string_iff (strValue : Text) :
    (cStr ('"' :: (strValue ++ ['"']))).tail.dropLast = strValue <-> '\x00' ∉ strValue := by
  constructor
  · intro h hzero
    have hquote : cStr ('"' :: (strValue ++ ['"'])) = '"' :: cStr (strValue ++ ['"']) := rfl
    have hfree : '\x00' ∉ (cStr ('"' :: (strValue ++ ['"']))).tail.dropLast := by
      intro hmem
      rw [hquote, List.tail_cons] at hmem
      exact (of_mem_cStr (List.dropLast_subset _ hmem)).right rfl
    rw [h] at hfree
    exact hfree hzero
  · intro hfree
    have hquoted : '\x00' ∉ '"' :: (strValue ++ ['"']) := by
      rw [List.mem_cons, List.mem_append, List.mem_singleton]
      rintro (hquote | hmem | hquote)
      · exact absurd hquote (by decide)
      · exact hfree hmem
      · exact absurd hquote (by decide)
    rw [cStr_eq_self hquoted, List.tail_cons, List.dropLast_concat]

theorem get_ToString_iff (atof : Atof) {v w : Value} (htype : SameType v w)
    (hexact : ¬ FloatingPoint v) : get atof (cStr (ToString v)) w = v <-> Fits v := by
  cases v with
  | int32 iValue =>
      cases w with
      | int32 iOther =>
          show Value.int32 (atoi (cStr (decimalInt iValue.toInt))) = _ <-> True
          rw [cStr_decimalInt, atoi_decimalInt]
          exact ⟨fun _ => trivial, fun _ => rfl⟩
      | _ => exact False.elim htype
  | uint32 iValue =>
      cases w with
      | uint32 iOther =>
          show Value.uint32 (atoi (cStr (Text.decimal iValue.toNat))) = _ <-> _
          rw [cStr_decimal, Value.uint32.injEq]
          exact atoi_decimal iValue
      | _ => exact False.elim htype
  | int64 iValue =>
      cases w with
      | int64 iOther =>
          show Value.int64 (_atoi64 (cStr (decimalInt iValue.toInt))) = _ <-> True
          rw [cStr_decimalInt, _atoi64_decimalInt]
          exact ⟨fun _ => trivial, fun _ => rfl⟩
      | _ => exact False.elim htype
  | uint64 iValue =>
      cases w with
      | uint64 iOther =>
          show Value.uint64 (_atoi64 (cStr (Text.decimal iValue.toNat))) = _ <-> _
          rw [cStr_decimal, Value.uint64.injEq]
          exact get_uint64_iff iValue
      | _ => exact False.elim htype
  | bool bValue =>
      cases w with
      | bool bOther =>
          cases bValue with
          | false => exact ⟨fun _ => trivial, fun _ => rfl⟩
          | true => exact ⟨fun _ => trivial, fun _ => rfl⟩
      | _ => exact False.elim htype
  | string strValue =>
      cases w with
      | string strOther =>
          show Value.string (cStr ('"' :: (strValue ++ ['"']))).tail.dropLast = _ <-> _
          rw [Value.string.injEq]
          exact get_string_iff strValue
      | _ => exact False.elim htype
  | float fValue => exact absurd trivial hexact
  | double fValue => exact absurd trivial hexact

/-- Of the integers only those of 32 bits without a sign are read with too little room, and
then `stoi` throws. -/
theorem getString_ToString {v w : Value} (htype : SameType v w) (hinteger : Integer v)
    (hfits : forall iValue, v = .uint32 iValue -> iValue.toNat < 2 ^ 31) :
    getString (ToString v) w = some (.ok v) := by
  cases v with
  | int32 iValue =>
      cases w with
      | int32 iOther =>
          show some ((stoi (decimalInt iValue.toInt)).map Value.int32) = _
          rw [stoi_decimalInt]
          rfl
      | _ => exact False.elim htype
  | uint32 iValue =>
      cases w with
      | uint32 iOther =>
          show some ((stoi (Text.decimal iValue.toNat)).map Value.uint32) = _
          rw [stoi_decimal, if_pos (hfits iValue rfl)]
          rfl
      | _ => exact False.elim htype
  | int64 iValue =>
      cases w with
      | int64 iOther =>
          show some ((stoll (decimalInt iValue.toInt)).map Value.int64) = _
          rw [stoll_decimalInt]
          rfl
      | _ => exact False.elim htype
  | uint64 iValue =>
      cases w with
      | uint64 iOther =>
          show some ((stoull (Text.decimal iValue.toNat)).map Value.uint64) = _
          rw [stoull_decimal]
          rfl
      | _ => exact False.elim htype
  | _ => exact False.elim hinteger

theorem text_survives_iff (atof : Atof) {v w : Value} (htype : SameType v w)
    (hexact : ¬ FloatingPoint v) :
    (get atof (cStr (ToString v)) w = v ∧
        (Integer v -> getString (ToString v) w = some (.ok v))) <-> Fits v := by
  constructor
  · intro h
    exact (get_ToString_iff atof htype hexact).mp h.left
  · intro hfits
    refine ⟨(get_ToString_iff atof htype hexact).mpr hfits, fun hinteger => ?_⟩
    apply getString_ToString htype hinteger
    intro iValue hEq
    rw [hEq] at hfits
    exact hfits

/-- An `atof` that finds no number. -/
def zeroAtof : Atof :=
  { toFloat := fun _ => .finite false 0, toDouble := fun _ => .finite false 0 }

theorem five_survives :
    (get zeroAtof (cStr (ToString (.uint32 5))) (.uint32 0) = .uint32 5 ∧
        (Integer (.uint32 5) ->
          getString (ToString (.uint32 5)) (.uint32 0) = some (.ok (.uint32 5)))) <->
      Fits (.uint32 5) :=
  text_survives_iff zeroAtof trivial (fun h => h)

/-- With the sign bit `get` of a C string stops at the largest signed value, and `stoi`
throws. -/
theorem sign_bit_lost :
    get zeroAtof (cStr (ToString (.uint32 0x80000000))) (.uint32 0) = .uint32 0x7FFFFFFF ∧
      getString (ToString (.uint32 0x80000000)) (.uint32 0) = some (.error .out_of_range) ∧
      get zeroAtof (cStr (ToString (.uint64 0x8000000000000000))) (.uint64 0) =
        .uint64 0x7FFFFFFFFFFFFFFF := by
  refine ⟨?_, ?_, ?_⟩
  · show Value.uint32 (atoi (cStr (Text.decimal (0x80000000 : uint32_t).toNat))) = _
    rw [cStr_decimal, atoi_large (by decide)]
    rfl
  · show some ((stoi (Text.decimal (0x80000000 : uint32_t).toNat)).map Value.uint32) = _
    rw [stoi_decimal, if_neg (by decide)]
    rfl
  · show Value.uint64 (_atoi64 (cStr (Text.decimal (0x8000000000000000 : uint64_t).toNat))) = _
    rw [cStr_decimal, _atoi64_decimal, if_neg (by decide)]
    rfl

end StringValue
end DataHandle
end GMServer
