import GMServer.Library.Text
import GMServer.Utils.AssertUtils

/-!
# Values as texts

`StringValue` writes the values of the supported types as texts and reads texts
back, partly with functions of the C library that stop at the first character
they do not like and partly with functions that throw.
-/

namespace GMServer
namespace DataHandle

/-- What the modelled code throws. -/
inductive Exception where
  | invalid_argument
  | out_of_range
  | runtime_error
  deriving DecidableEq, Repr

/-- The text a C function sees behind `c_str()`. -/
def cStr (text : Text) : Text := text.takeWhile (· ≠ '\x00')

theorem cStr_append {text : Text} (hfree : '\x00' ∉ text) (rest : Text) :
    cStr (text ++ rest) = text ++ cStr rest := by
  apply List.takeWhile_append_of_pos
  intro c hc
  apply decide_eq_true
  intro hEq
  exact hfree (hEq ▸ hc)

theorem cStr_eq_self {text : Text} (hfree : '\x00' ∉ text) : cStr text = text := by
  have happend := cStr_append hfree []
  rwa [List.append_nil, show cStr [] = [] from rfl, List.append_nil] at happend

theorem of_mem_cStr {text : Text} {c : Char} (hc : c ∈ cStr text) : c ∈ text ∧ c ≠ '\x00' :=
  ⟨(List.takeWhile_sublist _).mem hc,
    of_decide_eq_true (List.all_eq_true.mp List.all_takeWhile c hc)⟩

theorem cStr_cStr (text : Text) : cStr (cStr text) = cStr text :=
  cStr_eq_self (fun h => (of_mem_cStr h).right rfl)

theorem cStr_decimal (n : Nat) : cStr (Text.decimal n) = Text.decimal n :=
  cStr_eq_self (Text.not_mem_decimal (by decide) n)

namespace StringValue

/-!
# Writing

A floating point number is given by what `%0.4f` prints of it: a sign and the
number of ten-thousandths, or one of the special values.
-/

inductive PrintedFloat where
  | finite (negative : Bool) (tenThousandths : Nat)
  | infinite (negative : Bool)
  | nan (negative : Bool)
  deriving DecidableEq, Repr

inductive Value where
  | int32 (iValue : BitVec 32)
  | uint32 (iValue : uint32_t)
  | int64 (iValue : BitVec 64)
  | uint64 (iValue : uint64_t)
  | bool (bValue : Bool)
  | float (fValue : PrintedFloat)
  | double (fValue : PrintedFloat)
  | string (strValue : Text)
  deriving DecidableEq, Repr

def signed (negative : Bool) (text : Text) : Text := if negative then '-' :: text else text

def decimalInt (n : Int) : Text := signed (n < 0) (Text.decimal n.natAbs)

/-- `%0.4f`. -/
def fixed4 : PrintedFloat -> Text
  | .finite negative tenThousandths =>
      signed negative (Text.decimal (tenThousandths / 10000) ++
        '.' :: (Text.decimal (10000 + tenThousandths % 10000)).tail)
  | .infinite negative => signed negative "inf".toList
  | .nan negative => signed negative "nan".toList

def ToString : Value -> Text
  | .int32 iValue => decimalInt iValue.toInt
  | .uint32 iValue => Text.decimal iValue.toNat
  | .int64 iValue => decimalInt iValue.toInt
  | .uint64 iValue => Text.decimal iValue.toNat
  | .bool bValue => if bValue then "1".toList else "0".toList
  | .float fValue => fixed4 fValue
  | .double fValue => fixed4 fValue
  | .string strValue => '"' :: (strValue ++ ['"'])

/-!
# Reading

`atoi` and `_atoi64` stay at the ends of their ranges; `stoi` and `stoull` throw
there, and where a text does not begin with a number.
-/

def signedValue (number : Bool × Nat) : Int :=
  if number.1 then -(number.2 : Int) else number.2

def clamp (low high n : Int) : Int := max low (min high n)

def atoi (pStr : Text) : BitVec 32 :=
  match Text.readNumber pStr with
  | none => 0
  | some number => BitVec.ofInt 32 (clamp (-2 ^ 31) (2 ^ 31 - 1) (signedValue number))

def _atoi64 (pStr : Text) : BitVec 64 :=
  match Text.readNumber pStr with
  | none => 0
  | some number => BitVec.ofInt 64 (clamp (-2 ^ 63) (2 ^ 63 - 1) (signedValue number))

def stoi (str : Text) : Except Exception (BitVec 32) :=
  match Text.readNumber (cStr str) with
  | none => .error .invalid_argument
  | some number =>
      if -2 ^ 31 ≤ signedValue number ∧ signedValue number < 2 ^ 31 then
        .ok (BitVec.ofInt 32 (signedValue number))
      else .error .out_of_range

def stoull (str : Text) : Except Exception uint64_t :=
  match Text.readNumber (cStr str) with
  | none => .error .invalid_argument
  | some number =>
      if number.2 < 2 ^ 64 then .ok (BitVec.ofInt 64 (signedValue number))
      else .error .out_of_range

def stoll (str : Text) : Except Exception (BitVec 64) :=
  match Text.readNumber (cStr str) with
  | none => .error .invalid_argument
  | some number =>
      if -2 ^ 63 ≤ signedValue number ∧ signedValue number < 2 ^ 63 then
        .ok (BitVec.ofInt 64 (signedValue number))
      else .error .out_of_range

/-- The C library's `atof`, with what `%0.4f` prints of its result. -/
structure Atof where
  toFloat : Text -> PrintedFloat
  toDouble : Text -> PrintedFloat

/-- `get` of a C string into a variable of the type that the value has.  A string is given
without its first and last character; the source is undefined for a text that has fewer than
two, which gives the empty string here. -/
def get (atof : Atof) (pStr : Text) : Value -> Value
  | .int32 _ => .int32 (atoi pStr)
  | .uint32 _ => .uint32 (atoi pStr)
  | .int64 _ => .int64 (_atoi64 pStr)
  | .uint64 _ => .uint64 (_atoi64 pStr)
  | .bool _ => .bool (pStr = "true".toList ∨ pStr = "1".toList)
  | .float _ => .float (atof.toFloat pStr)
  | .double _ => .double (atof.toDouble pStr)
  | .string _ => .string pStr.tail.dropLast

/-- What stands behind `pSub` in `pSrc`; no result stands for the null pointer, which is also
returned where nothing is left. -/
def SubString : Text -> Text -> Option Text
  | [], _ => none
  | c :: pSrc, [] => some (c :: pSrc)
  | c :: pSrc, d :: pSub => if c ≠ d then none else SubString pSrc pSub

/-- No result stands for `_atoi64` of a null pointer. -/
def GetKey64 (pSrc pSub : Text) : Option uint64_t := (SubString pSrc pSub).map _atoi64

/-- What `Split` appends to its vector; `SplitInto` has the loop. -/
def Split (str : Text) (seq : Char) : List Text := Text.pieces seq str

theorem Split_pair {first second : Text} {seq : Char} (hfirst : seq ∉ first)
    (hne : second ≠ []) (hsecond : seq ∉ second) :
    Split (first ++ seq :: second) seq = [first, second] := by
  unfold Split
  rw [Text.pieces_cons hfirst, Text.pieces_last hsecond hne]

/-!
# Reading what was written

A number comes back from its decimal numeral as long as the function that reads it
has room for it.
-/

theorem atoi_decimal (iValue : uint32_t) :
    atoi (Text.decimal iValue.toNat) = iValue <-> iValue.toNat < 2 ^ 31 := by
  unfold atoi
  rw [Text.readNumber_decimal]
  show BitVec.ofInt 32 (clamp (-2 ^ 31) (2 ^ 31 - 1) (iValue.toNat : Int)) = iValue <-> _
  unfold clamp
  constructor
  · intro h
    by_contra hlarge
    have hclamp : max (-2 ^ 31 : Int) (min (2 ^ 31 - 1) (iValue.toNat : Int)) = 2 ^ 31 - 1 := by
      omega
    have hvalue := congrArg BitVec.toNat h
    rw [hclamp] at hvalue
    have hconst : (BitVec.ofInt 32 (2 ^ 31 - 1)).toNat = 2 ^ 31 - 1 := by decide
    omega
  · intro hsmall
    have hclamp : max (-2 ^ 31 : Int) (min (2 ^ 31 - 1) (iValue.toNat : Int)) =
        (iValue.toNat : Int) := by
      omega
    rw [hclamp, BitVec.ofInt_natCast, BitVec.ofNat_toNat, BitVec.setWidth_eq]

theorem atoi_large {n : Nat} (hlarge : 2 ^ 31 ≤ n) :
    atoi (Text.decimal n) = BitVec.ofNat 32 (2 ^ 31 - 1) := by
  unfold atoi
  rw [Text.readNumber_decimal]
  show BitVec.ofInt 32 (clamp (-2 ^ 31) (2 ^ 31 - 1) (n : Int)) = _
  have hclamp : clamp (-2 ^ 31) (2 ^ 31 - 1) (n : Int) = 2 ^ 31 - 1 := by
    unfold clamp
    omega
  rw [hclamp]
  rfl

theorem atoi_small {n : Nat} (hsmall : n < 2 ^ 31) :
    atoi (Text.decimal n) = BitVec.ofNat 32 n := by
  have hvalue : (BitVec.ofNat 32 n).toNat = n := by
    rw [BitVec.toNat_ofNat]
    omega
  have hread := (atoi_decimal (BitVec.ofNat 32 n)).mpr (by omega)
  rw [hvalue] at hread
  exact hread

theorem _atoi64_decimal (iValue : uint64_t) :
    _atoi64 (Text.decimal iValue.toNat) =
      if iValue.toNat < 2 ^ 63 then iValue else BitVec.ofNat 64 (2 ^ 63 - 1) := by
  unfold _atoi64
  rw [Text.readNumber_decimal]
  show BitVec.ofInt 64 (clamp (-2 ^ 63) (2 ^ 63 - 1) (iValue.toNat : Int)) = _
  split
  · rename_i hsmall
    have hclamp : clamp (-2 ^ 63) (2 ^ 63 - 1) (iValue.toNat : Int) = (iValue.toNat : Int) := by
      unfold clamp
      omega
    rw [hclamp, BitVec.ofInt_natCast, BitVec.ofNat_toNat, BitVec.setWidth_eq]
  · rename_i hlarge
    have hclamp : clamp (-2 ^ 63) (2 ^ 63 - 1) (iValue.toNat : Int) = 2 ^ 63 - 1 := by
      unfold clamp
      omega
    rw [hclamp]
    rfl

theorem readNumber_decimalInt (n : Int) :
    exists number, Text.readNumber (decimalInt n) = some number ∧ signedValue number = n := by
  unfold decimalInt signed
  by_cases hnegative : n < 0
  · rw [if_pos (decide_eq_true hnegative), Text.readNumber_negative]
    refine ⟨_, rfl, ?_⟩
    show -(n.natAbs : Int) = n
    omega
  · rw [if_neg (by rw [decide_eq_true_eq]; exact hnegative), Text.readNumber_decimal]
    refine ⟨_, rfl, ?_⟩
    show (n.natAbs : Int) = n
    omega

theorem atoi_decimalInt (iValue : BitVec 32) : atoi (decimalInt iValue.toInt) = iValue := by
  rcases readNumber_decimalInt iValue.toInt with ⟨number, hread, hvalue⟩
  have hlow := BitVec.le_toInt iValue
  have hhigh := BitVec.toInt_lt (x := iValue)
  have hclamp : clamp (-2 ^ 31) (2 ^ 31 - 1) iValue.toInt = iValue.toInt := by
    unfold clamp
    omega
  unfold atoi
  rw [hread]
  dsimp only
  rw [hvalue, hclamp, BitVec.ofInt_toInt]

theorem _atoi64_decimalInt (iValue : BitVec 64) : _atoi64 (decimalInt iValue.toInt) = iValue := by
  rcases readNumber_decimalInt iValue.toInt with ⟨number, hread, hvalue⟩
  have hlow := BitVec.le_toInt iValue
  have hhigh := BitVec.toInt_lt (x := iValue)
  have hclamp : clamp (-2 ^ 63) (2 ^ 63 - 1) iValue.toInt = iValue.toInt := by
    unfold clamp
    omega
  unfold _atoi64
  rw [hread]
  dsimp only
  rw [hvalue, hclamp, BitVec.ofInt_toInt]

theorem get_get (atof : Atof) (pStr : Text) (value : Value) :
    get atof pStr (get atof pStr value) = get atof pStr value := by
  cases value <;> rfl

/-- What is known of `atof` here. -/
structure Atof.Reads (atof : Atof) : Prop where
  toFloat : atof.toFloat "0".toList = .finite false 0 ∧
    atof.toFloat "1".toList = .finite false 10000
  toDouble : atof.toDouble "0".toList = .finite false 0 ∧
    atof.toDouble "1".toList = .finite false 10000

/-- No value withstands every text. -/
theorem exists_get_ne {atof : Atof} (hatof : atof.Reads) (value : Value) :
    exists pStr, get atof pStr value ≠ value := by
  have htwo : get atof "0".toList value ≠ get atof "1".toList value ∨
      exists pStr, get atof pStr value ≠ value := by
    cases value with
    | int32 iValue => exact Or.inl (by simp only [get]; decide)
    | uint32 iValue => exact Or.inl (by simp only [get]; decide)
    | int64 iValue => exact Or.inl (by simp only [get]; decide)
    | uint64 iValue => exact Or.inl (by simp only [get]; decide)
    | bool bValue => exact Or.inl (by simp only [get]; decide)
    | float fValue =>
        left
        simp only [get, hatof.toFloat]
        decide
    | double fValue =>
        left
        simp only [get, hatof.toDouble]
        decide
    | string strValue =>
        refine Or.inr ⟨'"' :: 'x' :: (strValue ++ ['"']), ?_⟩
        intro h
        have htext := Value.string.inj h
        rw [List.tail_cons, ← List.cons_append, List.dropLast_concat] at htext
        exact List.cons_ne_self _ _ htext
  rcases htwo with hne | hother
  · by_cases hzero : get atof "0".toList value = value
    · exact ⟨"1".toList, fun hone => hne (hzero.trans hone.symm)⟩
    · exact ⟨"0".toList, hzero⟩
  · exact hother

theorem stoi_decimal (iValue : uint32_t) :
    stoi (Text.decimal iValue.toNat) =
      if iValue.toNat < 2 ^ 31 then .ok iValue else .error .out_of_range := by
  unfold stoi
  rw [cStr_decimal, Text.readNumber_decimal]
  show (if -2 ^ 31 ≤ (iValue.toNat : Int) ∧ (iValue.toNat : Int) < 2 ^ 31 then
    Except.ok (BitVec.ofInt 32 (iValue.toNat : Int)) else _) = _
  rw [BitVec.ofInt_natCast, BitVec.ofNat_toNat, BitVec.setWidth_eq]
  by_cases hsmall : iValue.toNat < 2 ^ 31
  · rw [if_pos hsmall, if_pos (by omega)]
  · rw [if_neg hsmall, if_neg (by omega)]

theorem stoull_decimal (iValue : uint64_t) :
    stoull (Text.decimal iValue.toNat) = .ok iValue := by
  unfold stoull
  rw [cStr_decimal, Text.readNumber_decimal]
  show (if iValue.toNat < 2 ^ 64 then
    Except.ok (BitVec.ofInt 64 (iValue.toNat : Int)) else _) = _
  rw [if_pos iValue.isLt, BitVec.ofInt_natCast, BitVec.ofNat_toNat, BitVec.setWidth_eq]

end StringValue
end DataHandle
end GMServer
