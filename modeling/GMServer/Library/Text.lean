import Mathlib.Data.List.Basic
import Mathlib.Data.List.TakeWhile

/-!
# Texts

Texts as lists of characters: cutting them at a separator, and the decimal
numerals that are written to them and read from them.
-/

namespace GMServer

abbrev Text := List Char

namespace Text

/-!
# Separators

A text is cut behind each separator.  What follows the last one is a piece of its
own unless it is empty.
-/

section Separators

variable {symbol : Type} [DecidableEq symbol]

def piecesFrom (sep : symbol) (current : List symbol) : List symbol -> List (List symbol)
  | [] => if current = [] then [] else [current]
  | c :: rest =>
      if c = sep then current :: piecesFrom sep [] rest
      else piecesFrom sep (current ++ [c]) rest

def pieces (sep : symbol) (text : List symbol) : List (List symbol) := piecesFrom sep [] text

theorem piecesFrom_append {sep : symbol} {piece : List symbol} (hfree : sep ∉ piece)
    (current rest : List symbol) :
    piecesFrom sep current (piece ++ rest) = piecesFrom sep (current ++ piece) rest := by
  induction piece generalizing current with
  | nil =>
      rw [List.append_nil, List.nil_append]
  | cons c piece ih =>
      rw [List.mem_cons, not_or] at hfree
      rw [List.cons_append, piecesFrom, if_neg (Ne.symm hfree.left), ih hfree.right,
        List.append_assoc, List.singleton_append]

theorem pieces_cons {sep : symbol} {piece : List symbol} (hfree : sep ∉ piece)
    (rest : List symbol) : pieces sep (piece ++ sep :: rest) = piece :: pieces sep rest := by
  unfold pieces
  rw [piecesFrom_append hfree, piecesFrom, if_pos rfl, List.nil_append]

theorem pieces_last {sep : symbol} {piece : List symbol} (hfree : sep ∉ piece)
    (hne : piece ≠ []) : pieces sep piece = [piece] := by
  have happend := piecesFrom_append hfree [] []
  rw [List.append_nil, List.nil_append, piecesFrom, if_neg hne] at happend
  exact happend

theorem pieces_flatMap_append {sep : symbol} {list : List (List symbol)}
    (hfree : forall piece, piece ∈ list -> sep ∉ piece) (rest : List symbol) :
    pieces sep (list.flatMap (fun piece => piece ++ [sep]) ++ rest) = list ++ pieces sep rest := by
  induction list with
  | nil =>
      rfl
  | cons piece list ih =>
      have hpiece := hfree piece List.mem_cons_self
      have hrest := ih (fun other h => hfree other (List.mem_cons_of_mem piece h))
      rw [List.flatMap_cons, List.append_assoc, List.append_assoc, List.singleton_append,
        pieces_cons hpiece, hrest, List.cons_append]

/-- Pieces that are all closed by a separator. -/
theorem pieces_flatMap {sep : symbol} {list : List (List symbol)}
    (hfree : forall piece, piece ∈ list -> sep ∉ piece) :
    pieces sep (list.flatMap (fun piece => piece ++ [sep])) = list := by
  have happend := pieces_flatMap_append hfree []
  rwa [List.append_nil, show pieces sep [] = [] from rfl, List.append_nil] at happend

/-- Each piece is closed by a separator; the last one may be missing. -/
def Joined (sep : symbol) (list : List (List symbol)) (text : List symbol) : Prop :=
  text = list.flatMap (fun piece => piece ++ [sep]) ∨
    text ++ [sep] = list.flatMap (fun piece => piece ++ [sep])

theorem pieces_joined {sep : symbol} {list : List (List symbol)} {text : List symbol}
    (hfree : forall piece, piece ∈ list -> sep ∉ piece)
    (hne : forall piece, piece ∈ list -> piece ≠ []) (hjoined : Joined sep list text) :
    pieces sep text = list := by
  rcases hjoined with hclosed | hopen
  · rw [hclosed, pieces_flatMap hfree]
  · rcases List.eq_nil_or_concat list with hnil | ⟨first, last, hlast⟩
    · rw [hnil] at hopen
      cases List.append_eq_nil_iff.mp hopen |>.right
    · rw [List.concat_eq_append] at hlast
      rw [hlast] at hfree hne hopen ⊢
      have hmem : last ∈ first ++ [last] := List.mem_append_right _ List.mem_cons_self
      rw [List.flatMap_append, List.flatMap_singleton, ← List.append_assoc] at hopen
      rw [List.append_cancel_right hopen,
        pieces_flatMap_append (fun piece h => hfree piece (List.mem_append_left _ h)),
        pieces_last (hfree last hmem) (hne last hmem)]

theorem of_mem_piecesFrom {sep : symbol} {text current piece : List symbol}
    (hcurrent : sep ∉ current) (h : piece ∈ piecesFrom sep current text) :
    sep ∉ piece ∧ forall c, c ∈ piece -> c ∈ current ∨ c ∈ text := by
  induction text generalizing current with
  | nil =>
      unfold piecesFrom at h
      split at h
      · cases h
      · cases List.mem_singleton.mp h
        exact ⟨hcurrent, fun c hc => Or.inl hc⟩
  | cons c text ih =>
      unfold piecesFrom at h
      split at h
      · rcases List.mem_cons.mp h with hfirst | hlater
        · rw [hfirst]
          exact ⟨hcurrent, fun d hd => Or.inl hd⟩
        · rcases ih List.not_mem_nil hlater with ⟨hfree, hsub⟩
          refine ⟨hfree, ?_⟩
          intro d hd
          rcases hsub d hd with hnil | htext
          · cases hnil
          · exact Or.inr (List.mem_cons_of_mem c htext)
      · rename_i hne
        have hextended : sep ∉ current ++ [c] := by
          rw [List.mem_append, List.mem_singleton, not_or]
          exact ⟨hcurrent, Ne.symm hne⟩
        rcases ih hextended h with ⟨hfree, hsub⟩
        refine ⟨hfree, ?_⟩
        intro d hd
        rcases hsub d hd with hin | htext
        · rcases List.mem_append.mp hin with hold | hnew
          · exact Or.inl hold
          · rw [List.mem_singleton.mp hnew]
            exact Or.inr List.mem_cons_self
        · exact Or.inr (List.mem_cons_of_mem c htext)

theorem of_mem_pieces {sep : symbol} {text piece : List symbol} (h : piece ∈ pieces sep text) :
    sep ∉ piece ∧ forall c, c ∈ piece -> c ∈ text := by
  rcases of_mem_piecesFrom List.not_mem_nil h with ⟨hfree, hsub⟩
  refine ⟨hfree, ?_⟩
  intro c hc
  exact (hsub c hc).resolve_left List.not_mem_nil

/-- The segments between the separators, without the last one if it is empty. -/
def segments (sep : symbol) (text : List symbol) : List (List symbol) :=
  if (text.splitOn sep).getLast? = some [] then (text.splitOn sep).dropLast
  else text.splitOn sep

theorem segments_of_not_mem {sep : symbol} {text : List symbol} (hfree : sep ∉ text) :
    segments sep text = if text = [] then [] else [text] := by
  unfold segments
  rw [List.splitOn_eq_singleton hfree, List.getLast?_singleton, List.dropLast_singleton]
  simp only [Option.some_inj]

theorem segments_cons {sep : symbol} {piece : List symbol} (hfree : sep ∉ piece)
    (rest : List symbol) : segments sep (piece ++ sep :: rest) = piece :: segments sep rest := by
  have hne : rest.splitOn sep ≠ [] := List.splitOn_ne_nil sep rest
  unfold segments
  rw [List.splitOn_append_cons_self_of_not_mem hfree, List.getLast?_cons_of_ne_nil hne,
    List.dropLast_cons_of_ne_nil hne]
  split
  · rfl
  · rfl

/-- The pieces are the segments: by induction on the length, from one separator to the next. -/
theorem pieces_eq_segments (sep : symbol) (text : List symbol) :
    pieces sep text = segments sep text := by
  by_cases hmem : sep ∈ text
  · rcases List.eq_append_cons_of_mem hmem with ⟨piece, rest, hEq, hfree⟩
    rw [hEq, pieces_cons hfree, segments_cons hfree, pieces_eq_segments sep rest]
  · rw [segments_of_not_mem hmem]
    split
    · rename_i hnil
      rw [hnil]
      rfl
    · rename_i hne
      exact pieces_last hmem hne
termination_by text.length
decreasing_by
  rw [hEq, List.length_append, List.length_cons]
  omega

end Separators

/-!
# Numerals
-/

def decimal (n : Nat) : Text := Nat.toDigits 10 n

theorem decimal_ne_nil (n : Nat) : decimal n ≠ [] := Nat.toDigits_ne_nil

theorem isDigit_of_mem_decimal {n : Nat} {c : Char} (h : c ∈ decimal n) : c.isDigit = true :=
  Nat.isDigit_of_mem_toDigits (by decide) (by decide) h

theorem not_mem_decimal {c : Char} (hc : c.isDigit = false) (n : Nat) : c ∉ decimal n := by
  intro h
  rw [isDigit_of_mem_decimal h] at hc
  cases hc

theorem decimal_injective {n k : Nat} (h : decimal n = decimal k) : n = k := by
  have hvalue := congrArg (fun digits => Nat.ofDigitChars 10 digits 0) h
  simpa only [decimal, Nat.ofDigitChars_ten_toDigits] using hvalue

/-- The blanks that the functions of the C library skip. -/
def isSpace (c : Char) : Bool :=
  c = ' ' || c = '\t' || c = '\n' || c = '\x0b' || c = '\x0c' || c = '\r'

def readDigits (text : Text) : Option Nat :=
  match text.takeWhile Char.isDigit with
  | [] => none
  | digits => some (Nat.ofDigitChars 10 digits 0)

/-- The sign and the magnitude of the number that a text begins with. -/
def readNumber (text : Text) : Option (Bool × Nat) :=
  match text.dropWhile isSpace with
  | '-' :: rest => (readDigits rest).map (fun n => (true, n))
  | '+' :: rest => (readDigits rest).map (fun n => (false, n))
  | rest => (readDigits rest).map (fun n => (false, n))

theorem ne_of_isDigit {c d : Char} (hc : c.isDigit = true) (hd : d.isDigit = false) :
    c ≠ d := by
  intro hEq
  rw [hEq, hd] at hc
  cases hc

theorem isSpace_of_isDigit {c : Char} (hc : c.isDigit = true) : isSpace c = false := by
  have hne : forall d : Char, d.isDigit = false -> decide (c = d) = false :=
    fun d hd => decide_eq_false (ne_of_isDigit hc hd)
  unfold isSpace
  rw [hne _ rfl, hne _ rfl, hne _ rfl, hne _ rfl, hne _ rfl, hne _ rfl]
  rfl

theorem readDigits_digits {digits : Text} (hne : digits ≠ [])
    (hdigits : forall c, c ∈ digits -> c.isDigit = true) :
    readDigits digits = some (Nat.ofDigitChars 10 digits 0) := by
  have hall : digits.takeWhile Char.isDigit = digits := by
    rw [List.takeWhile_eq_self_iff]
    exact hdigits
  unfold readDigits
  rw [hall]
  split
  · exact absurd rfl hne
  · rfl

theorem readNumber_digits {digits : Text} (hne : digits ≠ [])
    (hdigits : forall c, c ∈ digits -> c.isDigit = true) :
    readNumber digits = some (false, Nat.ofDigitChars 10 digits 0) := by
  have hread := readDigits_digits hne hdigits
  unfold readNumber
  cases digits with
  | nil => exact absurd rfl hne
  | cons c rest =>
      have hc := hdigits c List.mem_cons_self
      rw [List.dropWhile_cons_of_neg (by rw [isSpace_of_isDigit hc]; decide)]
      split
      · rename_i hminus
        cases hminus
        cases hc
      · rename_i hplus
        cases hplus
        cases hc
      · rw [hread]
        rfl

theorem ofDigitChars_decimal (n : Nat) : Nat.ofDigitChars 10 (decimal n) 0 = n :=
  Nat.ofDigitChars_ten_toDigits

theorem readDigits_decimal (n : Nat) : readDigits (decimal n) = some n := by
  rw [readDigits_digits (decimal_ne_nil n) (fun _ => isDigit_of_mem_decimal), ofDigitChars_decimal]

theorem readNumber_decimal (n : Nat) : readNumber (decimal n) = some (false, n) := by
  rw [readNumber_digits (decimal_ne_nil n) (fun _ => isDigit_of_mem_decimal), ofDigitChars_decimal]

theorem readNumber_negative (n : Nat) : readNumber ('-' :: decimal n) = some (true, n) := by
  unfold readNumber
  rw [List.dropWhile_cons_of_neg (by decide)]
  show (readDigits (decimal n)).map (fun k => (true, k)) = some (true, n)
  rw [readDigits_decimal, Option.map_some]

end Text
end GMServer
