import GMServer.DataHandle.SavePackage

/-!
# String literals

A string goes to Redis in double quotation marks and to MySQL in single ones; nothing
inside it changes.  MySQL reads a literal up to the first quotation mark that is neither
doubled nor behind a backslash, and a backslash takes the character behind it away, except in
front of a percent sign or an underscore.
-/

namespace GMServer
namespace DataHandle
namespace DataTransfer

open Std

/-!
# Reading a literal
-/

/-- What a backslash makes of the character behind it. -/
def escaped (c : Char) : Text :=
  if c = '0' then ['\x00']
  else if c = 'b' then ['\x08']
  else if c = 'n' then ['\n']
  else if c = 'r' then ['\x0d']
  else if c = 't' then ['\t']
  else if c = 'Z' then ['\x1a']
  else if c = '%' ∨ c = '_' then ['\\', c]
  else [c]

/-- What a literal denotes and what stands behind it; the first quotation mark has been read. -/
def readQuoted : Text -> Option (Text × Text)
  | [] => none
  | [c] => if c = '\'' then some ([], []) else none
  | c :: d :: rest =>
      if c = '\'' then
        if d = '\'' then (readQuoted rest).map (fun read => ('\'' :: read.1, read.2))
        else some ([], d :: rest)
      else if c = '\\' then (readQuoted rest).map (fun read => (escaped d ++ read.1, read.2))
      else (readQuoted (d :: rest)).map (fun read => (c :: read.1, read.2))

def readLiteral : Text -> Option (Text × Text)
  | c :: rest => if c = '\'' then readQuoted rest else none
  | [] => none

/-- No quotation mark, and a percent sign or an underscore behind every backslash. -/
def Quotable : Text -> Prop
  | [] => True
  | [c] => c ≠ '\'' ∧ c ≠ '\\'
  | c :: d :: rest =>
      if c = '\\' then (d = '%' ∨ d = '_') ∧ Quotable rest else c ≠ '\'' ∧ Quotable (d :: rest)

theorem quotable_cons {c : Char} (hquote : c ≠ '\'') (hescape : c ≠ '\\') {text : Text}
    (h : Quotable text) : Quotable (c :: text) := by
  cases text with
  | nil => exact ⟨hquote, hescape⟩
  | cons d rest =>
      unfold Quotable
      rw [if_neg hescape]
      exact ⟨hquote, h⟩

theorem length_escaped (c : Char) :
    1 ≤ (escaped c).length ∧ (escaped c).length ≤ 2 ∧
      ((escaped c).length = 2 -> escaped c = ['\\', c] ∧ (c = '%' ∨ c = '_')) := by
  unfold escaped
  repeat' split
  all_goals first
    | exact ⟨Nat.le_refl _, Nat.le_succ _, fun h => by cases h⟩
    | exact ⟨Nat.le_succ _, Nat.le_refl _, fun _ => ⟨rfl, ‹_›⟩⟩

/-- A literal is at least as long as what it denotes, and as long only if it stands there as it
is. -/
theorem readQuoted_length {text denoted rest : Text} (h : readQuoted text = some (denoted, rest)) :
    denoted.length + rest.length + 1 ≤ text.length ∧
      (denoted.length + rest.length + 1 = text.length -> Quotable denoted) := by
  fun_induction readQuoted text generalizing denoted rest with
  | case1 => cases h
  | case2 =>
      cases h
      exact ⟨Nat.le_refl _, fun _ => trivial⟩
  | case3 c hc => cases h
  | case4 text ih =>
      rcases Option.map_eq_some_iff.mp h with ⟨read, hread, hEq⟩
      cases hEq
      have hlength := (ih hread).left
      simp only [List.length_cons]
      constructor
      · omega
      · intro hsame
        omega
  | case5 d text hd =>
      cases h
      refine ⟨?_, fun _ => trivial⟩
      simp only [List.length_cons, List.length_nil]
      omega
  | case6 d text hquote ih =>
      rcases Option.map_eq_some_iff.mp h with ⟨read, hread, hEq⟩
      cases hEq
      rcases ih hread with ⟨hlength, hquotable⟩
      rcases length_escaped d with ⟨_, htwo, hkept⟩
      simp only [List.length_append, List.length_cons]
      constructor
      · omega
      · intro hsame
        rcases hkept (by omega) with ⟨hescaped, hchar⟩
        rw [hescaped]
        show Quotable ('\\' :: d :: read.1)
        unfold Quotable
        rw [if_pos rfl]
        exact ⟨hchar, hquotable (by omega)⟩
  | case7 c d text hquote hescape ih =>
      rcases Option.map_eq_some_iff.mp h with ⟨read, hread, hEq⟩
      cases hEq
      rcases ih hread with ⟨hlength, hquotable⟩
      simp only [List.length_cons] at hlength hquotable ⊢
      constructor
      · omega
      · intro hsame
        exact quotable_cons hquote hescape (hquotable (by omega))

theorem readQuoted_quotable {body rest : Text} (hbody : Quotable body)
    (hrest : rest.head? ≠ some '\'') :
    readQuoted (body ++ '\'' :: rest) = some (body, rest) := by
  have hend : readQuoted ('\'' :: rest) = some ([], rest) := by
    cases rest with
    | nil => rfl
    | cons d rest =>
        have hd : d ≠ '\'' := fun hEq => hrest (congrArg some hEq)
        rw [readQuoted, if_pos rfl, if_neg hd]
  fun_induction Quotable body with
  | case1 => exact hend
  | case2 c =>
      rw [List.singleton_append, readQuoted, if_neg hbody.left, if_neg hbody.right, hend]
      rfl
  | case3 d body ih =>
      rw [List.cons_append, List.cons_append, readQuoted, if_neg (by decide), if_pos rfl,
        ih hbody.right]
      rcases hbody.left with hpercent | hunderscore
      · rw [hpercent]
        rfl
      · rw [hunderscore]
        rfl
  | case4 c d body hescape ih =>
      have hnext := ih hbody.right
      rw [List.cons_append] at hnext
      rw [List.cons_append, List.cons_append, readQuoted, if_neg hbody.left, if_neg hescape,
        hnext]
      rfl

/-- Between quotation marks only a quotable text denotes itself. -/
theorem readLiteral_iff {body rest : Text} (hrest : rest.head? ≠ some '\'') :
    readLiteral ('\'' :: (body ++ '\'' :: rest)) = some (body, rest) <-> Quotable body := by
  constructor
  · intro h
    apply (readQuoted_length h).right
    rw [List.length_append, List.length_cons]
    omega
  · intro h
    exact readQuoted_quotable h hrest

/-!
# What is pasted
-/

theorem tranToDBStr_string (localtime_s : Calendar) (clock : Clock) (s : Text) :
    TranToDBStr localtime_s (TranToRedisStr clock s .FT_string) .FT_string =
      .ok ('\'' :: (s ++ ['\''])) := by
  have hlast : (s ++ ['"']).set s.length '\'' = s ++ ['\''] := by
    rw [List.set_append_right _ _ (Nat.le_refl _), Nat.sub_self]
    rfl
  show Except.ok (('\'' :: (s ++ ['"'])).set (('"' :: (s ++ ['"'])).length - 1) '\'') = _
  rw [List.length_cons, List.length_append, List.length_singleton, Nat.add_sub_cancel,
    List.set_cons_succ, hlast]

theorem mem_assignments {entries : List (Text × Text)} {entry : Text × Text}
    (hentry : entry ∈ entries) (size iIndex : Nat) :
    exists before after c, c ≠ '\'' ∧
      assignments size iIndex entries =
        before ++ (entry.1 ++ '=' :: (entry.2 ++ c :: after)) := by
  induction entries generalizing iIndex with
  | nil => cases hentry
  | cons first rest ih =>
      unfold assignments
      rcases List.mem_cons.mp hentry with hfirst | hlater
      · rw [hfirst]
        refine ⟨[], assignments size (iIndex + 1) rest, _, ?_, rfl⟩
        split <;> decide
      · rcases ih hlater (iIndex + 1) with ⟨before, after, c, hc, hEq⟩
        rw [hEq]
        refine ⟨first.1 ++ '=' :: (first.2 ++ [if iIndex ≠ size then ',' else ' ']) ++ before,
          after, c, hc, ?_⟩
        simp only [List.append_assoc, List.cons_append, List.nil_append]

/-- The last of the texts has a parenthesis behind it and the others a comma. -/
theorem mem_listed {texts : List Text} {text : Text} (htext : text ∈ texts)
    {size iIndex : Nat} (hsize : iIndex + texts.length = size + 1) :
    exists before after c, c ≠ '\'' ∧
      listed size iIndex texts ++ [')'] = before ++ (text ++ c :: after) := by
  induction texts generalizing iIndex with
  | nil => cases htext
  | cons first rest ih =>
      rw [List.length_cons] at hsize
      unfold listed
      rcases List.mem_cons.mp htext with hfirst | hlater
      · rw [hfirst]
        cases rest with
        | nil =>
            rw [List.length_nil] at hsize
            have hlast : iIndex = size := by omega
            refine ⟨[], [], ')', by decide, ?_⟩
            rw [if_neg (not_not.mpr hlast)]
            simp only [listed, List.append_nil, List.nil_append]
        | cons next rest =>
            rw [List.length_cons] at hsize
            refine ⟨[], listed size (iIndex + 1) (next :: rest) ++ [')'], ',', by decide, ?_⟩
            rw [if_pos (by omega)]
            simp only [List.append_assoc, List.cons_append, List.nil_append]
      · have hnext : iIndex + 1 + rest.length = size + 1 := by omega
        rcases ih hlater hnext with ⟨before, after, c, hc, hEq⟩
        refine ⟨first ++ (if iIndex ≠ size then [','] else []) ++ before, after, c, hc, ?_⟩
        simp only [List.append_assoc] at hEq ⊢
        rw [hEq]

theorem mem_valueTexts {localtime_s : Calendar} {size iIndex : Nat}
    {mField : List FiledNameType} {listValue : List Text} {texts : Text × Nat}
    (h : valueTexts localtime_s size iIndex mField listValue = .ok texts)
    {field : FiledNameType} {strValue literal : Text}
    (hmem : (field, strValue) ∈ mField.zip listValue) (hne : strValue ≠ [])
    (hliteral : TranToDBStr localtime_s strValue field.eType = .ok literal) :
    exists before after c, c ≠ '\'' ∧ texts.1 = before ++ (literal ++ c :: after) := by
  fun_induction valueTexts localtime_s size iIndex mField listValue generalizing texts with
  | case1 iIndex first rest listValue ih =>
      rw [List.zip_cons_cons] at hmem
      rcases List.mem_cons.mp hmem with hfirst | hlater
      · cases hfirst
        exact absurd rfl hne
      · exact ih h hlater
  | case2 iIndex first rest value listValue hvalue exception hthrown => cases h
  | case3 iIndex first rest value listValue hvalue other hother ih =>
      cases hrest : valueTexts localtime_s size (iIndex + 1) rest listValue with
      | error exception =>
          rw [hrest] at h
          cases h
      | ok later =>
          rw [hrest] at h
          cases h
          rw [List.zip_cons_cons] at hmem
          rcases List.mem_cons.mp hmem with hfirst | hlater
          · cases hfirst
            cases hother.symm.trans hliteral
            by_cases hlast : iIndex ≠ size
            · exact ⟨[], ' ' :: later.1, ',', by decide, by rw [if_pos hlast]; rfl⟩
            · exact ⟨[], later.1, ' ', by decide, by rw [if_neg hlast]; rfl⟩
          · rcases ih hrest hlater with ⟨before, after, c, hc, hEq⟩
            refine ⟨other ++ (if iIndex ≠ size then [','] else []) ++ ' ' :: before, after, c,
              hc, ?_⟩
            dsimp only
            rw [hEq]
            simp only [List.append_assoc, List.cons_append]
  | case4 mField iIndex listValue hshape =>
      cases mField with
      | nil => cases hmem
      | cons first rest =>
          cases listValue with
          | nil => cases hmem
          | cons value listValue => exact (hshape first rest value listValue rfl rfl).elim

/-!
# Strings that come through
-/

/-- The literal is one piece of the statement: what follows it is read as it was written. -/
def Pasted (statement literal s : Text) : Prop :=
  exists before after, statement = before ++ (literal ++ after) ∧
    readLiteral (literal ++ after) = some (s, after)

/-- The string is taken to Redis and from there to MySQL, and all statements hold it as one
literal. -/
structure Unharmed (localtime_s : Calendar) (clock : Clock) (s literal : Text) : Prop where
  transferred : TranToDBStr localtime_s (TranToRedisStr clock s .FT_string) .FT_string =
    .ok literal
  denotes : readLiteral literal = some (s, [])
  updates : forall (strDBTable : Text) (i64Key : uint64_t) (mKeyValue : ExtTreeMap Text Text)
    (column : Text), mKeyValue[column]? = some literal ->
      Pasted (updateText strDBTable i64Key mKeyValue) literal s
  inserts : forall (strDBTable : Text) (i64Key : uint64_t) (mKeyValue : ExtTreeMap Text Text)
    (column : Text), mKeyValue[column]? = some literal ->
      Pasted (insertPackageText strDBTable i64Key mKeyValue) literal s
  rows : forall (strDBTable : Text) (i64Key it : uint64_t) (mField : List FiledNameType)
    (listValue : List Text) (values : Text × Nat) (field : FiledNameType),
    valueTexts localtime_s mField.length 1 mField listValue = .ok values ->
      (field, TranToRedisStr clock s .FT_string) ∈ mField.zip listValue ->
        field.eType = .FT_string ->
          Pasted (insertText strDBTable i64Key mField ++ Text.decimal it.toNat ++
            ", ".toList ++ values.1 ++ [')']) literal s

theorem pasted_of_quotable {s : Text} (hs : Quotable s) {statement before after : Text} {c : Char}
    (hc : c ≠ '\'') (hEq : statement = before ++ (('\'' :: (s ++ ['\''])) ++ c :: after)) :
    Pasted statement ('\'' :: (s ++ ['\''])) s := by
  have hrest : (c :: after).head? ≠ some '\'' := fun h => hc (Option.some.inj h)
  refine ⟨before, c :: after, hEq, ?_⟩
  rw [List.cons_append, List.append_assoc, List.singleton_append]
  exact (readLiteral_iff hrest).mpr hs

theorem updateText_pasted {s : Text} (hs : Quotable s) (strDBTable : Text) (i64Key : uint64_t)
    {mKeyValue : ExtTreeMap Text Text} {column : Text}
    (hcolumn : mKeyValue[column]? = some ('\'' :: (s ++ ['\'']))) :
    Pasted (updateText strDBTable i64Key mKeyValue) ('\'' :: (s ++ ['\''])) s := by
  have hentry := ExtTreeMap.mem_toList_iff_getElem?_eq_some.mpr hcolumn
  rcases mem_assignments hentry mKeyValue.toList.length 1 with ⟨before, after, c, hc, hEq⟩
  have hstatement : updateText strDBTable i64Key mKeyValue =
      ("UPDATE ".toList ++ strDBTable ++ " SET ".toList ++ (before ++ column ++ ['='])) ++
        (('\'' :: (s ++ ['\''])) ++
          c :: (after ++ ("WHERE Key=".toList ++ Text.decimal i64Key.toNat))) := by
    unfold updateText
    rw [hEq]
    simp only [List.append_assoc, List.cons_append, List.nil_append]
  exact pasted_of_quotable hs hc hstatement

theorem insertPackageText_pasted {s : Text} (hs : Quotable s) (strDBTable : Text)
    (i64Key : uint64_t) {mKeyValue : ExtTreeMap Text Text} {column : Text}
    (hcolumn : mKeyValue[column]? = some ('\'' :: (s ++ ['\'']))) :
    Pasted (insertPackageText strDBTable i64Key mKeyValue) ('\'' :: (s ++ ['\''])) s := by
  have hentry := ExtTreeMap.mem_toList_iff_getElem?_eq_some.mpr hcolumn
  have hmem : ('\'' :: (s ++ ['\''])) ∈ mKeyValue.toList.map Prod.snd :=
    List.mem_map.mpr ⟨_, hentry, rfl⟩
  have hsize : 1 + (mKeyValue.toList.map Prod.snd).length = mKeyValue.toList.length + 1 := by
    rw [List.length_map, Nat.add_comm]
  rcases mem_listed hmem hsize with ⟨before, after, c, hc, hEq⟩
  have hstatement : insertPackageText strDBTable i64Key mKeyValue =
      ("INSERT INTO ".toList ++ strDBTable ++ " (Key,".toList ++
        listed mKeyValue.toList.length 1 (mKeyValue.toList.map Prod.fst) ++
        ") VALUES(".toList ++ Text.decimal i64Key.toNat ++ ",".toList ++ before) ++
        (('\'' :: (s ++ ['\''])) ++ c :: after) := by
    unfold insertPackageText
    rw [List.append_assoc _ before, ← hEq]
    simp only [List.append_assoc]
    rfl
  exact pasted_of_quotable hs hc hstatement

theorem insertText_pasted {s : Text} (hs : Quotable s) (localtime_s : Calendar) (clock : Clock)
    (strDBTable : Text) (i64Key it : uint64_t) {mField : List FiledNameType}
    {listValue : List Text} {values : Text × Nat} {field : FiledNameType}
    (hvalues : valueTexts localtime_s mField.length 1 mField listValue = .ok values)
    (hmem : (field, TranToRedisStr clock s .FT_string) ∈ mField.zip listValue)
    (htype : field.eType = .FT_string) :
    Pasted (insertText strDBTable i64Key mField ++ Text.decimal it.toNat ++ ", ".toList ++
      values.1 ++ [')']) ('\'' :: (s ++ ['\''])) s := by
  have hne : TranToRedisStr clock s .FT_string ≠ [] := List.cons_ne_nil _ _
  have htran : TranToDBStr localtime_s (TranToRedisStr clock s .FT_string) field.eType =
      .ok ('\'' :: (s ++ ['\''])) := by
    rw [htype]
    exact tranToDBStr_string localtime_s clock s
  rcases mem_valueTexts hvalues hmem hne htran with ⟨before, after, c, hc, hEq⟩
  have hstatement : insertText strDBTable i64Key mField ++ Text.decimal it.toNat ++
      ", ".toList ++ values.1 ++ [')'] =
      (insertText strDBTable i64Key mField ++ Text.decimal it.toNat ++ ", ".toList ++ before) ++
        (('\'' :: (s ++ ['\''])) ++ c :: (after ++ [')'])) := by
    rw [hEq]
    simp only [List.append_assoc, List.cons_append]
  exact pasted_of_quotable hs hc hstatement

/-- A string comes through exactly if it has no quotation mark and no backslash that takes
anything away. -/
theorem unharmed_iff (localtime_s : Calendar) (clock : Clock) (s : Text) :
    (exists literal, Unharmed localtime_s clock s literal) <-> Quotable s := by
  have hliteral := tranToDBStr_string localtime_s clock s
  have hnil : ([] : Text).head? ≠ some '\'' := fun h => by cases h
  constructor
  · intro h
    rcases h with ⟨literal, hunharmed⟩
    have hdenotes := hunharmed.denotes
    cases hliteral.symm.trans hunharmed.transferred
    exact (readLiteral_iff hnil).mp hdenotes
  · intro h
    refine ⟨'\'' :: (s ++ ['\'']), ?_⟩
    constructor
    · exact hliteral
    · exact (readLiteral_iff hnil).mpr h
    · intro strDBTable i64Key mKeyValue column hcolumn
      exact updateText_pasted h strDBTable i64Key hcolumn
    · intro strDBTable i64Key mKeyValue column hcolumn
      exact insertPackageText_pasted h strDBTable i64Key hcolumn
    · intro strDBTable i64Key it mField listValue values field hvalues hmem htype
      exact insertText_pasted h localtime_s clock strDBTable i64Key it hvalues hmem htype

/-- The quotation mark in the name ends the literal. -/
theorem quotation_mark_ends_literal :
    ¬ exists literal, Unharmed (fun _ => ⟨0, 0, 0, 0, 0, 0⟩) ⟨fun _ => 0, ⟨0, 0, 0, 0, 0, 0⟩⟩
      "O'Hara".toList literal := by
  intro h
  rcases h with ⟨literal, hunharmed⟩
  have hdenotes := hunharmed.denotes
  cases (tranToDBStr_string _ _ _).symm.trans hunharmed.transferred
  revert hdenotes
  decide

end DataTransfer
end DataHandle
end GMServer
