import GMServer.DataHandle.SavePackage

/-!
# Update statements

The text of an update says which columns get which literals: it is read back to the map it
was written from, as long as the names have no equality sign and the literals are closed.
-/

namespace GMServer
namespace DataHandle
namespace DataTransfer

open Std

/-!
# Literals
-/

def IsDigits (text : Text) : Prop := text ≠ [] ∧ forall c, c ∈ text -> c.isDigit = true

/-- Numbers and quoted texts without quotes and escapes. -/
inductive IsLiteral : Text -> Prop where
  | number {sign whole fraction : Text} (hsign : sign = [] ∨ sign = ['-'])
      (hwhole : IsDigits whole)
      (hfraction : fraction = [] ∨ exists digits, fraction = '.' :: digits ∧ IsDigits digits) :
      IsLiteral (sign ++ (whole ++ fraction))
  | quoted {body : Text} (hquote : '\'' ∉ body) (hescape : '\\' ∉ body) :
      IsLiteral ('\'' :: (body ++ ['\'']))

/-- Assignments of literals to columns of a table; there is at least one. -/
structure Assignable (columns : List Text) (mKeyValue : ExtTreeMap Text Text) : Prop where
  nonempty : mKeyValue ≠ ∅
  entries : forall column literal : Text, mKeyValue[column]? = some literal ->
    column ∈ columns ∧ IsLiteral literal

/-!
# Reading assignments
-/

inductive Place where
  | name
  | value
  | quoted

/-- What has been read of the name and of the value is handed on. -/
def readAssignments : Place -> Text -> Text -> Text -> List (Text × Text)
  | _, _, _, [] => []
  | .name, name, value, c :: rest =>
      if c = '=' then readAssignments .value name value rest
      else readAssignments .name (name ++ [c]) value rest
  | .value, name, value, c :: rest =>
      if c = ',' then (name, value) :: readAssignments .name [] [] rest
      else if c = ' ' then [(name, value)]
      else if c = '\'' then readAssignments .quoted name (value ++ [c]) rest
      else readAssignments .value name (value ++ [c]) rest
  | .quoted, name, value, c :: rest =>
      if c = '\'' then readAssignments .value name (value ++ [c]) rest
      else readAssignments .quoted name (value ++ [c]) rest

theorem readAssignments_name {more : Text} (hfree : '=' ∉ more) (name value rest : Text) :
    readAssignments .name name value (more ++ '=' :: rest) =
      readAssignments .value (name ++ more) value rest := by
  induction more generalizing name with
  | nil =>
      rw [List.append_nil]
      exact if_pos rfl
  | cons c more ih =>
      rw [List.mem_cons, not_or] at hfree
      rw [List.cons_append, readAssignments, if_neg (Ne.symm hfree.left), ih hfree.right,
        List.append_assoc, List.singleton_append]

theorem readAssignments_plain {more : Text}
    (hplain : forall c, c ∈ more -> c ≠ ',' ∧ c ≠ ' ' ∧ c ≠ '\'') (name value rest : Text) :
    readAssignments .value name value (more ++ rest) =
      readAssignments .value name (value ++ more) rest := by
  induction more generalizing value with
  | nil => rw [List.append_nil, List.nil_append]
  | cons c more ih =>
      rcases hplain c List.mem_cons_self with ⟨hcomma, hspace, hquote⟩
      rw [List.cons_append, readAssignments, if_neg hcomma, if_neg hspace, if_neg hquote,
        ih (fun d hd => hplain d (List.mem_cons_of_mem c hd)), List.append_assoc,
        List.singleton_append]

theorem readAssignments_quoted {body : Text} (hfree : '\'' ∉ body) (name value rest : Text) :
    readAssignments .quoted name value (body ++ '\'' :: rest) =
      readAssignments .value name (value ++ (body ++ ['\''])) rest := by
  induction body generalizing value with
  | nil => exact if_pos rfl
  | cons c body ih =>
      rw [List.mem_cons, not_or] at hfree
      rw [List.cons_append, readAssignments, if_neg (Ne.symm hfree.left), ih hfree.right,
        List.append_assoc, List.singleton_append, List.cons_append]

/-- The characters of numbers end no value. -/
theorem number_plain {sign whole fraction : Text} (hsign : sign = [] ∨ sign = ['-'])
    (hwhole : IsDigits whole)
    (hfraction : fraction = [] ∨ exists digits, fraction = '.' :: digits ∧ IsDigits digits)
    {c : Char} (hc : c ∈ sign ++ (whole ++ fraction)) : c ≠ ',' ∧ c ≠ ' ' ∧ c ≠ '\'' := by
  have hdigit : c.isDigit = true -> c ≠ ',' ∧ c ≠ ' ' ∧ c ≠ '\'' := fun h =>
    ⟨Text.ne_of_isDigit h rfl, Text.ne_of_isDigit h rfl, Text.ne_of_isDigit h rfl⟩
  rcases List.mem_append.mp hc with hfirst | hrest
  · rcases hsign with hEq | hEq
    · rw [hEq] at hfirst
      cases hfirst
    · rw [hEq] at hfirst
      rw [List.mem_singleton.mp hfirst]
      decide
  · rcases List.mem_append.mp hrest with hmiddle | hlast
    · exact hdigit (hwhole.right c hmiddle)
    · rcases hfraction with hEq | ⟨digits, hEq, hdigits⟩
      · rw [hEq] at hlast
        cases hlast
      · rw [hEq] at hlast
        rcases List.mem_cons.mp hlast with hpoint | hlater
        · rw [hpoint]
          decide
        · exact hdigit (hdigits.right c hlater)

theorem readAssignments_literal {literal : Text} (hliteral : IsLiteral literal)
    (name rest : Text) :
    readAssignments .value name [] (literal ++ rest) =
      readAssignments .value name literal rest := by
  cases hliteral with
  | number hsign hwhole hfraction =>
      exact readAssignments_plain (fun c hc => number_plain hsign hwhole hfraction hc) name []
        rest
  | @quoted body hquote hescape =>
      rw [List.cons_append, List.append_assoc, List.singleton_append, readAssignments,
        if_neg (by decide), if_neg (by decide), if_pos rfl, readAssignments_quoted hquote]
      rfl

/-- The last assignment has a blank behind it and the others a comma. -/
theorem readAssignments_assignments {entries : List (Text × Text)}
    (hentries : forall entry, entry ∈ entries -> '=' ∉ entry.1 ∧ IsLiteral entry.2)
    (hne : entries ≠ []) {size iIndex : Nat} (hsize : iIndex + entries.length = size + 1)
    (rest : Text) :
    readAssignments .name [] [] (assignments size iIndex entries ++ rest) = entries := by
  induction entries generalizing iIndex with
  | nil => exact absurd rfl hne
  | cons entry entries ih =>
      rcases hentries entry List.mem_cons_self with ⟨hname, hliteral⟩
      rw [List.length_cons] at hsize
      rw [assignments, List.append_assoc, List.cons_append, List.append_assoc,
        List.cons_append, readAssignments_name hname, List.nil_append,
        readAssignments_literal hliteral]
      cases entries with
      | nil =>
          rw [List.length_nil] at hsize
          rw [if_neg (by omega), readAssignments, if_neg (by decide), if_pos rfl]
      | cons other entries =>
          rw [List.length_cons] at hsize
          rw [if_pos (by omega), readAssignments, if_pos rfl,
            ih (fun it hit => hentries it (List.mem_cons_of_mem entry hit))
              (List.cons_ne_nil _ _) (by
                rw [List.length_cons]
                omega)]

/-!
# Reading updates
-/

def readUpdate (strDBTable sql : Text) : ExtTreeMap Text Text :=
  SortedMap.fill ∅ (readAssignments .name [] []
    (sql.drop ("UPDATE ".toList ++ strDBTable ++ " SET ".toList).length))

theorem readUpdate_updateText {columns : List Text} (hcolumns : forall column,
    column ∈ columns -> '=' ∉ column) {mKeyValue : ExtTreeMap Text Text}
    (h : Assignable columns mKeyValue) (strDBTable : Text) (i64Key : uint64_t) :
    readUpdate strDBTable (updateText strDBTable i64Key mKeyValue) = mKeyValue := by
  have hne : mKeyValue.toList ≠ [] := fun hnil => h.nonempty (ExtTreeMap.toList_eq_nil_iff.mp hnil)
  have hentries : forall entry, entry ∈ mKeyValue.toList ->
      '=' ∉ entry.1 ∧ IsLiteral entry.2 := by
    intro entry hentry
    have hget := ExtTreeMap.mem_toList_iff_getElem?_eq_some.mp hentry
    rcases h.entries entry.1 entry.2 hget with ⟨hcolumn, hliteral⟩
    exact ⟨hcolumns entry.1 hcolumn, hliteral⟩
  have hsplit : updateText strDBTable i64Key mKeyValue =
      ("UPDATE ".toList ++ strDBTable ++ " SET ".toList) ++
        (assignments mKeyValue.toList.length 1 mKeyValue.toList ++
          ("WHERE Key=".toList ++ Text.decimal i64Key.toNat)) := by
    unfold updateText
    rw [List.append_assoc, List.append_assoc]
  unfold readUpdate
  rw [hsplit, List.drop_left, readAssignments_assignments hentries hne (Nat.add_comm _ _),
    SortedMap.fill_toList]

end DataTransfer
end DataHandle
end GMServer
