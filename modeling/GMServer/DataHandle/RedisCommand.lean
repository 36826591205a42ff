import GMServer.DataHandle.StringValue

/-!
# Command strings

`RedisWrap` hands whole command strings to `redisCommand` as formats without
arguments.  The format is cut into arguments at spaces; a percent sign begins a
conversion, and every conversion but `%%` reads an argument that is not there.
-/

namespace GMServer
namespace DataHandle

/-- `curarg` and `touched` are the variables of the C function; no result stands for
the read of a missing argument. -/
def formatFrom (curarg : Text) (touched : Bool) : Text -> Option (List Text)
  | [] => some (if touched then [curarg] else [])
  | [c] =>
      if c = ' ' then some (if touched then [curarg] else [])
      else some [curarg ++ [c]]
  | c :: d :: rest =>
      if c = '%' then
        if d = '%' then formatFrom (curarg ++ ['%']) true rest else none
      else if c = ' ' then
        if touched then (formatFrom [] false (d :: rest)).map (curarg :: ·)
        else formatFrom curarg false (d :: rest)
      else formatFrom (curarg ++ [c]) true (d :: rest)

def redisvFormatCommand (format : Text) : Option (List Text) :=
  formatFrom [] false (cStr format)

/-!
# Plain words

A word without spaces and percent signs becomes an argument as it stands.
-/

def Plain (word : Text) : Prop := forall c, c ∈ word -> c ≠ ' ' ∧ c ≠ '%'

theorem formatFrom_space (curarg : Text) (rest : Text) :
    formatFrom curarg true (' ' :: rest) = (formatFrom [] false rest).map (curarg :: ·) := by
  cases rest with
  | nil => rfl
  | cons d rest =>
      rw [formatFrom, if_neg (by decide), if_pos rfl, if_pos rfl]

/-- Blanks in front of an argument are skipped. -/
theorem formatFrom_blank (rest : Text) :
    formatFrom [] false (' ' :: rest) = formatFrom [] false rest := by
  cases rest with
  | nil => rfl
  | cons d rest =>
      rw [formatFrom, if_neg (by decide), if_pos rfl]
      exact if_neg Bool.false_ne_true

theorem formatFrom_char {c : Char} (hspace : c ≠ ' ') (hpercent : c ≠ '%') (curarg : Text)
    (touched : Bool) (rest : Text) :
    formatFrom curarg touched (c :: rest) = formatFrom (curarg ++ [c]) true rest := by
  cases rest with
  | nil => exact if_neg hspace
  | cons d rest =>
      rw [formatFrom, if_neg hpercent, if_neg hspace]

theorem formatFrom_word {word : Text} (hplain : Plain word) (hne : word ≠ [])
    (curarg : Text) (touched : Bool) (rest : Text) :
    formatFrom curarg touched (word ++ rest) = formatFrom (curarg ++ word) true rest := by
  induction word generalizing curarg touched with
  | nil => exact absurd rfl hne
  | cons c word ih =>
      have hc := hplain c List.mem_cons_self
      rw [List.cons_append, formatFrom_char hc.left hc.right]
      cases word with
      | nil => rfl
      | cons d word =>
          have hrest : Plain (d :: word) :=
            fun e he => hplain e (List.mem_cons_of_mem c he)
          rw [ih hrest (List.cons_ne_nil d word), List.append_assoc, List.singleton_append]

theorem formatFrom_word_space {word : Text} (hplain : Plain word) (hne : word ≠ [])
    (rest : Text) :
    formatFrom [] false (word ++ ' ' :: rest) = (formatFrom [] false rest).map (word :: ·) := by
  rw [formatFrom_word hplain hne, formatFrom_space, List.nil_append]

/-!
# What an argument can hold
-/

/-- No space, and no character but those that were there. -/
def Within (curarg text arg : Text) : Prop :=
  ' ' ∉ arg ∧ forall c, c ∈ arg -> c ∈ curarg ∨ c ∈ text

theorem Within.mono {curarg text curarg' text' arg : Text} (h : Within curarg text arg)
    (hsub : forall c, c ∈ curarg ∨ c ∈ text -> c ∈ curarg' ∨ c ∈ text') :
    Within curarg' text' arg :=
  ⟨h.left, fun c hc => hsub c (h.right c hc)⟩

theorem not_mem_append_char {curarg : Text} {c : Char} (hcurarg : ' ' ∉ curarg)
    (hc : c ≠ ' ') : ' ' ∉ curarg ++ [c] := by
  rw [List.mem_append, List.mem_singleton, not_or]
  exact ⟨hcurarg, Ne.symm hc⟩

theorem within_current {curarg : Text} (hcurarg : ' ' ∉ curarg) (text : Text)
    {touched : Bool} {arg : Text}
    (h : arg ∈ (if touched then [curarg] else [])) : Within curarg text arg := by
  split at h
  · rw [List.mem_singleton.mp h]
    exact ⟨hcurarg, fun c hc => Or.inl hc⟩
  · cases h

theorem mem_formatFrom {text curarg : Text} {touched : Bool} {args : List Text}
    (hcurarg : ' ' ∉ curarg) (h : formatFrom curarg touched text = some args) {arg : Text}
    (harg : arg ∈ args) : Within curarg text arg := by
  fun_induction formatFrom curarg touched text generalizing args with
  | case1 curarg touched =>
      cases h
      exact within_current hcurarg [] harg
  | case2 curarg touched =>
      cases h
      exact within_current hcurarg _ harg
  | case3 curarg touched c hc =>
      cases h
      rw [List.mem_singleton.mp harg]
      exact ⟨not_mem_append_char hcurarg hc, fun d hd => List.mem_append.mp hd⟩
  | case4 curarg touched rest ih =>
      apply (ih (not_mem_append_char hcurarg (by decide)) h harg).mono
      intro c hc
      rcases hc with hc | hc
      · rcases List.mem_append.mp hc with hold | hnew
        · exact Or.inl hold
        · rw [List.mem_singleton.mp hnew]
          exact Or.inr List.mem_cons_self
      · exact Or.inr (List.mem_cons_of_mem _ (List.mem_cons_of_mem _ hc))
  | case5 curarg touched d rest hd => cases h
  | case6 curarg d rest _ ih =>
      rcases Option.map_eq_some_iff.mp h with ⟨later, hlater, hEq⟩
      rw [← hEq] at harg
      rcases List.mem_cons.mp harg with hfirst | hrest
      · rw [hfirst]
        exact ⟨hcurarg, fun c hc => Or.inl hc⟩
      · apply (ih List.not_mem_nil hlater hrest).mono
        intro c hc
        rcases hc with hc | hc
        · cases hc
        · exact Or.inr (List.mem_cons_of_mem _ hc)
  | case7 curarg touched d rest _ _ ih =>
      apply (ih hcurarg h harg).mono
      intro c hc
      exact hc.imp_right (List.mem_cons_of_mem _)
  | case8 curarg touched c d rest _ hc ih =>
      apply (ih (not_mem_append_char hcurarg hc) h harg).mono
      intro e he
      rcases he with he | he
      · rcases List.mem_append.mp he with hold | hnew
        · exact Or.inl hold
        · rw [List.mem_singleton.mp hnew]
          exact Or.inr List.mem_cons_self
      · exact Or.inr (List.mem_cons_of_mem _ he)

/-!
# Percent signs
-/

/-- A text without spaces as it arrives. -/
def unescape : Text -> Option Text
  | [] => some []
  | [c] => some [c]
  | c :: d :: rest =>
      if c = '%' then
        if d = '%' then (unescape rest).map ('%' :: ·) else none
      else (unescape (d :: rest)).map (c :: ·)

/-- The same for a part of a text that does not end it. -/
def unescapePart : Text -> Option Text
  | [] => some []
  | [c] => if c = '%' then none else some [c]
  | c :: d :: rest =>
      if c = '%' then
        if d = '%' then (unescapePart rest).map ('%' :: ·) else none
      else (unescapePart (d :: rest)).map (c :: ·)

theorem formatFrom_unescape {text : Text} (hspace : ' ' ∉ text) (curarg : Text) :
    formatFrom curarg true text = (unescape text).map (fun arg => [curarg ++ arg]) := by
  fun_induction unescape text generalizing curarg with
  | case1 =>
      show some [curarg] = some [curarg ++ []]
      rw [List.append_nil]
  | case2 c =>
      have hc : c ≠ ' ' := fun hEq => hspace (hEq ▸ List.mem_cons_self)
      exact if_neg hc
  | case3 rest ih =>
      have hrest : ' ' ∉ rest :=
        fun h => hspace (List.mem_cons_of_mem _ (List.mem_cons_of_mem _ h))
      rw [formatFrom, if_pos rfl, if_pos rfl, ih hrest, Option.map_map]
      congr 1
      funext arg
      simp only [Function.comp, List.append_assoc, List.singleton_append]
  | case4 d rest hd =>
      rw [formatFrom, if_pos rfl, if_neg hd]
      rfl
  | case5 c d rest hpercent ih =>
      have hc : c ≠ ' ' := fun hEq => hspace (hEq ▸ List.mem_cons_self)
      have hrest : ' ' ∉ d :: rest := fun h => hspace (List.mem_cons_of_mem _ h)
      rw [formatFrom, if_neg hpercent, if_neg hc, ih hrest, Option.map_map]
      congr 1
      funext arg
      simp only [Function.comp, List.append_assoc, List.singleton_append]

theorem unescape_cons {c : Char} (hc : c ≠ '%') (rest : Text) :
    unescape (c :: rest) = (unescape rest).map (c :: ·) := by
  cases rest with
  | nil => rfl
  | cons d rest => rw [unescape, if_neg hc]

theorem unescape_append (text : Text) {sep : Char} (hsep : sep ≠ '%') (rest : Text) :
    unescape (text ++ sep :: rest) =
      (unescapePart text).bind (fun part => (unescape rest).map (fun more =>
        part ++ sep :: more)) := by
  fun_induction unescapePart text with
  | case1 =>
      rw [List.nil_append, unescape_cons hsep]
      rfl
  | case2 =>
      show unescape ('%' :: sep :: rest) = none
      rw [unescape, if_pos rfl, if_neg hsep]
  | case3 c hc =>
      rw [List.singleton_append, unescape_cons hc, unescape_cons hsep, Option.map_map]
      rfl
  | case4 text ih =>
      rw [List.cons_append, List.cons_append, unescape, if_pos rfl, if_pos rfl, ih]
      cases unescapePart text with
      | none => rfl
      | some part =>
          cases unescape rest with
          | none => rfl
          | some more => rfl
  | case5 d text hd =>
      rw [List.cons_append, List.cons_append, unescape, if_pos rfl, if_neg hd]
      rfl
  | case6 c d text hc ih =>
      rw [List.cons_append, unescape_cons hc, ih]
      cases unescapePart (d :: text) with
      | none => rfl
      | some part =>
          cases unescape rest with
          | none => rfl
          | some more => rfl

theorem unescape_plain_append {text : Text} (hplain : '%' ∉ text) (rest : Text) :
    unescape (text ++ rest) = (unescape rest).map (text ++ ·) := by
  induction text with
  | nil =>
      rw [List.nil_append]
      exact Option.map_id'.symm
  | cons c text ih =>
      rw [List.mem_cons, not_or] at hplain
      rw [List.cons_append, unescape_cons (Ne.symm hplain.left), ih hplain.right,
        Option.map_map]
      rfl

/-- A part never gets longer, and it gets shorter if there is a percent sign in it. -/
theorem unescapePart_spec {text part : Text} (h : unescapePart text = some part) :
    part.length ≤ text.length ∧ ('%' ∈ text -> part.length < text.length) ∧
      (text ≠ [] -> part ≠ []) ∧ forall c, c ∈ part -> c ∈ text := by
  fun_induction unescapePart text generalizing part with
  | case1 =>
      cases h
      exact ⟨Nat.le_refl _, fun hc => absurd hc List.not_mem_nil, fun hne => hne, fun c hc => hc⟩
  | case2 => cases h
  | case3 c hc =>
      cases h
      refine ⟨Nat.le_refl _, ?_, fun hne => hne, fun c hc => hc⟩
      intro hmem
      exact absurd (List.mem_singleton.mp hmem).symm hc
  | case4 text ih =>
      rcases Option.map_eq_some_iff.mp h with ⟨more, hmore, hEq⟩
      rcases ih hmore with ⟨hle, _, _, hsub⟩
      rw [← hEq]
      refine ⟨?_, ?_, fun _ => List.cons_ne_nil _ _, ?_⟩
      · exact Nat.succ_le_succ (Nat.le_succ_of_le hle)
      · intro _
        exact Nat.succ_lt_succ (Nat.lt_succ_of_le hle)
      · intro c hc
        rcases List.mem_cons.mp hc with hfirst | hrest
        · rw [hfirst]
          exact List.mem_cons_self
        · exact List.mem_cons_of_mem _ (List.mem_cons_of_mem _ (hsub c hrest))
  | case5 d text hd => cases h
  | case6 c d text hc ih =>
      rcases Option.map_eq_some_iff.mp h with ⟨more, hmore, hEq⟩
      rcases ih hmore with ⟨hle, hless, _, hsub⟩
      rw [← hEq]
      refine ⟨Nat.succ_le_succ hle, ?_, fun _ => List.cons_ne_nil _ _, ?_⟩
      · intro hmem
        rcases List.mem_cons.mp hmem with hfirst | hrest
        · exact absurd hfirst.symm hc
        · exact Nat.succ_lt_succ (hless hrest)
      · intro e he
        rcases List.mem_cons.mp he with hfirst | hrest
        · rw [hfirst]
          exact List.mem_cons_self
        · exact List.mem_cons_of_mem _ (hsub e hrest)

/-- A part without spaces that another argument follows. -/
theorem formatFrom_part {text : Text} (hspace : ' ' ∉ text) (curarg rest : Text) :
    formatFrom curarg true (text ++ ' ' :: rest) =
      (unescapePart text).bind (fun part =>
        (formatFrom [] false rest).map ((curarg ++ part) :: ·)) := by
  fun_induction unescapePart text generalizing curarg with
  | case1 =>
      rw [List.nil_append, formatFrom_space, Option.bind_some, List.append_nil]
  | case2 =>
      show formatFrom curarg true ('%' :: ' ' :: rest) = none
      rw [formatFrom, if_pos rfl, if_neg (by decide)]
  | case3 c hc =>
      have hchar : c ≠ ' ' := fun hEq => hspace (hEq ▸ List.mem_cons_self)
      rw [List.singleton_append, formatFrom_char hchar hc, formatFrom_space, Option.bind_some]
  | case4 text ih =>
      have hrest : ' ' ∉ text :=
        fun h => hspace (List.mem_cons_of_mem _ (List.mem_cons_of_mem _ h))
      rw [List.cons_append, List.cons_append, formatFrom, if_pos rfl, if_pos rfl, ih hrest,
        Option.bind_map]
      simp only [Function.comp_def, List.append_assoc, List.singleton_append]
  | case5 d text hd =>
      rw [List.cons_append, List.cons_append, formatFrom, if_pos rfl, if_neg hd]
      rfl
  | case6 c d text hc ih =>
      have hchar : c ≠ ' ' := fun hEq => hspace (hEq ▸ List.mem_cons_self)
      have hrest : ' ' ∉ d :: text := fun h => hspace (List.mem_cons_of_mem _ h)
      rw [List.cons_append, formatFrom_char hchar hc, ih hrest, Option.bind_map]
      simp only [Function.comp_def, List.append_assoc, List.singleton_append]

/-- At the beginning of an argument nothing depends on `touched`. -/
theorem formatFrom_touched {c : Char} (hspace : c ≠ ' ') (curarg rest : Text) :
    formatFrom curarg false (c :: rest) = formatFrom curarg true (c :: rest) := by
  by_cases hpercent : c = '%'
  · rw [hpercent]
    cases rest with
    | nil => rfl
    | cons d rest => rfl
  · rw [formatFrom_char hspace hpercent, formatFrom_char hspace hpercent]

/-!
# Command strings of words
-/

/-- A word is an argument as it stands, also behind `c_str()`. -/
def IsWord (word : Text) : Prop := Plain word ∧ '\x00' ∉ word ∧ word ≠ []

instance (word : Text) : Decidable (Plain word) :=
  List.decidableBAll (fun c => c ≠ ' ' ∧ c ≠ '%') word

instance (word : Text) : Decidable (IsWord word) := inferInstanceAs (Decidable (_ ∧ _))

/-- The first text may be empty. -/
theorem IsWord.append_plain {first second : Text} (hplain : Plain first) (hzero : '\x00' ∉ first)
    (hsecond : IsWord second) : IsWord (first ++ second) := by
  refine ⟨?_, ?_, List.append_ne_nil_of_right_ne_nil _ hsecond.right.right⟩
  · intro c hc
    rcases List.mem_append.mp hc with h | h
    · exact hplain c h
    · exact hsecond.left c h
  · rw [List.mem_append, not_or]
    exact ⟨hzero, hsecond.right.left⟩

theorem IsWord.append {first second : Text} (hfirst : IsWord first) (hsecond : IsWord second) :
    IsWord (first ++ second) :=
  IsWord.append_plain hfirst.left hfirst.right.left hsecond

theorem IsWord.cons {c : Char} (hc : IsWord [c]) {word : Text} (hword : IsWord word) :
    IsWord (c :: word) :=
  hc.append hword

theorem IsWord.join {first second : Text} {c : Char} (hfirst : IsWord first) (hc : IsWord [c])
    (hsecond : IsWord second) : IsWord (first ++ c :: second) :=
  hfirst.append (hc.cons hsecond)

theorem isWord_decimal (n : Nat) : IsWord (Text.decimal n) := by
  refine ⟨?_, Text.not_mem_decimal rfl n, Text.decimal_ne_nil n⟩
  intro c hc
  have hdigit := Text.isDigit_of_mem_decimal hc
  exact ⟨Text.ne_of_isDigit hdigit rfl, Text.ne_of_isDigit hdigit rfl⟩

def commandText (words : List Text) : Text := words.flatMap (fun word => word ++ [' '])

theorem commandText_cons (word : Text) (words : List Text) :
    commandText (word :: words) = word ++ ' ' :: commandText words := by
  unfold commandText
  rw [List.flatMap_cons, List.append_assoc, List.singleton_append]

/-- Words in front of a text that may hold anything. -/
theorem format_words_append {words : List Text}
    (hwords : forall word, word ∈ words -> IsWord word) (rest : Text) :
    redisvFormatCommand (commandText words ++ rest) =
      (formatFrom [] false (cStr rest)).map (words ++ ·) := by
  have hshape : forall rest, formatFrom [] false (cStr (commandText words ++ rest)) =
      (formatFrom [] false (cStr rest)).map (words ++ ·) := by
    induction words with
    | nil =>
        intro rest
        exact Option.map_id'.symm
    | cons word words ih =>
        intro rest
        have hword := hwords word List.mem_cons_self
        have hfree : '\x00' ∉ word ++ [' '] := by
          rw [List.mem_append, not_or]
          exact ⟨hword.right.left, by decide⟩
        have hsplit : commandText (word :: words) ++ rest =
            (word ++ [' ']) ++ (commandText words ++ rest) := by
          rw [commandText_cons, List.append_assoc, List.append_assoc]
          rfl
        rw [hsplit, cStr_append hfree, List.append_assoc, List.singleton_append,
          formatFrom_word_space hword.left hword.right.right,
          ih (fun other h => hwords other (List.mem_cons_of_mem word h)), Option.map_map]
        rfl
  exact hshape rest

theorem format_word_append {word : Text} (hword : IsWord word) (rest : Text) :
    redisvFormatCommand (word ++ ' ' :: rest) =
      (formatFrom [] false (cStr rest)).map (word :: ·) := by
  have hwords : forall other, other ∈ [word] -> IsWord other := by
    intro other h
    rw [List.mem_singleton.mp h]
    exact hword
  have hformat := format_words_append hwords rest
  rw [commandText_cons, List.append_assoc] at hformat
  exact hformat

theorem format_words {words : List Text} (hwords : forall word, word ∈ words -> IsWord word) :
    redisvFormatCommand (commandText words) = some words := by
  have hformat := format_words_append hwords []
  rw [List.append_nil] at hformat
  rw [hformat]
  show some (words ++ []) = some words
  rw [List.append_nil]

theorem format_word {word : Text} (hword : IsWord word) :
    formatFrom [] false (cStr word) = some [word] := by
  have hformat := formatFrom_word hword.left hword.right.right [] false []
  rw [List.append_nil, List.nil_append] at hformat
  rw [cStr_eq_self hword.right.left, hformat]
  rfl

/-- Words with one space between them. -/
theorem format_spaced {word : Text} (hword : IsWord word) {words : List Text}
    (hwords : forall other, other ∈ words -> IsWord other) :
    redisvFormatCommand (word ++ words.flatMap (' ' :: ·)) = some (word :: words) := by
  have hfree : '\x00' ∉ word ++ words.flatMap (' ' :: ·) := by
    rw [List.mem_append, not_or, List.mem_flatMap]
    refine ⟨hword.right.left, ?_⟩
    intro h
    rcases h with ⟨other, hmem, hnull⟩
    rcases List.mem_cons.mp hnull with hspace | hlater
    · cases hspace
    · exact (hwords other hmem).right.left hlater
  unfold redisvFormatCommand
  rw [cStr_eq_self hfree]
  clear hfree
  induction words generalizing word with
  | nil =>
      rw [formatFrom_word hword.left hword.right.right]
      rfl
  | cons other words ih =>
      rw [List.flatMap_cons, formatFrom_word hword.left hword.right.right, List.cons_append,
        List.nil_append, formatFrom_space,
        ih (hwords other List.mem_cons_self) (fun w h => hwords w (List.mem_cons_of_mem other h))]
      rfl

/-!
# Exactly the words

What is read back word for word was words: an argument is never empty, holds no space, and
is shorter than its text where a percent sign was read.
-/

theorem formatFrom_ne_nil {text curarg : Text} {touched : Bool} {args : List Text}
    (hcurarg : touched = true -> curarg ≠ []) (h : formatFrom curarg touched text = some args)
    {arg : Text} (harg : arg ∈ args) : arg ≠ [] := by
  have hcurrent : forall {touched : Bool} {curarg : Text}, (touched = true -> curarg ≠ []) ->
      arg ∈ (if touched then [curarg] else []) -> arg ≠ [] := by
    intro touched curarg hne hmem
    split at hmem
    · rw [List.mem_singleton.mp hmem]
      exact hne ‹_›
    · cases hmem
  have happend : forall (curarg : Text) (c : Char), curarg ++ [c] ≠ [] :=
    fun curarg c => List.append_ne_nil_of_right_ne_nil _ (List.cons_ne_nil c [])
  fun_induction formatFrom curarg touched text generalizing args with
  | case1 curarg touched =>
      cases h
      exact hcurrent hcurarg harg
  | case2 curarg touched =>
      cases h
      exact hcurrent hcurarg harg
  | case3 curarg touched c _ =>
      cases h
      rw [List.mem_singleton.mp harg]
      exact happend curarg c
  | case4 curarg touched rest ih => exact ih (fun _ => happend curarg '%') h harg
  | case5 curarg touched d rest hd => cases h
  | case6 curarg d rest hd ih =>
      rcases Option.map_eq_some_iff.mp h with ⟨later, hlater, hEq⟩
      rw [← hEq] at harg
      rcases List.mem_cons.mp harg with hfirst | hrest
      · rw [hfirst]
        exact hcurarg rfl
      · exact ih (fun h => absurd h Bool.false_ne_true) hlater hrest
  | case7 curarg touched d rest _ _ ih => exact ih (fun h => absurd h Bool.false_ne_true) h harg
  | case8 curarg touched c d rest _ _ ih => exact ih (fun _ => happend curarg c) h harg

theorem isWord_of_formatFrom {words : List Text}
    (hzero : forall word, word ∈ words -> '\x00' ∉ word)
    (hspace : forall word, word ∈ words -> ' ' ∉ word)
    (hne : forall word, word ∈ words -> word ≠ [])
    (h : formatFrom [] false (commandText words) = some words) :
    forall word, word ∈ words -> IsWord word := by
  induction words with
  | nil =>
      intro word hword
      cases hword
  | cons first words ih =>
      have hfirst := List.mem_cons_self (a := first) (l := words)
      rw [commandText_cons] at h
      have htouched : formatFrom [] false (first ++ ' ' :: commandText words) =
          formatFrom [] true (first ++ ' ' :: commandText words) := by
        cases hchars : first with
        | nil => exact absurd hchars (hne first hfirst)
        | cons c rest =>
            apply formatFrom_touched
            intro hEq
            apply hspace first hfirst
            rw [hchars, hEq]
            exact List.mem_cons_self
      rw [htouched, formatFrom_part (hspace first hfirst)] at h
      rcases Option.bind_eq_some_iff.mp h with ⟨part, hpart, hrest⟩
      rcases Option.map_eq_some_iff.mp hrest with ⟨later, hlater, hEq⟩
      rw [List.nil_append] at hEq
      cases hEq
      have hpercent : '%' ∉ first := by
        intro hmem
        exact Nat.lt_irrefl _ ((unescapePart_spec hpart).right.left hmem)
      intro word hword
      rcases List.mem_cons.mp hword with hsame | hother
      · rw [hsame]
        refine ⟨?_, hzero first hfirst, hne first hfirst⟩
        intro c hc
        constructor
        · intro hEq
          exact hspace first hfirst (hEq ▸ hc)
        · intro hEq
          exact hpercent (hEq ▸ hc)
      · exact ih (fun w hw => hzero w (List.mem_cons_of_mem _ hw))
          (fun w hw => hspace w (List.mem_cons_of_mem _ hw))
          (fun w hw => hne w (List.mem_cons_of_mem _ hw)) hlater word hother

theorem format_words_iff {words : List Text}
    (hzero : forall word, word ∈ words -> '\x00' ∉ word) :
    redisvFormatCommand (commandText words) = some words <->
      forall word, word ∈ words -> IsWord word := by
  constructor
  · intro h
    have hfree : '\x00' ∉ commandText words := by
      unfold commandText
      rw [List.mem_flatMap]
      intro hmem
      rcases hmem with ⟨word, hword, hc⟩
      rcases List.mem_append.mp hc with hin | hspace
      · exact hzero word hword hin
      · cases List.mem_singleton.mp hspace
    unfold redisvFormatCommand at h
    rw [cStr_eq_self hfree] at h
    exact isWord_of_formatFrom hzero
      (fun word hword => (mem_formatFrom List.not_mem_nil h hword).left)
      (fun word hword => formatFrom_ne_nil (fun h => absurd h Bool.false_ne_true) h hword) h
  · exact format_words

end DataHandle
end GMServer
