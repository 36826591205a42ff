import GMServer.DataHandle.RedisSyncData

/-!
# Which changes survive the wire

Nothing is escaped on the way: a text arrives as it was written exactly if it has
none of the characters that the message, the command string or a C string is cut
at.  Numbers arrive if the function that reads them has room for them.
-/

namespace GMServer
namespace DataHandle

open Std

/-!
# Special characters
-/

def isSpecial (c : Char) : Bool :=
  c = '|' || c = ':' || c = ' ' || c = '%' || c = '\x00'

def Clean (text : Text) : Prop := forall c, c ∈ text -> isSpecial c = false

instance (text : Text) : Decidable (Clean text) :=
  List.decidableBAll (fun c => isSpecial c = false) text

theorem not_mem_of_clean {text : Text} (hclean : Clean text) {c : Char}
    (hc : isSpecial c = true) : c ∉ text := by
  intro hmem
  rw [hclean c hmem] at hc
  cases hc

theorem clean_of_not_mem {text : Text} (hbar : '|' ∉ text) (hcolon : ':' ∉ text)
    (hspace : ' ' ∉ text) (hpercent : '%' ∉ text) (hzero : '\x00' ∉ text) : Clean text := by
  intro c hc
  have hne : forall d, d ∉ text -> decide (c = d) = false :=
    fun d hd => decide_eq_false (fun hEq => hd (hEq ▸ hc))
  unfold isSpecial
  rw [hne _ hbar, hne _ hcolon, hne _ hspace, hne _ hpercent, hne _ hzero]
  rfl

theorem clean_append {first second : Text} (hfirst : Clean first) (hsecond : Clean second) :
    Clean (first ++ second) := by
  intro c hc
  rcases List.mem_append.mp hc with h | h
  · exact hfirst c h
  · exact hsecond c h

theorem clean_cons {c : Char} {text : Text} (hc : isSpecial c = false) (htext : Clean text) :
    Clean (c :: text) :=
  List.forall_mem_cons.mpr ⟨hc, htext⟩

theorem isSpecial_of_isDigit {c : Char} (hc : c.isDigit = true) : isSpecial c = false := by
  have hne : forall d : Char, d.isDigit = false -> decide (c = d) = false :=
    fun d hd => decide_eq_false (Text.ne_of_isDigit hc hd)
  unfold isSpecial
  rw [hne _ rfl, hne _ rfl, hne _ rfl, hne _ rfl, hne _ rfl]
  rfl

theorem clean_decimal (n : Nat) : Clean (Text.decimal n) :=
  fun _ hc => isSpecial_of_isDigit (Text.isDigit_of_mem_decimal hc)

namespace StringValue

theorem clean_signed {text : Text} (htext : Clean text) (negative : Bool) :
    Clean (signed negative text) := by
  unfold signed
  split
  · exact clean_cons rfl htext
  · exact htext

theorem clean_fixed4 (fValue : PrintedFloat) : Clean (fixed4 fValue) := by
  cases fValue with
  | finite negative tenThousandths =>
      apply clean_signed
      apply clean_append (clean_decimal _)
      apply clean_cons rfl
      intro c hc
      exact clean_decimal _ c (List.mem_of_mem_tail hc)
  | infinite negative => exact clean_signed (by decide) negative
  | nan negative => exact clean_signed (by decide) negative

/-- Only a string can bring in a special character. -/
theorem clean_toString_iff (value : Value) :
    Clean (ToString value) <-> forall strValue, value = .string strValue -> Clean strValue := by
  have hother : Clean (ToString value) -> (forall strValue, value ≠ .string strValue) ->
      (Clean (ToString value) <->
        forall strValue, value = .string strValue -> Clean strValue) := by
    intro hclean hno
    exact ⟨fun _ strValue hEq => absurd hEq (hno strValue), fun _ => hclean⟩
  cases value with
  | int32 iValue =>
      exact hother (clean_signed (clean_decimal _) _) (fun _ h => by cases h)
  | uint32 iValue => exact hother (clean_decimal _) (fun _ h => by cases h)
  | int64 iValue =>
      exact hother (clean_signed (clean_decimal _) _) (fun _ h => by cases h)
  | uint64 iValue => exact hother (clean_decimal _) (fun _ h => by cases h)
  | bool bValue =>
      apply hother _ (fun _ h => by cases h)
      cases bValue <;> decide
  | float fValue => exact hother (clean_fixed4 fValue) (fun _ h => by cases h)
  | double fValue => exact hother (clean_fixed4 fValue) (fun _ h => by cases h)
  | string strValue =>
      constructor
      · intro h other hEq
        cases hEq
        exact fun c hc => h c (List.mem_cons_of_mem _ (List.mem_append_left _ hc))
      · intro h
        apply clean_cons rfl
        exact clean_append (h strValue rfl) (by decide)

theorem toString_ne_nil (value : Value) : ToString value ≠ [] := by
  have hsigned : forall negative text, text ≠ [] -> signed negative text ≠ [] := by
    intro negative text htext
    cases negative with
    | true => exact List.cons_ne_nil _ _
    | false => exact htext
  have hfixed : forall fValue, fixed4 fValue ≠ [] := by
    intro fValue
    cases fValue with
    | finite negative tenThousandths =>
        exact hsigned _ _ (List.append_ne_nil_of_left_ne_nil (Text.decimal_ne_nil _) _)
    | infinite negative => exact hsigned _ _ (by decide)
    | nan negative => exact hsigned _ _ (by decide)
  cases value with
  | int32 iValue => exact hsigned _ _ (Text.decimal_ne_nil _)
  | uint32 iValue => exact Text.decimal_ne_nil _
  | int64 iValue => exact hsigned _ _ (Text.decimal_ne_nil _)
  | uint64 iValue => exact Text.decimal_ne_nil _
  | bool bValue => cases bValue <;> decide
  | float fValue => exact hfixed fValue
  | double fValue => exact hfixed fValue
  | string strValue => exact List.cons_ne_nil _ _

end StringValue
/-!
# Parsing what was written

A set message whose texts have no separators in them is taken apart exactly where
it was put together.
-/

/-- The fields as they stand in a set message. -/
def fieldPiece (field : uint32_t × Text) : Text :=
  Text.decimal field.1.toNat ++ ':' :: field.2

def publishFields (fields : List (uint32_t × Text)) : Text :=
  (fields.map fieldPiece).flatMap (fun piece => piece ++ ['|'])

theorem publishFields_cons (field : uint32_t × Text) (fields : List (uint32_t × Text)) :
    publishFields (field :: fields) =
      Text.decimal field.1.toNat ++ ':' :: (field.2 ++ '|' :: publishFields fields) := by
  unfold publishFields fieldPiece
  simp only [List.map_cons, List.flatMap_cons, List.append_assoc, List.cons_append,
    List.nil_append]

theorem fieldTexts_publish {mgr : KeyFieldMgr} {fields : List (uint32_t × Text)}
    {texts : Text × Text} (h : RedisBuffer.fieldTexts mgr fields = some texts) :
    texts.2 = publishFields fields := by
  induction fields generalizing texts with
  | nil =>
      cases h
      rfl
  | cons field fields ih =>
      unfold RedisBuffer.fieldTexts at h
      split at h
      · cases h
      · rcases Option.map_eq_some_iff.mp h with ⟨rest, hrest, hEq⟩
        rw [← hEq, publishFields_cons, ← ih hrest]

/-- Without separators, and not empty. -/
def Separable (text : Text) : Prop := '|' ∉ text ∧ ':' ∉ text ∧ text ≠ []

namespace RedisSyncData

theorem split_fieldPiece {field : uint32_t × Text} (hfield : Separable field.2) :
    StringValue.Split (fieldPiece field) ':' = [Text.decimal field.1.toNat, field.2] :=
  StringValue.Split_pair (Text.not_mem_decimal (by decide) _) hfield.right.right hfield.right.left

theorem parseFields_pieces {fields : List (uint32_t × Text)}
    (hfields : forall field, field ∈ fields -> Separable field.2)
    (mValue : ExtTreeMap uint32_t Text) :
    parseFields mValue (fields.map fieldPiece) =
      if forall field, field ∈ fields -> field.1.toNat < 2 ^ 31 then
        .ok (some (SortedMap.fill mValue fields))
      else .error .out_of_range := by
  induction fields generalizing mValue with
  | nil =>
      rw [if_pos (fun field h => absurd h List.not_mem_nil)]
      rfl
  | cons field fields ih =>
      have hfirst := hfields field List.mem_cons_self
      have hrest := ih (fun other h => hfields other (List.mem_cons_of_mem field h))
      rw [List.map_cons, parseFields, split_fieldPiece hfirst]
      dsimp only
      rw [StringValue.stoi_decimal]
      simp only [List.forall_mem_cons]
      by_cases hsmall : field.1.toNat < 2 ^ 31
      · rw [if_pos hsmall]
        dsimp only
        rw [hrest, SortedMap.fill_cons]
        simp only [hsmall, true_and]
      · rw [if_neg hsmall, if_neg (fun h => hsmall h.left)]

theorem split_syncPayload (iFirstKey iSecondKey : uint64_t)
    {fields : List (uint32_t × Text)}
    (hfields : forall field, field ∈ fields -> Separable field.2) :
    StringValue.Split (RedisBuffer.syncPayload iFirstKey iSecondKey (publishFields fields)) '|' =
      ['S'] :: Text.decimal iFirstKey.toNat :: Text.decimal iSecondKey.toNat ::
        fields.map fieldPiece := by
  have hpieces : forall piece, piece ∈ fields.map fieldPiece -> '|' ∉ piece := by
    intro piece hpiece
    rcases List.mem_map.mp hpiece with ⟨field, hfield, hEq⟩
    rw [← hEq]
    unfold fieldPiece
    rw [List.mem_append, List.mem_cons, not_or, not_or]
    exact ⟨Text.not_mem_decimal (by decide) _, by decide, (hfields field hfield).left⟩
  unfold StringValue.Split RedisBuffer.syncPayload publishFields
  show Text.pieces '|' (['S'] ++ '|' :: (Text.decimal iFirstKey.toNat ++
    '|' :: (Text.decimal iSecondKey.toNat ++ '|' :: _))) = _
  rw [Text.pieces_cons (by decide), Text.pieces_cons (Text.not_mem_decimal (by decide) _),
    Text.pieces_cons (Text.not_mem_decimal (by decide) _), Text.pieces_flatMap hpieces]

theorem parse_syncPayload (iRedisKey : uint32_t) (iFirstKey iSecondKey : uint64_t)
    {fields : List (uint32_t × Text)} (hne : fields ≠ [])
    (hfields : forall field, field ∈ fields -> Separable field.2) :
    Parse iRedisKey (RedisBuffer.syncPayload iFirstKey iSecondKey (publishFields fields)) =
      if forall field, field ∈ fields -> field.1.toNat < 2 ^ 31 then
        .ok (some
          { eType := .eSet, RedisKey := iRedisKey, Firstkey := iFirstKey,
            SecondKey := iSecondKey, mValue := SortedMap.fill ∅ fields })
      else .error .out_of_range := by
  have hpieces : fields.map fieldPiece ≠ [] := by
    intro hnil
    exact hne (List.map_eq_nil_iff.mp hnil)
  unfold Parse
  rw [split_syncPayload iFirstKey iSecondKey hfields]
  simp only [StringValue.stoull_decimal]
  unfold parseType
  show (if fields.map fieldPiece = [] then _ else _) = _
  rw [if_neg hpieces, parseFields_pieces hfields]
  by_cases hsmall : forall field, field ∈ fields -> field.1.toNat < 2 ^ 31
  · rw [if_pos hsmall, if_pos hsmall]
  · rw [if_neg hsmall, if_neg hsmall]

/-!
# What a parsed message can hold
-/

/-- No text of the map has a separator, and all their characters come from the message. -/
def TextsFrom (pStrMsg : Text) (mValue : ExtTreeMap uint32_t Text) : Prop :=
  forall (iKeyField : uint32_t) (strValue : Text), mValue[iKeyField]? = some strValue ->
    '|' ∉ strValue ∧ ':' ∉ strValue ∧ forall c, c ∈ strValue -> c ∈ pStrMsg

theorem textsFrom_insert {pStrMsg : Text} {mValue : ExtTreeMap uint32_t Text}
    (hold : TextsFrom pStrMsg mValue) {iKeyField : uint32_t} {strValue : Text}
    (hbar : '|' ∉ strValue) (hcolon : ':' ∉ strValue)
    (hsub : forall c, c ∈ strValue -> c ∈ pStrMsg) :
    TextsFrom pStrMsg (mValue.insert iKeyField strValue) := by
  intro other text hget
  rw [SortedMap.getElem?_insert_eq] at hget
  split at hget
  · cases hget
    exact ⟨hbar, hcolon, hsub⟩
  · exact hold other text hget

theorem parseFields_texts {pStrMsg : Text} {fields : List Text}
    (hfields : forall field, field ∈ fields ->
      '|' ∉ field ∧ forall c, c ∈ field -> c ∈ pStrMsg)
    {mValue filled : ExtTreeMap uint32_t Text} (hold : TextsFrom pStrMsg mValue)
    (h : parseFields mValue fields = .ok (some filled)) : TextsFrom pStrMsg filled := by
  induction fields generalizing mValue with
  | nil =>
      cases h
      exact hold
  | cons field fields ih =>
      unfold parseFields at h
      split at h
      · rename_i sKeyField strValue hsplit
        split at h
        · cases h
        · have hmem : strValue ∈ Text.pieces ':' field := by
            show strValue ∈ StringValue.Split field ':'
            rw [hsplit]
            exact List.mem_cons_of_mem _ List.mem_cons_self
          rcases Text.of_mem_pieces hmem with ⟨hcolon, hsub⟩
          have hfield := hfields field List.mem_cons_self
          refine ih (fun other hother => hfields other (List.mem_cons_of_mem field hother)) ?_ h
          exact textsFrom_insert hold (fun hbar => hfield.left (hsub _ hbar)) hcolon
            (fun c hc => hfield.right c (hsub c hc))
      · cases h

theorem parse_texts {iRedisKey : uint32_t} {pStrMsg : Text} {data : RedisSyncData}
    (h : Parse iRedisKey pStrMsg = .ok (some data)) :
    data.RedisKey = iRedisKey ∧ TextsFrom pStrMsg data.mValue := by
  have hempty : TextsFrom pStrMsg ∅ := by
    intro iKeyField strValue hget
    cases hget
  unfold Parse at h
  split at h
  · rename_i sType sFirst sSecond fields hsplit
    split at h
    · cases h
    · split at h
      · cases h
      · unfold parseType at h
        split at h
        · cases h
          exact ⟨rfl, hempty⟩
        · cases h
          exact ⟨rfl, hempty⟩
        · split at h
          · cases h
          · split at h
            · cases h
            · cases h
            · rename_i mValue hfields
              cases h
              refine ⟨rfl, parseFields_texts ?_ hempty hfields⟩
              intro field hfield
              apply Text.of_mem_pieces
              show field ∈ StringValue.Split pStrMsg '|'
              rw [hsplit]
              exact List.mem_cons_of_mem _ (List.mem_cons_of_mem _
                (List.mem_cons_of_mem _ hfield))
        · cases h
          exact ⟨rfl, hempty⟩
  · cases h

end RedisSyncData
/-!
# The command string

The first two words of a publish arrive as they are; what is left has to be one
argument.
-/

theorem plain_of_clean {word : Text} (hclean : Clean word) : Plain word := by
  intro c hc
  have hspecial := hclean c hc
  constructor
  · intro hEq
    rw [hEq] at hspecial
    cases hspecial
  · intro hEq
    rw [hEq] at hspecial
    cases hspecial

theorem format_publishText (iRedisKey : uint32_t) (payload : Text) :
    redisvFormatCommand (RedisBuffer.publishText iRedisKey payload) =
      (formatFrom [] false (cStr payload)).map (fun args =>
        "publish".toList :: Text.decimal iRedisKey.toNat :: args) := by
  have hshape : RedisBuffer.publishText iRedisKey payload =
      commandText ["publish".toList, Text.decimal iRedisKey.toNat] ++ payload := by
    rw [commandText_cons, commandText_cons]
    unfold RedisBuffer.publishText commandText
    simp only [List.append_assoc, List.cons_append, List.flatMap_nil, List.nil_append]
    rfl
  have hcommand : IsWord "publish".toList := by decide
  have hchannel : forall word, word ∈ [Text.decimal iRedisKey.toNat] -> IsWord word :=
    List.forall_mem_singleton.mpr (isWord_decimal _)
  rw [hshape, format_words_append (List.forall_mem_cons.mpr ⟨hcommand, hchannel⟩)]
  rfl

theorem survives_publishText_iff {iRedisKey : uint32_t} {payload : Text}
    {data : RedisSyncData} :
    Survives (RedisBuffer.publishText iRedisKey payload) data <->
      exists message, formatFrom [] false (cStr payload) = some [message] ∧
        RedisSyncData.Parse (StringValue.atoi (Text.decimal iRedisKey.toNat)) (cStr message) =
          .ok (some data) := by
  unfold Survives receive
  rw [format_publishText]
  constructor
  · intro h
    rcases Option.map_eq_some_iff.mp h with ⟨delivered, hdelivered, hread⟩
    rcases Option.bind_eq_some_iff.mp hdelivered with ⟨argv, hargv, hpublished⟩
    rcases Option.map_eq_some_iff.mp hargv with ⟨args, hargs, hEq⟩
    rw [← hEq] at hpublished
    cases args with
    | nil => cases hpublished
    | cons message rest =>
        cases rest with
        | nil =>
            have hsplit : some (Text.decimal iRedisKey.toNat, message) = some delivered :=
              hpublished
            cases hsplit
            unfold readMessage at hread
            rw [cStr_decimal] at hread
            exact ⟨message, hargs, hread⟩
        | cons other rest => cases hpublished
  · intro h
    rcases h with ⟨message, hargs, hread⟩
    rw [hargs]
    show some (readMessage (Text.decimal iRedisKey.toNat, message)) = _
    unfold readMessage
    rw [cStr_decimal, hread]

/-!
# Percent signs in the fields
-/

/-- The fields as they arrive. -/
def Arrived (fields arrived : List (uint32_t × Text)) : Prop :=
  List.Forall₂ (fun sent got => got.1 = sent.1 ∧ unescapePart sent.2 = some got.2) fields arrived

theorem unescape_publishFields {fields : List (uint32_t × Text)} {message : Text}
    (h : unescape (publishFields fields) = some message) :
    exists arrived, Arrived fields arrived ∧ message = publishFields arrived := by
  induction fields generalizing message with
  | nil =>
      cases h
      exact ⟨[], List.Forall₂.nil, rfl⟩
  | cons field fields ih =>
      rw [publishFields_cons, unescape_plain_append (not_mem_of_clean (clean_decimal _) rfl),
        unescape_cons (by decide), unescape_append field.2 (by decide), Option.map_map] at h
      rcases Option.map_eq_some_iff.mp h with ⟨rest, hrest, hmessage⟩
      rcases Option.bind_eq_some_iff.mp hrest with ⟨part, hpart, hmore⟩
      rcases Option.map_eq_some_iff.mp hmore with ⟨more, hunescape, hEq⟩
      rcases ih hunescape with ⟨arrived, harrived, hfields⟩
      refine ⟨(field.1, part) :: arrived, List.Forall₂.cons ⟨rfl, hpart⟩ harrived, ?_⟩
      rw [publishFields_cons, ← hfields, ← hmessage, ← hEq]
      rfl

theorem Arrived.of_sent {fields arrived : List (uint32_t × Text)}
    (h : Arrived fields arrived) {field : uint32_t × Text} (hfield : field ∈ fields) :
    exists part, (field.1, part) ∈ arrived ∧ unescapePart field.2 = some part := by
  induction h with
  | nil => cases hfield
  | cons hfirst hrest ih =>
      rename_i sent got _ _
      rcases List.mem_cons.mp hfield with hsame | hlater
      · rw [hsame, ← hfirst.left]
        exact ⟨got.2, List.mem_cons_self, hfirst.right⟩
      · rcases ih hlater with ⟨part, hmem, hpart⟩
        exact ⟨part, List.mem_cons_of_mem _ hmem, hpart⟩

theorem Arrived.of_got {fields arrived : List (uint32_t × Text)}
    (h : Arrived fields arrived) {got : uint32_t × Text} (hgot : got ∈ arrived) :
    exists field, field ∈ fields ∧ got.1 = field.1 ∧ unescapePart field.2 = some got.2 := by
  induction h with
  | nil => cases hgot
  | cons hfirst hrest ih =>
      rename_i sent first _ _
      rcases List.mem_cons.mp hgot with hsame | hlater
      · rw [hsame]
        exact ⟨sent, List.mem_cons_self, hfirst⟩
      · rcases ih hlater with ⟨field, hmem, hfield⟩
        exact ⟨field, List.mem_cons_of_mem _ hmem, hfield⟩

theorem Arrived.keys {fields arrived : List (uint32_t × Text)} (h : Arrived fields arrived) :
    arrived.map Prod.fst = fields.map Prod.fst := by
  induction h with
  | nil => rfl
  | cons hfirst hrest ih => rw [List.map_cons, List.map_cons, hfirst.left, ih]

/-!
# Set messages

A set message arrives exactly if all its texts are clean and all its key fields are
small enough for `stoi`.
-/

theorem not_mem_publishFields {c : Char} (hdigit : c.isDigit = false) (hbar : c ≠ '|')
    (hcolon : c ≠ ':') {fields : List (uint32_t × Text)}
    (hfields : forall field, field ∈ fields -> c ∉ field.2) : c ∉ publishFields fields := by
  induction fields with
  | nil => exact List.not_mem_nil
  | cons field fields ih =>
      have hfirst := hfields field List.mem_cons_self
      have hrest := ih (fun other h => hfields other (List.mem_cons_of_mem field h))
      rw [publishFields_cons]
      simp only [List.mem_append, List.mem_cons, not_or]
      exact ⟨Text.not_mem_decimal hdigit _, hcolon, hfirst, hbar, hrest⟩

theorem not_mem_syncPayload {c : Char} (hdigit : c.isDigit = false) (hbar : c ≠ '|')
    (hset : c ≠ 'S') {fields : Text} (hfields : c ∉ fields)
    (iFirstKey iSecondKey : uint64_t) :
    c ∉ RedisBuffer.syncPayload iFirstKey iSecondKey fields := by
  have hkind : c ∉ "S|".toList := by
    show c ∉ ['S', '|']
    rw [List.mem_cons, List.mem_singleton, not_or]
    exact ⟨hset, hbar⟩
  unfold RedisBuffer.syncPayload
  rw [List.mem_append, List.mem_append, List.mem_cons, List.mem_append, List.mem_cons]
  simp only [not_or]
  exact ⟨⟨hkind, Text.not_mem_decimal hdigit _⟩, hbar, Text.not_mem_decimal hdigit _, hbar,
    hfields⟩

/-- The message that a payload without spaces is delivered as. -/
theorem format_syncPayload {iFirstKey iSecondKey : uint64_t} {fields : List (uint32_t × Text)}
    (hspace : forall field, field ∈ fields -> ' ' ∉ field.2) {args : List Text}
    (h : formatFrom [] false
      (RedisBuffer.syncPayload iFirstKey iSecondKey (publishFields fields)) = some args) :
    exists arrived, Arrived fields arrived ∧
      args = [RedisBuffer.syncPayload iFirstKey iSecondKey (publishFields arrived)] := by
  have hfree : ' ' ∉ RedisBuffer.syncPayload iFirstKey iSecondKey (publishFields fields) :=
    not_mem_syncPayload rfl (by decide) (by decide)
      (not_mem_publishFields rfl (by decide) (by decide) hspace) _ _
  have hshape : forall text, RedisBuffer.syncPayload iFirstKey iSecondKey text =
      'S' :: ('|' :: (Text.decimal iFirstKey.toNat ++
        '|' :: (Text.decimal iSecondKey.toNat ++ ['|'])) ++ text) := by
    intro text
    show 'S' :: '|' :: (Text.decimal iFirstKey.toNat ++
      '|' :: (Text.decimal iSecondKey.toNat ++ '|' :: text)) = _
    simp only [List.append_assoc, List.cons_append, List.nil_append]
  have hpercent : '%' ∉ '|' :: (Text.decimal iFirstKey.toNat ++
      '|' :: (Text.decimal iSecondKey.toNat ++ ['|'])) := by
    simp only [List.mem_cons, List.mem_append, List.not_mem_nil, not_or]
    exact ⟨by decide, Text.not_mem_decimal rfl _, by decide, Text.not_mem_decimal rfl _,
      by decide, not_false⟩
  rw [hshape] at h hfree
  rw [List.mem_cons, not_or] at hfree
  rw [formatFrom_char (by decide) (by decide), formatFrom_unescape hfree.right,
    unescape_plain_append hpercent, Option.map_map] at h
  rcases Option.map_eq_some_iff.mp h with ⟨message, hmessage, hargs⟩
  rcases unescape_publishFields hmessage with ⟨arrived, harrived, hEq⟩
  refine ⟨arrived, harrived, ?_⟩
  rw [hshape, ← hEq, ← hargs]
  rfl

theorem separable_of_clean {text : Text} (hclean : Clean text) (hne : text ≠ []) :
    Separable text :=
  ⟨not_mem_of_clean hclean rfl, not_mem_of_clean hclean rfl, hne⟩

theorem survives_of_clean {iRedisKey : uint32_t} (hredis : iRedisKey.toNat < 2 ^ 31)
    (iFirstKey iSecondKey : uint64_t) {mValue : ExtTreeMap uint32_t Text} (hne : mValue ≠ ∅)
    (hfields : forall field, field ∈ mValue.toList ->
      field.1.toNat < 2 ^ 31 ∧ Clean field.2 ∧ field.2 ≠ []) :
    Survives (RedisBuffer.publishText iRedisKey
        (RedisBuffer.syncPayload iFirstKey iSecondKey (publishFields mValue.toList)))
      { eType := .eSet, RedisKey := iRedisKey, Firstkey := iFirstKey, SecondKey := iSecondKey,
        mValue := mValue } := by
  have hfree : forall c, isSpecial c = true -> c.isDigit = false -> c ≠ '|' -> c ≠ ':' ->
      c ≠ 'S' -> c ∉ RedisBuffer.syncPayload iFirstKey iSecondKey
        (publishFields mValue.toList) := by
    intro c hc hdigit hbar hcolon hset
    apply not_mem_syncPayload hdigit hbar hset
    apply not_mem_publishFields hdigit hbar hcolon
    intro field hfield
    exact not_mem_of_clean (hfields field hfield).right.left hc
  have hzero := hfree '\x00' rfl rfl (by decide) (by decide) (by decide)
  have hplain : Plain (RedisBuffer.syncPayload iFirstKey iSecondKey
      (publishFields mValue.toList)) := by
    intro c hc
    constructor
    · intro hEq
      exact hfree ' ' rfl rfl (by decide) (by decide) (by decide) (hEq ▸ hc)
    · intro hEq
      exact hfree '%' rfl rfl (by decide) (by decide) (by decide) (hEq ▸ hc)
  have hlist : mValue.toList ≠ [] := fun h => hne (ExtTreeMap.toList_eq_nil_iff.mp h)
  apply survives_publishText_iff.mpr
  refine ⟨RedisBuffer.syncPayload iFirstKey iSecondKey (publishFields mValue.toList), ?_, ?_⟩
  · have hword := formatFrom_word hplain (List.cons_ne_nil _ _) [] false []
    rw [List.append_nil, List.nil_append] at hword
    rw [cStr_eq_self hzero, hword]
    rfl
  · rw [cStr_eq_self hzero, (StringValue.atoi_decimal iRedisKey).mpr hredis,
      RedisSyncData.parse_syncPayload iRedisKey iFirstKey iSecondKey hlist
        (fun field h => separable_of_clean (hfields field h).right.left
          (hfields field h).right.right),
      if_pos (fun field h => (hfields field h).left), SortedMap.fill_toList]

/-- What was parsed came out of the message, so the texts have no separators in them. -/
theorem separators_of_texts {text message : Text} {mValue : ExtTreeMap uint32_t Text}
    (hformat : formatFrom [] false text = some [message])
    (htexts : RedisSyncData.TextsFrom (cStr message) mValue) {field : uint32_t × Text}
    (hfield : field ∈ mValue.toList) :
    '|' ∉ field.2 ∧ ':' ∉ field.2 ∧ ' ' ∉ field.2 ∧ '\x00' ∉ field.2 := by
  have hspaces : ' ' ∉ message :=
    (mem_formatFrom List.not_mem_nil hformat List.mem_cons_self).left
  have hget := ExtTreeMap.mem_toList_iff_getElem?_eq_some.mp hfield
  rcases htexts field.1 field.2 hget with ⟨hbar, hcolon, hsub⟩
  exact ⟨hbar, hcolon, fun hc => hspaces (of_mem_cStr (hsub ' ' hc)).left,
    fun hc => (of_mem_cStr (hsub _ hc)).right rfl⟩

theorem Arrived.separable {fields arrived : List (uint32_t × Text)}
    (h : Arrived fields arrived)
    (hfields : forall field, field ∈ fields -> Separable field.2 ∧ '\x00' ∉ field.2)
    {got : uint32_t × Text} (hgot : got ∈ arrived) : Separable got.2 ∧ '\x00' ∉ got.2 := by
  rcases h.of_got hgot with ⟨field, hfield, _, hpart⟩
  rcases unescapePart_spec hpart with ⟨_, _, hnil, hsub⟩
  rcases hfields field hfield with ⟨⟨hbar, hcolon, hne⟩, hzero⟩
  exact ⟨⟨fun hc => hbar (hsub _ hc), fun hc => hcolon (hsub _ hc), hnil hne⟩,
    fun hc => hzero (hsub _ hc)⟩

/-- A text with a percent sign in it would have arrived shorter. -/
theorem Arrived.percent_free {mValue : ExtTreeMap uint32_t Text}
    {arrived : List (uint32_t × Text)} (h : Arrived mValue.toList arrived)
    (hmap : SortedMap.fill ∅ arrived = mValue) {field : uint32_t × Text}
    (hfield : field ∈ mValue.toList) :
    exists part, (field.1, part) ∈ arrived ∧ '%' ∉ field.2 := by
  have hdistinct : (arrived.map Prod.fst).Nodup := by
    rw [h.keys]
    exact SortedMap.nodup_keys mValue
  rcases h.of_sent hfield with ⟨part, hmem, hpart⟩
  have hsame : part = field.2 := by
    have hsome := SortedMap.fill_of_mem hdistinct hmem ∅
    rw [hmap, ExtTreeMap.mem_toList_iff_getElem?_eq_some.mp hfield] at hsome
    exact (Option.some.inj hsome).symm
  refine ⟨part, hmem, ?_⟩
  intro hc
  have hless := (unescapePart_spec hpart).right.left hc
  rw [hsame] at hless
  exact Nat.lt_irrefl _ hless

theorem clean_of_survives {iRedisKey : uint32_t} {iFirstKey iSecondKey : uint64_t}
    {mValue : ExtTreeMap uint32_t Text} (hne : mValue ≠ ∅)
    (hfields : forall field, field ∈ mValue.toList -> field.2 ≠ [])
    (h : Survives (RedisBuffer.publishText iRedisKey
        (RedisBuffer.syncPayload iFirstKey iSecondKey (publishFields mValue.toList)))
      { eType := .eSet, RedisKey := iRedisKey, Firstkey := iFirstKey, SecondKey := iSecondKey,
        mValue := mValue }) :
    iRedisKey.toNat < 2 ^ 31 ∧
      forall field, field ∈ mValue.toList -> field.1.toNat < 2 ^ 31 ∧ Clean field.2 := by
  rcases survives_publishText_iff.mp h with ⟨message, hformat, hparse⟩
  rcases RedisSyncData.parse_texts hparse with ⟨hredis, htexts⟩
  have hseparators : forall field, field ∈ mValue.toList ->
      '|' ∉ field.2 ∧ ':' ∉ field.2 ∧ ' ' ∉ field.2 ∧ '\x00' ∉ field.2 :=
    fun _ hfield => separators_of_texts hformat htexts hfield
  have hzeroFree : forall fields : List (uint32_t × Text),
      (forall field, field ∈ fields -> '\x00' ∉ field.2) ->
        '\x00' ∉ RedisBuffer.syncPayload iFirstKey iSecondKey (publishFields fields) :=
    fun fields hfree => not_mem_syncPayload rfl (by decide) (by decide)
      (not_mem_publishFields rfl (by decide) (by decide) hfree) _ _
  rw [cStr_eq_self (hzeroFree _ (fun field hfield =>
    (hseparators field hfield).right.right.right))] at hformat
  rcases format_syncPayload (fun field hfield => (hseparators field hfield).right.right.left)
    hformat with ⟨arrived, harrived, hmessage⟩
  cases hmessage
  have hgot : forall got, got ∈ arrived -> Separable got.2 ∧ '\x00' ∉ got.2 := by
    intro got hmem
    refine harrived.separable ?_ hmem
    intro field hfield
    rcases hseparators field hfield with ⟨hbar, hcolon, _, hzero⟩
    exact ⟨⟨hbar, hcolon, hfields field hfield⟩, hzero⟩
  have hlist : arrived ≠ [] := by
    intro hnil
    have hkeys := harrived.keys
    rw [hnil] at hkeys
    exact hne (ExtTreeMap.toList_eq_nil_iff.mp (List.map_eq_nil_iff.mp hkeys.symm))
  rw [cStr_eq_self (hzeroFree _ (fun got hmem => (hgot got hmem).right)),
    RedisSyncData.parse_syncPayload _ iFirstKey iSecondKey hlist
      (fun got hmem => (hgot got hmem).left)] at hparse
  split at hparse
  · rename_i hsmall
    have hdata := Option.some.inj (Except.ok.inj hparse)
    have hmap : SortedMap.fill ∅ arrived = mValue := congrArg RedisSyncData.mValue hdata
    refine ⟨(StringValue.atoi_decimal iRedisKey).mp hredis.symm, ?_⟩
    intro field hfield
    rcases harrived.percent_free hmap hfield with ⟨part, hmem, hpercent⟩
    rcases hseparators field hfield with ⟨hbar, hcolon, hspace, hzero⟩
    exact ⟨hsmall (field.1, part) hmem, clean_of_not_mem hbar hcolon hspace hpercent hzero⟩
  · cases hparse

/-!
# Adding and removing

The messages about repeated elements hold numbers only, all but the key of Redis read
by `stoull`.
-/

/-- What arrives of a change of repeated elements. -/
def repeatedData (eType : SyncType) (iRedisKey : uint32_t) (i64Key i64Index : uint64_t) :
    RedisSyncData :=
  { eType := eType, RedisKey := iRedisKey, Firstkey := i64Key, SecondKey := i64Index,
    mValue := ∅ }

theorem not_mem_repeatedPayload {c sType : Char} (hdigit : c.isDigit = false) (hbar : c ≠ '|')
    (htype : c ≠ sType) (i64Key i64Index : uint64_t) :
    c ∉ repeatedPayload sType i64Key i64Index := by
  unfold repeatedPayload
  rw [List.mem_cons, List.mem_cons, List.mem_append, List.mem_cons]
  simp only [not_or]
  exact ⟨htype, hbar, Text.not_mem_decimal hdigit _, hbar, Text.not_mem_decimal hdigit _⟩

theorem split_repeatedPayload {sType : Char} (htype : '|' ≠ sType) (i64Key i64Index : uint64_t) :
    StringValue.Split (repeatedPayload sType i64Key i64Index) '|' =
      [[sType], Text.decimal i64Key.toNat, Text.decimal i64Index.toNat] := by
  have hkind : '|' ∉ [sType] := by
    rw [List.mem_singleton]
    exact htype
  unfold StringValue.Split
  show Text.pieces '|' ([sType] ++ '|' :: (Text.decimal i64Key.toNat ++
    '|' :: Text.decimal i64Index.toNat)) = _
  rw [Text.pieces_cons hkind, Text.pieces_cons (Text.not_mem_decimal rfl _),
    Text.pieces_last (Text.not_mem_decimal rfl _) (Text.decimal_ne_nil _)]

theorem survives_repeated_iff {sType : Char} {eType : SyncType}
    (hspecial : isSpecial sType = false)
    (hparse : forall data : RedisSyncData, RedisSyncData.parseType data [sType] [] =
      .ok (some { data with eType := eType }))
    (iRedisKey : uint32_t) (i64Key i64Index : uint64_t) :
    Survives (RedisBuffer.publishText iRedisKey (repeatedPayload sType i64Key i64Index))
        (repeatedData eType iRedisKey i64Key i64Index) <->
      iRedisKey.toNat < 2 ^ 31 := by
  have hne : forall c, isSpecial c = true -> c ≠ sType := by
    intro c hc hEq
    rw [hEq, hspecial] at hc
    cases hc
  have hzero : '\x00' ∉ repeatedPayload sType i64Key i64Index :=
    not_mem_repeatedPayload rfl (by decide) (hne _ rfl) _ _
  have hplain : Plain (repeatedPayload sType i64Key i64Index) := by
    intro c hc
    constructor
    · intro hEq
      exact not_mem_repeatedPayload rfl (by decide) (hne ' ' rfl) i64Key i64Index (hEq ▸ hc)
    · intro hEq
      exact not_mem_repeatedPayload rfl (by decide) (hne '%' rfl) i64Key i64Index (hEq ▸ hc)
  have hword := formatFrom_word hplain (List.cons_ne_nil _ _) [] false []
  rw [List.append_nil, List.nil_append] at hword
  have hread : forall iChannel, RedisSyncData.Parse iChannel
      (repeatedPayload sType i64Key i64Index) =
        .ok (some (repeatedData eType iChannel i64Key i64Index)) := by
    intro iChannel
    unfold RedisSyncData.Parse
    rw [split_repeatedPayload (hne _ rfl)]
    simp only [StringValue.stoull_decimal]
    rw [hparse]
    rfl
  rw [survives_publishText_iff, cStr_eq_self hzero, hword]
  constructor
  · intro h
    rcases h with ⟨message, hmessage, hgot⟩
    cases hmessage
    rw [cStr_eq_self hzero, hread] at hgot
    have hdata := Option.some.inj (Except.ok.inj hgot)
    exact (StringValue.atoi_decimal iRedisKey).mp (congrArg RedisSyncData.RedisKey hdata)
  · intro hsmall
    refine ⟨_, rfl, ?_⟩
    rw [cStr_eq_self hzero, hread, (StringValue.atoi_decimal iRedisKey).mpr hsmall]

/-!
# All changes
-/

/-- The texts of the values in a map. -/
def textsOf (values : ExtTreeMap uint32_t StringValue.Value) : ExtTreeMap uint32_t Text :=
  values.map (fun _ value => StringValue.ToString value)

theorem mem_textsOf {values : ExtTreeMap uint32_t StringValue.Value} {field : uint32_t × Text}
    (h : field ∈ (textsOf values).toList) :
    exists value, values[field.1]? = some value ∧ field.2 = StringValue.ToString value := by
  have hget := ExtTreeMap.mem_toList_iff_getElem?_eq_some.mp h
  unfold textsOf at hget
  rw [ExtTreeMap.getElem?_map] at hget
  rcases Option.map_eq_some_iff.mp hget with ⟨value, hvalue, hEq⟩
  exact ⟨value, hvalue, hEq.symm⟩

theorem textsOf_mem {values : ExtTreeMap uint32_t StringValue.Value} {iKeyField : uint32_t}
    {value : StringValue.Value} (h : values[iKeyField]? = some value) :
    (iKeyField, StringValue.ToString value) ∈ (textsOf values).toList := by
  apply ExtTreeMap.mem_toList_iff_getElem?_eq_some.mpr
  unfold textsOf
  rw [ExtTreeMap.getElem?_map, h]
  rfl

theorem fieldTexts_registered {mgr : KeyFieldMgr} {fields : List (uint32_t × Text)}
    (hfields : forall field, field ∈ fields -> mgr.FindField field.1 ≠ none) :
    exists texts, RedisBuffer.fieldTexts mgr fields = some texts := by
  induction fields with
  | nil => exact ⟨_, rfl⟩
  | cons field fields ih =>
      rcases ih (fun other h => hfields other (List.mem_cons_of_mem field h)) with ⟨rest, hrest⟩
      unfold RedisBuffer.fieldTexts
      cases hfind : mgr.FindField field.1 with
      | none => exact absurd hfind (hfields field List.mem_cons_self)
      | some sField =>
          dsimp only
          rw [hrest]
          exact ⟨_, rfl⟩

/-- The changes of a map of values, as far as their text allows to send them. -/
def Sendable (values : ExtTreeMap uint32_t StringValue.Value) : Prop :=
  forall (iKeyField : uint32_t) (value : StringValue.Value), values[iKeyField]? = some value ->
    iKeyField.toNat < 2 ^ 31 ∧
      forall strValue, value = .string strValue -> Clean strValue

/-- Numbers below `2 ^ 31` and strings without special characters are what survives. -/
theorem changes_survive_iff (iRedisKey : uint32_t) (iFirstKey iSecondKey : uint64_t) :
    (forall (mgr : KeyFieldMgr) (sKey : Text) (values : ExtTreeMap uint32_t StringValue.Value),
      values ≠ ∅ ->
      (forall iKeyField, iKeyField ∈ values -> mgr.FindField iKeyField ≠ none) ->
      exists save change,
        RedisBuffer.batchSecond mgr iRedisKey sKey iFirstKey (iSecondKey, textsOf values) =
            { commands := [save, change], thrown := none } ∧
          (Survives change
              { eType := .eSet, RedisKey := iRedisKey, Firstkey := iFirstKey,
                SecondKey := iSecondKey, mValue := textsOf values } <->
            iRedisKey.toNat < 2 ^ 31 ∧ Sendable values)) ∧
      (Survives (addRepeatedText iFirstKey iSecondKey iRedisKey)
          (repeatedData .eAdd iRedisKey iFirstKey iSecondKey) <->
        iRedisKey.toNat < 2 ^ 31) ∧
      (Survives (removeRepeatedText iFirstKey iSecondKey iRedisKey)
          (repeatedData .eDelete iRedisKey iFirstKey iSecondKey) <->
        iRedisKey.toNat < 2 ^ 31) := by
  refine ⟨?_, survives_repeated_iff rfl (fun data => rfl) _ _ _,
    survives_repeated_iff rfl (fun data => rfl) _ _ _⟩
  intro mgr sKey values hne hregistered
  have hfind : forall field, field ∈ (textsOf values).toList ->
      mgr.FindField field.1 ≠ none := by
    intro field hfield
    rcases mem_textsOf hfield with ⟨value, hvalue, _⟩
    exact hregistered field.1 (ExtTreeMap.mem_iff_isSome_getElem?.mpr (by rw [hvalue]; rfl))
  have hempty : textsOf values ≠ ∅ := fun h => hne (ExtTreeMap.map_eq_empty_iff.mp h)
  rcases fieldTexts_registered hfind with ⟨texts, htexts⟩
  refine ⟨RedisBuffer.saveText (RedisBuffer.hashName sKey iFirstKey iSecondKey) texts.1,
    RedisBuffer.publishText iRedisKey (RedisBuffer.syncPayload iFirstKey iSecondKey
      (publishFields (textsOf values).toList)), ?_, ?_⟩
  · unfold RedisBuffer.batchSecond
    dsimp only
    rw [htexts, ← fieldTexts_publish htexts]
  · constructor
    · intro h
      have hfields : forall field, field ∈ (textsOf values).toList -> field.2 ≠ [] := by
        intro field hfield
        rcases mem_textsOf hfield with ⟨value, _, hEq⟩
        rw [hEq]
        exact StringValue.toString_ne_nil value
      rcases clean_of_survives hempty hfields h with ⟨hredis, hclean⟩
      refine ⟨hredis, ?_⟩
      intro iKeyField value hvalue
      rcases hclean _ (textsOf_mem hvalue) with ⟨hsmall, htext⟩
      exact ⟨hsmall, (StringValue.clean_toString_iff value).mp htext⟩
    · intro h
      rcases h with ⟨hredis, hsendable⟩
      apply survives_of_clean hredis iFirstKey iSecondKey hempty
      intro field hfield
      rcases mem_textsOf hfield with ⟨value, hvalue, hEq⟩
      rcases hsendable field.1 value hvalue with ⟨hsmall, hstring⟩
      rw [hEq]
      exact ⟨hsmall, (StringValue.clean_toString_iff value).mpr hstring,
        StringValue.toString_ne_nil value⟩

/-- One key with a string field. -/
def nameOnlyMgr : KeyFieldMgr :=
  { mKey := fun iKey =>
      if iKey = 0x100 then
        some
          { pName := some "user".toList,
            mField := [(1, { Name := "name".toList, eType := .FT_string })] }
      else none,
    mPackageDBName := fun _ => [],
    mRepeatedDBName := fun _ => none }

theorem shortName_survives :
    exists save change,
      RedisBuffer.batchSecond nameOnlyMgr 0x100 "user".toList 5
          (0, textsOf (ExtTreeMap.insert ∅ 0x101 (.string "ab".toList))) =
        { commands := [save, change], thrown := none } ∧
      (Survives change
          { eType := .eSet, RedisKey := 0x100, Firstkey := 5, SecondKey := 0,
            mValue := textsOf (ExtTreeMap.insert ∅ 0x101 (.string "ab".toList)) } <->
        (0x100 : uint32_t).toNat < 2 ^ 31 ∧
          Sendable (ExtTreeMap.insert ∅ 0x101 (.string "ab".toList))) := by
  apply (changes_survive_iff 0x100 5 0).left nameOnlyMgr "user".toList
  · exact ExtTreeMap.insert_ne_empty
  · intro iKeyField hmem
    rcases ExtTreeMap.mem_insert.mp hmem with hsame | hnone
    · rw [← Std.compare_eq_iff_eq.mp hsame]
      decide
    · exact absurd hnone ExtTreeMap.not_mem_empty

theorem barredName_lost :
    exists save change,
      RedisBuffer.batchSecond nameOnlyMgr 0x100 "user".toList 5
          (0, textsOf (ExtTreeMap.insert ∅ 0x101 (.string "a|b".toList))) =
        { commands := [save, change], thrown := none } ∧
      receive change = some (.ok none) ∧
      ¬ Survives change
          { eType := .eSet, RedisKey := 0x100, Firstkey := 5, SecondKey := 0,
            mValue := textsOf (ExtTreeMap.insert ∅ 0x101 (.string "a|b".toList)) } := by
  have hlost : receive "publish 256 S|5|0|257:\"a|b\"|".toList = some (.ok none) := rfl
  refine ⟨"HMSET user:5 name \"a|b\" ".toList, "publish 256 S|5|0|257:\"a|b\"|".toList, rfl,
    hlost, ?_⟩
  intro h
  cases hlost.symm.trans h

end DataHandle
end GMServer
