import GMServer.DataHandle.RedisSubMgr

/-!
# Which messages are accepted

Anyone can publish any text on a channel.  The parser is meant for three forms of messages
and rejects others with `false`.  Its tests are few, and the functions that read its numbers
throw; an exception leaves the thread of the subscriber.
-/

namespace GMServer
namespace DataHandle

open Std

/-!
# The messages
-/

/-- Digits with a value below the limit. -/
structure Numeral (limit : Nat) (text : Text) : Prop where
  nonempty : text ≠ []
  digits : forall c, c ∈ text -> c.isDigit = true
  below : Nat.ofDigitChars 10 text 0 < limit

inductive FieldText (limit : Nat) : Text -> Prop where
  | mk {sKeyField strValue : Text} (key : Numeral limit sKeyField) (nonempty : strValue ≠ [])
      (bar : '|' ∉ strValue) (colon : ':' ∉ strValue) :
      FieldText limit (sKeyField ++ ':' :: strValue)

/-- The key fields are below the limit. -/
inductive SyncMessage (limit : Nat) : Text -> Prop where
  | add {sFirst sSecond : Text} (first : Numeral (2 ^ 64) sFirst)
      (second : Numeral (2 ^ 64) sSecond) :
      SyncMessage limit ('A' :: '|' :: (sFirst ++ '|' :: sSecond))
  | delete {sFirst sSecond : Text} (first : Numeral (2 ^ 64) sFirst)
      (second : Numeral (2 ^ 64) sSecond) :
      SyncMessage limit ('D' :: '|' :: (sFirst ++ '|' :: sSecond))
  | set {sFirst sSecond fieldTexts : Text} {fields : List Text}
      (first : Numeral (2 ^ 64) sFirst) (second : Numeral (2 ^ 64) sSecond)
      (nonempty : fields ≠ []) (each : forall field, field ∈ fields -> FieldText limit field)
      (joined : Text.Joined '|' fields fieldTexts) :
      SyncMessage limit ('S' :: '|' :: (sFirst ++ '|' :: (sSecond ++ '|' :: fieldTexts)))

theorem Numeral.not_mem {limit : Nat} {text : Text} (h : Numeral limit text) {c : Char}
    (hc : c.isDigit = false) : c ∉ text :=
  fun hmem => Text.ne_of_isDigit (h.digits c hmem) hc rfl

theorem Numeral.mono {small large : Nat} (hle : small ≤ large) {text : Text}
    (h : Numeral small text) : Numeral large text :=
  { nonempty := h.nonempty, digits := h.digits, below := Nat.lt_of_lt_of_le h.below hle }

theorem Numeral.readNumber {limit : Nat} {text : Text} (h : Numeral limit text) :
    Text.readNumber (cStr text) = some (false, Nat.ofDigitChars 10 text 0) := by
  rw [cStr_eq_self (h.not_mem (by decide)), Text.readNumber_digits h.nonempty h.digits]

theorem Numeral.stoull {text : Text} (h : Numeral (2 ^ 64) text) :
    exists n, StringValue.stoull text = .ok n := by
  unfold StringValue.stoull
  rw [h.readNumber]
  dsimp only
  rw [if_pos h.below]
  exact ⟨_, rfl⟩

/-- The key fields that have no place in an `int` are not read. -/
theorem Numeral.stoi_iff {limit : Nat} {text : Text} (h : Numeral limit text) :
    (exists iKeyField, StringValue.stoi text = .ok iKeyField) <-> Numeral (2 ^ 31) text := by
  unfold StringValue.stoi
  rw [h.readNumber]
  show (exists iKeyField, (if -2 ^ 31 ≤ ((Nat.ofDigitChars 10 text 0 : Nat) : Int) ∧
    ((Nat.ofDigitChars 10 text 0 : Nat) : Int) < 2 ^ 31 then _ else _) = _) <-> _
  constructor
  · rintro ⟨iKeyField, hread⟩
    split at hread
    · rename_i hrange
      exact { nonempty := h.nonempty, digits := h.digits, below := by omega }
    · cases hread
  · intro hsmall
    have hbelow := hsmall.below
    rw [if_pos (by omega)]
    exact ⟨_, rfl⟩

/-!
# The fields
-/

theorem FieldText.mono {small large : Nat} (hle : small ≤ large) {field : Text}
    (h : FieldText small field) : FieldText large field := by
  cases h with
  | mk key nonempty bar colon => exact .mk (key.mono hle) nonempty bar colon

theorem FieldText.bar_not_mem {limit : Nat} {field : Text} (h : FieldText limit field) :
    '|' ∉ field := by
  cases h with
  | mk key nonempty bar colon =>
      rw [List.mem_append, List.mem_cons, not_or, not_or]
      exact ⟨key.not_mem rfl, by decide, bar⟩

theorem FieldText.ne_nil {limit : Nat} {field : Text} (h : FieldText limit field) :
    field ≠ [] := by
  cases h with
  | mk key _ _ _ => exact List.append_ne_nil_of_left_ne_nil key.nonempty _

theorem FieldText.split_length {limit : Nat} {field : Text} (h : FieldText limit field) :
    (StringValue.Split field ':').length = 2 := by
  cases h with
  | mk key nonempty bar colon =>
      rw [StringValue.Split_pair (key.not_mem rfl) nonempty colon]
      rfl

/-- The field is stored. -/
def KeyRead (field : Text) : Prop :=
  exists sKeyField strValue iKeyField, StringValue.Split field ':' = [sKeyField, strValue] ∧
    StringValue.stoi sKeyField = .ok iKeyField

theorem FieldText.keyRead {field : Text} (h : FieldText (2 ^ 31) field) : KeyRead field := by
  cases h with
  | mk key nonempty bar colon =>
      rcases key.stoi_iff.mpr key with ⟨iKeyField, hread⟩
      exact ⟨_, _, iKeyField, StringValue.Split_pair (key.not_mem rfl) nonempty colon, hread⟩

theorem FieldText.of_keyRead {limit : Nat} {field : Text} (h : FieldText limit field)
    (hread : KeyRead field) : FieldText (2 ^ 31) field := by
  cases h with
  | mk key nonempty bar colon =>
      rcases hread with ⟨sKeyField, strValue, iKeyField, hsplit, hnumber⟩
      cases (StringValue.Split_pair (key.not_mem rfl) nonempty colon).symm.trans hsplit
      exact .mk (key.stoi_iff.mp ⟨iKeyField, hnumber⟩) nonempty bar colon

/-- The first field that is not stored is not cut into two either. -/
def StopsAt (fields : List Text) : Prop :=
  exists before field after, fields = before ++ field :: after ∧
    (forall other, other ∈ before -> KeyRead other) ∧
    (StringValue.Split field ':').length ≠ 2

theorem StopsAt.cons {field : Text} {fields : List Text} (hread : KeyRead field)
    (h : StopsAt fields) : StopsAt (field :: fields) := by
  rcases h with ⟨before, stop, after, hfields, hbefore, hlength⟩
  refine ⟨field :: before, stop, after, by rw [hfields, List.cons_append], ?_, hlength⟩
  intro other hother
  rcases List.mem_cons.mp hother with hfirst | hlater
  · exact hfirst ▸ hread
  · exact hbefore other hlater

theorem StopsAt.tail {field : Text} {fields : List Text} (hread : KeyRead field)
    (h : StopsAt (field :: fields)) : StopsAt fields := by
  rcases h with ⟨before, stop, after, hfields, hbefore, hlength⟩
  cases before with
  | nil =>
      cases hfields
      rcases hread with ⟨sKeyField, strValue, iKeyField, hsplit, _⟩
      rw [hsplit] at hlength
      exact absurd rfl hlength
  | cons other before =>
      cases hfields
      exact ⟨before, stop, after, rfl,
        fun other hother => hbefore other (List.mem_cons_of_mem _ hother), hlength⟩

namespace RedisSyncData

theorem parseFields_some_iff (mValue : ExtTreeMap uint32_t Text) (fields : List Text) :
    (exists parsed, parseFields mValue fields = .ok (some parsed)) <->
      forall field, field ∈ fields -> KeyRead field := by
  induction fields generalizing mValue with
  | nil => exact ⟨fun _ _ h => (List.not_mem_nil h).elim, fun _ => ⟨mValue, rfl⟩⟩
  | cons field fields ih =>
      rw [List.forall_mem_cons]
      unfold parseFields
      split
      · rename_i sKeyField strValue hsplit
        have hkey : KeyRead field <-> exists iKeyField,
            StringValue.stoi sKeyField = .ok iKeyField := by
          constructor
          · rintro ⟨sOther, strOther, iKeyField, hother, hread⟩
            cases hsplit.symm.trans hother
            exact ⟨iKeyField, hread⟩
          · rintro ⟨iKeyField, hread⟩
            exact ⟨sKeyField, strValue, iKeyField, hsplit, hread⟩
        rw [hkey]
        split
        · rename_i exception hread
          rw [hread]
          constructor
          · rintro ⟨parsed, h⟩
            cases h
          · rintro ⟨⟨iKeyField, h⟩, _⟩
            cases h
        · rename_i iKeyField hread
          rw [ih, hread]
          exact ⟨fun h => ⟨⟨iKeyField, rfl⟩, h⟩, fun h => h.right⟩
      · rename_i hsplit
        constructor
        · rintro ⟨parsed, h⟩
          cases h
        · rintro ⟨⟨sKeyField, strValue, iKeyField, hother, _⟩, _⟩
          exact absurd hother (hsplit sKeyField strValue)

theorem parseFields_none_iff (mValue : ExtTreeMap uint32_t Text) (fields : List Text) :
    parseFields mValue fields = .ok none <-> StopsAt fields := by
  induction fields generalizing mValue with
  | nil =>
      constructor
      · intro h
        cases h
      · rintro ⟨before, field, after, hfields, _⟩
        cases (List.append_eq_nil_iff.mp hfields.symm).right
  | cons field fields ih =>
      unfold parseFields
      split
      · rename_i sKeyField strValue hsplit
        split
        · rename_i exception hread
          constructor
          · intro h
            cases h
          · rintro ⟨before, stop, after, hfields, hbefore, hlength⟩
            cases before with
            | nil =>
                cases hfields
                rw [hsplit] at hlength
                exact absurd rfl hlength
            | cons other before =>
                cases hfields
                rcases hbefore field List.mem_cons_self with
                  ⟨sOther, strOther, iKeyField, hother, h⟩
                cases hsplit.symm.trans hother
                cases hread.symm.trans h
        · rename_i iKeyField hread
          have hkey : KeyRead field := ⟨sKeyField, strValue, iKeyField, hsplit, hread⟩
          rw [ih]
          exact ⟨StopsAt.cons hkey, StopsAt.tail hkey⟩
      · rename_i hsplit
        refine ⟨fun _ => ⟨[], field, fields, rfl, fun _ h => (List.not_mem_nil h).elim, ?_⟩,
          fun _ => rfl⟩
        intro hlength
        rcases List.length_eq_two.mp hlength with ⟨sKeyField, strValue, hother⟩
        exact hsplit sKeyField strValue hother

theorem parseType_none_iff (data : RedisSyncData) (sType : Text) (fields : List Text) :
    parseType data sType fields = .ok none <->
      sType.head? = some 'S' ∧ (fields = [] ∨ StopsAt fields) := by
  unfold parseType
  split
  · rename_i hhead
    rw [hhead]
    constructor
    · intro h
      cases h
    · rintro ⟨h, _⟩
      cases h
  · rename_i hhead
    rw [hhead]
    constructor
    · intro h
      cases h
    · rintro ⟨h, _⟩
      cases h
  · rename_i hhead
    by_cases hnil : fields = []
    · rw [if_pos hnil]
      exact ⟨fun _ => ⟨hhead, Or.inl hnil⟩, fun _ => rfl⟩
    · rw [if_neg hnil, ← parseFields_none_iff data.mValue fields]
      constructor
      · intro h
        refine ⟨hhead, Or.inr ?_⟩
        split at h
        · cases h
        · rename_i hnone
          exact hnone
        · cases h
      · rintro ⟨_, hempty | hnone⟩
        · exact absurd hempty hnil
        · rw [hnone]
  · rename_i hother
    constructor
    · intro h
      cases h
    · rintro ⟨h, _⟩
      exact absurd h hother

theorem parseType_set_iff (data : RedisSyncData) {fields : List Text} (hne : fields ≠ []) :
    (exists parsed, parseType data ['S'] fields = .ok (some parsed)) <->
      forall field, field ∈ fields -> KeyRead field := by
  rw [← parseFields_some_iff data.mValue fields]
  show (exists parsed, (if fields = [] then _ else _) = _) <-> _
  rw [if_neg hne]
  constructor
  · rintro ⟨parsed, h⟩
    split at h
    · cases h
    · cases h
    · rename_i mValue hsome
      exact ⟨mValue, hsome⟩
  · rintro ⟨mValue, hsome⟩
    rw [hsome]
    exact ⟨_, rfl⟩

theorem parse_eq {iRedisKey : uint32_t} {pStrMsg sType sFirst sSecond : Text}
    {fields : List Text} {Firstkey SecondKey : uint64_t}
    (hsplit : StringValue.Split pStrMsg '|' = sType :: sFirst :: sSecond :: fields)
    (hfirst : StringValue.stoull sFirst = .ok Firstkey)
    (hsecond : StringValue.stoull sSecond = .ok SecondKey) :
    Parse iRedisKey pStrMsg =
      parseType
        { eType := .eNULL, RedisKey := iRedisKey, Firstkey := Firstkey,
          SecondKey := SecondKey, mValue := ∅ } sType fields := by
  unfold Parse
  rw [hsplit]
  dsimp only
  rw [hfirst]
  dsimp only
  rw [hsecond]

/-- The tests that the parser makes, and the numbers it has read before. -/
def Rejected (pStrMsg : Text) : Prop :=
  (StringValue.Split pStrMsg '|').length < 3 ∨
    exists sType sFirst sSecond fields Firstkey SecondKey,
      StringValue.Split pStrMsg '|' = sType :: sFirst :: sSecond :: fields ∧
        StringValue.stoull sFirst = .ok Firstkey ∧ StringValue.stoull sSecond = .ok SecondKey ∧
          sType.head? = some 'S' ∧ (fields = [] ∨ StopsAt fields)

theorem parse_none_iff (iRedisKey : uint32_t) (pStrMsg : Text) :
    Parse iRedisKey pStrMsg = .ok none <-> Rejected pStrMsg := by
  constructor
  · intro hnone
    unfold Parse at hnone
    split at hnone
    · rename_i sType sFirst sSecond fields hsplit
      right
      split at hnone
      · cases hnone
      · rename_i Firstkey hfirst
        split at hnone
        · cases hnone
        · rename_i SecondKey hsecond
          exact ⟨sType, sFirst, sSecond, fields, Firstkey, SecondKey, hsplit, hfirst, hsecond,
            (parseType_none_iff _ sType fields).mp hnone⟩
    · rename_i hshort
      left
      cases hparts : StringValue.Split pStrMsg '|' with
      | nil => exact Nat.zero_lt_succ 2
      | cons sType parts =>
          cases parts with
          | nil => exact Nat.lt_of_sub_eq_succ rfl
          | cons sFirst parts =>
              cases parts with
              | nil => exact Nat.lt_succ_self 2
              | cons sSecond fields => exact absurd hparts (hshort sType sFirst sSecond fields)
  · rintro (hshort | ⟨sType, sFirst, sSecond, fields, Firstkey, SecondKey, hsplit, hfirst,
      hsecond, htype⟩)
    · unfold Parse
      split
      · rename_i hparts
        rw [hparts] at hshort
        exact absurd hshort (Nat.not_lt.mpr (Nat.le_add_left 3 _))
      · rfl
    · rw [parse_eq hsplit hfirst hsecond]
      exact (parseType_none_iff _ sType fields).mpr htype

end RedisSyncData

/-!
# Messages and the parser
-/

theorem SyncMessage.mono {small large : Nat} (hle : small ≤ large) {pStrMsg : Text}
    (h : SyncMessage small pStrMsg) : SyncMessage large pStrMsg := by
  cases h with
  | add first second => exact .add first second
  | delete first second => exact .delete first second
  | set first second nonempty each joined =>
      exact .set first second nonempty (fun field hfield => (each field hfield).mono hle) joined

theorem split_repeated (sType : Char) (htype : '|' ≠ sType) {sFirst sSecond : Text}
    (hfirst : Numeral (2 ^ 64) sFirst) (hsecond : Numeral (2 ^ 64) sSecond) :
    StringValue.Split (sType :: '|' :: (sFirst ++ '|' :: sSecond)) '|' =
      [[sType], sFirst, sSecond] := by
  have hpiece : '|' ∉ [sType] := fun h => htype (List.mem_singleton.mp h)
  unfold StringValue.Split
  rw [← List.singleton_append, Text.pieces_cons hpiece, Text.pieces_cons (hfirst.not_mem rfl),
    Text.pieces_last (hsecond.not_mem rfl) hsecond.nonempty]

theorem split_set {limit : Nat} {sFirst sSecond fieldTexts : Text} {fields : List Text}
    (hfirst : Numeral (2 ^ 64) sFirst) (hsecond : Numeral (2 ^ 64) sSecond)
    (heach : forall field, field ∈ fields -> FieldText limit field)
    (hjoined : Text.Joined '|' fields fieldTexts) :
    StringValue.Split ('S' :: '|' :: (sFirst ++ '|' :: (sSecond ++ '|' :: fieldTexts))) '|' =
      ['S'] :: sFirst :: sSecond :: fields := by
  unfold StringValue.Split
  rw [← List.singleton_append, Text.pieces_cons (by decide),
    Text.pieces_cons (hfirst.not_mem rfl), Text.pieces_cons (hsecond.not_mem rfl),
    Text.pieces_joined (fun field hfield => (heach field hfield).bar_not_mem)
      (fun field hfield => (heach field hfield).ne_nil) hjoined]

namespace RedisSyncData

theorem parse_numerals (iRedisKey : uint32_t) {pStrMsg sType sFirst sSecond : Text}
    {fields : List Text}
    (hsplit : StringValue.Split pStrMsg '|' = sType :: sFirst :: sSecond :: fields)
    (hfirst : Numeral (2 ^ 64) sFirst) (hsecond : Numeral (2 ^ 64) sSecond) :
    exists data, Parse iRedisKey pStrMsg = parseType data sType fields := by
  rcases hfirst.stoull with ⟨Firstkey, hfirst⟩
  rcases hsecond.stoull with ⟨SecondKey, hsecond⟩
  exact ⟨_, parse_eq hsplit hfirst hsecond⟩

theorem accepts_message (iRedisKey : uint32_t) {pStrMsg : Text}
    (h : SyncMessage (2 ^ 31) pStrMsg) :
    exists data, Parse iRedisKey pStrMsg = .ok (some data) := by
  cases h with
  | add first second =>
      have hsplit := split_repeated 'A' (by decide) first second
      rcases parse_numerals iRedisKey hsplit first second with ⟨data, hparse⟩
      exact ⟨_, hparse⟩
  | delete first second =>
      have hsplit := split_repeated 'D' (by decide) first second
      rcases parse_numerals iRedisKey hsplit first second with ⟨data, hparse⟩
      exact ⟨_, hparse⟩
  | set first second nonempty each joined =>
      rcases parse_numerals iRedisKey (split_set first second each joined) first second with
        ⟨data, hparse⟩
      rw [hparse]
      exact (parseType_set_iff data nonempty).mpr (fun field hfield => (each field hfield).keyRead)

/-- A message with a key field that has no place in an `int` is not accepted. -/
theorem message_of_accepted {limit : Nat} {iRedisKey : uint32_t} {pStrMsg : Text}
    (h : SyncMessage limit pStrMsg) {accepted : RedisSyncData}
    (haccepted : Parse iRedisKey pStrMsg = .ok (some accepted)) :
    SyncMessage (2 ^ 31) pStrMsg := by
  cases h with
  | add first second => exact .add first second
  | delete first second => exact .delete first second
  | set first second nonempty each joined =>
      rcases parse_numerals iRedisKey (split_set first second each joined) first second with
        ⟨data, hparse⟩
      have hread := (parseType_set_iff data nonempty).mp ⟨accepted, hparse.symm.trans haccepted⟩
      exact .set first second nonempty
        (fun field hfield => (each field hfield).of_keyRead (hread field hfield)) joined

theorem message_not_rejected {limit : Nat} {pStrMsg : Text} (h : SyncMessage limit pStrMsg) :
    ¬ Rejected pStrMsg := by
  rw [← parse_none_iff 0]
  cases h with
  | add first second =>
      have hsplit := split_repeated 'A' (by decide) first second
      rcases parse_numerals 0 hsplit first second with ⟨data, hparse⟩
      rw [hparse, parseType_none_iff]
      rintro ⟨htype, _⟩
      cases htype
  | delete first second =>
      have hsplit := split_repeated 'D' (by decide) first second
      rcases parse_numerals 0 hsplit first second with ⟨data, hparse⟩
      rw [hparse, parseType_none_iff]
      rintro ⟨htype, _⟩
      cases htype
  | set first second nonempty each joined =>
      rcases parse_numerals 0 (split_set first second each joined) first second with
        ⟨data, hparse⟩
      rw [hparse, parseType_none_iff]
      rintro ⟨_, hempty | ⟨before, field, after, hfields, _, hlength⟩⟩
      · exact nonempty hempty
      · have hmem : field ∈ before ++ field :: after :=
          List.mem_append_right _ List.mem_cons_self
        rw [← hfields] at hmem
        exact hlength (each field hmem).split_length

end RedisSyncData

/-!
# What a channel may carry

The third part is about the subscribed connection: only messages get into the list.
-/

structure ParsedExactly (message : Text) : Prop where
  total : forall iRedisKey, exists result, RedisSyncData.Parse iRedisKey (cStr message) = .ok result
  exact : forall iRedisKey,
    (exists data, RedisSyncData.Parse iRedisKey (cStr message) = .ok (some data)) <->
      SyncMessage (2 ^ 32) (cStr message)
  enqueued : forall (channel : Text) (listData collected : List RedisSyncData)
    (rest : List Reply) (bEmpty : Bool),
    RedisWrap.ReadSyncData listData
        [.array [.string "message".toList, .string channel, .string message]] =
      .ok (collected, rest, bEmpty) ->
    collected ≠ listData -> SyncMessage (2 ^ 32) (cStr message)

theorem readSyncData_rejected {message : Text}
    (hrejected : RedisSyncData.Rejected (cStr message)) {channel : Text}
    {listData collected : List RedisSyncData} {rest : List Reply} {bEmpty : Bool}
    (hread : RedisWrap.ReadSyncData listData
        [.array [.string "message".toList, .string channel, .string message]] =
      .ok (collected, rest, bEmpty)) : collected = listData := by
  have hnone : RedisWrap.readReply
      (.array [.string "message".toList, .string channel, .string message]) =
        some (.ok none) :=
    congrArg some ((RedisSyncData.parse_none_iff _ _).mpr hrejected)
  unfold RedisWrap.ReadSyncData at hread
  rw [hnone] at hread
  dsimp only at hread
  split at hread
  · cases hread
    rfl
  · cases hread
    rfl

/-- The parser does what it should for the messages whose key fields have a place in an
`int`, and for what its tests reject. -/
theorem parsed_exactly_iff (message : Text) :
    ParsedExactly message <->
      SyncMessage (2 ^ 31) (cStr message) ∨ RedisSyncData.Rejected (cStr message) := by
  constructor
  · intro hparsed
    rcases hparsed.total 0 with ⟨result, hresult⟩
    cases result with
    | none => exact Or.inr ((RedisSyncData.parse_none_iff 0 _).mp hresult)
    | some data =>
        have hmessage := (hparsed.exact 0).mp ⟨data, hresult⟩
        exact Or.inl (RedisSyncData.message_of_accepted hmessage hresult)
  · rintro (hmessage | hrejected)
    · have hlarge : SyncMessage (2 ^ 32) (cStr message) := hmessage.mono (by decide)
      have haccepts := fun iRedisKey => RedisSyncData.accepts_message iRedisKey hmessage
      constructor
      · intro iRedisKey
        rcases haccepts iRedisKey with ⟨data, hdata⟩
        exact ⟨some data, hdata⟩
      · exact fun iRedisKey => ⟨fun _ => hlarge, fun _ => haccepts iRedisKey⟩
      · exact fun _ _ _ _ _ _ _ => hlarge
    · have hnone := fun iRedisKey => (RedisSyncData.parse_none_iff iRedisKey _).mpr hrejected
      constructor
      · exact fun iRedisKey => ⟨none, hnone iRedisKey⟩
      · intro iRedisKey
        constructor
        · rintro ⟨data, hdata⟩
          cases (hnone iRedisKey).symm.trans hdata
        · intro hmessage
          exact absurd hrejected (RedisSyncData.message_not_rejected hmessage)
      · intro channel listData collected rest bEmpty hread hne
        exact absurd (readSyncData_rejected hrejected hread) hne

/-- A letter where the number should be leaves the parser as an exception. -/
theorem letter_not_parsed : ¬ ParsedExactly "A|x|1".toList := by
  intro hparsed
  rcases hparsed.total 0 with ⟨result, hresult⟩
  have hthrown : RedisSyncData.Parse 0 (cStr "A|x|1".toList) = .error .invalid_argument := rfl
  cases hthrown.symm.trans hresult

end DataHandle
end GMServer
