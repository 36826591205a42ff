import GMServer.Library.Transition
import GMServer.DataHandle.Coalescing

/-!
# Batches over a run

`Batch` looks up the names of a place right before it issues the commands for it.  A key
field that is not registered ends it there with an exception.  The buffer is only cleared
at the end, so that what was issued before the exception is issued again.
-/

namespace GMServer
namespace DataHandle

open Std

/-!
# Place by place

A batch goes through the places in the order of their keys.
-/

namespace Flush

def Registered (mgr : KeyFieldMgr) (flush : Flush) : Prop :=
  mgr.FindKey flush.place.iKey ≠ none ∧
    forall field, field ∈ flush.fields -> mgr.FindField field.1 ≠ none

instance (mgr : KeyFieldMgr) (flush : Flush) : Decidable (flush.Registered mgr) :=
  inferInstanceAs (Decidable (_ ∧ _))

/-- What `Batch` does for one place. -/
def emitted (mgr : KeyFieldMgr) (flush : Flush) : RedisBuffer.Emitted :=
  if flush.Registered mgr then { commands := flush.commands mgr, thrown := none }
  else { commands := [], thrown := some .runtime_error }

end Flush

namespace RedisBuffer

theorem emitEach_cons {entry : Type} (emit : entry -> Emitted) (it : entry)
    (rest : List entry) :
    emitEach emit (it :: rest) =
      match (emit it).thrown with
      | some exception => { commands := (emit it).commands, thrown := some exception }
      | none =>
          { commands := (emit it).commands ++ (emitEach emit rest).commands,
            thrown := (emitEach emit rest).thrown } := rfl

theorem emitEach_congr {entry : Type} {emit other : entry -> Emitted} {list : List entry}
    (hlist : forall it, it ∈ list -> emit it = other it) :
    emitEach emit list = emitEach other list := by
  induction list with
  | nil => rfl
  | cons it list ih =>
      rw [emitEach_cons, emitEach_cons, hlist it List.mem_cons_self,
        ih (fun next h => hlist next (List.mem_cons_of_mem it h))]

theorem emitEach_append {entry : Type} (emit : entry -> Emitted) (first second : List entry) :
    emitEach emit (first ++ second) =
      match (emitEach emit first).thrown with
      | some _ => emitEach emit first
      | none =>
          { commands := (emitEach emit first).commands ++ (emitEach emit second).commands,
            thrown := (emitEach emit second).thrown } := by
  induction first with
  | nil => rfl
  | cons it first ih =>
      rw [List.cons_append, emitEach_cons, emitEach_cons]
      cases hthrown : (emit it).thrown with
      | some exception => rfl
      | none =>
          dsimp only
          rw [ih]
          cases hrest : (emitEach emit first).thrown with
          | some exception =>
              dsimp only
              rw [hrest]
          | none =>
              dsimp only
              rw [List.append_assoc]

theorem emitEach_flatMap {part entry : Type} (emit : entry -> Emitted)
    (entries : part -> List entry) (parts : List part) :
    emitEach emit (parts.flatMap entries) =
      emitEach (fun one => emitEach emit (entries one)) parts := by
  induction parts with
  | nil => rfl
  | cons one parts ih =>
      rw [List.flatMap_cons, emitEach_append, ih, emitEach_cons]
      cases hthrown : (emitEach emit (entries one)).thrown with
      | some exception =>
          dsimp only
          rw [← hthrown]
      | none => rfl

theorem emitEach_emitted (mgr : KeyFieldMgr) (list : List Flush) :
    emitEach (Flush.emitted mgr) list =
      { commands := (list.takeWhile (fun flush => flush.Registered mgr)).flatMap
          (Flush.commands mgr),
        thrown :=
          if forall flush, flush ∈ list -> flush.Registered mgr then none
          else some .runtime_error } := by
  induction list with
  | nil => rfl
  | cons flush list ih =>
      rw [emitEach_cons, ih]
      unfold Flush.emitted
      by_cases hflush : flush.Registered mgr
      · have hyes : decide (flush.Registered mgr) = true := decide_eq_true hflush
        rw [if_pos hflush, List.takeWhile_cons, if_pos hyes, List.flatMap_cons]
        dsimp only
        congr 1
        by_cases hlist : forall other, other ∈ list -> other.Registered mgr
        · rw [if_pos hlist, if_pos (List.forall_mem_cons.mpr ⟨hflush, hlist⟩)]
        · rw [if_neg hlist, if_neg (fun h => hlist (List.forall_mem_cons.mp h).right)]
      · have hnot : ¬ decide (flush.Registered mgr) = true := by
          rw [decide_eq_true_eq]
          exact hflush
        rw [if_neg hflush, List.takeWhile_cons, if_neg hnot,
          if_neg (fun h => hflush (List.forall_mem_cons.mp h).left)]
        rfl

theorem fieldTexts_eq_none {mgr : KeyFieldMgr} {fields : List (uint32_t × Text)}
    {field : uint32_t × Text} (hfield : field ∈ fields) (hnone : mgr.FindField field.1 = none) :
    fieldTexts mgr fields = none := by
  induction fields with
  | nil => cases hfield
  | cons first fields ih =>
      unfold fieldTexts
      rcases List.mem_cons.mp hfield with hEq | hlater
      · rw [← hEq, hnone]
      · rw [ih hlater]
        split <;> rfl

theorem batchSecond_emitted {mgr : KeyFieldMgr} {iKey : uint32_t} {sKey : Text}
    (hkey : mgr.FindKey iKey = some sKey) (itKeyFirst : uint64_t × SecondBuffer)
    (itKeySecond : uint64_t × FieldBuffer) :
    batchSecond mgr iKey sKey itKeyFirst.1 itKeySecond =
      Flush.emitted mgr
        { place := { iKey := iKey, iFirstKey := itKeyFirst.1, iSecondKey := itKeySecond.1 },
          fields := itKeySecond.2.toList } := by
  have hname : mgr.keyName iKey = sKey := by
    unfold KeyFieldMgr.keyName
    rw [hkey]
    rfl
  have hfound : mgr.FindKey iKey ≠ none := by
    rw [hkey]
    exact Option.some_ne_none sKey
  unfold Flush.emitted
  split
  · rename_i hregistered
    rw [← hname]
    exact batchSecond_commands hregistered.right
  · rename_i hnot
    have hfields : ¬ forall field, field ∈ itKeySecond.2.toList ->
        mgr.FindField field.1 ≠ none := fun h => hnot ⟨hfound, h⟩
    push Not at hfields
    rcases hfields with ⟨field, hfield, hnone⟩
    unfold batchSecond
    rw [fieldTexts_eq_none hfield hnone]

theorem batchKey_emitted {mgr : KeyFieldMgr} {itKey : uint32_t × KeyBuffer}
    (hne : flushesKey itKey ≠ []) :
    batchKey mgr itKey = emitEach (Flush.emitted mgr) (flushesKey itKey) := by
  unfold batchKey
  cases hkey : mgr.FindKey itKey.1 with
  | none =>
      cases hlist : flushesKey itKey with
      | nil => exact absurd hlist hne
      | cons flush list =>
          have hmem : flush ∈ flushesKey itKey := by
            rw [hlist]
            exact List.mem_cons_self
          rcases mem_flushesKey.mp hmem with ⟨itKeyFirst, itKeySecond, _, _, hshape⟩
          have hnot : ¬ flush.Registered mgr := by
            intro hregistered
            rw [hshape] at hregistered
            exact hregistered.left hkey
          rw [emitEach_cons]
          unfold Flush.emitted
          rw [if_neg hnot]
  | some sKey =>
      unfold flushesKey
      rw [emitEach_flatMap]
      apply emitEach_congr
      intro itKeyFirst _
      unfold flushesSecond
      rw [List.map_eq_flatMap, emitEach_flatMap]
      apply emitEach_congr
      intro itKeySecond _
      rw [batchSecond_emitted hkey, emitEach_cons]
      cases (Flush.emitted mgr _) with
      | mk commands thrown =>
          cases thrown with
          | none => simp only [emitEach, List.append_nil]
          | some exception => rfl

end RedisBuffer

/-!
# The order of the places
-/

/-- The order in which the maps are iterated. -/
def Place.before (one two : Place) : Prop :=
  one.iKey < two.iKey ∨ one.iKey = two.iKey ∧
    (one.iFirstKey < two.iFirstKey ∨
      one.iFirstKey = two.iFirstKey ∧ one.iSecondKey < two.iSecondKey)

theorem Place.not_before_self (place : Place) : ¬ place.before place := by
  intro h
  rcases h with hkey | ⟨_, hfirst | ⟨_, hsecond⟩⟩
  · exact BitVec.lt_irrefl _ hkey
  · exact BitVec.lt_irrefl _ hfirst
  · exact BitVec.lt_irrefl _ hsecond

theorem Place.not_before_symm {one two : Place} (h : one.before two) : ¬ two.before one := by
  intro hback
  rcases h with hkey | ⟨hkey, hrest⟩
  · rcases hback with hkey' | ⟨hkey', _⟩
    · exact BitVec.lt_asymm hkey hkey'
    · rw [hkey'] at hkey
      exact BitVec.lt_irrefl _ hkey
  · rcases hback with hkey' | ⟨_, hback⟩
    · rw [hkey] at hkey'
      exact BitVec.lt_irrefl _ hkey'
    · rcases hrest with hfirst | ⟨hfirst, hsecond⟩
      · rcases hback with hfirst' | ⟨hfirst', _⟩
        · exact BitVec.lt_asymm hfirst hfirst'
        · rw [hfirst'] at hfirst
          exact BitVec.lt_irrefl _ hfirst
      · rcases hback with hfirst' | ⟨_, hsecond'⟩
        · rw [hfirst] at hfirst'
          exact BitVec.lt_irrefl _ hfirst'
        · exact BitVec.lt_asymm hsecond hsecond'

namespace RedisBuffer

theorem ordered_toList {w : Nat} {value : Type} (m : ExtTreeMap (BitVec w) value) :
    m.toList.Pairwise (fun one two => one.1 < two.1) :=
  List.Pairwise.imp SortedMap.compare_word_eq_lt.mp ExtTreeMap.ordered_keys_toList

theorem ordered_flushes (buffer : RedisBuffer) :
    buffer.flushes.Pairwise (fun one two => one.place.before two.place) := by
  unfold flushes
  rw [List.pairwise_flatMap]
  constructor
  · intro itKey _
    unfold flushesKey
    rw [List.pairwise_flatMap]
    constructor
    · intro itKeyFirst _
      unfold flushesSecond
      rw [List.pairwise_map]
      apply List.Pairwise.imp _ (ordered_toList itKeyFirst.2)
      intro one two hlt
      exact Or.inr ⟨rfl, Or.inr ⟨rfl, hlt⟩⟩
    · apply List.Pairwise.imp _ (ordered_toList itKey.2)
      intro one two hlt flush hflush other hother
      rcases List.mem_map.mp hflush with ⟨itKeySecond, _, hEq⟩
      rcases List.mem_map.mp hother with ⟨itOtherSecond, _, hEq'⟩
      rw [← hEq, ← hEq']
      exact Or.inr ⟨rfl, Or.inl hlt⟩
  · apply List.Pairwise.imp _ (ordered_toList buffer.m_mBuffer)
    intro one two hlt flush hflush other hother
    rcases mem_flushesKey.mp hflush with ⟨_, _, _, _, hEq⟩
    rcases mem_flushesKey.mp hother with ⟨_, _, _, _, hEq'⟩
    rw [hEq, hEq']
    exact Or.inl hlt

/-!
# What has been buffered

Every place in the buffer has a field, so that a key without a name is found out with
the first of its places.
-/

theorem exists_field {changes : List Change} {flush : Flush}
    (hflush : flush ∈ (buffered changes).flushes) : exists field, field ∈ flush.fields := by
  rcases place_mem_flushes_iff.mp (List.mem_map.mpr ⟨flush, hflush, rfl⟩) with
    ⟨change, hchange, hplace⟩
  rcases mem_flushes.mp hflush with ⟨mapField, hfields, hlist⟩
  rcases Option.ne_none_iff_exists'.mp (valueAt_of_mem hchange) with ⟨strValue, hget⟩
  unfold valueAt at hget
  have hsame : change.address.place = flush.place := hplace
  rw [hsame, hfields, Option.bind_some] at hget
  refine ⟨(change.address.iKeyField, strValue), ?_⟩
  rw [hlist]
  exact ExtTreeMap.mem_toList_iff_getElem?_eq_some.mpr hget

theorem flushesKey_ne_nil {changes : List Change} {itKey : uint32_t × KeyBuffer}
    (hmem : itKey ∈ (buffered changes).m_mBuffer.toList) : flushesKey itKey ≠ [] := by
  have hget := ExtTreeMap.mem_toList_iff_getElem?_eq_some.mp hmem
  rcases change_of_key hget with ⟨change, hchange, hkey⟩
  rcases List.mem_map.mp (place_mem_flushes_iff.mpr ⟨change, hchange, rfl⟩) with
    ⟨flush, hflush, hplace⟩
  rcases List.mem_flatMap.mp hflush with ⟨itOther, hother, hthere⟩
  rcases mem_flushesKey.mp hthere with ⟨_, _, _, _, hshape⟩
  have hsame : itOther.1 = itKey.1 := by
    have hplaceKey := congrArg Place.iKey hplace
    rw [hshape] at hplaceKey
    exact hplaceKey.trans hkey
  have hgetOther := ExtTreeMap.mem_toList_iff_getElem?_eq_some.mp hother
  rw [hsame, hget] at hgetOther
  have hEq : itOther = itKey := Prod.ext hsame (Option.some.inj hgetOther).symm
  rw [← hEq]
  exact List.ne_nil_of_mem hthere

/-- The places whose commands a batch issues. -/
def issued (mgr : KeyFieldMgr) (buffer : RedisBuffer) : List Flush :=
  buffer.flushes.takeWhile (fun flush => flush.Registered mgr)

theorem Batch_issued (mgr : KeyFieldMgr) (changes : List Change) :
    Batch mgr (buffered changes) =
      if forall flush, flush ∈ (buffered changes).flushes -> flush.Registered mgr then
        ({ commands := (buffered changes).flushes.flatMap (Flush.commands mgr), thrown := none },
          empty)
      else
        ({ commands := ((buffered changes).issued mgr).flatMap (Flush.commands mgr),
           thrown := some .runtime_error },
          buffered changes) := by
  have hemitted : emitEach (batchKey mgr) (buffered changes).m_mBuffer.toList =
      emitEach (Flush.emitted mgr) (buffered changes).flushes := by
    unfold flushes
    rw [emitEach_flatMap]
    apply emitEach_congr
    intro itKey hmem
    exact batchKey_emitted (flushesKey_ne_nil hmem)
  unfold Batch
  rw [hemitted, emitEach_emitted]
  split
  · rename_i hall
    have hwhole : (buffered changes).flushes.takeWhile
        (fun flush => flush.Registered mgr) = (buffered changes).flushes :=
      List.takeWhile_eq_self_iff.mpr (fun flush hflush => decide_eq_true (hall flush hflush))
    rw [hwhole]
    rfl
  · rfl

/-!
# All or nothing
-/

/-- Every text in the buffer is in one of the commands, at one place only. -/
structure IssuedOnce (mgr : KeyFieldMgr) (buffer : RedisBuffer) (commands : List Text) :
    Prop where
  byPlace : exists flushes : List Flush, commands = flushes.flatMap (Flush.commands mgr) ∧
    (flushes.map Flush.place).Nodup ∧ ((flushes.flatMap Flush.cells).map Prod.fst).Nodup ∧
    forall address strValue, (address, strValue) ∈ flushes.flatMap Flush.cells <->
      buffer.valueAt address = some strValue

structure AllOrNothing (mgr : KeyFieldMgr) (buffer : RedisBuffer) : Prop where
  thrown : (Batch mgr buffer).1.thrown ≠ none ->
    (Batch mgr buffer).1.commands = [] ∧ (Batch mgr buffer).2 = buffer
  returned : (Batch mgr buffer).1.thrown = none ->
    IssuedOnce mgr buffer (Batch mgr buffer).1.commands ∧ (Batch mgr buffer).2 = empty

/-- Everything in the buffer is registered, or something at its first place is not. -/
def Passable (mgr : KeyFieldMgr) (buffer : RedisBuffer) : Prop :=
  (forall address, buffer.valueAt address ≠ none -> mgr.Registered address.iKeyField) ∨
    exists bad, buffer.valueAt bad ≠ none ∧ ¬ mgr.Registered bad.iKeyField ∧
      forall address, buffer.valueAt address ≠ none -> ¬ address.place.before bad.place

theorem valueAt_ne_none_iff {changes : List Change} {address : Address} :
    (buffered changes).valueAt address ≠ none <->
      exists flush field, flush ∈ (buffered changes).flushes ∧ field ∈ flush.fields ∧
        address.place = flush.place ∧ address.iKeyField = field.1 := by
  rw [Option.ne_none_iff_exists']
  constructor
  · intro h
    rcases h with ⟨strValue, hget⟩
    rcases List.mem_flatMap.mp (mem_cells_buffered.mpr hget) with ⟨flush, hflush, hcell⟩
    rcases List.mem_map.mp hcell with ⟨field, hfield, hEq⟩
    have haddress : flush.address field.1 = address := congrArg Prod.fst hEq
    refine ⟨flush, field, hflush, hfield, ?_, ?_⟩
    · rw [← haddress]
      exact place_address hflush hfield
    · rw [← haddress]
      rfl
  · intro h
    rcases h with ⟨flush, field, hflush, hfield, hplace, hkeyField⟩
    refine ⟨field.2, mem_cells_buffered.mp (List.mem_flatMap.mpr ⟨flush, hflush, ?_⟩)⟩
    refine List.mem_map.mpr ⟨field, hfield, Prod.ext ?_ rfl⟩
    have hfirst := congrArg Place.iFirstKey hplace
    have hsecond := congrArg Place.iSecondKey hplace
    unfold Flush.address
    cases address
    cases hfirst
    cases hsecond
    cases hkeyField
    rfl

theorem registered_iff {changes : List Change} {flush : Flush}
    (hflush : flush ∈ (buffered changes).flushes) (mgr : KeyFieldMgr) :
    flush.Registered mgr <-> forall field, field ∈ flush.fields -> mgr.Registered field.1 := by
  have hkey : forall field, field ∈ flush.fields ->
      mgr.FindKey field.1 = mgr.FindKey flush.place.iKey := by
    intro field hfield
    rw [← place_address hflush hfield, ← mgr.findKey_keyOf]
    rfl
  constructor
  · intro h field hfield
    rcases Option.ne_none_iff_exists'.mp h.left with ⟨sKey, hname⟩
    rcases Option.ne_none_iff_exists'.mp (h.right field hfield) with ⟨sField, hfound⟩
    exact ⟨sKey, sField, (hkey field hfield).trans hname, hfound⟩
  · intro h
    rcases exists_field hflush with ⟨field, hfield⟩
    constructor
    · rcases h field hfield with ⟨sKey, _, hname, _⟩
      rw [← hkey field hfield, hname]
      exact Option.some_ne_none sKey
    · intro other hother
      rcases h other hother with ⟨_, sField, _, hfound⟩
      rw [hfound]
      exact Option.some_ne_none sField

theorem issued_eq_nil_iff {mgr : KeyFieldMgr} {buffer : RedisBuffer} :
    buffer.issued mgr = [] <->
      forall flush rest, buffer.flushes = flush :: rest -> ¬ flush.Registered mgr := by
  unfold issued
  cases hlist : buffer.flushes with
  | nil =>
      constructor
      · intro _ flush rest h
        cases h
      · intro _
        rfl
  | cons first later =>
      rw [List.takeWhile_cons]
      constructor
      · intro hnil flush rest hEq hregistered
        cases hEq
        rw [if_pos (decide_eq_true hregistered)] at hnil
        cases hnil
      · intro hfirst
        rw [if_neg]
        rw [decide_eq_true_eq]
        exact hfirst first later rfl

/-- Nothing in the buffer has a place in front of the first flush. -/
theorem not_before_first {changes : List Change} {flush : Flush} {rest : List Flush}
    (hlist : (buffered changes).flushes = flush :: rest) {address : Address}
    (haddress : (buffered changes).valueAt address ≠ none) :
    ¬ address.place.before flush.place := by
  rcases valueAt_ne_none_iff.mp haddress with ⟨other, _, hother, _, hsame, _⟩
  rw [hsame]
  rw [hlist] at hother
  rcases List.mem_cons.mp hother with hEq | hlater
  · rw [hEq]
    exact flush.place.not_before_self
  · have hordered := ordered_flushes (buffered changes)
    rw [hlist] at hordered
    exact Place.not_before_symm (List.rel_of_pairwise_cons hordered hlater)

theorem flushes_registered_iff {mgr : KeyFieldMgr} {changes : List Change} :
    (forall flush, flush ∈ (buffered changes).flushes -> flush.Registered mgr) <->
      forall address, (buffered changes).valueAt address ≠ none ->
        mgr.Registered address.iKeyField := by
  constructor
  · intro h address haddress
    rcases valueAt_ne_none_iff.mp haddress with ⟨flush, field, hflush, hfield, _, hkeyField⟩
    rw [hkeyField]
    exact (registered_iff hflush mgr).mp (h flush hflush) field hfield
  · intro h flush hflush
    apply (registered_iff hflush mgr).mpr
    intro field hfield
    exact h _ (valueAt_ne_none_iff.mpr
      ⟨flush, field, hflush, hfield, place_address hflush hfield, rfl⟩)

theorem first_unregistered_iff {mgr : KeyFieldMgr} {changes : List Change} {flush : Flush}
    {rest : List Flush} (hlist : (buffered changes).flushes = flush :: rest) :
    ¬ flush.Registered mgr <->
      exists bad, (buffered changes).valueAt bad ≠ none ∧ ¬ mgr.Registered bad.iKeyField ∧
        forall address, (buffered changes).valueAt address ≠ none ->
          ¬ address.place.before bad.place := by
  have hflush : flush ∈ (buffered changes).flushes := by
    rw [hlist]
    exact List.mem_cons_self
  constructor
  · intro hbad
    rw [registered_iff hflush] at hbad
    push Not at hbad
    rcases hbad with ⟨field, hfield, hnot⟩
    have hplace := place_address hflush hfield
    refine ⟨flush.address field.1, valueAt_ne_none_iff.mpr
      ⟨flush, field, hflush, hfield, hplace, rfl⟩, hnot, ?_⟩
    intro address haddress
    rw [hplace]
    exact not_before_first hlist haddress
  · rintro ⟨bad, hbad, hnot, hfirst⟩ hregistered
    rcases valueAt_ne_none_iff.mp hbad with ⟨other, field, hother, hfield, hplace, hkeyField⟩
    rw [hlist] at hother
    rcases List.mem_cons.mp hother with hsame | hlater
    · rw [hsame] at hfield
      rw [hkeyField] at hnot
      exact hnot ((registered_iff hflush mgr).mp hregistered field hfield)
    · rcases exists_field hflush with ⟨first, hthere⟩
      have hordered := ordered_flushes (buffered changes)
      rw [hlist] at hordered
      apply hfirst (flush.address first.1) (valueAt_ne_none_iff.mpr
        ⟨flush, first, hflush, hthere, place_address hflush hthere, rfl⟩)
      rw [place_address hflush hthere, hplace]
      exact List.rel_of_pairwise_cons hordered hlater

theorem passable_iff {mgr : KeyFieldMgr} {changes : List Change} :
    Passable mgr (buffered changes) <->
      (forall flush, flush ∈ (buffered changes).flushes -> flush.Registered mgr) ∨
        (buffered changes).issued mgr = [] := by
  unfold Passable
  rw [← flushes_registered_iff, issued_eq_nil_iff]
  cases hlist : (buffered changes).flushes with
  | nil =>
      have hall : forall flush : Flush, flush ∈ [] -> flush.Registered mgr :=
        fun flush hflush => absurd hflush List.not_mem_nil
      exact ⟨fun _ => Or.inl hall, fun _ => Or.inl hall⟩
  | cons first later =>
      rw [← first_unregistered_iff hlist]
      constructor
      · intro h
        refine h.imp_right ?_
        intro hfirst flush rest hEq
        cases hEq
        exact hfirst
      · intro h
        exact h.imp_right (fun hfirst => hfirst first later rfl)

theorem issuedOnce_flushes (mgr : KeyFieldMgr) (changes : List Change) :
    IssuedOnce mgr (buffered changes)
      ((buffered changes).flushes.flatMap (Flush.commands mgr)) :=
  { byPlace :=
      ⟨(buffered changes).flushes, rfl, nodup_places _, nodup_cells_buffered changes,
        fun _ _ => mem_cells_buffered⟩ }

theorem allOrNothing_iff {mgr : KeyFieldMgr} {changes : List Change} :
    AllOrNothing mgr (buffered changes) <-> Passable mgr (buffered changes) := by
  rw [passable_iff]
  by_cases hall : forall flush, flush ∈ (buffered changes).flushes -> flush.Registered mgr
  · constructor
    · intro _
      exact Or.inl hall
    · intro _
      constructor
      · intro hthrown
        rw [Batch_issued, if_pos hall] at hthrown
        exact absurd rfl hthrown
      · intro _
        rw [Batch_issued, if_pos hall]
        exact ⟨issuedOnce_flushes mgr changes, rfl⟩
  · have hcommands : ((buffered changes).issued mgr).flatMap (Flush.commands mgr) = [] <->
        (buffered changes).issued mgr = [] := by
      constructor
      · intro h
        by_contra hne
        rcases List.exists_mem_of_ne_nil _ hne with ⟨flush, hflush⟩
        cases List.flatMap_eq_nil_iff.mp h flush hflush
      · intro h
        rw [h]
        rfl
    constructor
    · intro h
      have hthrown := h.thrown
      rw [Batch_issued, if_neg hall] at hthrown
      exact Or.inr (hcommands.mp (hthrown (Option.some_ne_none _)).left)
    · intro h
      have hnone := h.resolve_left hall
      constructor
      · intro _
        rw [Batch_issued, if_neg hall]
        exact ⟨hcommands.mpr hnone, rfl⟩
      · intro hreturned
        rw [Batch_issued, if_neg hall] at hreturned
        cases hreturned

end RedisBuffer

/-!
# Runs

The changes are numbered in the order in which they are added.  `added` has those since
the buffer was cleared last, `batches` the numbers of those that each batch issued.
-/

namespace BatchRun

structure State where
  m_Buffer : RedisBuffer
  added : List (Nat × Change)
  batches : List (List Nat)
  count : Nat

inductive Action where
  | AddValueChange (change : Change)
  | Batch

def start : State :=
  { m_Buffer := RedisBuffer.empty, added := [], batches := [], count := 0 }

/-- A change is issued with its text; what a later change has replaced is not issued. -/
def issuedNumbers (cells : List (Address × Text)) : List (Nat × Change) -> List Nat
  | [] => []
  | it :: later =>
      if it.2.cell ∈ cells ∧ forall other, other ∈ later -> other.2.address ≠ it.2.address then
        it.1 :: issuedNumbers cells later
      else issuedNumbers cells later

def step (mgr : KeyFieldMgr) (s : State) : Action -> Option State
  | .AddValueChange change =>
      some
        { s with
          m_Buffer := s.m_Buffer.AddValueChange change.i64Key change.iIndex change.iKeyField
            change.strValue,
          added := s.added ++ [(s.count, change)],
          count := s.count + 1 }
  | .Batch =>
      let batch := RedisBuffer.Batch mgr s.m_Buffer
      some
        { s with
          m_Buffer := batch.2,
          added := if batch.1.thrown = none then [] else s.added,
          batches := s.batches ++
            [issuedNumbers ((s.m_Buffer.issued mgr).flatMap Flush.cells) s.added] }

/-- No two batches have issued one change. -/
def IssuedApart (s : State) : Prop := s.batches.Pairwise List.Disjoint

/-- Wherever a batch starts, it can go through or stops before its first command. -/
def BatchesPass (mgr : KeyFieldMgr) (s : State) : Action -> Prop
  | .AddValueChange _ => True
  | .Batch => s.m_Buffer.Passable mgr

structure Inv (s : State) : Prop where
  gathered : s.m_Buffer = buffered (s.added.map Prod.snd)
  numbered : forall it, it ∈ s.added -> it.1 < s.count
  counted : forall numbers, numbers ∈ s.batches -> forall n, n ∈ numbers -> n < s.count

theorem inv_start : Inv start :=
  { gathered := rfl,
    numbered := fun _ h => absurd h List.not_mem_nil,
    counted := fun _ h => absurd h List.not_mem_nil }

theorem mem_issuedNumbers {cells : List (Address × Text)} {list : List (Nat × Change)} {n : Nat}
    (h : n ∈ issuedNumbers cells list) : exists it, it ∈ list ∧ it.1 = n := by
  induction list with
  | nil => cases h
  | cons it later ih =>
      have hlater : n ∈ issuedNumbers cells later ->
          exists other, other ∈ it :: later ∧ other.1 = n := by
        intro hmem
        rcases ih hmem with ⟨other, hother, hnumber⟩
        exact ⟨other, List.mem_cons_of_mem it hother, hnumber⟩
      unfold issuedNumbers at h
      split at h
      · rcases List.mem_cons.mp h with hfirst | hrest
        · exact ⟨it, List.mem_cons_self, hfirst.symm⟩
        · exact hlater hrest
      · exact hlater h

theorem issuedNumbers_nil (list : List (Nat × Change)) : issuedNumbers [] list = [] := by
  induction list with
  | nil => rfl
  | cons it later ih =>
      unfold issuedNumbers
      rw [if_neg (fun h => absurd h.left List.not_mem_nil), ih]

theorem exists_issued {cells : List (Address × Text)} {list : List (Nat × Change)}
    {address : Address} {strValue : Text}
    (hlast : Replay.WrittenLast (list.map (fun it => it.2.cell)) address strValue)
    (hcell : (address, strValue) ∈ cells) : exists n, n ∈ issuedNumbers cells list := by
  induction list with
  | nil =>
      rcases hlast with ⟨earlier, later, hwrites, _⟩
      cases earlier <;> cases hwrites
  | cons it later ih =>
      unfold issuedNumbers
      rw [List.map_cons, Replay.writtenLast_cons] at hlast
      rcases hlast with hlater | ⟨hother, hsame⟩
      · rcases ih hlater with ⟨n, hn⟩
        split
        · exact ⟨n, List.mem_cons_of_mem _ hn⟩
        · exact ⟨n, hn⟩
      · rw [if_pos]
        · exact ⟨it.1, List.mem_cons_self⟩
        · rw [hsame]
          refine ⟨hcell, ?_⟩
          intro other hmem hEq
          apply hother
          rw [List.map_map]
          refine List.mem_map.mpr ⟨other, hmem, ?_⟩
          exact hEq.trans (congrArg Prod.fst hsame)

theorem step_inv {mgr : KeyFieldMgr} {s t : State} {action : Action} (hinv : Inv s)
    (hstep : step mgr s action = some t) : Inv t := by
  cases action with
  | AddValueChange change =>
      cases hstep
      constructor
      · dsimp only
        rw [List.map_append, List.map_singleton, buffered_append, ← hinv.gathered]
      · intro it hit
        rcases List.mem_append.mp hit with hold | hnew
        · exact Nat.lt_succ_of_lt (hinv.numbered it hold)
        · rw [List.mem_singleton.mp hnew]
          exact Nat.lt_succ_self _
      · intro numbers hnumbers n hn
        exact Nat.lt_succ_of_lt (hinv.counted numbers hnumbers n hn)
  | Batch =>
      cases hstep
      constructor
      · dsimp only
        rw [hinv.gathered, RedisBuffer.Batch_issued]
        split
        · rfl
        · rfl
      · intro it hit
        dsimp only at hit
        split at hit
        · cases hit
        · exact hinv.numbered it hit
      · intro numbers hnumbers n hn
        rcases List.mem_append.mp hnumbers with hold | hnew
        · exact hinv.counted numbers hold n hn
        · rw [List.mem_singleton.mp hnew] at hn
          rcases mem_issuedNumbers hn with ⟨it, hit, hnumber⟩
          rw [← hnumber]
          exact hinv.numbered it hit

structure Apart (s : State) : Prop where
  inv : Inv s
  issuedApart : IssuedApart s
  fresh : forall numbers, numbers ∈ s.batches -> forall it, it ∈ s.added -> it.1 ∉ numbers

theorem apart_start : Apart start :=
  { inv := inv_start,
    issuedApart := List.Pairwise.nil,
    fresh := fun _ h => absurd h List.not_mem_nil }

theorem step_apart {mgr : KeyFieldMgr} {s t : State} {action : Action} (hs : Apart s)
    (hpass : BatchesPass mgr s action) (hstep : step mgr s action = some t) : Apart t := by
  have hinv := step_inv hs.inv hstep
  cases action with
  | AddValueChange change =>
      cases hstep
      refine { inv := hinv, issuedApart := hs.issuedApart, fresh := ?_ }
      intro numbers hnumbers it hit hmem
      rcases List.mem_append.mp hit with hold | hnew
      · exact hs.fresh numbers hnumbers it hold hmem
      · rw [List.mem_singleton.mp hnew] at hmem
        exact Nat.lt_irrefl _ (hs.inv.counted numbers hnumbers _ hmem)
  | Batch =>
      cases hstep
      have happend : (s.batches ++
          [issuedNumbers ((s.m_Buffer.issued mgr).flatMap Flush.cells) s.added]).Pairwise
            List.Disjoint := by
        rw [List.pairwise_append]
        refine ⟨hs.issuedApart, List.pairwise_singleton _ _, ?_⟩
        intro numbers hnumbers other hother n hn hissued
        rw [List.mem_singleton.mp hother] at hissued
        rcases mem_issuedNumbers hissued with ⟨it, hit, hnumber⟩
        rw [← hnumber] at hn
        exact hs.fresh numbers hnumbers it hit hn
      refine { inv := hinv, issuedApart := happend, fresh := ?_ }
      have hpassed := hpass
      unfold BatchesPass at hpassed
      rw [hs.inv.gathered, RedisBuffer.passable_iff, ← hs.inv.gathered] at hpassed
      intro numbers hnumbers it hit
      have hthrown : (RedisBuffer.Batch mgr s.m_Buffer).1.thrown ≠ none := by
        intro hnone
        dsimp only at hit
        rw [if_pos hnone] at hit
        cases hit
      dsimp only at hit
      rw [if_neg hthrown] at hit
      have hissued : s.m_Buffer.issued mgr = [] := by
        apply hpassed.resolve_left
        intro hall
        apply hthrown
        rw [hs.inv.gathered] at hall ⊢
        rw [RedisBuffer.Batch_issued, if_pos hall]
      rcases List.mem_append.mp hnumbers with hold | hnew
      · exact hs.fresh numbers hold it hit
      · rw [List.mem_singleton.mp hnew, hissued, List.flatMap_nil, issuedNumbers_nil]
        exact List.not_mem_nil

/-- The numbers of the changes that a batch issues. -/
def issuedBy (mgr : KeyFieldMgr) (s : State) : List Nat :=
  issuedNumbers ((s.m_Buffer.issued mgr).flatMap Flush.cells) s.added

theorem step_stopped {mgr : KeyFieldMgr} {s : State}
    (hbatch : RedisBuffer.Batch mgr s.m_Buffer =
      ({ commands := (s.m_Buffer.issued mgr).flatMap (Flush.commands mgr),
         thrown := some .runtime_error },
        s.m_Buffer)) :
    step mgr s .Batch = some { s with batches := s.batches ++ [issuedBy mgr s] } := by
  unfold step
  rw [hbatch]
  rfl

/-- A batch that stops behind a command issues a change that the next batch issues again. -/
theorem not_issuedApart_of_not_passable {mgr : KeyFieldMgr} {s t : State} (hinv : Inv s)
    (hbad : ¬ s.m_Buffer.Passable mgr)
    (hrun : Transition.Run (step mgr) s [.Batch, .Batch] = some t) : ¬ IssuedApart t := by
  rw [hinv.gathered, RedisBuffer.passable_iff, not_or, ← hinv.gathered] at hbad
  have hbatch : RedisBuffer.Batch mgr s.m_Buffer =
      ({ commands := (s.m_Buffer.issued mgr).flatMap (Flush.commands mgr),
         thrown := some .runtime_error },
        s.m_Buffer) := by
    have hall := hbad.left
    rw [hinv.gathered] at hall ⊢
    rw [RedisBuffer.Batch_issued, if_neg hall]
  have hexists : exists n, n ∈ issuedBy mgr s := by
    rcases List.exists_mem_of_ne_nil _ hbad.right with ⟨flush, hissued⟩
    have hflush : flush ∈ (buffered (s.added.map Prod.snd)).flushes := by
      rw [← hinv.gathered]
      exact List.takeWhile_subset _ hissued
    rcases RedisBuffer.exists_field hflush with ⟨field, hfield⟩
    have hcell : (flush.address field.1, field.2) ∈ flush.cells :=
      List.mem_map.mpr ⟨field, hfield, rfl⟩
    have hvalue := mem_cells_buffered.mp (List.mem_flatMap.mpr ⟨flush, hflush, hcell⟩)
    rw [valueAt_buffered, List.map_map, Replay.replay_eq_some_iff] at hvalue
    rcases hvalue with hlast | ⟨_, hnone⟩
    · exact exists_issued hlast (List.mem_flatMap.mpr ⟨flush, hissued, hcell⟩)
    · cases hnone
  have hagain := step_stopped (s := { s with batches := s.batches ++ [issuedBy mgr s] }) hbatch
  rw [Transition.run_cons_of_step _ (step_stopped hbatch), Transition.run_cons_of_step _ hagain,
    Transition.run_nil] at hrun
  cases hrun
  intro hapart
  rcases hexists with ⟨n, hn⟩
  exact (List.pairwise_append.mp hapart).right.right (issuedBy mgr s)
    (List.mem_append_right _ List.mem_cons_self) (issuedBy mgr s) List.mem_cons_self hn hn

/-- A batch is all or nothing exactly if everything is registered or it stops at once, and
only then can no change be issued twice. -/
theorem batches_all_or_nothing (mgr : KeyFieldMgr) (labels : List Action) :
    Transition.AllStates (step mgr)
        (fun s => s.m_Buffer.AllOrNothing mgr <-> s.m_Buffer.Passable mgr) start labels ∧
      (Transition.AllSteps (step mgr) (BatchesPass mgr) start labels ->
        Transition.AllStates (step mgr) IssuedApart start labels) ∧
      Transition.AllStates (step mgr)
        (fun s => ¬ s.m_Buffer.Passable mgr -> forall t,
          Transition.Run (step mgr) s [.Batch, .Batch] = some t -> ¬ IssuedApart t)
        start labels := by
  have hkeep : forall s action t, Inv s -> True -> step mgr s action = some t -> Inv t :=
    fun s action t hinv _ hstep => step_inv hinv hstep
  have halways : Transition.AllSteps (step mgr) (fun _ _ => True) start labels :=
    Transition.allSteps_of_labels (fun _ _ _ => trivial) start
  refine ⟨?_, ?_, ?_⟩
  · apply Transition.allStates_of_invariant hkeep _ inv_start halways
    intro s hinv
    rw [hinv.gathered]
    exact RedisBuffer.allOrNothing_iff
  · intro hpass
    exact Transition.allStates_of_invariant (fun s action t hs hok hstep => step_apart hs hok hstep)
      (fun s hs => hs.issuedApart) apart_start hpass
  · apply Transition.allStates_of_invariant hkeep _ inv_start halways
    intro s hinv hbad t hrun
    exact not_issuedApart_of_not_passable hinv hbad hrun

/-- A field that is registered, and behind it one that is not. -/
def halfRegistered : List Change :=
  [{ i64Key := 5, iIndex := 0, iKeyField := 0x101, strValue := "\"ab\"".toList },
    { i64Key := 6, iIndex := 0, iKeyField := 0x102, strValue := "7".toList }]

/-- The first change has been issued when the second one throws, and again by the next batch. -/
theorem halfRegistered_issued_twice :
    ¬ RedisBuffer.AllOrNothing nameOnlyMgr (buffered halfRegistered) ∧
      exists t, Transition.Run (step nameOnlyMgr) start
          (halfRegistered.map Action.AddValueChange ++ [.Batch, .Batch]) = some t ∧
        t.batches = [[0], [0]] := by
  constructor
  · intro h
    have hthrown : (RedisBuffer.Batch nameOnlyMgr (buffered halfRegistered)).1.thrown ≠ none := by
      decide
    have hcommands := (h.thrown hthrown).left
    revert hcommands
    decide
  · exact ⟨_, rfl, by decide⟩

end BatchRun

end DataHandle
end GMServer
