import GMServer.DataHandle.RedisAdapter

/-!
# What is published arrives in the store

If the names and the texts are words, `PubAndSet` does to the hashes of the store what
the changes do that have gathered in the buffer.
-/

namespace GMServer
namespace DataHandle
namespace RedisAdapter

open Std

/-!
# Commands of words
-/

theorem isWord_of_clean {text : Text} (hclean : Clean text) (hne : text ≠ []) : IsWord text :=
  ⟨plain_of_clean hclean, not_mem_of_clean hclean rfl, hne⟩

theorem isWord_publishFields {fields : List (uint32_t × Text)}
    (hfields : forall field, field ∈ fields -> IsWord field.2) :
    IsWord ('|' :: publishFields fields) := by
  induction fields with
  | nil => decide
  | cons field fields ih =>
      have hrest := ih (fun other h => hfields other (List.mem_cons_of_mem field h))
      have hfield := hfields field List.mem_cons_self
      rw [publishFields_cons]
      exact IsWord.cons (by decide)
        ((isWord_decimal _).join (by decide) (hfield.append hrest))

theorem isWord_syncPayload {fields : List (uint32_t × Text)}
    (hfields : forall field, field ∈ fields -> IsWord field.2)
    (iFirstKey iSecondKey : uint64_t) :
    IsWord (RedisBuffer.syncPayload iFirstKey iSecondKey (publishFields fields)) := by
  have hmark : IsWord "S|".toList := by decide
  unfold RedisBuffer.syncPayload
  rw [List.append_assoc]
  exact hmark.append ((isWord_decimal _).join (by decide)
    ((isWord_decimal _).append (isWord_publishFields hfields)))

theorem format_word_space {word : Text} (hword : IsWord word) :
    formatFrom [] false (cStr (word ++ [' '])) = some [word] := by
  have hfree : '\x00' ∉ word ++ [' '] := by
    rw [List.mem_append, not_or]
    exact ⟨hword.right.left, by decide⟩
  rw [cStr_eq_self hfree, formatFrom_word_space hword.left hword.right.right]
  rfl

theorem format_change (flush : Flush) :
    redisvFormatCommand flush.change =
      (formatFrom [] false (cStr (RedisBuffer.syncPayload flush.place.iFirstKey
          flush.place.iSecondKey (publishFields flush.fields)))).map (fun args =>
        "publish".toList :: Text.decimal flush.place.iKey.toNat :: args) :=
  format_publishText _ _

def pairWords (pairs : List (Text × Text)) : List Text :=
  pairs.flatMap (fun pair => [pair.1, pair.2])

theorem pairUp_pairWords (pairs : List (Text × Text)) :
    HashWrite.pairUp (pairWords pairs) = some pairs := by
  induction pairs with
  | nil => rfl
  | cons pair pairs ih =>
      show (HashWrite.pairUp (pairWords pairs)).map ((pair.1, pair.2) :: ·) = _
      rw [ih]
      rfl

theorem isWord_pairWords {pairs : List (Text × Text)}
    (hwords : forall pair, pair ∈ pairs -> IsWord pair.1 ∧ IsWord pair.2) (word : Text)
    (hword : word ∈ pairWords pairs) : IsWord word := by
  rcases List.mem_flatMap.mp hword with ⟨pair, hpair, hpart⟩
  rcases hwords pair hpair with ⟨hone, htwo⟩
  rcases List.mem_cons.mp hpart with hfirst | hsecond
  · rw [hfirst]
    exact hone
  · rw [List.mem_singleton.mp hsecond]
    exact htwo

theorem text_eq_commandText (write : HashWrite) :
    write.text = commandText ("HMSET".toList :: write.hash :: pairWords write.pairs) := by
  have hpairs : forall pairs, HashWrite.pairsText pairs = commandText (pairWords pairs) := by
    intro pairs
    induction pairs with
    | nil => rfl
    | cons pair pairs ih =>
        show (pair.1 ++ ' ' :: (pair.2 ++ [' '])) ++ HashWrite.pairsText pairs =
          commandText (pair.1 :: pair.2 :: pairWords pairs)
        rw [commandText_cons, commandText_cons, ih]
        simp only [List.append_assoc, List.cons_append, List.nil_append]
  rw [commandText_cons, commandText_cons, ← hpairs]
  rfl

def WordWrite (write : HashWrite) : Prop :=
  IsWord write.hash ∧ forall pair, pair ∈ write.pairs -> IsWord pair.1 ∧ IsWord pair.2

theorem format_hashWrite {write : HashWrite} (hwords : WordWrite write) :
    redisvFormatCommand write.text =
      some ("HMSET".toList :: write.hash :: pairWords write.pairs) := by
  have hcommand : IsWord "HMSET".toList := by decide
  have hargs : forall word, word ∈ write.hash :: pairWords write.pairs -> IsWord word :=
    List.forall_mem_cons.mpr ⟨hwords.left, isWord_pairWords hwords.right⟩
  rw [text_eq_commandText]
  exact format_words (List.forall_mem_cons.mpr ⟨hcommand, hargs⟩)

/-!
# The hashes of a store

A hash of another type refuses every write and shows no field.
-/

def hashesOf (store : RedisStore) : HashStore :=
  fun cell => (fieldsOf (store cell.1)).bind (fun fields => fields cell.2)

def applyWrite (store : RedisStore) (write : HashWrite) : RedisStore :=
  (hmset store write.hash (pairWords write.pairs)).1

theorem typed_applyWrite (store : RedisStore) (write : HashWrite) (name : Text) :
    fieldsOf (applyWrite store write name) = none <-> fieldsOf (store name) = none := by
  unfold applyWrite hmset
  split
  · rename_i pair pairs fields _ hfields
    dsimp only
    by_cases hname : name = write.hash
    · rw [hname, Function.update_self, hfields]
      exact iff_of_false (Option.some_ne_none _) (Option.some_ne_none _)
    · rw [Function.update_of_ne hname]
  · exact Iff.rfl

theorem replay_hash (hashes : HashStore) (hash : Text) (pairs : List (Text × Text))
    (cell : Text × Text) :
    Replay.replay hashes (pairs.map (fun pair => ((hash, pair.1), pair.2))) cell =
      if cell.1 = hash then Replay.replay (fun name => hashes (hash, name)) pairs cell.2
      else hashes cell := by
  induction pairs generalizing hashes with
  | nil =>
      by_cases hhash : cell.1 = hash
      · rw [if_pos hhash, ← hhash]
        rfl
      · rw [if_neg hhash]
        rfl
  | cons pair pairs ih =>
      rw [List.map_cons, Replay.replay_cons, ih, Replay.replay_cons]
      dsimp only
      by_cases hhash : cell.1 = hash
      · rw [if_pos hhash, if_pos hhash]
        congr 1
        funext name
        by_cases hname : name = pair.1
        · rw [hname, Function.update_self, Function.update_self]
        · have hne : (hash, name) ≠ (hash, pair.1) := fun h => hname (congrArg Prod.snd h)
          rw [Function.update_of_ne hne, Function.update_of_ne hname]
      · have hne : cell ≠ (hash, pair.1) := fun h => hhash (congrArg Prod.fst h)
        rw [if_neg hhash, if_neg hhash, Function.update_of_ne hne]

theorem hashesOf_applyWrite {store : RedisStore} (write : HashWrite) {cell : Text × Text}
    (htyped : fieldsOf (store cell.1) ≠ none) :
    hashesOf (applyWrite store write) cell = write.applyTo (hashesOf store) cell := by
  unfold HashWrite.applyTo HashWrite.cells
  rw [replay_hash]
  unfold applyWrite hmset hashesOf
  rw [pairUp_pairWords]
  by_cases hhash : cell.1 = write.hash
  · rw [if_pos hhash]
    rw [hhash] at htyped ⊢
    rcases Option.ne_none_iff_exists'.mp htyped with ⟨fields, hfields⟩
    rw [hfields]
    cases hpairs : write.pairs with
    | nil =>
        dsimp only
        rw [hfields]
        rfl
    | cons pair pairs =>
        dsimp only
        rw [Function.update_self]
        show Replay.replay fields (pair :: pairs) cell.2 = Replay.replay
          (fun name => (fieldsOf (store write.hash)).bind (fun fields => fields name))
          (pair :: pairs) cell.2
        rw [hfields]
        rfl
  · rw [if_neg hhash]
    split
    · dsimp only
      rw [Function.update_of_ne hhash]
    · rfl

theorem typed_foldl_applyWrite (store : RedisStore) (writes : List HashWrite) (name : Text) :
    fieldsOf (writes.foldl applyWrite store name) = none <-> fieldsOf (store name) = none := by
  induction writes generalizing store with
  | nil => exact Iff.rfl
  | cons write writes ih =>
      rw [List.foldl_cons, ih]
      exact typed_applyWrite store write name

theorem hashesOf_foldl_applyWrite {store : RedisStore} (writes : List HashWrite)
    {cell : Text × Text} (htyped : fieldsOf (store cell.1) ≠ none) :
    hashesOf (writes.foldl applyWrite store) cell =
      writes.foldl HashWrite.applyTo (hashesOf store) cell := by
  rw [HashWrite.foldl_applyTo, Replay.replay_eq_or]
  induction writes generalizing store with
  | nil => rfl
  | cons write writes ih =>
      have hnext : fieldsOf (applyWrite store write cell.1) ≠ none :=
        fun h => htyped ((typed_applyWrite store write cell.1).mp h)
      rw [List.foldl_cons, ih hnext, hashesOf_applyWrite write htyped, List.flatMap_cons,
        Replay.replay_append, Replay.replay_eq_or (Replay.replay _ _)]
      unfold HashWrite.applyTo
      rw [Replay.replay_eq_or (hashesOf store), Option.or_assoc]

/-!
# The batch
-/

section Batch

variable {world pointer : Type}

theorem executeAll_append (server : RedisServer world) (state : world)
    (first second : List Text) :
    RedisWrap.executeAll server state (first ++ second) =
      (RedisWrap.executeAll server state first).bind (fun next =>
        RedisWrap.executeAll server next second) := by
  induction first generalizing state with
  | nil => rfl
  | cons strCmd first ih =>
      rw [List.cons_append, RedisWrap.executeAll, RedisWrap.executeAll, Option.bind_assoc]
      congr 1
      funext next
      exact ih next

variable {server : RedisServer RedisStore} {mgr : KeyFieldMgr}

theorem executeAll_flush (hserver : HashCommands server) {flush : Flush}
    (hwrite : WordWrite (flush.hashWrite mgr))
    (hfields : forall field, field ∈ flush.fields -> IsWord field.2) (store : RedisStore) :
    RedisWrap.executeAll server store (flush.commands mgr) =
      some (applyWrite store (flush.hashWrite mgr)) := by
  unfold Flush.commands RedisWrap.executeAll RedisWrap.executeAll RedisWrap.executeAll
    RedisWrap.Execute RedisWrap.DoCmd
  rw [format_hashWrite hwrite, format_change, format_word (isWord_syncPayload hfields _ _)]
  simp only [Option.map_some, Option.bind_some]
  rw [hserver.publish, hserver.hmset]
  rfl

theorem executeAll_flushes (hserver : HashCommands server) {flushes : List Flush}
    (hflushes : forall flush, flush ∈ flushes -> WordWrite (flush.hashWrite mgr) ∧
      forall field, field ∈ flush.fields -> IsWord field.2) (store : RedisStore) :
    RedisWrap.executeAll server store (flushes.flatMap (Flush.commands mgr)) =
      some ((flushes.map (Flush.hashWrite mgr)).foldl applyWrite store) := by
  induction flushes generalizing store with
  | nil => rfl
  | cons flush flushes ih =>
      rcases hflushes flush List.mem_cons_self with ⟨hwrite, hfields⟩
      rw [List.flatMap_cons, executeAll_append, executeAll_flush hserver hwrite hfields,
        Option.bind_some, ih (fun other h => hflushes other (List.mem_cons_of_mem flush h))]
      rfl

theorem isWord_hashName {sKey : Text} (hword : IsWord sKey) (iFirstKey iSecondKey : uint64_t) :
    IsWord (RedisBuffer.hashName sKey iFirstKey iSecondKey) := by
  unfold RedisBuffer.hashName
  split
  · split
    · exact hword.join (by decide) ((isWord_decimal _).join (by decide) (isWord_decimal _))
    · rw [List.append_nil]
      exact hword.join (by decide) (isWord_decimal _)
  · exact hword

/-- A change of a registered field to a text that is a word. -/
def WordChange (mgr : KeyFieldMgr) (change : Change) : Prop :=
  change.address.Named mgr ∧ IsWord change.strValue

/-- After `PubAndSet` every field holds the last of its changes, or what it held before,
unless its hash is of another type. -/
theorem pubAndSet_changes (hserver : HashCommands server) (hwords : WordNames mgr)
    (hnames : DistinctNames mgr) {adapter : RedisAdapter pointer} {changes : List Change}
    (hbuffer : adapter.m_Buffer = buffered changes)
    (hchanges : forall change, change ∈ changes -> WordChange mgr change) (store : RedisStore) :
    exists next, adapter.PubAndSet server mgr store =
        some (next, none, { adapter with m_Buffer := RedisBuffer.empty }) ∧
      (forall name, fieldsOf (next name) = none <-> fieldsOf (store name) = none) ∧
      forall address, address.Named mgr ->
        fieldsOf (store (address.cellName mgr).1) ≠ none ->
        hashesOf next (address.cellName mgr) =
          (adapter.m_Buffer.valueAt address).or (hashesOf store (address.cellName mgr)) := by
  have hregistered : forall change, change ∈ changes -> mgr.Registered change.iKeyField :=
    fun change hmem => (hchanges change hmem).left.left
  have hflushes : forall flush, flush ∈ (buffered changes).flushes ->
      WordWrite (flush.hashWrite mgr) ∧ forall field, field ∈ flush.fields -> IsWord field.2 := by
    intro flush hflush
    have hfield : forall field, field ∈ flush.fields ->
        IsWord (mgr.fieldName field.1) ∧ IsWord field.2 := by
      intro field hmem
      rcases change_of_field hflush hmem with ⟨change, hchange, hkeyField, hvalue⟩
      rw [← hkeyField, ← hvalue]
      exact ⟨hwords.fields _ _
        (KeyFieldMgr.names_of_registered (hregistered change hchange)).right,
        (hchanges change hchange).right⟩
    rcases place_mem_flushes_iff.mp (List.mem_map.mpr ⟨flush, hflush, rfl⟩) with
      ⟨change, hchange, hplace⟩
    have hkey := (KeyFieldMgr.names_of_registered (hregistered change hchange)).left
    refine ⟨⟨?_, ?_⟩, fun field hmem => (hfield field hmem).right⟩
    · apply isWord_hashName
      rw [← hplace]
      show IsWord (mgr.keyName (keyOf change.iKeyField))
      rw [mgr.keyName_keyOf]
      exact hwords.keys _ _ hkey
    · intro pair hpair
      rcases List.mem_map.mp hpair with ⟨field, hmem, hEq⟩
      rw [← hEq]
      exact hfield field hmem
  refine ⟨((buffered changes).flushes.map (Flush.hashWrite mgr)).foldl applyWrite store,
    ?_, typed_foldl_applyWrite store _, ?_⟩
  · unfold PubAndSet
    rw [hbuffer, Batch_buffered hregistered]
    dsimp only
    rw [executeAll_flushes hserver hflushes]
    rfl
  · intro address hnamed htyped
    have hall : forall change, change ∈ changes -> change.address.Named mgr :=
      fun change hmem => (hchanges change hmem).left
    rw [hashesOf_foldl_applyWrite _ htyped, replay_buffered hnames hall, hbuffer,
      valueAt_buffered, HashWrite.foldl_applyTo, cells_changes, Replay.replay_rename,
      Replay.replay_eq_or]
    intro other hother hEq
    exact cellName_injective hnames (named_of_cells hall hother) hnamed hEq

end Batch

end RedisAdapter
end DataHandle
end GMServer
