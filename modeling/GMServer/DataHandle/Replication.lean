import GMServer.Library.Transition
import GMServer.DataHandle.BatchRuns
import GMServer.DataHandle.ReadBack
import GMServer.DataHandle.StructRegistry

/-!
# Following the changes

Any number of adapters write to one Redis.  `PubAndSet` hands its commands over one by
one, so that those of several adapters mix.  A subscriber of every channel hears of a
change when it is published, behind the `HMSET` that carries it.
-/

namespace GMServer
namespace DataHandle
namespace Replication

open Std
open RedisAdapter
open Transition

/-!
# States and steps
-/

/-- An adapter, with the commands of its `PubAndSet` that have not been executed. -/
structure Writer (pointer : Type) where
  adapter : RedisAdapter pointer
  commands : List Text

structure State (pointer writer : Type) where
  store : RedisStore
  writers : writer -> Writer pointer
  events : List RedisSyncData

inductive Action (writer : Type) where
  | SetValue (w : writer) (iKey : uint64_t) (iKeyField : uint32_t) (strValue : Text)
  | SetIndexValue (w : writer) (iKey iIndex : uint64_t) (iKeyField : uint32_t)
      (strValue : Text)
  | PubAndSet (w : writer)
  | Execute (w : writer)

/-- What is heard of a command; what cannot be parsed is dropped. -/
def heard (strCmd : Text) : List RedisSyncData :=
  match receive strCmd with
  | some (.ok (some data)) => [data]
  | _ => []

section

variable {pointer writer : Type}

def start (store : RedisStore) : State pointer writer :=
  { store := store,
    writers := fun _ => { adapter := RedisAdapter.empty, commands := [] },
    events := [] }

variable [DecidableEq writer]

def State.setWriter (s : State pointer writer) (w : writer) (next : Writer pointer) :
    State pointer writer :=
  { s with writers := Function.update s.writers w next }

theorem State.writers_self (s : State pointer writer) (w : writer) (next : Writer pointer) :
    (s.setWriter w next).writers w = next :=
  Function.update_self ..

theorem State.writers_of_ne (s : State pointer writer) {v w : writer} (next : Writer pointer)
    (hne : v ≠ w) : (s.setWriter w next).writers v = s.writers v :=
  Function.update_of_ne hne ..

/-- An adapter is not used from elsewhere while its `PubAndSet` runs. -/
def step (server : RedisServer RedisStore) (mgr : KeyFieldMgr) (s : State pointer writer) :
    Action writer -> Option (State pointer writer)
  | .SetValue w iKey iKeyField strValue =>
      if (s.writers w).commands = [] then
        some (s.setWriter w
          { adapter := (s.writers w).adapter.SetValue iKey iKeyField strValue,
            commands := [] })
      else none
  | .SetIndexValue w iKey iIndex iKeyField strValue =>
      if (s.writers w).commands = [] then
        some (s.setWriter w
          { adapter := (s.writers w).adapter.SetIndexValue iKey iIndex iKeyField strValue,
            commands := [] })
      else none
  | .PubAndSet w =>
      if (s.writers w).commands = [] then
        let batch := RedisBuffer.Batch mgr (s.writers w).adapter.m_Buffer
        some (s.setWriter w
          { adapter := { (s.writers w).adapter with m_Buffer := batch.2 },
            commands := batch.1.commands })
      else none
  | .Execute w =>
      match (s.writers w).commands with
      | [] => none
      | strCmd :: rest =>
          (RedisWrap.Execute server s.store strCmd).map (fun store =>
            { s.setWriter w { s.writers w with commands := rest } with
              store := store,
              events := s.events ++ heard strCmd })

end

/-!
# What the events make
-/

def eventCells (data : RedisSyncData) : List (Address × Text) :=
  match data.eType with
  | .eSet => data.mValue.toList.map (fun field =>
      ({ iFirstKey := data.Firstkey, iSecondKey := data.SecondKey, iKeyField := field.1 },
        field.2))
  | _ => []

/-- The last text of each address that has been heard of. -/
def mirror (events : List RedisSyncData) : Replay.Store Address Text :=
  Replay.replay (fun _ => none) (events.flatMap eventCells)

theorem mirror_append (events : List RedisSyncData) (data : RedisSyncData) :
    mirror (events ++ [data]) = Replay.replay (mirror events) (eventCells data) := by
  unfold mirror
  rw [List.flatMap_append, Replay.replay_append, List.flatMap_singleton]

/-- The addresses that are published next. -/
def unpublished {pointer : Type} (it : Writer pointer) : List Address :=
  match it.commands with
  | [] => []
  | strCmd :: _ => ((heard strCmd).flatMap eventCells).map Prod.fst

/-!
# Changes that can be followed

An address has one adapter that writes it.
-/

section Owned

variable {writer : Type}

structure Sound (mgr : KeyFieldMgr) (owner : Address -> writer) (w : writer)
    (change : Change) : Prop where
  owned : owner change.address = w
  named : change.address.Named mgr
  small : change.iKeyField.toNat < 2 ^ 31
  clean : Clean change.strValue
  filled : change.strValue ≠ []

def Action.Sound (mgr : KeyFieldMgr) (owner : Address -> writer) : Action writer -> Prop
  | .SetValue w iKey iKeyField strValue =>
      Replication.Sound mgr owner w
        { i64Key := iKey, iIndex := 0, iKeyField := iKeyField, strValue := strValue }
  | .SetIndexValue w iKey _ iKeyField strValue =>
      Replication.Sound mgr owner w
        { i64Key := iKey, iIndex := 0, iKeyField := iKeyField, strValue := strValue }
  | .PubAndSet _ => True
  | .Execute _ => True

/-- What is flushed for one place can be stored and published. -/
structure Ready (mgr : KeyFieldMgr) (owner : Address -> writer) (w : writer) (flush : Flush) :
    Prop where
  words : WordWrite (flush.hashWrite mgr)
  fields : exists mValue : ExtTreeMap uint32_t Text, mValue ≠ ∅ ∧ flush.fields = mValue.toList
  small : flush.place.iKey.toNat < 2 ^ 31
  sendable : forall field, field ∈ flush.fields ->
    field.1.toNat < 2 ^ 31 ∧ Clean field.2 ∧ field.2 ≠ []
  owned : forall address, address ∈ flush.cells.map Prod.fst ->
    owner address = w ∧ address.Named mgr
  renamed : (flush.hashWrite mgr).cells = Replay.rename (Address.cellName mgr) flush.cells

theorem keyOf_le (iKeyField : uint32_t) : (keyOf iKeyField).toNat ≤ iKeyField.toNat := by
  unfold keyOf
  rw [BitVec.toNat_and]
  exact Nat.and_le_left

theorem change_of_cell {changes : List Change} {flush : Flush}
    (hflush : flush ∈ (buffered changes).flushes) {field : uint32_t × Text}
    (hfield : field ∈ flush.fields) :
    exists change, change ∈ changes ∧ change.address = flush.address field.1 ∧
      change.strValue = field.2 := by
  rcases RedisBuffer.mem_flushes.mp hflush with ⟨mapField, hplace, hfields⟩
  rw [hfields] at hfield
  rcases change_of_fieldsAt hplace (ExtTreeMap.mem_toList_iff_getElem?_eq_some.mp hfield) with
    ⟨change, hmem, hchange, hkeyField, hvalue⟩
  refine ⟨change, hmem, ?_, hvalue⟩
  unfold Flush.address
  rw [← hchange, ← hkeyField]
  rfl

theorem ready_of_sound {mgr : KeyFieldMgr} {owner : Address -> writer} {w : writer}
    (hwords : WordNames mgr) {changes : List Change}
    (hsound : forall change, change ∈ changes -> Sound mgr owner w change) {flush : Flush}
    (hflush : flush ∈ (buffered changes).flushes) : Ready mgr owner w flush := by
  rcases RedisBuffer.mem_flushes.mp hflush with ⟨mapField, _, hlist⟩
  rcases RedisBuffer.exists_field hflush with ⟨first, hfirst⟩
  rcases change_of_cell hflush hfirst with ⟨change, hchange, haddress, _⟩
  have hplace : change.address.place = flush.place := by
    rw [haddress]
    exact place_address hflush hfirst
  have hkey : keyOf change.iKeyField = flush.place.iKey := congrArg Place.iKey hplace
  constructor
  · constructor
    · have hfound := KeyFieldMgr.names_of_registered (hsound change hchange).named.left
      apply isWord_hashName
      rw [← hkey, mgr.keyName_keyOf]
      exact hwords.keys _ _ hfound.left
    · intro pair hpair
      rcases List.mem_map.mp hpair with ⟨field, hfield, hEq⟩
      rcases change_of_cell hflush hfield with ⟨other, hother, hsame, hvalue⟩
      have hkeyField : other.iKeyField = field.1 := congrArg Address.iKeyField hsame
      have hfound := KeyFieldMgr.names_of_registered (hsound other hother).named.left
      rw [← hEq]
      constructor
      · rw [← hkeyField]
        exact hwords.fields _ _ hfound.right
      · rw [← hvalue]
        exact isWord_of_clean (hsound other hother).clean (hsound other hother).filled
  · refine ⟨mapField, ?_, hlist⟩
    intro hempty
    rw [hlist, hempty, ExtTreeMap.toList_eq_nil_iff.mpr rfl] at hfirst
    cases hfirst
  · rw [← hkey]
    exact Nat.lt_of_le_of_lt (keyOf_le _) (hsound change hchange).small
  · intro field hfield
    rcases change_of_cell hflush hfield with ⟨other, hother, hsame, hvalue⟩
    have hkeyField : other.iKeyField = field.1 := congrArg Address.iKeyField hsame
    rw [← hkeyField, ← hvalue]
    exact ⟨(hsound other hother).small, (hsound other hother).clean,
      (hsound other hother).filled⟩
  · intro address hmem
    rw [keys_cells, List.map_map] at hmem
    rcases List.mem_map.mp hmem with ⟨field, hfield, hEq⟩
    rcases change_of_cell hflush hfield with ⟨other, hother, hsame, _⟩
    rw [← hEq]
    show owner (flush.address field.1) = w ∧ (flush.address field.1).Named mgr
    rw [← hsame]
    exact ⟨(hsound other hother).owned, (hsound other hother).named⟩
  · exact cells_hashWrite hflush

end Owned

/-!
# One flush

Between its two commands the store is ahead of what has been heard.
-/

section Flush

variable {writer : Type} {mgr : KeyFieldMgr} {owner : Address -> writer} {w : writer}

theorem heard_write {write : HashWrite} (hwords : WordWrite write) : heard write.text = [] := by
  have hnothing : receive write.text = none := by
    unfold receive
    rw [format_hashWrite hwords]
    cases pairWords write.pairs with
    | nil => rfl
    | cons first rest =>
        cases rest with
        | nil => rfl
        | cons second rest => rfl
  unfold heard
  rw [hnothing]

/-- The change that a flush publishes. -/
def flushedChange (flush : Flush) (mValue : ExtTreeMap uint32_t Text) : RedisSyncData :=
  { eType := .eSet, RedisKey := flush.place.iKey, Firstkey := flush.place.iFirstKey,
    SecondKey := flush.place.iSecondKey, mValue := mValue }

theorem heard_change {flush : Flush} (hready : Ready mgr owner w flush) :
    exists data, heard flush.change = [data] ∧ eventCells data = flush.cells := by
  rcases hready.fields with ⟨mValue, hne, hfields⟩
  have hsurvives : Survives flush.change (flushedChange flush mValue) := by
    unfold Flush.change
    rw [hfields]
    apply survives_of_clean hready.small _ _ hne
    intro field hfield
    rw [← hfields] at hfield
    exact hready.sendable field hfield
  refine ⟨flushedChange flush mValue, ?_, ?_⟩
  · unfold heard
    rw [hsurvives]
  · unfold eventCells Flush.cells
    rw [hfields]
    rfl

theorem nodup_cells {flush : Flush} (hready : Ready mgr owner w flush) :
    (flush.cells.map Prod.fst).Nodup := by
  rcases hready.fields with ⟨mValue, _, hfields⟩
  rw [keys_cells, hfields]
  apply List.Nodup.map _ (SortedMap.nodup_keys mValue)
  intro one two hEq
  exact congrArg Address.iKeyField hEq

/-- What an `HMSET` leaves of a field: its text if it carries one. -/
theorem hashesOf_flush (hnames : DistinctNames mgr) {flush : Flush}
    (hready : Ready mgr owner w flush) {store : RedisStore} {address : Address}
    (hnamed : address.Named mgr) (htyped : fieldsOf (store (address.cellName mgr).1) ≠ none) :
    hashesOf (applyWrite store (flush.hashWrite mgr)) (address.cellName mgr) =
      (Replay.replay (fun _ => none) flush.cells address).or
        (hashesOf store (address.cellName mgr)) := by
  rw [hashesOf_applyWrite _ htyped]
  unfold HashWrite.applyTo
  rw [hready.renamed, Replay.replay_rename, Replay.replay_eq_or]
  intro other hother hEq
  exact cellName_injective hnames (hready.owned other hother).right hnamed hEq

theorem execute_write {server : RedisServer RedisStore} (hserver : HashCommands server)
    {flush : Flush} (hready : Ready mgr owner w flush) (store : RedisStore) :
    RedisWrap.Execute server store (flush.hashWrite mgr).text =
      some (applyWrite store (flush.hashWrite mgr)) := by
  unfold RedisWrap.Execute RedisWrap.DoCmd
  rw [format_hashWrite hready.words, Option.map_some, Option.map_some, hserver.hmset]
  rfl

theorem execute_change {server : RedisServer RedisStore} (hserver : HashCommands server)
    {flush : Flush} (hready : Ready mgr owner w flush) (store : RedisStore) :
    RedisWrap.Execute server store flush.change = some store := by
  have hfields : forall field, field ∈ flush.fields -> IsWord field.2 :=
    fun field hfield => isWord_of_clean (hready.sendable field hfield).right.left
      (hready.sendable field hfield).right.right
  unfold RedisWrap.Execute RedisWrap.DoCmd
  rw [format_change, format_word (isWord_syncPayload hfields _ _)]
  simp only [Option.map_some]
  rw [hserver.publish]

end Flush

/-!
# The invariant

What is still to be executed is a list of flushes, the first of which may have come as
far as its `HMSET`.
-/

section Inv

variable {pointer writer : Type}

inductive Progress (mgr : KeyFieldMgr) (owner : Address -> writer) (store : RedisStore)
    (w : writer) (commands : List Text) : Prop where
  | whole {flushes : List Flush} (commands : commands = flushes.flatMap (Flush.commands mgr))
      (ready : forall flush, flush ∈ flushes -> Ready mgr owner w flush)
  | half {first : Flush} {flushes : List Flush}
      (commands : commands = first.change :: flushes.flatMap (Flush.commands mgr))
      (ready : forall flush, flush ∈ first :: flushes -> Ready mgr owner w flush)
      (stored : forall cell, cell ∈ first.cells ->
        fieldsOf (store (cell.1.cellName mgr).1) ≠ none ->
          hashesOf store (cell.1.cellName mgr) = some cell.2)

structure WriterInv (mgr : KeyFieldMgr) (owner : Address -> writer) (store : RedisStore)
    (w : writer) (it : Writer pointer) : Prop where
  gathered : exists changes, it.adapter.m_Buffer = buffered changes ∧
    forall change, change ∈ changes -> Sound mgr owner w change
  progress : Progress mgr owner store w it.commands

/-- Redis has what was heard last, and what it had before where nothing was heard. -/
def Follows (mgr : KeyFieldMgr) (store : RedisStore) (s : State pointer writer) : Prop :=
  forall address : Address, address.Named mgr ->
    fieldsOf (store (address.cellName mgr).1) ≠ none ->
    (forall w, address ∉ unpublished (s.writers w)) ->
      hashesOf s.store (address.cellName mgr) =
        (mirror s.events address).or (hashesOf store (address.cellName mgr))

structure Inv (mgr : KeyFieldMgr) (owner : Address -> writer) (store : RedisStore)
    (s : State pointer writer) : Prop where
  writers : forall w, WriterInv mgr owner s.store w (s.writers w)
  typed : forall name, fieldsOf (s.store name) = none <-> fieldsOf (store name) = none
  follows : Follows mgr store s

theorem progress_idle (mgr : KeyFieldMgr) (owner : Address -> writer) (store : RedisStore)
    (w : writer) : Progress mgr owner store w [] :=
  @Progress.whole _ _ _ _ _ _ [] rfl (fun _ h => absurd h List.not_mem_nil)

theorem inv_start (mgr : KeyFieldMgr) (owner : Address -> writer) (store : RedisStore) :
    Inv mgr owner store (start store : State pointer writer) := by
  constructor
  · intro w
    exact ⟨⟨[], rfl, fun _ h => absurd h List.not_mem_nil⟩, progress_idle mgr owner store w⟩
  · intro name
    exact Iff.rfl
  · intro address _ _ _
    rfl

theorem unpublished_nil {it : Writer pointer} (h : it.commands = []) : unpublished it = [] := by
  unfold unpublished
  rw [h]

theorem unpublished_whole {mgr : KeyFieldMgr} {owner : Address -> writer} {w : writer}
    {it : Writer pointer} {flushes : List Flush}
    (hcommands : it.commands = flushes.flatMap (Flush.commands mgr))
    (hready : forall flush, flush ∈ flushes -> Ready mgr owner w flush) :
    unpublished it = [] := by
  unfold unpublished
  rw [hcommands]
  cases flushes with
  | nil => rfl
  | cons flush flushes =>
      show ((heard (flush.hashWrite mgr).text).flatMap eventCells).map Prod.fst = []
      rw [heard_write (hready flush List.mem_cons_self).words]
      rfl

theorem unpublished_half {mgr : KeyFieldMgr} {owner : Address -> writer} {w : writer}
    {it : Writer pointer} {first : Flush} {rest : List Text}
    (hcommands : it.commands = first.change :: rest) (hready : Ready mgr owner w first) :
    unpublished it = first.cells.map Prod.fst := by
  rcases heard_change hready with ⟨data, hheard, hcells⟩
  unfold unpublished
  rw [hcommands]
  show ((heard first.change).flatMap eventCells).map Prod.fst = _
  rw [hheard, List.flatMap_singleton, hcells]

/-- Writes to addresses of others do not disturb an adapter. -/
theorem Progress.keep {mgr : KeyFieldMgr} {owner : Address -> writer} {store next : RedisStore}
    {w : writer} {commands : List Text} (h : Progress mgr owner store w commands)
    (htyped : forall name, fieldsOf (next name) = none <-> fieldsOf (store name) = none)
    (hkeep : forall address : Address, owner address = w -> address.Named mgr ->
      fieldsOf (store (address.cellName mgr).1) ≠ none ->
        hashesOf next (address.cellName mgr) = hashesOf store (address.cellName mgr)) :
    Progress mgr owner next w commands := by
  cases h with
  | whole hcommands hready => exact .whole hcommands hready
  | half hcommands hready hstored =>
      refine .half hcommands hready ?_
      intro cell hcell hthere
      have hbefore := mt (htyped _).mpr hthere
      rcases (hready _ List.mem_cons_self).owned cell.1 (List.mem_map_of_mem hcell) with
        ⟨howned, hnamed⟩
      rw [hkeep cell.1 howned hnamed hbefore]
      exact hstored cell hcell hbefore

end Inv

/-!
# The steps keep the invariant
-/

section Step

variable {pointer writer : Type} [DecidableEq writer] {server : RedisServer RedisStore}
  {mgr : KeyFieldMgr} {owner : Address -> writer} {store : RedisStore}
  {s t : State pointer writer} {w : writer}

theorem published_elsewhere {next : Writer pointer} {address : Address}
    (hpublished : forall v, address ∉ unpublished ((s.setWriter w next).writers v))
    (hown : address ∉ unpublished (s.writers w)) (v : writer) :
    address ∉ unpublished (s.writers v) := by
  by_cases hsame : v = w
  · rw [hsame]
    exact hown
  · have hother := hpublished v
    rw [State.writers_of_ne s next hsame] at hother
    exact hother

theorem inv_setWriter (hinv : Inv mgr owner store s) (hidle : (s.writers w).commands = [])
    {next : Writer pointer} (hnext : WriterInv mgr owner s.store w next) :
    Inv mgr owner store (s.setWriter w next) := by
  constructor
  · intro v
    show WriterInv mgr owner s.store v ((s.setWriter w next).writers v)
    by_cases hsame : v = w
    · rw [hsame, State.writers_self]
      exact hnext
    · rw [State.writers_of_ne s next hsame]
      exact hinv.writers v
  · exact hinv.typed
  · intro address hnamed htyped hpublished
    apply hinv.follows address hnamed htyped
    apply published_elsewhere hpublished
    rw [unpublished_nil hidle]
    exact List.not_mem_nil

theorem inv_change (hinv : Inv mgr owner store s) (hidle : (s.writers w).commands = [])
    {change : Change} (hsound : Sound mgr owner w change) :
    Inv mgr owner store (s.setWriter w
      { adapter := { (s.writers w).adapter with
          m_Buffer := (s.writers w).adapter.m_Buffer.AddValueChange change.i64Key change.iIndex
            change.iKeyField change.strValue },
        commands := [] }) := by
  rcases (hinv.writers w).gathered with ⟨changes, hbuffer, hchanges⟩
  refine inv_setWriter hinv hidle ⟨⟨changes ++ [change], ?_, ?_⟩, ?_⟩
  · rw [buffered_append, ← hbuffer]
  · intro other hother
    rcases List.mem_append.mp hother with hold | hnew
    · exact hchanges other hold
    · rw [List.mem_singleton.mp hnew]
      exact hsound
  · exact progress_idle mgr owner s.store w

theorem inv_pubAndSet (hwords : WordNames mgr) (hinv : Inv mgr owner store s)
    (hidle : (s.writers w).commands = []) :
    Inv mgr owner store (s.setWriter w
      { adapter := { (s.writers w).adapter with
          m_Buffer := (RedisBuffer.Batch mgr (s.writers w).adapter.m_Buffer).2 },
        commands := (RedisBuffer.Batch mgr (s.writers w).adapter.m_Buffer).1.commands }) := by
  rcases (hinv.writers w).gathered with ⟨changes, hbuffer, hchanges⟩
  have hready : forall flush, flush ∈ (buffered changes).flushes -> Ready mgr owner w flush :=
    fun flush hflush => ready_of_sound hwords hchanges hflush
  rw [hbuffer, Batch_buffered (fun change hmem => (hchanges change hmem).named.left)]
  exact inv_setWriter hinv hidle
    ⟨⟨[], rfl, fun _ h => absurd h List.not_mem_nil⟩, .whole rfl hready⟩

/-- The `HMSET` of a flush. -/
theorem inv_write (hnames : DistinctNames mgr) (hinv : Inv mgr owner store s) {flush : Flush}
    {flushes : List Flush}
    (hcommands : (s.writers w).commands = (flush :: flushes).flatMap (Flush.commands mgr))
    (hready : forall other, other ∈ flush :: flushes -> Ready mgr owner w other) :
    Inv mgr owner store
      { s.setWriter w { s.writers w with
          commands := flush.change :: flushes.flatMap (Flush.commands mgr) } with
        store := applyWrite s.store (flush.hashWrite mgr) } := by
  have hfirst := hready flush List.mem_cons_self
  have htyped := typed_applyWrite s.store (flush.hashWrite mgr)
  have hhalf : unpublished { s.writers w with
      commands := flush.change :: flushes.flatMap (Flush.commands mgr) } =
        flush.cells.map Prod.fst := unpublished_half rfl hfirst
  constructor
  · intro v
    show WriterInv mgr owner (applyWrite s.store (flush.hashWrite mgr)) v
      ((s.setWriter w _).writers v)
    by_cases hsame : v = w
    · rw [hsame, State.writers_self]
      refine ⟨(hinv.writers w).gathered, .half rfl hready ?_⟩
      intro cell hcell hthere
      have hnamed := (hfirst.owned cell.1 (List.mem_map_of_mem hcell)).right
      rw [hashesOf_flush hnames hfirst hnamed (mt (htyped _).mpr hthere),
        Replay.replay_of_distinct (nodup_cells hfirst) hcell, Option.some_or]
    · rw [State.writers_of_ne s _ hsame]
      refine ⟨(hinv.writers v).gathered, (hinv.writers v).progress.keep htyped ?_⟩
      intro address howned hnamed hthere
      have hnot : address ∉ flush.cells.map Prod.fst :=
        fun hmem => hsame (howned.symm.trans (hfirst.owned address hmem).left)
      rw [hashesOf_flush hnames hfirst hnamed hthere, Replay.replay_of_not_mem hnot,
        Option.none_or]
  · intro name
    exact (htyped name).trans (hinv.typed name)
  · intro address hnamed hthere hpublished
    have hown : address ∉ unpublished ((s.setWriter w _).writers w) := hpublished w
    rw [State.writers_self, hhalf] at hown
    show hashesOf (applyWrite s.store (flush.hashWrite mgr)) (address.cellName mgr) = _
    rw [hashesOf_flush hnames hfirst hnamed (mt (hinv.typed _).mp hthere),
      Replay.replay_of_not_mem hown, Option.none_or]
    apply hinv.follows address hnamed hthere
    apply published_elsewhere hpublished
    rw [unpublished_whole hcommands hready]
    exact List.not_mem_nil

/-- The publish behind it. -/
theorem inv_publish (hinv : Inv mgr owner store s) {flush : Flush} {flushes : List Flush}
    (hcommands : (s.writers w).commands =
      flush.change :: flushes.flatMap (Flush.commands mgr))
    (hready : forall other, other ∈ flush :: flushes -> Ready mgr owner w other)
    (hstored : forall cell, cell ∈ flush.cells ->
      fieldsOf (s.store (cell.1.cellName mgr).1) ≠ none ->
        hashesOf s.store (cell.1.cellName mgr) = some cell.2) :
    Inv mgr owner store
      { s.setWriter w { s.writers w with
          commands := flushes.flatMap (Flush.commands mgr) } with
        events := s.events ++ heard flush.change } := by
  have hfirst := hready flush List.mem_cons_self
  have hrest : forall other, other ∈ flushes -> Ready mgr owner w other :=
    fun other hmem => hready other (List.mem_cons_of_mem flush hmem)
  rcases heard_change hfirst with ⟨data, hheard, hcells⟩
  constructor
  · intro v
    show WriterInv mgr owner s.store v ((s.setWriter w _).writers v)
    by_cases hsame : v = w
    · rw [hsame, State.writers_self]
      exact ⟨(hinv.writers w).gathered, .whole rfl hrest⟩
    · rw [State.writers_of_ne s _ hsame]
      exact hinv.writers v
  · exact hinv.typed
  · intro address hnamed hthere hpublished
    show hashesOf s.store (address.cellName mgr) =
      (mirror (s.events ++ heard flush.change) address).or _
    rw [hheard, mirror_append, hcells, Replay.replay_eq_or]
    by_cases hmem : address ∈ flush.cells.map Prod.fst
    · rcases List.mem_map.mp hmem with ⟨cell, hcell, hEq⟩
      have hvalue : (address, cell.2) ∈ flush.cells := by
        rw [← hEq]
        exact hcell
      rw [Replay.replay_of_distinct (nodup_cells hfirst) hvalue, Option.some_or,
        Option.some_or]
      exact hstored _ hvalue (mt (hinv.typed _).mp hthere)
    · rw [Replay.replay_of_not_mem hmem, Option.none_or]
      apply hinv.follows address hnamed hthere
      apply published_elsewhere hpublished
      rw [unpublished_half hcommands hfirst]
      exact hmem

theorem inv_execute (hserver : HashCommands server) (hnames : DistinctNames mgr)
    (hinv : Inv mgr owner store s) (hstep : step server mgr s (.Execute w) = some t) :
    Inv mgr owner store t := by
  cases (hinv.writers w).progress with
  | whole hcommands hready =>
      rename_i flushes
      cases flushes with
      | nil =>
          simp only [step, hcommands, List.flatMap_nil] at hstep
          cases hstep
      | cons flush flushes =>
          have hfirst := hready flush List.mem_cons_self
          have hheard := heard_write hfirst.words
          have hnext := inv_write hnames hinv hcommands hready
          simp only [step, hcommands, List.flatMap_cons, Flush.commands, List.cons_append,
            List.nil_append, execute_write hserver hfirst, Option.map_some, hheard,
            List.append_nil, Option.some.injEq] at hstep
          rw [← hstep]
          exact hnext
  | half hcommands hready hstored =>
      rename_i flush flushes
      have hnext := inv_publish hinv hcommands hready hstored
      simp only [step, hcommands, execute_change hserver (hready flush List.mem_cons_self),
        Option.map_some, Option.some.injEq] at hstep
      rw [← hstep]
      exact hnext

theorem inv_step (hserver : HashCommands server) (hwords : WordNames mgr)
    (hnames : DistinctNames mgr) (hinv : Inv mgr owner store s) {action : Action writer}
    (hsound : action.Sound mgr owner) (hstep : step server mgr s action = some t) :
    Inv mgr owner store t := by
  cases action with
  | SetValue v iKey iKeyField strValue =>
      simp only [step] at hstep
      split at hstep
      · rename_i hidle
        cases hstep
        exact inv_change hinv hidle hsound
      · cases hstep
  | SetIndexValue v iKey iIndex iKeyField strValue =>
      simp only [step] at hstep
      split at hstep
      · rename_i hidle
        cases hstep
        exact inv_change hinv hidle hsound
      · cases hstep
  | PubAndSet v =>
      simp only [step] at hstep
      split at hstep
      · rename_i hidle
        cases hstep
        exact inv_pubAndSet hwords hinv hidle
      · cases hstep
  | Execute v => exact inv_execute hserver hnames hinv hstep

/-- However the commands of the adapters mix: a field that no adapter is about to publish
has the text in Redis that was heard of last. -/
theorem subscribers_follow (hserver : HashCommands server) (hwords : WordNames mgr)
    (hnames : DistinctNames mgr) {actions : List (Action writer)}
    (hactions : forall action, action ∈ actions -> action.Sound mgr owner)
    (hrun : Run (step server mgr) (start store) actions = some s) : Follows mgr store s := by
  have hkeep : forall (s : State pointer writer) (action : Action writer)
      (t : State pointer writer), Inv mgr owner store s -> action.Sound mgr owner ->
        step server mgr s action = some t -> Inv mgr owner store t :=
    fun s action t hinv hsound hstep => inv_step hserver hwords hnames hinv hsound hstep
  have hsteps : AllSteps (step server mgr) (fun _ action => action.Sound mgr owner)
      (start store : State pointer writer) actions :=
    allSteps_of_labels (fun action hmem _ => hactions action hmem) _
  exact (run_invariant hkeep (inv_start mgr owner store) hsteps hrun).follows

end Step

/-- Two adapters rename two users, with their commands mixed. -/
def mixedRenames : List (Action Bool) :=
  [.SetValue true 5 0x101 "ab".toList, .SetValue false 6 0x101 "x".toList, .PubAndSet true,
    .PubAndSet false, .Execute true, .Execute false, .Execute false, .Execute true,
    .SetIndexValue true 5 2 0x101 "cd".toList, .PubAndSet true, .Execute true]

theorem mixedRenames_sound (action : Action Bool) (hmem : action ∈ mixedRenames) :
    action.Sound nameOnlyMgr (fun address => address.iFirstKey == 5) := by
  have hregistered : nameOnlyMgr.Registered 0x101 := ⟨"user".toList, "name".toList, rfl, rfl⟩
  have hsound : forall (w : Bool) (iKey : uint64_t) (strValue : Text), (iKey == 5) = w ->
      Clean strValue -> strValue ≠ [] ->
        Sound nameOnlyMgr (fun address => address.iFirstKey == 5) w
          { i64Key := iKey, iIndex := 0, iKeyField := 0x101, strValue := strValue } := by
    intro w iKey strValue howned hclean hfilled
    exact
      { owned := howned
        named := ⟨hregistered, Or.inr rfl⟩
        small := (by decide : (0x101 : uint32_t).toNat < 2 ^ 31)
        clean := hclean
        filled := hfilled }
  unfold mixedRenames at hmem
  simp only [List.mem_cons, List.not_mem_nil, or_false] at hmem
  rcases hmem with rfl | rfl | rfl | rfl | rfl | rfl | rfl | rfl | rfl | rfl | rfl
  · exact hsound true 5 _ rfl (by decide) (List.cons_ne_nil _ _)
  · exact hsound false 6 _ rfl (by decide) (List.cons_ne_nil _ _)
  · trivial
  · trivial
  · trivial
  · trivial
  · trivial
  · trivial
  · exact hsound true 5 _ rfl (by decide) (List.cons_ne_nil _ _)
  · trivial
  · trivial

/-- In the end `cd` is in Redis and `ab` has been heard of last, but `cd` is published next. -/
theorem mixedRenames_followed :
    exists s : State Unit Bool,
      Run (step hashServer nameOnlyMgr) (start (fun _ => none)) mixedRenames = some s ∧
        unpublished (s.writers true) =
          [{ iFirstKey := 5, iSecondKey := 0, iKeyField := 0x101 }] ∧
        Follows nameOnlyMgr (fun _ => none) s := by
  have hrun : (Run (step hashServer nameOnlyMgr)
      (start (fun _ => none) : State Unit Bool) mixedRenames).map (fun s =>
        unpublished (s.writers true)) =
      some [{ iFirstKey := 5, iSecondKey := 0, iKeyField := 0x101 }] := by
    decide +kernel
  rcases Option.map_eq_some_iff.mp hrun with ⟨s, hend, hnext⟩
  exact ⟨s, hend, hnext, subscribers_follow hashServer_commands wordNames_nameOnly
    distinctNames_nameOnly mixedRenames_sound hend⟩

end Replication
end DataHandle
end GMServer
