import GMServer.Library.Transition
import GMServer.DataHandle.ReadBack

/-!
# Writing back

The fields of a struct are in memory, in the change buffer and in Redis.  Assignments
go to memory and into the buffer, `PubAndSet` takes them to Redis, and a load takes
what is in Redis to memory, also where a change still waits in the buffer.
-/

namespace GMServer
namespace DataHandle
namespace WriteBack

open Std
open RedisAdapter

/-!
# Values with texts
-/

/-- A type of values that come back from their texts. -/
structure Codec (value : Type) where
  ToString : value -> Text
  get : Text -> value
  roundTrip : forall v, get (ToString v) = v

def int32Codec : Codec (BitVec 32) :=
  { ToString := fun v => StringValue.ToString (.int32 v),
    get := StringValue.atoi,
    roundTrip := StringValue.atoi_decimalInt }

/-!
# States and steps
-/

/-- Every key field has values of its own type. -/
structure State (pointer : Type) (value : uint32_t -> Type) where
  memory : forall iKeyField, value iKeyField
  adapter : RedisAdapter pointer
  store : RedisStore

inductive Action (value : uint32_t -> Type) where
  | assign (iKeyField : uint32_t) (v : value iKeyField)
  | load
  | pubAndSet

/-- A struct with its key and the key fields of its values. -/
structure Struct where
  iKey : uint64_t
  mValue : List uint32_t

section

variable {pointer : Type} {value : uint32_t -> Type}

/-- `TValue::operator=`. -/
def assign [forall iKeyField, DecidableEq (value iKeyField)]
    (codec : forall iKeyField, Codec (value iKeyField)) (owner : Struct)
    (s : State pointer value) (iKeyField : uint32_t) (v : value iKeyField) :
    State pointer value :=
  if s.memory iKeyField ≠ v then
    { s with
      memory := Function.update s.memory iKeyField v,
      adapter := s.adapter.SetValue owner.iKey iKeyField ((codec iKeyField).ToString v) }
  else s

/-- The calls of `Sync`, one after the other. -/
def syncAll (codec : forall iKeyField, Codec (value iKeyField))
    (memory : forall iKeyField, value iKeyField) (calls : List (uint32_t × Text)) :
    forall iKeyField, value iKeyField :=
  calls.foldl (fun synced call =>
    Function.update synced call.1 ((codec call.1).get call.2)) memory

def step [forall iKeyField, DecidableEq (value iKeyField)] (server : RedisServer RedisStore)
    (mgr : KeyFieldMgr) (codec : forall iKeyField, Codec (value iKeyField)) (owner : Struct)
    (s : State pointer value) : Action value -> Option (State pointer value)
  | .assign iKeyField v =>
      if iKeyField ∈ owner.mValue then some (assign codec owner s iKeyField v) else none
  | .load =>
      if owner.mValue.isEmpty then some s
      else
        (s.adapter.Load server mgr s.store owner.iKey owner.mValue).map (fun result =>
          { memory := syncAll codec s.memory result.1.calls, adapter := result.2,
            store := result.1.state })
  | .pubAndSet =>
      (s.adapter.PubAndSet server mgr s.store).map (fun result =>
        { s with store := result.1, adapter := result.2.2 })

/-!
# Coherence

Once nothing waits in the buffer, memory and Redis agree on every field that exists in
Redis.
-/

def readOwn (mgr : KeyFieldMgr) (owner : Struct) (s : State pointer value)
    (iKeyField : uint32_t) : Option Text :=
  readField mgr s.store (structHash owner.iKey) iKeyField

def Coherent (mgr : KeyFieldMgr) (codec : forall iKeyField, Codec (value iKeyField))
    (owner : Struct) (s : State pointer value) : Prop :=
  s.adapter.m_Buffer = RedisBuffer.empty ->
    forall iKeyField, iKeyField ∈ owner.mValue ->
      forall text, readOwn mgr owner s iKeyField = some text ->
        (codec iKeyField).get text = s.memory iKeyField

def ownAddress (owner : Struct) (iKeyField : uint32_t) : Address :=
  { iFirstKey := owner.iKey, iSecondKey := 0, iKeyField := iKeyField }

def ownChange (owner : Struct) (iKeyField : uint32_t) (strValue : Text) : Change :=
  { i64Key := owner.iKey, iIndex := 0, iKeyField := iKeyField, strValue := strValue }

/-- The text of a field that waits in the buffer. -/
def pending (owner : Struct) (s : State pointer value) (iKeyField : uint32_t) : Option Text :=
  s.adapter.m_Buffer.valueAt (ownAddress owner iKeyField)

/-- The text of an assigned value is one word, and a load comes when every field that waits
in the buffer is missing in Redis or has the value there that waits. -/
def Settled (mgr : KeyFieldMgr) (codec : forall iKeyField, Codec (value iKeyField))
    (owner : Struct) (s : State pointer value) : Action value -> Prop
  | .assign iKeyField v => IsWord ((codec iKeyField).ToString v)
  | .load =>
      forall iKeyField, iKeyField ∈ owner.mValue ->
        forall waiting text, pending owner s iKeyField = some waiting ->
          readOwn mgr owner s iKeyField = some text ->
            (codec iKeyField).get text = (codec iKeyField).get waiting
  | .pubAndSet => True

/-!
# What the buffer and the memory know

What waits in the buffer is what is in memory.  After a load, memory also has what is
in Redis wherever nothing waits.
-/

/-- A buffer of changes to registered fields whose texts are words. -/
def WordBuffer (mgr : KeyFieldMgr) (buffer : RedisBuffer) : Prop :=
  exists changes, buffer = buffered changes ∧
    forall change, change ∈ changes -> WordChange mgr change

structure Gathered (mgr : KeyFieldMgr) (codec : forall iKeyField, Codec (value iKeyField))
    (owner : Struct) (s : State pointer value) : Prop where
  changes : WordBuffer mgr s.adapter.m_Buffer
  waiting : forall iKeyField, iKeyField ∈ owner.mValue ->
    forall text, pending owner s iKeyField = some text ->
      text = (codec iKeyField).ToString (s.memory iKeyField)

structure Tracked (mgr : KeyFieldMgr) (codec : forall iKeyField, Codec (value iKeyField))
    (owner : Struct) (s : State pointer value) : Prop extends Gathered mgr codec owner s where
  written : forall iKeyField, iKeyField ∈ owner.mValue -> pending owner s iKeyField = none ->
    forall text, readOwn mgr owner s iKeyField = some text ->
      (codec iKeyField).get text = s.memory iKeyField

variable {mgr : KeyFieldMgr} {codec : forall iKeyField, Codec (value iKeyField)}
  {owner : Struct} {s t : State pointer value}

theorem coherent_of_tracked (htracked : Tracked mgr codec owner s) :
    Coherent mgr codec owner s := by
  intro hempty iKeyField hmem text hread
  apply htracked.written iKeyField hmem _ text hread
  unfold pending
  rw [hempty]
  rfl

/-- What waits has been changed to a word. -/
theorem isWord_pending (hbuffer : WordBuffer mgr s.adapter.m_Buffer) {iKeyField : uint32_t}
    {waiting : Text} (hwaiting : pending owner s iKeyField = some waiting) : IsWord waiting := by
  rcases hbuffer with ⟨changes, hEq, hchanges⟩
  unfold pending at hwaiting
  rw [hEq, valueAt_buffered] at hwaiting
  rcases Replay.mem_of_replay hwaiting with hmem | hnone
  · rcases List.mem_map.mp hmem with ⟨change, hchange, hcell⟩
    rw [← show change.strValue = waiting from congrArg Prod.snd hcell]
    exact (hchanges change hchange).right
  · cases hnone

theorem readOwn_eq (hkey : owner.iKey ≠ 0) (mgr : KeyFieldMgr) (s : State pointer value)
    (iKeyField : uint32_t) :
    readOwn mgr owner s iKeyField =
      (hashesOf s.store ((ownAddress owner iKeyField).cellName mgr)).map cStr := by
  unfold readOwn readField hashesOf Address.cellName ownAddress
  dsimp only
  rw [hashName_struct hkey, Option.map_bind]
  rfl

theorem typed_of_readOwn (hkey : owner.iKey ≠ 0) {iKeyField : uint32_t} {text : Text}
    (hread : readOwn mgr owner s iKeyField = some text) :
    fieldsOf (s.store ((ownAddress owner iKeyField).cellName mgr).1) ≠ none := by
  intro hnone
  rw [readOwn_eq hkey] at hread
  unfold hashesOf at hread
  rw [hnone] at hread
  cases hread

theorem gathered_of_empty (hempty : t.adapter.m_Buffer = RedisBuffer.empty) :
    Gathered mgr codec owner t := by
  refine { changes := ⟨[], hempty, List.forall_mem_nil _⟩, waiting := ?_ }
  intro iKeyField _ text hwaiting
  unfold pending at hwaiting
  rw [hempty] at hwaiting
  cases hwaiting

/-!
# Assignments
-/

theorem pending_setValue (iKeyField : uint32_t) (v : value iKeyField) :
    pending owner
        { s with
          memory := Function.update s.memory iKeyField v,
          adapter := s.adapter.SetValue owner.iKey iKeyField ((codec iKeyField).ToString v) } =
      Function.update (pending owner s) iKeyField (some ((codec iKeyField).ToString v)) := by
  funext other
  have hvalue := RedisBuffer.valueAt_addValueChange s.adapter.m_Buffer
    (ownChange owner iKeyField ((codec iKeyField).ToString v))
  refine (congrFun hvalue (ownAddress owner other)).trans ?_
  by_cases hsame : other = iKeyField
  · rw [hsame, Function.update_self]
    exact Function.update_self _ _ _
  · rw [Function.update_of_ne hsame]
    apply Function.update_of_ne
    intro hEq
    exact hsame (congrArg Address.iKeyField hEq)

section

variable [forall iKeyField, DecidableEq (value iKeyField)]

theorem gathered_assign (hkey : owner.iKey ≠ 0) {iKeyField : uint32_t}
    (hregistered : mgr.Registered iKeyField) {v : value iKeyField}
    (hword : IsWord ((codec iKeyField).ToString v))
    (hgathered : Gathered mgr codec owner s) :
    Gathered mgr codec owner (assign codec owner s iKeyField v) := by
  unfold assign
  split
  · constructor
    · rcases hgathered.changes with ⟨changes, hbuffer, hchanges⟩
      refine ⟨changes ++ [ownChange owner iKeyField ((codec iKeyField).ToString v)], ?_, ?_⟩
      · rw [buffered_append, ← hbuffer]
        rfl
      · intro change hmem
        rcases List.mem_append.mp hmem with hold | hnew
        · exact hchanges change hold
        · rw [List.mem_singleton.mp hnew]
          exact ⟨⟨hregistered, Or.inl hkey⟩, hword⟩
    · intro other hmem text hpending
      rw [pending_setValue] at hpending
      dsimp only
      by_cases hsame : other = iKeyField
      · cases hsame
        rw [Function.update_self] at hpending ⊢
        exact (Option.some.inj hpending).symm
      · rw [Function.update_of_ne hsame] at hpending ⊢
        exact hgathered.waiting other hmem text hpending
  · exact hgathered

theorem tracked_assign (hkey : owner.iKey ≠ 0) {iKeyField : uint32_t}
    (hregistered : mgr.Registered iKeyField) {v : value iKeyField}
    (hword : IsWord ((codec iKeyField).ToString v))
    (htracked : Tracked mgr codec owner s) :
    Tracked mgr codec owner (assign codec owner s iKeyField v) := by
  refine { toGathered := gathered_assign hkey hregistered hword htracked.toGathered,
           written := ?_ }
  unfold assign
  split
  · intro other hmem hpending text hread
    rw [pending_setValue] at hpending
    dsimp only
    by_cases hsame : other = iKeyField
    · rw [hsame, Function.update_self] at hpending
      cases hpending
    · rw [Function.update_of_ne hsame] at hpending ⊢
      exact htracked.written other hmem hpending text hread
  · exact htracked.written

end

/-!
# Loads

The buffer and the store stay; memory takes what is in the store.
-/

theorem syncAll_of_not_mem {calls : List (uint32_t × Text)} {iKeyField : uint32_t}
    (hnone : forall text, (iKeyField, text) ∉ calls)
    (memory : forall iKeyField, value iKeyField) :
    syncAll codec memory calls iKeyField = memory iKeyField := by
  induction calls generalizing memory with
  | nil => rfl
  | cons call calls ih =>
      have hne : iKeyField ≠ call.1 := by
        intro hEq
        apply hnone call.2
        rw [hEq]
        exact List.mem_cons_self
      have hrest := ih (fun text h => hnone text (List.mem_cons_of_mem call h))
        (Function.update memory call.1 ((codec call.1).get call.2))
      rw [Function.update_of_ne hne] at hrest
      exact hrest

theorem syncAll_of_mem {calls : List (uint32_t × Text)} {iKeyField : uint32_t} {text : Text}
    (hmem : (iKeyField, text) ∈ calls)
    (hsame : forall other, (iKeyField, other) ∈ calls -> other = text)
    (memory : forall iKeyField, value iKeyField) :
    syncAll codec memory calls iKeyField = (codec iKeyField).get text := by
  induction calls generalizing memory with
  | nil => cases hmem
  | cons call calls ih =>
      have hrest : forall other, (iKeyField, other) ∈ calls -> other = text :=
        fun other h => hsame other (List.mem_cons_of_mem call h)
      by_cases hlater : (iKeyField, text) ∈ calls
      · exact ih hlater hrest _
      · have hfirst := (List.mem_cons.mp hmem).resolve_right hlater
        have hnone : forall other, (iKeyField, other) ∉ calls := by
          intro other hother
          rw [hrest other hother] at hother
          exact hlater hother
        rw [← hfirst]
        refine (syncAll_of_not_mem hnone _).trans ?_
        exact Function.update_self _ _ _

section Steps

variable [forall iKeyField, DecidableEq (value iKeyField)]
  {server : RedisServer RedisStore}

theorem load_spec (hserver : HashCommands server) (hwords : WordNames mgr)
    (hregistered : forall iKeyField, iKeyField ∈ owner.mValue -> mgr.Registered iKeyField)
    (codec : forall iKeyField, Codec (value iKeyField)) (s : State pointer value) :
    exists t, step server mgr codec owner s .load = some t ∧
      t.adapter.m_Buffer = s.adapter.m_Buffer ∧ t.store = s.store ∧
      forall iKeyField, iKeyField ∈ owner.mValue ->
        t.memory iKeyField =
          ((readOwn mgr owner s iKeyField).map (codec iKeyField).get).getD
            (s.memory iKeyField) := by
  dsimp only [step]
  by_cases hnil : owner.mValue.isEmpty = true
  · rw [if_pos hnil]
    refine ⟨s, rfl, rfl, rfl, ?_⟩
    intro iKeyField hmem
    rw [List.isEmpty_iff.mp hnil] at hmem
    cases hmem
  · rcases loadFrom_reads hserver hwords (fun sKey h => isWord_structHash h owner.iKey)
      s.adapter s.store owner.iKey hregistered with ⟨loaded, hload, hstore, _, hcalls⟩
    rw [if_neg hnil]
    unfold RedisAdapter.Load
    rw [hload]
    refine ⟨_, rfl, rfl, hstore, ?_⟩
    intro iKeyField hmem
    dsimp only
    unfold readOwn
    cases hread : readField mgr s.store (structHash owner.iKey) iKeyField with
    | none =>
        apply syncAll_of_not_mem
        intro text hcall
        rw [((hcalls iKeyField text).mp hcall).right] at hread
        cases hread
    | some text =>
        apply syncAll_of_mem ((hcalls iKeyField text).mpr ⟨hmem, hread⟩)
        intro other hcall
        rw [((hcalls iKeyField other).mp hcall).right] at hread
        exact Option.some.inj hread

/-- A settled load changes nothing that waits. -/
theorem tracked_load (hserver : HashCommands server) (hwords : WordNames mgr)
    (hregistered : forall iKeyField, iKeyField ∈ owner.mValue -> mgr.Registered iKeyField)
    (hsettled : Settled mgr codec owner s .load) (hgathered : Gathered mgr codec owner s)
    (hstep : step server mgr codec owner s .load = some t) : Tracked mgr codec owner t := by
  rcases load_spec hserver hwords hregistered codec s with ⟨u, hload, hbuffer, hstore, hmemory⟩
  cases hload.symm.trans hstep
  have hpending : pending owner t = pending owner s := by
    unfold pending
    rw [hbuffer]
  have hread : readOwn mgr owner t = readOwn mgr owner s := by
    unfold readOwn
    rw [hstore]
  constructor
  · constructor
    · rw [hbuffer]
      exact hgathered.changes
    · intro iKeyField hmem text hwaiting
      rw [hpending] at hwaiting
      have htext := hgathered.waiting iKeyField hmem text hwaiting
      rw [hmemory iKeyField hmem]
      cases hstored : readOwn mgr owner s iKeyField with
      | none => exact htext
      | some stored =>
          have hsame := hsettled iKeyField hmem text stored hwaiting hstored
          rw [htext, (codec _).roundTrip] at hsame
          rw [Option.map_some, Option.getD_some, hsame]
          exact htext
  · intro iKeyField hmem _ text hstored
    rw [hread] at hstored
    rw [hmemory iKeyField hmem, hstored]
    rfl

/-!
# Publications

What waits goes to Redis, unless another type of value is in the way.
-/

theorem pubAndSet_spec (hserver : HashCommands server) (hwords : WordNames mgr)
    (hnames : DistinctNames mgr) (hkey : owner.iKey ≠ 0)
    (hregistered : forall iKeyField, iKeyField ∈ owner.mValue -> mgr.Registered iKeyField)
    (codec : forall iKeyField, Codec (value iKeyField))
    (hbuffer : WordBuffer mgr s.adapter.m_Buffer) :
    exists t, step server mgr codec owner s .pubAndSet = some t ∧
      t.adapter.m_Buffer = RedisBuffer.empty ∧ t.memory = s.memory ∧
      forall iKeyField, iKeyField ∈ owner.mValue ->
        fieldsOf (s.store ((ownAddress owner iKeyField).cellName mgr).1) ≠ none ->
        readOwn mgr owner t iKeyField =
          (pending owner s iKeyField).or (readOwn mgr owner s iKeyField) := by
  rcases hbuffer with ⟨changes, hEq, hchanges⟩
  rcases pubAndSet_changes hserver hwords hnames hEq hchanges s.store with
    ⟨next, hsent, _, hcells⟩
  dsimp only [step]
  rw [hsent]
  refine ⟨_, rfl, rfl, rfl, ?_⟩
  intro iKeyField hmem htyped
  have hcell := hcells (ownAddress owner iKeyField)
    ⟨hregistered iKeyField hmem, Or.inl hkey⟩ htyped
  rw [readOwn_eq hkey, readOwn_eq hkey]
  dsimp only
  rw [hcell]
  cases hwaiting : pending owner s iKeyField with
  | none =>
      unfold pending at hwaiting
      rw [hwaiting, Option.none_or, Option.none_or]
  | some waiting =>
      have hfree := (isWord_pending ⟨changes, hEq, hchanges⟩ hwaiting).right.left
      unfold pending at hwaiting
      rw [hwaiting, Option.some_or, Option.some_or, Option.map_some, cStr_eq_self hfree]

theorem typed_pubAndSet (hserver : HashCommands server) (hwords : WordNames mgr)
    (hnames : DistinctNames mgr) (hbuffer : WordBuffer mgr s.adapter.m_Buffer)
    (hstep : step server mgr codec owner s .pubAndSet = some t) (name : Text) :
    fieldsOf (t.store name) = none <-> fieldsOf (s.store name) = none := by
  rcases hbuffer with ⟨changes, hEq, hchanges⟩
  rcases pubAndSet_changes hserver hwords hnames hEq hchanges s.store with
    ⟨next, hsent, htyped, _⟩
  dsimp only [step] at hstep
  rw [hsent] at hstep
  cases hstep
  exact htyped name

theorem tracked_pubAndSet (hserver : HashCommands server) (hwords : WordNames mgr)
    (hnames : DistinctNames mgr) (hkey : owner.iKey ≠ 0)
    (hregistered : forall iKeyField, iKeyField ∈ owner.mValue -> mgr.Registered iKeyField)
    (htracked : Tracked mgr codec owner s)
    (hstep : step server mgr codec owner s .pubAndSet = some t) : Tracked mgr codec owner t := by
  have htyped := typed_pubAndSet hserver hwords hnames htracked.changes hstep
  rcases pubAndSet_spec hserver hwords hnames hkey hregistered codec htracked.changes with
    ⟨u, hsent, hempty, hmemory, hread⟩
  cases hsent.symm.trans hstep
  refine { toGathered := gathered_of_empty hempty, written := ?_ }
  intro iKeyField hmem _ text hstored
  have hhash := (not_congr (htyped _)).mp (typed_of_readOwn hkey hstored)
  rw [hread iKeyField hmem hhash] at hstored
  rw [hmemory]
  cases hwaiting : pending owner s iKeyField with
  | none =>
      rw [hwaiting, Option.none_or] at hstored
      exact htracked.written iKeyField hmem hwaiting text hstored
  | some waiting =>
      rw [hwaiting, Option.some_or] at hstored
      rw [← Option.some.inj hstored, htracked.waiting iKeyField hmem waiting hwaiting,
        (codec _).roundTrip]

/-!
# Runs
-/

theorem gathered_step (hserver : HashCommands server) (hwords : WordNames mgr)
    (hnames : DistinctNames mgr) (hkey : owner.iKey ≠ 0)
    (hregistered : forall iKeyField, iKeyField ∈ owner.mValue -> mgr.Registered iKeyField)
    {a : Action value} (hsettled : Settled mgr codec owner s a)
    (hgathered : Gathered mgr codec owner s) (hstep : step server mgr codec owner s a = some t) :
    Gathered mgr codec owner t := by
  cases a with
  | assign iKeyField v =>
      dsimp only [step] at hstep
      split at hstep
      · rename_i hmem
        cases hstep
        exact gathered_assign hkey (hregistered iKeyField hmem) hsettled hgathered
      · cases hstep
  | load => exact (tracked_load hserver hwords hregistered hsettled hgathered hstep).toGathered
  | pubAndSet =>
      rcases pubAndSet_spec hserver hwords hnames hkey hregistered codec hgathered.changes with
        ⟨u, hsent, hempty, _⟩
      cases hsent.symm.trans hstep
      exact gathered_of_empty hempty

theorem tracked_step (hserver : HashCommands server) (hwords : WordNames mgr)
    (hnames : DistinctNames mgr) (hkey : owner.iKey ≠ 0)
    (hregistered : forall iKeyField, iKeyField ∈ owner.mValue -> mgr.Registered iKeyField)
    {a : Action value} (hsettled : Settled mgr codec owner s a)
    (htracked : Tracked mgr codec owner s) (hstep : step server mgr codec owner s a = some t) :
    Tracked mgr codec owner t := by
  cases a with
  | assign iKeyField v =>
      dsimp only [step] at hstep
      split at hstep
      · rename_i hmem
        cases hstep
        exact tracked_assign hkey (hregistered iKeyField hmem) hsettled htracked
      · cases hstep
  | load => exact tracked_load hserver hwords hregistered hsettled htracked.toGathered hstep
  | pubAndSet => exact tracked_pubAndSet hserver hwords hnames hkey hregistered htracked hstep

/-- A load over a waiting change leaves the old value in memory, and the change goes to
Redis with the next publication. -/
theorem unsettled_load_breaks (hserver : HashCommands server) (hwords : WordNames mgr)
    (hnames : DistinctNames mgr) (hkey : owner.iKey ≠ 0)
    (hregistered : forall iKeyField, iKeyField ∈ owner.mValue -> mgr.Registered iKeyField)
    (hgathered : Gathered mgr codec owner s) {iKeyField : uint32_t}
    (hmem : iKeyField ∈ owner.mValue) {waiting text : Text}
    (hwaiting : pending owner s iKeyField = some waiting)
    (hread : readOwn mgr owner s iKeyField = some text)
    (hne : (codec iKeyField).get text ≠ (codec iKeyField).get waiting) :
    exists loaded sent, step server mgr codec owner s .load = some loaded ∧
      step server mgr codec owner loaded .pubAndSet = some sent ∧
      ¬ Coherent mgr codec owner sent := by
  rcases load_spec hserver hwords hregistered codec s with
    ⟨loaded, hload, hbuffer, hstore, hmemory⟩
  have hreadLoaded : readOwn mgr owner loaded iKeyField = some text := by
    unfold readOwn
    rw [hstore]
    exact hread
  have hpending : pending owner loaded iKeyField = some waiting := by
    unfold pending
    rw [hbuffer]
    exact hwaiting
  have hchanges : WordBuffer mgr loaded.adapter.m_Buffer := by
    rw [hbuffer]
    exact hgathered.changes
  rcases pubAndSet_spec hserver hwords hnames hkey hregistered codec hchanges with
    ⟨sent, hsent, hempty, hkept, hreadSent⟩
  refine ⟨loaded, sent, hload, hsent, ?_⟩
  intro hcoherent
  have hsentText := hreadSent iKeyField hmem (typed_of_readOwn hkey hreadLoaded)
  rw [hpending, Option.some_or] at hsentText
  have hsame := hcoherent hempty iKeyField hmem waiting hsentText
  rw [hkept, hmemory iKeyField hmem, hread] at hsame
  exact hne hsame.symm

/-- After the first load of a run memory and Redis agree whenever nothing waits, as long as
the loads are settled; a load that is not can be followed by a publication after which they
do not agree. -/
theorem settled_coherent (hserver : HashCommands server) (hwords : WordNames mgr)
    (hnames : DistinctNames mgr) (hkey : owner.iKey ≠ 0)
    (hregistered : forall iKeyField, iKeyField ∈ owner.mValue -> mgr.Registered iKeyField)
    (hgathered : Gathered mgr codec owner s) (labels : List (Action value)) :
    (Transition.AllSteps (step server mgr codec owner) (Settled mgr codec owner) s
        (.load :: labels) ->
      forall t, step server mgr codec owner s .load = some t ->
        Transition.AllStates (step server mgr codec owner) (Coherent mgr codec owner) t
          labels) ∧
      forall t, Transition.AllSteps (step server mgr codec owner) (Settled mgr codec owner) s
          labels ->
        Transition.Run (step server mgr codec owner) s labels = some t ->
        ¬ Settled mgr codec owner t .load ->
        exists loaded sent, step server mgr codec owner t .load = some loaded ∧
          step server mgr codec owner loaded .pubAndSet = some sent ∧
          ¬ Coherent mgr codec owner sent := by
  constructor
  · intro hsteps t hload
    have hrest := (Transition.allSteps_cons_iff hload).mp hsteps
    have htracked := tracked_load hserver hwords hregistered hrest.left hgathered hload
    have hkeep : forall (s : State pointer value) a u, Tracked mgr codec owner s ->
        Settled mgr codec owner s a -> step server mgr codec owner s a = some u ->
        Tracked mgr codec owner u :=
      fun s a u hold hsettled hstep =>
        tracked_step hserver hwords hnames hkey hregistered hsettled hold hstep
    exact Transition.allStates_of_invariant hkeep (fun s hold => coherent_of_tracked hold)
      htracked hrest.right
  · intro t hsteps hrun hunsettled
    have hreached : Gathered mgr codec owner t := by
      apply Transition.run_invariant _ hgathered hsteps hrun
      intro s a t hold hsettled hstep
      exact gathered_step hserver hwords hnames hkey hregistered hsettled hold hstep
    dsimp only [Settled] at hunsettled
    simp only [not_forall] at hunsettled
    rcases hunsettled with ⟨iKeyField, hmem, waiting, text, hwaiting, hread, hne⟩
    exact unsettled_load_breaks hserver hwords hnames hkey hregistered hreached hmem hwaiting
      hread hne

end Steps

end

/-!
# A struct with one field
-/

def userStruct : Struct := { iKey := 5, mValue := [0x101] }

abbrev UserValue (_iKeyField : uint32_t) : Type := BitVec 32

def userCodec (iKeyField : uint32_t) : Codec (UserValue iKeyField) := int32Codec

/-- Redis has 1 where memory has 0. -/
def userState : State Unit UserValue :=
  { memory := fun _ => 0,
    adapter := fresh,
    store := fun name =>
      if name = "user:5".toList then
        some (.hash (fun field => if field = "name".toList then some "1".toList else none))
      else none }

theorem registered_userStruct (iKeyField : uint32_t) (hmem : iKeyField ∈ userStruct.mValue) :
    nameOnlyMgr.Registered iKeyField := by
  rw [List.mem_singleton.mp hmem]
  exact ⟨"user".toList, "name".toList, rfl, rfl⟩

theorem gathered_userState : Gathered nameOnlyMgr userCodec userStruct userState :=
  gathered_of_empty rfl

theorem settled_userState : Settled nameOnlyMgr userCodec userStruct userState .load := by
  intro iKeyField _ waiting text hwaiting
  cases hwaiting

theorem isWord_int32 (v : BitVec 32) : IsWord (int32Codec.ToString v) := by
  apply (isWord_toString_iff (.int32 v)).mpr
  intro strValue hEq
  cases hEq

theorem published_coherent :
    exists loaded,
      step hashServer nameOnlyMgr userCodec userStruct userState .load = some loaded ∧
      Transition.AllStates (step hashServer nameOnlyMgr userCodec userStruct)
        (Coherent nameOnlyMgr userCodec userStruct) loaded [.assign 0x101 7, .pubAndSet] := by
  rcases load_spec hashServer_commands wordNames_nameOnly registered_userStruct userCodec
    userState with ⟨loaded, hload, _, _, _⟩
  refine ⟨loaded, hload, ?_⟩
  refine (settled_coherent hashServer_commands wordNames_nameOnly distinctNames_nameOnly
    (show userStruct.iKey ≠ 0 by decide) registered_userStruct gathered_userState
    [.assign 0x101 7, .pubAndSet]).left ?_ loaded hload
  refine ⟨settled_userState, ?_⟩
  intro loaded _
  refine ⟨isWord_int32 7, ?_⟩
  intro assigned _
  refine ⟨trivial, ?_⟩
  intro sent _
  trivial

/-- The field is loaded, assigned, loaded again and published. -/
theorem reloaded_incoherent :
    exists loaded assigned reloaded sent,
      step hashServer nameOnlyMgr userCodec userStruct userState .load = some loaded ∧
      step hashServer nameOnlyMgr userCodec userStruct loaded (.assign 0x101 7) =
        some assigned ∧
      step hashServer nameOnlyMgr userCodec userStruct assigned .load = some reloaded ∧
      step hashServer nameOnlyMgr userCodec userStruct reloaded .pubAndSet = some sent ∧
      ¬ Coherent nameOnlyMgr userCodec userStruct sent := by
  rcases load_spec hashServer_commands wordNames_nameOnly registered_userStruct userCodec
    userState with ⟨loaded, hload, _, hstore, hmemory⟩
  have hmem : (0x101 : uint32_t) ∈ userStruct.mValue := List.mem_singleton.mpr rfl
  have hstored : readOwn nameOnlyMgr userStruct userState 0x101 = some "1".toList := rfl
  have hone := hmemory 0x101 hmem
  rw [hstored] at hone
  have hdiffers : loaded.memory 0x101 ≠ 7 := by
    rw [hone]
    decide
  have hloaded := (tracked_load hashServer_commands wordNames_nameOnly registered_userStruct
    settled_userState gathered_userState hload).toGathered
  have hassigned := gathered_assign (show userStruct.iKey ≠ 0 by decide)
    (registered_userStruct 0x101 hmem) (isWord_int32 7) hloaded
  have hread : readOwn nameOnlyMgr userStruct
      (assign userCodec userStruct loaded 0x101 7) 0x101 = some "1".toList := by
    unfold assign
    rw [if_pos hdiffers]
    unfold readOwn
    dsimp only
    rw [hstore]
    exact hstored
  have hwaiting : pending userStruct (assign userCodec userStruct loaded 0x101 7) 0x101 =
      some "7".toList := by
    unfold assign
    rw [if_pos hdiffers, pending_setValue, Function.update_self]
    decide
  have hassign : step hashServer nameOnlyMgr userCodec userStruct loaded (.assign 0x101 7) =
      some (assign userCodec userStruct loaded 0x101 7) := by
    dsimp only [step]
    rw [if_pos hmem]
  rcases unsettled_load_breaks hashServer_commands wordNames_nameOnly distinctNames_nameOnly
    (show userStruct.iKey ≠ 0 by decide) registered_userStruct hassigned hmem hwaiting hread
    (by decide) with ⟨reloaded, sent, hreload, hsent, hbroken⟩
  exact ⟨loaded, _, reloaded, sent, hload, hassign, hreload, hsent, hbroken⟩

end WriteBack
end DataHandle
end GMServer
