import GMServer.DataHandle.TRepeated

/-!
# Elements under their indices

What every operation of a container leaves under an index, and in which runs the elements
are where their keys say.
-/

namespace GMServer
namespace DataHandle

open Std

namespace TRepeated

open Transition

variable {container world : Type}

/-!
# What the container should hold
-/

/-- Every element has its index as its key and the container as its handle; a new value of
one of its fields goes to the adapter under this index. -/
structure Represents (this : container) (repeated : TRepeated container world) : Prop where
  keyed : forall i data, repeated.Get i = some data -> data.m_i64Key = i
  handled : forall i data, repeated.Get i = some data -> data.m_pDataHanle = some this
  written : forall i data, repeated.Get i = some data ->
    forall owner adapter, repeated.m_pHandle = some owner -> owner.m_pDataHanle = some adapter ->
      forall state field value, data.value field ≠ value ->
        (repeated.assign state data field value).1 =
          adapter.SetValue state owner.m_i64Key i
            (field.KeyField, StringValue.ToString (.uint32 value))

/-- An element with the right key and the right handle is written back to its place. -/
theorem assign_spec (repeated : TRepeated container world)
    {data : PlayerBagequipData container} {this : container}
    (hhandle : data.m_pDataHanle = some this) {owner : TStruct (IDataAdapter world)}
    (howner : repeated.m_pHandle = some owner) {adapter : IDataAdapter world}
    (hadapter : owner.m_pDataHanle = some adapter) (state : world) {field : BagequipField}
    {value : uint32_t} (hne : data.value field ≠ value) :
    (repeated.assign state data field value).1 =
      adapter.SetValue state owner.m_i64Key data.m_i64Key
        (field.KeyField, StringValue.ToString (.uint32 value)) := by
  unfold assign
  rw [if_neg hne, hhandle]
  dsimp only
  unfold SetValue TStruct.SetValue
  rw [howner]
  dsimp only
  rw [hadapter]

theorem represents_iff {this : container} {repeated : TRepeated container world} :
    Represents this repeated <->
      forall i data, repeated.Get i = some data ->
        data.m_i64Key = i ∧ data.m_pDataHanle = some this := by
  constructor
  · intro h i data hget
    exact ⟨h.keyed i data hget, h.handled i data hget⟩
  · intro h
    constructor
    case keyed => exact fun i data hget => (h i data hget).left
    case handled => exact fun i data hget => (h i data hget).right
    case written =>
      intro i data hget owner adapter howner hadapter state field value hne
      rw [assign_spec repeated (h i data hget).right howner hadapter state hne,
        (h i data hget).left]

theorem represents_empty (this : container) (m_pHandle : Option (TStruct (IDataAdapter world))) :
    Represents this (empty m_pHandle) := by
  rw [represents_iff]
  intro i data hget
  cases hget

/-!
# Putting and removing
-/

theorem get_put (repeated : TRepeated container world) (i j : uint64_t)
    (data : PlayerBagequipData container) :
    (repeated.put i data).Get j = if i = j then some data else repeated.Get j :=
  SortedMap.getElem?_insert_eq _ _ _ _

theorem get_removeIndex (repeated : TRepeated container world) (i j : uint64_t) :
    (repeated.RemoveIndex i).Get j = if i = j then none else repeated.Get j :=
  SortedMap.getElem?_erase_eq _ _ _

theorem represents_put {this : container} {repeated : TRepeated container world}
    (h : Represents this repeated) {i : uint64_t} {data : PlayerBagequipData container}
    (hkey : data.m_i64Key = i) (hhandle : data.m_pDataHanle = some this) :
    Represents this (repeated.put i data) := by
  rw [represents_iff] at h ⊢
  intro j other hget
  rw [get_put] at hget
  split at hget
  · rename_i hsame
    cases hget
    exact ⟨hkey.trans hsame, hhandle⟩
  · exact h j other hget

theorem represents_removeIndex {this : container} {repeated : TRepeated container world}
    (h : Represents this repeated) (i : uint64_t) :
    Represents this (repeated.RemoveIndex i) := by
  rw [represents_iff] at h ⊢
  intro j data hget
  rw [get_removeIndex] at hget
  split at hget
  · cases hget
  · exact h j data hget

theorem get_removeIndex_self (repeated : TRepeated container world) (i : uint64_t) :
    (repeated.RemoveIndex i).Get i = none := by
  rw [get_removeIndex, if_pos rfl]

/-!
# Loading an element

Only its values change.
-/

theorem foldl_syncValue_eq (calls : List (uint32_t × Text))
    (data : PlayerBagequipData container) :
    exists value, calls.foldl PlayerBagequipData.syncValue data = { data with value := value } := by
  induction calls generalizing data with
  | nil => exact ⟨data.value, rfl⟩
  | cons call calls ih =>
      rcases ih (data.syncValue call) with ⟨value, hvalue⟩
      exact ⟨value, hvalue⟩

theorem loadElement_keeps (repeated : TRepeated container world) (state : world)
    (data : PlayerBagequipData container) :
    exists value, (repeated.loadElement state data).2.1 = { data with value := value } := by
  unfold loadElement
  split
  · exact ⟨data.value, rfl⟩
  · split
    · exact ⟨data.value, rfl⟩
    · exact foldl_syncValue_eq _ data

/-- Constant values are the only ones that events reach, and there are none. -/
theorem sync_eq (data : PlayerBagequipData container) (stValue : SyncValue) :
    data.Sync stValue = data := by
  unfold PlayerBagequipData.Sync PlayerBagequipData.IsConst
  induction stValue.mValue.toList with
  | nil => rfl
  | cons it rest ih =>
      rw [List.foldl_cons, if_neg (fun h => by cases h.right)]
      exact ih

/-!
# Adding and removing by events
-/

theorem addIndex_spec (this : container) (repeated : TRepeated container world) (state : world)
    (i : uint64_t) :
    exists data, data.m_i64Key = i ∧ data.m_pDataHanle = some this ∧
      (repeated.AddIndex this state i).1.2 = repeated.put i data := by
  let stData := (((repeated.Get i).getD .new).SetKey i).SetDataHandle this
  rcases repeated.loadElement_keeps state stData with ⟨value, hvalue⟩
  exact ⟨{ stData with value := value }, rfl, rfl, congrArg (repeated.put i) hvalue⟩

theorem represents_addIndex {this : container} {repeated : TRepeated container world}
    (h : Represents this repeated) (state : world) (i : uint64_t) :
    Represents this (repeated.AddIndex this state i).1.2 := by
  rcases addIndex_spec this repeated state i with ⟨data, hkey, hhandle, hEq⟩
  rw [hEq]
  exact represents_put h hkey hhandle

theorem represents_changeEach {this : container} {changes : List (uint64_t × Bool)}
    {repeated : TRepeated container world} (h : Represents this repeated) (state : world) :
    Represents this (repeated.changeEach this state changes).1.2 := by
  induction changes generalizing repeated state with
  | nil => exact h
  | cons it changes ih =>
      unfold changeEach
      split
      · have hadded := represents_addIndex h state it.1
        dsimp only
        split
        · exact ih hadded _
        · exact hadded
      · exact ih (represents_removeIndex h it.1) state

theorem represents_syncEach {this : container} {mValue : List (uint64_t × SyncValue)}
    {repeated : TRepeated container world} (h : Represents this repeated) :
    Represents this (repeated.syncEach mValue) := by
  induction mValue generalizing repeated with
  | nil => exact h
  | cons it mValue ih =>
      unfold syncEach
      rw [List.foldl_cons]
      apply ih
      cases hget : repeated.Get it.1 with
      | none => exact h
      | some data =>
          dsimp only
          rw [sync_eq]
          exact represents_put h (h.keyed _ _ hget) (h.handled _ _ hget)

theorem represents_sync {this : container} {repeated : TRepeated container world}
    (h : Represents this repeated) (state : world) (stRepeated : SyncRepeated) :
    Represents this (repeated.Sync this state stRepeated).1.2 := by
  have hchanged : Represents this (repeated.changeEach this state stRepeated.vChange).1.2 :=
    represents_changeEach h state
  unfold Sync
  dsimp only
  split
  · exact represents_syncEach hchanged
  · exact hchanged

/-!
# Loading the container

Each index that the adapter lists and whose load it answers with `true` is put in, if it is
new, with a copy that has no key.
-/

/-- The indices whose loads are answered with `true`, as far as nothing is thrown. -/
def answered (adapter : IDataAdapter world) (iKey : uint64_t) (state : world) :
    List uint64_t -> List uint64_t
  | [] => []
  | it :: rest =>
      let answer := adapter.Load state iKey it
        [BagequipField.ConfigId.KeyField, BagequipField.Level.KeyField]
      match answer.2.2 with
      | .error _ => []
      | .ok false => answered adapter iKey answer.1 rest
      | .ok true => it :: answered adapter iKey answer.1 rest

/-- What the adapter lists and answers for a load of the container. -/
def loadable (repeated : TRepeated container world) (state : world) : List uint64_t :=
  match repeated.m_pHandle with
  | none => []
  | some owner =>
      match owner.m_pDataHanle with
      | none => []
      | some adapter =>
          match adapter.GetAllKey state owner.m_i64Key player_bagequip with
          | (_, .error _) => []
          | (listed, .ok listKey) => answered adapter owner.m_i64Key listed listKey

/-- What is there stays, and what is new is where a load was answered. -/
structure Fills (this : container) (repeated filled : TRepeated container world)
    (indices : List uint64_t) : Prop where
  kept : forall i data, repeated.Get i = some data -> filled.Get i = some data
  fresh : forall i, repeated.Get i = none -> i ∈ indices ->
    exists data, filled.Get i = some data ∧ data.m_i64Key = 0 ∧ data.m_pDataHanle = some this
  others : forall i, repeated.Get i = none -> i ∉ indices -> filled.Get i = none

theorem fills_nil (this : container) (repeated : TRepeated container world) :
    Fills this repeated repeated [] := by
  constructor
  case kept => exact fun i data h => h
  case fresh => exact fun i _ hmem => by cases hmem
  case others => exact fun i h _ => h

/-- An index that is there already makes no difference. -/
theorem fills_known {this : container} {repeated filled : TRepeated container world}
    {indices : List uint64_t} (h : Fills this repeated filled indices) {it : uint64_t}
    (hknown : (repeated.Get it).isSome) : Fills this repeated filled (it :: indices) := by
  have hne : forall i, repeated.Get i = none -> i ≠ it := by
    intro i hnone hsame
    rw [← hsame, hnone] at hknown
    cases hknown
  constructor
  case kept => exact h.kept
  case fresh =>
    intro i hnone hmem
    exact h.fresh i hnone (List.mem_of_ne_of_mem (hne i hnone) hmem)
  case others =>
    intro i hnone hmem
    exact h.others i hnone (fun hrest => hmem (List.mem_cons_of_mem it hrest))

theorem fills_put {this : container} {repeated filled : TRepeated container world}
    {it : uint64_t} {data : PlayerBagequipData container} {indices : List uint64_t}
    (h : Fills this (repeated.put it data) filled indices) (hnew : repeated.Get it = none)
    (hkey : data.m_i64Key = 0) (hhandle : data.m_pDataHanle = some this) :
    Fills this repeated filled (it :: indices) := by
  have hhere : filled.Get it = some data := by
    apply h.kept
    rw [get_put, if_pos rfl]
  have hother : forall {i}, i ≠ it -> (repeated.put it data).Get i = repeated.Get i := by
    intro i hne
    rw [get_put, if_neg (fun hsame => hne hsame.symm)]
  constructor
  case kept =>
    intro i other hget
    have hne : i ≠ it := by
      intro hsame
      rw [hsame, hnew] at hget
      cases hget
    exact h.kept i other ((hother hne).trans hget)
  case fresh =>
    intro i hnone hmem
    by_cases hsame : i = it
    · rw [hsame]
      exact ⟨data, hhere, hkey, hhandle⟩
    · exact h.fresh i ((hother hsame).trans hnone) (List.mem_of_ne_of_mem hsame hmem)
  case others =>
    intro i hnone hmem
    have hne : i ≠ it := fun hsame => hmem (hsame ▸ List.mem_cons_self)
    exact h.others i ((hother hne).trans hnone)
      (fun hrest => hmem (List.mem_cons_of_mem it hrest))

/-- What the adapter answers for an element that has been given its key. -/
theorem loadElement_keyed (this : container) {repeated : TRepeated container world}
    {owner : TStruct (IDataAdapter world)} (howner : repeated.m_pHandle = some owner)
    {adapter : IDataAdapter world} (hadapter : owner.m_pDataHanle = some adapter)
    (state : world) (it : uint64_t) :
    let loaded := repeated.loadElement state ((PlayerBagequipData.new.SetKey it).SetDataHandle this)
    let answer := adapter.Load state owner.m_i64Key it
      [BagequipField.ConfigId.KeyField, BagequipField.Level.KeyField]
    loaded.1 = answer.1 ∧ loaded.2.2 = answer.2.2 := by
  have hload : forall mValue, repeated.LoadIndex state it mValue =
      adapter.Load state owner.m_i64Key it mValue := by
    intro mValue
    unfold LoadIndex TStruct.Load
    rw [howner]
    dsimp only
    rw [hadapter]
  rw [← hload]
  exact ⟨rfl, rfl⟩

theorem loadEach_fills (this : container) {owner : TStruct (IDataAdapter world)}
    {adapter : IDataAdapter world} (hadapter : owner.m_pDataHanle = some adapter)
    {listKey : List uint64_t} {repeated : TRepeated container world}
    (howner : repeated.m_pHandle = some owner) (state : world) :
    Fills this repeated (repeated.loadEach this state listKey).1.2
      (answered adapter owner.m_i64Key state listKey) := by
  induction listKey generalizing repeated state with
  | nil => exact fills_nil this repeated
  | cons it rest ih =>
      rcases loadElement_keyed this howner hadapter state it with ⟨hstate, hanswer⟩
      unfold loadEach answered
      dsimp only
      rw [hanswer, hstate]
      cases hload : (adapter.Load state owner.m_i64Key it
          [BagequipField.ConfigId.KeyField, BagequipField.Level.KeyField]).2.2 with
      | error exception => exact fills_nil this repeated
      | ok bOK =>
          cases bOK with
          | false => exact ih howner _
          | true =>
              dsimp only
              split
              · rename_i hknown
                exact fills_known (ih howner _) hknown
              · rename_i hnew
                exact fills_put (ih (by exact howner) _)
                  (Option.not_isSome_iff_eq_none.mp hnew) rfl rfl

theorem load_fills (this : container) (repeated : TRepeated container world) (state : world) :
    Fills this repeated (repeated.Load this state).1.2 (repeated.loadable state) := by
  unfold Load loadable
  cases howner : repeated.m_pHandle with
  | none => exact fills_nil this repeated
  | some owner =>
      dsimp only
      unfold TStruct.GetAllKey
      cases hadapter : owner.m_pDataHanle with
      | none => exact fills_nil this repeated
      | some adapter =>
          dsimp only
          rcases adapter.GetAllKey state owner.m_i64Key player_bagequip with ⟨listed, answer⟩
          cases answer with
          | error exception => exact fills_nil this repeated
          | ok listKey => exact loadEach_fills this hadapter howner listed

/-- Only an element with the index 0 can be loaded into its place. -/
theorem represents_load_iff {this : container} {repeated : TRepeated container world}
    (h : Represents this repeated) (state : world) :
    Represents this (repeated.Load this state).1.2 <->
      forall i, i ∈ repeated.loadable state -> (repeated.Get i).isSome ∨ i = 0 := by
  have hfills := load_fills this repeated state
  constructor
  · intro hafter i hmem
    cases hget : repeated.Get i with
    | some data => exact Or.inl rfl
    | none =>
        rcases hfills.fresh i hget hmem with ⟨data, hfilled, hkey, _⟩
        exact Or.inr ((hafter.keyed i data hfilled).symm.trans hkey)
  · intro hzero
    rw [represents_iff] at h ⊢
    intro i data hget
    cases hbefore : repeated.Get i with
    | some old =>
        have hold := hfills.kept i old hbefore
        rw [hget] at hold
        cases hold
        exact h i data hbefore
    | none =>
        by_cases hmem : i ∈ repeated.loadable state
        · rcases hfills.fresh i hbefore hmem with ⟨new, hnew, hkey, hhandle⟩
          rw [hget] at hnew
          cases hnew
          rcases hzero i hmem with hknown | hfirst
          · rw [hbefore] at hknown
            cases hknown
          · exact ⟨hkey.trans hfirst.symm, hhandle⟩
        · rw [hfills.others i hbefore hmem] at hget
          cases hget

/-!
# Adding an element
-/

/-- The element is saved and announced without an exception, if there is anyone to tell. -/
def Accepts (repeated : TRepeated container world) (state : world)
    (texts : List (uint32_t × Text)) (i64Index : uint64_t) : Prop :=
  match repeated.m_pHandle with
  | none => True
  | some owner =>
      match owner.m_pDataHanle with
      | none => False
      | some adapter =>
          (adapter.Save state owner.m_i64Key i64Index texts).2 = none ∧
            (adapter.AddRepeated (adapter.Save state owner.m_i64Key i64Index texts).1
              owner.m_i64Key i64Index player_bagequip).2 = none

theorem ofThrown_eq_returned {thrown : Option Exception} {bValue : Bool} :
    Outcome.ofThrown thrown = .returned bValue <-> thrown = none ∧ bValue = true := by
  cases thrown with
  | none =>
      constructor
      · intro h
        cases h
        exact ⟨rfl, rfl⟩
      · intro h
        rw [h.right]
        rfl
  | some exception =>
      constructor
      · intro h
        cases h
      · intro h
        cases h.left

theorem announce_returned_iff (repeated : TRepeated container world) (state : world)
    (data : PlayerBagequipData container) :
    (repeated.announce state data data.m_i64Key).2 = .returned true <->
      repeated.Accepts state data.texts data.m_i64Key := by
  unfold announce SaveIndex Accepts
  cases repeated.m_pHandle with
  | none => exact iff_of_true rfl trivial
  | some owner =>
      dsimp only
      unfold TStruct.Save TStruct.AddRepeated
      cases hadapter : owner.m_pDataHanle with
      | none => exact iff_of_false (fun h => by cases h) (fun h => h)
      | some adapter =>
          dsimp only
          cases hsaved : (adapter.Save state owner.m_i64Key data.m_i64Key data.texts).2 with
          | none =>
              rw [and_iff_right rfl]
              dsimp only [Outcome.ofThrown]
              rw [hadapter]
              exact ofThrown_eq_returned.trans (and_iff_left rfl)
          | some exception => exact iff_of_false (fun h => by cases h) (fun h => by cases h.left)

theorem add_known (this : container) {repeated : TRepeated container world}
    {stData : PlayerBagequipData container} (hknown : (repeated.Get stData.m_i64Key).isSome)
    (state : world) (i64Index : uint64_t) :
    repeated.Add this state stData i64Index = ((state, repeated), .returned false) := by
  unfold Add
  rw [if_pos hknown]

theorem add_new (this : container) {repeated : TRepeated container world}
    {stData : PlayerBagequipData container} (hnew : repeated.Get stData.m_i64Key = none)
    (state : world) (i64Index : uint64_t) :
    (repeated.Add this state stData i64Index).1.2 = repeated.put stData.m_i64Key
        ((stData.copy.SetKey i64Index).SetDataHandle this) ∧
      ((repeated.Add this state stData i64Index).2 = .returned true <->
        repeated.Accepts state stData.texts i64Index) := by
  have hfresh : ¬ (repeated.Get stData.m_i64Key).isSome := by
    rw [hnew]
    exact Bool.false_ne_true
  unfold Add
  rw [if_neg hfresh]
  exact ⟨rfl, announce_returned_iff _ state ((stData.copy.SetKey i64Index).SetDataHandle this)⟩

/-- An addition succeeds exactly for a new index, and what was added is then there. -/
structure AddLaw (repeated : TRepeated container world) (stData : PlayerBagequipData container)
    (i64Index : uint64_t) (added : (world × TRepeated container world) × Outcome) : Prop where
  succeeds : added.2 = .returned true <-> repeated.Get i64Index = none
  there : added.2 = .returned true ->
    exists data, added.1.2.Get i64Index = some data ∧ data.value = stData.value

/-- The element has the index as its key, or neither is new; and it is accepted if the
index is new. -/
def Addable (repeated : TRepeated container world) (state : world)
    (stData : PlayerBagequipData container) (i64Index : uint64_t) : Prop :=
  (stData.m_i64Key = i64Index ∨
      (repeated.Get stData.m_i64Key).isSome ∧ (repeated.Get i64Index).isSome) ∧
    (repeated.Get i64Index = none -> repeated.Accepts state stData.texts i64Index)

theorem add_iff {this : container} {repeated : TRepeated container world}
    (h : Represents this repeated) (state : world) (stData : PlayerBagequipData container)
    (i64Index : uint64_t) :
    Represents this (repeated.Add this state stData i64Index).1.2 ∧
        AddLaw repeated stData i64Index (repeated.Add this state stData i64Index) <->
      repeated.Addable state stData i64Index := by
  cases hkey : repeated.Get stData.m_i64Key with
  | some old =>
      have hknown : (repeated.Get stData.m_i64Key).isSome := by
        rw [hkey]
        rfl
      rw [add_known this hknown]
      constructor
      · intro hlaw
        have hindex : (repeated.Get i64Index).isSome := by
          by_contra hnone
          have hreturned := hlaw.right.succeeds.mpr (Option.not_isSome_iff_eq_none.mp hnone)
          cases hreturned
        refine ⟨Or.inr ⟨hknown, hindex⟩, ?_⟩
        intro hnone
        rw [hnone] at hindex
        cases hindex
      · intro haddable
        have hindex : repeated.Get i64Index ≠ none := by
          rcases haddable.left with hsame | ⟨_, hindex⟩
          · rw [← hsame, hkey]
            exact Option.some_ne_none old
          · exact Option.isSome_iff_ne_none.mp hindex
        refine ⟨h, ?_⟩
        constructor
        case succeeds => exact iff_of_false (fun hreturned => by cases hreturned) hindex
        case there =>
          intro hreturned
          cases hreturned
  | none =>
      rcases add_new this hkey state i64Index with ⟨hput, hreturned⟩
      rw [hput]
      constructor
      · intro hlaw
        have hsame : stData.m_i64Key = i64Index := by
          symm
          refine hlaw.left.keyed stData.m_i64Key
            ((stData.copy.SetKey i64Index).SetDataHandle this) ?_
          rw [get_put, if_pos rfl]
        exact ⟨Or.inl hsame, fun hnone => hreturned.mp (hlaw.right.succeeds.mpr hnone)⟩
      · intro haddable
        have hsame : stData.m_i64Key = i64Index := by
          rcases haddable.left with hsame | ⟨hknown, _⟩
          · exact hsame
          · rw [hkey] at hknown
            cases hknown
        have hnone : repeated.Get i64Index = none := hsame ▸ hkey
        have hthere := hreturned.mpr (haddable.right hnone)
        refine ⟨represents_put h hsame.symm rfl, ?_⟩
        constructor
        case succeeds => exact iff_of_true hthere hnone
        case there =>
          intro _
          refine ⟨(stData.copy.SetKey i64Index).SetDataHandle this, ?_, rfl⟩
          rw [hput, get_put, if_pos hsame]

/-!
# Null pointers

Only `Load` and `Remove` look at the owner without a test, and `Add` saves through the
adapter of an owner without one.
-/

theorem returned_ne_fault (bValue : Bool) : Outcome.returned bValue ≠ .fault := by
  intro h
  cases h

theorem thrown_ne_fault (exception : Exception) : Outcome.thrown exception ≠ .fault := by
  intro h
  cases h

theorem ofThrown_ne_fault (thrown : Option Exception) : Outcome.ofThrown thrown ≠ .fault := by
  cases thrown with
  | none => exact returned_ne_fault true
  | some exception => exact thrown_ne_fault exception

theorem loadEach_ne_fault (this : container) {listKey : List uint64_t}
    {repeated : TRepeated container world} {state : world} :
    (repeated.loadEach this state listKey).2 ≠ .fault := by
  induction listKey generalizing repeated state with
  | nil => exact returned_ne_fault true
  | cons it rest ih =>
      unfold loadEach
      dsimp only
      split
      · exact thrown_ne_fault _
      · exact ih
      · split
        · exact ih
        · exact ih

theorem load_fault_iff (this : container) (repeated : TRepeated container world)
    (state : world) :
    (repeated.Load this state).2 = .fault <-> repeated.m_pHandle = none := by
  unfold Load
  cases repeated.m_pHandle with
  | none => exact iff_of_true rfl rfl
  | some owner =>
      refine iff_of_false ?_ (Option.some_ne_none owner)
      dsimp only
      split
      · exact thrown_ne_fault _
      · exact loadEach_ne_fault this

theorem addIndex_ne_fault (this : container) (repeated : TRepeated container world)
    (state : world) (iIndex : uint64_t) : (repeated.AddIndex this state iIndex).2 ≠ .fault := by
  unfold AddIndex
  dsimp only
  split
  · exact thrown_ne_fault _
  · exact returned_ne_fault true

theorem changeEach_ne_fault (this : container) {changes : List (uint64_t × Bool)}
    {repeated : TRepeated container world} {state : world} :
    (repeated.changeEach this state changes).2 ≠ .fault := by
  induction changes generalizing repeated state with
  | nil => exact returned_ne_fault true
  | cons it changes ih =>
      unfold changeEach
      split
      · dsimp only
        split
        · exact ih
        · exact addIndex_ne_fault this repeated state it.1
      · exact ih

theorem sync_ne_fault (this : container) (repeated : TRepeated container world) (state : world)
    (stRepeated : SyncRepeated) : (repeated.Sync this state stRepeated).2 ≠ .fault := by
  have hchanged : (repeated.changeEach this state stRepeated.vChange).2 ≠ .fault :=
    changeEach_ne_fault this
  unfold Sync
  dsimp only
  split
  · exact returned_ne_fault _
  · exact hchanged

theorem add_ne_fault {this : container} {repeated : TRepeated container world} {state : world}
    {stData : PlayerBagequipData container} {i64Index : uint64_t}
    (h : repeated.Addable state stData i64Index) :
    (repeated.Add this state stData i64Index).2 ≠ .fault := by
  intro hfault
  cases hkey : repeated.Get stData.m_i64Key with
  | some old =>
      rw [add_known this (by rw [hkey]; rfl)] at hfault
      cases hfault
  | none =>
      rcases h.left with hsame | ⟨hknown, _⟩
      · have hreturned := (add_new this hkey state i64Index).right.mpr
          (h.right (hsame ▸ hkey))
        rw [hreturned] at hfault
        cases hfault
      · rw [hkey] at hknown
        cases hknown

theorem remove_fault_iff (repeated : TRepeated container world) (state : world)
    (i64Index : uint64_t) :
    (repeated.Remove state i64Index).2 = .fault <-> repeated.m_pHandle = none := by
  unfold Remove
  cases repeated.m_pHandle with
  | none => exact iff_of_true rfl rfl
  | some owner =>
      refine iff_of_false ?_ (Option.some_ne_none owner)
      dsimp only
      unfold TStruct.RemoveRepeated
      cases owner.m_pDataHanle with
      | none => exact returned_ne_fault true
      | some adapter => exact ofThrown_ne_fault _

end TRepeated

/-!
# Runs
-/

structure RepeatedState (container world : Type) where
  redis : world
  repeated : TRepeated container world

inductive RepeatedCall (container : Type) where
  | load
  | addIndex (iIndex : uint64_t)
  | removeIndex (iIndex : uint64_t)
  | sync (stRepeated : SyncRepeated)
  | add (stData : PlayerBagequipData container) (i64Index : uint64_t)
  | remove (i64Index : uint64_t)

namespace RepeatedState

open Transition TRepeated

variable {container world : Type}

def init (m_pHandle : Option (TStruct (IDataAdapter world))) (redis : world) :
    RepeatedState container world :=
  { redis := redis, repeated := TRepeated.empty m_pHandle }

def call (this : container) (s : RepeatedState container world) :
    RepeatedCall container -> (world × TRepeated container world) × Outcome
  | .load => s.repeated.Load this s.redis
  | .addIndex iIndex => s.repeated.AddIndex this s.redis iIndex
  | .removeIndex iIndex => ((s.redis, s.repeated.RemoveIndex iIndex), .returned true)
  | .sync stRepeated => s.repeated.Sync this s.redis stRepeated
  | .add stData i64Index => s.repeated.Add this s.redis stData i64Index
  | .remove i64Index => s.repeated.Remove s.redis i64Index

/-- The program goes on after an exception, but not after a fault. -/
def step (this : container) (s : RepeatedState container world)
    (c : RepeatedCall container) : Option (RepeatedState container world) :=
  let called := s.call this c
  match called.2 with
  | .fault => none
  | _ => some { redis := called.1.1, repeated := called.1.2 }

/-- What a call should leave behind and answer, and that it goes through no null pointer. -/
def Law (this : container) (s : RepeatedState container world)
    (c : RepeatedCall container) : Prop :=
  (s.call this c).2 ≠ .fault ∧ Represents this (s.call this c).1.2 ∧
    match c with
    | .add stData i64Index => AddLaw s.repeated stData i64Index (s.call this c)
    | .removeIndex i | .remove i => (s.call this c).1.2.Get i = none
    | _ => True

/-- Nothing new is loaded but under the index 0, and what is added has its index as its
key; a load and a removal have an owner. -/
def Fits (s : RepeatedState container world) : RepeatedCall container -> Prop
  | .load => s.repeated.m_pHandle ≠ none ∧
      forall i, i ∈ s.repeated.loadable s.redis -> (s.repeated.Get i).isSome ∨ i = 0
  | .add stData i64Index => s.repeated.Addable s.redis stData i64Index
  | .remove _ => s.repeated.m_pHandle ≠ none
  | _ => True

theorem remove_eq (s : RepeatedState container world) (this : container) (i : uint64_t) :
    (s.call this (.remove i)).1.2 = s.repeated.RemoveIndex i := by
  unfold call Remove
  dsimp only
  split
  · rfl
  · rfl

theorem law_iff_fits {this : container} {s : RepeatedState container world}
    (h : Represents this s.repeated) (c : RepeatedCall container) :
    s.Law this c <-> s.Fits c := by
  unfold Law Fits
  cases c with
  | load =>
      refine and_congr ?_ ((and_iff_left trivial).trans (represents_load_iff h s.redis))
      exact not_congr (load_fault_iff this s.repeated s.redis)
  | addIndex i =>
      exact iff_of_true ⟨addIndex_ne_fault this s.repeated s.redis i,
        represents_addIndex h s.redis i, trivial⟩ trivial
  | removeIndex i =>
      exact iff_of_true ⟨returned_ne_fault true, represents_removeIndex h i,
        get_removeIndex_self s.repeated i⟩ trivial
  | sync stRepeated =>
      exact iff_of_true ⟨sync_ne_fault this s.repeated s.redis stRepeated,
        represents_sync h s.redis stRepeated, trivial⟩ trivial
  | add stData i64Index =>
      have hadd := add_iff h s.redis stData i64Index
      exact ⟨fun hlaw => hadd.mp hlaw.right,
        fun haddable => ⟨add_ne_fault haddable, hadd.mpr haddable⟩⟩
  | remove i =>
      have hfault := not_congr (remove_fault_iff s.repeated s.redis i)
      rw [remove_eq]
      exact ⟨fun hlaw => hfault.mp hlaw.left, fun howner => ⟨hfault.mpr howner,
        represents_removeIndex h i, get_removeIndex_self s.repeated i⟩⟩

theorem represents_step {this : container} {s t : RepeatedState container world}
    {c : RepeatedCall container} (hlaw : s.Law this c) (hstep : step this s c = some t) :
    Represents this t.repeated := by
  unfold step at hstep
  dsimp only at hstep
  split at hstep
  · cases hstep
  · cases hstep
    exact hlaw.right.left

/-- Exactly in the runs whose loads and additions fit, every call leaves and answers what
it should. -/
theorem law_iff (this : container) (m_pHandle : Option (TStruct (IDataAdapter world)))
    (redis : world) (calls : List (RepeatedCall container)) :
    AllSteps (step this) (Law this) (init m_pHandle redis) calls <->
      AllSteps (step this) Fits (init m_pHandle redis) calls := by
  let Inv : RepeatedState container world -> Prop := fun s => Represents this s.repeated
  have hinit : Inv (init m_pHandle redis) := represents_empty this m_pHandle
  constructor
  · refine allSteps_of_invariant ?_ ?_ hinit
    · exact fun s c t _ hlaw hstep => represents_step hlaw hstep
    · exact fun s c h hlaw => (law_iff_fits h c).mp hlaw
  · refine allSteps_of_invariant ?_ ?_ hinit
    · exact fun s c t h hfits hstep => represents_step ((law_iff_fits h c).mpr hfits) hstep
    · exact fun s c h hfits => (law_iff_fits h c).mpr hfits

/-- An adapter that has one element, with the index 3. -/
def oneElement : IDataAdapter Unit :=
  { Load := fun _ _ _ _ => ((), [], .ok true),
    Save := fun _ _ _ _ => ((), none),
    SetValue := fun _ _ _ _ => (),
    GetAllKey := fun _ _ _ => ((), .ok [3]),
    AddRepeated := fun _ _ _ _ => ((), none),
    RemoveRepeated := fun _ _ _ _ => ((), none) }

/-- Loading it leaves it without its key. -/
theorem oneElement_unkeyed :
    ¬ AllSteps (step ()) (Law ())
      (init (some { m_i64Key := 7, m_mValue := [], m_pDataHanle := some oneElement }) ())
      [.load] := by
  intro h
  have hloaded :=
    ((law_iff_fits (represents_empty () _) .load).mp h.left).right 3 List.mem_cons_self
  rcases hloaded with hknown | hzero
  · cases hknown
  · cases hzero

end RepeatedState
end DataHandle
end GMServer
