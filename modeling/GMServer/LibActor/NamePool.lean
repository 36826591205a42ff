import Mathlib.Logic.Relator
import GMServer.DataHandle.StringValue
import GMServer.Library.Replay
import GMServer.Library.SortedMap
import GMServer.Library.Transition
import GMServer.LibActor.Mailbox

/-!
# Pooled names

`NamePool` keeps one copy of every text, in buckets that are found by a hash, and gives out
the address of its characters.  A `Name` is such an address, and names are compared by it.
-/

namespace GMServer
namespace LibActor

open Std
open DataHandle (cStr cStr_cStr of_mem_cStr)

/-- An element of a bucket and what `c_str()` gives for it as long as it lives. -/
structure PooledString where
  pointer : Nat
  str : Text
  deriving DecidableEq, Repr

structure NamePool where
  m_mapBucket : ExtTreeMap Int (List PooledString)

namespace NamePool

/-!
# Hashing

Characters are signed.
-/

def charValue (ch : Char) : uint32_t := (BitVec.ofNat 8 ch.toNat).signExtend 32

def Hash (str : Text) : uint32_t :=
  (cStr str).foldl (fun hash ch => (hash <<< 5) + hash + charValue ch) 5381

/-- The conversion to the `int32_t` that the map is keyed with. -/
def bucketOf (str : Text) : Int := (Hash str).toInt

/-!
# Looking up

A text that is not there yet is put into a new element of its bucket, whose characters are
at `address`.
-/

def lookupBucket (bucket : List PooledString) (str : Text) (address : Nat) :
    List PooledString × Nat :=
  match bucket.find? (fun it => cStr it.str = cStr str) with
  | some it => (bucket, it.pointer)
  | none => (bucket ++ [{ pointer := address, str := cStr str }], address)

def empty : NamePool := { m_mapBucket := ∅ }

def setBucket (pool : NamePool) (i : Int) (bucket : List PooledString) : NamePool :=
  { m_mapBucket := pool.m_mapBucket.insert i bucket }

def Lookup (pool : NamePool) (str : Option Text) (address : Nat) : NamePool × Nat :=
  match str with
  | none => (pool, 0)
  | some str =>
      let found := lookupBucket (pool.m_mapBucket[bucketOf str]?.getD []) str address
      (pool.setBucket (bucketOf str) found.1, found.2)

/-- All elements of all buckets. -/
def strings (pool : NamePool) : List PooledString := pool.m_mapBucket.toList.flatMap Prod.snd

/-- What is read at an address that was given out. -/
def read (pool : NamePool) (pointer : Nat) : Option Text :=
  (pool.strings.find? (fun it => it.pointer = pointer)).map PooledString.str

/-- What an allocation can give: no null pointer and nothing that is in use. -/
def Unused (pool : NamePool) (address : Nat) : Prop :=
  address ≠ 0 ∧ forall it, it ∈ pool.strings -> it.pointer ≠ address

instance (pool : NamePool) (address : Nat) : Decidable (pool.Unused address) :=
  have : Decidable (forall it, it ∈ pool.strings -> it.pointer ≠ address) :=
    List.decidableBAll (fun it => it.pointer ≠ address) pool.strings
  inferInstanceAs (Decidable (_ ∧ _))

end NamePool

/-- The constructor of `Name`; without a text nothing is looked up. -/
def Name.ofString (pool : NamePool) (str : Option Text) (address : Nat) : NamePool × Name :=
  match str with
  | none => (pool, { mValue := 0 })
  | some str =>
      let found := pool.Lookup (some str) address
      (found.1, { mValue := found.2 })

def Name.IsNull (name : Name) : Bool := name.mValue == 0

/-!
# Runs

What was asked for and what was returned for it is kept beside the pool.
-/

structure NameState where
  pool : NamePool
  results : List (Option Text × Nat)
  names : List (Option Text × Name)

inductive NameCall where
  | Get (str : Option Text) (address : Nat)
  | Name (str : Option Text) (address : Nat)
  deriving DecidableEq

def NameCall.address : NameCall -> Nat
  | .Get _ address => address
  | .Name _ address => address

namespace NameState

open Transition

def init : NameState := { pool := NamePool.empty, results := [], names := [] }

def perform (s : NameState) : NameCall -> NameState
  | .Get str address =>
      let found := s.pool.Lookup str address
      { s with pool := found.1, results := (str, found.2) :: s.results }
  | .Name str address =>
      let made := Name.ofString s.pool str address
      { s with pool := made.1, names := (str, made.2) :: s.names }

def step (s : NameState) (call : NameCall) : Option NameState :=
  if s.pool.Unused call.address then some (s.perform call) else none

/-- Texts are compared up to their first zero character, as C strings are. -/
def SameText (one two : Option Text) : Prop := one.map cStr = two.map cStr

/-- What interning is about, for the calls so far and the pool as it is now. -/
structure Interned (s : NameState) : Prop where
  same : forall one two, one ∈ s.results -> two ∈ s.results ->
    (one.2 = two.2 <-> SameText one.1 two.1)
  valid : forall str pointer, (some str, pointer) ∈ s.results ->
    s.pool.read pointer = some (cStr str)
  once : (s.pool.strings.map PooledString.str).Nodup
  names : forall one two, one ∈ s.names -> two ∈ s.names ->
    (one.2 = two.2 <-> SameText one.1 two.1)
  null : forall str name, (str, name) ∈ s.names -> (name.IsNull = true <-> str = none)

end NameState

namespace NamePool

/-!
# One element for each text
-/

def Holds (pool : NamePool) (pointer : Nat) (str : Text) : Prop :=
  ({ pointer := pointer, str := str } : PooledString) ∈ pool.strings

theorem mem_strings {pool : NamePool} {it : PooledString} :
    it ∈ pool.strings <-> exists (i : Int) (bucket : List PooledString),
      pool.m_mapBucket[i]? = some bucket ∧ it ∈ bucket := by
  unfold strings
  rw [List.mem_flatMap]
  constructor
  · intro h
    rcases h with ⟨entry, hentry, hit⟩
    exact ⟨entry.1, entry.2, ExtTreeMap.mem_toList_iff_getElem?_eq_some.mp hentry, hit⟩
  · intro h
    rcases h with ⟨i, bucket, hget, hit⟩
    exact ⟨(i, bucket), ExtTreeMap.mem_toList_iff_getElem?_eq_some.mpr hget, hit⟩

structure PoolInv (pool : NamePool) : Prop where
  placed : forall (i : Int) (bucket : List PooledString), pool.m_mapBucket[i]? = some bucket ->
    forall it, it ∈ bucket -> bucketOf it.str = i ∧ cStr it.str = it.str ∧ it.pointer ≠ 0
  distinct : forall (i : Int) (bucket : List PooledString),
    pool.m_mapBucket[i]? = some bucket -> (bucket.map PooledString.str).Nodup
  biUnique : Relator.BiUnique pool.Holds

theorem poolInv_empty : PoolInv empty := by
  have hnone : forall (i : Int) (bucket : List PooledString),
      empty.m_mapBucket[i]? ≠ some bucket := by
    intro i bucket h
    rw [show empty.m_mapBucket = ∅ from rfl, ExtTreeMap.getElem?_empty] at h
    cases h
  have hheld : forall pointer str, ¬ empty.Holds pointer str := by
    intro pointer str h
    rcases mem_strings.mp h with ⟨i, bucket, hget, _⟩
    exact hnone i bucket hget
  constructor
  · intro i bucket hget
    exact absurd hget (hnone i bucket)
  · intro i bucket hget
    exact absurd hget (hnone i bucket)
  · constructor
    · intro one two str hone
      exact absurd hone (hheld one str)
    · intro pointer one two hone
      exact absurd hone (hheld pointer one)

theorem bucketOf_cStr (str : Text) : bucketOf (cStr str) = bucketOf str := by
  unfold bucketOf Hash
  rw [cStr_cStr]

theorem lookupBucket_cases (bucket : List PooledString) (str : Text) (address : Nat) :
    (exists it, it ∈ bucket ∧ cStr it.str = cStr str ∧
        lookupBucket bucket str address = (bucket, it.pointer)) ∨
      (forall it, it ∈ bucket -> cStr it.str ≠ cStr str) ∧
        lookupBucket bucket str address =
          (bucket ++ [{ pointer := address, str := cStr str }], address) := by
  unfold lookupBucket
  split
  · rename_i it hfind
    have hsame := List.find?_some hfind
    exact Or.inl ⟨it, List.mem_of_find?_eq_some hfind, of_decide_eq_true hsame, rfl⟩
  · rename_i hfind
    refine Or.inr ⟨?_, rfl⟩
    intro it hit hsame
    exact List.find?_eq_none.mp hfind it hit (decide_eq_true hsame)

/-!
# What one lookup does
-/

section Lookup

variable {pool : NamePool} {str : Text} {address : Nat}

/-- The bucket of a text, which is empty as long as nothing was put into it. -/
theorem placed_bucket (hinv : PoolInv pool) (i : Int) {it : PooledString}
    (hit : it ∈ pool.m_mapBucket[i]?.getD []) :
    bucketOf it.str = i ∧ cStr it.str = it.str ∧ it.pointer ≠ 0 := by
  cases hget : pool.m_mapBucket[i]? with
  | none =>
      rw [hget] at hit
      cases hit
  | some bucket =>
      rw [hget] at hit
      exact hinv.placed i bucket hget it hit

/-- The elements of the text's bucket are those of the pool with its hash. -/
theorem mem_bucket (hinv : PoolInv pool) {it : PooledString} :
    it ∈ pool.m_mapBucket[bucketOf str]?.getD [] <->
      it ∈ pool.strings ∧ bucketOf it.str = bucketOf str := by
  constructor
  · intro hit
    refine ⟨mem_strings.mpr ?_, (placed_bucket hinv _ hit).left⟩
    cases hget : pool.m_mapBucket[bucketOf str]? with
    | none =>
        rw [hget] at hit
        cases hit
    | some bucket =>
        rw [hget] at hit
        exact ⟨bucketOf str, bucket, hget, hit⟩
  · intro h
    rcases mem_strings.mp h.left with ⟨i, bucket, hget, hit⟩
    rw [← h.right, (hinv.placed i bucket hget it hit).left, hget]
    exact hit

theorem mem_strings_setBucket (hinv : PoolInv pool) (i : Int) (bucket : List PooledString)
    {it : PooledString} :
    it ∈ (pool.setBucket i bucket).strings <->
      it ∈ bucket ∨ it ∈ pool.strings ∧ bucketOf it.str ≠ i := by
  rw [mem_strings, mem_strings]
  unfold setBucket
  constructor
  · intro h
    rcases h with ⟨j, other, hget, hit⟩
    rw [SortedMap.getElem?_insert_eq] at hget
    split at hget
    · cases hget
      exact Or.inl hit
    · rename_i hne
      right
      refine ⟨⟨j, other, hget, hit⟩, ?_⟩
      rw [(hinv.placed j other hget it hit).left]
      exact Ne.symm hne
  · intro h
    rcases h with hbucket | ⟨⟨j, other, hget, hit⟩, hne⟩
    · exact ⟨i, bucket, SortedMap.getElem?_insert_same _ _ _, hbucket⟩
    · rw [(hinv.placed j other hget it hit).left] at hne
      exact ⟨j, other, (SortedMap.getElem?_insert_ne _ _ (Ne.symm hne)).trans hget, hit⟩

theorem poolInv_setBucket (hinv : PoolInv pool) {i : Int} {bucket : List PooledString}
    (hplaced : forall it, it ∈ bucket ->
      bucketOf it.str = i ∧ cStr it.str = it.str ∧ it.pointer ≠ 0)
    (hdistinct : (bucket.map PooledString.str).Nodup)
    (hunique : Relator.BiUnique (pool.setBucket i bucket).Holds) :
    PoolInv (pool.setBucket i bucket) := by
  constructor
  · intro j other hget
    unfold setBucket at hget
    rw [SortedMap.getElem?_insert_eq] at hget
    split at hget
    · rename_i hsame
      cases hget
      rw [← hsame]
      exact hplaced
    · exact hinv.placed j other hget
  · intro j other hget
    unfold setBucket at hget
    rw [SortedMap.getElem?_insert_eq] at hget
    split at hget
    · cases hget
      exact hdistinct
    · exact hinv.distinct j other hget
  · exact hunique

theorem distinct_bucket (hinv : PoolInv pool) (i : Int) :
    ((pool.m_mapBucket[i]?.getD []).map PooledString.str).Nodup := by
  cases hget : pool.m_mapBucket[i]? with
  | none => exact List.nodup_nil
  | some bucket => exact hinv.distinct i bucket hget

/-- A text with a new address beside those that are there. -/
theorem biUnique_add {holds after : Nat -> Text -> Prop} (hunique : Relator.BiUnique holds)
    {pointer : Nat} {text : Text}
    (hadd : forall q t, after q t <-> holds q t ∨ q = pointer ∧ t = text)
    (hpointer : forall t, ¬ holds pointer t) (htext : forall q, ¬ holds q text) :
    Relator.BiUnique after := by
  constructor
  · intro one two t hone htwo
    rcases (hadd one t).mp hone with hold | ⟨hnew, heq⟩
    · rcases (hadd two t).mp htwo with hold' | ⟨_, heq'⟩
      · exact hunique.left hold hold'
      · rw [heq'] at hold
        exact absurd hold (htext one)
    · rcases (hadd two t).mp htwo with hold' | ⟨hnew', _⟩
      · rw [heq] at hold'
        exact absurd hold' (htext two)
      · rw [hnew, hnew']
  · intro q one two hone htwo
    rcases (hadd q one).mp hone with hold | ⟨heq, hnew⟩
    · rcases (hadd q two).mp htwo with hold' | ⟨heq', _⟩
      · exact hunique.right hold hold'
      · rw [heq'] at hold
        exact absurd hold (hpointer one)
    · rcases (hadd q two).mp htwo with hold' | ⟨_, hnew'⟩
      · rw [heq] at hold'
        exact absurd hold' (hpointer two)
      · rw [hnew, hnew']

/-- A lookup keeps what is there, and what it returns holds the text that was asked for. -/
theorem lookup_spec (hinv : PoolInv pool) (hunused : pool.Unused address) (str : Text) :
    PoolInv (pool.Lookup (some str) address).1 ∧
      (pool.Lookup (some str) address).1.Holds (pool.Lookup (some str) address).2 (cStr str) ∧
      forall pointer text, pool.Holds pointer text ->
        (pool.Lookup (some str) address).1.Holds pointer text := by
  have hbucket : forall it, it ∈ pool.m_mapBucket[bucketOf str]?.getD [] ->
      bucketOf it.str = bucketOf str ∧ cStr it.str = it.str ∧ it.pointer ≠ 0 :=
    fun it hit => placed_bucket hinv _ hit
  unfold Lookup
  dsimp only
  rcases lookupBucket_cases (pool.m_mapBucket[bucketOf str]?.getD []) str address with
    ⟨it, hit, hsame, hfound⟩ | ⟨habsent, hadded⟩
  · -- the bucket is stored as it was
    rw [hfound]
    have hholds : forall pointer text,
        (pool.setBucket (bucketOf str) (pool.m_mapBucket[bucketOf str]?.getD [])).Holds pointer
          text <-> pool.Holds pointer text := by
      intro pointer text
      unfold Holds
      rw [mem_strings_setBucket hinv, mem_bucket hinv, ← and_or_left]
      exact and_iff_left (Classical.em _)
    have hrelation := funext (fun pointer => funext (fun text => propext (hholds pointer text)))
    refine ⟨poolInv_setBucket hinv hbucket (distinct_bucket hinv _) ?_, ?_, ?_⟩
    · rw [hrelation]
      exact hinv.biUnique
    · rw [hholds, ← hsame, (hbucket it hit).right.left]
      exact ((mem_bucket hinv).mp hit).left
    · intro pointer text h
      exact (hholds pointer text).mpr h
  · rw [hadded]
    have hnew : bucketOf (cStr str) = bucketOf str := bucketOf_cStr str
    have hholds : forall pointer text,
        (pool.setBucket (bucketOf str) (pool.m_mapBucket[bucketOf str]?.getD [] ++
          [{ pointer := address, str := cStr str }])).Holds pointer text <->
          pool.Holds pointer text ∨ pointer = address ∧ text = cStr str := by
      intro pointer text
      unfold Holds
      rw [mem_strings_setBucket hinv, List.mem_append, mem_bucket hinv, List.mem_singleton,
        PooledString.mk.injEq, or_right_comm, ← and_or_left, and_iff_left (Classical.em _)]
    have htext : forall pointer, ¬ pool.Holds pointer (cStr str) := by
      intro pointer h
      exact habsent _ ((mem_bucket hinv).mpr ⟨h, hnew⟩) (cStr_cStr str)
    refine ⟨poolInv_setBucket hinv ?_ ?_ ?_, ?_, ?_⟩
    · intro it hit
      rcases List.mem_append.mp hit with hold | hlast
      · exact hbucket it hold
      · rw [List.mem_singleton.mp hlast]
        exact ⟨hnew, cStr_cStr str, hunused.left⟩
    · rw [List.map_append, List.nodup_append']
      refine ⟨distinct_bucket hinv _, List.nodup_singleton _, ?_⟩
      intro text hold hlast
      rcases List.mem_map.mp hold with ⟨it, hit, hEq⟩
      apply habsent it hit
      rw [(hbucket it hit).right.left, hEq, List.mem_singleton.mp hlast]
    · exact biUnique_add hinv.biUnique hholds
        (fun text h => hunused.right _ h rfl) htext
    · exact (hholds address (cStr str)).mpr (Or.inr ⟨rfl, rfl⟩)
    · intro pointer text h
      exact (hholds pointer text).mpr (Or.inl h)

theorem pointer_ne_zero (hinv : PoolInv pool) {pointer : Nat} {text : Text}
    (h : pool.Holds pointer text) : pointer ≠ 0 := by
  rcases mem_strings.mp h with ⟨i, bucket, hget, hit⟩
  exact (hinv.placed i bucket hget _ hit).right.right

theorem read_of_holds (hinv : PoolInv pool) {pointer : Nat} {text : Text}
    (h : pool.Holds pointer text) : pool.read pointer = some text := by
  unfold read
  cases hfind : pool.strings.find? (fun it => it.pointer = pointer) with
  | none =>
      have hnot := List.find?_eq_none.mp hfind _ h
      exact absurd (decide_eq_true rfl) hnot
  | some it =>
      have hfound := List.find?_some hfind
      have hpointer : it.pointer = pointer := of_decide_eq_true hfound
      have hheld : pool.Holds pointer it.str := by
        rw [← hpointer]
        exact List.mem_of_find?_eq_some hfind
      rw [Option.map_some, hinv.biUnique.right hheld h]

theorem strings_once (hinv : PoolInv pool) : (pool.strings.map PooledString.str).Nodup := by
  unfold strings
  rw [List.map_flatMap]
  apply Replay.nodup_flatMap_of_label (SortedMap.nodup_keys pool.m_mapBucket)
    (g := bucketOf)
  · intro entry hentry
    exact hinv.distinct entry.1 entry.2 (ExtTreeMap.mem_toList_iff_getElem?_eq_some.mp hentry)
  · intro entry hentry text htext
    rcases List.mem_map.mp htext with ⟨it, hit, hEq⟩
    rw [← hEq]
    exact (hinv.placed entry.1 entry.2
      (ExtTreeMap.mem_toList_iff_getElem?_eq_some.mp hentry) it hit).left

/-!
# What an address stands for
-/

/-- The null pointer for no text, the address of its copy for a text. -/
def Denotes (pool : NamePool) : Option Text -> Nat -> Prop
  | none, pointer => pointer = 0
  | some str, pointer => pool.Holds pointer (cStr str)

theorem denotes_iff (hinv : PoolInv pool) {one two : Option Text} {p q : Nat}
    (hone : pool.Denotes one p) (htwo : pool.Denotes two q) :
    p = q <-> one.map cStr = two.map cStr := by
  cases one with
  | none =>
      have hp : p = 0 := hone
      cases two with
      | none =>
          have hq : q = 0 := htwo
          exact iff_of_true (hp.trans hq.symm) rfl
      | some text =>
          have hq : q ≠ 0 := pointer_ne_zero hinv htwo
          exact iff_of_false (fun h => hq (h.symm.trans hp)) (fun h => by cases h)
  | some str =>
      have hp : p ≠ 0 := pointer_ne_zero hinv hone
      cases two with
      | none =>
          have hq : q = 0 := htwo
          exact iff_of_false (fun h => hp (h.trans hq)) (fun h => by cases h)
      | some text =>
          rw [Option.map_some, Option.map_some, Option.some.injEq]
          constructor
          · intro h
            rw [← h] at htwo
            exact hinv.biUnique.right hone htwo
          · intro h
            have hheld : pool.Holds p (cStr str) := hone
            rw [h] at hheld
            exact hinv.biUnique.left hheld htwo

/-- What an address stands for does not change with a later lookup. -/
theorem lookup_denotes (hinv : PoolInv pool) (hunused : pool.Unused address)
    (str : Option Text) :
    PoolInv (pool.Lookup str address).1 ∧
      (pool.Lookup str address).1.Denotes str (pool.Lookup str address).2 ∧
      forall other pointer, pool.Denotes other pointer ->
        (pool.Lookup str address).1.Denotes other pointer := by
  cases str with
  | none => exact ⟨hinv, rfl, fun _ _ h => h⟩
  | some text =>
      rcases lookup_spec hinv hunused text with ⟨hafter, hreturned, hkept⟩
      refine ⟨hafter, hreturned, ?_⟩
      intro other pointer h
      cases other with
      | none => exact h
      | some earlier => exact hkept pointer (cStr earlier) h

end Lookup

end NamePool

theorem Name.ofString_eq (pool : NamePool) (str : Option Text) (address : Nat) :
    Name.ofString pool str address =
      ((pool.Lookup str address).1, { mValue := (pool.Lookup str address).2 }) := by
  cases str with
  | none => rfl
  | some text => rfl

namespace NameState

open Transition

/-!
# The invariant of a run
-/

structure NameInv (s : NameState) : Prop where
  pool : s.pool.PoolInv
  results : forall str pointer, (str, pointer) ∈ s.results -> s.pool.Denotes str pointer
  names : forall str name, (str, name) ∈ s.names -> s.pool.Denotes str name.mValue

theorem nameInv_init : NameInv init where
  pool := NamePool.poolInv_empty
  results := fun _ _ h => absurd h List.not_mem_nil
  names := fun _ _ h => absurd h List.not_mem_nil

theorem nameInv_step {s t : NameState} {call : NameCall} (hinv : NameInv s)
    (hstep : step s call = some t) : NameInv t := by
  unfold step at hstep
  split at hstep
  · rename_i hunused
    rw [← Option.some.inj hstep]
    cases call with
    | Get str address =>
        rcases NamePool.lookup_denotes hinv.pool hunused str with ⟨hpool, hreturned, hkept⟩
        constructor
        · exact hpool
        · intro other pointer h
          rcases List.mem_cons.mp h with hnew | hold
          · cases hnew
            exact hreturned
          · exact hkept other pointer (hinv.results other pointer hold)
        · intro other name h
          exact hkept other name.mValue (hinv.names other name h)
    | Name str address =>
        rcases NamePool.lookup_denotes hinv.pool hunused str with ⟨hpool, hreturned, hkept⟩
        unfold perform
        dsimp only
        rw [Name.ofString_eq]
        constructor
        · exact hpool
        · intro other pointer h
          exact hkept other pointer (hinv.results other pointer h)
        · intro other name h
          rcases List.mem_cons.mp h with hnew | hold
          · cases hnew
            exact hreturned
          · exact hkept other name.mValue (hinv.names other name hold)
  · cases hstep

theorem interned_of_inv {s : NameState} (hinv : NameInv s) : Interned s where
  same := fun one two hone htwo =>
    NamePool.denotes_iff hinv.pool (hinv.results one.1 one.2 hone) (hinv.results two.1 two.2 htwo)
  valid := fun str pointer h =>
    NamePool.read_of_holds hinv.pool (hinv.results (some str) pointer h)
  once := NamePool.strings_once hinv.pool
  names := by
    intro one two hone htwo
    have hdenotes := NamePool.denotes_iff hinv.pool (hinv.names one.1 one.2 hone)
      (hinv.names two.1 two.2 htwo)
    rw [← show one.2.mValue = two.2.mValue <-> one.2 = two.2 by
      rw [Name.mk.injEq]]
    exact hdenotes
  null := by
    intro str name h
    have hdenotes := NamePool.denotes_iff hinv.pool (hinv.names str name h)
      (show s.pool.Denotes none 0 from rfl)
    unfold Name.IsNull
    rw [beq_iff_eq, hdenotes, Option.map_none, Option.map_eq_none_iff]

/-- In every run, with any addresses that the allocations can give. -/
theorem names_interned {calls : List NameCall} {s : NameState}
    (hrun : Run step init calls = some s) : Interned s := by
  have hkeep : forall s call t, NameInv s -> True -> step s call = some t -> NameInv t :=
    fun s call t hinv _ hstep => nameInv_step hinv hstep
  have hsteps : AllSteps step (fun _ _ => True) init calls :=
    allSteps_of_labels (fun _ _ _ => trivial) init
  exact interned_of_inv (run_invariant hkeep nameInv_init hsteps hrun)

/-! Two texts with one hash are in one bucket. -/

example : NamePool.Hash "Az".toList = NamePool.Hash "BY".toList := by decide

def collidingCalls : List NameCall :=
  [.Get (some "Az".toList) 16, .Name (some "BY".toList) 32, .Get (some "Az".toList) 48,
    .Name none 48]

theorem colliding_interned : exists s, Run step init collidingCalls = some s ∧ Interned s := by
  have hruns : (Run step init collidingCalls).isSome := by decide +kernel
  rcases Option.isSome_iff_exists.mp hruns with ⟨s, hrun⟩
  exact ⟨s, hrun, names_interned hrun⟩

end NameState
end LibActor
end GMServer
