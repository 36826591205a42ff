import GMServer.Library.Transition
import GMServer.DataHandle.RedisSubMgr

/-!
# The subscribing thread

The thread reads what comes in by portions of at most ten changes and hands each
portion to every entry of the map of listeners.  Adapters enter their listeners into
the map and take them out, and export what has been collected.
-/

namespace GMServer
namespace DataHandle

open Std

/-!
# Portions

The replies that one call of `ReadSyncData` takes end at the tenth change.
-/

namespace RedisWrap

def parsedReply (pReply : Reply) : Option RedisSyncData :=
  match readReply pReply with
  | some (.ok (some pSyncData)) => some pSyncData
  | _ => none

def parsed (replies : List Reply) : List RedisSyncData := replies.filterMap parsedReply

/-- The replies up to the `n`-th change, or all of them. -/
def portion : Nat -> List Reply -> List Reply
  | _, [] => []
  | n, pReply :: rest =>
      match parsedReply pReply with
      | none => pReply :: portion n rest
      | some _ => if n ≤ 1 then [pReply] else pReply :: portion (n - 1) rest

theorem portion_skip {pReply : Reply} (hskip : parsedReply pReply = none) (n : Nat)
    (rest : List Reply) : portion n (pReply :: rest) = pReply :: portion n rest := by
  rw [portion, hskip]

theorem parsed_cons_skip {pReply : Reply} (hskip : parsedReply pReply = none)
    (rest : List Reply) : parsed (pReply :: rest) = parsed rest :=
  List.filterMap_cons_none hskip

theorem parsed_cons_some {pReply : Reply} {pSyncData : RedisSyncData}
    (hread : parsedReply pReply = some pSyncData) (rest : List Reply) :
    parsed (pReply :: rest) = pSyncData :: parsed rest :=
  List.filterMap_cons_some hread

theorem parsed_append (before after : List Reply) :
    parsed (before ++ after) = parsed before ++ parsed after :=
  List.filterMap_append

/-- What a call collects and what it leaves. -/
structure ReadPortion (listData : List RedisSyncData) (replies : List Reply)
    (collected : List RedisSyncData) (rest : List Reply) : Prop where
  changes : collected = listData ++ parsed (portion (10 - listData.length) replies)
  left : replies = portion (10 - listData.length) replies ++ rest
  atMost : collected.length ≤ 10

theorem ReadPortion.skip {listData collected : List RedisSyncData} {pReply : Reply}
    {later rest : List Reply} (h : ReadPortion listData later collected rest)
    (hskip : parsedReply pReply = none) :
    ReadPortion listData (pReply :: later) collected rest where
  changes := by
    rw [portion_skip hskip, parsed_cons_skip hskip]
    exact h.changes
  left := by
    rw [portion_skip hskip, List.cons_append, ← h.left]
  atMost := h.atMost

theorem readSyncData_portion {listData collected : List RedisSyncData}
    {replies rest : List Reply} {bEmpty : Bool} (hlength : listData.length < 10)
    (h : ReadSyncData listData replies = .ok (collected, rest, bEmpty)) :
    ReadPortion listData replies collected rest := by
  fun_induction ReadSyncData listData replies with
  | case1 listData =>
      cases h
      exact ⟨(List.append_nil _).symm, rfl, Nat.le_of_lt hlength⟩
  | case2 listData pReply later hread ih =>
      exact (ih hlength h).skip (by rw [parsedReply, hread])
  | case3 listData pReply later exception hread => cases h
  | case4 listData pReply later hread hfull => exact absurd hlength (Nat.not_lt.mpr hfull)
  | case5 listData pReply later hread hfull ih =>
      exact (ih hlength h).skip (by rw [parsedReply, hread])
  | case6 listData pReply later pSyncData hread hfull =>
      cases h
      have hparsed : parsedReply pReply = some pSyncData := by rw [parsedReply, hread]
      rw [List.length_append, List.length_singleton] at hfull
      have hlast : portion (10 - listData.length) (pReply :: rest) = [pReply] := by
        simp only [portion, hparsed]
        exact if_pos (by omega)
      constructor
      · rw [hlast, parsed_cons_some hparsed]
        rfl
      · rw [hlast]
        rfl
      · rw [List.length_append, List.length_singleton]
        exact hlength
  | case7 listData pReply later pSyncData hread hfull ih =>
      have hparsed : parsedReply pReply = some pSyncData := by rw [parsedReply, hread]
      have hnext := ih (Nat.not_le.mp hfull) h
      rw [List.length_append, List.length_singleton] at hfull
      have hgoes : portion (10 - listData.length) (pReply :: later) =
          pReply :: portion (10 - (listData ++ [pSyncData]).length) later := by
        rw [List.length_append, List.length_singleton, ← Nat.sub_sub]
        simp only [portion, hparsed]
        exact if_neg (by omega)
      constructor
      · rw [hgoes, parsed_cons_some hparsed, hnext.changes, List.append_assoc]
        rfl
      · rw [hgoes, List.cons_append, ← hnext.left]
      · exact hnext.atMost

/-- If no `Parse` throws, the call returns, and it takes a reply if there is one. -/
theorem readSyncData_returns {replies : List Reply} (listData : List RedisSyncData)
    (hparse : forall pReply, pReply ∈ replies -> forall exception,
      readReply pReply ≠ some (.error exception)) :
    exists collected rest bEmpty, ReadSyncData listData replies = .ok (collected, rest, bEmpty) ∧
      rest.length ≤ replies.length ∧ (replies ≠ [] -> rest.length < replies.length) := by
  have hless : forall {pReply : Reply} {later rest : List Reply}, rest.length ≤ later.length ->
      rest.length ≤ (pReply :: later).length ∧
        (pReply :: later ≠ [] -> rest.length < (pReply :: later).length) :=
    fun hle => ⟨Nat.le_succ_of_le hle, fun _ => Nat.lt_succ_of_le hle⟩
  fun_induction ReadSyncData listData replies with
  | case1 listData => exact ⟨_, _, _, rfl, Nat.le_refl _, fun h => absurd rfl h⟩
  | case2 listData pReply later hread ih =>
      rcases ih (fun other h => hparse other (List.mem_cons_of_mem _ h)) with
        ⟨collected, rest, bEmpty, hEq, hle, _⟩
      exact ⟨collected, rest, bEmpty, hEq, hless hle⟩
  | case3 listData pReply later exception hread =>
      exact absurd hread (hparse pReply List.mem_cons_self exception)
  | case4 listData pReply later hread hfull =>
      exact ⟨_, _, _, rfl, hless (Nat.le_refl _)⟩
  | case5 listData pReply later hread hfull ih =>
      rcases ih (fun other h => hparse other (List.mem_cons_of_mem _ h)) with
        ⟨collected, rest, bEmpty, hEq, hle, _⟩
      exact ⟨collected, rest, bEmpty, hEq, hless hle⟩
  | case6 listData pReply later pSyncData hread hfull =>
      exact ⟨_, _, _, rfl, hless (Nat.le_refl _)⟩
  | case7 listData pReply later pSyncData hread hfull ih =>
      rcases ih (fun other h => hparse other (List.mem_cons_of_mem _ h)) with
        ⟨collected, rest, bEmpty, hEq, hle, _⟩
      exact ⟨collected, rest, bEmpty, hEq, hless hle⟩

end RedisWrap

/-!
# States

`buffer` holds the replies that have arrived and were not taken yet.  What a listener has
exported and the replies that have arrived at all are only recorded.
-/

structure SubscriberState (pointer : Type) where
  listeners : pointer -> RedisListen
  m_mListen : ExtTreeMap uint32_t pointer
  subMgr : RedisSubMgr
  commands : List Text
  buffer : List Reply
  arrived : List Reply
  exported : pointer -> List RedisSyncData

/-- A turn of the thread begins with what `redisBufferRead` brings in. -/
inductive SubscriberAction (pointer : Type) where
  | threadFunc (arrived : List Reply)
  | AddListen (iActorID : uint32_t) (pListen : pointer)
  | RemoveListen (iActorID : uint32_t)
  | AddRediskey (vRedisKey : List uint32_t)
  | ExportSyncData (pListen : pointer)

namespace SubscriberState

open Transition

variable {pointer : Type}

def start (listeners : pointer -> RedisListen) : SubscriberState pointer :=
  { listeners := listeners, m_mListen := ∅, subMgr := RedisSubMgr.empty, commands := [],
    buffer := [], arrived := [], exported := fun _ => [] }

/-- What has been appended to a listener and what it began with. -/
def received (s : SubscriberState pointer) (pListen : pointer) : List RedisSyncData :=
  s.exported pListen ++ (s.listeners pListen).m_listSyncData

variable [DecidableEq pointer]

/-- The loop of the thread function over the map. -/
def deliver (listeners : pointer -> RedisListen) (listData : List RedisSyncData)
    (entries : List (uint32_t × pointer)) : pointer -> RedisListen :=
  entries.foldl (fun called it =>
    Function.update called it.2 ((called it.2).AddSyncData listData)) listeners

/-- The number of entries of the map that lead to the listener. -/
def entriesOf (s : SubscriberState pointer) (pListen : pointer) : Nat :=
  s.m_mListen.toList.countP (fun it => it.2 = pListen)

/-!
# Steps

No result stands for an exception that leaves the thread function.
-/

def threadFunc (s : SubscriberState pointer) (arrived : List Reply) :
    Option (SubscriberState pointer) :=
  let (strCmd, subMgr) := s.subMgr.GetSubString
  match RedisWrap.ReadSyncData [] (s.buffer ++ arrived) with
  | .error _ => none
  | .ok (listData, rest, _) =>
      some { s with
        listeners :=
          if 0 < listData.length then deliver s.listeners listData s.m_mListen.toList
          else s.listeners,
        subMgr := subMgr,
        commands := if strCmd = [] then s.commands else s.commands ++ [strCmd],
        buffer := rest,
        arrived := s.arrived ++ arrived }

def step (s : SubscriberState pointer) :
    SubscriberAction pointer -> Option (SubscriberState pointer)
  | .threadFunc arrived => s.threadFunc arrived
  | .AddListen iActorID pListen =>
      some { s with m_mListen := s.m_mListen.insert iActorID pListen }
  | .RemoveListen iActorID => some { s with m_mListen := s.m_mListen.erase iActorID }
  | .AddRediskey vRedisKey => some { s with subMgr := s.subMgr.AddRediskey vRedisKey }
  | .ExportSyncData pListen =>
      some { s with
        listeners := Function.update s.listeners pListen
          { s.listeners pListen with m_listSyncData := [] },
        exported := Function.update s.exported pListen
          (s.exported pListen ++ (s.listeners pListen).m_listSyncData) }

/-!
# The law and its condition
-/

/-- Of the replies that were taken the listener, which began as `listen`, has got those
changes that it accepts, in their order and each once. -/
def Faithful (listen : RedisListen) (pListen : pointer) (s : SubscriberState pointer) : Prop :=
  exists taken, s.arrived = taken ++ s.buffer ∧
    s.received pListen = listen.m_listSyncData ++
      (RedisWrap.parsed taken).filter (fun data => listen.Accepts data)

/-- A call of `ReadSyncData` returns ten changes at most. -/
def TenAtMost (s : SubscriberState pointer) : SubscriberAction pointer -> Prop
  | .threadFunc arrived => forall collected rest bEmpty,
      RedisWrap.ReadSyncData [] (s.buffer ++ arrived) = .ok (collected, rest, bEmpty) ->
        collected.length ≤ 10
  | _ => True

/-- A portion with a change for the listener comes when one entry leads to it. -/
def EnteredOnce (listen : RedisListen) (pListen : pointer) (s : SubscriberState pointer) :
    SubscriberAction pointer -> Prop
  | .threadFunc arrived =>
      (RedisWrap.parsed (RedisWrap.portion 10 (s.buffer ++ arrived))).filter
          (fun data => listen.Accepts data) ≠ [] ->
        s.entriesOf pListen = 1
  | _ => True

/-!
# One turn of the thread
-/

/-- The listener gets what it accepts once for each entry that leads to it. -/
theorem deliver_at (listeners : pointer -> RedisListen) (listData : List RedisSyncData)
    (entries : List (uint32_t × pointer)) (pListen : pointer) :
    deliver listeners listData entries pListen =
      { listeners pListen with
        m_listSyncData := (listeners pListen).m_listSyncData ++
          (List.replicate (entries.countP (fun it => it.2 = pListen))
            (listData.filter (fun data => (listeners pListen).Accepts data))).flatten } := by
  induction entries generalizing listeners with
  | nil => simp [deliver]
  | cons it entries ih =>
      have hnext := ih (Function.update listeners it.2
        ((listeners it.2).AddSyncData listData))
      unfold deliver at hnext ⊢
      rw [List.foldl_cons, hnext]
      by_cases hsame : it.2 = pListen
      · rw [List.countP_cons_of_pos (by simpa using hsame), List.replicate_succ,
          List.flatten_cons, ← List.append_assoc, hsame, Function.update_self]
        rfl
      · rw [List.countP_cons_of_neg (by simpa using hsame),
          Function.update_of_ne (Ne.symm hsame)]

/-- The keys of the listener are as they were. -/
def SameKeys (listen : RedisListen) (pListen : pointer) (s : SubscriberState pointer) : Prop :=
  (s.listeners pListen).m_vKey = listen.m_vKey ∧
    (s.listeners pListen).m_vRedisKey = listen.m_vRedisKey

omit [DecidableEq pointer] in
theorem filter_accepts {listen : RedisListen} {pListen : pointer} {s : SubscriberState pointer}
    (hkeys : SameKeys listen pListen s) (listData : List RedisSyncData) :
    listData.filter (fun data => (s.listeners pListen).Accepts data) =
      listData.filter (fun data => listen.Accepts data) := by
  apply List.filter_congr
  intro data _
  apply decide_eq_decide.mpr
  unfold RedisListen.Accepts
  rw [hkeys.left, hkeys.right]

/-- What a turn of the thread does to one listener. -/
theorem threadFunc_spec {s t : SubscriberState pointer} {arrived : List Reply}
    (hstep : s.threadFunc arrived = some t) :
    t.arrived = s.arrived ++ arrived ∧ t.exported = s.exported ∧
      s.buffer ++ arrived = RedisWrap.portion 10 (s.buffer ++ arrived) ++ t.buffer ∧
      forall pListen, t.listeners pListen =
        { s.listeners pListen with
          m_listSyncData := (s.listeners pListen).m_listSyncData ++
            (List.replicate (s.entriesOf pListen)
              ((RedisWrap.parsed (RedisWrap.portion 10 (s.buffer ++ arrived))).filter
                (fun data => (s.listeners pListen).Accepts data))).flatten } := by
  unfold threadFunc at hstep
  dsimp only at hstep
  split at hstep
  · cases hstep
  · rename_i listData rest bEmpty hread
    have hportion := RedisWrap.readSyncData_portion (by decide) hread
    have hcollected : listData = RedisWrap.parsed (RedisWrap.portion 10 (s.buffer ++ arrived)) :=
      hportion.changes
    cases hstep
    refine ⟨rfl, rfl, hportion.left, ?_⟩
    intro pListen
    rw [← hcollected]
    dsimp only
    by_cases hsome : 0 < listData.length
    · rw [if_pos hsome]
      exact deliver_at s.listeners listData s.m_mListen.toList pListen
    · rw [if_neg hsome, List.length_eq_zero_iff.mp (Nat.eq_zero_of_not_pos hsome)]
      simp

theorem flatten_replicate_eq_iff {value : Type} (n : Nat) (values : List value) :
    (List.replicate n values).flatten = values <-> (values ≠ [] -> n = 1) := by
  constructor
  · intro hEq hne
    have hlength := congrArg List.length hEq
    rw [List.length_flatten, List.map_replicate, List.sum_replicate_nat] at hlength
    exact Nat.eq_of_mul_eq_mul_right (List.length_pos_iff.mpr hne)
      (hlength.trans (Nat.one_mul _).symm)
  · intro honce
    by_cases hnil : values = []
    · rw [hnil, List.flatten_replicate_nil]
    · rw [honce hnil, List.replicate_one, List.flatten_singleton]

theorem received_threadFunc {listen : RedisListen} {pListen : pointer}
    {s t : SubscriberState pointer} (hkeys : SameKeys listen pListen s) {arrived : List Reply}
    (hstep : s.threadFunc arrived = some t) :
    t.received pListen = s.received pListen ++
      (List.replicate (s.entriesOf pListen)
        ((RedisWrap.parsed (RedisWrap.portion 10 (s.buffer ++ arrived))).filter
          (fun data => listen.Accepts data))).flatten := by
  rcases threadFunc_spec hstep with ⟨_, hexported, _, hlisteners⟩
  unfold received
  rw [hlisteners pListen, hexported, filter_accepts hkeys, List.append_assoc]

theorem faithful_threadFunc_iff {listen : RedisListen} {pListen : pointer}
    {s t : SubscriberState pointer} (hlaw : Faithful listen pListen s)
    (hkeys : SameKeys listen pListen s) {arrived : List Reply}
    (hstep : s.threadFunc arrived = some t) :
    Faithful listen pListen t <-> EnteredOnce listen pListen s (.threadFunc arrived) := by
  rcases hlaw with ⟨taken, harrived, hreceived⟩
  rcases threadFunc_spec hstep with ⟨hmore, _, hleft, _⟩
  have htaken : t.arrived =
      (taken ++ RedisWrap.portion 10 (s.buffer ++ arrived)) ++ t.buffer := by
    rw [hmore, harrived, List.append_assoc, List.append_assoc, ← hleft]
  have hgot := received_threadFunc hkeys hstep
  rw [hreceived] at hgot
  -- the portion is what was taken in addition
  have hiff : Faithful listen pListen t <->
      t.received pListen = listen.m_listSyncData ++
        (RedisWrap.parsed (taken ++ RedisWrap.portion 10 (s.buffer ++ arrived))).filter
          (fun data => listen.Accepts data) := by
    constructor
    · intro ⟨other, hother, hreceivedOther⟩
      rw [List.append_cancel_right (hother.symm.trans htaken)] at hreceivedOther
      exact hreceivedOther
    · intro h
      exact ⟨_, htaken, h⟩
  rw [hiff, hgot, RedisWrap.parsed_append, List.filter_append, List.append_assoc,
    List.append_cancel_left_eq, List.append_cancel_left_eq, flatten_replicate_eq_iff]
  rfl

/-!
# Every step
-/

structure SubscriberInv (listen : RedisListen) (pListen : pointer)
    (s : SubscriberState pointer) : Prop where
  law : Faithful listen pListen s
  keys : SameKeys listen pListen s

omit [DecidableEq pointer] in
theorem subscriberInv_start (listeners : pointer -> RedisListen) (pListen : pointer) :
    SubscriberInv (listeners pListen) pListen (start listeners) where
  law := ⟨[], rfl, (List.append_nil _).symm⟩
  keys := ⟨rfl, rfl⟩

theorem subscriberInv_export {listen : RedisListen} {pListen : pointer}
    {s t : SubscriberState pointer} (hinv : SubscriberInv listen pListen s)
    {other : pointer} (hstep : step s (.ExportSyncData other) = some t) :
    SubscriberInv listen pListen t := by
  cases hstep
  rcases hinv.law with ⟨taken, harrived, hreceived⟩
  by_cases hsame : pListen = other
  · constructor
    · refine ⟨taken, harrived, ?_⟩
      rw [← hreceived, ← hsame]
      simp [received]
    · rw [← hsame]
      constructor
      · simpa using hinv.keys.left
      · simpa using hinv.keys.right
  · constructor
    · refine ⟨taken, harrived, ?_⟩
      rw [← hreceived]
      simp only [received, Function.update_of_ne hsame]
    · constructor
      · simpa only [Function.update_of_ne hsame] using hinv.keys.left
      · simpa only [Function.update_of_ne hsame] using hinv.keys.right

theorem faithful_step_iff {listen : RedisListen} {pListen : pointer}
    {s t : SubscriberState pointer} {a : SubscriberAction pointer}
    (hinv : SubscriberInv listen pListen s) (hstep : step s a = some t) :
    (Faithful listen pListen t <-> EnteredOnce listen pListen s a) ∧
      SameKeys listen pListen t := by
  cases a with
  | threadFunc arrived =>
      refine ⟨faithful_threadFunc_iff hinv.law hinv.keys hstep, ?_⟩
      rcases threadFunc_spec hstep with ⟨_, _, _, hlisteners⟩
      unfold SameKeys
      rw [hlisteners pListen]
      exact hinv.keys
  | AddListen iActorID other =>
      cases hstep
      exact ⟨iff_of_true hinv.law trivial, hinv.keys⟩
  | RemoveListen iActorID =>
      cases hstep
      exact ⟨iff_of_true hinv.law trivial, hinv.keys⟩
  | AddRediskey vRedisKey =>
      cases hstep
      exact ⟨iff_of_true hinv.law trivial, hinv.keys⟩
  | ExportSyncData other =>
      have hnext := subscriberInv_export hinv hstep
      exact ⟨iff_of_true hnext.law trivial, hnext.keys⟩

omit [DecidableEq pointer] in
theorem tenAtMost (s : SubscriberState pointer) (a : SubscriberAction pointer) :
    TenAtMost s a := by
  cases a with
  | threadFunc arrived =>
      intro collected rest bEmpty hread
      exact (RedisWrap.readSyncData_portion (by decide) hread).atMost
  | AddListen iActorID pListen => trivial
  | RemoveListen iActorID => trivial
  | AddRediskey vRedisKey => trivial
  | ExportSyncData pListen => trivial

/-!
# Taking all that has arrived
-/

/-- As long as no `Parse` throws, the thread comes to the end of what has arrived. -/
theorem threadFunc_drains {s : SubscriberState pointer}
    (hparse : forall pReply, pReply ∈ s.buffer -> forall exception,
      RedisWrap.readReply pReply ≠ some (.error exception)) :
    exists turns t, Run step s (List.replicate turns (.threadFunc [])) = some t ∧
      t.buffer = [] ∧ t.arrived = s.arrived := by
  -- by induction on the replies that are left, of which every turn takes one at least
  induction hlength : s.buffer.length using Nat.strongRecOn generalizing s with
  | ind length ih =>
      by_cases hempty : s.buffer = []
      · exact ⟨0, s, rfl, hempty, rfl⟩
      · rcases RedisWrap.readSyncData_returns [] hparse with
          ⟨collected, rest, bEmpty, hread, _, hless⟩
        have hturn : exists t, step s (.threadFunc []) = some t ∧ t.buffer = rest ∧
            t.arrived = s.arrived := by
          simp only [step, threadFunc]
          rw [List.append_nil, hread]
          exact ⟨_, rfl, rfl, List.append_nil _⟩
        rcases hturn with ⟨t, hstep, hbuffer, harrived⟩
        have hleft := (RedisWrap.readSyncData_portion (by decide) hread).left
        have hparseNext : forall pReply, pReply ∈ t.buffer -> forall exception,
            RedisWrap.readReply pReply ≠ some (.error exception) := by
          intro pReply hmem
          apply hparse
          rw [hleft, ← hbuffer]
          exact List.mem_append_right _ hmem
        have hshorter : t.buffer.length < length := by
          rw [hbuffer, ← hlength]
          exact hless hempty
        rcases ih _ hshorter hparseNext rfl with ⟨turns, u, hrun, hdone, hsame⟩
        exact ⟨turns + 1, u, (run_cons_of_step _ hstep).trans hrun, hdone, hsame.trans harrived⟩

/-!
# Whole runs
-/

/-- No call returns more than ten changes, and a listener gets what is for it in exactly the
runs in which one entry of the map leads to it whenever something for it is taken.  What has
arrived is taken in the end. -/
theorem faithful_iff (listeners : pointer -> RedisListen) (pListen : pointer)
    {actions : List (SubscriberAction pointer)} {t : SubscriberState pointer}
    (hrun : Run step (start listeners) actions = some t) :
    AllSteps step TenAtMost (start listeners) actions ∧
      (AllStates step (Faithful (listeners pListen) pListen) (start listeners) actions <->
        AllSteps step (EnteredOnce (listeners pListen) pListen) (start listeners) actions) ∧
      ((forall pReply, pReply ∈ t.buffer -> forall exception,
          RedisWrap.readReply pReply ≠ some (.error exception)) ->
        exists turns u, Run step t (List.replicate turns (.threadFunc [])) = some u ∧
          u.buffer = [] ∧ u.arrived = t.arrived) := by
  refine ⟨?_, ?_, threadFunc_drains⟩
  · exact allSteps_of_labels (fun a _ s => tenAtMost s a) _
  · have hkeep : forall s a u, SubscriberInv (listeners pListen) pListen s -> True ->
        EnteredOnce (listeners pListen) pListen s a -> step s a = some u ->
        SubscriberInv (listeners pListen) pListen u := by
      intro s a u hinv _ honce hstep
      rcases faithful_step_iff hinv hstep with ⟨hiff, hkeys⟩
      exact ⟨hiff.mpr honce, hkeys⟩
    have hbreak : forall s a u, SubscriberInv (listeners pListen) pListen s -> True ->
        ¬ EnteredOnce (listeners pListen) pListen s a -> step s a = some u ->
        ¬ Faithful (listeners pListen) pListen u :=
      fun s a u hinv _ hnot hstep hlaw => hnot ((faithful_step_iff hinv hstep).left.mp hlaw)
    exact allStates_iff_allSteps hkeep (fun s hinv => hinv.law) hbreak
      (subscriberInv_start listeners pListen) (fun _ _ => trivial) hrun

/-!
# A listener under two numbers

An adapter that is initialised with a second number is entered a second time.
-/

/-- A listener for the key 1 and the group 5, and others that take nothing. -/
def oneListener : Nat -> RedisListen
  | 0 => { m_vKey := [1], m_vRedisKey := [5], m_listSyncData := [] }
  | _ => RedisListen.empty

def oneMessage : List Reply :=
  [.array [.string "message".toList, .string "5".toList, .string "A|1|2".toList]]

def twoNumbers : List (SubscriberAction Nat) :=
  [.AddListen 7 0, .AddListen 8 0, .threadFunc oneMessage]

theorem twoNumbers_twice :
    exists t, Run step (start oneListener) twoNumbers = some t ∧
      ¬ Faithful (oneListener 0) 0 t := by
  have hcheck : (Run step (start oneListener) twoNumbers).any (fun t =>
      decide (t.arrived.length = 1 ∧ (t.received 0).length = 2)) = true := by
    decide
  rcases (Option.any_eq_true _ _).mp hcheck with ⟨t, hrun, hlengths⟩
  rcases of_decide_eq_true hlengths with ⟨harrived, hreceived⟩
  refine ⟨t, hrun, ?_⟩
  -- one reply has arrived and two changes were appended
  intro ⟨taken, htaken, hlaw⟩
  have htakenLength : taken.length ≤ 1 := by
    rw [← harrived, htaken, List.length_append]
    exact Nat.le_add_right _ _
  rw [hlaw] at hreceived
  have hparsed : (RedisWrap.parsed taken).length ≤ taken.length :=
    List.length_filterMap_le _ _
  have hfiltered := List.length_filter_le (fun data => decide ((oneListener 0).Accepts data))
    (RedisWrap.parsed taken)
  have hnone : (oneListener 0).m_listSyncData.length = 0 := rfl
  rw [List.length_append] at hreceived
  omega

theorem oneNumber_once :
    exists t, Run step (start oneListener) [.AddListen 7 0, .threadFunc oneMessage] = some t ∧
      AllStates step (Faithful (oneListener 0) 0) (start oneListener)
        [.AddListen 7 0, .threadFunc oneMessage] := by
  have hrun : (Run step (start oneListener)
      [.AddListen 7 0, .threadFunc oneMessage]).isSome = true := by
    decide
  rcases Option.isSome_iff_exists.mp hrun with ⟨t, ht⟩
  refine ⟨t, ht, (faithful_iff oneListener 0 ht).right.left.mpr ⟨trivial, ?_⟩⟩
  intro u hu
  cases hu
  refine ⟨fun _ => ?_, fun _ _ => trivial⟩
  decide

end SubscriberState
end DataHandle
end GMServer
