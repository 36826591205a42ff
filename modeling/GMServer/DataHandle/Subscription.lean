import GMServer.Library.Pending
import GMServer.Library.Transition
import GMServer.DataHandle.RedisAdapter
import GMServer.DataHandle.RedisSubMgr

/-!
# Loading and subscribing

Writers set fields and publish the changes, an adapter loads fields and asks for the
channels of their groups, and a thread subscribes and collects what is published.
All of this is interleaved.
-/

namespace GMServer
namespace DataHandle
namespace Subscription

open Std

/-!
# States
-/

inductive LoadPhase where
  | idle
  | loading (iKey : uint64_t) (iIndex : Option uint64_t)
      (loads : List (uint32_t × List uint32_t)) (vAddRedisKey : List uint32_t)
  | adding (vAddRedisKey : List uint32_t)

/-- Where the function of the subscribing thread stands. -/
inductive ThreadPhase where
  | top
  | sending (strCmd : Text)
  | reading
  | delivering (listData : List RedisSyncData)

/-- The texts in Redis and the texts that were loaded last, by the names of hash and field;
a field that was loaded may have had no text.  `commands` and `replies` are on their way to
and from the server. -/
structure State where
  current : HashStore
  unpublished : List Change
  loadPhase : LoadPhase
  loaded : Replay.Store (Text × Text) (Option Text)
  listen : RedisListen
  subMgr : RedisSubMgr
  thread : ThreadPhase
  commands : List (List Text)
  channels : List Text
  replies : List Reply

def start (current : HashStore) : State :=
  { current := current, unpublished := [], loadPhase := .idle, loaded := fun _ => none,
    listen := RedisListen.empty, subMgr := RedisSubMgr.empty, thread := .top, commands := [],
    channels := [], replies := [] }

/-!
# Steps
-/

inductive Action where
  | hmset (change : Change)
  | publish (i : Nat)
  | startLoad (iKey : uint64_t) (iIndex : Option uint64_t) (mValue : List uint32_t)
  | hmget
  | merge
  | addRediskey
  | otherAddRediskey (vRedisKey : List uint32_t)
  | getSubString
  | asyncCommand
  | serve
  | readSyncData (n : Nat)
  | addSyncData

def changeFlush (change : Change) : Flush :=
  { place := change.place, fields := [(change.iKeyField, change.strValue)] }

def changeData (change : Change) : RedisSyncData :=
  { eType := .eSet, RedisKey := keyOf change.iKeyField, Firstkey := change.i64Key,
    SecondKey := change.iIndex,
    mValue := ExtTreeMap.insert ∅ change.iKeyField change.strValue }

/-- What is delivered of the publish of a change. -/
def delivery (change : Change) : Option (Text × Text) :=
  (redisvFormatCommand (changeFlush change).change).bind published

def messageReply (message : Text × Text) : Reply :=
  .array [.string "message".toList, .string message.1, .string message.2]

def confirmation (channel : Text) : Reply :=
  .array [.string "subscribe".toList, .string channel, .integer]

def readCell (mgr : KeyFieldMgr) (iKey : uint64_t) (iIndex : Option uint64_t)
    (iKeyField : uint32_t) : Text × Text :=
  (match iIndex with
    | none => RedisAdapter.structHash iKey (mgr.keyName iKeyField)
    | some iIndex => RedisAdapter.elementHash iKey iIndex (mgr.keyName iKeyField),
    mgr.fieldName iKeyField)

def step (mgr : KeyFieldMgr) (s : State) : Action -> Option State
  | .hmset change =>
      if (mgr.FindKey change.iKeyField).isSome ∧ (mgr.FindField change.iKeyField).isSome then
        some
          { s with
            current := Function.update s.current (change.address.cellName mgr)
              (some change.strValue),
            unpublished := s.unpublished ++ [change] }
      else none
  | .publish i =>
      match s.unpublished[i]? with
      | none => none
      | some change =>
          -- a message goes to the connections that are subscribed now
          some
            { s with
              unpublished := s.unpublished.eraseIdx i,
              replies :=
                match delivery change with
                | some message =>
                    if message.1 ∈ s.channels then s.replies ++ [messageReply message]
                    else s.replies
                | none => s.replies }
  | .startLoad iKey iIndex mValue =>
      match s.loadPhase with
      | .idle =>
          some
            { s with
              loadPhase := .loading iKey iIndex (RedisAdapter.mapLoad mValue).toList
                (RedisAdapter.mapLoad mValue).keys }
      | _ => none
  | .hmget =>
      match s.loadPhase with
      | .loading iKey iIndex (it :: loads) vAddRedisKey =>
          match mgr.FindKey it.1, it.2.mapM mgr.FindField with
          | some _, some _ =>
              some
                { s with
                  loadPhase := .loading iKey iIndex loads vAddRedisKey,
                  loaded := Replay.replay s.loaded (it.2.map (fun iKeyField =>
                    (readCell mgr iKey iIndex iKeyField,
                      s.current (readCell mgr iKey iIndex iKeyField)))) }
          -- an exception leaves `Load` before `Merge`
          | _, _ => some { s with loadPhase := .idle }
      | _ => none
  | .merge =>
      match s.loadPhase with
      | .loading iKey _ [] vAddRedisKey =>
          some
            { s with
              loadPhase := .adding vAddRedisKey,
              listen := s.listen.Merge iKey vAddRedisKey }
      | _ => none
  | .addRediskey =>
      match s.loadPhase with
      | .adding vAddRedisKey =>
          some { s with loadPhase := .idle, subMgr := s.subMgr.AddRediskey vAddRedisKey }
      | _ => none
  | .otherAddRediskey vRedisKey => some { s with subMgr := s.subMgr.AddRediskey vRedisKey }
  | .getSubString =>
      match s.thread with
      | .top =>
          some
            { s with
              subMgr := s.subMgr.GetSubString.2,
              thread :=
                if s.subMgr.GetSubString.1 = [] then .reading
                else .sending s.subMgr.GetSubString.1 }
      | _ => none
  | .asyncCommand =>
      match s.thread with
      | .sending strCmd =>
          some
            { s with
              thread := .reading,
              commands := s.commands ++ (redisvFormatCommand strCmd).toList }
      | _ => none
  | .serve =>
      match s.commands with
      | (command :: channels) :: rest =>
          if command = "SUBSCRIBE".toList then
            some
              { s with
                commands := rest,
                channels := s.channels ++ channels,
                replies := s.replies ++ channels.map confirmation }
          else some { s with commands := rest }
      | _ => none
  | .readSyncData n =>
      match s.thread with
      | .reading =>
          match RedisWrap.ReadSyncData [] (s.replies.take n) with
          | .ok (listData, rest, _) =>
              some
                { s with thread := .delivering listData, replies := rest ++ s.replies.drop n }
          -- an exception ends the program
          | .error _ => none
      | _ => none
  | .addSyncData =>
      match s.thread with
      | .delivering listData =>
          some { s with thread := .top, listen := s.listen.AddSyncData listData }
      | _ => none

/-!
# Updates that are not lost
-/

/-- The message says that a field has this text. -/
def Carries (mgr : KeyFieldMgr) (data : RedisSyncData) (cell : Text × Text) (text : Text) :
    Prop :=
  exists iKeyField, data.eType = .eSet ∧ data.mValue[iKeyField]? = some text ∧
    cell = (RedisBuffer.hashName (mgr.keyName data.RedisKey) data.Firstkey data.SecondKey,
      mgr.fieldName iKeyField)

/-- Every change was published, and the messages went all the way to the listener. -/
def Quiet (s : State) : Prop :=
  s.unpublished = [] ∧ s.replies = [] ∧
    forall listData, s.thread = .delivering listData -> listData = []

/-- What was loaded of a field is its text, or the listener has a message with its text. -/
def NothingLost (mgr : KeyFieldMgr) (s : State) : Prop :=
  forall cell read, s.loaded cell = some read ->
    read = s.current cell ∨
      exists text data, s.current cell = some text ∧ data ∈ s.listen.m_listSyncData ∧
        Carries mgr data cell text

/-!
# The condition

The loads come before the subscriptions and before the listener takes note of keys and
groups.  Nothing is lost if no text that differs from what was loaded is published before
the connection is subscribed, or passed to the listener before it has taken note.
-/

/-- The text is the one in Redis, but another one was loaded. -/
def Stale (s : State) (cell : Text × Text) (text : Text) : Prop :=
  s.current cell = some text ∧ exists read, s.loaded cell = some read ∧ read ≠ some text

/-- The publish of the change is delivered now, and read as the change it was. -/
def Audible (s : State) (change : Change) : Prop :=
  exists message, delivery change = some message ∧ message.1 ∈ s.channels ∧
    readMessage message = .ok (some (changeData change))

def Heard (mgr : KeyFieldMgr) (s : State) : Action -> Prop
  | .publish i =>
      forall change, s.unpublished[i]? = some change ->
        Stale s (change.address.cellName mgr) change.strValue -> Audible s change
  | .addSyncData =>
      forall listData, s.thread = .delivering listData -> forall data, data ∈ listData ->
        forall cell text, Carries mgr data cell text -> Stale s cell text ->
          s.listen.Accepts data
  | _ => True

/-!
# On the way

The text of a field that is not the one that was loaded is on its way to the listener:
not yet published, among the replies, in the hands of the thread, or there.
-/

def Coming (mgr : KeyFieldMgr) (s : State) (cell : Text × Text) (text : Text) : Prop :=
  (exists change, change ∈ s.unpublished ∧ change.address.cellName mgr = cell ∧
      change.strValue = text) ∨
    (exists pReply data, pReply ∈ s.replies ∧
      RedisWrap.readReply pReply = some (.ok (some data)) ∧ Carries mgr data cell text) ∨
    (exists listData data, s.thread = .delivering listData ∧ data ∈ listData ∧
      Carries mgr data cell text) ∨
    exists data, data ∈ s.listen.m_listSyncData ∧ Carries mgr data cell text

def Tracked (mgr : KeyFieldMgr) (s : State) : Prop :=
  forall cell read, s.loaded cell = some read ->
    read = s.current cell ∨
      exists text, s.current cell = some text ∧ Coming mgr s cell text

theorem tracked_start (mgr : KeyFieldMgr) (current : HashStore) : Tracked mgr (start current) := by
  intro cell read h
  cases h

theorem carries_changeData (mgr : KeyFieldMgr) (change : Change) :
    Carries mgr (changeData change) (change.address.cellName mgr) change.strValue := by
  refine ⟨change.iKeyField, rfl, SortedMap.getElem?_insert_same _ _ _, ?_⟩
  show _ = (RedisBuffer.hashName (mgr.keyName (keyOf change.iKeyField)) _ _, _)
  rw [mgr.keyName_keyOf]
  rfl

/-- The steps that leave both the store and the loaded texts alone have to keep what is on
its way. -/
theorem tracked_of_coming {mgr : KeyFieldMgr} {s t : State} (htracked : Tracked mgr s)
    (hcurrent : t.current = s.current) (hloaded : t.loaded = s.loaded)
    (hcoming : forall cell text, Stale s cell text -> Coming mgr s cell text ->
      Coming mgr t cell text) : Tracked mgr t := by
  intro cell read hread
  rw [hloaded] at hread
  rw [hcurrent]
  by_cases hsame : read = s.current cell
  · exact Or.inl hsame
  · rcases (htracked cell read hread).resolve_left hsame with ⟨text, htext, hway⟩
    have hstale : Stale s cell text := by
      refine ⟨htext, read, hread, ?_⟩
      rw [← htext]
      exact hsame
    exact Or.inr ⟨text, htext, hcoming cell text hstale hway⟩

/-- The places on the way that a step does not touch. -/
theorem coming_mono {mgr : KeyFieldMgr} {s t : State} {cell : Text × Text} {text : Text}
    (hunpublished : forall change, change ∈ s.unpublished -> change ∈ t.unpublished)
    (hreplies : forall pReply, pReply ∈ s.replies -> pReply ∈ t.replies)
    (hthread : forall listData, s.thread = .delivering listData ->
      t.thread = .delivering listData)
    (hlisten : forall data, data ∈ s.listen.m_listSyncData -> data ∈ t.listen.m_listSyncData)
    (h : Coming mgr s cell text) : Coming mgr t cell text := by
  rcases h with ⟨change, hmem, hchange⟩ | ⟨pReply, data, hmem, hread⟩ |
    ⟨listData, data, hphase, hdata⟩ | ⟨data, hmem, hcarries⟩
  · exact Or.inl ⟨change, hunpublished change hmem, hchange⟩
  · exact Or.inr (Or.inl ⟨pReply, data, hreplies pReply hmem, hread⟩)
  · exact Or.inr (Or.inr (Or.inl ⟨listData, data, hthread listData hphase, hdata⟩))
  · exact Or.inr (Or.inr (Or.inr ⟨data, hlisten data hmem, hcarries⟩))

theorem tracked_of_kept {mgr : KeyFieldMgr} {s t : State} (htracked : Tracked mgr s)
    (hcurrent : t.current = s.current) (hloaded : t.loaded = s.loaded)
    (hunpublished : forall change, change ∈ s.unpublished -> change ∈ t.unpublished)
    (hreplies : forall pReply, pReply ∈ s.replies -> pReply ∈ t.replies)
    (hthread : forall listData, s.thread = .delivering listData ->
      t.thread = .delivering listData)
    (hlisten : forall data, data ∈ s.listen.m_listSyncData -> data ∈ t.listen.m_listSyncData) :
    Tracked mgr t :=
  tracked_of_coming htracked hcurrent hloaded
    (fun _ _ _ h => coming_mono hunpublished hreplies hthread hlisten h)

/-- A thread that has nothing to deliver goes on. -/
theorem tracked_of_thread {mgr : KeyFieldMgr} {s t : State} (htracked : Tracked mgr s)
    (hcurrent : t.current = s.current) (hloaded : t.loaded = s.loaded)
    (hunpublished : t.unpublished = s.unpublished) (hreplies : t.replies = s.replies)
    (hlisten : t.listen = s.listen)
    (hidle : forall listData, s.thread ≠ .delivering listData) : Tracked mgr t := by
  apply tracked_of_kept htracked hcurrent hloaded
  · rw [hunpublished]
    exact fun _ h => h
  · rw [hreplies]
    exact fun _ h => h
  · exact fun listData hphase => absurd hphase (hidle listData)
  · rw [hlisten]
    exact fun _ h => h

theorem tracked_hmset {mgr : KeyFieldMgr} {s : State} (htracked : Tracked mgr s)
    (change : Change) :
    Tracked mgr
      { s with
        current := Function.update s.current (change.address.cellName mgr)
          (some change.strValue),
        unpublished := s.unpublished ++ [change] } := by
  intro cell read hread
  by_cases hcell : cell = change.address.cellName mgr
  · refine Or.inr ⟨change.strValue, ?_, Or.inl ⟨change, ?_, hcell.symm, rfl⟩⟩
    · show Function.update s.current _ _ cell = _
      rw [hcell, Function.update_self]
    · exact List.mem_append_right _ List.mem_cons_self
  · show read = Function.update s.current _ _ cell ∨
      exists text, Function.update s.current _ _ cell = some text ∧ _
    rw [Function.update_of_ne hcell]
    rcases htracked cell read hread with hsame | ⟨text, htext, hway⟩
    · exact Or.inl hsame
    · exact Or.inr ⟨text, htext, coming_mono (fun _ h => List.mem_append_left _ h)
        (fun _ h => h) (fun _ h => h) (fun _ h => h) hway⟩

theorem tracked_publish {mgr : KeyFieldMgr} {s : State} (htracked : Tracked mgr s) {i : Nat}
    {change : Change} (hchange : s.unpublished[i]? = some change)
    (hheard : Stale s (change.address.cellName mgr) change.strValue -> Audible s change) :
    Tracked mgr
      { s with
        unpublished := s.unpublished.eraseIdx i,
        replies :=
          match delivery change with
          | some message =>
              if message.1 ∈ s.channels then s.replies ++ [messageReply message]
              else s.replies
          | none => s.replies } := by
  refine tracked_of_coming htracked rfl rfl ?_
  intro cell text hstale hway
  have hreplies : forall pReply, pReply ∈ s.replies -> pReply ∈
      (match delivery change with
        | some message =>
            if message.1 ∈ s.channels then s.replies ++ [messageReply message]
            else s.replies
        | none => s.replies) := by
    intro pReply hmem
    split
    · split
      · exact List.mem_append_left _ hmem
      · exact hmem
    · exact hmem
  rcases Pending.split_at hchange with ⟨before, after, hlist, herase, _⟩
  rcases hway with ⟨other, hmem, hcell, htext⟩ | hrest
  · rw [hlist] at hmem
    by_cases hsame : other = change
    · -- the text that is published is the one that is missed
      rw [hsame] at hcell htext
      rw [← hcell, ← htext] at hstale
      rcases hheard hstale with ⟨message, hdelivery, hchannel, hread⟩
      refine Or.inr (Or.inl ⟨messageReply message, changeData change, ?_, ?_, ?_⟩)
      · show messageReply message ∈
          (match delivery change with
            | some message =>
                if message.1 ∈ s.channels then s.replies ++ [messageReply message]
                else s.replies
            | none => s.replies)
        rw [hdelivery]
        dsimp only
        rw [if_pos hchannel]
        exact List.mem_append_right _ List.mem_cons_self
      · show some (readMessage message) = _
        rw [hread]
      · rw [← hcell, ← htext]
        exact carries_changeData mgr change
    · refine Or.inl ⟨other, ?_, hcell, htext⟩
      show other ∈ s.unpublished.eraseIdx i
      rw [herase]
      rcases List.mem_append.mp hmem with hbefore | hafter
      · exact List.mem_append_left _ hbefore
      · exact List.mem_append_right _ ((List.mem_cons.mp hafter).resolve_left hsame)
  · rcases hrest with ⟨pReply, data, hmem, hread⟩ | hrest
    · exact Or.inr (Or.inl ⟨pReply, data, hreplies pReply hmem, hread⟩)
    · exact Or.inr (Or.inr hrest)

theorem tracked_hmget {mgr : KeyFieldMgr} {s : State} (htracked : Tracked mgr s)
    (loadPhase : LoadPhase) (cells : List (Text × Text)) :
    Tracked mgr
      { s with
        loadPhase := loadPhase,
        loaded := Replay.replay s.loaded (cells.map (fun cell => (cell, s.current cell))) } := by
  intro cell read hread
  rcases Replay.mem_of_replay hread with hmem | hearlier
  · rcases List.mem_map.mp hmem with ⟨other, _, hEq⟩
    cases hEq
    exact Or.inl rfl
  · exact htracked cell read hearlier

theorem tracked_readSyncData {mgr : KeyFieldMgr} {s : State} (htracked : Tracked mgr s)
    (hthread : s.thread = .reading) {n : Nat} {listData : List RedisSyncData}
    {rest : List Reply} {bEmpty : Bool}
    (hread : RedisWrap.ReadSyncData [] (s.replies.take n) = .ok (listData, rest, bEmpty)) :
    Tracked mgr
      { s with thread := .delivering listData, replies := rest ++ s.replies.drop n } := by
  refine tracked_of_coming htracked rfl rfl ?_
  intro cell text _ hway
  rcases hway with hchange | ⟨pReply, data, hmem, hreply, hcarries⟩ |
    ⟨listData', data, hphase, _⟩ | hlisten
  · exact Or.inl hchange
  · rw [← List.take_append_drop n s.replies] at hmem
    rcases List.mem_append.mp hmem with htaken | hleft
    · rcases RedisWrap.readSyncData_keeps hread (Or.inr ⟨pReply, htaken, hreply⟩) with
        hcollected | ⟨other, hother, hagain⟩
      · exact Or.inr (Or.inr (Or.inl ⟨listData, data, rfl, hcollected, hcarries⟩))
      · exact Or.inr (Or.inl ⟨other, data, List.mem_append_left _ hother, hagain, hcarries⟩)
    · exact Or.inr (Or.inl ⟨pReply, data, List.mem_append_right _ hleft, hreply, hcarries⟩)
  · rw [hthread] at hphase
    cases hphase
  · exact Or.inr (Or.inr (Or.inr hlisten))

theorem tracked_addSyncData {mgr : KeyFieldMgr} {s : State} (htracked : Tracked mgr s)
    {listData : List RedisSyncData} (hthread : s.thread = .delivering listData)
    (hheard : forall data, data ∈ listData -> forall cell text, Carries mgr data cell text ->
      Stale s cell text -> s.listen.Accepts data) :
    Tracked mgr { s with thread := .top, listen := s.listen.AddSyncData listData } := by
  refine tracked_of_coming htracked rfl rfl ?_
  intro cell text hstale hway
  rcases hway with hchange | hreply | ⟨listData', data, hphase, hmem, hcarries⟩ |
    ⟨data, hmem, hcarries⟩
  · exact Or.inl hchange
  · exact Or.inr (Or.inl hreply)
  · rw [hthread] at hphase
    cases hphase
    refine Or.inr (Or.inr (Or.inr ⟨data, ?_, hcarries⟩))
    apply List.mem_append_right
    rw [List.mem_filter, decide_eq_true_eq]
    exact ⟨hmem, hheard data hmem cell text hcarries hstale⟩
  · exact Or.inr (Or.inr (Or.inr ⟨data, List.mem_append_left _ hmem, hcarries⟩))

/-!
# Runs
-/

theorem tracked_step {mgr : KeyFieldMgr} {s t : State} {a : Action} (htracked : Tracked mgr s)
    (hheard : Heard mgr s a) (hstep : step mgr s a = some t) : Tracked mgr t := by
  cases a with
  | hmset change =>
      dsimp only [step] at hstep
      split at hstep
      · cases hstep
        exact tracked_hmset htracked change
      · cases hstep
  | publish i =>
      dsimp only [step] at hstep
      split at hstep
      · cases hstep
      · rename_i change hchange
        cases hstep
        exact tracked_publish htracked hchange (hheard change hchange)
  | startLoad iKey iIndex mValue =>
      dsimp only [step] at hstep
      split at hstep
      · cases hstep
        exact htracked
      · cases hstep
  | hmget =>
      dsimp only [step] at hstep
      split at hstep
      · rename_i iKey iIndex it loads vAddRedisKey hphase
        split at hstep
        · cases hstep
          have hcells := tracked_hmget htracked (.loading iKey iIndex loads vAddRedisKey)
            (it.2.map (readCell mgr iKey iIndex))
          rw [List.map_map] at hcells
          exact hcells
        · cases hstep
          exact htracked
      · cases hstep
  | merge =>
      dsimp only [step] at hstep
      split at hstep
      · cases hstep
        exact tracked_of_kept htracked rfl rfl (fun _ h => h) (fun _ h => h) (fun _ h => h)
          (fun _ h => h)
      · cases hstep
  | addRediskey =>
      dsimp only [step] at hstep
      split at hstep
      · cases hstep
        exact htracked
      · cases hstep
  | otherAddRediskey vRedisKey =>
      cases hstep
      exact htracked
  | getSubString =>
      dsimp only [step] at hstep
      split at hstep
      · rename_i hthread
        cases hstep
        refine tracked_of_thread htracked rfl rfl rfl rfl rfl ?_
        rw [hthread]
        exact fun _ h => by cases h
      · cases hstep
  | asyncCommand =>
      dsimp only [step] at hstep
      split at hstep
      · rename_i strCmd hthread
        cases hstep
        refine tracked_of_thread htracked rfl rfl rfl rfl rfl ?_
        rw [hthread]
        exact fun _ h => by cases h
      · cases hstep
  | serve =>
      dsimp only [step] at hstep
      split at hstep
      · split at hstep
        · cases hstep
          exact tracked_of_kept htracked rfl rfl (fun _ h => h)
            (fun _ h => List.mem_append_left _ h) (fun _ h => h) (fun _ h => h)
        · cases hstep
          exact htracked
      · cases hstep
  | readSyncData n =>
      dsimp only [step] at hstep
      split at hstep
      · rename_i hthread
        split at hstep
        · rename_i listData rest bEmpty hread
          cases hstep
          exact tracked_readSyncData htracked hthread hread
        · cases hstep
      · cases hstep
  | addSyncData =>
      dsimp only [step] at hstep
      split at hstep
      · rename_i listData hthread
        cases hstep
        exact tracked_addSyncData htracked hthread (hheard listData hthread)
      · cases hstep

theorem nothingLost_of_quiet {mgr : KeyFieldMgr} {s : State} (htracked : Tracked mgr s)
    (hquiet : Quiet s) : NothingLost mgr s := by
  rcases hquiet with ⟨hunpublished, hreplies, hthread⟩
  intro cell read hread
  rcases htracked cell read hread with hsame | ⟨text, htext, hway⟩
  · exact Or.inl hsame
  · rcases hway with ⟨change, hmem, _⟩ | ⟨pReply, data, hmem, _⟩ |
      ⟨listData, data, hphase, hmem, _⟩ | ⟨data, hmem, hcarries⟩
    · rw [hunpublished] at hmem
      cases hmem
    · rw [hreplies] at hmem
      cases hmem
    · rw [hthread listData hphase] at hmem
      cases hmem
    · exact Or.inr ⟨text, data, htext, hmem, hcarries⟩

/-- Nothing is lost in a run in which every change is heard. -/
theorem heard_nothing_lost (mgr : KeyFieldMgr) (current : HashStore) {labels : List Action}
    (hheard : Transition.AllSteps (step mgr) (Heard mgr) (start current) labels) :
    Transition.AllStates (step mgr) (fun s => Quiet s -> NothingLost mgr s) (start current)
      labels := by
  exact Transition.allStates_of_invariant
    (fun s a t htracked hok hstep => tracked_step htracked hok hstep)
    (fun s htracked hquiet => nothingLost_of_quiet htracked hquiet)
    (tracked_start mgr current) hheard

/-!
# Two runs

A name is set and published while it is loaded for the first time: once behind the load
and before the subscription, once when the connection is subscribed.
-/

def naming : Change :=
  { i64Key := 5, iIndex := 0, iKeyField := 0x101, strValue := "\"a\"".toList }

def lateSubscription : List Action :=
  [.startLoad 5 none [0x101], .hmget, .hmset naming, .publish 0, .merge, .addRediskey,
    .getSubString, .asyncCommand, .serve, .readSyncData 1, .addSyncData]

/-- Everything was delivered, nothing was for the listener, and what was loaded of a field is
not its text. -/
def isLost (cell : Text × Text) (s : State) : Bool :=
  s.unpublished.isEmpty && s.replies.isEmpty && s.listen.m_listSyncData.isEmpty &&
    (s.loaded cell).any (fun read => !(read == s.current cell)) &&
    match s.thread with
    | .delivering _ => false
    | _ => true

theorem not_nothingLost_of_isLost {mgr : KeyFieldMgr} {cell : Text × Text} {s : State}
    (h : isLost cell s = true) : Quiet s ∧ ¬ NothingLost mgr s := by
  unfold isLost at h
  simp only [Bool.and_eq_true, List.isEmpty_iff] at h
  rcases h with ⟨⟨⟨⟨hunpublished, hreplies⟩, hlisten⟩, hloaded⟩, hthread⟩
  constructor
  · refine ⟨hunpublished, hreplies, ?_⟩
    intro listData hphase
    rw [hphase] at hthread
    cases hthread
  · intro hkept
    cases hread : s.loaded cell with
    | none =>
        rw [hread] at hloaded
        cases hloaded
    | some read =>
        rw [hread, Option.any_some, Bool.not_eq_true'] at hloaded
        rcases hkept cell read hread with hsame | ⟨text, data, _, hmem, _⟩
        · rw [hsame, beq_self_eq_true] at hloaded
          cases hloaded
        · rw [hlisten] at hmem
          cases hmem

theorem lateSubscription_loses :
    exists s, Transition.Run (step nameOnlyMgr) (start (fun _ => none)) lateSubscription =
        some s ∧ Quiet s ∧ ¬ NothingLost nameOnlyMgr s := by
  have hlost : (Transition.Run (step nameOnlyMgr) (start (fun _ => none))
      lateSubscription).any (isLost ("user:5".toList, "name".toList)) = true := by
    decide +kernel
  rcases (Option.any_eq_true _ _).mp hlost with ⟨s, hrun, h⟩
  exact ⟨s, hrun, not_nothingLost_of_isLost h⟩

/-- The run up to the publish. -/
def subscribed : List Action :=
  [.startLoad 5 none [0x101], .hmget, .merge, .addRediskey, .getSubString, .asyncCommand,
    .serve, .hmset naming]

theorem earlySubscription_keeps :
    Transition.AllStates (step nameOnlyMgr) (fun s => Quiet s -> NothingLost nameOnlyMgr s)
      (start (fun _ => none)) (subscribed ++ [.publish 0, .readSyncData 2] ++ [.addSyncData]) := by
  apply heard_nothing_lost
  apply Transition.allSteps_append
  · apply Transition.allSteps_append
    · exact ⟨trivial, fun _ _ => ⟨trivial, fun _ _ => ⟨trivial, fun _ _ => ⟨trivial,
        fun _ _ => ⟨trivial, fun _ _ => ⟨trivial, fun _ _ => ⟨trivial, fun _ _ => ⟨trivial,
          fun _ _ => trivial⟩⟩⟩⟩⟩⟩⟩⟩
    · intro s hrun
      have hcheck : (Transition.Run (step nameOnlyMgr) (start (fun _ => none))
          subscribed).all (fun s => s.unpublished == [naming] && s.channels == ["256".toList]) =
            true := by
        decide +kernel
      rw [hrun, Option.all_some, Bool.and_eq_true, beq_iff_eq, beq_iff_eq] at hcheck
      refine ⟨?_, fun _ _ => ⟨trivial, fun _ _ => trivial⟩⟩
      intro change hchange _
      rw [hcheck.left] at hchange
      cases hchange
      refine ⟨("256".toList, "S|5|0|257:\"a\"|".toList), rfl, ?_, rfl⟩
      rw [hcheck.right]
      exact List.mem_cons_self
  · intro s hrun
    have hcheck : (Transition.Run (step nameOnlyMgr) (start (fun _ => none))
        (subscribed ++ [.publish 0, .readSyncData 2])).all (fun s =>
          match s.thread with
          | .delivering listData => listData.all (fun data => s.listen.Accepts data)
          | _ => true) = true := by
      decide +kernel
    rw [hrun, Option.all_some] at hcheck
    refine ⟨?_, fun _ _ => trivial⟩
    intro listData hthread data hdata cell text _ _
    rw [hthread] at hcheck
    exact of_decide_eq_true (List.all_eq_true.mp hcheck data hdata)

end Subscription
end DataHandle
end GMServer
