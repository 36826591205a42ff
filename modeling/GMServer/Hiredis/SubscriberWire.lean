import GMServer.Library.Simulation
import GMServer.DataHandle.SubscriberThread
import GMServer.Hiredis.SyncReader

/-!
# The subscribing thread on its connection

The thread with the context that it writes its commands to and reads from.  It behaves as
the thread does to which whole replies are handed.
-/

namespace GMServer
namespace Hiredis

open DataHandle
open Incremental
open Resp
open Std
open Transition

/-!
# Steps

`sent` and `received` are the bytes that the socket has taken and delivered.
-/

structure WireState (pointer : Type) where
  listeners : pointer -> RedisListen
  m_mListen : ExtTreeMap uint32_t pointer
  subMgr : RedisSubMgr
  context : redisContext
  sent : Text
  received : Text
  exported : pointer -> List RedisSyncData

inductive WireAction (pointer : Type) where
  | threadFunc (results : List SendResult) (nread : RecvResult)
  | AddListen (iActorID : uint32_t) (pListen : pointer)
  | RemoveListen (iActorID : uint32_t)
  | AddRediskey (vRedisKey : List uint32_t)
  | ExportSyncData (pListen : pointer)

namespace WireState

variable {pointer : Type}

def start (listeners : pointer -> RedisListen) (failure : Option (ErrorType × Text)) :
    WireState pointer where
  listeners := listeners
  m_mListen := ∅
  subMgr := RedisSubMgr.empty
  context := redisContext.redisConnectNonBlock failure
  sent := []
  received := []
  exported := fun _ => []

/-- The command for the groups that are asked for. -/
def subscribe (s : WireState pointer) (results : List SendResult) :
    Option (redisContext × Text) :=
  if s.subMgr.GetSubString.1 = [] then some (s.context, [])
  else RedisWrap.AsyncCommand s.context s.subMgr.GetSubString.1 results

/-- `recv` is called with a buffer of 2048 bytes. -/
def Fits : RecvResult -> Bool
  | .bytes buf => 0 < buf.length && buf.length ≤ 2048
  | _ => true

variable [DecidableEq pointer]

/-- No result stands for an exception that leaves the thread function. -/
def threadFunc (s : WireState pointer) (results : List SendResult) (nread : RecvResult) :
    Option (WireState pointer) :=
  (s.subscribe results).bind (fun written =>
    (RedisWrap.ReadSyncData written.1 nread).bind (fun result =>
      match result with
      | .error _ => none
      | .ok (context, listData, _) =>
          some
            { s with
              listeners :=
                if 0 < listData.length then
                  SubscriberState.deliver s.listeners listData s.m_mListen.toList
                else s.listeners,
              subMgr := s.subMgr.GetSubString.2,
              context := context,
              sent := s.sent ++ written.2,
              received := s.received ++ delivered written.1 nread }))

def step (s : WireState pointer) : WireAction pointer -> Option (WireState pointer)
  | .threadFunc results nread => if Fits nread then s.threadFunc results nread else none
  | .AddListen iActorID pListen =>
      some { s with m_mListen := s.m_mListen.insert iActorID pListen }
  | .RemoveListen iActorID => some { s with m_mListen := s.m_mListen.erase iActorID }
  | .AddRediskey vRedisKey => some { s with subMgr := s.subMgr.AddRediskey vRedisKey }
  | .ExportSyncData pListen =>
      some
        { s with
          listeners := Function.update s.listeners pListen
            { s.listeners pListen with m_listSyncData := [] },
          exported := Function.update s.exported pListen
            (s.exported pListen ++ (s.listeners pListen).m_listSyncData) }

/-!
# The thread that is handed replies
-/

/-- The replies that have arrived are those that are complete in the bytes, and the commands are
what has been written or waits to be written. -/
structure Follows (w : WireState pointer) (s : SubscriberState pointer) : Prop where
  listeners : s.listeners = w.listeners
  m_mListen : s.m_mListen = w.m_mListen
  subMgr : s.subMgr = w.subMgr
  exported : s.exported = w.exported
  arrived : s.arrived = (completeReplies w.received).map plain
  block : w.context.block = false
  buffer : exists taken replies, Buffers w.context.reader w.received taken replies ∧
    s.buffer = replies.map plain
  output : exists argvs, s.commands.mapM redisvFormatCommand = some argvs ∧
    Output w.context w.sent argvs

omit [DecidableEq pointer] in
theorem follows_start (listeners : pointer -> RedisListen)
    (failure : Option (ErrorType × Text)) :
    Follows (start listeners failure) (SubscriberState.start listeners) := by
  cases failure with
  | none =>
      exact ⟨rfl, rfl, rfl, rfl, rfl, rfl, ⟨[], [], buffers_create, rfl⟩, ⟨[], rfl, rfl⟩⟩
  | some error =>
      exact ⟨rfl, rfl, rfl, rfl, rfl, rfl, ⟨[], [], buffers_create, rfl⟩, ⟨[], rfl, rfl⟩⟩

omit [DecidableEq pointer] in
theorem subscribe_follows {w : WireState pointer} {s : SubscriberState pointer}
    (h : Follows w s) {results : List SendResult} {written : redisContext × Text}
    (hwritten : w.subscribe results = some written) :
    written.1.reader = w.context.reader ∧ written.1.block = false ∧
      exists argvs,
        (if w.subMgr.GetSubString.1 = [] then s.commands
          else s.commands ++ [w.subMgr.GetSubString.1]).mapM redisvFormatCommand = some argvs ∧
        Output written.1 (w.sent ++ written.2) argvs := by
  rcases h.output with ⟨argvs, hargvs, houtput⟩
  unfold subscribe at hwritten
  split at hwritten
  · rename_i hnothing
    cases hwritten
    rw [if_pos hnothing, List.append_nil]
    exact ⟨rfl, h.block, argvs, hargvs, houtput⟩
  · rename_i hcommand
    rcases asyncCommand_keeps houtput hwritten with ⟨argv, hformat, hkeeps, hreader, hblock⟩
    rw [if_neg hcommand]
    refine ⟨hreader, hblock.trans h.block, argvs ++ [argv], ?_, hkeeps⟩
    exact Session.mapM_concat hargvs hformat

/-- A turn hands over the replies that its bytes complete. -/
theorem threadFunc_follows {w t : WireState pointer} {s : SubscriberState pointer}
    (h : Follows w s) {results : List SendResult} {nread : RecvResult}
    (hstep : w.threadFunc results nread = some t) :
    exists arrived u, s.threadFunc arrived = some u ∧ Follows t u := by
  unfold threadFunc at hstep
  rcases Option.bind_eq_some_iff.mp hstep with ⟨written, hwritten, hrest⟩
  rcases Option.bind_eq_some_iff.mp hrest with ⟨result, hread, hend⟩
  rcases subscribe_follows h hwritten with ⟨hreader, hblock, houtput⟩
  rcases h.buffer with ⟨taken, replies, hbuffers, hbuffer⟩
  rw [← hreader] at hbuffers
  rcases readSyncData_reads hblock hbuffers nread with ⟨read, more, hsame, hmore, hreading⟩
  rw [hread] at hsame
  cases hsame
  refine ⟨more.map plain, ?_⟩
  unfold SubscriberState.threadFunc
  rw [h.subMgr, hbuffer, ← List.map_append]
  dsimp only
  generalize DataHandle.RedisWrap.ReadSyncData [] ((replies ++ more).map plain) = expected
    at hreading ⊢
  cases hreading with
  | thrown exception => cases hend
  | read listData bEmpty left output buffers =>
      cases hend
      refine ⟨_, rfl, ?_⟩
      exact
        { listeners := by
            dsimp only
            rw [h.listeners, h.m_mListen]
          m_mListen := h.m_mListen
          subMgr := rfl
          exported := h.exported
          arrived := by
            dsimp only
            rw [h.arrived, hmore, List.map_append]
          block := output.block.trans hblock
          buffer := ⟨_, _, buffers, left⟩
          output := by
            rcases houtput with ⟨argvs, hargvs, hkeeps⟩
            refine ⟨argvs, hargvs, ?_⟩
            unfold Output at hkeeps ⊢
            dsimp only
            rw [output.obuf]
            exact hkeeps }

theorem simulates : Simulates step SubscriberState.step (@Follows pointer) := by
  intro w t s a h hstep
  cases a with
  | threadFunc results nread =>
      simp only [step] at hstep
      split at hstep
      · rcases threadFunc_follows h hstep with ⟨arrived, u, hturn, hnext⟩
        exact ⟨.threadFunc arrived, u, hturn, hnext⟩
      · cases hstep
  | AddListen iActorID pListen =>
      cases hstep
      exact ⟨.AddListen iActorID pListen, _, rfl,
        { h with m_mListen := congrArg (fun map => map.insert iActorID pListen) h.m_mListen }⟩
  | RemoveListen iActorID =>
      cases hstep
      exact ⟨.RemoveListen iActorID, _, rfl,
        { h with m_mListen := congrArg (fun map => map.erase iActorID) h.m_mListen }⟩
  | AddRediskey vRedisKey =>
      cases hstep
      exact ⟨.AddRediskey vRedisKey, _, rfl,
        { h with subMgr := congrArg (fun subMgr => subMgr.AddRediskey vRedisKey) h.subMgr }⟩
  | ExportSyncData pListen =>
      cases hstep
      exact ⟨.ExportSyncData pListen, _, rfl,
        { h with
          listeners := by
            dsimp only
            rw [h.listeners]
          exported := by
            dsimp only
            rw [h.exported, h.listeners] }⟩

/-!
# Whole runs
-/

/-- The replies that have been written to the connection completely. -/
theorem completeReplies_stream {values : List Resp} {next : Resp} {part missing : Text}
    (hsized : AllSized values) (hnesting : nestingAll values ≤ 2) (hnext : Sized next)
    (hflat : nesting next ≤ 2) (hmissing : missing ≠ []) (hpart : part ++ missing = encode next) :
    completeReplies (encodeAll values ++ part) = replies values := by
  unfold completeReplies
  rw [settle_stream hsized hnesting]
  exact (settle_beginning hnext hflat hmissing hpart).left

/-- Whatever the pieces in which the bytes come and go, and whatever errors there are: the
thread does what it does when the complete replies are handed to it. -/
theorem turns_follow {listeners : pointer -> RedisListen} {failure : Option (ErrorType × Text)}
    {actions : List (WireAction pointer)} {w : WireState pointer}
    (hrun : Run step (start listeners failure) actions = some w) :
    exists turns s,
      Run SubscriberState.step (SubscriberState.start listeners) turns = some s ∧
        Follows w s ∧
        forall values next part missing, AllSized values -> nestingAll values ≤ 2 ->
          Sized next -> nesting next ≤ 2 -> missing ≠ [] -> part ++ missing = encode next ->
          w.received = encodeAll values ++ part -> s.arrived = (replies values).map plain := by
  rcases Simulates.run simulates (follows_start listeners failure) hrun with
    ⟨turns, s, hturns, hfollows⟩
  refine ⟨turns, s, hturns, hfollows, ?_⟩
  intro values next part missing hsized hnesting hnext hflat hmissing hpart hreceived
  rw [hfollows.arrived, hreceived,
    completeReplies_stream hsized hnesting hnext hflat hmissing hpart]

/-- A message in two pieces, and a command that is written in two. -/
def messageBytes : Text :=
  encode (.array [.bulk "message".toList, .bulk "5".toList, .bulk "A|1|2".toList])

def inTwoTurns : List (WireAction Nat) :=
  [.AddListen 7 0, .AddRediskey [5],
    .threadFunc [.written 20, .failed true [], .written 6] (.bytes (messageBytes.take 9)),
    .threadFunc [] (.bytes (messageBytes.drop 9))]

theorem two_turns_run :
    (Run step (start SubscriberState.oneListener none) inTwoTurns).any (fun w =>
      decide ((w.listeners 0).m_listSyncData.length = 1 ∧ w.context.obuf = [])) = true := by
  decide +kernel

theorem two_turns_follow :
    exists w : WireState Nat, (w.listeners 0).m_listSyncData.length = 1 ∧
      exists turns s,
        Run SubscriberState.step (SubscriberState.start SubscriberState.oneListener) turns =
            some s ∧ Follows w s := by
  rcases (Option.any_eq_true _ _).mp two_turns_run with ⟨w, hrun, hcheck⟩
  rcases turns_follow hrun with ⟨turns, s, hturns, hfollows, _⟩
  exact ⟨w, (of_decide_eq_true hcheck).left, turns, s, hturns, hfollows⟩

end WireState

end Hiredis
end GMServer
