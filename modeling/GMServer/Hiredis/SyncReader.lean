import GMServer.DataHandle.RedisSubMgr
import GMServer.Hiredis.Calls

/-!
# A context that does not block

The subscribed connection sends its commands and takes the replies that have come in; it
never waits for a reply.
-/

namespace GMServer
namespace Hiredis

open DataHandle
open Incremental
open Loops

/-!
# Sending
-/

namespace RedisWrap

/-- A pass of the loop of `AsyncCommand` for each result of the socket; the bytes that were
taken stand behind the context.  No result stands for a loop that goes on. -/
def writeLoop (c : redisContext) : List SendResult -> Option (redisContext × Text)
  | [] => none
  | result :: results =>
      let written := c.redisBufferWrite result
      (Session.accepted c result).bind (fun bytes =>
        if written.2.1 = false || written.2.2 then some (written.1, bytes)
        else (writeLoop written.1 results).map (fun last => (last.1, bytes ++ last.2)))

def AsyncCommand (c : redisContext) (strCmd : Text) (results : List SendResult) :
    Option (redisContext × Text) :=
  (c.redisAppendCommand strCmd).bind (fun appended => writeLoop appended results)

/-!
# Receiving
-/

/-- A pass of the loop of `ReadSyncData`: the context and what has been collected. -/
def syncPass (s : redisContext × List RedisSyncData) :
    Option (Pass (redisContext × List RedisSyncData)
      (Except Exception (redisContext × List RedisSyncData × Bool))) :=
  s.1.redisGetReply.bind (fun asked =>
    match asked.2 with
    | .returns true (some pReply) =>
        some
          (match DataHandle.RedisWrap.readReply (plain pReply) with
          | none => .goOn (asked.1, s.2)
          | some (.error exception) => .leave (.error exception)
          | some (.ok none) =>
              if s.2.length ≥ 10 then .leave (.ok (asked.1, s.2, false))
              else .goOn (asked.1, s.2)
          | some (.ok (some pSyncData)) =>
              if (s.2 ++ [pSyncData]).length ≥ 10 then
                .leave (.ok (asked.1, s.2 ++ [pSyncData], false))
              else .goOn (asked.1, s.2 ++ [pSyncData]))
    | .returns _ _ => some (.leave (.ok (asked.1, s.2, true)))
    | _ => none)

/-- What `redisBufferRead` returns is not looked at. -/
def ReadSyncData (c : redisContext) (nread : RecvResult) :
    Option (Except Exception (redisContext × List RedisSyncData × Bool)) :=
  (c.redisBufferRead nread).bind (fun read =>
    Loop syncPass (read.1.reader.len - read.1.reader.pos + 1) (read.1, []))

end RedisWrap

/-!
# What a reader holds
-/

def completeReplies (bytes : Text) : List redisReply :=
  (settle Decoder.read Decoder.start bytes).1.returned

/-- So many replies have been taken, and these are the next ones. -/
structure Buffers (r : redisReader) (all : Text) (taken replies : List redisReply) : Prop where
  view : exists d u, Views r d u ∧ settle Decoder.read Decoder.start all = settle Decoder.read d u ∧
    d.returned = taken
  near : r.err = none -> r.pos < 1024
  complete : completeReplies all = taken ++ replies

theorem buffers_create : Buffers redisReader.redisReaderCreate [] [] [] where
  view := ⟨Decoder.start, [], views_create, rfl, rfl⟩
  near := fun _ => by decide
  complete := rfl

theorem getReply_some_ok {r s : redisReader} {ok : Bool} {reply : redisReply}
    (h : r.redisReaderGetReply = some (s, ok, some reply)) : ok = true := by
  unfold redisReader.redisReaderGetReply at h
  split at h
  · cases h
  · split at h
    · cases h
    · rcases Option.map_eq_some_iff.mp h with ⟨processed, _, hanswer⟩
      unfold redisReader.answer at hanswer
      split at hanswer
      · cases hanswer
      · dsimp only at hanswer
        split at hanswer
        · exact (congrArg (fun result => result.2.1) hanswer).symm
        · cases hanswer

theorem Buffers.next {r : redisReader} {all : Text} {taken replies : List redisReply}
    (h : Buffers r all taken replies) :
    exists s ok, r.redisReaderGetReply = some (s, ok, replies.head?) ∧
      (replies ≠ [] -> ok = true) ∧
      Buffers s all (taken ++ replies.head?.toList) replies.tail := by
  rcases h.view with ⟨d, u, hview, hall, htaken⟩
  rcases getReply_asked hview h.near with ⟨⟨s, ok, reply⟩, t, v, hask, hasked⟩
  have hsettle := hall.trans (settle_takes Decoder.read_steady hasked.takes)
  have hgrows := Decoder.takes_returned (takes_settle Decoder.read_steady t v).left
  have hcomplete := h.complete
  unfold completeReplies at hcomplete
  have hmade := hasked.returned
  rw [htaken] at hmade
  rw [← hsettle, hcomplete, hmade] at hgrows
  have hhead : reply = replies.head? := by
    cases reply with
    | none =>
        have hlast := settle_waits (hasked.waits rfl)
        rw [hsettle, hlast, hmade] at hcomplete
        have hnil := List.append_cancel_left hcomplete
        rw [← hnil]
        rfl
    | some reply =>
        rw [List.prefix_append_right_inj] at hgrows
        rcases hgrows with ⟨rest, hrest⟩
        rw [← hrest]
        rfl
  have hsplit : replies = reply.toList ++ replies.tail := by
    rw [hhead]
    cases replies with
    | nil => rfl
    | cons first rest => rfl
  refine ⟨s, ok, ?_, ?_, ?_⟩
  · rw [← hhead]
    exact hask
  · intro hne
    cases hreply : reply with
    | none =>
        rw [hreply] at hhead
        exact absurd (List.head?_eq_none_iff.mp hhead.symm) hne
    | some answer =>
        rw [hreply] at hask
        exact getReply_some_ok hask
  · rw [← hhead]
    exact
      { view := ⟨t, v, hasked.views, hsettle, hmade⟩
        near := hasked.near
        complete := by rw [h.complete, List.append_assoc, ← hsplit] }

theorem Buffers.feed {r : redisReader} {all : Text} {taken replies : List redisReply}
    (h : Buffers r all taken replies) (bytes : Text) :
    exists fed more, r.redisReaderFeed bytes = some fed ∧
      completeReplies (all ++ bytes) = completeReplies all ++ more ∧
      Buffers fed.1 (all ++ bytes) taken (replies ++ more) := by
  rcases h.view with ⟨d, u, hview, hall, htaken⟩
  rcases feed_views hview bytes with ⟨fed, v, hfeed, hviews, htakes, herr, hpos⟩
  have hsettle : settle Decoder.read Decoder.start (all ++ bytes) = settle Decoder.read d v := by
    rw [settle_append Decoder.read_steady, hall, ← settle_append Decoder.read_steady,
      settle_takes Decoder.read_steady htakes]
  have hgrows : completeReplies all <+: completeReplies (all ++ bytes) := by
    unfold completeReplies
    rw [settle_append Decoder.read_steady]
    exact Decoder.takes_returned (takes_settle Decoder.read_steady _ _).left
  rcases hgrows with ⟨more, hmore⟩
  refine ⟨fed, more, hfeed, hmore.symm, ⟨d, v, hviews, hsettle, htaken⟩, ?_, ?_⟩
  · rw [herr, hpos]
    exact h.near
  · rw [← hmore, h.complete, List.append_assoc]

theorem takes_length {d t : Decoder} {u v : Text} (h : Takes Decoder.read d u t v) :
    t.returned.length + v.length ≤ d.returned.length + u.length := by
  induction h with
  | refl d u => exact Nat.le_refl _
  | step hread _ ih =>
      rename_i d t x u v w _
      have hless := Decoder.read_steady.less hread
      have hone : t.returned.length ≤ d.returned.length + 1 := by
        cases Decoder.read_change hread with
        | swallows stopped => exact Nat.le_succ _
        | types byte goingOn =>
            rw [Decoder.readType_returned]
            exact Nat.le_succ _
        | puts obj goingOn =>
            unfold Decoder.put
            dsimp only
            rw [List.length_append]
            cases (complete obj d.frames).2 with
            | none => exact Nat.le_succ _
            | some reply => exact Nat.le_refl _
        | opens elements goingOn => exact Nat.le_succ _
      omega

theorem Buffers.length {r : redisReader} {all : Text} {taken replies : List redisReply}
    (h : Buffers r all taken replies) : replies.length ≤ r.len - r.pos := by
  rcases h.view with ⟨d, u, hview, hall, htaken⟩
  have hcomplete := h.complete
  unfold completeReplies at hcomplete
  have hlength := takes_length (takes_settle Decoder.read_steady d u).left
  rw [← hall, hcomplete, htaken, List.length_append] at hlength
  have hunread : u.length ≤ r.len - r.pos := by
    cases hview with
    | idle sound buffered three ridx reply type frames goingOn =>
        exact Nat.le_of_eq buffered.length
    | active h => exact Nat.le_of_eq h.buffered.length
    | failed err errstr stopped swallowed =>
        rw [swallowed]
        exact Nat.zero_le _
  omega

/-!
# Reading on
-/

structure SameOutput (c next : redisContext) : Prop where
  block : next.block = c.block
  obuf : next.obuf = c.obuf

theorem getReply_next {c : redisContext} (hblock : c.block = false) {all : Text}
    {taken replies : List redisReply} (h : Buffers c.reader all taken replies) :
    exists next ok, c.redisGetReply = some (next, .returns ok replies.head?) ∧
      (replies ≠ [] -> ok = true) ∧ SameOutput c next ∧
      Buffers next.reader all (taken ++ replies.head?.toList) replies.tail := by
  rcases h.next with ⟨s, ok, hask, hok, hstill⟩
  unfold redisContext.redisGetReply redisContext.redisGetReplyFromReader
  rw [hask]
  cases ok with
  | true =>
      refine ⟨{ c with reader := s }, true, ?_, fun _ => rfl, ⟨rfl, rfl⟩, hstill⟩
      simp [hblock]
  | false =>
      have hnil : replies = [] := by
        by_contra hne
        cases hok hne
      rw [hnil] at hstill ⊢
      exact ⟨({ c with reader := s } : redisContext).redisSetError s.err s.errstr, false, rfl,
        fun hne => absurd rfl hne, ⟨rfl, rfl⟩, hstill⟩

inductive SameReading (c : redisContext) (all : Text) :
    Except Exception (redisContext × List RedisSyncData × Bool) ->
      Except Exception (List RedisSyncData × List Reply × Bool) -> Prop where
  | thrown (exception : Exception) : SameReading c all (.error exception) (.error exception)
  | read {next : redisContext} {taken replies : List redisReply} {rest : List Reply}
      (listData : List RedisSyncData) (bEmpty : Bool) (left : rest = replies.map plain)
      (output : SameOutput c next) (buffers : Buffers next.reader all taken replies) :
      SameReading c all (.ok (next, listData, bEmpty)) (.ok (listData, rest, bEmpty))

theorem SameReading.after {c next : redisContext} {all : Text}
    {result : Except Exception (redisContext × List RedisSyncData × Bool)}
    {expected : Except Exception (List RedisSyncData × List Reply × Bool)}
    (h : SameReading next all result expected) (hsame : SameOutput c next) :
    SameReading c all result expected := by
  cases h with
  | thrown exception => exact .thrown exception
  | read listData bEmpty left output buffers =>
      exact .read listData bEmpty left
        ⟨output.block.trans hsame.block, output.obuf.trans hsame.obuf⟩ buffers

/-- The loop reads the replies that are there as `ReadSyncData` reads a list of them. -/
theorem syncLoop_reads {c : redisContext} (hblock : c.block = false) {all : Text}
    {taken replies : List redisReply} (h : Buffers c.reader all taken replies)
    (listData : List RedisSyncData) {fuel : Nat} (hfuel : replies.length < fuel) :
    exists result, Loop RedisWrap.syncPass fuel (c, listData) = some result ∧
      SameReading c all result
        (DataHandle.RedisWrap.ReadSyncData listData (replies.map plain)) := by
  induction replies generalizing c taken listData fuel with
  | nil =>
      rcases getReply_next hblock h with ⟨next, ok, hask, _, houtput, hstill⟩
      have hpass : RedisWrap.syncPass (c, listData) =
          some (.leave (.ok (next, listData, true))) := by
        unfold RedisWrap.syncPass
        rw [hask]
        cases ok with
        | true => rfl
        | false => rfl
      cases fuel with
      | zero => exact absurd hfuel (Nat.not_lt_zero _)
      | succ fuel =>
          exact ⟨_, loop_leave hpass fuel, .read listData true rfl houtput hstill⟩
  | cons pReply rest ih =>
      rcases getReply_next hblock h with ⟨next, ok, hask, hok, houtput, hstill⟩
      rw [hok (List.cons_ne_nil pReply rest)] at hask
      have hpass : RedisWrap.syncPass (c, listData) =
          some
            (match DataHandle.RedisWrap.readReply (plain pReply) with
            | none => .goOn (next, listData)
            | some (.error exception) => .leave (.error exception)
            | some (.ok none) =>
                if listData.length ≥ 10 then .leave (.ok (next, listData, false))
                else .goOn (next, listData)
            | some (.ok (some pSyncData)) =>
                if (listData ++ [pSyncData]).length ≥ 10 then
                  .leave (.ok (next, listData ++ [pSyncData], false))
                else .goOn (next, listData ++ [pSyncData])) := by
        unfold RedisWrap.syncPass
        rw [hask]
        rfl
      cases fuel with
      | zero => exact absurd hfuel (Nat.not_lt_zero _)
      | succ fuel =>
          have hrest : rest.length < fuel := Nat.lt_of_succ_lt_succ hfuel
          have hnext : next.block = false := houtput.block.trans hblock
          have hgoOn : forall more : List RedisSyncData,
              exists result, Loop RedisWrap.syncPass fuel (next, more) = some result ∧
                SameReading c all result
                  (DataHandle.RedisWrap.ReadSyncData more (rest.map plain)) := by
            intro more
            rcases ih hnext hstill more hrest with ⟨result, hloop, hsame⟩
            exact ⟨result, hloop, hsame.after houtput⟩
          rw [List.map_cons, DataHandle.RedisWrap.ReadSyncData]
          cases hread : DataHandle.RedisWrap.readReply (plain pReply) with
          | none =>
              rw [hread] at hpass
              rw [loop_goOn hpass]
              exact hgoOn listData
          | some parsed =>
              rw [hread] at hpass
              cases parsed with
              | error exception => exact ⟨_, loop_leave hpass fuel, .thrown exception⟩
              | ok data =>
                  cases data with
                  | none =>
                      by_cases hfull : listData.length ≥ 10
                      · dsimp only at hpass ⊢
                        rw [if_pos hfull] at hpass ⊢
                        exact ⟨_, loop_leave hpass fuel, .read listData false rfl houtput hstill⟩
                      · dsimp only at hpass ⊢
                        rw [if_neg hfull] at hpass ⊢
                        rw [loop_goOn hpass]
                        exact hgoOn listData
                  | some pSyncData =>
                      by_cases hfull : (listData ++ [pSyncData]).length ≥ 10
                      · dsimp only at hpass ⊢
                        rw [if_pos hfull] at hpass ⊢
                        exact ⟨_, loop_leave hpass fuel, .read _ false rfl houtput hstill⟩
                      · dsimp only at hpass ⊢
                        rw [if_neg hfull] at hpass ⊢
                        rw [loop_goOn hpass]
                        exact hgoOn _

def delivered (c : redisContext) (nread : RecvResult) : Text :=
  if c.err.isSome then []
  else
    match nread with
    | .bytes buf => buf
    | _ => []

theorem bufferRead_feeds {c : redisContext} (hblock : c.block = false) {all : Text}
    {taken replies : List redisReply} (h : Buffers c.reader all taken replies)
    (nread : RecvResult) :
    exists read more, c.redisBufferRead nread = some read ∧ SameOutput c read.1 ∧
      completeReplies (all ++ delivered c nread) = completeReplies all ++ more ∧
      Buffers read.1.reader (all ++ delivered c nread) taken (replies ++ more) := by
  have hnothing : forall read : redisContext × Bool, SameOutput c read.1 ->
      read.1.reader = c.reader -> exists more, SameOutput c read.1 ∧
        completeReplies (all ++ []) = completeReplies all ++ more ∧
        Buffers read.1.reader (all ++ []) taken (replies ++ more) := by
    intro read hsame hreader
    refine ⟨[], hsame, ?_, ?_⟩
    · rw [List.append_nil, List.append_nil]
    · rw [List.append_nil, List.append_nil, hreader]
      exact h
  unfold redisContext.redisBufferRead delivered
  by_cases herr : c.err.isSome
  · rw [if_pos herr, if_pos herr]
    rcases hnothing (c, false) ⟨rfl, rfl⟩ rfl with ⟨more, hmore⟩
    exact ⟨_, more, rfl, hmore⟩
  · rw [if_neg herr, if_neg herr]
    cases nread with
    | failed text =>
        rcases hnothing (c, true) ⟨rfl, rfl⟩ rfl with ⟨more, hmore⟩
        exact ⟨_, more, if_neg (by simp [hblock]), hmore⟩
    | closed =>
        rcases hnothing (c.redisSetError (some .eof) closedText, false) ⟨rfl, rfl⟩ rfl with
          ⟨more, hmore⟩
        exact ⟨_, more, rfl, hmore⟩
    | bytes buf =>
        rcases h.feed buf with ⟨⟨reader, ok⟩, more, hfeed, hmore, hstill⟩
        dsimp only
        rw [hfeed]
        cases ok with
        | true =>
            exact ⟨({ c with reader := reader }, true), more, rfl, ⟨rfl, rfl⟩, hmore, hstill⟩
        | false =>
            exact ⟨(({ c with reader := reader } : redisContext).redisSetError reader.err
              reader.errstr, false), more, rfl, ⟨rfl, rfl⟩, hmore, hstill⟩

/-- What a call reads are the replies that were left and those that its bytes complete. -/
theorem readSyncData_reads {c : redisContext} (hblock : c.block = false) {all : Text}
    {taken replies : List redisReply} (h : Buffers c.reader all taken replies)
    (nread : RecvResult) :
    exists result more, RedisWrap.ReadSyncData c nread = some result ∧
      completeReplies (all ++ delivered c nread) = completeReplies all ++ more ∧
      SameReading c (all ++ delivered c nread) result
        (DataHandle.RedisWrap.ReadSyncData [] ((replies ++ more).map plain)) := by
  rcases bufferRead_feeds hblock h nread with ⟨read, more, hread, houtput, hmore, hbuffers⟩
  have hfuel := Nat.lt_succ_of_le hbuffers.length
  rcases syncLoop_reads (houtput.block.trans hblock) hbuffers [] hfuel with
    ⟨result, hloop, hsame⟩
  refine ⟨result, more, ?_, hmore, hsame.after houtput⟩
  unfold RedisWrap.ReadSyncData
  rw [hread]
  exact hloop

/-!
# What has been sent
-/

/-- The commands so far are what was sent and what waits in the buffer. -/
def Output (c : redisContext) (sent : Text) (argvs : List (List Text)) : Prop :=
  sent ++ c.obuf = argvs.flatMap commandBytes

theorem bufferWrite_stopped {c : redisContext} (herr : c.err.isSome) (result : SendResult) :
    c.redisBufferWrite result = (c, false, false) := by
  unfold redisContext.redisBufferWrite
  rw [if_pos herr]

theorem accepted_stopped {c : redisContext} (herr : c.err.isSome) {result : SendResult}
    {bytes : Text} (h : Session.accepted c result = some bytes) : bytes = [] := by
  cases result with
  | written nwritten =>
      simp only [Session.accepted] at h
      split at h
      · exact (Option.some.inj h).symm
      · cases h
  | failed again text => exact (Option.some.inj h).symm

theorem bufferWrite_keeps {c : redisContext} {sent bytes : Text} {argvs : List (List Text)}
    (h : Output c sent argvs) {result : SendResult}
    (haccepted : Session.accepted c result = some bytes) :
    Output (c.redisBufferWrite result).1 (sent ++ bytes) argvs ∧
      (c.redisBufferWrite result).1.reader = c.reader ∧
      (c.redisBufferWrite result).1.block = c.block := by
  by_cases herr : c.err.isSome
  · rw [bufferWrite_stopped herr, accepted_stopped herr haccepted, List.append_nil]
    exact ⟨h, rfl, rfl⟩
  · have hsound := Option.not_isSome_iff_eq_none.mp herr
    cases result with
    | failed again text =>
        have hnil : bytes = [] := (Option.some.inj haccepted).symm
        rw [hnil, List.append_nil]
        unfold redisContext.redisBufferWrite
        rw [if_neg herr]
        split
        · dsimp only
          split
          · exact ⟨h, rfl, rfl⟩
          · exact ⟨h, rfl, rfl⟩
        · exact ⟨h, rfl, rfl⟩
    | written nwritten =>
        simp only [Session.accepted] at haccepted
        split at haccepted
        · rename_i hle
          cases haccepted
          by_cases hne : c.obuf = []
          · unfold redisContext.redisBufferWrite
            rw [if_neg herr, if_neg (by simp [hne]), hne, List.take_nil, List.append_nil]
            exact ⟨h, rfl, rfl⟩
          · rw [redisContext.bufferWrite_written hsound hne hle]
            refine ⟨?_, rfl, rfl⟩
            unfold Output at h ⊢
            dsimp only
            rw [List.append_assoc, List.take_append_drop, h]
        · cases haccepted

theorem writeLoop_keeps {c next : redisContext} {sent bytes : Text} {argvs : List (List Text)}
    (h : Output c sent argvs) {results : List SendResult}
    (hloop : RedisWrap.writeLoop c results = some (next, bytes)) :
    Output next (sent ++ bytes) argvs ∧ next.reader = c.reader ∧ next.block = c.block := by
  induction results generalizing c sent bytes with
  | nil => cases hloop
  | cons result results ih =>
      simp only [RedisWrap.writeLoop] at hloop
      rcases Option.bind_eq_some_iff.mp hloop with ⟨first, haccepted, hrest⟩
      have hkeeps := bufferWrite_keeps h haccepted
      split at hrest
      · cases hrest
        exact hkeeps
      · rcases Option.map_eq_some_iff.mp hrest with ⟨⟨last, later⟩, hlater, hEq⟩
        cases hEq
        rcases ih hkeeps.left hlater with ⟨houtput, hreader, hblock⟩
        rw [List.append_assoc] at houtput
        exact ⟨houtput, hreader.trans hkeeps.right.left, hblock.trans hkeeps.right.right⟩

theorem asyncCommand_keeps {c next : redisContext} {sent bytes strCmd : Text}
    {argvs : List (List Text)} (h : Output c sent argvs) {results : List SendResult}
    (hcommand : RedisWrap.AsyncCommand c strCmd results = some (next, bytes)) :
    exists argv, redisvFormatCommand strCmd = some argv ∧
      Output next (sent ++ bytes) (argvs ++ [argv]) ∧ next.reader = c.reader ∧
      next.block = c.block := by
  unfold RedisWrap.AsyncCommand at hcommand
  rcases Option.bind_eq_some_iff.mp hcommand with ⟨appended, happend, hloop⟩
  cases hformat : redisvFormatCommand strCmd with
  | none =>
      unfold redisContext.redisAppendCommand redisFormatCommand at happend
      rw [hformat] at happend
      cases happend
  | some argv =>
      rw [redisContext.appendCommand_eq c hformat] at happend
      cases happend
      have houtput : Output { c with obuf := c.obuf ++ commandBytes argv } sent
          (argvs ++ [argv]) := by
        unfold Output at h ⊢
        dsimp only
        rw [← List.append_assoc, h, List.flatMap_append, List.flatMap_singleton]
      rcases writeLoop_keeps houtput hloop with ⟨hout, hreader, hblock⟩
      exact ⟨argv, rfl, hout, hreader, hblock⟩

end Hiredis
end GMServer
