import GMServer.Hiredis.Context

/-!
# Reading one answer

A reader that is fed with an answer and asked after each piece gives nothing until the
answer is complete, and then it gives the answer.
-/

namespace GMServer
namespace Hiredis

open Incremental
open Resp

/-- So many values have been returned, and a part of the next one has come in. -/
structure Reads (r : redisReader) (values : List Resp) (part : Text) : Prop where
  view : exists d u, Views r d u ∧ settle Decoder.read (between values) part = (d, u)
  sound : r.err = none
  near : r.pos < 1024

theorem reads_create : Reads redisReader.redisReaderCreate [] [] :=
  ⟨⟨Decoder.start, [], views_create, rfl⟩, rfl, by decide⟩

theorem Views.err {r : redisReader} {d : Decoder} {u : Text} (h : Views r d u) :
    r.err = none <-> d.err = none := by
  cases h with
  | idle sound buffered three ridx reply type frames goingOn => exact iff_of_true sound goingOn
  | active h => exact iff_of_true h.sound h.goingOn
  | failed err errstr stopped swallowed =>
      rw [err, stopped]
      exact iff_of_false (Option.some_ne_none _) (Option.some_ne_none _)

theorem getReply_sound {r : redisReader} {d : Decoder} {u : Text} (h : Views r d u)
    (hnear : r.pos < 1024) {last : Decoder × Text} (hlast : settle Decoder.read d u = last)
    (hgoing : last.1.err = none) :
    exists s reply t v, r.redisReaderGetReply = some (s, true, reply) ∧ Views s t v ∧
      settle Decoder.read t v = last ∧ Takes Decoder.read d u t v ∧
      t.returned = d.returned ++ reply.toList ∧ (reply = none -> Decoder.read t v = none) ∧
      s.err = none ∧ s.pos < 1024 := by
  rcases getReply_asked h (fun _ => hnear) with ⟨⟨s, ok, reply⟩, t, v, hask, hasked⟩
  have hsettle := settle_takes Decoder.read_steady hasked.takes
  rw [hlast] at hsettle
  have htakes := (takes_settle Decoder.read_steady t v).left
  rw [← hsettle] at htakes
  have hsound : s.err = none := by
    rw [hasked.views.err]
    by_contra hstopped
    have hstays := Decoder.takes_stays_stopped htakes (Option.isSome_iff_ne_none.mpr hstopped)
    rw [hgoing] at hstays
    cases hstays
  have hok : ok = true := hasked.succeeds.mpr hsound
  rw [hok] at hask
  exact ⟨s, reply, t, v, hask, hasked.views, hsettle.symm, hasked.takes, hasked.returned,
    hasked.waits, hsound, hasked.near hsound⟩

/-- Nothing new has come in since the last call. -/
theorem Reads.asked {r : redisReader} {values : List Resp} {part : Text}
    (h : Reads r values part) :
    exists s, r.redisReaderGetReply = some (s, true, none) ∧ Reads s values part := by
  rcases h.view with ⟨d, u, hview, hsettle⟩
  have hwait := (takes_settle Decoder.read_steady (between values) part).right
  rw [hsettle] at hwait
  rcases getReply_sound hview h.near (settle_waits hwait) (hview.err.mp h.sound) with
    ⟨s, reply, t, v, hask, hviews, hlast, htakes, hreturned, _, hsound, hnear⟩
  have hsame : d = t ∧ u = v := by
    cases htakes with
    | refl => exact ⟨rfl, rfl⟩
    | step hread rest =>
        rw [hwait] at hread
        cases hread
  rcases hsame with ⟨rfl, rfl⟩
  have hnone : reply = none :=
    Option.toList_eq_nil_iff.mp (List.append_right_eq_self.mp hreturned.symm)
  rw [hnone] at hask
  exact ⟨s, hask, ⟨d, u, hviews, hsettle⟩, hsound, hnear⟩

theorem Reads.fed {r : redisReader} {values : List Resp} {part : Text} (h : Reads r values part)
    (bytes : Text) :
    exists s d u, r.redisReaderFeed bytes = some (s, true) ∧ Views s d u ∧
      settle Decoder.read (between values) (part ++ bytes) = settle Decoder.read d u ∧
      d.returned = (settle Decoder.read (between values) part).1.returned ∧
      s.pos < 1024 := by
  rcases h.view with ⟨d, u, hview, hsettle⟩
  rcases feed_views hview bytes with ⟨⟨s, ok⟩, v, hfeed, hviews, htakes, _, hpos⟩
  have hok : ok = true := by
    unfold redisReader.redisReaderFeed at hfeed
    rw [if_neg (by simp [h.sound])] at hfeed
    split at hfeed
    · cases hfeed
      rfl
    · rcases Option.map_eq_some_iff.mp hfeed with ⟨buf, _, hpair⟩
      exact (congrArg Prod.snd hpair).symm
  rw [hok] at hfeed
  refine ⟨s, d, v, hfeed, hviews, ?_, ?_, ?_⟩
  · rw [settle_append Decoder.read_steady, hsettle]
    exact settle_takes Decoder.read_steady htakes
  · rw [hsettle]
  · dsimp only at hpos
    rw [hpos]
    exact h.near

theorem replies_append (values others : List Resp) :
    replies (values ++ others) = replies values ++ replies others := by
  induction values with
  | nil => rfl
  | cons value values ih => rw [List.cons_append, replies, replies, ih, List.cons_append]

theorem settle_answer {values : List Resp} {next : Resp} (hsized : Sized next)
    (hnesting : nesting next ≤ 2) :
    settle Decoder.read (between values) (encode next) = (between (values ++ [next]), []) := by
  have hready : Ready (between values) := ⟨rfl, rfl⟩
  have htakes := @takes_stream [next] _ hready rfl ⟨hsized, trivial⟩
    (by rw [nestingAll, nestingAll]; omega) []
  rw [encodeAll, encodeAll, List.append_nil, List.append_nil] at htakes
  have hbetween : { between values with returned := (between values).returned ++ replies [next] } =
      between (values ++ [next]) := by
    unfold between
    rw [replies_append]
  rw [settle_takes Decoder.read_steady htakes, hbetween]
  exact settle_waits (waits_nil Decoder.read_steady _)

/-- Bytes of an answer come in: the answer is returned when it is complete. -/
theorem Reads.received {r : redisReader} {values : List Resp} {next : Resp}
    {part bytes missing : Text} (h : Reads r values part) (hsized : Sized next)
    (hnesting : nesting next ≤ 2) (hbytes : bytes ≠ [])
    (hpart : part ++ (bytes ++ missing) = encode next) :
    exists s, r.redisReaderFeed bytes = some (s, true) ∧
      (missing ≠ [] ∧ (exists t, s.redisReaderGetReply = some (t, true, none) ∧
          Reads t values (part ++ bytes)) ∨
        missing = [] ∧ exists t, s.redisReaderGetReply = some (t, true, some (reply next)) ∧
          Reads t (values ++ [next]) []) := by
  rcases h.fed bytes with ⟨s, d, u, hfeed, hviews, hsettle, hreturned, hnear⟩
  rw [(settle_beginning hsized hnesting (by simp [hbytes]) hpart).left] at hreturned
  rw [← List.append_assoc] at hpart
  refine ⟨s, hfeed, ?_⟩
  by_cases hmissing : missing = []
  · rw [hmissing, List.append_nil] at hpart
    rw [hpart, settle_answer hsized hnesting] at hsettle
    have hwhole : replies (values ++ [next]) = replies values ++ [reply next] :=
      replies_append values [next]
    rcases getReply_sound hviews hnear hsettle.symm rfl with
      ⟨t, answer, e, v, hask, hview, hlast, _, hmade, hwait, hsound, hclose⟩
    rw [hreturned] at hmade
    have hrest := (takes_settle Decoder.read_steady e v).left
    rw [hlast] at hrest
    cases answer with
    | none =>
        have hpair := (settle_waits (hwait rfl)).symm.trans hlast
        have hsame : e.returned = replies (values ++ [next]) :=
          congrArg (fun pair => pair.1.returned) hpair
        have hlength := congrArg List.length (hmade.symm.trans (hsame.trans hwhole))
        simp at hlength
    | some answer =>
        rcases Decoder.takes_made hrest ⟨rfl, rfl, rfl⟩ with hless | ⟨hsame, hnil⟩
        · have hlength : e.returned.length < (replies (values ++ [next])).length := hless
          rw [hwhole, hmade] at hlength
          simp at hlength
        · have hreply : replies values ++ [answer] = replies values ++ [reply next] := by
            rw [← hwhole]
            exact hmade.symm.trans (congrArg Decoder.returned hsame)
          have hanswer := List.singleton_inj.mp (List.append_cancel_left hreply)
          rw [hanswer] at hask
          refine Or.inr ⟨hmissing, t, hask, ⟨e, v, hview, ?_⟩, hsound, hclose⟩
          rw [hsame, hnil]
          exact settle_waits (waits_nil Decoder.read_steady _)
  · rcases @settle_beginning values _ _ _ hsized hnesting hmissing hpart with
      ⟨hnothing, hgoing⟩
    rw [hsettle] at hnothing hgoing
    rcases getReply_sound hviews hnear rfl hgoing with
      ⟨t, answer, e, v, hask, hview, hlast, _, hmade, hwait, hsound, hclose⟩
    have hgrows := Decoder.takes_returned (takes_settle Decoder.read_steady e v).left
    rw [hlast, hnothing, hmade, hreturned] at hgrows
    have hnone : answer = none := by
      cases answer with
      | none => rfl
      | some answer =>
          have hlength := hgrows.length_le
          rw [List.length_append] at hlength
          exact absurd hlength (Nat.not_succ_le_self _)
    rw [hnone] at hask
    refine Or.inl ⟨hmissing, t, hask, ⟨e, v, hview, ?_⟩, hsound, hclose⟩
    rw [hsettle, ← hlast]
    exact settle_waits (hwait hnone)

/-!
# Contexts
-/

namespace redisContext

/-- A blocking context without an unread reply writes the command next. -/
theorem command_asks {c : redisContext} {values : List Resp} {part format : Text}
    {argv : List Text} (hformat : DataHandle.redisvFormatCommand format = some argv)
    (hblock : c.block = true) (hreads : Reads c.reader values part) :
    exists r, c.redisCommand format =
        some ({ c with obuf := c.obuf ++ commandBytes argv, reader := r }, .writes) ∧
      Reads r values part := by
  rcases hreads.asked with ⟨r, hask, hstill⟩
  refine ⟨r, ?_, hstill⟩
  unfold redisCommand
  rw [appendCommand_eq c hformat, Option.bind_some]
  unfold redisBlockForReply
  rw [if_pos hblock]
  unfold redisGetReply redisGetReplyFromReader
  rw [hask]
  simp [hblock]

structure Connected (c : redisContext) (values : List Resp) (part : Text) : Prop where
  sound : c.err = none
  block : c.block = true
  reads : Reads c.reader values part

theorem Connected.received {c : redisContext} {values : List Resp} {next : Resp}
    {part bytes missing : Text} (h : c.Connected values part) (hsized : Sized next)
    (hnesting : nesting next ≤ 2) (hbytes : bytes ≠ [])
    (hpart : part ++ (bytes ++ missing) = encode next) :
    exists r,
      missing ≠ [] ∧
          c.getReplyReads (.bytes bytes) = some ({ c with reader := r }, .reads) ∧
          Connected { c with reader := r } values (part ++ bytes) ∨
        missing = [] ∧
          c.getReplyReads (.bytes bytes) =
            some ({ c with reader := r }, .returns true (some (reply next))) ∧
          Connected { c with reader := r } (values ++ [next]) [] := by
  rcases h.reads.received hsized hnesting hbytes hpart with ⟨s, hfeed, hcases⟩
  have hread : c.redisBufferRead (.bytes bytes) = some ({ c with reader := s }, true) := by
    unfold redisBufferRead
    rw [if_neg (by simp [h.sound])]
    dsimp only
    rw [hfeed]
    rfl
  have hnext : c.getReplyReads (.bytes bytes) =
      ({ c with reader := s } : redisContext).redisGetReplyFromReader.map (fun asked =>
        if asked.2.1 = false then (asked.1, .returns false none)
        else if asked.2.2.isNone then (asked.1, .reads)
        else (asked.1, .returns true asked.2.2)) := by
    unfold getReplyReads
    rw [hread]
    rfl
  rw [hnext]
  unfold redisGetReplyFromReader
  dsimp only
  rcases hcases with ⟨hmissing, t, hask, hreads⟩ | ⟨hmissing, t, hask, hreads⟩
  · rw [hask]
    exact ⟨t, Or.inl ⟨hmissing, rfl, h.sound, h.block, hreads⟩⟩
  · rw [hask]
    exact ⟨t, Or.inr ⟨hmissing, rfl, h.sound, h.block, hreads⟩⟩

end redisContext
end Hiredis
end GMServer
