import GMServer.Library.Transition
import GMServer.Hiredis.ReaderSteps

/-!
# Runs of the reader

Bytes are fed to the reader and replies are asked for, in any order.  The calls are
always defined, and the replies depend on the bytes and not on the pieces they came in.
-/

namespace GMServer
namespace Hiredis

open Incremental
open Loops
open Transition

/-!
# Between two calls
-/

/-- The reader stands for what the decoder has made of the bytes, up to what is unread. -/
inductive Views (r : redisReader) (d : Decoder) (u : Text) : Prop where
  | idle (sound : r.err = none) (buffered : Buffered r u) (three : r.rstack.length = 3)
      (ridx : r.ridx = -1) (reply : r.reply = none) (type : d.type = none)
      (frames : d.frames = []) (goingOn : d.err = none)
  | active (h : Active r d u)
  | failed {type : ErrorType} {text : Text} (err : r.err = some type) (errstr : r.errstr = text)
      (stopped : d.err = some (type, text)) (swallowed : u = [])

theorem views_create : Views redisReader.redisReaderCreate Decoder.start [] :=
  .idle rfl ⟨[], rfl, rfl, Nat.le_refl _, rfl⟩ rfl rfl rfl rfl rfl rfl

theorem read_stopped {d : Decoder} {error : ErrorType × Text} (h : d.err = some error)
    (byte : Char) (rest : Text) : Decoder.read d (byte :: rest) = some (d, rest) := by
  unfold Decoder.read
  rw [h]

theorem takes_stopped {d : Decoder} {error : ErrorType × Text} (h : d.err = some error)
    (u : Text) : Takes Decoder.read d u d [] := by
  induction u with
  | nil => exact .refl d []
  | cons byte rest ih => exact .step (read_stopped h byte rest) ih

/-!
# Asking for a reply
-/

/-- How the loop over the items ends. -/
inductive Processed (d : Decoder) (u : Text) (s : redisReader) : Prop where
  | emitted {reply : redisReply} {v : Text} (takes : Takes Decoder.read d u (d.emit reply) v)
      (emitted : Emitted s reply v)
  | waiting {t : Decoder} {v : Text} (takes : Takes Decoder.read d u t v) (active : Active s t v)
      (returned : t.returned = d.returned) (wait : Decoder.read t v = none)
  | failed {type : ErrorType} {text v : Text}
      (takes : Takes Decoder.read d u (d.fail type text) v) (failed : Failed s type text)

/-- What holds in front of each pass. -/
inductive InProcess (d : Decoder) (u : Text) (s : redisReader) : Prop where
  | working {t : Decoder} {v : Text} (takes : Takes Decoder.read d u t v) (active : Active s t v)
      (returned : t.returned = d.returned)
  | finished {reply : redisReply} {v : Text} (takes : Takes Decoder.read d u (d.emit reply) v)
      (emitted : Emitted s reply v)

theorem itemPass_working {d t : Decoder} {u v : Text} {s : redisReader}
    (hgoing : d.err = none) (htakes : Takes Decoder.read d u t v) (hactive : Active s t v)
    (hreturned : t.returned = d.returned) :
    (exists r, redisReader.itemPass s = some (.leave r) ∧ Processed d u r) ∨
      exists r, redisReader.itemPass s = some (.goOn r) ∧ InProcess d u r ∧
        r.len - r.pos < s.len - s.pos := by
  have hemit : forall reply, t.emit reply = d.emit reply := by
    intro reply
    unfold Decoder.emit
    rw [hreturned, hactive.goingOn, hgoing]
  have hfail : forall type text, t.fail type text = d.fail type text := by
    intro type text
    unfold Decoder.fail
    rw [hreturned]
  rcases processItem_outcome hactive with ⟨r, ok, hprocess, hout⟩
  have hpass : redisReader.itemPass s = some (if ok then .goOn r else .leave r) := by
    unfold redisReader.itemPass
    rw [if_pos (by rw [hactive.ridx]; omega), hprocess]
    rfl
  rw [hpass]
  have hlength := hactive.buffered.length
  cases hout with
  | goesOn takes active returned less =>
      rw [hlength, active.buffered.length] at less
      exact Or.inr ⟨r, rfl, .working (htakes.trans takes) active (returned.trans hreturned), less⟩
  | finishes takes emitted less =>
      rw [hemit] at takes
      rw [hlength, emitted.buffered.length] at less
      exact Or.inr ⟨r, rfl, .finished (htakes.trans takes) emitted, less⟩
  | waits takes active returned wait =>
      exact Or.inl ⟨r, rfl, .waiting (htakes.trans takes) active (returned.trans hreturned) wait⟩
  | fails takes failed =>
      rw [hfail] at takes
      exact Or.inl ⟨r, rfl, .failed (htakes.trans takes) failed⟩

/-- The loop ends: each item takes bytes out of the buffer. -/
theorem itemLoop_processed {r : redisReader} {d : Decoder} {u : Text} (h : Active r d u) :
    exists s, Loop redisReader.itemPass (r.len - r.pos + 1) r = some s ∧ Processed d u s := by
  have hpass : forall s, InProcess d u s ->
      (exists r, redisReader.itemPass s = some (.leave r) ∧ Processed d u r) ∨
        exists r, redisReader.itemPass s = some (.goOn r) ∧ InProcess d u r ∧
          r.len - r.pos < s.len - s.pos := by
    intro s hs
    cases hs with
    | working takes active returned =>
        exact itemPass_working h.goingOn takes active returned
    | finished takes emitted =>
        refine Or.inl ⟨s, ?_, .emitted takes emitted⟩
        unfold redisReader.itemPass
        rw [if_neg (by rw [emitted.ridx]; decide)]
  exact loop_ends hpass (.working (.refl d u) h rfl) (Nat.lt_succ_self _)

theorem sdsrange_drop {buf : Text} {pos : Nat} (hpos : pos ≤ buf.length) :
    sdsrange buf pos (-1) = buf.drop pos := by
  unfold sdsrange
  by_cases hnil : buf.length = 0
  · rw [if_pos hnil, List.length_eq_zero_iff.mp hnil, List.drop_nil]
  · have hstart : (if (pos : Int) < 0 then max (buf.length + (pos : Int)) 0 else (pos : Int)) =
        pos := if_neg (by omega)
    have hstop : (if (-1 : Int) < 0 then max (buf.length + (-1 : Int)) 0 else -1) =
        buf.length - 1 := by
      rw [if_pos (by decide)]
      omega
    rw [if_neg hnil]
    dsimp only
    rw [hstart, hstop]
    by_cases hend : (pos : Int) > buf.length - 1
    · rw [if_pos hend, if_pos rfl, List.drop_eq_nil_of_le (by omega)]
    · rw [if_neg hend, if_neg (by omega), if_neg (by omega), if_neg (by omega),
        Int.toNat_natCast, List.take_of_length_le]
      rw [List.length_drop]
      omega

/-- What has been consumed can be discarded. -/
theorem discard_buffered {r : redisReader} {u : Text} (h : Buffered r u) :
    Buffered r.discard u ∧ r.discard.pos < 1024 := by
  unfold redisReader.discard
  by_cases hfar : r.pos ≥ 1024
  · rcases h with ⟨buf, hbuf, hlen, hpos, hu⟩
    rw [if_pos hfar]
    refine ⟨⟨buf.drop r.pos, ?_, ?_, Nat.zero_le _, hu⟩, Nat.zero_lt_succ _⟩
    · dsimp only
      rw [hbuf, Option.map_some, sdsrange_drop hpos]
    · dsimp only
      rw [hbuf, Option.map_some, sdsrange_drop hpos]
      rfl
  · rw [if_neg hfar]
    exact ⟨h, Nat.lt_of_not_le hfar⟩

theorem discard_same (r : redisReader) :
    r.discard.err = r.err ∧ r.discard.rstack = r.rstack ∧ r.discard.ridx = r.ridx ∧
      r.discard.reply = r.reply := by
  unfold redisReader.discard
  split
  · exact ⟨rfl, rfl, rfl, rfl⟩
  · exact ⟨rfl, rfl, rfl, rfl⟩

theorem Active.discard {r : redisReader} {d : Decoder} {u : Text} (h : Active r d u) :
    Active r.discard d u := by
  rcases discard_same r with ⟨herr, hstack, hridx, hreply⟩
  exact
    { sound := herr.trans h.sound
      goingOn := h.goingOn
      buffered := (discard_buffered h.buffered).left
      three := by rw [hstack]; exact h.three
      depth := h.depth
      typed := h.typed
      ridx := hridx.trans h.ridx
      stacked := by rw [hstack]; exact h.stacked
      reply := hreply.trans h.reply }

theorem startTask_active {r : redisReader} {d : Decoder} {u : Text} (h : Views r d u)
    (hsound : r.err = none) : Active r.startTask d u := by
  unfold redisReader.startTask
  cases h with
  | idle sound buffered three ridx reply type frames goingOn =>
      rw [if_pos ridx]
      exact
        { sound := sound
          goingOn := goingOn
          buffered := buffered
          three := by rw [List.length_set, three]
          depth := by rw [frames]; decide
          typed := fun other hother => by rw [type] at hother; cases hother
          ridx := by rw [frames]; rfl
          stacked := by
            rw [frames, type]
            exact ⟨redisReader.firstTask,
              List.getElem?_set_self (by rw [three]; decide), rfl, rfl⟩
          reply := by rw [frames]; exact reply }
  | active h =>
      rw [if_neg (by rw [h.ridx]; omega)]
      exact h
  | failed err errstr stopped swallowed =>
      rw [hsound] at err
      cases err

theorem Buffered.nil_of_len {r : redisReader} {u : Text} (h : Buffered r u) (hlen : r.len = 0) :
    u = [] := by
  have hlength := h.length
  rw [hlen, Nat.zero_sub] at hlength
  exact List.length_eq_zero_iff.mp hlength

theorem Views.buffered {r : redisReader} {d : Decoder} {u : Text} (h : Views r d u)
    (hsound : r.err = none) : Buffered r u := by
  cases h with
  | idle sound buffered three ridx reply type frames goingOn => exact buffered
  | active h => exact h.buffered
  | failed err errstr stopped swallowed =>
      rw [hsound] at err
      cases err

/-- What a call for a reply does. -/
structure Asked (d : Decoder) (u : Text) (result : redisReader × Bool × Option redisReply)
    (t : Decoder) (v : Text) : Prop where
  views : Views result.1 t v
  takes : Takes Decoder.read d u t v
  returned : t.returned = d.returned ++ result.2.2.toList
  waits : result.2.2 = none -> Decoder.read t v = none
  succeeds : result.2.1 = true <-> result.1.err = none
  near : result.1.err = none -> result.1.pos < 1024

theorem answer_emitted {d : Decoder} {u v : Text} {s : redisReader} {reply : redisReply}
    (hgoing : d.err = none) (htakes : Takes Decoder.read d u (d.emit reply) v)
    (hemitted : Emitted s reply v) : Asked d u s.answer (d.emit reply) v := by
  rcases discard_same s with ⟨hsame, hstack, hridx, hreply⟩
  rcases discard_buffered hemitted.buffered with ⟨hbuffered, hnear⟩
  have hanswer : s.answer = ({ s.discard with reply := none }, true, some reply) := by
    unfold redisReader.answer
    rw [hemitted.sound]
    rw [if_neg (by decide)]
    dsimp only
    rw [if_pos (hridx.trans hemitted.ridx), hreply, hemitted.reply]
  rw [hanswer]
  exact
    { views := .idle (hsame.trans hemitted.sound) hbuffered (by rw [hstack]; exact hemitted.three)
        (hridx.trans hemitted.ridx) rfl rfl rfl hgoing
      takes := htakes
      returned := rfl
      waits := fun hnone => by cases hnone
      succeeds := ⟨fun _ => hsame.trans hemitted.sound, fun _ => rfl⟩
      near := fun _ => hnear }

theorem answer_waiting {d t : Decoder} {u v : Text} {s : redisReader}
    (htakes : Takes Decoder.read d u t v) (hactive : Active s t v)
    (hreturned : t.returned = d.returned) (hwait : Decoder.read t v = none) :
    Asked d u s.answer t v := by
  have hridx := hactive.discard.ridx
  have hanswer : s.answer = (s.discard, true, none) := by
    unfold redisReader.answer
    rw [hactive.sound]
    rw [if_neg (by decide)]
    dsimp only
    rw [if_neg (by omega)]
  rw [hanswer]
  exact
    { views := .active hactive.discard
      takes := htakes
      returned := hreturned.trans (List.append_nil _).symm
      waits := fun _ => hwait
      succeeds := ⟨fun _ => hactive.discard.sound, fun _ => rfl⟩
      near := fun _ => (discard_buffered hactive.buffered).right }

theorem answer_failed {d : Decoder} {u v text : Text} {s : redisReader} {type : ErrorType}
    (htakes : Takes Decoder.read d u (d.fail type text) v) (hfailed : Failed s type text) :
    Asked d u s.answer (d.fail type text) [] := by
  have hanswer : s.answer = (s, false, none) := by
    unfold redisReader.answer
    rw [hfailed.err]
    rfl
  have herr : s.err ≠ none := by
    rw [hfailed.err]
    exact Option.some_ne_none type
  rw [hanswer]
  exact
    { views := .failed hfailed.err hfailed.errstr rfl rfl
      takes := htakes.trans (takes_stopped rfl v)
      returned := (List.append_nil _).symm
      waits := fun _ => rfl
      succeeds := iff_of_false Bool.false_ne_true herr
      near := fun hnone => absurd hnone herr }

/-- Without unread bytes there is no reply, and a reader that has failed gives none. -/
theorem asked_nothing {r : redisReader} {d : Decoder} {u : Text} {ok : Bool} (h : Views r d u)
    (hwait : Decoder.read d u = none) (hok : ok = true <-> r.err = none)
    (hnear : r.err = none -> r.pos < 1024) : Asked d u (r, ok, none) d u where
  views := h
  takes := .refl d u
  returned := (List.append_nil _).symm
  waits := fun _ => hwait
  succeeds := hok
  near := hnear

theorem getReply_asked {r : redisReader} {d : Decoder} {u : Text} (h : Views r d u)
    (hnear : r.err = none -> r.pos < 1024) :
    exists result t v, r.redisReaderGetReply = some result ∧ Asked d u result t v := by
  unfold redisReader.redisReaderGetReply
  cases herr : r.err with
  | some type =>
      have hnil : u = [] := by
        cases h with
        | idle sound =>
            rw [sound] at herr
            cases herr
        | active h =>
            rw [h.sound] at herr
            cases herr
        | failed err errstr stopped swallowed => exact swallowed
      refine ⟨_, d, u, rfl, asked_nothing h ?_ ?_ hnear⟩
      · rw [hnil]
        exact waits_nil Decoder.read_steady d
      · rw [herr]
        exact iff_of_false Bool.false_ne_true (Option.some_ne_none type)
  | none =>
      rw [if_neg (by decide)]
      by_cases hlen : r.len = 0
      · rw [if_pos hlen]
        refine ⟨_, d, u, rfl, asked_nothing h ?_ ⟨fun _ => herr, fun _ => rfl⟩ hnear⟩
        rw [(h.buffered herr).nil_of_len hlen]
        exact waits_nil Decoder.read_steady d
      · rw [if_neg hlen]
        have hactive := startTask_active h herr
        have hsame : r.startTask.len - r.startTask.pos = r.len - r.pos := by
          unfold redisReader.startTask
          split
          · rfl
          · rfl
        rcases itemLoop_processed hactive with ⟨s, hloop, hprocessed⟩
        rw [hsame] at hloop
        rw [hloop, Option.map_some]
        cases hprocessed with
        | emitted takes emitted =>
            exact ⟨_, _, _, rfl, answer_emitted hactive.goingOn takes emitted⟩
        | waiting takes active returned wait =>
            exact ⟨_, _, _, rfl, answer_waiting takes active returned wait⟩
        | failed takes failed => exact ⟨_, _, _, rfl, answer_failed takes failed⟩

/-!
# Runs
-/

/-- `waiting` says that the last call has been for a reply and that there was none. -/
structure ReaderState where
  reader : redisReader
  returned : List redisReply
  waiting : Bool

inductive ReaderAction where
  | feed (bytes : Text)
  | getReply
  deriving DecidableEq, Repr

namespace ReaderState

def init : ReaderState :=
  { reader := redisReader.redisReaderCreate, returned := [], waiting := false }

def step (s : ReaderState) : ReaderAction -> Option ReaderState
  | .feed bytes =>
      (s.reader.redisReaderFeed bytes).map (fun result =>
        { s with reader := result.1, waiting := false })
  | .getReply =>
      s.reader.redisReaderGetReply.map (fun result =>
        { reader := result.1, returned := s.returned ++ result.2.2.toList,
          waiting := result.2.2.isNone })

/-- All the bytes of a run. -/
def fed (actions : List ReaderAction) : Text :=
  actions.flatMap (fun action =>
    match action with
    | .feed bytes => bytes
    | .getReply => [])

/-- The error that the reader reports. -/
def failure (s : ReaderState) : Option (ErrorType × Text) :=
  s.reader.err.map (fun type => (type, s.reader.errstr))

/-- What has been read of `all` bytes is what the decoder reads of them. -/
structure ReadInv (all : Text) (s : ReaderState) (d : Decoder) (u : Text) : Prop where
  views : Views s.reader d u
  returned : d.returned = s.returned
  settles : settle Decoder.read Decoder.start all = settle Decoder.read d u
  waits : s.waiting = true -> Decoder.read d u = none
  near : s.reader.err = none -> s.reader.pos < 1024

theorem readInv_init : ReadInv [] init Decoder.start [] where
  views := views_create
  returned := rfl
  settles := rfl
  waits := fun hwaiting => by cases hwaiting
  near := fun _ => by decide

end ReaderState

/-- New bytes stand behind those that are unread, unless the reader has failed. -/
theorem feed_views {r : redisReader} {d : Decoder} {u : Text} (h : Views r d u) (bytes : Text) :
    exists result v, r.redisReaderFeed bytes = some result ∧ Views result.1 d v ∧
      Takes Decoder.read d (u ++ bytes) d v ∧ result.1.err = r.err ∧ result.1.pos = r.pos := by
  unfold redisReader.redisReaderFeed
  rcases Option.eq_none_or_eq_some r.err with hsound | ⟨type, herr⟩
  · rw [if_neg (by rw [hsound]; decide)]
    by_cases hnil : bytes = []
    · rw [if_pos hnil, hnil, List.append_nil]
      exact ⟨_, u, rfl, h, .refl d u, rfl, rfl⟩
    · rw [if_neg hnil]
      rcases h.buffered hsound with ⟨buf, hbuf, hlen, hpos, hu⟩
      have hbuffered : Buffered
          { r with buf := some (buf ++ bytes), len := (buf ++ bytes).length } (u ++ bytes) := by
        refine ⟨buf ++ bytes, rfl, rfl, ?_, ?_⟩
        · rw [List.length_append]
          exact Nat.le_add_right_of_le hpos
        · rw [List.drop_append_of_le_length hpos, hu]
      rw [hbuf, Option.map_some]
      refine ⟨_, u ++ bytes, rfl, ?_, .refl d _, rfl, rfl⟩
      cases h with
      | idle sound buffered three ridx reply type frames goingOn =>
          exact .idle sound hbuffered three ridx reply type frames goingOn
      | active h => exact .active { h with buffered := hbuffered }
      | failed err errstr stopped swallowed =>
          rw [hsound] at err
          cases err
  · rw [if_pos (by rw [herr]; rfl)]
    cases h with
    | idle sound =>
        rw [sound] at herr
        cases herr
    | active h =>
        rw [h.sound] at herr
        cases herr
    | failed err errstr stopped swallowed =>
        exact ⟨_, [], rfl, .failed err errstr stopped rfl, takes_stopped stopped _, rfl, rfl⟩

namespace ReaderState

theorem step_reads {all : Text} {s : ReaderState} {d : Decoder} {u : Text}
    (h : ReadInv all s d u) (action : ReaderAction) :
    exists t e v, step s action = some t ∧ ReadInv (all ++ fed [action]) t e v := by
  cases action with
  | feed bytes =>
      rcases feed_views h.views bytes with ⟨result, v, hfeed, hviews, htakes, herr, hpos⟩
      have hall : fed [.feed bytes] = bytes := List.append_nil bytes
      refine ⟨{ s with reader := result.1, waiting := false }, d, v, ?_, ?_⟩
      · unfold step
        dsimp only
        rw [hfeed, Option.map_some]
      · rw [hall]
        refine ⟨hviews, h.returned, ?_, fun hwaiting => absurd hwaiting Bool.false_ne_true, ?_⟩
        · rw [settle_append Decoder.read_steady, h.settles,
            ← settle_append Decoder.read_steady, settle_takes Decoder.read_steady htakes]
        · dsimp only
          rw [herr, hpos]
          exact h.near
  | getReply =>
      rcases getReply_asked h.views h.near with ⟨result, e, v, hask, hasked⟩
      have hall : all ++ fed [.getReply] = all := List.append_nil all
      refine ⟨{ reader := result.1, returned := s.returned ++ result.2.2.toList,
                waiting := result.2.2.isNone }, e, v, ?_, ?_⟩
      · unfold step
        dsimp only
        rw [hask, Option.map_some]
      · rw [hall]
        refine ⟨hasked.views, ?_, ?_, ?_, hasked.near⟩
        · rw [hasked.returned, h.returned]
        · rw [h.settles, settle_takes Decoder.read_steady hasked.takes]
        · intro hwaiting
          exact hasked.waits (Option.isNone_iff_eq_none.mp hwaiting)

theorem run_reads {all : Text} {s : ReaderState} {d : Decoder} {u : Text}
    (h : ReadInv all s d u) (actions : List ReaderAction) :
    exists t e v, Run step s actions = some t ∧ ReadInv (all ++ fed actions) t e v := by
  induction actions generalizing all s d u with
  | nil => exact ⟨s, d, u, rfl, by rw [show fed [] = [] from rfl, List.append_nil]; exact h⟩
  | cons action rest ih =>
      rcases step_reads h action with ⟨t, e, v, hstep, hnext⟩
      rcases ih hnext with ⟨x, f, w, hrun, hlast⟩
      refine ⟨x, f, w, (run_cons_of_step rest hstep).trans hrun, ?_⟩
      have hfed : fed (action :: rest) = fed [action] ++ fed rest := by
        unfold fed
        rw [List.flatMap_cons, List.flatMap_singleton]
      rw [hfed, ← List.append_assoc]
      exact hlast

theorem run_inv {actions : List ReaderAction} {s : ReaderState}
    (hrun : Run step init actions = some s) : exists d u, ReadInv (fed actions) s d u := by
  rcases run_reads readInv_init actions with ⟨t, d, u, ht, hinv⟩
  rw [hrun] at ht
  cases ht
  exact ⟨d, u, hinv⟩

/-!
# Safety
-/

/-- The cursor is in the buffer, and the current task is on the stack. -/
structure Sound (r : redisReader) : Prop where
  buffer : exists buf, r.buf = some buf ∧ r.len = buf.length ∧ r.pos ≤ r.len
  near : r.pos < 1024
  stack : r.rstack.length = 3 ∧ -1 ≤ r.ridx ∧ r.ridx ≤ 2

theorem ReadInv.sound {all : Text} {s : ReaderState} {d : Decoder} {u : Text}
    (h : ReadInv all s d u) (hsound : s.reader.err = none) : Sound s.reader where
  buffer := by
    rcases h.views.buffered hsound with ⟨buf, hbuf, hlen, hpos, _⟩
    exact ⟨buf, hbuf, hlen, by rw [hlen]; exact hpos⟩
  near := h.near hsound
  stack := by
    cases h.views with
    | idle sound buffered three ridx =>
        rw [ridx]
        exact ⟨three, by decide, by decide⟩
    | active h =>
        have hdepth := h.depth
        rw [h.ridx]
        exact ⟨h.three, by omega, by omega⟩
    | failed err =>
        rw [hsound] at err
        cases err

/-- Whatever bytes come in, in whatever pieces: every call is defined and comes to its end. -/
theorem calls_defined (actions : List ReaderAction) :
    exists s, Run step init actions = some s ∧ (s.reader.err = none -> Sound s.reader) := by
  rcases run_reads readInv_init actions with ⟨s, d, u, hrun, hinv⟩
  exact ⟨s, hrun, hinv.sound⟩

/-!
# The pieces make no difference
-/

theorem ReadInv.failure {all : Text} {s : ReaderState} {d : Decoder} {u : Text}
    (h : ReadInv all s d u) : s.failure = d.err := by
  unfold ReaderState.failure
  cases h.views with
  | idle sound buffered three ridx reply type frames goingOn => rw [sound, goingOn]; rfl
  | active h => rw [h.sound, h.goingOn]; rfl
  | failed err errstr stopped swallowed => rw [err, errstr, stopped]; rfl

theorem ReadInv.settled {all : Text} {s : ReaderState} {d : Decoder} {u : Text}
    (h : ReadInv all s d u) (hwaiting : s.waiting = true) :
    settle Decoder.read Decoder.start all = (d, u) :=
  h.settles.trans (settle_waits (h.waits hwaiting))

/-- A run that has found no more replies has returned all that there are in its bytes. -/
theorem replies_whatever_pieces {first second : List ReaderAction} {s t : ReaderState}
    (hfirst : Run step init first = some s) (hsecond : Run step init second = some t)
    (hsame : fed first = fed second) (hwaiting : s.waiting = true) :
    t.returned <+: s.returned ∧
      (t.waiting = true -> t.returned = s.returned ∧ t.failure = s.failure) := by
  rcases run_inv hfirst with ⟨d, u, hs⟩
  rcases run_inv hsecond with ⟨e, v, ht⟩
  have hall := hs.settled hwaiting
  rw [hsame] at hall
  constructor
  · have hgrows := Decoder.takes_returned (takes_settle Decoder.read_steady e v).left
    rw [← ht.settles, hall, hs.returned, ht.returned] at hgrows
    exact hgrows
  · intro hdone
    have hpair := (ht.settled hdone).symm.trans hall
    cases hpair
    exact ⟨ht.returned.symm.trans hs.returned, ht.failure.trans hs.failure.symm⟩

/-- An array of one string, as it comes in. -/
def oneReply : Text := ['*', '1', '\r', '\n', '$', '2', '\r', '\n', 'h', 'i', '\r', '\n']

def inOnePiece : List ReaderAction := [.feed oneReply, .getReply, .getReply]

def inThreePieces : List ReaderAction :=
  [.feed (oneReply.take 3), .getReply, .feed ((oneReply.drop 3).take 6), .getReply,
    .feed (oneReply.drop 9), .getReply, .getReply]

theorem three_pieces_as_one :
    exists s t, Run step init inOnePiece = some s ∧ Run step init inThreePieces = some t ∧
      t.returned = s.returned ∧ t.failure = s.failure :=
  ⟨_, _, rfl, rfl,
    (@replies_whatever_pieces inOnePiece inThreePieces _ _ rfl rfl rfl rfl).right rfl⟩

end ReaderState

end Hiredis
end GMServer
