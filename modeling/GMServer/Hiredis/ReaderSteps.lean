import GMServer.Hiredis.Decoder

/-!
# The steps of the reader

The stack of tasks and the reply under construction stand for the open arrays of the
decoder.  Each item that the reader processes is one that the decoder reads.
-/

namespace GMServer
namespace Hiredis

open Incremental
open Loops

/-!
# The reply under construction
-/

/-- An open array with something in the place that is to be filled next. -/
def Frame.around (f : Frame) (hole : Option redisReply) : redisReply :=
  .array f.elements
    (f.done.map some ++ hole :: List.replicate (f.elements - f.done.length - 1) none)

def fill : List Frame -> Option redisReply -> Option redisReply
  | [], hole => hole
  | f :: frames, hole => fill frames (some (f.around hole))

/-- The path to the place that is to be filled next. -/
def holePath : List Frame -> List Nat
  | [] => []
  | f :: frames => holePath frames ++ [f.done.length]

theorem getElem?_done (f : Frame) (hole : Option redisReply) (rest : List (Option redisReply)) :
    (f.done.map some ++ hole :: rest)[f.done.length]? = some hole := by
  rw [List.getElem?_append_right (by rw [List.length_map]), List.length_map, Nat.sub_self]
  rfl

theorem set_done (f : Frame) (hole new : Option redisReply) (rest : List (Option redisReply)) :
    (f.done.map some ++ hole :: rest).set f.done.length new = f.done.map some ++ new :: rest := by
  rw [List.set_append_right _ _ (by rw [List.length_map]), List.length_map, Nat.sub_self,
    List.set_cons_zero]

theorem writeElement_around (obj : redisReply) (f : Frame) :
    writeElement obj f.done.length [] (f.around none) = some (f.around (some obj)) := by
  unfold Frame.around
  rw [writeElement, if_pos, set_done]
  rw [List.length_append, List.length_map, List.length_cons]
  omega

theorem writeElement_below {obj child written : redisReply} {idx : Nat} {path : List Nat}
    (h : writeElement obj idx path child = some written) (f : Frame) :
    writeElement obj idx (f.done.length :: path) (f.around (some child)) =
      some (f.around (some written)) := by
  unfold Frame.around
  rw [writeElement, getElem?_done]
  dsimp only
  rw [h, Option.map_some, set_done]

/-- A write into the innermost array is found along its path. -/
theorem writeElement_fill {obj child written : redisReply} {idx : Nat} {path : List Nat}
    (h : writeElement obj idx path child = some written) (frames : List Frame) :
    exists reply next, fill frames (some child) = some reply ∧
      writeElement obj idx (holePath frames ++ path) reply = some next ∧
      fill frames (some written) = some next := by
  induction frames generalizing child written path with
  | nil => exact ⟨child, written, rfl, h, rfl⟩
  | cons f frames ih =>
      rcases ih (writeElement_below h f) with ⟨reply, next, hreply, hwrite, hnext⟩
      refine ⟨reply, next, hreply, ?_, hnext⟩
      rw [holePath, List.append_assoc]
      exact hwrite

/-!
# The stack of tasks
-/

/-- The topmost task has the type; each task below belongs to an open array. -/
def Stacked (rstack : List redisReadTask) : Option ReplyType -> List Frame -> Prop
  | type, [] => exists task, rstack[0]? = some task ∧ task.type = type ∧ task.parent = none
  | type, f :: frames =>
      f.done.length < f.elements ∧
        (exists task, rstack[frames.length + 1]? = some task ∧ task.type = type ∧
          task.idx = f.done.length ∧ task.parent = some frames.length) ∧
        (exists task, rstack[frames.length]? = some task ∧ task.elements = f.elements ∧
          task.obj = some (holePath frames)) ∧
        Stacked rstack (some .array) frames

theorem Stacked.top {rstack : List redisReadTask} {type : Option ReplyType}
    {frames : List Frame} (h : Stacked rstack type frames) :
    exists task, rstack[frames.length]? = some task ∧ task.type = type := by
  cases frames with
  | nil =>
      rcases h with ⟨task, hget, htype, _⟩
      exact ⟨task, hget, htype⟩
  | cons f frames =>
      rcases h.right.left with ⟨task, hget, htype, _⟩
      exact ⟨task, hget, htype⟩

/-- A task above the stack can be anything. -/
theorem Stacked.set_above {rstack : List redisReadTask} {type : Option ReplyType}
    {frames : List Frame} (h : Stacked rstack type frames) {i : Nat} (hi : frames.length < i)
    (task : redisReadTask) : Stacked (rstack.set i task) type frames := by
  induction frames generalizing type with
  | nil =>
      rcases h with ⟨bottom, hget, hbottom⟩
      refine ⟨bottom, ?_, hbottom⟩
      rw [List.length_nil] at hi
      rw [List.getElem?_set_ne (Nat.ne_of_gt hi)]
      exact hget
  | cons f frames ih =>
      rcases h with ⟨hless, ⟨own, hown, hfields⟩, ⟨array, harray, hrest⟩, hbelow⟩
      rw [List.length_cons] at hi
      refine ⟨hless, ⟨own, ?_, hfields⟩, ⟨array, ?_, hrest⟩, ih hbelow (by omega)⟩
      · rw [List.getElem?_set_ne (by omega)]
        exact hown
      · rw [List.getElem?_set_ne (by omega)]
        exact harray

/-- The topmost task can change its type, the number of its elements and its object. -/
theorem Stacked.set_top {rstack : List redisReadTask} {type : Option ReplyType}
    {frames : List Frame} (h : Stacked rstack type frames) {cur : redisReadTask}
    (hcur : rstack[frames.length]? = some cur) (new : redisReadTask) (hidx : new.idx = cur.idx)
    (hparent : new.parent = cur.parent) :
    Stacked (rstack.set frames.length new) new.type frames := by
  have hlength : frames.length < rstack.length := (List.getElem?_eq_some_iff.mp hcur).choose
  cases frames with
  | nil =>
      rcases h with ⟨task, hget, _, htask⟩
      rw [List.length_nil, hget] at hcur
      cases hcur
      exact ⟨new, List.getElem?_set_self hlength, rfl, hparent.trans htask⟩
  | cons f frames =>
      rcases h with ⟨hless, ⟨task, hget, _, htaskidx, htaskparent⟩, ⟨array, harray, hrest⟩, hbelow⟩
      rw [List.length_cons] at hcur hlength
      rw [hget] at hcur
      cases hcur
      refine ⟨hless, ⟨new, List.getElem?_set_self hlength, rfl, hidx.trans htaskidx,
        hparent.trans htaskparent⟩, ⟨array, ?_, hrest⟩, hbelow.set_above (Nat.lt_succ_self _) new⟩
      rw [List.length_cons, List.getElem?_set_ne (Nat.succ_ne_self _)]
      exact harray

/-!
# A reader that is at work
-/

/-- What the buffer holds from the cursor on. -/
def Buffered (r : redisReader) (u : Text) : Prop :=
  exists buf, r.buf = some buf ∧ r.len = buf.length ∧ r.pos ≤ buf.length ∧ u = buf.drop r.pos

structure Active (r : redisReader) (d : Decoder) (u : Text) : Prop where
  sound : r.err = none
  goingOn : d.err = none
  buffered : Buffered r u
  three : r.rstack.length = 3
  depth : d.frames.length ≤ 2
  typed : forall type, d.type = some type ->
    type ≠ .nil ∧ (type = .array -> d.frames.length < 2)
  ridx : r.ridx = d.frames.length
  stacked : Stacked r.rstack d.type d.frames
  reply : r.reply = fill d.frames none

/-- A reply is complete and has not been handed out. -/
structure Emitted (r : redisReader) (reply : redisReply) (u : Text) : Prop where
  sound : r.err = none
  buffered : Buffered r u
  three : r.rstack.length = 3
  ridx : r.ridx = -1
  reply : r.reply = some reply

theorem Buffered.unread {r : redisReader} {u : Text} (h : Buffered r u) : r.unread = some u := by
  rcases h with ⟨buf, hbuf, hlen, _, hu⟩
  unfold redisReader.unread
  rw [hbuf, hlen, Option.map_some, List.take_length, hu]

theorem Buffered.advance {r s : redisReader} {rest : Text} (first : Text)
    (h : Buffered r (first ++ rest)) (hbuf : s.buf = r.buf) (hlen : s.len = r.len)
    (hpos : s.pos = r.pos + first.length) : Buffered s rest := by
  rcases h with ⟨buf, hsome, hlength, hle, hdrop⟩
  have hrest := congrArg List.length hdrop
  rw [List.length_append, List.length_drop] at hrest
  refine ⟨buf, hbuf.trans hsome, hlen.trans hlength, by omega, ?_⟩
  rw [hpos, ← List.drop_drop, ← hdrop, List.drop_left]

theorem Buffered.length {r : redisReader} {u : Text} (h : Buffered r u) :
    u.length = r.len - r.pos := by
  rcases h with ⟨buf, _, hlen, _, hu⟩
  rw [hu, hlen, List.length_drop]

theorem Active.current {r : redisReader} {d : Decoder} {u : Text} (h : Active r d u) :
    exists cur, r.curTask = some cur ∧ r.rstack[d.frames.length]? = some cur ∧
      cur.type = d.type := by
  rcases h.stacked.top with ⟨cur, hget, htype⟩
  refine ⟨cur, ?_, hget, htype⟩
  unfold redisReader.curTask
  rw [h.ridx, Int.toNat_natCast]
  exact hget

/-!
# Putting an object in its place
-/

/-- The object goes into the innermost array, or it becomes the reply. -/
theorem createObject_fills {r : redisReader} {type : Option ReplyType} {frames : List Frame}
    {cur : redisReadTask} (hstacked : Stacked r.rstack type frames)
    (hreply : r.reply = fill frames none) (hcur : r.rstack[frames.length]? = some cur)
    (obj : redisReply) :
    r.createObject cur obj =
      some { r with reply := if frames = [] then none else fill frames (some obj) } := by
  cases frames with
  | nil =>
      rcases hstacked with ⟨task, hget, _, hparent⟩
      rw [List.length_nil, hget] at hcur
      cases hcur
      unfold redisReader.createObject
      rw [hparent, if_pos rfl, show (none : Option redisReply) = r.reply from hreply.symm]
  | cons f frames =>
      rcases hstacked with ⟨_, ⟨task, hget, _, hidx, hparent⟩, ⟨array, harray, _, hobj⟩, _⟩
      rw [List.length_cons, hget] at hcur
      cases hcur
      rcases writeElement_fill (writeElement_around obj f) frames with
        ⟨reply, next, hfilled, hwrite, hnext⟩
      rw [List.append_nil] at hwrite
      unfold redisReader.createObject
      rw [hparent]
      dsimp only
      rw [harray, Option.bind_some, hobj, hreply, show fill (f :: frames) none = some reply from
        hfilled]
      dsimp only
      rw [hidx, if_neg (by omega), Int.toNat_natCast, hwrite, Option.map_some,
        if_neg (List.cons_ne_nil f frames),
        show fill (f :: frames) (some obj) = some next from hnext]

theorem setRoot_fills {r : redisReader} {frames : List Frame} (hridx : r.ridx = frames.length)
    (obj : redisReply) :
    ({ r with reply := if frames = [] then none else fill frames (some obj) }).setRoot obj =
      { r with reply := fill frames (some obj) } := by
  unfold redisReader.setRoot
  cases frames with
  | nil => exact if_pos hridx
  | cons f frames =>
      rw [List.length_cons] at hridx
      exact if_neg (show ¬ r.ridx = 0 by omega)

theorem around_full {f : Frame} (hfull : f.done.length + 1 = f.elements) (obj : redisReply) :
    f.around (some obj) = .array f.elements ((f.done ++ [obj]).map some) := by
  unfold Frame.around
  rw [show f.elements - f.done.length - 1 = 0 by omega, List.map_append]
  rfl

theorem around_next {f : Frame} (hless : f.done.length + 1 < f.elements) (obj : redisReply) :
    f.around (some obj) = ({ f with done := f.done ++ [obj] } : Frame).around none := by
  unfold Frame.around
  dsimp only
  rw [List.length_append, List.length_singleton, List.map_append, List.append_assoc,
    show f.elements - f.done.length - 1 = (f.elements - (f.done.length + 1) - 1) + 1 by omega,
    List.replicate_succ]
  rfl

/-- The stack moves on as the object completes the arrays it is the last element of. -/
theorem moveFrom_completes {r : redisReader} {type : Option ReplyType} {frames : List Frame}
    (hstacked : Stacked r.rstack type frames) (obj : redisReply) :
    (exists reply, complete obj frames = ([], some reply) ∧
        fill frames (some obj) = some reply ∧
        r.moveFrom frames.length = some { r with ridx := -1 }) ∨
      exists left rstack, complete obj frames = (left, none) ∧
        fill frames (some obj) = fill left none ∧ left.length ≤ frames.length ∧
        Stacked rstack none left ∧ rstack.length = r.rstack.length ∧
        r.moveFrom frames.length = some { r with ridx := left.length, rstack := rstack } := by
  induction frames generalizing type obj with
  | nil => exact Or.inl ⟨obj, rfl, rfl, rfl⟩
  | cons f frames ih =>
      rcases hstacked with ⟨hless, ⟨cur, hcur, _, hidx, hparent⟩, ⟨prv, hprv, helements, hobj⟩,
        hbelow⟩
      rcases hbelow.top with ⟨array, harray, htype⟩
      rw [hprv] at harray
      cases harray
      rw [List.length_cons, redisReader.moveFrom, hcur, hprv, complete]
      dsimp only
      rw [if_neg (not_not.mpr htype), hidx, helements]
      by_cases hfull : f.done.length + 1 = f.elements
      · rw [if_pos hfull, if_pos (by omega), fill, around_full hfull]
        rcases ih hbelow (.array f.elements ((f.done ++ [obj]).map some)) with hdone | hmoved
        · exact Or.inl hdone
        · rcases hmoved with ⟨left, rstack, hcomplete, hfill, hshort, hrest⟩
          exact Or.inr ⟨left, rstack, hcomplete, hfill, Nat.le_succ_of_le hshort, hrest⟩
      · have hnext : f.done.length + 1 < f.elements := by omega
        have hlength : frames.length + 1 < r.rstack.length :=
          (List.getElem?_eq_some_iff.mp hcur).choose
        rw [if_neg hfull, if_neg (by omega), if_pos (by omega)]
        refine Or.inr ⟨_, _, rfl, ?_, Nat.le_refl _, ?_, ?_, rfl⟩
        · rw [fill, around_next hnext, fill]
        · refine ⟨?_, ⟨_, List.getElem?_set_self hlength, rfl, ?_, hparent⟩, ⟨prv, ?_, helements,
            hobj⟩, hbelow.set_above (Nat.lt_succ_self _) _⟩
          · rw [List.length_append]
            exact hnext
          · rw [List.length_append]
            exact (Int.natCast_succ _).symm
          · rw [List.getElem?_set_ne (Nat.succ_ne_self _)]
            exact hprv
        · rw [List.length_set]

/-!
# Items

An item is processed to its end, it waits for more bytes, or it is an error.
-/

def Decoder.emit (d : Decoder) (reply : redisReply) : Decoder :=
  { d with type := none, frames := [], returned := d.returned ++ [reply] }

structure Failed (r : redisReader) (type : ErrorType) (text : Text) : Prop where
  err : r.err = some type
  errstr : r.errstr = text.take 127

inductive ItemOutcome (d : Decoder) (u : Text) (s : redisReader) : Bool -> Prop where
  | goesOn {t : Decoder} {v : Text} (takes : Takes Decoder.read d u t v) (active : Active s t v)
      (returned : t.returned = d.returned) (less : v.length < u.length) : ItemOutcome d u s true
  | finishes {reply : redisReply} {v : Text} (takes : Takes Decoder.read d u (d.emit reply) v)
      (emitted : Emitted s reply v) (less : v.length < u.length) : ItemOutcome d u s true
  | waits {t : Decoder} {v : Text} (takes : Takes Decoder.read d u t v) (active : Active s t v)
      (returned : t.returned = d.returned) (wait : Decoder.read t v = none) :
      ItemOutcome d u s false
  | fails {type : ErrorType} {text v : Text} (takes : Takes Decoder.read d u (d.fail type text) v)
      (failed : Failed s type text) : ItemOutcome d u s false

/-- The stack moves on behind an object that stands in its place. -/
theorem Active.move {r : redisReader} {d : Decoder} {u v : Text} (h : Active r d u) {pos : Nat}
    (hbuffered : Buffered { r with pos := pos } v) {obj : redisReply}
    (htakes : Takes Decoder.read d u (d.put obj) v) (hless : v.length < u.length) :
    exists moved,
      ({ r with pos := pos, reply := fill d.frames (some obj) }).moveToNextTask = some moved ∧
        ItemOutcome d u moved true := by
  have hmove : ({ r with pos := pos, reply := fill d.frames (some obj) }).moveToNextTask =
      ({ r with pos := pos, reply := fill d.frames (some obj) }).moveFrom d.frames.length := by
    unfold redisReader.moveToNextTask
    dsimp only
    rw [h.ridx, if_neg (by omega), Int.toNat_natCast]
  have hstacked : Stacked
      ({ r with pos := pos, reply := fill d.frames (some obj) } : redisReader).rstack d.type
      d.frames := h.stacked
  rw [hmove]
  rcases moveFrom_completes hstacked obj with ⟨reply, hcomplete, hfill, hmoved⟩ |
    ⟨left, rstack, hcomplete, hfill, hshort, hleft, hlength, hmoved⟩
  · have hput : d.put obj = d.emit reply := by
      unfold Decoder.put Decoder.emit
      rw [hcomplete]
      rfl
    rw [hput] at htakes
    exact ⟨_, hmoved, .finishes htakes ⟨h.sound, hbuffered, h.three, rfl, hfill⟩ hless⟩
  · have hput : d.put obj = { d with type := none, frames := left } := by
      unfold Decoder.put
      rw [hcomplete]
      simp only [Option.toList_none, List.append_nil]
    rw [hput] at htakes
    refine ⟨_, hmoved, .goesOn (v := v) htakes ?_ rfl hless⟩
    exact
      { sound := h.sound
        goingOn := h.goingOn
        buffered := hbuffered
        three := hlength.trans h.three
        depth := Nat.le_trans hshort h.depth
        typed := fun type htype => by cases htype
        ridx := rfl
        stacked := hleft
        reply := hfill }

/-!
# Items with a type
-/

theorem read_typed {d : Decoder} (hgoing : d.err = none) {type : ReplyType}
    (htype : d.type = some type) (u : Text) :
    Decoder.read d u = (lineOf u).bind (fun split => d.readItem split.1 split.2 type) := by
  unfold Decoder.read
  rw [hgoing, htype]

theorem Active.stays {r : redisReader} {d : Decoder} {u : Text} (h : Active r d u)
    (hwait : Decoder.read d u = none) : ItemOutcome d u r false :=
  .waits (.refl d u) h rfl hwait

theorem Active.readLine {r : redisReader} {d : Decoder} {u : Text} (h : Active r d u) :
    r.readLine =
      some ((lineOf u).map (fun split =>
        (u, split.1.length, { r with pos := r.pos + split.1.length + 2 }))) := by
  unfold redisReader.readLine
  rw [h.buffered.unread, Option.map_some]
  cases hline : lineOf u with
  | none =>
      rw [lineOf_eq_none.mp hline]
      rfl
  | some split =>
      rw [(lineOf_split hline).left]
      rfl

/-- The cursor behind a line. -/
theorem Buffered.behindLine {r : redisReader} {u line rest : Text} (h : Buffered r u)
    (hline : lineOf u = some (line, rest)) :
    Buffered { r with pos := r.pos + line.length + 2 } rest := by
  rw [(lineOf_split hline).right] at h
  apply Buffered.advance (line ++ ['\r', '\n'])
  · rw [List.append_assoc]
    exact h
  · rfl
  · rfl
  · rw [List.length_append]
    rfl

theorem length_behindLine {u line rest : Text} (hline : lineOf u = some (line, rest)) :
    rest.length < u.length := by
  rw [(lineOf_split hline).right, List.length_append, List.length_cons, List.length_cons]
  omega

theorem readNumber_line {u line rest : Text} (hline : lineOf u = some (line, rest)) :
    readLongLong u = some (lineNumber line) := by
  rw [(lineOf_split hline).right]
  exact readLongLong_line line ('\n' :: rest)

/-- The three types that take one line. -/
theorem lineObject_reads {d : Decoder} {u line rest : Text} {type : ReplyType}
    (hline : lineOf u = some (line, rest))
    (hkind : type = .integer ∨ type = .status ∨ type = .error) :
    exists obj, redisReader.lineObject (some type) u line.length = some obj ∧
      d.readItem line rest type = some (d.put obj, rest) := by
  have htake : u.take line.length = line := by
    rw [(lineOf_split hline).right, List.take_left]
  rcases hkind with hinteger | hstatus | herror
  · rw [hinteger]
    refine ⟨.integer (lineNumber line).toInt, ?_, rfl⟩
    unfold redisReader.lineObject
    rw [readNumber_line hline, Option.map_some]
  · rw [hstatus]
    refine ⟨.status line, ?_, rfl⟩
    unfold redisReader.lineObject
    rw [htake]
  · rw [herror]
    refine ⟨.error line, ?_, rfl⟩
    unfold redisReader.lineObject
    rw [htake]

theorem processLineItem_outcome {r : redisReader} {d : Decoder} {u : Text} (h : Active r d u)
    {type : ReplyType} (htype : d.type = some type)
    (hkind : type = .integer ∨ type = .status ∨ type = .error) :
    exists s ok, r.processLineItem = some (s, ok) ∧ ItemOutcome d u s ok := by
  rcases h.current with ⟨cur, hcur, hget, hcurtype⟩
  have hread := read_typed h.goingOn htype u
  unfold redisReader.processLineItem
  rw [hcur, h.readLine]
  cases hline : lineOf u with
  | none =>
      rw [hline] at hread
      exact ⟨r, false, rfl, h.stays hread⟩
  | some split =>
      rcases split with ⟨line, rest⟩
      rcases lineObject_reads (d := d) hline hkind with ⟨obj, hobj, hitem⟩
      rw [hline, Option.bind_some, hitem] at hread
      rcases h.move (h.buffered.behindLine hline) (.single hread) (length_behindLine hline) with
        ⟨moved, hmoved, hout⟩
      refine ⟨moved, true, ?_, hout⟩
      rw [Option.map_some]
      dsimp only
      rw [hcurtype, htype, hobj, Option.bind_some,
        createObject_fills (r := { r with pos := r.pos + line.length + 2 }) h.stacked h.reply hget,
        Option.bind_some,
        setRoot_fills (r := { r with pos := r.pos + line.length + 2 }) h.ridx, hmoved]
      rfl

/-!
# Bulk items
-/

theorem proceedBulk_outcome {r : redisReader} {d : Decoder} {u v : Text} (h : Active r d u)
    {cur : redisReadTask} (hget : r.rstack[d.frames.length]? = some cur) {bytelen : Nat}
    (hbuffered : Buffered { r with pos := r.pos + bytelen } v) {obj : redisReply}
    (htakes : Takes Decoder.read d u (d.put obj) v) (hless : v.length < u.length) :
    exists s ok, r.proceedBulk cur obj bytelen = some (s, ok) ∧ ItemOutcome d u s ok := by
  rcases h.move hbuffered htakes hless with ⟨moved, hmoved, hout⟩
  refine ⟨moved, true, ?_, hout⟩
  unfold redisReader.proceedBulk
  rw [createObject_fills h.stacked h.reply hget, Option.bind_some]
  dsimp only
  rw [setRoot_fills (r := { r with pos := r.pos + bytelen }) h.ridx, hmoved]
  rfl

theorem processBulkItem_outcome {r : redisReader} {d : Decoder} {u : Text} (h : Active r d u)
    (htype : d.type = some .string) :
    exists s ok, r.processBulkItem = some (s, ok) ∧ ItemOutcome d u s ok := by
  rcases h.current with ⟨cur, hcur, hget, _⟩
  have hread := read_typed h.goingOn htype u
  unfold redisReader.processBulkItem
  rw [hcur, h.buffered.unread]
  dsimp only
  cases hline : lineOf u with
  | none =>
      rw [hline] at hread
      rw [lineOf_eq_none.mp hline]
      exact ⟨r, false, rfl, h.stays hread⟩
  | some split =>
      rcases split with ⟨line, rest⟩
      have hbehind := h.buffered.behindLine hline
      have hlength := h.buffered.length
      have hEq := (lineOf_split hline).right
      rw [hline, Option.bind_some] at hread
      unfold Decoder.readItem Decoder.readBulk at hread
      dsimp only at hread
      rw [(lineOf_split hline).left]
      dsimp only
      rw [readNumber_line hline, Option.bind_some]
      by_cases hnegative : toLong (lineNumber line) < 0
      · rw [if_pos hnegative] at hread ⊢
        exact proceedBulk_outcome h hget hbehind (.single hread) (length_behindLine hline)
      · rw [if_neg hnegative] at hread ⊢
        have hrest : rest.length = r.len - (r.pos + line.length + 2) := hbehind.length
        rcases h.buffered with ⟨buf, _, hlen, hpos, hdrop⟩
        have hu := congrArg List.length hEq
        rw [List.length_append, List.length_cons, List.length_cons] at hu
        by_cases hfits : (toLong (lineNumber line)).toNat + 2 ≤ rest.length
        · rw [if_pos hfits] at hread
          rw [if_pos (by omega)]
          have hdropped : u.drop (line.length + 2) = rest := by
            rw [hEq, ← List.drop_drop, List.drop_left]
            rfl
          rw [hdropped]
          have hsplit : rest = rest.take ((toLong (lineNumber line)).toNat + 2) ++
              rest.drop ((toLong (lineNumber line)).toNat + 2) := (List.take_append_drop _ _).symm
          rw [hsplit] at hbehind
          apply proceedBulk_outcome h hget (hbehind.advance _ rfl rfl ?_) (.single hread) ?_
          · rw [List.length_take, Nat.min_eq_left hfits]
            show r.pos + (line.length + 2 + ((toLong (lineNumber line)).toNat + 2)) =
              r.pos + line.length + 2 + ((toLong (lineNumber line)).toNat + 2)
            omega
          · rw [List.length_drop]
            exact Nat.lt_of_le_of_lt (Nat.sub_le _ _) (length_behindLine hline)
        · rw [if_neg hfits] at hread
          rw [if_neg (by omega)]
          exact ⟨r, false, rfl, h.stays hread⟩

/-!
# Multi bulk items
-/

theorem moveFrom_reply {r : redisReader} (reply : Option redisReply) (k : Nat) :
    ({ r with reply := reply }).moveFrom k =
      (r.moveFrom k).map (fun moved => { moved with reply := reply }) := by
  induction k with
  | zero => rfl
  | succ k ih =>
      unfold redisReader.moveFrom
      dsimp only
      cases r.rstack[k + 1]? with
      | none => rfl
      | some cur =>
          cases r.rstack[k]? with
          | none => rfl
          | some prv =>
              dsimp only
              split
              · rfl
              · split
                · exact ih
                · split
                  · rfl
                  · rfl

theorem moveToNextTask_reply {r : redisReader} {k : Nat} (hridx : r.ridx = k)
    (reply : Option redisReply) :
    ({ r with reply := reply }).moveToNextTask =
      (r.moveFrom k).map (fun moved => { moved with reply := reply }) := by
  unfold redisReader.moveToNextTask
  rw [if_neg (show ¬ r.ridx < 0 by omega)]
  dsimp only
  rw [hridx, Int.toNat_natCast, ← moveFrom_reply reply k, hridx]

/-- It makes no difference that the reply is set after the stack has moved on. -/
theorem finishMultiBulk_fills {r : redisReader} {frames : List Frame}
    (hridx : r.ridx = frames.length) (obj : redisReply) :
    (({ r with reply := if frames = [] then none else fill frames (some obj) }).moveToNextTask).map
        (redisReader.finishMultiBulk (decide (r.ridx = 0)) obj) =
      (({ r with reply := fill frames (some obj) }).moveToNextTask).map
        (fun moved => (moved, true)) := by
  rw [moveToNextTask_reply hridx, moveToNextTask_reply hridx, Option.map_map, Option.map_map,
    hridx]
  congr 1
  funext moved
  unfold Function.comp redisReader.finishMultiBulk
  cases frames with
  | nil => rfl
  | cons f frames =>
      rw [decide_eq_false (by rw [List.length_cons]; omega), if_neg (List.cons_ne_nil f frames)]
      rfl

theorem pathOf_current {r : redisReader} {type : Option ReplyType} {frames : List Frame}
    {cur : redisReadTask} (hstacked : Stacked r.rstack type frames)
    (hcur : r.rstack[frames.length]? = some cur) : r.pathOf cur = some (holePath frames) := by
  unfold redisReader.pathOf
  cases frames with
  | nil =>
      rcases hstacked with ⟨task, hget, _, hparent⟩
      rw [List.length_nil, hget] at hcur
      cases hcur
      rw [hparent]
      rfl
  | cons f frames =>
      rcases hstacked with ⟨_, ⟨task, hget, _, hidx, hparent⟩, ⟨array, harray, _, hobj⟩, _⟩
      rw [List.length_cons, hget] at hcur
      cases hcur
      rw [hparent]
      dsimp only
      rw [harray, Option.bind_some, hobj, Option.map_some, hidx, Int.toNat_natCast]
      rfl

/-- Behind the head of an array its first element is the next item. -/
theorem Active.openArray {r : redisReader} {d : Decoder} {u v : Text} (h : Active r d u)
    {cur : redisReadTask} (hget : r.rstack[d.frames.length]? = some cur)
    (htype : d.type = some .array) {pos : Nat} (hbuffered : Buffered { r with pos := pos } v)
    {elements : Int} (hpositive : elements > 0) :
    exists moved,
      ({ r with
          pos := pos,
          reply := if d.frames = [] then none
            else fill d.frames (some (.array elements (List.replicate elements.toNat none))) }
        ).pushTask cur elements (holePath d.frames) = some moved ∧
        Active
          (redisReader.finishMultiBulk (decide (r.ridx = 0))
            (.array elements (List.replicate elements.toNat none)) moved).1
          (d.openArray elements.toNat) v := by
  have hdepth : d.frames.length < 2 := (h.typed .array htype).right rfl
  have hcurtype : cur.type = some .array := by
    rcases h.stacked.top with ⟨task, htask, htasktype⟩
    rw [hget] at htask
    cases htask
    exact htasktype.trans htype
  have hthree := h.three
  have hstacked : Stacked (r.rstack.set d.frames.length
      { cur with elements := elements, obj := some (holePath d.frames) }) (some .array)
      d.frames := by
    have hset := h.stacked.set_top hget
      { cur with elements := elements, obj := some (holePath d.frames) } rfl rfl
    rw [← hcurtype]
    exact hset
  have haround : redisReply.array elements (List.replicate elements.toNat none) =
      ({ elements := elements.toNat, done := [] } : Frame).around none := by
    unfold Frame.around
    dsimp only
    rw [List.map_nil, List.nil_append, ← List.replicate_succ, List.length_nil,
      show elements.toNat - 0 - 1 + 1 = elements.toNat by omega,
      Int.toNat_of_nonneg (Int.le_of_lt hpositive)]
  unfold redisReader.pushTask
  dsimp only
  rw [h.ridx, Int.toNat_natCast, if_pos (by rw [hthree]; omega)]
  refine ⟨_, rfl, ?_⟩
  have hreply : (redisReader.finishMultiBulk (decide ((d.frames.length : Int) = 0))
      (.array elements (List.replicate elements.toNat none))
      { r with
        pos := pos, ridx := d.frames.length + 1,
        rstack := (r.rstack.set d.frames.length
          { cur with elements := elements, obj := some (holePath d.frames) }).set
          (d.frames.length + 1)
          { type := none, elements := -1, idx := 0, obj := none,
            parent := some d.frames.length },
        reply := if d.frames = [] then none
          else fill d.frames (some (.array elements (List.replicate elements.toNat none))) }).1 =
      { r with
        pos := pos, ridx := d.frames.length + 1,
        rstack := (r.rstack.set d.frames.length
          { cur with elements := elements, obj := some (holePath d.frames) }).set
          (d.frames.length + 1)
          { type := none, elements := -1, idx := 0, obj := none,
            parent := some d.frames.length },
        reply := fill d.frames (some (.array elements (List.replicate elements.toNat none))) } := by
    unfold redisReader.finishMultiBulk
    cases hframes : d.frames with
    | nil => rfl
    | cons f frames =>
        rw [decide_eq_false (by rw [List.length_cons]; omega), if_neg (List.cons_ne_nil f frames)]
        rfl
  rw [hreply]
  exact
    { sound := h.sound
      goingOn := h.goingOn
      buffered := hbuffered
      three := by rw [List.length_set, List.length_set, hthree]
      depth := hdepth
      typed := fun type hnew => by cases hnew
      ridx := by
        show (d.frames.length : Int) + 1 = ((d.frames.length + 1 : Nat) : Int)
        exact (Int.natCast_succ _).symm
      stacked := by
        refine ⟨by show 0 < elements.toNat; omega,
          ⟨_, List.getElem?_set_self (by rw [List.length_set, hthree]; omega), rfl, rfl, rfl⟩,
          ⟨{ cur with elements := elements, obj := some (holePath d.frames) }, ?_, ?_, rfl⟩,
          hstacked.set_above (Nat.lt_succ_self _) _⟩
        · rw [List.getElem?_set_ne (Nat.succ_ne_self _),
            List.getElem?_set_self (by rw [hthree]; omega)]
        · exact (Int.toNat_of_nonneg (Int.le_of_lt hpositive)).symm
      reply := by
        show fill d.frames _ = fill d.frames _
        rw [haround] }

/-- An array without elements and a nil are complete at once. -/
theorem finished_outcome {r : redisReader} {d : Decoder} {u v : Text} (h : Active r d u)
    {pos : Nat} (hbuffered : Buffered { r with pos := pos } v) {obj : redisReply}
    (htakes : Takes Decoder.read d u (d.put obj) v) (hless : v.length < u.length) :
    exists s ok,
      (({ r with
          pos := pos, reply := if d.frames = [] then none else fill d.frames (some obj) }
        ).moveToNextTask).map (redisReader.finishMultiBulk (decide (r.ridx = 0)) obj) =
          some (s, ok) ∧ ItemOutcome d u s ok := by
  rcases h.move hbuffered htakes hless with ⟨moved, hmoved, hout⟩
  refine ⟨moved, true, ?_, hout⟩
  have hfinish := finishMultiBulk_fills (r := { r with pos := pos }) h.ridx obj
  rw [show decide (r.ridx = 0) = decide (({ r with pos := pos } : redisReader).ridx = 0) from rfl,
    hfinish, hmoved]
  rfl

theorem processMultiBulkItem_outcome {r : redisReader} {d : Decoder} {u : Text}
    (h : Active r d u) (htype : d.type = some .array) :
    exists s ok, r.processMultiBulkItem = some (s, ok) ∧ ItemOutcome d u s ok := by
  rcases h.current with ⟨cur, hcur, hget, _⟩
  have hread := read_typed h.goingOn htype u
  have hdepth : d.frames.length < 2 := (h.typed .array htype).right rfl
  unfold redisReader.processMultiBulkItem
  rw [if_neg (by rw [h.ridx]; omega), hcur, h.readLine]
  cases hline : lineOf u with
  | none =>
      rw [hline] at hread
      exact ⟨r, false, rfl, h.stays hread⟩
  | some split =>
      rcases split with ⟨line, rest⟩
      have hbehind := h.buffered.behindLine hline
      rw [hline, Option.bind_some] at hread
      unfold Decoder.readItem Decoder.readMultiBulk at hread
      dsimp only at hread
      rw [Option.map_some]
      dsimp only
      rw [readNumber_line hline, Option.bind_some]
      by_cases hnil : toLong (lineNumber line) = -1
      · rw [if_pos hnil] at hread ⊢
        rw [createObject_fills (r := { r with pos := r.pos + line.length + 2 }) h.stacked h.reply
          hget, Option.bind_some]
        exact finished_outcome h hbehind (.single hread) (length_behindLine hline)
      · rw [if_neg hnil] at hread ⊢
        rw [createObject_fills (r := { r with pos := r.pos + line.length + 2 }) h.stacked h.reply
          hget, Option.bind_some]
        by_cases hpositive : toLong (lineNumber line) > 0
        · rw [if_pos hpositive] at hread ⊢
          rcases h.openArray hget htype hbehind hpositive with ⟨moved, hpush, hactive⟩
          refine ⟨_, true, ?_, .goesOn (.single hread) hactive rfl (length_behindLine hline)⟩
          rw [pathOf_current (r := { r with
            pos := r.pos + line.length + 2,
            reply := if d.frames = [] then none
              else fill d.frames (some (.array (toLong (lineNumber line))
                (List.replicate (toLong (lineNumber line)).toNat none))) }) h.stacked hget,
            Option.bind_some, hpush, Option.map_some]
          rfl
        · rw [if_neg hpositive] at hread ⊢
          have hempty : List.replicate (toLong (lineNumber line)).toNat
              (none : Option redisReply) = [] := by
            rw [show (toLong (lineNumber line)).toNat = 0 by omega, List.replicate_zero]
          rw [hempty]
          exact finished_outcome h hbehind (.single hread) (length_behindLine hline)

theorem processTyped_outcome {r : redisReader} {d : Decoder} {u : Text} (h : Active r d u)
    {type : ReplyType} (htype : d.type = some type) :
    exists s ok, r.processTyped = some (s, ok) ∧ ItemOutcome d u s ok := by
  rcases h.current with ⟨cur, hcur, _, hcurtype⟩
  unfold redisReader.processTyped
  rw [hcur, Option.bind_some, hcurtype, htype]
  cases type with
  | string => exact processBulkItem_outcome h htype
  | array => exact processMultiBulkItem_outcome h htype
  | integer => exact processLineItem_outcome h htype (Or.inl rfl)
  | nil => exact absurd rfl (h.typed .nil htype).left
  | status => exact processLineItem_outcome h htype (Or.inr (Or.inl rfl))
  | error => exact processLineItem_outcome h htype (Or.inr (Or.inr rfl))

/-!
# The first byte of an item
-/

theorem read_untyped {d : Decoder} (hgoing : d.err = none) (htype : d.type = none)
    (byte : Char) (rest : Text) :
    Decoder.read d (byte :: rest) = some (d.readType byte, rest) := by
  unfold Decoder.read
  rw [hgoing, htype]

theorem ItemOutcome.after {d t : Decoder} {u v : Text} {s : redisReader} {ok : Bool}
    (h : ItemOutcome t v s ok) (htakes : Takes Decoder.read d u t v)
    (hreturned : t.returned = d.returned) (hless : v.length < u.length)
    (hsame : forall type text, t.fail type text = d.fail type text)
    (hemit : forall reply, t.emit reply = d.emit reply) : ItemOutcome d u s ok := by
  cases h with
  | goesOn takes active returned less =>
      exact .goesOn (htakes.trans takes) active (returned.trans hreturned)
        (Nat.lt_trans less hless)
  | finishes takes emitted less =>
      rw [hemit] at takes
      exact .finishes (htakes.trans takes) emitted (Nat.lt_trans less hless)
  | waits takes active returned wait =>
      exact .waits (htakes.trans takes) active (returned.trans hreturned) wait
  | fails takes failed =>
      rw [hsame] at takes
      exact .fails (htakes.trans takes) failed

theorem failed_setError (r : redisReader) (type : ErrorType) (text : Text) :
    Failed (r.redisReaderSetError type text) type text :=
  ⟨rfl, rfl⟩

theorem replyTypeOf_ne_nil {byte : Char} {type : ReplyType}
    (h : redisReader.replyTypeOf byte = some type) : type ≠ .nil := by
  intro hnil
  rw [hnil] at h
  unfold redisReader.replyTypeOf at h
  split at h
  · cases h
  · split at h
    · cases h
    · split at h
      · cases h
      · split at h
        · cases h
        · split at h
          · cases h
          · cases h

theorem processTyped_nested {r : redisReader} {cur : redisReadTask} (hcur : r.curTask = some cur)
    (htype : cur.type = some .array) (hridx : r.ridx = 2) :
    r.processTyped = some (r.redisReaderSetError .protocol redisReader.nestedText, false) := by
  unfold redisReader.processTyped
  rw [hcur, Option.bind_some, htype]
  unfold redisReader.processMultiBulkItem
  rw [if_pos hridx]

theorem processItem_outcome {r : redisReader} {d : Decoder} {u : Text} (h : Active r d u) :
    exists s ok, r.processItem = some (s, ok) ∧ ItemOutcome d u s ok := by
  rcases h.current with ⟨cur, hcur, hget, hcurtype⟩
  unfold redisReader.processItem
  rw [hcur, h.buffered.unread]
  dsimp only
  rw [hcurtype]
  cases htype : d.type with
  | some type =>
      rw [if_neg (Option.some_ne_none type)]
      exact processTyped_outcome h htype
  | none =>
      rw [if_pos rfl]
      cases u with
      | nil =>
          refine ⟨r, false, rfl, h.stays ?_⟩
          unfold Decoder.read
          rw [h.goingOn, htype]
      | cons byte rest =>
          have hread := read_untyped h.goingOn htype byte rest
          unfold Decoder.readType at hread
          dsimp only
          cases hbyte : redisReader.replyTypeOf byte with
          | none =>
              rw [hbyte] at hread
              exact ⟨_, false, rfl, .fails (.single hread) (failed_setError _ _ _)⟩
          | some type =>
              rw [hbyte] at hread
              dsimp only at hread ⊢
              have hbehind : Buffered { r with pos := r.pos + 1 } rest :=
                Buffered.advance [byte] h.buffered rfl rfl rfl
              have hindex : r.ridx.toNat = d.frames.length := by
                rw [h.ridx, Int.toNat_natCast]
              have hlength : d.frames.length < r.rstack.length :=
                (List.getElem?_eq_some_iff.mp hget).choose
              rw [hindex]
              by_cases hnested : type = .array ∧ d.frames.length = 2
              · rw [if_pos hnested] at hread
                have htask : redisReader.curTask
                    { r with
                      pos := r.pos + 1,
                      rstack := r.rstack.set d.frames.length { cur with type := some type } } =
                    some { cur with type := some type } := by
                  unfold redisReader.curTask
                  dsimp only
                  rw [hindex, List.getElem?_set_self hlength]
                have hridx : r.ridx = 2 := by rw [h.ridx, hnested.right]; rfl
                exact ⟨_, false, processTyped_nested htask (congrArg some hnested.left) hridx,
                  .fails (.single hread) (failed_setError _ _ _)⟩
              · rw [if_neg hnested] at hread
                have hnew : Active
                    { r with
                      pos := r.pos + 1,
                      rstack := r.rstack.set d.frames.length { cur with type := some type } }
                    { d with type := some type } rest :=
                  { sound := h.sound
                    goingOn := h.goingOn
                    buffered := hbehind
                    three := by rw [List.length_set, h.three]
                    depth := h.depth
                    typed := by
                      intro other hother
                      cases hother
                      refine ⟨replyTypeOf_ne_nil hbyte, ?_⟩
                      intro harray
                      have hdepth := h.depth
                      by_contra hfull
                      exact hnested ⟨harray, by dsimp only at hfull; omega⟩
                    ridx := h.ridx
                    stacked := h.stacked.set_top hget _ rfl rfl
                    reply := h.reply }
                rcases processTyped_outcome hnew rfl with ⟨s, ok, hprocess, hout⟩
                exact ⟨s, ok, hprocess, hout.after (.single hread) rfl (Nat.lt_succ_self _)
                  (fun _ _ => rfl) (fun _ => rfl)⟩

end Hiredis
end GMServer
