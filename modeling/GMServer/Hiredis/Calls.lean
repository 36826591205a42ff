import GMServer.Hiredis.Session

/-!
# What the calls of a session come to

Without its sockets a session is a server that answers a number of commands and then
nothing any more.  A call comes to its end as long as the connection holds.
-/

namespace GMServer
namespace Hiredis

open DataHandle
open Resp
open Transition

/-!
# The server behind a connection
-/

mutual

/-- What the rest of the program looks at in a reply. -/
def plain : redisReply -> Reply
  | .string str => .string str
  | .array _ element => .array (plainAll element)
  | .integer _ => .integer
  | .nil => .nil
  | .status _ => .status
  | .error _ => .error

def plainAll : List (Option redisReply) -> List Reply
  | [] => []
  | child :: children => plainChild child :: plainAll children

def plainChild : Option redisReply -> Reply
  | none => .nil
  | some child => plain child

end

section

variable {world : Type}

/-- Executes and answers so many commands; of those behind them it executes at most the
first one and answers none. -/
def breaking (server : Server world Resp) :
    Server (world × Nat × Bool) (Option redisReply) := fun s argv =>
  match s with
  | (state, left + 1, last) =>
      (((server state argv).1, left, last), some (reply (server state argv).2))
  | (state, 0, last) => ((if last then (server state argv).1 else state, 0, false), none)

/-- The calls of `redisCommand` one after the other, each answered at once. -/
def callAll {answer : Type} (server : Server world answer) (state : world)
    (calls : List Text) : Option (world × List answer) :=
  (calls.mapM redisvFormatCommand).map (serveAll server state)

theorem callAll_formatted {answer : Type} (server : Server world answer) (state : world)
    {calls : List Text} {argvs : List (List Text)}
    (h : calls.mapM redisvFormatCommand = some argvs) :
    callAll server state calls = some (serveAll server state argvs) := by
  unfold callAll
  rw [h, Option.map_some]

/-- What is made of the answers to the commands that are executed. -/
def answersOf (values : List Resp) : List (Option redisReply) := (replies values).map some

theorem answersOf_append (values others : List Resp) :
    answersOf (values ++ others) = answersOf values ++ answersOf others := by
  unfold answersOf
  rw [replies_append, List.map_append]

theorem serveAll_breaking (server : Server world Resp) (state : world)
    (argvs : List (List Text)) (left : Nat) (last : Bool) :
    serveAll (breaking server) (state, argvs.length + left, last) argvs =
      (((serveAll server state argvs).1, left, last),
        answersOf (serveAll server state argvs).2) := by
  induction argvs generalizing state with
  | nil => rw [List.length_nil, Nat.zero_add]; rfl
  | cons argv argvs ih =>
      rw [List.length_cons, Nat.add_right_comm]
      simp only [serveAll, breaking]
      rw [ih]
      rfl

theorem serveAll_broken (server : Server world Resp) (state : world)
    (argvs : List (List Text)) :
    serveAll (breaking server) (state, 0, false) argvs =
      ((state, 0, false), List.replicate argvs.length none) := by
  induction argvs generalizing state with
  | nil => rfl
  | cons argv argvs ih =>
      simp only [serveAll, breaking, Bool.false_eq_true, if_false]
      rw [ih]
      rfl

theorem serveAll_last (server : Server world Resp) (state : world) (argv : List Text)
    (argvs : List (List Text)) (last : Bool) :
    serveAll (breaking server) (state, 0, last) (argv :: argvs) =
      ((if last then (server state argv).1 else state, 0, false),
        List.replicate (argvs.length + 1) none) := by
  simp only [serveAll, breaking]
  rw [serveAll_broken]
  rfl

/-!
# The calls of the program

`DoCmd` hands the reply on, and nobody looks at its numbers and messages.
-/

def plainServer (server : Server world (Option redisReply)) : RedisServer world :=
  fun state argv => ((server state argv).1, (server state argv).2.map plain)

/-- The calls of `DoCmd` one after the other. -/
def doAll (server : RedisServer world) : world -> List Text -> Option (world × List (Option Reply))
  | state, [] => some (state, [])
  | state, strCmd :: rest =>
      (RedisWrap.DoCmd server state strCmd).bind (fun first =>
        (doAll server first.1 rest).map (fun last => (last.1, first.2 :: last.2)))

theorem doAll_formatted (server : RedisServer world) (state : world) {calls : List Text}
    {argvs : List (List Text)} (h : calls.mapM redisvFormatCommand = some argvs) :
    doAll server state calls = some (serveAll server state argvs) := by
  induction calls generalizing state argvs with
  | nil =>
      cases h
      rfl
  | cons strCmd rest ih =>
      rw [List.mapM_cons] at h
      rcases Option.bind_eq_some_iff.mp h with ⟨argv, hformat, hrest⟩
      rcases Option.bind_eq_some_iff.mp hrest with ⟨others, hothers, hEq⟩
      cases hEq
      unfold doAll RedisWrap.DoCmd
      rw [hformat, Option.map_some, Option.bind_some, ih _ hothers]
      rfl

theorem serveAll_plain (server : Server world (Option redisReply)) (state : world)
    (argvs : List (List Text)) :
    serveAll (plainServer server) state argvs =
      ((serveAll server state argvs).1,
        (serveAll server state argvs).2.map (Option.map plain)) := by
  induction argvs generalizing state with
  | nil => rfl
  | cons argv argvs ih =>
      rw [serveAll, ih]
      rfl

theorem doAll_plain (server : Server world (Option redisReply)) {state next : world}
    {calls : List Text} {made : List (Option redisReply)}
    (h : callAll server state calls = some (next, made)) :
    doAll (plainServer server) state calls = some (next, made.map (Option.map plain)) := by
  rcases Option.map_eq_some_iff.mp h with ⟨argvs, hformat, hserved⟩
  rw [doAll_formatted _ _ hformat, serveAll_plain, hserved]

end

namespace Session

section

variable {world : Type} {server : Server world Resp} {start : world} {s t : Session world}

/-!
# Calls in order
-/

/-- The calls of a session, and what they have returned, are those of a server that answers
so many commands and executes one more or not. -/
structure Refines (server : Server world Resp) (start : world) (s : Session world)
    (answered : Nat) (executed : Bool) (left : Nat × Bool) (made : List (Option redisReply)) :
    Prop where
  calls : callAll (breaking server) (start, answered, executed) s.calls =
    some ((s.state, left), made)
  returned : s.answers <+: made
  all : (exists ok reply, s.call = .returns ok reply) -> s.answers = made
  nothingLost : s.context.err = none -> none ∉ s.answers

theorem none_not_mem_some (list : List redisReply) : none ∉ list.map some := by
  intro h
  rcases List.mem_map.mp h with ⟨reply, _, hEq⟩
  cases hEq

theorem Idle.refines {argvs : List (List Text)} {values : List Resp}
    (h : Idle server start argvs values s) :
    Refines server start s argvs.length false (0, false) (answersOf values) := by
  have hall := serveAll_breaking server start argvs 0 false
  rw [h.executed, Nat.add_zero] at hall
  exact
    { calls := by rw [callAll_formatted _ _ h.formatted, hall]
      returned := h.answers ▸ List.prefix_rfl
      all := fun _ => h.answers
      nothingLost := fun _ => by
        rw [h.answers]
        exact none_not_mem_some _ }

theorem Asking.refines {argvs : List (List Text)} {argv : List Text} {values : List Resp}
    (h : Asking server start argvs argv values s) :
    Refines server start s argvs.length false (0, false) (answersOf values ++ [none]) := by
  have hall := serveAll_breaking server start argvs 0 false
  rw [h.executed, Nat.add_zero] at hall
  exact
    { calls := by
        rw [callAll_formatted _ _ h.formatted, serveAll_append, hall, serveAll_broken]
        rfl
      returned := by
        rw [h.answers]
        exact List.prefix_append _ _
      all := by
        rintro ⟨ok, reply, hcall⟩
        rw [h.call] at hcall
        split at hcall
        · cases hcall
        · cases hcall
      nothingLost := fun _ => by
        rw [h.answers]
        exact none_not_mem_some _ }

theorem Answering.refines {argvs : List (List Text)} {argv : List Text} {values : List Resp}
    {value : Resp} {part : Text} (h : Answering server start argvs argv values value part s) :
    Refines server start s (argvs ++ [argv]).length false (0, false)
      (answersOf (values ++ [value])) := by
  have hall := serveAll_breaking server start (argvs ++ [argv]) 0 false
  rw [h.executed, Nat.add_zero] at hall
  exact
    { calls := by rw [callAll_formatted _ _ h.formatted, hall]
      returned := by
        rw [h.answers, answersOf_append]
        exact List.prefix_append _ _
      all := by
        rintro ⟨ok, reply, hcall⟩
        rw [h.call] at hcall
        cases hcall
      nothingLost := fun _ => by
        rw [h.answers]
        exact none_not_mem_some _ }

/-- The commands behind those that were answered. -/
theorem Reached.served {reached state : world} {toServer : Text} {others : List (List Text)}
    (h : Reached server reached toServer state others) :
    exists executed left, serveAll (breaking server) (reached, 0, executed) others =
      ((state, 0, left), List.replicate others.length none) := by
  cases h with
  | nothing sent same =>
      rw [same]
      exact ⟨false, false, serveAll_broken server reached others⟩
  | sent bytes same =>
      rw [same]
      exact ⟨false, false, serveAll_broken server reached _⟩
  | executed sent next =>
      rw [next]
      exact ⟨true, false, serveAll_last server reached _ _ true⟩

theorem Broken.refines {reached : world} {argvs others : List (List Text)} {values : List Resp}
    {nulls : Nat} (h : Broken server start reached argvs others values nulls s) :
    exists executed left, Refines server start s argvs.length executed left
      (answersOf values ++ List.replicate others.length none) := by
  rcases h.reaches.served with ⟨executed, left, hserved⟩
  have hall := serveAll_breaking server start argvs 0 executed
  rw [h.executed, Nat.add_zero] at hall
  have hanswers : s.answers = answersOf values ++ List.replicate nulls none := h.answers
  have hle : nulls ≤ others.length := by
    rcases h.call with ⟨_, hcount⟩ | ⟨_, hcount⟩
    · omega
    · omega
  exact ⟨executed, (0, left),
    { calls := by
        rw [callAll_formatted _ _ h.formatted, serveAll_append, hall, hserved]
      returned := by
        rw [hanswers, List.prefix_append_right_inj]
        exact List.prefix_replicate_iff.mpr
          ⟨by rw [List.length_replicate]; exact hle, by rw [List.length_replicate]⟩
      all := by
        rintro ⟨ok, reply, hcall⟩
        rcases h.call with ⟨hwrites, _⟩ | ⟨_, hcount⟩
        · rw [hcall] at hwrites
          cases hwrites
        · rw [hanswers, hcount]
      nothingLost := fun hsound => by
        have herr := h.err
        rw [hsound] at herr
        cases herr }⟩

/-- However the bytes travel and wherever the connection breaks: the calls return the answers
of the server to the commands in their order, and nothing from an error on. -/
theorem calls_in_order (hserver : Readable server) {failure : Option (ErrorType × Text)}
    {actions : List SessionAction}
    (hrun : Run (step server) (init start failure) actions = some s) :
    exists answered executed left made,
      Refines server start s answered executed left made ∧
        doAll (plainServer (breaking server)) (start, answered, executed) s.calls =
          some ((s.state, left), made.map (Option.map plain)) := by
  cases inv_run hserver hrun with
  | idle h => exact ⟨_, _, _, _, h.refines, doAll_plain _ h.refines.calls⟩
  | asking h => exact ⟨_, _, _, _, h.refines, doAll_plain _ h.refines.calls⟩
  | answering h => exact ⟨_, _, _, _, h.refines, doAll_plain _ h.refines.calls⟩
  | broken h =>
      rcases h.refines with ⟨executed, left, hrefines⟩
      exact ⟨_, executed, left, _, hrefines, doAll_plain _ hrefines.calls⟩

/-- A server with one counter, which `INCR` counts up. -/
def counter : Server Nat Resp := fun state argv =>
  if argv = ["INCR".toList] then ((state + 1) % 1000, .integer ((state + 1) % 1000 : Nat))
  else (state, .nilBulk)

theorem counter_readable : Readable counter := by
  intro state argv
  unfold counter
  split
  · refine ⟨?_, Nat.zero_le 2⟩
    rw [Sized]
    omega
  · refine ⟨?_, Nat.zero_le 2⟩
    rw [Sized]
    trivial

/-- The second command is executed, but its answer does not come back. -/
def brokenOff : List SessionAction :=
  [.command "INCR".toList, .send (.written 3), .send (.written 11), .serve ["INCR".toList],
    .receive 2, .receive 2, .command "INCR".toList, .send (.written 14),
    .serve ["INCR".toList], .receive 1, .close, .command "INCR".toList,
    .send (.failed false [])]

def counted : Option redisReply -> Option Int
  | some (.integer value) => some value
  | _ => none

theorem broken_off_runs :
    (Run (step counter) (init 0 none) brokenOff).map
        (fun s => (s.state, s.answers.map counted)) =
      some (2, [some 1, none, none]) := by
  decide +kernel

theorem broken_off_in_order :
    exists s, s.state = 2 ∧ s.answers.map counted = [some 1, none, none] ∧
      exists answered executed left made,
        Refines counter 0 s answered executed left made ∧
          doAll (plainServer (breaking counter)) (0, answered, executed) s.calls =
            some ((s.state, left), made.map (Option.map plain)) := by
  rcases Option.map_eq_some_iff.mp broken_off_runs with ⟨s, hrun, hpair⟩
  rcases Prod.mk.inj hpair with ⟨hstate, hanswers⟩
  exact ⟨s, hstate, hanswers, @calls_in_order Nat counter 0 s counter_readable none brokenOff hrun⟩

/-!
# A call that is not disturbed
-/

/-- The socket takes and delivers bytes, and the server executes what it has. -/
def Forward : SessionAction -> Prop
  | .send (.written nwritten) => 0 < nwritten
  | .serve _ => True
  | .receive _ => True
  | _ => False

/-- A call under way, and the number of bytes it still waits for. -/
inductive Pending (server : Server world Resp) (start : world) (s : Session world) : Nat -> Prop
    where
  | asking {argvs : List (List Text)} {argv : List Text} {values : List Resp}
      (h : Asking server start argvs argv values s) :
      Pending server start s
        (s.context.obuf.length + (1 + (encode (server s.state argv).2).length))
  | answering {argvs : List (List Text)} {argv : List Text} {values : List Resp} {value : Resp}
      {part : Text} (h : Answering server start argvs argv values value part s) :
      Pending server start s s.toClient.length

theorem Pending.pos {n : Nat} (h : Pending server start s n) : 0 < n := by
  cases h with
  | asking h => omega
  | answering h => exact List.length_pos_iff.mpr h.pending

/-- What a step forward does to a call under way. -/
inductive Forwarded (server : Server world Resp) (start : world) (s t : Session world) (n : Nat) :
    Prop where
  | nearer {m : Nat} (less : m < n) (pending : Pending server start t m)
      (answers : t.answers = s.answers)
  | answered {argvs : List (List Text)} {values : List Resp} (reply : redisReply)
      (idle : Idle server start argvs values t) (answers : t.answers = s.answers ++ [some reply])

theorem Pending.step (hserver : Readable server) {n : Nat} (h : Pending server start s n)
    {action : SessionAction} (hforward : Forward action)
    (hstep : step server s action = some t) : Forwarded server start s t n := by
  cases h with
  | asking h =>
      rename_i argvs argv values
      by_cases hobuf : s.context.obuf = []
      · have hcall : s.call = .reads := by rw [h.call, if_pos hobuf]
        rcases step_reads hcall hstep with hdelivers | ⟨other, rfl⟩
        · cases hdelivers with
          | bytes hpos hfits =>
              rw [h.toClient, List.length_nil] at hfits
              omega
          | nothing => exact hforward.elim
          | failure text => exact hforward.elim
        · have hserved := h.served hstep
          have hanswer := hserved.answer
          rw [List.nil_append] at hanswer
          refine .nearer ?_ (.answering hserved) (hserved.answers.trans h.answers.symm)
          rw [hanswer]
          omega
      · have hcall : s.call = .writes := by rw [h.call, if_neg hobuf]
        rcases step_writes hcall hstep with ⟨result, rfl⟩ | ⟨other, rfl⟩
        · cases result with
          | failed again text => exact hforward.elim
          | written nwritten =>
              rcases h.sent hobuf hstep with ⟨hsent, hle, hdrop, hanswers, hstate⟩
              refine .nearer ?_ (.asking hsent) hanswers
              have hpos : 0 < nwritten := hforward
              rw [hdrop, List.length_drop, hstate]
              omega
        · rcases step_serve hstep with ⟨hfront, _⟩
          exact absurd (h.serves hfront).right.right hobuf
  | answering h =>
      rename_i argvs argv values value part
      rcases step_reads h.call hstep with hdelivers | ⟨other, rfl⟩
      · cases hdelivers with
        | nothing => exact hforward.elim
        | failure text => exact hforward.elim
        | bytes hpos hfits =>
            rcases h.received hserver hpos hstep with ⟨more, hmore, hanswers, hdrop⟩ | hidle
            · refine .nearer ?_ (.answering hmore) hanswers
              rw [hdrop, List.length_drop]
              omega
            · refine .answered (reply value) hidle ?_
              rw [hidle.answers, replies_append, List.map_append, h.answers]
              rfl
      · rw [serve_nothing h.toServer] at hstep
        cases hstep

/-- There is always a step forward that can be taken. -/
theorem Pending.enabled (hserver : Readable server) {n : Nat} (h : Pending server start s n) :
    exists action t, Forward action ∧ Session.step server s action = some t := by
  cases h with
  | asking h =>
      rename_i argvs argv values
      by_cases hobuf : s.context.obuf = []
      · have hfront : commandBytes argv <+: s.toServer := by
          have hcommand := h.command
          rw [hobuf, List.append_nil] at hcommand
          exact hcommand ▸ List.prefix_rfl
        exact ⟨.serve argv, _, trivial, if_pos hfront⟩
      · have hcall : s.call = .writes := by rw [h.call, if_neg hobuf]
        have hsome : (Session.step server s
            (.send (.written s.context.obuf.length))).isSome := by
          simp only [Session.step, hcall, accepted]
          rw [if_pos (Nat.le_refl _)]
          rfl
        rcases Option.isSome_iff_exists.mp hsome with ⟨t, hstep⟩
        exact ⟨.send (.written s.context.obuf.length), t, List.length_pos_iff.mpr hobuf, hstep⟩
  | answering h =>
      rename_i argvs argv values value part
      have hpos : 1 ≤ s.toClient.length := List.length_pos_iff.mpr h.pending
      have hsome : (Session.step server s (.receive 1)).isSome := by
        simp only [Session.step, h.call]
        rw [if_pos ⟨Nat.one_pos, by decide, hpos⟩]
        rcases h.reads hserver Nat.one_pos with ⟨r, ⟨_, hread, _⟩ | ⟨_, hread, _⟩⟩
        · rw [hread]
          rfl
        · rw [hread]
          rfl
      rcases Option.isSome_iff_exists.mp hsome with ⟨t, hstep⟩
      exact ⟨.receive 1, t, trivial, hstep⟩

/-- Steps forward bring a call under way to its end, and none follows. -/
theorem Pending.run (hserver : Readable server) {n : Nat} (h : Pending server start s n)
    {actions : List SessionAction} (hforward : forall a, a ∈ actions -> Forward a)
    (hrun : Run (Session.step server) s actions = some t) :
    actions.length ≤ n ∧
      ((exists reply, t.answers = s.answers ++ [some reply]) ∨
        t.answers = s.answers ∧
          exists action u, Forward action ∧ Session.step server t action = some u) := by
  induction actions generalizing s n with
  | nil =>
      cases hrun
      exact ⟨Nat.zero_le n, Or.inr ⟨rfl, h.enabled hserver⟩⟩
  | cons action rest ih =>
      rcases run_cons_eq_some hrun with ⟨next, hstep, hrest⟩
      have hfirst := hforward action List.mem_cons_self
      have hothers : forall a, a ∈ rest -> Forward a :=
        fun a ha => hforward a (List.mem_cons_of_mem action ha)
      cases h.step hserver hfirst hstep with
      | nearer less pending answers =>
          rcases ih pending hothers hrest with ⟨hlength, hend⟩
          rw [answers] at hend
          exact ⟨by rw [List.length_cons]; omega, hend⟩
      | answered reply idle answers =>
          have hpos := h.pos
          cases rest with
          | nil =>
              cases hrest
              exact ⟨by rw [List.length_singleton]; omega, Or.inl ⟨reply, answers⟩⟩
          | cons second more =>
              rcases run_cons_eq_some hrest with ⟨other, hsecond, _⟩
              rcases idle.call with ⟨ok, last, hcall⟩
              have hnext := hothers second List.mem_cons_self
              rcases step_returns hcall hsecond with ⟨strCmd, rfl⟩ | ⟨argv, rfl⟩
              · exact hnext.elim
              · rw [serve_nothing idle.toServer] at hsecond
                cases hsecond

/-- As long as the connection holds, a call under way can go on, and it returns an answer after
a bounded number of steps, whatever the pieces. -/
theorem calls_end (hserver : Readable server) {failure : Option (ErrorType × Text)}
    {actions : List SessionAction}
    (hrun : Run (step server) (init start failure) actions = some s)
    (hsound : s.context.err = none) (hcall : forall ok reply, s.call ≠ .returns ok reply) :
    exists bound, forall forwards t, (forall a, a ∈ forwards -> Forward a) ->
      Run (step server) s forwards = some t ->
      forwards.length ≤ bound ∧
        ((exists reply, t.answers = s.answers ++ [some reply]) ∨
          t.answers = s.answers ∧
            exists action u, Forward action ∧ step server t action = some u) := by
  have hpending : exists n, Pending server start s n := by
    cases inv_run hserver hrun with
    | idle h =>
        rcases h.call with ⟨ok, reply, hreturns⟩
        exact absurd hreturns (hcall ok reply)
    | asking h => exact ⟨_, .asking h⟩
    | answering h => exact ⟨_, .answering h⟩
    | broken h =>
        have herr := h.err
        rw [hsound] at herr
        cases herr
  rcases hpending with ⟨n, hn⟩
  exact ⟨n, fun forwards t hforward hforwards => hn.run hserver hforward hforwards⟩

/-- A call whose command has been written in part. -/
def underWay : List SessionAction := [.command "INCR".toList, .send (.written 3)]

theorem under_way_ends :
    exists s, Run (step counter) (init 0 none) underWay = some s ∧
      exists bound, forall forwards t, (forall a, a ∈ forwards -> Forward a) ->
        Run (step counter) s forwards = some t ->
        forwards.length ≤ bound ∧
          ((exists reply, t.answers = s.answers ++ [some reply]) ∨
            t.answers = s.answers ∧
              exists action u, Forward action ∧ step counter t action = some u) :=
  ⟨_, rfl,
    @calls_end Nat counter 0 _ counter_readable none underWay rfl rfl
      (fun _ _ hreturns => absurd hreturns (by rintro ⟨⟩))⟩

end

end Session

end Hiredis
end GMServer
