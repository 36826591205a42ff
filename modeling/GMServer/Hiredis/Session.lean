import GMServer.DataHandle.RedisWrap
import GMServer.Hiredis.Answer

/-!
# A session with a server

A client calls `redisCommand` on a blocking context, one command at a time.  The socket
takes and delivers bytes in any pieces, the server executes the commands that have arrived
completely, and the connection can break at any time.
-/

namespace GMServer
namespace Hiredis

open DataHandle
open Resp
open Transition

/-!
# Servers
-/

/-- A server executes the commands of one connection in the state of its world. -/
abbrev Server (world answer : Type) := world -> List Text -> world × answer

section

variable {world answer : Type}

def serveAll (server : Server world answer) : world -> List (List Text) -> world × List answer
  | state, [] => (state, [])
  | state, argv :: argvs =>
      let first := server state argv
      let rest := serveAll server first.1 argvs
      (rest.1, first.2 :: rest.2)

theorem serveAll_append (server : Server world answer) (state : world)
    (argvs others : List (List Text)) :
    serveAll server state (argvs ++ others) =
      ((serveAll server (serveAll server state argvs).1 others).1,
        (serveAll server state argvs).2 ++
          (serveAll server (serveAll server state argvs).1 others).2) := by
  induction argvs generalizing state with
  | nil => rfl
  | cons argv argvs ih =>
      rw [List.cons_append, serveAll, ih, serveAll]
      rfl

end

/-- Every answer is one that the reader can hold, with arrays that are nested at most twice. -/
def Readable {world : Type} (server : Server world Resp) : Prop :=
  forall state argv, Sized (server state argv).2 ∧ nesting (server state argv).2 ≤ 2

/-!
# Steps

`toServer` and `toClient` are on their way.
-/

structure Session (world : Type) where
  context : redisContext
  call : Progress
  toServer : Text
  toClient : Text
  state : world
  calls : List Text
  answers : List (Option redisReply)

inductive SessionAction where
  | command (strCmd : Text)
  | send (result : SendResult)
  | serve (argv : List Text)
  | receive (nread : Nat)
  | close
  | fail (text : Text)
  deriving DecidableEq, Repr

namespace Session

section

variable {world : Type}

def init (state : world) (failure : Option (ErrorType × Text)) : Session world where
  context := redisContext.redisConnect failure
  call := .returns true none
  toServer := []
  toClient := []
  state := state
  calls := []
  answers := []

/-- What `redisCommand` returns is noted when it returns. -/
def proceed (s : Session world) (next : redisContext × Progress) : Session world :=
  { s with
    context := next.1, call := next.2,
    answers := s.answers ++
      match next.2 with
      | .returns _ reply => [reply]
      | _ => [] }

/-- The bytes that the socket takes; a context that has failed offers none. -/
def accepted (c : redisContext) : SendResult -> Option Text
  | .written nwritten =>
      if nwritten ≤ c.obuf.length then
        some (if c.err.isSome then [] else c.obuf.take nwritten)
      else none
  | .failed _ _ => some []

def step (server : Server world Resp) (s : Session world) :
    SessionAction -> Option (Session world)
  | .command strCmd =>
      match s.call with
      | .returns _ _ =>
          (s.context.redisCommand strCmd).map
            ({ s with calls := s.calls ++ [strCmd] } : Session world).proceed
      | _ => none
  | .send result =>
      match s.call with
      | .writes =>
          (accepted s.context result).map (fun bytes =>
            ({ s with toServer := s.toServer ++ bytes } : Session world).proceed
              (s.context.getReplyWrites result))
      | _ => none
  | .serve argv =>
      if commandBytes argv <+: s.toServer then
        some
          { s with
            toServer := s.toServer.drop (commandBytes argv).length,
            toClient := s.toClient ++ encode (server s.state argv).2,
            state := (server s.state argv).1 }
      else none
  | .receive nread =>
      match s.call with
      | .reads =>
          if 0 < nread ∧ nread ≤ 2048 ∧ nread ≤ s.toClient.length then
            (s.context.getReplyReads (.bytes (s.toClient.take nread))).map
              ({ s with toClient := s.toClient.drop nread } : Session world).proceed
          else none
      | _ => none
  | .close =>
      match s.call with
      | .reads => (s.context.getReplyReads .closed).map s.proceed
      | _ => none
  | .fail text =>
      match s.call with
      | .reads => (s.context.getReplyReads (.failed text)).map s.proceed
      | _ => none

end

/-!
# Where a session stands
-/

section

variable {world : Type}

/-- Between two calls. -/
structure Idle (server : Server world Resp) (start : world) (argvs : List (List Text))
    (values : List Resp) (s : Session world) : Prop where
  formatted : s.calls.mapM redisvFormatCommand = some argvs
  executed : serveAll server start argvs = (s.state, values)
  answers : s.answers = (replies values).map some
  connected : s.context.Connected values []
  obuf : s.context.obuf = []
  toServer : s.toServer = []
  toClient : s.toClient = []
  call : exists ok reply, s.call = .returns ok reply

/-- The server does not have the whole command. -/
structure Asking (server : Server world Resp) (start : world) (argvs : List (List Text))
    (argv : List Text) (values : List Resp) (s : Session world) : Prop where
  formatted : s.calls.mapM redisvFormatCommand = some (argvs ++ [argv])
  executed : serveAll server start argvs = (s.state, values)
  answers : s.answers = (replies values).map some
  connected : s.context.Connected values []
  command : s.toServer ++ s.context.obuf = commandBytes argv
  toClient : s.toClient = []
  call : s.call = if s.context.obuf = [] then .reads else .writes

/-- The client does not have the whole answer. -/
structure Answering (server : Server world Resp) (start : world) (argvs : List (List Text))
    (argv : List Text) (values : List Resp) (value : Resp) (part : Text) (s : Session world) :
    Prop where
  formatted : s.calls.mapM redisvFormatCommand = some (argvs ++ [argv])
  executed : serveAll server start (argvs ++ [argv]) = (s.state, values ++ [value])
  answers : s.answers = (replies values).map some
  connected : s.context.Connected values part
  obuf : s.context.obuf = []
  toServer : s.toServer = []
  answer : part ++ s.toClient = encode value
  pending : s.toClient ≠ []
  call : s.call = .reads

/-- What a server has done that nobody waits for: a command may still be on its way. -/
inductive Reached (server : Server world Resp) (reached : world) (toServer : Text)
    (state : world) : List (List Text) -> Prop where
  | nothing {others : List (List Text)} (sent : toServer = []) (same : state = reached) :
      Reached server reached toServer state others
  | sent {argv : List Text} {others : List (List Text)} (bytes : toServer <+: commandBytes argv)
      (same : state = reached) : Reached server reached toServer state (argv :: others)
  | executed {argv : List Text} {others : List (List Text)} (sent : toServer = [])
      (next : state = (server reached argv).1) :
      Reached server reached toServer state (argv :: others)

/-- The context has failed. -/
structure Broken (server : Server world Resp) (start reached : world)
    (argvs others : List (List Text)) (values : List Resp) (nulls : Nat) (s : Session world) :
    Prop where
  formatted : s.calls.mapM redisvFormatCommand = some (argvs ++ others)
  executed : serveAll server start argvs = (reached, values)
  answers : s.answers = (replies values).map some ++ List.replicate nulls none
  err : s.context.err.isSome
  block : s.context.block = true
  reads : exists part, Reads s.context.reader values part
  reaches : Reached server reached s.toServer s.state others
  call : s.call = .writes ∧ nulls + 1 = others.length ∨
    (exists ok reply, s.call = .returns ok reply) ∧ nulls = others.length

inductive SessionInv (server : Server world Resp) (start : world) (s : Session world) : Prop where
  | idle {argvs : List (List Text)} {values : List Resp} (h : Idle server start argvs values s)
  | asking {argvs : List (List Text)} {argv : List Text} {values : List Resp}
      (h : Asking server start argvs argv values s)
  | answering {argvs : List (List Text)} {argv : List Text} {values : List Resp} {value : Resp}
      {part : Text} (h : Answering server start argvs argv values value part s)
  | broken {reached : world} {argvs others : List (List Text)} {values : List Resp} {nulls : Nat}
      (h : Broken server start reached argvs others values nulls s)

theorem inv_init (server : Server world Resp) (start : world)
    (failure : Option (ErrorType × Text)) : SessionInv server start (init start failure) := by
  cases failure with
  | none =>
      exact @SessionInv.idle _ server start _ [] []
        { formatted := rfl
          executed := rfl
          answers := rfl
          connected := ⟨rfl, rfl, reads_create⟩
          obuf := rfl
          toServer := rfl
          toClient := rfl
          call := ⟨true, none, rfl⟩ }
  | some error =>
      exact @SessionInv.broken _ server start _ start [] [] [] 0
        { formatted := rfl
          executed := rfl
          answers := rfl
          err := rfl
          block := rfl
          reads := ⟨[], reads_create⟩
          reaches := .nothing rfl rfl
          call := Or.inr ⟨⟨true, none, rfl⟩, rfl⟩ }

/-!
# One step
-/

theorem mapM_concat {calls : List Text} {argvs : List (List Text)} {strCmd : Text}
    {argv : List Text} (hcalls : calls.mapM redisvFormatCommand = some argvs)
    (hformat : redisvFormatCommand strCmd = some argv) :
    (calls ++ [strCmd]).mapM redisvFormatCommand = some (argvs ++ [argv]) := by
  rw [List.mapM_append, hcalls, List.mapM_cons, hformat]
  rfl

theorem command_formatted {c : redisContext} {strCmd : Text} {next : redisContext × Progress}
    (h : c.redisCommand strCmd = some next) :
    exists argv, redisvFormatCommand strCmd = some argv := by
  unfold redisContext.redisCommand redisContext.redisAppendCommand redisFormatCommand at h
  cases hformat : redisvFormatCommand strCmd with
  | none =>
      rw [hformat] at h
      cases h
  | some argv => exact ⟨argv, rfl⟩

variable {server : Server world Resp} {start : world} {s t : Session world}

/-- Between two calls only a call and the server can go on. -/
theorem step_returns {ok : Bool} {reply : Option redisReply} {action : SessionAction}
    (hcall : s.call = .returns ok reply) (hstep : step server s action = some t) :
    (exists strCmd, action = .command strCmd) ∨ exists argv, action = .serve argv := by
  cases action with
  | command strCmd => exact Or.inl ⟨strCmd, rfl⟩
  | serve argv => exact Or.inr ⟨argv, rfl⟩
  | send result => simp [step, hcall] at hstep
  | receive nread => simp [step, hcall] at hstep
  | close => simp [step, hcall] at hstep
  | fail text => simp [step, hcall] at hstep

theorem step_writes {action : SessionAction} (hcall : s.call = .writes)
    (hstep : step server s action = some t) :
    (exists result, action = .send result) ∨ exists argv, action = .serve argv := by
  cases action with
  | send result => exact Or.inl ⟨result, rfl⟩
  | serve argv => exact Or.inr ⟨argv, rfl⟩
  | command strCmd => simp [step, hcall] at hstep
  | receive nread => simp [step, hcall] at hstep
  | close => simp [step, hcall] at hstep
  | fail text => simp [step, hcall] at hstep

/-- What the socket can deliver to a call that reads. -/
inductive Delivers (s : Session world) : SessionAction -> Prop where
  | bytes {nread : Nat} (pos : 0 < nread) (fits : nread ≤ s.toClient.length) :
      Delivers s (.receive nread)
  | nothing : Delivers s .close
  | failure (text : Text) : Delivers s (.fail text)

theorem step_reads {action : SessionAction} (hcall : s.call = .reads)
    (hstep : step server s action = some t) :
    Delivers s action ∨ exists argv, action = .serve argv := by
  cases action with
  | serve argv => exact Or.inr ⟨argv, rfl⟩
  | close => exact Or.inl .nothing
  | fail text => exact Or.inl (.failure text)
  | receive nread =>
      simp only [step, hcall] at hstep
      split at hstep
      · rename_i hfits
        exact Or.inl (.bytes hfits.left hfits.right.right)
      · cases hstep
  | command strCmd => simp [step, hcall] at hstep
  | send result => simp [step, hcall] at hstep

theorem step_serve {argv : List Text} (hstep : step server s (.serve argv) = some t) :
    commandBytes argv <+: s.toServer ∧
      t =
        { s with
          toServer := s.toServer.drop (commandBytes argv).length,
          toClient := s.toClient ++ encode (server s.state argv).2,
          state := (server s.state argv).1 } := by
  simp only [step] at hstep
  split at hstep
  · rename_i hfront
    exact ⟨hfront, (Option.some.inj hstep).symm⟩
  · cases hstep

/-- Without a command in front of it the server does nothing. -/
theorem serve_nothing {argv : List Text} (hnothing : s.toServer = []) :
    step server s (.serve argv) = none := by
  simp [step, hnothing, commandBytes_ne_nil]

theorem Idle.step {argvs : List (List Text)} {values : List Resp}
    (h : Idle server start argvs values s) {action : SessionAction}
    (hstep : step server s action = some t) :
    exists argv, Asking server start argvs argv values t := by
  rcases h.call with ⟨ok, reply, hcall⟩
  rcases step_returns hcall hstep with ⟨strCmd, rfl⟩ | ⟨argv, rfl⟩
  · simp only [Session.step, hcall] at hstep
    rcases Option.map_eq_some_iff.mp hstep with ⟨next, hcommand, hproceed⟩
    rcases command_formatted hcommand with ⟨argv, hformat⟩
    rcases redisContext.command_asks hformat h.connected.block h.connected.reads with
      ⟨r, hasks, hreads⟩
    rw [hasks] at hcommand
    cases hcommand
    cases hproceed
    exact ⟨argv,
      { formatted := mapM_concat h.formatted hformat
        executed := h.executed
        answers := (List.append_nil _).trans h.answers
        connected := ⟨h.connected.sound, h.connected.block, hreads⟩
        command := by
          show s.toServer ++ (s.context.obuf ++ commandBytes argv) = commandBytes argv
          rw [h.toServer, h.obuf]
          rfl
        toClient := h.toClient
        call := by
          show Progress.writes =
            if s.context.obuf ++ commandBytes argv = [] then .reads else .writes
          rw [if_neg (List.append_ne_nil_of_right_ne_nil _ (commandBytes_ne_nil argv))] }⟩
  · rw [serve_nothing h.toServer] at hstep
    cases hstep

theorem Asking.serves {argvs : List (List Text)} {argv other : List Text} {values : List Resp}
    (h : Asking server start argvs argv values s) (hfront : commandBytes other <+: s.toServer) :
    other = argv ∧ s.toServer = commandBytes argv ∧ s.context.obuf = [] := by
  rcases hfront with ⟨rest, hrest⟩
  have hcommand := h.command
  rw [← hrest, List.append_assoc, ← List.append_nil (commandBytes argv)] at hcommand
  rcases command_inj hcommand with ⟨hsame, hnil⟩
  rcases List.append_eq_nil_iff.mp hnil with ⟨hrestNil, hobuf⟩
  rw [hrestNil, List.append_nil, hsame] at hrest
  exact ⟨hsame, hrest.symm, hobuf⟩

theorem encode_ne_nil (value : Resp) : encode value ≠ [] := by
  cases value with
  | error text => exact List.cons_ne_nil _ _
  | status text => exact List.cons_ne_nil _ _
  | integer value => exact List.cons_ne_nil _ _
  | bulk text => exact List.cons_ne_nil _ _
  | nilBulk => exact List.cons_ne_nil _ _
  | nilArray => exact List.cons_ne_nil _ _
  | array elements =>
      rw [encode]
      exact List.cons_ne_nil _ _

/-- Nothing comes back for the command that was under way. -/
theorem Asking.breaks {argvs : List (List Text)} {argv : List Text} {values : List Resp}
    (h : Asking server start argvs argv values s) (type : ErrorType) (text : Text) :
    Broken server start s.state argvs [argv] values 1
      (s.proceed (s.context.redisSetError (some type) text, .returns false none)) where
  formatted := h.formatted
  executed := h.executed
  answers := congrArg (· ++ [none]) h.answers
  err := rfl
  block := h.connected.block
  reads := ⟨[], h.connected.reads⟩
  reaches := .sent ⟨s.context.obuf, h.command⟩ rfl
  call := Or.inr ⟨⟨false, none, rfl⟩, rfl⟩

theorem Asking.served {argvs : List (List Text)} {argv other : List Text} {values : List Resp}
    (h : Asking server start argvs argv values s)
    (hstep : step server s (.serve other) = some t) :
    Answering server start argvs argv values (server s.state argv).2 [] t := by
  rcases step_serve hstep with ⟨hfront, hEq⟩
  rcases h.serves hfront with ⟨hsame, hsent, hobuf⟩
  rw [hEq, hsame, hsent]
  exact
    { formatted := h.formatted
      executed := by
        rw [serveAll_append, h.executed]
        rfl
      answers := h.answers
      connected := h.connected
      obuf := hobuf
      toServer := List.drop_length
      answer := by
        show [] ++ (s.toClient ++ encode (server s.state argv).2) = _
        rw [h.toClient]
        rfl
      pending := by
        show s.toClient ++ encode (server s.state argv).2 ≠ []
        rw [h.toClient]
        exact encode_ne_nil _
      call := by
        show s.call = .reads
        rw [h.call, if_pos hobuf] }

/-- The part of the command that the socket has taken is on its way. -/
theorem Asking.sent {argvs : List (List Text)} {argv : List Text} {values : List Resp}
    (h : Asking server start argvs argv values s) (hobuf : s.context.obuf ≠ []) {nwritten : Nat}
    (hstep : step server s (.send (.written nwritten)) = some t) :
    Asking server start argvs argv values t ∧ nwritten ≤ s.context.obuf.length ∧
      t.context.obuf = s.context.obuf.drop nwritten ∧ t.answers = s.answers ∧
      t.state = s.state := by
  have hcall : s.call = .writes := by rw [h.call, if_neg hobuf]
  simp only [Session.step, hcall] at hstep
  rcases Option.map_eq_some_iff.mp hstep with ⟨bytes, haccepted, hproceed⟩
  simp only [accepted] at haccepted
  split at haccepted
  · rename_i hle
    rw [if_neg (by simp [h.connected.sound])] at haccepted
    cases haccepted
    rw [redisContext.getReplyWrites_written h.connected.sound hobuf hle] at hproceed
    have hanswers : t.answers = s.answers := by
      rw [← hproceed]
      unfold proceed
      split
      · exact List.append_nil _
      · exact List.append_nil _
    refine ⟨?_, hle, by rw [← hproceed]; rfl, hanswers, by rw [← hproceed]; rfl⟩
    have hsame := hanswers.trans h.answers
    rw [← hproceed] at hsame ⊢
    exact
      { formatted := h.formatted
        executed := h.executed
        answers := hsame
        connected := ⟨h.connected.sound, h.connected.block, h.connected.reads⟩
        command := by
          show s.toServer ++ s.context.obuf.take nwritten ++ s.context.obuf.drop nwritten = _
          rw [List.append_assoc, List.take_append_drop, h.command]
        toClient := h.toClient
        call := rfl }
  · cases haccepted

theorem Asking.step {argvs : List (List Text)} {argv : List Text} {values : List Resp}
    (h : Asking server start argvs argv values s) {action : SessionAction}
    (hstep : step server s action = some t) : SessionInv server start t := by
  by_cases hobuf : s.context.obuf = []
  · have hcall : s.call = .reads := by rw [h.call, if_pos hobuf]
    rcases step_reads hcall hstep with hdelivers | ⟨other, rfl⟩
    · cases hdelivers with
      | bytes hpos hfits =>
          rw [h.toClient, List.length_nil] at hfits
          omega
      | nothing =>
          simp only [Session.step, hcall] at hstep
          rw [redisContext.getReplyReads_closed h.connected.sound] at hstep
          cases hstep
          exact .broken (h.breaks .eof closedText)
      | failure text =>
          simp only [Session.step, hcall] at hstep
          rw [redisContext.getReplyReads_failed h.connected.sound h.connected.block] at hstep
          cases hstep
          exact .broken (h.breaks .io text)
    · exact .answering (h.served hstep)
  · have hcall : s.call = .writes := by rw [h.call, if_neg hobuf]
    rcases step_writes hcall hstep with ⟨result, rfl⟩ | ⟨other, rfl⟩
    · cases result with
      | written nwritten => exact .asking (h.sent hobuf hstep).left
      | failed again text =>
          simp only [Session.step, hcall, accepted, Option.map_some, List.append_nil] at hstep
          rw [redisContext.getReplyWrites_failed h.connected.sound hobuf h.connected.block]
            at hstep
          cases hstep
          exact .broken (h.breaks .io text)
    · exact .answering (h.served hstep)

/-- The command has been executed, and its answer is lost. -/
theorem Answering.breaks {argvs : List (List Text)} {argv : List Text} {values : List Resp}
    {value : Resp} {part : Text} (h : Answering server start argvs argv values value part s)
    (type : ErrorType) (text : Text) :
    Broken server start (serveAll server start argvs).1 argvs [argv] values 1
      (s.proceed (s.context.redisSetError (some type) text, .returns false none)) := by
  have hexecuted := h.executed
  rw [serveAll_append] at hexecuted
  rcases Prod.mk.inj hexecuted with ⟨hstate, hvalues⟩
  exact
    { formatted := h.formatted
      executed := Prod.ext rfl (List.append_inj_left' hvalues rfl)
      answers := congrArg (· ++ [none]) h.answers
      err := rfl
      block := h.connected.block
      reads := ⟨part, h.connected.reads⟩
      reaches := .executed h.toServer hstate.symm
      call := Or.inr ⟨⟨false, none, rfl⟩, rfl⟩ }

/-- What the context makes of the next bytes of the answer. -/
theorem Answering.reads (hserver : Readable server) {argvs : List (List Text)}
    {argv : List Text} {values : List Resp} {value : Resp} {part : Text}
    (h : Answering server start argvs argv values value part s) {nread : Nat}
    (hpos : 0 < nread) :
    exists r,
      s.toClient.drop nread ≠ [] ∧
          s.context.getReplyReads (.bytes (s.toClient.take nread)) =
            some ({ s.context with reader := r }, .reads) ∧
          redisContext.Connected { s.context with reader := r } values
            (part ++ s.toClient.take nread) ∨
        s.toClient.drop nread = [] ∧
          s.context.getReplyReads (.bytes (s.toClient.take nread)) =
            some ({ s.context with reader := r }, .returns true (some (reply value))) ∧
          redisContext.Connected { s.context with reader := r } (values ++ [value]) [] := by
  have hvalue : value = (server (serveAll server start argvs).1 argv).2 := by
    have hexecuted := h.executed
    rw [serveAll_append] at hexecuted
    exact (List.singleton_inj.mp (List.append_inj_right' (Prod.mk.inj hexecuted).right rfl)).symm
  have hreadable := hserver (serveAll server start argvs).1 argv
  rw [← hvalue] at hreadable
  have hbytes : s.toClient.take nread ≠ [] := by
    rw [Ne, List.take_eq_nil_iff, not_or]
    exact ⟨Nat.ne_of_gt hpos, h.pending⟩
  exact h.connected.received hreadable.left hreadable.right hbytes
    (by rw [List.take_append_drop, h.answer])

/-- Bytes of the answer are read; the last ones end the call. -/
theorem Answering.received (hserver : Readable server) {argvs : List (List Text)}
    {argv : List Text} {values : List Resp} {value : Resp} {part : Text}
    (h : Answering server start argvs argv values value part s) {nread : Nat}
    (hpos : 0 < nread) (hstep : step server s (.receive nread) = some t) :
    (exists more, Answering server start argvs argv values value more t ∧
        t.answers = s.answers ∧ t.toClient = s.toClient.drop nread) ∨
      Idle server start (argvs ++ [argv]) (values ++ [value]) t := by
  simp only [Session.step, h.call] at hstep
  split at hstep
  · rcases h.reads hserver hpos with
      ⟨r, ⟨hmissing, hread, hconnected⟩ | ⟨hmissing, hread, hconnected⟩⟩
    · rw [hread] at hstep
      cases hstep
      exact Or.inl ⟨part ++ s.toClient.take nread,
        { formatted := h.formatted
          executed := h.executed
          answers := (List.append_nil _).trans h.answers
          connected := hconnected
          obuf := h.obuf
          toServer := h.toServer
          answer := by
            show part ++ s.toClient.take nread ++ s.toClient.drop nread = _
            rw [List.append_assoc, List.take_append_drop, h.answer]
          pending := hmissing
          call := rfl }, List.append_nil _, rfl⟩
    · rw [hread] at hstep
      cases hstep
      exact Or.inr
        { formatted := h.formatted
          executed := h.executed
          answers := by
            show s.answers ++ [some (reply value)] = _
            rw [h.answers, replies_append, List.map_append]
            rfl
          connected := hconnected
          obuf := h.obuf
          toServer := h.toServer
          toClient := hmissing
          call := ⟨true, _, rfl⟩ }
  · cases hstep

theorem Answering.step (hserver : Readable server) {argvs : List (List Text)}
    {argv : List Text} {values : List Resp} {value : Resp} {part : Text}
    (h : Answering server start argvs argv values value part s) {action : SessionAction}
    (hstep : step server s action = some t) : SessionInv server start t := by
  rcases step_reads h.call hstep with hdelivers | ⟨other, rfl⟩
  · cases hdelivers with
    | bytes hpos hfits =>
        rcases h.received hserver hpos hstep with ⟨more, hmore, _, _⟩ | hidle
        · exact .answering hmore
        · exact .idle hidle
    | nothing =>
        simp only [Session.step, h.call] at hstep
        rw [redisContext.getReplyReads_closed h.connected.sound] at hstep
        cases hstep
        exact .broken (h.breaks .eof closedText)
    | failure text =>
        simp only [Session.step, h.call] at hstep
        rw [redisContext.getReplyReads_failed h.connected.sound h.connected.block] at hstep
        cases hstep
        exact .broken (h.breaks .io text)
  · rw [serve_nothing h.toServer] at hstep
    cases hstep

theorem Reached.more {reached state : world} {toServer : Text} {others : List (List Text)}
    (h : Reached server reached toServer state others) (argv : List Text) :
    Reached server reached toServer state (others ++ [argv]) := by
  cases h with
  | nothing sent same => exact .nothing sent same
  | sent bytes same => exact .sent bytes same
  | executed sent next => exact .executed sent next

/-- A command that has been sent completely can still be executed, once. -/
theorem Reached.serve {reached state : world} {toServer : Text} {others : List (List Text)}
    (h : Reached server reached toServer state others) {argv : List Text}
    (hfront : commandBytes argv <+: toServer) :
    Reached server reached (toServer.drop (commandBytes argv).length) (server state argv).1
      others := by
  have hne := commandBytes_ne_nil argv
  cases h with
  | nothing sent same =>
      rw [sent] at hfront
      exact absurd (List.prefix_nil.mp hfront) hne
  | executed sent next =>
      rw [sent] at hfront
      exact absurd (List.prefix_nil.mp hfront) hne
  | sent bytes same =>
      rename_i first rest
      rcases hfront.trans bytes with ⟨more, hmore⟩
      have hsame := (command_inj (hmore.trans (List.append_nil _).symm)).left
      rw [hsame] at hfront ⊢
      have hall : toServer = commandBytes first :=
        bytes.eq_of_length_le hfront.length_le
      rw [hall, same]
      exact .executed List.drop_length rfl

theorem Broken.step {reached : world} {argvs others : List (List Text)} {values : List Resp}
    {nulls : Nat} (h : Broken server start reached argvs others values nulls s)
    {action : SessionAction} (hstep : step server s action = some t) :
    SessionInv server start t := by
  have hserve : forall argv, Session.step server s (.serve argv) = some t ->
      SessionInv server start t := by
    intro argv hserves
    rcases step_serve hserves with ⟨hfront, hEq⟩
    rw [hEq]
    exact .broken
      { formatted := h.formatted
        executed := h.executed
        answers := h.answers
        err := h.err
        block := h.block
        reads := h.reads
        reaches := h.reaches.serve hfront
        call := h.call }
  rcases h.call with ⟨hcall, hcount⟩ | ⟨⟨ok, reply, hcall⟩, hcount⟩
  · rcases step_writes hcall hstep with ⟨result, rfl⟩ | ⟨argv, rfl⟩
    · simp only [Session.step, hcall] at hstep
      rcases Option.map_eq_some_iff.mp hstep with ⟨bytes, haccepted, hproceed⟩
      have hbytes : bytes = [] := by
        cases result with
        | written nwritten =>
            simp only [accepted] at haccepted
            split at haccepted
            · rw [if_pos h.err] at haccepted
              exact (Option.some.inj haccepted).symm
            · cases haccepted
        | failed again text => exact (Option.some.inj haccepted).symm
      rw [hbytes, List.append_nil, redisContext.getReplyWrites_stopped h.err] at hproceed
      rw [← hproceed]
      exact @SessionInv.broken _ _ _ _ _ _ _ _ (nulls + 1)
        { formatted := h.formatted
          executed := h.executed
          answers := by
            show s.answers ++ [none] = _
            rw [h.answers, List.append_assoc, List.replicate_succ']
          err := h.err
          block := h.block
          reads := h.reads
          reaches := h.reaches
          call := Or.inr ⟨⟨false, none, rfl⟩, hcount⟩ }
    · exact hserve argv hstep
  · rcases step_returns hcall hstep with ⟨strCmd, rfl⟩ | ⟨argv, rfl⟩
    · simp only [Session.step, hcall] at hstep
      rcases Option.map_eq_some_iff.mp hstep with ⟨next, hcommand, hproceed⟩
      rcases command_formatted hcommand with ⟨argv, hformat⟩
      rcases h.reads with ⟨part, hreads⟩
      rcases redisContext.command_asks hformat h.block hreads with ⟨r, hasks, hstill⟩
      rw [hasks] at hcommand
      cases hcommand
      cases hproceed
      exact @SessionInv.broken _ _ _ _ _ _ (others ++ [argv]) _ nulls
        { formatted := by
            rw [← List.append_assoc]
            exact mapM_concat h.formatted hformat
          executed := h.executed
          answers := (List.append_nil _).trans h.answers
          err := h.err
          block := h.block
          reads := ⟨part, hstill⟩
          reaches := h.reaches.more argv
          call := Or.inl ⟨rfl, by rw [List.length_append, hcount]; rfl⟩ }
    · exact hserve argv hstep

theorem inv_step (hserver : Readable server) (h : SessionInv server start s)
    {action : SessionAction} (hstep : step server s action = some t) :
    SessionInv server start t := by
  cases h with
  | idle h =>
      rcases h.step hstep with ⟨argv, hasking⟩
      exact .asking hasking
  | asking h => exact h.step hstep
  | answering h => exact h.step hserver hstep
  | broken h => exact h.step hstep

theorem inv_run (hserver : Readable server) {failure : Option (ErrorType × Text)}
    {actions : List SessionAction}
    (hrun : Run (step server) (init start failure) actions = some s) :
    SessionInv server start s :=
  run_invariant (fun _ _ _ h _ hstep => inv_step hserver h hstep) (inv_init server start failure)
    (allSteps_of_labels (fun _ _ _ => trivial) _) hrun

end

end Session

end Hiredis
end GMServer
