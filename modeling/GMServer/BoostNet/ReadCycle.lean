import GMServer.Library.Transition
import GMServer.BoostNet.TCPSession

/-!
# The receive path

A session reads by two stages that start each other, `ReadHead` and `ReadBody`,
with one transfer pending at a time.  The bytes of the peer arrive in chunks.
-/

namespace GMServer
namespace BoostNet

open Frames

inductive ReadStage where
  | ReadHead
  | ReadBody
  deriving DecidableEq, Repr

/-- How the session was started. -/
inductive Entry where
  | OnConnect
  | ConnectServer
  deriving DecidableEq, Repr

/-!
# States

`coming` has not arrived and `incoming` has not been read.  `outbox` is what the
peer was sent, `reads` what each completed stage took from the stream, and
`delivered` what `m_OnMsgHandle` was called with.
-/

structure ReadState where
  session : TCPSession
  stage : ReadStage
  pending : Transfer
  coming : List Bytes
  incoming : Bytes
  outbox : Bytes
  reads : List (ReadStage × Bytes)
  delivered : List NetPacket
  deriving DecidableEq, Repr

inductive ReadAction where
  | arrive
  | complete
  deriving DecidableEq, Repr

namespace ReadCycle

open Transition

/-!
# The two stages
-/

def startReadHead (s : ReadState) : ReadState :=
  { s with stage := .ReadHead, pending := s.session.ReadHead }

def startReadBody (s : ReadState) : ReadState :=
  let (session, pending) := s.session.ReadBody
  { s with session := session, stage := .ReadBody, pending := pending }

/-- The buffer of `ReadHead` is `m_iPackLen`: it changes by what is read into it. -/
def storeHead (session : TCPSession) : Bytes -> TCPSession
  | [low, high] => { session with m_iPackLen := BitVec.ofNat 16 (readLength low high) }
  | _ => session

def handleRead (s : ReadState) (data : Bytes) : Option ReadState :=
  match s.stage with
  | .ReadHead =>
      some (startReadBody { s with
        session := storeHead s.session data,
        reads := s.reads ++ [(.ReadHead, data)] })
  | .ReadBody =>
      match s.session.m_pReadMsg with
      | none => none
      | some pReadMsg =>
          some (startReadHead { s with
            session := { s.session with m_pReadMsg := none },
            reads := s.reads ++ [(.ReadBody, data)],
            delivered := s.delivered ++ [pReadMsg.fillData data] })

/-!
# Runs

A read completes when all its bytes are there, a write at any time.  The completion of
`ConnectServer` calls `DoSend` behind `ReadBody`; the sending side is left out here.
-/

def start (entry : Entry) (m_iPackLen : uint16_t) (chunks : List Bytes) : ReadState :=
  let s : ReadState :=
    { session := TCPSession.new m_iPackLen,
      stage := .ReadHead,
      pending := .async_read 0,
      coming := chunks,
      incoming := [],
      outbox := [],
      reads := [],
      delivered := [] }
  match entry with
  | .OnConnect => startReadHead s
  | .ConnectServer => startReadBody s

def step (s : ReadState) : ReadAction -> Option ReadState
  | .arrive =>
      match s.coming with
      | [] => none
      | chunk :: rest => some { s with coming := rest, incoming := s.incoming ++ chunk }
  | .complete =>
      match s.pending with
      | .async_write bytes => handleRead { s with outbox := s.outbox ++ bytes } []
      | .async_read iLen =>
          if s.incoming.length < iLen then
            none
          else
            handleRead { s with incoming := s.incoming.drop iLen }
              (s.incoming.take iLen)

/-!
# What the receive path has to do
-/

/-- The packet that carries a payload that was received. -/
def received (payload : Bytes) : NetPacket :=
  (NetPacket.ofSize (BitVec.ofNat 16 payload.length)).fillData payload

def frameReads (payload : Bytes) : List (ReadStage × Bytes) :=
  [(.ReadHead, lengthBytes payload.length), (.ReadBody, payload)]

def Finished (s : ReadState) : Prop := forall a, step s a = none

structure DecodesSoFar (payloads : List Bytes) (s : ReadState) : Prop where
  silent : s.outbox = []
  reads : s.reads <+: payloads.flatMap frameReads
  delivered : s.delivered <+: payloads.map received
  complete : Finished s ->
    s.reads = payloads.flatMap frameReads ∧ s.delivered = payloads.map received

/-- However the stream is cut, no run departs from the frames, and one that
cannot go on has delivered them all. -/
def Decodes (entry : Entry) (m_iPackLen : uint16_t) (payloads : List Bytes) : Prop :=
  forall chunks : List Bytes, chunks.flatten = encode payloads ->
    forall actions s, Run step (start entry m_iPackLen chunks) actions = some s ->
      DecodesSoFar payloads s

/-!
# What it does

`ReadHead` reads nothing: it sends the peer the two bytes of `m_iPackLen`, which
therefore never changes.  The stream is cut into blocks of that one size.
-/

def heads (s : ReadState) : Nat := s.reads.countP (·.1 = .ReadHead)

def bodies (s : ReadState) : List Bytes :=
  (s.reads.filter (·.1 = .ReadBody)).map Prod.snd

/-- The stages that completed alternate from the first one on. -/
def Alternates (entry : Entry) (s : ReadState) : Prop :=
  match entry, s.stage with
  | .OnConnect, .ReadHead => heads s = (bodies s).length
  | .OnConnect, .ReadBody => heads s = (bodies s).length + 1
  | .ConnectServer, .ReadHead => (bodies s).length = heads s + 1
  | .ConnectServer, .ReadBody => (bodies s).length = heads s

structure CycleInv (entry : Entry) (m_iPackLen : uint16_t) (stream : Bytes)
    (s : ReadState) : Prop where
  len : s.session.m_iPackLen = m_iPackLen
  pending : (s.stage = .ReadHead ∧ s.pending = .async_write (lengthBytes m_iPackLen.toNat)) ∨
    (s.stage = .ReadBody ∧ s.pending = .async_read m_iPackLen.toNat ∧
      s.session.m_pReadMsg = some (NetPacket.ofSize m_iPackLen))
  alternates : Alternates entry s
  sent : s.outbox = (List.replicate (heads s) (lengthBytes m_iPackLen.toNat)).flatten
  blocks : forall body, body ∈ bodies s -> body.length = m_iPackLen.toNat
  given : s.delivered = (bodies s).map (NetPacket.ofSize m_iPackLen).fillData
  stream : (bodies s).flatten ++ s.incoming ++ s.coming.flatten = stream

theorem cycleInv_start (entry : Entry) (m_iPackLen : uint16_t) (chunks : List Bytes) :
    CycleInv entry m_iPackLen chunks.flatten (start entry m_iPackLen chunks) := by
  cases entry with
  | OnConnect =>
      exact
        { len := rfl
          pending := Or.inl ⟨rfl, rfl⟩
          alternates := rfl
          sent := rfl
          blocks := fun _ hbody => absurd hbody List.not_mem_nil
          given := rfl
          stream := rfl }
  | ConnectServer =>
      exact
        { len := rfl
          pending := Or.inr ⟨rfl, rfl, rfl⟩
          alternates := rfl
          sent := rfl
          blocks := fun _ hbody => absurd hbody List.not_mem_nil
          given := rfl
          stream := rfl }

/-- The completion of the pending stage, spelled out. -/
theorem complete_head {s t : ReadState} {m_iPackLen : uint16_t}
    (hlen : s.session.m_iPackLen = m_iPackLen) (hstage : s.stage = .ReadHead)
    (hpending : s.pending = .async_write (lengthBytes m_iPackLen.toNat))
    (hstep : step s .complete = some t) :
    t = { s with
      session := { s.session with m_pReadMsg := some (NetPacket.ofSize m_iPackLen) },
      stage := .ReadBody,
      pending := .async_read m_iPackLen.toNat,
      outbox := s.outbox ++ lengthBytes m_iPackLen.toNat,
      reads := s.reads ++ [(.ReadHead, [])] } := by
  simp only [step, hpending, handleRead, hstage] at hstep
  cases hstep
  rw [← hlen]
  rfl

theorem complete_body {s t : ReadState} {m_iPackLen : uint16_t}
    (hlen : s.session.m_iPackLen = m_iPackLen) (hstage : s.stage = .ReadBody)
    (hpending : s.pending = .async_read m_iPackLen.toNat)
    (hread : s.session.m_pReadMsg = some (NetPacket.ofSize m_iPackLen))
    (hstep : step s .complete = some t) :
    m_iPackLen.toNat ≤ s.incoming.length ∧
      t = { s with
        session := { s.session with m_pReadMsg := none },
        stage := .ReadHead,
        pending := .async_write (lengthBytes m_iPackLen.toNat),
        incoming := s.incoming.drop m_iPackLen.toNat,
        reads := s.reads ++ [(.ReadBody, s.incoming.take m_iPackLen.toNat)],
        delivered := s.delivered ++
          [(NetPacket.ofSize m_iPackLen).fillData
            (s.incoming.take m_iPackLen.toNat)] } := by
  simp only [step, hpending] at hstep
  split at hstep
  · cases hstep
  · rename_i hthere
    simp only [handleRead, hstage, hread] at hstep
    cases hstep
    constructor
    · omega
    · rw [← hlen]
      rfl

theorem cycleInv_arrive {entry : Entry} {m_iPackLen : uint16_t} {stream : Bytes}
    {s t : ReadState} (hinv : CycleInv entry m_iPackLen stream s)
    (hstep : step s .arrive = some t) : CycleInv entry m_iPackLen stream t := by
  simp only [step] at hstep
  split at hstep
  · cases hstep
  · rename_i chunk rest hcoming
    cases hstep
    have hstream := hinv.stream
    rw [hcoming, List.flatten_cons] at hstream
    exact
      { len := hinv.len
        pending := hinv.pending
        alternates := hinv.alternates
        sent := hinv.sent
        blocks := hinv.blocks
        given := hinv.given
        stream := by
          rw [← hstream]
          simp [bodies] }

theorem cycleInv_head {entry : Entry} {m_iPackLen : uint16_t} {stream : Bytes}
    {s t : ReadState} (hinv : CycleInv entry m_iPackLen stream s) (hstage : s.stage = .ReadHead)
    (hpending : s.pending = .async_write (lengthBytes m_iPackLen.toNat))
    (hstep : step s .complete = some t) : CycleInv entry m_iPackLen stream t := by
  have halternates := hinv.alternates
  have ht := complete_head hinv.len hstage hpending hstep
  have hheads : heads t = heads s + 1 := by
    rw [ht]
    simp [heads]
  have hbodies : bodies t = bodies s := by
    rw [ht]
    simp [bodies]
  constructor
  case len => rw [ht]; exact hinv.len
  case pending => rw [ht]; exact Or.inr ⟨rfl, rfl, rfl⟩
  case alternates =>
    unfold Alternates at halternates ⊢
    rw [hstage] at halternates
    rw [hheads, hbodies, show t.stage = .ReadBody by rw [ht]]
    cases entry with
    | OnConnect => exact congrArg (· + 1) halternates
    | ConnectServer => exact halternates
  case sent =>
    rw [hheads, List.replicate_succ', List.flatten_append, ← hinv.sent, ht]
    simp
  case blocks => rw [hbodies]; exact hinv.blocks
  case given => rw [hbodies, ht]; exact hinv.given
  case stream => rw [hbodies, ht]; exact hinv.stream

theorem cycleInv_body {entry : Entry} {m_iPackLen : uint16_t} {stream : Bytes}
    {s t : ReadState} (hinv : CycleInv entry m_iPackLen stream s) (hstage : s.stage = .ReadBody)
    (hpending : s.pending = .async_read m_iPackLen.toNat)
    (hread : s.session.m_pReadMsg = some (NetPacket.ofSize m_iPackLen))
    (hstep : step s .complete = some t) : CycleInv entry m_iPackLen stream t := by
  have halternates := hinv.alternates
  rcases complete_body hinv.len hstage hpending hread hstep with ⟨hthere, ht⟩
  have hheads : heads t = heads s := by
    rw [ht]
    simp [heads]
  have hbodies : bodies t = bodies s ++ [s.incoming.take m_iPackLen.toNat] := by
    rw [ht]
    simp [bodies]
  constructor
  case len => rw [ht]; exact hinv.len
  case pending => rw [ht]; exact Or.inl ⟨rfl, rfl⟩
  case alternates =>
    unfold Alternates at halternates ⊢
    rw [hstage] at halternates
    rw [hheads, hbodies, show t.stage = .ReadHead by rw [ht], List.length_append]
    cases entry with
    | OnConnect => exact halternates
    | ConnectServer => exact congrArg (· + 1) halternates
  case sent => rw [hheads, ht]; exact hinv.sent
  case blocks =>
    rw [hbodies]
    intro body hbody
    rcases List.mem_append.mp hbody with hold | hnew
    · exact hinv.blocks body hold
    · rw [List.mem_singleton.mp hnew, List.length_take]
      exact Nat.min_eq_left hthere
  case given =>
    rw [hbodies, ht, List.map_append, ← hinv.given]
    rfl
  case stream =>
    rw [hbodies, ht, List.flatten_append, ← hinv.stream]
    simp

theorem cycleInv_step {entry : Entry} {m_iPackLen : uint16_t} {stream : Bytes}
    {s t : ReadState} {a : ReadAction} (hinv : CycleInv entry m_iPackLen stream s)
    (hstep : step s a = some t) : CycleInv entry m_iPackLen stream t := by
  cases a with
  | arrive => exact cycleInv_arrive hinv hstep
  | complete =>
      rcases hinv.pending with ⟨hstage, hpending⟩ | ⟨hstage, hpending, hread⟩
      · exact cycleInv_head hinv hstage hpending hstep
      · exact cycleInv_body hinv hstage hpending hread hstep

/-- Every run cuts the stream into blocks of `m_iPackLen` bytes and answers each
completed `ReadHead` with two bytes to the peer. -/
theorem cycleInv_run {entry : Entry} {m_iPackLen : uint16_t} {chunks : List Bytes}
    {actions : List ReadAction} {s : ReadState}
    (hrun : Run step (start entry m_iPackLen chunks) actions = some s) :
    CycleInv entry m_iPackLen chunks.flatten s :=
  run_invariant (fun _ _ _ hinv (_ : True) => cycleInv_step hinv)
    (cycleInv_start entry m_iPackLen chunks)
    (allSteps_of_labels (fun _ _ _ => trivial) _) hrun

/-!
# Where it decodes

It writes to the peer as soon as `ReadHead` has completed once.  Only a session
that never gets there is right, and then only about a stream without frames.
-/

theorem lengthBytes_ne_nil (n : Nat) : lengthBytes n ≠ [] := by
  intro h
  cases h

theorem not_decodes_onConnect (m_iPackLen : uint16_t) (payloads : List Bytes) :
    ¬ Decodes .OnConnect m_iPackLen payloads := by
  intro h
  have hso := h [encode payloads] (List.append_nil _) [.complete] _ rfl
  exact lengthBytes_ne_nil _ hso.silent

theorem complete_head_enabled {s : ReadState} {bytes : Bytes}
    (hstage : s.stage = .ReadHead) (hpending : s.pending = .async_write bytes) :
    exists t, step s .complete = some t := by
  simp only [step, hpending, handleRead, hstage]
  exact ⟨_, rfl⟩

theorem complete_body_enabled {s : ReadState} {iLen : Nat} {pReadMsg : NetPacket}
    (hstage : s.stage = .ReadBody) (hpending : s.pending = .async_read iLen)
    (hread : s.session.m_pReadMsg = some pReadMsg)
    (hthere : iLen ≤ s.incoming.length) :
    exists t, step s .complete = some t := by
  have hnot : ¬ s.incoming.length < iLen := by omega
  simp only [step, hpending, if_neg hnot, handleRead, hstage, hread]
  exact ⟨_, rfl⟩

/-- Once the first block is there, the session goes on to write. -/
theorem not_decodes_of_block {m_iPackLen : uint16_t} {payloads : List Bytes}
    (hblock : m_iPackLen.toNat ≤ (encode payloads).length) :
    ¬ Decodes .ConnectServer m_iPackLen payloads := by
  intro h
  have harrive : exists s, step (start .ConnectServer m_iPackLen [encode payloads])
      .arrive = some s ∧ s.session.m_iPackLen = m_iPackLen ∧ s.stage = .ReadBody ∧
        s.pending = .async_read m_iPackLen.toNat ∧
        s.session.m_pReadMsg = some (NetPacket.ofSize m_iPackLen) ∧
        s.incoming = encode payloads :=
    ⟨_, rfl, rfl, rfl, rfl, rfl, rfl⟩
  rcases harrive with ⟨s, hstep, hlen, hstage, hpending, hread, hincoming⟩
  rcases complete_body_enabled hstage hpending hread (by rw [hincoming]; exact hblock)
    with ⟨t, ht⟩
  rcases complete_body hlen hstage hpending hread ht with ⟨_, htEq⟩
  have htstage : t.stage = .ReadHead := by rw [htEq]
  have htpending : t.pending = .async_write (lengthBytes m_iPackLen.toNat) := by rw [htEq]
  have htlen : t.session.m_iPackLen = m_iPackLen := by rw [htEq]; exact hlen
  rcases complete_head_enabled htstage htpending with ⟨u, hu⟩
  have huEq := complete_head htlen htstage htpending hu
  have hrun : Run step (start .ConnectServer m_iPackLen [encode payloads])
      [.arrive, .complete, .complete] = some u := by
    rw [run_cons_of_step _ hstep, run_cons_of_step _ ht, run_cons_of_step _ hu, run_nil]
  have hso := (h [encode payloads] (List.append_nil _) _ u hrun).silent
  rw [huEq] at hso
  exact lengthBytes_ne_nil _ (List.append_eq_nil_iff.mp hso).right

/-- Without the first block nothing is delivered at all. -/
theorem not_decodes_of_short {m_iPackLen : uint16_t} {payloads : List Bytes}
    (hne : payloads ≠ []) (hshort : (encode payloads).length < m_iPackLen.toNat) :
    ¬ Decodes .ConnectServer m_iPackLen payloads := by
  intro h
  have harrive : exists s, step (start .ConnectServer m_iPackLen [encode payloads])
      .arrive = some s ∧ s.coming = [] ∧ s.pending = .async_read m_iPackLen.toNat ∧
        s.incoming = encode payloads ∧ s.delivered = [] :=
    ⟨_, rfl, rfl, rfl, rfl, rfl⟩
  rcases harrive with ⟨s, hstep, hcoming, hpending, hincoming, hdelivered⟩
  have hrun : Run step (start .ConnectServer m_iPackLen [encode payloads]) [.arrive] =
      some s := run_cons_of_step [] hstep
  have hfinished : Finished s := by
    intro a
    cases a with
    | arrive => simp only [step, hcoming]
    | complete => simp only [step, hpending, hincoming, if_pos hshort]
  have hall := ((h [encode payloads] (List.append_nil _) _ s hrun).complete hfinished).right
  rw [hdelivered] at hall
  exact hne (List.map_eq_nil_iff.mp hall.symm)

/-- A session waiting for its first block on an empty stream keeps waiting. -/
theorem decodes_nothing {m_iPackLen : uint16_t} (hlen : m_iPackLen ≠ 0) :
    Decodes .ConnectServer m_iPackLen [] := by
  intro chunks hchunks actions s hrun
  have hinv := cycleInv_run hrun
  have hpos : 0 < m_iPackLen.toNat := by
    apply Nat.pos_of_ne_zero
    intro hzero
    exact hlen (BitVec.eq_of_toNat_eq hzero)
  have hstream : (bodies s).flatten = [] := by
    have hall := hinv.stream
    rw [hchunks, List.append_assoc] at hall
    exact (List.append_eq_nil_iff.mp hall).left
  have hbodies : bodies s = [] := by
    cases hlist : bodies s with
    | nil => rfl
    | cons body rest =>
        rw [hlist] at hstream
        have hbody : body = [] := (List.append_eq_nil_iff.mp hstream).left
        have hlength := hinv.blocks body (by rw [hlist]; exact List.mem_cons_self)
        rw [hbody] at hlength
        exact absurd hlength (Nat.ne_of_lt hpos)
  have halternates := hinv.alternates
  unfold Alternates at halternates
  have hheads : heads s = 0 := by
    cases hstage : s.stage with
    | ReadHead =>
        rw [hstage, hbodies] at halternates
        cases halternates
    | ReadBody =>
        rw [hstage, hbodies] at halternates
        exact halternates.symm
  have hreads : s.reads = [] := by
    cases hlist : s.reads with
    | nil => rfl
    | cons first rest =>
        rcases first with ⟨stage, data⟩
        cases stage with
        | ReadHead => simp [heads, hlist] at hheads
        | ReadBody => simp [bodies, hlist] at hbodies
  have hdelivered : s.delivered = [] := by
    rw [hinv.given, hbodies]
    rfl
  exact
    { silent := by rw [hinv.sent, hheads]; rfl
      reads := by rw [hreads]; exact List.nil_prefix
      delivered := by rw [hdelivered]; exact List.nil_prefix
      complete := fun _ => ⟨hreads, hdelivered⟩ }

/-- The receive path decodes only for a client that is sent no frame and whose
`m_iPackLen` happens not to be zero. -/
theorem decodes_iff (entry : Entry) (m_iPackLen : uint16_t) (payloads : List Payload) :
    Decodes entry m_iPackLen (payloads.map Payload.bytes) <->
      entry = .ConnectServer ∧ m_iPackLen ≠ 0 ∧ payloads = [] := by
  constructor
  · intro h
    cases entry with
    | OnConnect => exact absurd h (not_decodes_onConnect _ _)
    | ConnectServer =>
        have hshort : (encode (payloads.map Payload.bytes)).length < m_iPackLen.toNat := by
          by_contra hblock
          exact not_decodes_of_block (by omega) h
        refine ⟨rfl, ?_, ?_⟩
        · intro hzero
          rw [hzero] at hshort
          exact absurd hshort (Nat.not_lt_zero _)
        · by_contra hne
          exact not_decodes_of_short (fun hnil => hne (List.map_eq_nil_iff.mp hnil))
            hshort h
  · intro ⟨hentry, hlen, hnil⟩
    rw [hentry, hnil]
    exact decodes_nothing hlen

/-- A server sends the peer two bytes before it has read any. -/
theorem onConnect_writes_first : ¬ Decodes .OnConnect 7 [[65]] := by
  intro h
  have hso := h [frame [65]] rfl [.complete] _ rfl
  exact absurd hso.silent (by decide)

end ReadCycle
end BoostNet
end GMServer
