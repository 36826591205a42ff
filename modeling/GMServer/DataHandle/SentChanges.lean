import GMServer.DataHandle.BatchRuns
import GMServer.DataHandle.StructRegistry

/-!
# Changes that are sent

`PubAndSet` hands the commands of a batch to Redis and then clears the buffer.  What Redis
replies is printed and thrown away by `RedisWrap`, so that it is the sending and not the
reply that takes a change out of the buffer.
-/

namespace GMServer
namespace DataHandle

namespace RedisWrap

section

variable {world : Type}

/-- What comes back for command strings that are executed one after the other. -/
def replies (server : RedisServer world) (state : world) : List Text -> List (Text × Option Reply)
  | [] => []
  | strCmd :: rest =>
      match DoCmd server state strCmd with
      | none => []
      | some result => (strCmd, result.2) :: replies server result.1 rest

theorem mem_replies {server : RedisServer world} {state next : world} {commands : List Text}
    (h : executeAll server state commands = some next) {strCmd : Text}
    (hcommand : strCmd ∈ commands) :
    exists reply, (strCmd, reply) ∈ replies server state commands := by
  induction commands generalizing state with
  | nil => cases hcommand
  | cons first rest ih =>
      unfold executeAll Execute at h
      unfold replies
      cases hresult : DoCmd server state first with
      | none =>
          rw [hresult] at h
          cases h
      | some result =>
          rw [hresult] at h
          dsimp only
          rcases List.mem_cons.mp hcommand with hfirst | hrest
          · rw [hfirst]
            exact ⟨result.2, List.mem_cons_self⟩
          · rcases ih h hrest with ⟨reply, hreply⟩
            exact ⟨reply, List.mem_cons_of_mem _ hreply⟩

end

end RedisWrap

/-!
# Runs

`changes` are all changes that were set, and `sent` all commands that were executed, each
with the number of changes set before it.
-/

namespace SentChanges

structure Sent where
  count : Nat
  strCmd : Text
  reply : Option Reply

structure State (pointer world : Type) where
  state : world
  adapter : RedisAdapter pointer
  changes : List Change
  sent : List Sent

inductive Action where
  | SetValue (iKey : uint64_t) (iKeyField : uint32_t) (strValue : Text)
  | SetIndexValue (iKey iIndex : uint64_t) (iKeyField : uint32_t) (strValue : Text)
  | PubAndSet

section

variable {pointer world : Type}

def start (state : world) : State pointer world :=
  { state := state, adapter := RedisAdapter.empty, changes := [], sent := [] }

def step (server : RedisServer world) (mgr : KeyFieldMgr) (s : State pointer world) :
    Action -> Option (State pointer world)
  | .SetValue iKey iKeyField strValue =>
      some
        { s with
          adapter := s.adapter.SetValue iKey iKeyField strValue,
          changes := s.changes ++
            [{ i64Key := iKey, iIndex := 0, iKeyField := iKeyField, strValue := strValue }] }
  | .SetIndexValue iKey iIndex iKeyField strValue =>
      some
        { s with
          adapter := s.adapter.SetIndexValue iKey iIndex iKeyField strValue,
          changes := s.changes ++
            [{ i64Key := iKey, iIndex := 0, iKeyField := iKeyField, strValue := strValue }] }
  | .PubAndSet =>
      (s.adapter.PubAndSet server mgr s.state).map (fun result =>
        { s with
          state := result.1,
          adapter := result.2.2,
          sent := s.sent ++
            (RedisWrap.replies server s.state
              (RedisBuffer.Batch mgr s.adapter.m_Buffer).1.commands).map (fun it =>
                { count := s.changes.length, strCmd := it.1, reply := it.2 }) })

/-- The command sets the field of the change to its text, in the hash of its key. -/
def Carries (mgr : KeyFieldMgr) (change : Change) (strCmd : Text) : Prop :=
  mgr.Registered change.iKeyField ∧
    exists pairs : List (Text × Text),
      strCmd = HashWrite.text
        { hash := RedisBuffer.hashName (mgr.keyName change.iKeyField) change.i64Key change.iIndex,
          pairs := pairs } ∧
      (mgr.fieldName change.iKeyField, change.strValue) ∈ pairs

/-- A command with a good reply was executed after the change was set, and carries it or a
later change of the same field. -/
def Delivered (mgr : KeyFieldMgr) (good : Option Reply -> Prop) (sent : List Sent)
    (earlier : List Change) (change : Change) (later : List Change) : Prop :=
  exists it kept, it ∈ sent ∧ good it.reply ∧ earlier.length < it.count ∧
    kept ∈ change :: later ∧ kept.address = change.address ∧ Carries mgr kept it.strCmd

/-- Of every change that was set, the buffer still has the text of its field, or it has been
delivered. -/
def Kept (mgr : KeyFieldMgr) (good : Option Reply -> Prop) (s : State pointer world) : Prop :=
  forall earlier change later, s.changes = earlier ++ change :: later ->
    s.adapter.m_Buffer.valueAt change.address ≠ none ∨
      Delivered mgr good s.sent earlier change later

def Acknowledged (reply : Option Reply) : Prop :=
  match reply with
  | none => False
  | some .error => False
  | some _ => True

/-!
# What leaves the buffer

The changes fall into those that were set before the buffer was cleared last, which have been
delivered, and those that have gathered in it since.
-/

/-- A reply of any kind, or none. -/
def Handed (_reply : Option Reply) : Prop := True

structure Divided (mgr : KeyFieldMgr) (s : State pointer world) (before pending : List Change) :
    Prop where
  changes : s.changes = before ++ pending
  gathered : s.adapter.m_Buffer = buffered pending
  delivered : forall earlier change later, s.changes = earlier ++ change :: later ->
    earlier.length < before.length -> Delivered mgr Handed s.sent earlier change later

def Inv (mgr : KeyFieldMgr) (s : State pointer world) : Prop :=
  exists before pending, Divided mgr s before pending

theorem inv_start (mgr : KeyFieldMgr) (state : world) :
    Inv mgr (start state : State pointer world) :=
  ⟨[], [],
    { changes := rfl,
      gathered := rfl,
      delivered := fun _ _ _ _ hlt => absurd hlt (Nat.not_lt_zero _) }⟩

theorem Delivered.mono {mgr : KeyFieldMgr} {good : Option Reply -> Prop} {sent : List Sent}
    {earlier : List Change} {change : Change} {later : List Change}
    (h : Delivered mgr good sent earlier change later) (more : List Sent) (added : List Change) :
    Delivered mgr good (sent ++ more) earlier change (later ++ added) := by
  rcases h with ⟨it, kept, hsent, hgood, hcount, hkept, hcarries⟩
  refine ⟨it, kept, List.mem_append_left _ hsent, hgood, hcount, ?_, hcarries⟩
  rw [← List.cons_append]
  exact List.mem_append_left _ hkept

/-- What a split of the changes is, if it lies in the changes that still wait. -/
theorem split_pending {before pending earlier : List Change} {change : Change}
    {later : List Change} (h : before ++ pending = earlier ++ change :: later)
    (hle : before.length ≤ earlier.length) :
    exists between, pending = between ++ change :: later := by
  rcases List.append_eq_append_iff.mp h with ⟨between, _, hpending⟩ | ⟨between, hbefore, hrest⟩
  · exact ⟨between, hpending⟩
  · have hnil : between = [] := by
      have hlength := congrArg List.length hbefore
      rw [List.length_append] at hlength
      exact List.eq_nil_of_length_eq_zero (by omega)
    rw [hnil] at hrest
    exact ⟨[], hrest.symm⟩

theorem kept_of_inv {mgr : KeyFieldMgr} {s : State pointer world} (hinv : Inv mgr s) :
    Kept mgr Handed s := by
  rcases hinv with ⟨before, pending, hdivided⟩
  intro earlier change later hsplit
  by_cases hlt : earlier.length < before.length
  · exact Or.inr (hdivided.delivered earlier change later hsplit hlt)
  · left
    rcases split_pending (hdivided.changes.symm.trans hsplit) (Nat.le_of_not_lt hlt) with
      ⟨between, hpending⟩
    rw [hdivided.gathered]
    apply valueAt_of_mem
    rw [hpending]
    exact List.mem_append_right _ List.mem_cons_self

theorem divided_setValue {mgr : KeyFieldMgr} {s t : State pointer world}
    {before pending : List Change} (hdivided : Divided mgr s before pending) {change : Change}
    (hchanges : t.changes = s.changes ++ [change]) (hsent : t.sent = s.sent)
    (hbuffer : t.adapter.m_Buffer = s.adapter.m_Buffer.AddValueChange change.i64Key
      change.iIndex change.iKeyField change.strValue) :
    Divided mgr t before (pending ++ [change]) := by
  constructor
  · rw [hchanges, hdivided.changes, List.append_assoc]
  · rw [hbuffer, hdivided.gathered, buffered_append]
  · intro earlier other later hsplit hlt
    rw [hchanges] at hsplit
    rcases List.eq_nil_or_concat' later with hnil | ⟨init, last, hconcat⟩
    · rw [hnil] at hsplit
      have hsame := (List.append_inj' hsplit rfl).left
      rw [← hsame, hdivided.changes, List.length_append] at hlt
      omega
    · rw [hconcat, ← List.cons_append, ← List.append_assoc] at hsplit
      rcases List.append_inj' hsplit rfl with ⟨hearlier, _⟩
      rw [hsent, hconcat]
      have hdelivered := (hdivided.delivered earlier other init hearlier hlt).mono [] [last]
      rw [List.append_nil] at hdelivered
      exact hdelivered

theorem carries_of_flush {mgr : KeyFieldMgr} {pending : List Change} {flush : Flush}
    (hflush : flush ∈ (buffered pending).flushes) (hregistered : flush.Registered mgr)
    {kept : Change} (hcell : kept.cell ∈ flush.cells) :
    Carries mgr kept (flush.hashWrite mgr).text := by
  rcases List.mem_map.mp hcell with ⟨field, hfield, hEq⟩
  have haddress : flush.address field.1 = kept.address := congrArg Prod.fst hEq
  have hvalue : field.2 = kept.strValue := congrArg Prod.snd hEq
  have hkeyField : field.1 = kept.iKeyField := congrArg Address.iKeyField haddress
  have hplace : kept.address.place = flush.place := by
    rw [← haddress]
    exact place_address hflush hfield
  have hname : mgr.keyName kept.iKeyField = mgr.keyName flush.place.iKey := by
    rw [← hplace, ← mgr.keyName_keyOf]
    rfl
  have hfirst : kept.i64Key = flush.place.iFirstKey := congrArg Place.iFirstKey hplace
  have hsecond : kept.iIndex = flush.place.iSecondKey := congrArg Place.iSecondKey hplace
  constructor
  · rw [← hkeyField]
    exact (RedisBuffer.registered_iff hflush mgr).mp hregistered field hfield
  · refine ⟨(flush.hashWrite mgr).pairs, ?_, ?_⟩
    · rw [hname, hfirst, hsecond]
      rfl
    · rw [← hkeyField, ← hvalue]
      exact List.mem_map.mpr ⟨field, hfield, rfl⟩

/-- The batch that clears the buffer has a command for every change in it. -/
theorem command_of_pending {mgr : KeyFieldMgr} {pending : List Change}
    (hall : forall flush, flush ∈ (buffered pending).flushes -> flush.Registered mgr)
    {between : List Change} {change : Change} {later : List Change}
    (hpending : pending = between ++ change :: later) :
    exists strCmd kept, strCmd ∈ (RedisBuffer.Batch mgr (buffered pending)).1.commands ∧
      kept ∈ change :: later ∧ kept.address = change.address ∧ Carries mgr kept strCmd := by
  have hmem : change ∈ pending := by
    rw [hpending]
    exact List.mem_append_right _ List.mem_cons_self
  rcases Option.ne_none_iff_exists'.mp (valueAt_of_mem hmem) with ⟨strValue, hvalue⟩
  rcases List.mem_flatMap.mp (mem_cells_buffered.mpr hvalue) with ⟨flush, hflush, hcell⟩
  rw [valueAt_buffered, hpending, List.map_append, Replay.replay_append,
    Replay.replay_eq_some_iff, List.map_cons] at hvalue
  have hlast : Replay.WrittenLast (change.cell :: later.map Change.cell) change.address
      strValue := by
    rcases hvalue with h | ⟨hnot, _⟩
    · exact h
    · rw [List.map_cons] at hnot
      exact absurd List.mem_cons_self hnot
  rcases hlast with ⟨first, rest, hwrites, _⟩
  have hthere : (change.address, strValue) ∈ (change :: later).map Change.cell := by
    rw [List.map_cons, hwrites]
    exact List.mem_append_right _ List.mem_cons_self
  rcases List.mem_map.mp hthere with ⟨kept, hkept, hEq⟩
  refine ⟨(flush.hashWrite mgr).text, kept, ?_, hkept, congrArg Prod.fst hEq, ?_⟩
  · rw [RedisBuffer.Batch_issued, if_pos hall]
    exact List.mem_flatMap.mpr ⟨flush, hflush, List.mem_cons_self⟩
  · apply carries_of_flush hflush (hall flush hflush)
    rw [hEq]
    exact hcell

theorem divided_pubAndSet {server : RedisServer world} {mgr : KeyFieldMgr}
    {s t : State pointer world} {before pending : List Change}
    (hdivided : Divided mgr s before pending) (hstep : step server mgr s .PubAndSet = some t) :
    Inv mgr t := by
  rcases Option.map_eq_some_iff.mp hstep with ⟨result, hresult, hEq⟩
  rcases Option.map_eq_some_iff.mp hresult with ⟨next, hnext, hrest⟩
  have holder : forall earlier change later, s.changes = earlier ++ change :: later ->
      earlier.length < before.length -> Delivered mgr Handed t.sent earlier change later := by
    intro earlier change later hsplit hlt
    have hdelivered := (hdivided.delivered earlier change later hsplit hlt).mono
      ((RedisWrap.replies server s.state
        (RedisBuffer.Batch mgr s.adapter.m_Buffer).1.commands).map (fun it =>
          { count := s.changes.length, strCmd := it.1, reply := it.2 })) []
    rw [List.append_nil] at hdelivered
    rw [← hEq]
    exact hdelivered
  have hbuffer : t.adapter.m_Buffer = (RedisBuffer.Batch mgr s.adapter.m_Buffer).2 := by
    rw [← hEq, ← hrest]
  have hchanges : t.changes = s.changes := by
    rw [← hEq]
  by_cases hall : forall flush, flush ∈ (buffered pending).flushes -> flush.Registered mgr
  · refine ⟨s.changes, [], ?_⟩
    constructor
    · rw [hchanges, List.append_nil]
    · rw [hbuffer, hdivided.gathered, RedisBuffer.Batch_issued, if_pos hall]
      rfl
    · intro earlier change later hsplit _
      rw [hchanges] at hsplit
      by_cases hlt : earlier.length < before.length
      · exact holder earlier change later hsplit hlt
      · rcases split_pending (hdivided.changes.symm.trans hsplit) (Nat.le_of_not_lt hlt) with
          ⟨between, hpending⟩
        rcases command_of_pending hall hpending with ⟨strCmd, kept, hcommand, hkept⟩
        rw [← hdivided.gathered] at hcommand
        rcases RedisWrap.mem_replies hnext hcommand with ⟨reply, hreply⟩
        refine ⟨{ count := s.changes.length, strCmd := strCmd, reply := reply }, kept, ?_, trivial,
          ?_, hkept⟩
        · rw [← hEq]
          exact List.mem_append_right _ (List.mem_map.mpr ⟨(strCmd, reply), hreply, rfl⟩)
        · rw [hsplit, List.length_append, List.length_cons]
          exact Nat.lt_add_of_pos_right (Nat.succ_pos _)
  · refine ⟨before, pending, ?_⟩
    constructor
    · rw [hchanges, hdivided.changes]
    · rw [hbuffer, hdivided.gathered, RedisBuffer.Batch_issued, if_neg hall]
    · intro earlier change later hsplit hlt
      rw [hchanges] at hsplit
      exact holder earlier change later hsplit hlt

theorem step_inv {server : RedisServer world} {mgr : KeyFieldMgr} {s t : State pointer world}
    {action : Action} (hinv : Inv mgr s) (hstep : step server mgr s action = some t) :
    Inv mgr t := by
  rcases hinv with ⟨before, pending, hdivided⟩
  cases action with
  | SetValue iKey iKeyField strValue =>
      cases hstep
      exact ⟨_, _, divided_setValue hdivided rfl rfl rfl⟩
  | SetIndexValue iKey iIndex iKeyField strValue =>
      cases hstep
      exact ⟨_, _, divided_setValue hdivided rfl rfl rfl⟩
  | PubAndSet => exact divided_pubAndSet hdivided hstep

/-- Whatever Redis replies, a change only leaves the buffer in a command that carries it or a
later change of the same field. -/
theorem changes_sent (server : RedisServer world) (mgr : KeyFieldMgr) (state : world)
    (labels : List Action) :
    Transition.AllStates (step server mgr) (Kept mgr Handed)
      (start state : State pointer world) labels := by
  have halways : Transition.AllSteps (step server mgr) (fun _ _ => True)
      (start state : State pointer world) labels :=
    Transition.allSteps_of_labels (fun _ _ _ => trivial) _
  exact Transition.allStates_of_invariant (fun _ _ _ hinv _ hstep => step_inv hinv hstep)
    (fun _ hinv => kept_of_inv hinv) (inv_start mgr state) halways

end

/-- A connection that is lost. -/
def silentServer : RedisServer Unit := fun state _ => (state, none)

theorem replies_silentServer {commands : List Text} {it : Text × Option Reply}
    (h : it ∈ RedisWrap.replies silentServer () commands) : it.2 = none := by
  induction commands with
  | nil => cases h
  | cons strCmd rest ih =>
      unfold RedisWrap.replies RedisWrap.DoCmd at h
      cases hformat : redisvFormatCommand strCmd with
      | none =>
          rw [hformat] at h
          cases h
      | some argv =>
          rw [hformat] at h
          rcases List.mem_cons.mp h with hfirst | hrest
          · rw [hfirst]
            rfl
          · exact ih hrest

def oneRename : List Action := [.SetValue 5 0x101 "\"ab\"".toList, .PubAndSet]

/-- The change is gone although no command was answered. -/
theorem unanswered_change_lost :
    ¬ Transition.AllStates (step silentServer nameOnlyMgr) (Kept nameOnlyMgr Acknowledged)
      (start () : State Unit Unit) oneRename := by
  intro h
  have hlast := (h.right _ rfl).right _ rfl
  rcases hlast [] _ [] rfl with hwaits | ⟨it, kept, hsent, hreply, _⟩
  · exact hwaits (by decide)
  · rcases List.mem_append.mp hsent with hnone | hreplies
    · cases hnone
    · rcases List.mem_map.mp hreplies with ⟨answer, hanswer, hEq⟩
      rw [← hEq, replies_silentServer hanswer] at hreply
      exact hreply

end SentChanges

end DataHandle
end GMServer
