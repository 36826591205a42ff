import GMServer.LibActor.Routing

/-!
# One message to many addresses

The overload of `SendMsg` for a list serves the local addresses as it meets them and
hands the others to the end point together.  Apart from that it does what one call
for each address does.
-/

namespace GMServer
namespace LibActor
namespace MessageState

variable {Actor Message : Type}

/-- A call of `SendMsg` for each address, one after the other. -/
def sendEach (s : MessageState Actor Message) (pMsg : Option Message) :
    List Address -> Except Fault (MessageState Actor Message)
  | [] => .ok s
  | adress :: rest =>
      match s.SendMsg pMsg adress with
      | .error fault => .error fault
      | .ok (t, _) => sendEach t pMsg rest

def remoteOf (s : MessageState Actor Message) (listAdress : List Address) : List Address :=
  listAdress.filter (fun adress => adress.mProcess ≠ s.framework.m_Address.mProcess)

/-!
# What is to agree
-/

structure SameQueues (s t : MessageState Actor Message) : Prop where
  framework : s.framework = t.framework
  m_listRecive : s.m_listRecive = t.m_listRecive
  m_listWaite : s.m_listWaite = t.m_listWaite

/-- The calls of the end point after the addresses have been handed to it in one, or
after none if there are no addresses. -/
def handed (s : MessageState Actor Message) (pMsg : Option Message)
    (listEndPoint : List Address) : Option (List (EndPointCall Message)) :=
  if listEndPoint = [] then s.m_pEndPoint
  else s.m_pEndPoint.map (fun calls => calls ++ [.list pMsg listEndPoint])

/-- Both come back and leave the same queues, or neither does. -/
def MulticastAgrees (s : MessageState Actor Message) (pMsg : Option Message)
    (listAdress : List Address) : Prop :=
  match s.SendMsgList pMsg listAdress, s.sendEach pMsg listAdress with
  | .ok (t, bResult), .ok u =>
      bResult = true ∧ SameQueues t u ∧ t.m_pEndPoint = s.handed pMsg (s.remoteOf listAdress)
  | .error _, .error _ => True
  | _, _ => False

/-!
# One local address

Both paths do the same for it, and nothing they do depends on the end point.
-/

def sendLocal (s : MessageState Actor Message) (pMsg : Option Message) (adress : Address) :
    Except Fault (MessageState Actor Message) :=
  if adress.m_Index = 0 then .ok (s.SystemMsg pMsg).1
  else (s.SendInternal pMsg adress).map Prod.fst

def withEndPoint (s : MessageState Actor Message)
    (m_pEndPoint : Option (List (EndPointCall Message))) : MessageState Actor Message :=
  { s with m_pEndPoint := m_pEndPoint }

@[simp] theorem withEndPoint_framework (s : MessageState Actor Message)
    (m_pEndPoint : Option (List (EndPointCall Message))) :
    (s.withEndPoint m_pEndPoint).framework = s.framework := rfl

theorem sendMsg_local {s : MessageState Actor Message} {adress : Address}
    (hhome : adress.mProcess = s.framework.m_Address.mProcess) (pMsg : Option Message) :
    s.SendMsg pMsg adress = (s.sendLocal pMsg adress).map (fun t => (t, true)) := by
  unfold SendMsg sendLocal
  rw [if_pos hhome]
  by_cases hzero : adress.m_Index = 0
  · rw [if_pos hzero, if_pos hzero]
    rfl
  · rw [if_neg hzero, if_neg hzero]
    cases s.SendInternal pMsg adress with
    | error fault => rfl
    | ok sent => rfl

theorem sendLoop_local {s : MessageState Actor Message} {adress : Address}
    (hhome : adress.mProcess = s.framework.m_Address.mProcess) (pMsg : Option Message)
    (listEndPoint rest : List Address) :
    s.sendLoop pMsg listEndPoint (adress :: rest) =
      match s.sendLocal pMsg adress with
      | .error fault => .error fault
      | .ok t => t.sendLoop pMsg listEndPoint rest := by
  rw [sendLoop]
  unfold sendLocal
  rw [if_pos hhome]
  by_cases hzero : adress.m_Index = 0
  · rw [if_pos hzero, if_pos hzero]
  · rw [if_neg hzero, if_neg hzero]
    cases s.SendInternal pMsg adress with
    | error fault => rfl
    | ok sent => rfl

theorem sendLoop_remote {s : MessageState Actor Message} {adress : Address}
    (haway : adress.mProcess ≠ s.framework.m_Address.mProcess) (pMsg : Option Message)
    (listEndPoint rest : List Address) :
    s.sendLoop pMsg listEndPoint (adress :: rest) =
      s.sendLoop pMsg (listEndPoint ++ [adress]) rest := by
  rw [sendLoop, if_neg haway]

theorem sendLocal_frame {s t : MessageState Actor Message} {pMsg : Option Message}
    {adress : Address} (hsent : s.sendLocal pMsg adress = .ok t) : PushFrame s t := by
  unfold sendLocal at hsent
  split at hsent
  · cases hsent
    exact (PushFrame.refl s).congr rfl rfl
  · unfold SendInternal at hsent
    split at hsent
    · cases hsent
    · cases hpush : s.pushMsg adress.entryIndex pMsg with
      | error fault =>
          rw [hpush] at hsent
          cases hsent
      | ok sent =>
          rw [hpush] at hsent
          cases hsent
          exact (pushMsg_spec hpush).left

theorem schedule_withEndPoint (s : MessageState Actor Message)
    (m_pEndPoint : Option (List (EndPointCall Message))) (m_pScheduler : Option Nat)
    (index : uint32_t) :
    (s.withEndPoint m_pEndPoint).schedule m_pScheduler index =
      (s.schedule m_pScheduler index).withEndPoint m_pEndPoint := by
  cases m_pScheduler with
  | none => rfl
  | some pScheduler => rfl

theorem pushMsg_withEndPoint (s : MessageState Actor Message)
    (m_pEndPoint : Option (List (EndPointCall Message))) (index : uint32_t)
    (pMsg : Option Message) :
    (s.withEndPoint m_pEndPoint).pushMsg index pMsg =
      (s.pushMsg index pMsg).map (fun sent => (sent.1.withEndPoint m_pEndPoint, sent.2)) := by
  unfold pushMsg
  rw [withEndPoint_framework]
  cases s.framework.m_MailBoxes.GetEntry index with
  | error fault => rfl
  | ok box =>
      dsimp only
      cases box.PushMsg pMsg with
      | error fault => rfl
      | ok out =>
          dsimp only
          cases out.scheduled with
          | false => rfl
          | true =>
              rw [if_pos rfl, if_pos rfl]
              show Except.ok (((s.setBox index out.box).withEndPoint m_pEndPoint).schedule
                box.m_pScheduler index, out.accepted) = _
              rw [schedule_withEndPoint]
              rfl

theorem sendLocal_withEndPoint (s : MessageState Actor Message)
    (m_pEndPoint : Option (List (EndPointCall Message))) (pMsg : Option Message)
    (adress : Address) :
    (s.withEndPoint m_pEndPoint).sendLocal pMsg adress =
      (s.sendLocal pMsg adress).map (fun t => t.withEndPoint m_pEndPoint) := by
  unfold sendLocal
  by_cases hzero : adress.m_Index = 0
  · rw [if_pos hzero, if_pos hzero]
    rfl
  · rw [if_neg hzero, if_neg hzero]
    unfold SendInternal
    rw [withEndPoint_framework]
    by_cases hhome : s.framework.m_Address.mProcess ≠ adress.mProcess
    · rw [if_pos hhome, if_pos hhome]
      rfl
    · rw [if_neg hhome, if_neg hhome, pushMsg_withEndPoint]
      cases s.pushMsg adress.entryIndex pMsg with
      | error fault => rfl
      | ok sent => rfl

/-!
# The loops
-/

theorem remoteOf_cons (s : MessageState Actor Message) (adress : Address)
    (rest : List Address) :
    s.remoteOf (adress :: rest) =
      if adress.mProcess = s.framework.m_Address.mProcess then s.remoteOf rest
      else adress :: s.remoteOf rest := by
  unfold remoteOf
  rw [List.filter_cons]
  by_cases hhome : adress.mProcess = s.framework.m_Address.mProcess
  · rw [if_pos hhome, if_neg (by rw [decide_eq_true_eq]; exact fun h => h hhome)]
  · rw [if_neg hhome, if_pos (decide_eq_true hhome)]

theorem remoteOf_address {s t : MessageState Actor Message}
    (haddress : t.framework.m_Address = s.framework.m_Address) (listAdress : List Address) :
    t.remoteOf listAdress = s.remoteOf listAdress := by
  unfold remoteOf
  rw [haddress]

theorem sendLoop_collects {s t : MessageState Actor Message} {pMsg : Option Message}
    {listEndPoint listAdress collected : List Address}
    (hloop : s.sendLoop pMsg listEndPoint listAdress = .ok (t, collected)) :
    collected = listEndPoint ++ s.remoteOf listAdress ∧ PushFrame s t := by
  induction listAdress generalizing s listEndPoint with
  | nil =>
      cases hloop
      exact ⟨(List.append_nil _).symm, PushFrame.refl _⟩
  | cons adress rest ih =>
      rw [remoteOf_cons]
      by_cases hhome : adress.mProcess = s.framework.m_Address.mProcess
      · rw [sendLoop_local hhome] at hloop
        cases hsent : s.sendLocal pMsg adress with
        | error fault =>
            rw [hsent] at hloop
            cases hloop
        | ok next =>
            rw [hsent] at hloop
            have hframe := sendLocal_frame hsent
            rcases ih hloop with ⟨hcollected, hkept⟩
            rw [if_pos hhome, hcollected, remoteOf_address hframe.address]
            exact ⟨rfl, hframe.trans hkept⟩
      · rw [sendLoop_remote hhome] at hloop
        rcases ih hloop with ⟨hcollected, hkept⟩
        rw [if_neg hhome, hcollected, List.append_assoc]
        exact ⟨rfl, hkept⟩

/-- With an end point, single calls hand it the same addresses one by one. -/
theorem sendEach_endPoint (s : MessageState Actor Message) (pMsg : Option Message)
    (calls : List (EndPointCall Message)) (listEndPoint listAdress : List Address) :
    (s.withEndPoint (some calls)).sendEach pMsg listAdress =
      (s.sendLoop pMsg listEndPoint listAdress).map (fun sent =>
        sent.1.withEndPoint
          (some (calls ++ (s.remoteOf listAdress).map (EndPointCall.single pMsg)))) := by
  induction listAdress generalizing s calls listEndPoint with
  | nil =>
      rw [show s.remoteOf [] = [] from rfl, List.map_nil, List.append_nil]
      rfl
  | cons adress rest ih =>
      rw [remoteOf_cons, sendEach]
      by_cases hhome : adress.mProcess = s.framework.m_Address.mProcess
      · rw [sendMsg_local (s := s.withEndPoint (some calls)) hhome, sendLocal_withEndPoint,
          sendLoop_local hhome, if_pos hhome]
        cases hsent : s.sendLocal pMsg adress with
        | error fault => rfl
        | ok next =>
            show (next.withEndPoint (some calls)).sendEach pMsg rest = _
            rw [ih next calls listEndPoint,
              remoteOf_address (sendLocal_frame hsent).address]
      · rw [sendMsg_remote (s := s.withEndPoint (some calls)) hhome,
          sendLoop_remote hhome, if_neg hhome]
        show (s.withEndPoint (some (calls ++ [.single pMsg adress]))).sendEach pMsg rest = _
        rw [ih s (calls ++ [EndPointCall.single pMsg adress]) (listEndPoint ++ [adress]),
          List.map_cons, List.append_assoc]
        rfl

/-- Without one, single calls come as far as the first address of another process. -/
theorem sendEach_null {s : MessageState Actor Message} (hnull : s.m_pEndPoint = none)
    (pMsg : Option Message) (listEndPoint listAdress : List Address) :
    s.remoteOf listAdress = [] ∧
        s.sendEach pMsg listAdress =
          (s.sendLoop pMsg listEndPoint listAdress).map Prod.fst ∨
      s.remoteOf listAdress ≠ [] ∧ exists fault, s.sendEach pMsg listAdress = .error fault := by
  induction listAdress generalizing s with
  | nil => exact Or.inl ⟨rfl, rfl⟩
  | cons adress rest ih =>
      rw [remoteOf_cons, sendEach]
      by_cases hhome : adress.mProcess = s.framework.m_Address.mProcess
      · rw [sendMsg_local hhome, sendLoop_local hhome, if_pos hhome]
        cases hsent : s.sendLocal pMsg adress with
        | error fault =>
            by_cases hremote : s.remoteOf rest = []
            · exact Or.inl ⟨hremote, rfl⟩
            · exact Or.inr ⟨hremote, fault, rfl⟩
        | ok next =>
            have hframe := sendLocal_frame hsent
            rw [← remoteOf_address hframe.address]
            exact ih (hframe.endPoint.trans hnull)
      · rw [sendMsg_remote hhome, if_neg hhome]
        unfold SendEndPoint
        rw [hnull]
        exact Or.inr ⟨List.cons_ne_nil _ _, .nullPointer, rfl⟩

/-!
# The two functions
-/

/-- What comes after the loop hands the collected addresses over. -/
theorem sendMsgList_eq (s : MessageState Actor Message) (pMsg : Option Message)
    (listAdress : List Address) :
    s.SendMsgList pMsg listAdress =
      match s.sendLoop pMsg [] listAdress with
      | .error fault => .error fault
      | .ok (sent, _) =>
          if s.remoteOf listAdress = [] then .ok (sent, true)
          else sent.SendEndPoint (.list pMsg (s.remoteOf listAdress)) := by
  unfold SendMsgList
  cases hloop : s.sendLoop pMsg [] listAdress with
  | error fault => rfl
  | ok out =>
      rcases out with ⟨sent, collected⟩
      have hcollected := (sendLoop_collects hloop).left
      rw [List.nil_append] at hcollected
      rw [hcollected]

theorem multicastAgrees_all (s : MessageState Actor Message) (pMsg : Option Message)
    (listAdress : List Address) : MulticastAgrees s pMsg listAdress := by
  unfold MulticastAgrees
  rw [sendMsgList_eq]
  cases hend : s.m_pEndPoint with
  | some calls =>
      have heach := sendEach_endPoint s pMsg calls [] listAdress
      rw [← hend, show s.withEndPoint s.m_pEndPoint = s from rfl] at heach
      rw [heach]
      cases hloop : s.sendLoop pMsg [] listAdress with
      | error fault => trivial
      | ok out =>
          rcases out with ⟨sent, collected⟩
          have hkept := (sendLoop_collects hloop).right.endPoint
          dsimp only
          unfold handed
          by_cases hremote : s.remoteOf listAdress = []
          · rw [if_pos hremote, if_pos hremote]
            exact ⟨rfl, ⟨rfl, rfl, rfl⟩, hkept⟩
          · rw [if_neg hremote, if_neg hremote]
            unfold SendEndPoint
            rw [hkept, hend]
            exact ⟨rfl, ⟨rfl, rfl, rfl⟩, rfl⟩
  | none =>
      rcases sendEach_null hend pMsg [] listAdress with
        ⟨hremote, heach⟩ | ⟨hremote, fault, heach⟩
      · rw [heach]
        cases hloop : s.sendLoop pMsg [] listAdress with
        | error fault => trivial
        | ok out =>
            rcases out with ⟨sent, collected⟩
            have hkept := (sendLoop_collects hloop).right.endPoint
            dsimp only
            unfold handed
            rw [if_pos hremote, if_pos hremote]
            exact ⟨rfl, ⟨rfl, rfl, rfl⟩, hkept⟩
      · rw [heach]
        cases hloop : s.sendLoop pMsg [] listAdress with
        | error _ => trivial
        | ok out =>
            rcases out with ⟨sent, collected⟩
            have hkept := (sendLoop_collects hloop).right.endPoint
            dsimp only
            rw [if_neg hremote]
            unfold SendEndPoint
            rw [hkept, hend]
            trivial

/-!
# When both come back
-/

/-- The mailboxes of the local addresses are there and have a scheduler. -/
def MailboxesReady (s : MessageState Actor Message) (listAdress : List Address) : Prop :=
  forall adress, adress ∈ listAdress ->
    adress.mProcess = s.framework.m_Address.mProcess -> adress.m_Index ≠ 0 ->
      exists box, s.framework.m_MailBoxes.GetEntry adress.entryIndex = .ok box ∧
        box.m_pScheduler ≠ none

theorem sendLocal_ok {s : MessageState Actor Message} {adress : Address}
    {rest : List Address} (hready : MailboxesReady s (adress :: rest))
    (hhome : adress.mProcess = s.framework.m_Address.mProcess) (pMsg : Option Message) :
    exists t, s.sendLocal pMsg adress = .ok t := by
  unfold sendLocal
  by_cases hzero : adress.m_Index = 0
  · rw [if_pos hzero]
    exact ⟨_, rfl⟩
  · rcases hready adress List.mem_cons_self hhome hzero with ⟨box, hget, hscheduler⟩
    rcases pushMsg_ok hget hscheduler pMsg with ⟨t, accepted, hpush⟩
    unfold SendInternal
    rw [if_neg hzero, if_neg (fun h => h hhome.symm), hpush]
    exact ⟨t, rfl⟩

theorem mailboxesReady_next {s t : MessageState Actor Message} {adress : Address}
    {rest : List Address} (hready : MailboxesReady s (adress :: rest))
    (hframe : PushFrame s t) : MailboxesReady t rest := by
  intro other hmem hhome hindex
  rw [hframe.address] at hhome
  rcases hready other (List.mem_cons_of_mem _ hmem) hhome hindex with
    ⟨box, hget, hscheduler⟩
  rcases hframe.kept _ box hget with ⟨kept, hkept, _, hsame⟩
  exact ⟨kept, hkept, by rw [hsame]; exact hscheduler⟩

theorem sendLoop_ok {s : MessageState Actor Message} {listAdress : List Address}
    (hready : MailboxesReady s listAdress) (pMsg : Option Message)
    (listEndPoint : List Address) :
    exists t collected, s.sendLoop pMsg listEndPoint listAdress = .ok (t, collected) := by
  induction listAdress generalizing s listEndPoint with
  | nil => exact ⟨s, listEndPoint, rfl⟩
  | cons adress rest ih =>
      by_cases hhome : adress.mProcess = s.framework.m_Address.mProcess
      · rcases sendLocal_ok hready hhome pMsg with ⟨next, hsent⟩
        rw [sendLoop_local hhome, hsent]
        exact ih (mailboxesReady_next hready (sendLocal_frame hsent)) listEndPoint
      · rw [sendLoop_remote hhome]
        exact ih (mailboxesReady_next hready (PushFrame.refl s)) _

theorem sendMsgList_ok {s : MessageState Actor Message} {listAdress : List Address}
    (hready : MailboxesReady s listAdress)
    (hend : s.remoteOf listAdress ≠ [] -> s.m_pEndPoint ≠ none) (pMsg : Option Message) :
    exists t, s.SendMsgList pMsg listAdress = .ok (t, true) := by
  rcases sendLoop_ok hready pMsg [] with ⟨sent, collected, hloop⟩
  rw [sendMsgList_eq, hloop]
  dsimp only
  by_cases hremote : s.remoteOf listAdress = []
  · rw [if_pos hremote]
    exact ⟨sent, rfl⟩
  · rw [if_neg hremote]
    unfold SendEndPoint
    rw [(sendLoop_collects hloop).right.endPoint]
    cases hcalls : s.m_pEndPoint with
    | none => exact absurd hcalls (hend hremote)
    | some calls => exact ⟨_, rfl⟩

/-- The list overload and single calls agree, and they come back where mailboxes and end
point are there. -/
theorem multicast_agrees (s : MessageState Actor Message) (pMsg : Option Message)
    (listAdress : List Address) :
    MulticastAgrees s pMsg listAdress ∧
      (MailboxesReady s listAdress -> (s.remoteOf listAdress ≠ [] -> s.m_pEndPoint ≠ none) ->
        exists t, s.SendMsgList pMsg listAdress = .ok (t, true)) := by
  constructor
  · exact multicastAgrees_all s pMsg listAdress
  · intro hready hend
    exact sendMsgList_ok hready hend pMsg

/-!
# A list of every kind

The actor with this address, the system, another process and the actor again.
-/

def everyKind (adress : Address) : List Address :=
  [adress, Address.ofUint32 0, Address.ofUint32 0x4000, adress]

theorem everyKind_comesBack :
    exists (s t : MessageState Nat Nat) (adress : Address), adress.m_Index ≠ 0 ∧
      s.remoteOf (everyKind adress) = [Address.ofUint32 0x4000] ∧
        s.SendMsgList (some 7) (everyKind adress) = .ok (t, true) := by
  rcases newFramework_registers (some 1) (Address.ofUint32 0) with
    ⟨made, framework, index, haddress, hscheduler, hregister, hindex⟩
  rcases told_of_register hregister with ⟨hsameAddress, hsameScheduler, htold⟩
  rcases htold.box with ⟨box, hget, _, hbox⟩
  have hzero : framework.m_Address.mProcess = 0 := by
    rw [hsameAddress, haddress]
    decide
  have hlocal : (framework.actorAddress 0).mProcess = framework.m_Address.mProcess := by
    rw [htold.process]
    dsimp only
    rw [hzero]
    rfl
  have hnotZero : (framework.actorAddress 0).m_Index ≠ 0 := by
    apply Address.m_Index_ne_zero
    rw [htold.told]
    exact hindex
  have hremote : remoteOf { made with framework := framework, m_pEndPoint := some [] }
      (everyKind (framework.actorAddress 0)) = [Address.ofUint32 0x4000] := by
    unfold everyKind
    simp only [remoteOf_cons]
    rw [if_pos hlocal, if_pos hlocal, hzero, if_pos (by decide), if_neg (by decide)]
    rfl
  have hready : MailboxesReady { made with framework := framework, m_pEndPoint := some [] }
      (everyKind (framework.actorAddress 0)) := by
    intro adress hmem hsame hindexed
    have hself : adress = framework.actorAddress 0 := by
      rcases List.mem_cons.mp hmem with hfirst | hmem
      · exact hfirst
      · rcases List.mem_cons.mp hmem with hsystem | hmem
        · rw [hsystem] at hindexed
          exact absurd (by decide) hindexed
        · rcases List.mem_cons.mp hmem with haway | hlast
          · rw [haway] at hsame
            exact absurd (hsame.trans hzero) (by decide)
          · exact List.mem_singleton.mp hlast
    rw [hself, htold.told]
    refine ⟨box, hget, ?_⟩
    rw [hbox]
    dsimp only
    rw [hsameScheduler, hscheduler]
    exact Option.some_ne_none 1
  rcases (multicast_agrees _ (some 7) _).right hready (fun _ => Option.some_ne_none []) with
    ⟨t, hsent⟩
  exact ⟨_, t, framework.actorAddress 0, hnotZero, hremote, hsent⟩

end MessageState
end LibActor
end GMServer
