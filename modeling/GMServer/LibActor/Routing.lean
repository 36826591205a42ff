import GMServer.LibActor.FrameworkSend

/-!
# Which addresses are local

An address belongs to the process whose group, channel and process number it has.
The address that an actor is told has only 16 bits of these 19.
-/

namespace GMServer
namespace LibActor
namespace MessageState

variable {Actor Message : Type}

/-!
# The decision of `SendMsg`
-/

/-- The message is handed to the end point, or would be if there were one. -/
def ReachesEndPoint (s : MessageState Actor Message) (pMsg : Option Message)
    (adress : Address) : Prop :=
  match s.SendMsg pMsg adress with
  | .error fault => fault = .nullPointer
  | .ok (t, _) => t.m_pEndPoint ≠ s.m_pEndPoint

theorem pushMsg_error {s : MessageState Actor Message} {index : uint32_t}
    {pMsg : Option Message} {fault : Fault}
    (hpush : s.pushMsg index pMsg = .error fault) : fault = .assertFailed := by
  unfold pushMsg at hpush
  cases hget : s.framework.m_MailBoxes.GetEntry index with
  | error getFault =>
      rw [hget] at hpush
      cases hpush
      exact Directory.getEntry_error hget
  | ok box =>
      rw [hget] at hpush
      dsimp only at hpush
      unfold Mailbox.PushMsg at hpush
      by_cases hscheduler : box.m_pScheduler = none
      · rw [if_pos hscheduler] at hpush
        cases hpush
        rfl
      · rw [if_neg hscheduler] at hpush
        cases hactor : box.m_pActor with
        | none =>
            rw [hactor] at hpush
            cases hpush
        | some pActor =>
            rw [hactor] at hpush
            cases hpush

theorem sendMsg_system {s : MessageState Actor Message} {adress : Address}
    (hhome : adress.mProcess = s.framework.m_Address.mProcess) (hzero : adress.m_Index = 0)
    (pMsg : Option Message) : s.SendMsg pMsg adress = .ok ((s.SystemMsg pMsg).1, true) := by
  unfold SendMsg
  rw [if_pos hhome, if_pos hzero]

theorem sendMsg_internal {s : MessageState Actor Message} {adress : Address}
    (hhome : adress.mProcess = s.framework.m_Address.mProcess) (hindex : adress.m_Index ≠ 0)
    (pMsg : Option Message) :
    s.SendMsg pMsg adress =
      (s.pushMsg adress.entryIndex pMsg).map (fun sent => (sent.1, true)) := by
  unfold SendMsg SendInternal
  rw [if_pos hhome, if_neg hindex, if_neg (fun h => h hhome.symm)]

theorem sendMsg_remote {s : MessageState Actor Message} {adress : Address}
    (haway : adress.mProcess ≠ s.framework.m_Address.mProcess) (pMsg : Option Message) :
    s.SendMsg pMsg adress =
      (s.SendEndPoint (.single pMsg adress)).map (fun sent => (sent.1, true)) := by
  unfold SendMsg
  rw [if_neg haway]

theorem reachesEndPoint_iff (s : MessageState Actor Message) (pMsg : Option Message)
    (adress : Address) :
    s.ReachesEndPoint pMsg adress <-> adress.mProcess ≠ s.framework.m_Address.mProcess := by
  unfold ReachesEndPoint
  by_cases hhome : adress.mProcess = s.framework.m_Address.mProcess
  · refine iff_of_false ?_ (fun h => h hhome)
    by_cases hzero : adress.m_Index = 0
    · rw [sendMsg_system hhome hzero]
      exact fun h => h rfl
    · rw [sendMsg_internal hhome hzero]
      cases hpush : s.pushMsg adress.entryIndex pMsg with
      | error fault =>
          rw [pushMsg_error hpush]
          exact fun h => by cases h
      | ok sent => exact fun h => h (pushMsg_spec hpush).left.endPoint
  · refine iff_of_true ?_ hhome
    rw [sendMsg_remote hhome]
    unfold SendEndPoint
    cases hend : s.m_pEndPoint with
    | none => exact rfl
    | some calls =>
        intro hsame
        have hlength := congrArg List.length (Option.some.inj hsame)
        rw [List.length_append, List.length_singleton] at hlength
        omega

/-!
# The address of a registered actor
-/

/-- What `SendMsg` takes for local has the three fields of the framework; the actor has
the index of its mailbox and its address is local, so that messages to it get there. -/
structure RoutesHome (s : MessageState Actor Message) (pActor : Actor)
    (index : uint32_t) : Prop where
  treated : forall pMsg adress, ¬ s.ReachesEndPoint pMsg adress <->
    adress.m_Group = s.framework.m_Address.m_Group ∧
      adress.m_Channel = s.framework.m_Address.m_Channel ∧
      adress.m_Process = s.framework.m_Address.m_Process
  told : (s.framework.actorAddress pActor).entryIndex = index
  home : forall pMsg, ¬ s.ReachesEndPoint pMsg (s.framework.actorAddress pActor)
  pushed : forall pMsg, exists t,
    s.SendMsg pMsg (s.framework.actorAddress pActor) = .ok (t, true) ∧
      Appended s t index pMsg ∧ t.m_pEndPoint = s.m_pEndPoint

theorem treated_local (s : MessageState Actor Message) (pMsg : Option Message)
    (adress : Address) :
    ¬ s.ReachesEndPoint pMsg adress <->
      adress.m_Group = s.framework.m_Address.m_Group ∧
        adress.m_Channel = s.framework.m_Address.m_Channel ∧
        adress.m_Process = s.framework.m_Address.m_Process := by
  rw [reachesEndPoint_iff, not_not]
  exact Address.mProcess_eq_iff _ _

variable [DecidableEq Actor]

/-- What a registration has written, as far as messages to the actor are concerned. -/
structure Told (s : MessageState Actor Message) (pActor : Actor) (index : uint32_t) :
    Prop where
  told : (s.framework.actorAddress pActor).entryIndex = index
  process : (s.framework.actorAddress pActor).mProcess =
    (s.framework.m_Address.mProcess.setWidth 16).setWidth 19
  box : exists box, s.framework.m_MailBoxes.GetEntry index = .ok box ∧
    box.m_pActor = some pActor ∧ box.m_pScheduler = s.framework.m_pScheduler

theorem told_of_register {s : MessageState Actor Message} {pActor : Actor} {name : Name}
    {framework : Framework Actor Message} {index : uint32_t}
    (hregister : s.framework.RegisterActor pActor name = .ok (framework, index)) :
    framework.m_Address = s.framework.m_Address ∧
      framework.m_pScheduler = s.framework.m_pScheduler ∧
      Told { s with framework := framework } pActor index := by
  rcases Framework.registerActor_installed hregister with ⟨mailBoxes, box, hget, hinstalled⟩
  rw [hinstalled]
  have hbound : index.toNat < MAX_PAGES * ENTRIES_PER_PAGE := by
    rcases Directory.getEntry_page hget with ⟨hpage, _⟩
    exact (Nat.div_lt_iff_lt_mul (by decide)).mp hpage
  refine ⟨rfl, rfl, ?_, ?_, ?_⟩
  · exact Framework.install_entryIndex_self _ _ hbound pActor name
  · dsimp only
    rw [Framework.install_actorAddress_self, Address.mProcess_ofBrief]
    rfl
  · refine ⟨_, Directory.getEntry_setEntry_self hget _, ?_, ?_⟩
    · rfl
    · rfl

omit [DecidableEq Actor] in
theorem routesHome_told {s : MessageState Actor Message} {pActor : Actor}
    {index : uint32_t} (htold : Told s pActor index) (hindex : index ≠ 0) :
    RoutesHome s pActor index <->
      s.framework.m_Address.m_Process.toNat < 4 ∧ s.framework.m_pScheduler ≠ none := by
  have hhome : (s.framework.actorAddress pActor).mProcess = s.framework.m_Address.mProcess <->
      s.framework.m_Address.m_Process.toNat < 4 := by
    rw [htold.process]
    exact Address.setWidth_mProcess_iff _
  have hnotZero : (s.framework.actorAddress pActor).m_Index ≠ 0 := by
    apply Address.m_Index_ne_zero
    rw [htold.told]
    exact hindex
  rcases htold.box with ⟨box, hget, hactor, hscheduler⟩
  constructor
  · intro h
    have hprocess := not_not.mp ((reachesEndPoint_iff s none _).not.mp (h.home none))
    refine ⟨hhome.mp hprocess, ?_⟩
    rcases h.pushed none with ⟨t, hsent, _⟩
    rw [sendMsg_internal hprocess hnotZero] at hsent
    cases hpush : s.pushMsg (s.framework.actorAddress pActor).entryIndex none with
    | error fault =>
        rw [hpush] at hsent
        cases hsent
    | ok sent =>
        rcases (pushMsg_spec hpush).right with ⟨found, hfound, hsome, _⟩
        rw [htold.told, hget] at hfound
        cases hfound
        rw [← hscheduler]
        exact hsome
  · intro ⟨hprocess, hsome⟩
    constructor
    case treated => exact treated_local s
    case told => exact htold.told
    case home =>
      intro pMsg
      rw [reachesEndPoint_iff, not_not]
      exact hhome.mpr hprocess
    case pushed =>
      intro pMsg
      rcases pushMsg_ok hget (by rw [hscheduler]; exact hsome) pMsg with
        ⟨t, accepted, hpush⟩
      rcases pushMsg_spec hpush with ⟨hframe, found, hfound, _, hcases⟩
      rw [hget] at hfound
      cases hfound
      rcases hcases with ⟨hnone, _⟩ | ⟨_, _, happended⟩
      · rw [hactor] at hnone
        cases hnone
      · refine ⟨t, ?_, happended, hframe.endPoint⟩
        rw [sendMsg_internal (hhome.mpr hprocess) hnotZero, htold.told, hpush]
        rfl

/-- Messages to a registered actor get into its mailbox exactly if the number of the
process fits in two bits and there is a scheduler. -/
theorem registered_routesHome_iff {s : MessageState Actor Message} {pActor : Actor}
    {name : Name} {framework : Framework Actor Message} {index : uint32_t}
    (hregister : s.framework.RegisterActor pActor name = .ok (framework, index))
    (hindex : index ≠ 0) :
    RoutesHome { s with framework := framework } pActor index <->
      s.framework.m_Address.m_Process.toNat < 4 ∧ s.framework.m_pScheduler ≠ none := by
  rcases told_of_register hregister with ⟨haddress, hscheduler, htold⟩
  rw [routesHome_told htold hindex]
  dsimp only
  rw [haddress, hscheduler]

/-!
# The process 4

It has the lowest of the three bits that do not fit.
-/

/-- One actor on a new framework with this address. -/
theorem newFramework_registers (pScheduler : Option Nat) (m_Address : Address) :
    exists (s : MessageState Nat Nat) (framework : Framework Nat Nat) (index : uint32_t),
      s.framework.m_Address = m_Address ∧ s.framework.m_pScheduler = pScheduler ∧
        s.framework.RegisterActor 0 { mValue := 0 } = .ok (framework, index) ∧ index ≠ 0 := by
  rcases @Framework.new_spec Nat Nat pScheduler with ⟨made, hmade, hnext, hinv⟩
  have hscheduler := Framework.new_m_pScheduler hmade
  have hinv' : Framework.FrameworkInv { made with m_Address := m_Address } :=
    { positive := hinv.positive
      bound := hinv.bound
      issued := hinv.issued
      fresh := hinv.fresh
      address := hinv.address
      owner := hinv.owner }
  have hleft : made.m_MailBoxes.m_iNextIndex.toNat < MAX_PAGES * ENTRIES_PER_PAGE := by
    rw [hnext]
    decide
  rcases Framework.registerActor_fresh hinv' hleft 0 { mValue := 0 } with
    ⟨framework, hregister, _⟩
  refine ⟨init { made with m_Address := m_Address }, framework, _, rfl, hscheduler,
    hregister, ?_⟩
  intro hzero
  have hpositive := hinv.positive
  rw [show made.m_MailBoxes.m_iNextIndex = 0 from hzero] at hpositive
  exact absurd hpositive (by decide)

theorem processFour_lost :
    exists (s : MessageState Nat Nat) (framework : Framework Nat Nat) (index : uint32_t),
      s.framework.m_Address = Address.ofUint32 0x10000 ∧
        s.framework.RegisterActor 0 { mValue := 0 } = .ok (framework, index) ∧ index ≠ 0 ∧
        ¬ RoutesHome { s with framework := framework } 0 index := by
  rcases newFramework_registers (some 1) (Address.ofUint32 0x10000) with
    ⟨s, framework, index, haddress, _, hregister, hindex⟩
  refine ⟨s, framework, index, haddress, hregister, hindex, ?_⟩
  intro h
  rcases told_of_register hregister with ⟨hsame, _, htold⟩
  have hhome := (routesHome_told htold hindex).mp h
  dsimp only at hhome
  rw [hsame, haddress] at hhome
  exact absurd hhome.left (by decide)

theorem processZero_routesHome :
    exists (s : MessageState Nat Nat) (framework : Framework Nat Nat) (index : uint32_t),
      s.framework.RegisterActor 0 { mValue := 0 } = .ok (framework, index) ∧
        RoutesHome { s with framework := framework } 0 index := by
  rcases newFramework_registers (some 1) (Address.ofUint32 0) with
    ⟨s, framework, index, haddress, hscheduler, hregister, hindex⟩
  refine ⟨s, framework, index, hregister, ?_⟩
  apply (registered_routesHome_iff hregister hindex).mpr
  rw [haddress, hscheduler]
  exact ⟨by decide, Option.some_ne_none 1⟩

end MessageState
end LibActor
end GMServer
