import GMServer.Library.Transition
import GMServer.LibActor.Framework

/-!
# Registering and removing actors

Runs of `RegisterActor` and `UnRegisterActor` on one framework.  Beside the
framework the state records which actor was given which index and not removed
since, and which indices were given back.
-/

namespace GMServer
namespace LibActor

structure RegistrationState (Actor Message : Type) where
  framework : Framework Actor Message
  registered : List (Actor × uint32_t)
  freed : List uint32_t

inductive RegistrationCall (Actor : Type) where
  | RegisterActor (pActor : Actor) (name : Name)
  | UnRegisterActor (pActor : Actor)
  deriving DecidableEq

namespace Registration

open Transition

variable {Actor Message : Type}

def init (framework : Framework Actor Message) : RegistrationState Actor Message :=
  { framework := framework, registered := [], freed := [] }

variable [DecidableEq Actor]

/-- A call whose assertions fail is not enabled. -/
def step (s : RegistrationState Actor Message) :
    RegistrationCall Actor -> Option (RegistrationState Actor Message)
  | .RegisterActor pActor name =>
      match s.framework.RegisterActor pActor name with
      | .error _ => none
      | .ok (framework, index) =>
          some
            { framework := framework,
              registered := (pActor, index) :: s.registered,
              freed := s.freed.filter (· ≠ index) }
  | .UnRegisterActor pActor =>
      match s.framework.UnRegisterActor pActor with
      | .error _ => none
      | .ok framework =>
          some
            { framework := framework,
              registered := s.registered.filter (·.1 ≠ pActor),
              freed := (s.framework.actorAddress pActor).entryIndex :: s.freed }

/-!
# What registration has to give

Each `RegisterActor` passes its assertions, and its index is not 0, not one in
use and, when all have been issued, one that was given back.  In every state the
registered actors have different indices and are in the mailboxes there.
-/

def CallOk (s : RegistrationState Actor Message) : RegistrationCall Actor -> Prop
  | .RegisterActor pActor name =>
      exists framework index,
        s.framework.RegisterActor pActor name = .ok (framework, index) ∧
          index ≠ 0 ∧
          (forall entry, entry ∈ s.registered -> entry.2 ≠ index) ∧
          (MAX_PAGES * ENTRIES_PER_PAGE ≤ s.framework.m_MailBoxes.m_iNextIndex.toNat ->
            index ∈ s.freed)
  | .UnRegisterActor _ => True

omit [DecidableEq Actor] in
structure Exclusive (s : RegistrationState Actor Message) : Prop where
  distinct : (s.registered.map Prod.snd).Nodup
  present : forall entry, entry ∈ s.registered ->
    exists box, s.framework.m_MailBoxes.GetEntry entry.2 = .ok box ∧
      box.m_pActor = some entry.1

def NeverDisplaces (s : RegistrationState Actor Message)
    (calls : List (RegistrationCall Actor)) : Prop :=
  AllSteps step CallOk s calls ∧ AllStates step Exclusive s calls

def registrations : List (RegistrationCall Actor) -> Nat
  | [] => 0
  | .RegisterActor _ _ :: rest => registrations rest + 1
  | .UnRegisterActor _ :: rest => registrations rest

/-!
# The invariant
-/

omit [DecidableEq Actor] in
structure RegistrationInv (s : RegistrationState Actor Message) : Prop where
  framework : s.framework.FrameworkInv
  exclusive : Exclusive s
  issued : forall entry, entry ∈ s.registered ->
    entry.2.toNat < s.framework.m_MailBoxes.m_iNextIndex.toNat

omit [DecidableEq Actor] in
theorem registrationInv_init {framework : Framework Actor Message}
    (hinv : framework.FrameworkInv) : RegistrationInv (init framework) where
  framework := hinv
  exclusive :=
    { distinct := List.nodup_nil
      present := fun _ hentry => absurd hentry List.not_mem_nil }
  issued := fun _ hentry => absurd hentry List.not_mem_nil

theorem step_register {s : RegistrationState Actor Message} (hinv : RegistrationInv s)
    (hleft : s.framework.m_MailBoxes.m_iNextIndex.toNat < MAX_PAGES * ENTRIES_PER_PAGE)
    (pActor : Actor) (name : Name) :
    CallOk s (.RegisterActor pActor name) ∧
      exists t, step s (.RegisterActor pActor name) = some t ∧ RegistrationInv t ∧
        t.framework.m_MailBoxes.m_iNextIndex.toNat =
          s.framework.m_MailBoxes.m_iNextIndex.toNat + 1 := by
  rcases Framework.registerActor_fresh hinv.framework hleft pActor name with
    ⟨framework, hregister, hnext, hframework, hinstalled, hkept⟩
  have hunused : forall entry, entry ∈ s.registered ->
      entry.2 ≠ s.framework.m_MailBoxes.m_iNextIndex := by
    intro entry hentry hEq
    have hlt := hinv.issued entry hentry
    rw [hEq] at hlt
    omega
  constructor
  · refine ⟨framework, _, hregister, ?_, hunused, ?_⟩
    · intro hzero
      have hpositive := hinv.framework.positive
      rw [hzero] at hpositive
      exact absurd hpositive (by decide)
    · intro hfull
      omega
  · refine ⟨_, by simp only [step, hregister]; rfl, ⟨hframework, ⟨?_, ?_⟩, ?_⟩, hnext⟩
    · show (s.framework.m_MailBoxes.m_iNextIndex :: s.registered.map Prod.snd).Nodup
      rw [List.nodup_cons]
      constructor
      · intro hmem
        rcases List.mem_map.mp hmem with ⟨entry, hentry, hEq⟩
        exact hunused entry hentry hEq
      · exact hinv.exclusive.distinct
    · intro entry hentry
      rcases List.mem_cons.mp hentry with hnew | hold
      · rw [hnew]
        exact hinstalled
      · rcases hinv.exclusive.present entry hold with ⟨box, hget, hactor⟩
        exact ⟨box, hkept _ box (hunused entry hold) hget, hactor⟩
    · intro entry hentry
      show entry.2.toNat < framework.m_MailBoxes.m_iNextIndex.toNat
      rw [hnext]
      rcases List.mem_cons.mp hentry with hnew | hold
      · rw [hnew]
        exact Nat.lt_succ_self _
      · have hlt := hinv.issued entry hold
        omega

theorem step_unRegister {s : RegistrationState Actor Message}
    (hinv : RegistrationInv s) (pActor : Actor) :
    exists t, step s (.UnRegisterActor pActor) = some t ∧ RegistrationInv t ∧
      t.framework.m_MailBoxes.m_iNextIndex = s.framework.m_MailBoxes.m_iNextIndex := by
  rcases Framework.unRegisterActor_spec hinv.framework pActor with
    ⟨framework, hremove, hnext, hframework, hkept⟩
  have hsub : forall entry, entry ∈ s.registered.filter (·.1 ≠ pActor) ->
      entry ∈ s.registered ∧ entry.1 ≠ pActor := by
    intro entry hentry
    rcases List.mem_filter.mp hentry with ⟨hold, hne⟩
    exact ⟨hold, by simpa using hne⟩
  refine ⟨_, by simp only [step, hremove]; rfl, ⟨hframework, ⟨?_, ?_⟩, ?_⟩, hnext⟩
  · exact (List.filter_sublist.map Prod.snd).nodup hinv.exclusive.distinct
  · intro entry hentry
    rcases hsub entry hentry with ⟨hold, hne⟩
    rcases hinv.exclusive.present entry hold with ⟨box, hget, hactor⟩
    -- the mailbox emptied holds nobody but the actor removed
    have hindex : entry.2 ≠ (s.framework.actorAddress pActor).entryIndex := by
      intro hEq
      rw [hEq] at hget
      rcases hinv.framework.owner pActor box hget with hnone | hsome
      · rw [hnone] at hactor
        cases hactor
      · rw [hsome] at hactor
        exact hne (Option.some.inj hactor).symm
    exact ⟨box, by rw [hkept _ hindex]; exact hget, hactor⟩
  · intro entry hentry
    show entry.2.toNat < framework.m_MailBoxes.m_iNextIndex.toNat
    rw [hnext]
    exact hinv.issued entry (hsub entry hentry).left

theorem callOk_register_bound {s : RegistrationState Actor Message}
    {pActor : Actor} {name : Name} (hok : CallOk s (.RegisterActor pActor name)) :
    s.framework.m_MailBoxes.m_iNextIndex.toNat < MAX_PAGES * ENTRIES_PER_PAGE := by
  rcases hok with ⟨framework, index, hregister, _⟩
  by_contra hfull
  exact Framework.registerActor_exhausted (by omega) pActor name _ hregister

/-!
# Whole runs

Every registration takes one fresh index, so a run is safe exactly as long as
its registrations fit in the indices that are left.
-/

theorem neverDisplaces_iff_left {s : RegistrationState Actor Message}
    (hinv : RegistrationInv s) (calls : List (RegistrationCall Actor)) :
    NeverDisplaces s calls <->
      s.framework.m_MailBoxes.m_iNextIndex.toNat + registrations calls ≤
        MAX_PAGES * ENTRIES_PER_PAGE := by
  induction calls generalizing s with
  | nil =>
      exact ⟨fun _ => hinv.framework.bound, fun _ => ⟨trivial, hinv.exclusive⟩⟩
  | cons call rest ih =>
      have hcons : forall {t : RegistrationState Actor Message},
          CallOk s call -> step s call = some t ->
          (NeverDisplaces s (call :: rest) <-> NeverDisplaces t rest) := by
        intro t hok hstep
        unfold NeverDisplaces
        rw [allSteps_cons_iff hstep, allStates_cons_iff hstep]
        constructor
        · intro h
          exact ⟨h.left.right, h.right.right⟩
        · intro h
          exact ⟨⟨hok, h.left⟩, ⟨hinv.exclusive, h.right⟩⟩
      cases call with
      | UnRegisterActor pActor =>
          rcases step_unRegister hinv pActor with ⟨t, hstep, ht, hnext⟩
          rw [hcons trivial hstep, ih ht, hnext]
          rfl
      | RegisterActor pActor name =>
          have hcount : registrations (.RegisterActor pActor name :: rest) =
              registrations rest + 1 := rfl
          rw [hcount]
          constructor
          · intro h
            have hleft := callOk_register_bound h.left.left
            rcases step_register hinv hleft pActor name with
              ⟨hok, t, hstep, ht, hnext⟩
            have hrest := (ih ht).mp ((hcons hok hstep).mp h)
            omega
          · intro h
            rcases step_register hinv (by omega) pActor name with
              ⟨hok, t, hstep, ht, hnext⟩
            apply (hcons hok hstep).mpr
            apply (ih ht).mpr
            omega

theorem neverDisplaces_init_iff {pScheduler : Option Nat}
    {framework : Framework Actor Message}
    (hnew : Framework.new pScheduler = .ok framework)
    (calls : List (RegistrationCall Actor)) :
    NeverDisplaces (init framework) calls <-> registrations calls ≤ 8191 := by
  rcases @Framework.new_spec Actor Message pScheduler with
    ⟨made, hmade, hnext, hinv⟩
  rw [hmade] at hnew
  cases hnew
  have hmax : MAX_PAGES * ENTRIES_PER_PAGE = 8192 := rfl
  have hstart : (init framework).framework.m_MailBoxes.m_iNextIndex.toNat = 1 := hnext
  rw [neverDisplaces_iff_left (registrationInv_init hinv), hstart, hmax]
  omega

/-- The constructor succeeds, and from there exactly the runs with at most 8191
registrations never displace an actor. -/
theorem registration_safe_iff (pScheduler : Option Nat) :
    exists framework : Framework Actor Message,
      Framework.new pScheduler = .ok framework ∧
        forall calls : List (RegistrationCall Actor),
          NeverDisplaces (init framework) calls <-> registrations calls ≤ 8191 := by
  rcases @Framework.new_spec Actor Message pScheduler with
    ⟨framework, hnew, _⟩
  exact ⟨framework, hnew, neverDisplaces_init_iff hnew⟩

/-!
# One registration too many

All indices are issued, actor 0 gives its index back, and a further actor is
registered: although there is a free mailbox, its assertions fail.
-/

def registerAll : List (RegistrationCall Nat) :=
  (List.range 8191).map (fun pActor => .RegisterActor pActor { mValue := pActor })

def reuseAfterRemoval : List (RegistrationCall Nat) :=
  registerAll ++ [.UnRegisterActor 0, .RegisterActor 8191 { mValue := 0 }]

omit [DecidableEq Actor] in
theorem registrations_append (first second : List (RegistrationCall Actor)) :
    registrations (first ++ second) = registrations first + registrations second := by
  induction first with
  | nil =>
      exact (Nat.zero_add _).symm
  | cons call rest ih =>
      cases call with
      | RegisterActor pActor name =>
          show registrations (rest ++ second) + 1 = registrations rest + 1 + _
          rw [ih]
          omega
      | UnRegisterActor pActor =>
          exact ih

theorem registrations_map_register (actors : List Nat) :
    registrations (actors.map (fun pActor => RegistrationCall.RegisterActor pActor
      { mValue := pActor })) = actors.length := by
  induction actors with
  | nil =>
      rfl
  | cons pActor rest ih =>
      show registrations (rest.map _) + 1 = rest.length + 1
      rw [ih]

theorem reuseAfterRemoval_displaces :
    exists framework : Framework Nat Nat, Framework.new (some 1) = .ok framework ∧
      ¬ NeverDisplaces (init framework) reuseAfterRemoval := by
  rcases @Framework.new_spec Nat Nat (some 1) with
    ⟨framework, hnew, _⟩
  refine ⟨framework, hnew, ?_⟩
  rw [neverDisplaces_init_iff hnew]
  unfold reuseAfterRemoval registerAll
  rw [registrations_append, registrations_map_register, List.length_range]
  decide

end Registration
end LibActor
end GMServer
