import GMServer.Utils.TimerTrace

/-!
# The order of the handlers

Each handler is invoked at most once and not before its due time, and the handlers
that an entity kept when its `OnTimer` was entered come in the order of their due
times, those of one time in the order in which they were added.
-/

namespace GMServer
namespace Utils
namespace TimerTrace

open Std Transition

/-- `n` is due before `m`, or at the same time and was added before it. -/
def Before (added : List AddedTimer) (n m : Nat) : Prop :=
  exists first second, added[n]? = some first ∧ added[m]? = some second ∧
    (first.due < second.due ∨ (first.due = second.due ∧ n < m))

/-- The order is that of any two handlers of one entity of which the second one had been
added when the `OnTimer` that invoked the first was entered. -/
structure Disciplined (s : TimerTrace) : Prop where
  once : s.numbers.Nodup
  notEarly : forall call, call ∈ s.invoked -> exists timer,
    s.added[call.number]? = some timer ∧ timer.entity = call.entity ∧
      timer.due ≤ call.iNowMS
  ordered : s.invoked.Pairwise (fun first second => first.entity = second.entity ->
    second.number < first.entered -> Before s.added first.number second.number)

/-!
# The invariant

What an entity keeps for one time, and what its `OnTimer` has taken for one time, are
lists of the same kind.
-/

structure Kept (added : List AddedTimer) (invoked : List Invocation) (ref : EntityRef)
    (due : uint64_t) (listHandle : List TimerHandle) : Prop where
  named : forall stHanle, stHanle ∈ listHandle -> exists handel,
    added[stHanle]? = some { entity := ref, due := due, handel := handel }
  sorted : listHandle.Pairwise (fun first second => first < second)
  fresh : forall stHanle, stHanle ∈ listHandle -> stHanle ∉ invoked.map (·.number)
  after : forall call, call ∈ invoked -> call.entity = ref ->
    forall stHanle, stHanle ∈ listHandle -> stHanle < call.entered ->
      Before added call.number stHanle

/-- The handlers that `OnTimer` has taken are due, they are not in the map any more, and
what had been there from the start is due later. -/
structure Taken (s : TimerTrace) (iNowMS : uint64_t) (ref : EntityRef) (due : uint64_t)
    (listHandle : List TimerHandle) : Prop where
  notEarly : due ≤ iNowMS
  kept : Kept s.added s.invoked ref due listHandle
  apart : forall stHanle, stHanle ∈ listHandle -> ¬ s.timers.Keeps ref due stHanle
  first : forall later stHanle, s.timers.Keeps ref later stHanle -> stHanle < s.entered ->
    due < later

structure TraceInv (s : TimerTrace) : Prop where
  safe : s.timers.Safe
  kept : forall ref entity due listHandle, s.timers.entityAt ref = some entity ->
    entity.m_mTimer[due]? = some listHandle -> Kept s.added s.invoked ref due listHandle
  taken : forall iNowMS ref listHandle,
    taken s.timers.control = some (iNowMS, ref, listHandle) ->
      exists due, Taken s iNowMS ref due listHandle
  entered : s.entered ≤ s.added.length
  calls : forall call, call ∈ s.invoked -> call.entered ≤ s.added.length
  law : Disciplined s

theorem traceInv_init : TraceInv init where
  safe := TimerState.safe_init
  kept := fun ref entity due listHandle h => by cases h
  taken := fun iNowMS ref listHandle h => by cases h
  entered := Nat.le_refl 0
  calls := fun call h => by cases h
  law := ⟨List.nodup_nil, fun call h => (by cases h), List.Pairwise.nil⟩

/-!
# Steps that add and invoke nothing
-/

theorem Taken.congr {s t : TimerTrace} {iNowMS due : uint64_t} {ref : EntityRef}
    {listHandle : List TimerHandle} (htaken : Taken s iNowMS ref due listHandle)
    (hadded : t.added = s.added) (hinvoked : t.invoked = s.invoked)
    (hentered : t.entered = s.entered) (hinherits : s.timers.Inherits t.timers) :
    Taken t iNowMS ref due listHandle where
  notEarly := htaken.notEarly
  kept := by
    rw [hadded, hinvoked]
    exact htaken.kept
  apart := fun stHanle hmem hkeeps =>
    htaken.apart stHanle hmem (TimerState.keeps_of_inherits hinherits hkeeps)
  first := by
    rw [hentered]
    exact fun later stHanle hkeeps =>
      htaken.first later stHanle (TimerState.keeps_of_inherits hinherits hkeeps)

theorem Disciplined.congr {s t : TimerTrace} (hlaw : Disciplined s)
    (hadded : t.added = s.added) (hinvoked : t.invoked = s.invoked) : Disciplined t where
  once := by
    unfold numbers
    rw [hinvoked]
    exact hlaw.once
  notEarly := by
    rw [hadded, hinvoked]
    exact hlaw.notEarly
  ordered := by
    rw [hadded, hinvoked]
    exact hlaw.ordered

/-- The invariant of a step that keeps the record, apart from `entered` where nothing is
taken. -/
theorem TraceInv.next {s t : TimerTrace} (hinv : TraceInv s) (hadded : t.added = s.added)
    (hinvoked : t.invoked = s.invoked) (hsafe : t.timers.Safe)
    (hinherits : s.timers.Inherits t.timers) (hentered : t.entered ≤ s.added.length)
    (htaken : forall loop, TimerTrace.taken t.timers.control = some loop ->
      TimerTrace.taken s.timers.control = some loop ∧ t.entered = s.entered) :
    TraceInv t where
  safe := hsafe
  kept := by
    intro ref entity due listHandle hentity hget
    rcases hinherits ref entity due listHandle hentity hget with ⟨old, hold, hkept⟩
    rw [hadded, hinvoked]
    exact hinv.kept ref old due listHandle hold hkept
  taken := by
    intro iNowMS ref listHandle hloop
    rcases htaken _ hloop with ⟨hbefore, hsame⟩
    rcases hinv.taken iNowMS ref listHandle hbefore with ⟨due, hdue⟩
    exact ⟨due, hdue.congr hadded hinvoked hsame hinherits⟩
  entered := by
    rw [hadded]
    exact hentered
  calls := by
    rw [hadded, hinvoked]
    exact hinv.calls
  law := hinv.law.congr hadded hinvoked

/-!
# A handler is added

It has a new number, so it is after everything that was added before.
-/

theorem Before.grow {added : List AddedTimer} {n m : Nat} (hbefore : Before added n m)
    (timer : AddedTimer) : Before (added ++ [timer]) n m := by
  rcases hbefore with ⟨first, second, hfirst, hsecond, horder⟩
  refine ⟨first, second, ?_, ?_, horder⟩
  · rw [List.getElem?_append_left (List.getElem?_eq_some_iff.mp hfirst).1]
    exact hfirst
  · rw [List.getElem?_append_left (List.getElem?_eq_some_iff.mp hsecond).1]
    exact hsecond

theorem Kept.lt {added : List AddedTimer} {invoked : List Invocation} {ref : EntityRef}
    {due : uint64_t} {listHandle : List TimerHandle}
    (hkept : Kept added invoked ref due listHandle) {stHanle : TimerHandle}
    (hmem : stHanle ∈ listHandle) : stHanle < added.length := by
  rcases hkept.named stHanle hmem with ⟨handel, hadded⟩
  exact (List.getElem?_eq_some_iff.mp hadded).1

theorem Kept.grow {added : List AddedTimer} {invoked : List Invocation} {ref : EntityRef}
    {due : uint64_t} {listHandle : List TimerHandle}
    (hkept : Kept added invoked ref due listHandle) (timer : AddedTimer) :
    Kept (added ++ [timer]) invoked ref due listHandle where
  named := by
    intro stHanle hmem
    rw [List.getElem?_append_left (hkept.lt hmem)]
    exact hkept.named stHanle hmem
  sorted := hkept.sorted
  fresh := hkept.fresh
  after := fun call hcall hentity stHanle hmem hlt =>
    (hkept.after call hcall hentity stHanle hmem hlt).grow timer

theorem kept_nil (added : List AddedTimer) (invoked : List Invocation) (ref : EntityRef)
    (due : uint64_t) : Kept added invoked ref due [] where
  named := fun stHanle hmem => by cases hmem
  sorted := List.Pairwise.nil
  fresh := fun stHanle hmem => by cases hmem
  after := fun call _ _ stHanle hmem => by cases hmem

/-- `push_back` of the handler that is added. -/
theorem Kept.pushBack {s : TimerTrace} {ref : EntityRef} {due : uint64_t}
    {listHandle : List TimerHandle} (hkept : Kept s.added s.invoked ref due listHandle)
    (hlaw : Disciplined s)
    (hcalls : forall call, call ∈ s.invoked -> call.entered ≤ s.added.length)
    (handel : TimerHandle) :
    Kept (s.added ++ [{ entity := ref, due := due, handel := handel }]) s.invoked ref due
      (listHandle ++ [s.added.length]) where
  named := by
    intro stHanle hmem
    rcases List.mem_append.mp hmem with hold | hnew
    · exact (hkept.grow _).named stHanle hold
    · rw [List.mem_singleton.mp hnew, List.getElem?_concat_length]
      exact ⟨handel, rfl⟩
  sorted := by
    apply List.pairwise_append.mpr
    refine ⟨hkept.sorted, List.pairwise_singleton _ _, ?_⟩
    intro first hfirst second hsecond
    rw [List.mem_singleton.mp hsecond]
    exact hkept.lt hfirst
  fresh := by
    intro stHanle hmem
    rcases List.mem_append.mp hmem with hold | hnew
    · exact hkept.fresh stHanle hold
    · intro hinvoked
      rcases List.mem_map.mp hinvoked with ⟨call, hcall, hnumber⟩
      rcases hlaw.notEarly call hcall with ⟨timer, htimer, _⟩
      have hlt := (List.getElem?_eq_some_iff.mp htimer).1
      rw [hnumber, List.mem_singleton.mp hnew] at hlt
      exact Nat.lt_irrefl _ hlt
  after := by
    intro call hcall hentity stHanle hmem hlt
    rcases List.mem_append.mp hmem with hold | hnew
    · exact (hkept.grow _).after call hcall hentity stHanle hold hlt
    · rw [List.mem_singleton.mp hnew] at hlt
      exact absurd (hcalls call hcall) (Nat.not_le.mpr hlt)

theorem keeps_addTimer {s : TimerState} {ref : EntityRef} {entity : SubTimerEntity}
    (hentity : s.entityAt ref = some entity) {iTimeMS clock : uint64_t} {handel : TimerHandle}
    {other : EntityRef} {due : uint64_t} {stHanle : TimerHandle}
    (hkeeps : (s.addTimer ref iTimeMS clock handel).Keeps other due stHanle) :
    s.Keeps other due stHanle ∨ stHanle = handel := by
  rcases hkeeps with ⟨found, listHandle, hfound, hget, hmem⟩
  rcases TimerState.addTimer_kept hentity hfound hget with ⟨old, hold, hkept⟩ | ⟨hsame, hdue, hlist⟩
  · exact Or.inl ⟨old, listHandle, hold, hkept, hmem⟩
  · rw [hlist] at hmem
    rcases List.mem_append.mp hmem with hold | hnew
    · left
      rw [hsame]
      cases hslot : entity.m_mTimer[due]? with
      | none =>
          rw [hslot] at hold
          cases hold
      | some before =>
          rw [hslot] at hold
          exact ⟨entity, before, hentity, hslot, hold⟩
    · exact Or.inr (List.mem_singleton.mp hnew)

theorem traceInv_addTimer {s : TimerTrace} (hinv : TraceInv s) {id : SubTimerId}
    {ref : EntityRef} (hid : s.timers.subTimers id = some (some ref))
    (iTimeMS clock : uint64_t) (handel : TimerHandle) :
    TraceInv { s with
      timers := s.timers.addTimer ref iTimeMS clock s.added.length,
      added := s.added ++ [{ entity := ref, due := iTimeMS + clock, handel := handel }] } := by
  rcases hinv.safe.owned id ref hid with ⟨entity, hentity, _⟩
  have hlonger : forall timer : AddedTimer,
      s.added.length ≤ (s.added ++ [timer]).length := by
    intro timer
    rw [List.length_append]
    exact Nat.le_add_right _ _
  constructor
  case safe => exact TimerState.safe_addTimer hinv.safe hid iTimeMS clock s.added.length
  case kept =>
    intro other found due listHandle hfound hget
    rcases TimerState.addTimer_kept hentity hfound hget with
      ⟨old, hold, hkept⟩ | ⟨hsame, hdue, hlist⟩
    · exact (hinv.kept other old due listHandle hold hkept).grow _
    · rw [hlist, hsame, hdue]
      have hold : Kept s.added s.invoked ref (iTimeMS + clock)
          (entity.m_mTimer[iTimeMS + clock]?.getD []) := by
        cases hslot : entity.m_mTimer[iTimeMS + clock]? with
        | none => exact kept_nil _ _ _ _
        | some before => exact hinv.kept ref entity _ before hentity hslot
      exact hold.pushBack hinv.law hinv.calls handel
  case taken =>
    intro iNowMS other listHandle hloop
    rw [show (s.timers.addTimer ref iTimeMS clock s.added.length).control = s.timers.control from
      TimerState.control_addTimer _ _ _ _ _] at hloop
    rcases hinv.taken iNowMS other listHandle hloop with ⟨due, htaken⟩
    refine ⟨due, htaken.notEarly, htaken.kept.grow _, ?_, ?_⟩
    · intro stHanle hmem hkeeps
      rcases keeps_addTimer hentity hkeeps with hold | hnew
      · exact htaken.apart stHanle hmem hold
      · exact Nat.ne_of_lt (htaken.kept.lt hmem) hnew
    · intro later stHanle hkeeps hlt
      rcases keeps_addTimer hentity hkeeps with hold | hnew
      · exact htaken.first later stHanle hold hlt
      · rw [hnew] at hlt
        exact absurd hinv.entered (Nat.not_le.mpr hlt)
  case entered => exact Nat.le_trans hinv.entered (hlonger _)
  case calls => exact fun call hcall => Nat.le_trans (hinv.calls call hcall) (hlonger _)
  case law =>
    constructor
    · exact hinv.law.once
    · intro call hcall
      rcases hinv.law.notEarly call hcall with ⟨timer, htimer, hrest⟩
      refine ⟨timer, ?_, hrest⟩
      exact (List.getElem?_append_left (List.getElem?_eq_some_iff.mp htimer).1).trans htimer
    · exact hinv.law.ordered.imp (fun h hentity hlt => (h hentity hlt).grow _)

/-!
# OnTimer goes on

It takes the handlers of the earliest time, and it calls the first of what it has taken.
-/

theorem traceInv_popHandles {s : TimerTrace} (hinv : TraceInv s) {iNowMS itBegin : uint64_t}
    {setTimer : List Pointer} {ref : EntityRef} {entity : SubTimerEntity}
    {listHandle : List TimerHandle} {next : TimerState}
    (hpc : s.timers.control = .entityLoop iNowMS setTimer ref)
    (hentity : s.timers.entityAt ref = some entity)
    (hbegin : SortedMap.first entity.m_mTimer = some (itBegin, listHandle))
    (hstep : TimerState.step s.timers .advance = some next)
    (hEq : next = { s.timers.store ref.pointer
        { entity with m_mTimer := entity.m_mTimer.erase itBegin } with
      control := .handleLoop iNowMS setTimer ref listHandle }) :
    TraceInv { s with timers := next } := by
  have hinherits : s.timers.Inherits next :=
    TimerState.inherits_step hinv.safe (fun _ _ _ _ h => by cases h) hstep
  have hdue : itBegin ≤ iNowMS :=
    TimerState.due_of_taken hpc hentity hbegin hstep (by rw [hEq])
  -- in the map only later times are left
  have hleft : forall later stHanle, next.Keeps ref later stHanle -> itBegin < later := by
    intro later stHanle hkeeps
    rcases hkeeps with ⟨found, others, hfound, hget, _⟩
    have hmine : next.entityAt ref =
        some { entity with m_mTimer := entity.m_mTimer.erase itBegin } := by
      rw [hEq]
      exact TimerState.entityAt_store hentity rfl
    cases hmine.symm.trans hfound
    rcases SortedMap.getElem?_erase_some hget with ⟨hne, hold⟩
    exact BitVec.lt_of_le_ne (SortedMap.first_le hbegin hold) hne
  constructor
  case safe => exact TimerState.safe_step hinv.safe hstep
  case kept =>
    intro other found due others hfound hget
    rcases hinherits other found due others hfound hget with ⟨old, hold, hkept⟩
    exact hinv.kept other old due others hold hkept
  case taken =>
    intro now other others hloop
    rw [show ({ s with timers := next } : TimerTrace).timers.control =
      .handleLoop iNowMS setTimer ref listHandle by rw [hEq]] at hloop
    cases hloop
    refine ⟨itBegin, hdue, ?_, ?_, ?_⟩
    · exact hinv.kept ref entity itBegin listHandle hentity (SortedMap.first_getElem? hbegin)
    · intro stHanle _ hkeeps
      exact BitVec.lt_irrefl itBegin (hleft itBegin stHanle hkeeps)
    · exact fun later stHanle hkeeps _ => hleft later stHanle hkeeps
  case entered => exact hinv.entered
  case calls => exact hinv.calls
  case law => exact hinv.law.congr rfl rfl

section Call

variable {s : TimerTrace} {iNowMS due : uint64_t} {ref : EntityRef} {stHanle : TimerHandle}
  {listHandle : List TimerHandle}

/-- The handler that is called is before all that was there when `OnTimer` was entered. -/
theorem Taken.before_rest (htaken : Taken s iNowMS ref due (stHanle :: listHandle))
    {other : TimerHandle} (hmem : other ∈ listHandle) : Before s.added stHanle other := by
  rcases htaken.kept.named stHanle List.mem_cons_self with ⟨handel, hfirst⟩
  rcases htaken.kept.named other (List.mem_cons_of_mem _ hmem) with ⟨handelOther, hsecond⟩
  exact ⟨_, _, hfirst, hsecond,
    Or.inr ⟨rfl, List.rel_of_pairwise_cons htaken.kept.sorted hmem⟩⟩

theorem Taken.before_kept (htaken : Taken s iNowMS ref due (stHanle :: listHandle))
    {later : uint64_t} {others : List TimerHandle}
    (hkept : Kept s.added s.invoked ref later others) {other : TimerHandle}
    (hmem : other ∈ others) (hkeeps : s.timers.Keeps ref later other)
    (hlt : other < s.entered) : Before s.added stHanle other := by
  rcases htaken.kept.named stHanle List.mem_cons_self with ⟨handel, hfirst⟩
  rcases hkept.named other hmem with ⟨handelOther, hsecond⟩
  exact ⟨_, _, hfirst, hsecond, Or.inl (htaken.first later other hkeeps hlt)⟩

/-- A list stays one when a handler is invoked that is not in it and before it. -/
theorem Kept.call {added : List AddedTimer} {invoked : List Invocation} {other : EntityRef}
    {time : uint64_t} {others : List TimerHandle} (hkept : Kept added invoked other time others)
    (call : Invocation) (hnew : call.number ∉ others)
    (hbefore : call.entity = other -> forall later, later ∈ others -> later < call.entered ->
      Before added call.number later) :
    Kept added (invoked ++ [call]) other time others where
  named := hkept.named
  sorted := hkept.sorted
  fresh := by
    intro later hmem hinvoked
    rw [List.map_append] at hinvoked
    rcases List.mem_append.mp hinvoked with hold | hlast
    · exact hkept.fresh later hmem hold
    · rw [List.map_singleton, List.mem_singleton] at hlast
      rw [hlast] at hmem
      exact hnew hmem
  after := by
    intro before hcall hentity later hmem hlt
    rcases List.mem_append.mp hcall with hold | hlast
    · exact hkept.after before hold hentity later hmem hlt
    · rw [List.mem_singleton.mp hlast] at hentity hlt ⊢
      exact hbefore hentity later hmem hlt

theorem Kept.tail {added : List AddedTimer} {invoked : List Invocation}
    (hkept : Kept added invoked ref due (stHanle :: listHandle)) :
    Kept added invoked ref due listHandle where
  named := fun other hmem => hkept.named other (List.mem_cons_of_mem _ hmem)
  sorted := hkept.sorted.tail
  fresh := fun other hmem => hkept.fresh other (List.mem_cons_of_mem _ hmem)
  after := fun call hcall hentity other hmem =>
    hkept.after call hcall hentity other (List.mem_cons_of_mem _ hmem)

theorem Disciplined.call (hlaw : Disciplined s)
    (htaken : Taken s iNowMS ref due (stHanle :: listHandle)) {t : TimerTrace}
    (hadded : t.added = s.added)
    (hinvoked : t.invoked = s.invoked ++
      [{ entity := ref, number := stHanle, iNowMS := iNowMS, entered := s.entered }]) :
    Disciplined t where
  once := by
    unfold numbers
    rw [hinvoked, List.map_append, List.map_singleton, List.nodup_append]
    refine ⟨hlaw.once, List.pairwise_singleton _ _, ?_⟩
    intro number hnumber last hlast hEq
    rw [List.mem_singleton.mp hlast] at hEq
    rw [hEq] at hnumber
    exact htaken.kept.fresh stHanle List.mem_cons_self hnumber
  notEarly := by
    rw [hadded, hinvoked]
    intro call hcall
    rcases List.mem_append.mp hcall with hold | hlast
    · exact hlaw.notEarly call hold
    · rcases htaken.kept.named stHanle List.mem_cons_self with ⟨handel, hnamed⟩
      rw [List.mem_singleton.mp hlast]
      exact ⟨_, hnamed, rfl, htaken.notEarly⟩
  ordered := by
    rw [hadded, hinvoked]
    apply List.pairwise_append.mpr
    refine ⟨hlaw.ordered, List.pairwise_singleton _ _, ?_⟩
    intro first hfirst last hlast hentity hlt
    rw [List.mem_singleton.mp hlast] at hentity hlt ⊢
    exact htaken.kept.after first hfirst hentity stHanle List.mem_cons_self hlt

theorem traceInv_callHandler (hinv : TraceInv s) {setTimer : List Pointer}
    (hpc : s.timers.control = .handleLoop iNowMS setTimer ref (stHanle :: listHandle))
    (hsafe : TimerState.Safe { s.timers with
      control := .handler iNowMS setTimer ref stHanle listHandle }) :
    TraceInv { s with
      timers := { s.timers with control := .handler iNowMS setTimer ref stHanle listHandle },
      invoked := s.invoked ++
        [{ entity := ref, number := stHanle, iNowMS := iNowMS, entered := s.entered }] } := by
  rcases hinv.taken iNowMS ref (stHanle :: listHandle) (by rw [hpc]; rfl) with ⟨due, htaken⟩
  constructor
  case safe => exact hsafe
  case kept =>
    intro other found later others hfound hget
    have hkept := hinv.kept other found later others hfound hget
    apply hkept.call
    · intro hmem
      -- the due time of a handler is where it is kept, and there it is no more
      rcases hkept.named stHanle hmem with ⟨_, hnamed⟩
      rcases htaken.kept.named stHanle List.mem_cons_self with ⟨_, htook⟩
      cases hnamed.symm.trans htook
      exact htaken.apart stHanle List.mem_cons_self ⟨found, others, hfound, hget, hmem⟩
    · intro hentity laterHandle hmem hlt
      cases hentity
      exact htaken.before_kept hkept hmem ⟨found, others, hfound, hget, hmem⟩ hlt
  case taken =>
    intro now other others hloop
    cases hloop
    refine ⟨due, htaken.notEarly, ?_, ?_, htaken.first⟩
    · apply htaken.kept.tail.call
      · intro hmem
        exact Nat.lt_irrefl _ (List.rel_of_pairwise_cons htaken.kept.sorted hmem)
      · exact fun _ laterHandle hmem _ => htaken.before_rest hmem
    · exact fun laterHandle hmem => htaken.apart laterHandle (List.mem_cons_of_mem _ hmem)
  case entered => exact hinv.entered
  case calls =>
    intro call hcall
    rcases List.mem_append.mp hcall with hold | hlast
    · exact hinv.calls call hold
    · rw [List.mem_singleton.mp hlast]
      exact hinv.entered
  case law => exact hinv.law.call htaken rfl rfl

end Call

/-!
# Every step
-/

theorem traceInv_enter {s : TimerTrace} (hinv : TraceInv s) {id : SubTimerId}
    {ref : EntityRef} (hid : s.timers.subTimers id = some (some ref)) (iNowMS : uint64_t) :
    TraceInv (s.enter iNowMS ref) := by
  rcases hinv.safe.owned id ref hid with ⟨entity, hentity, _⟩
  have hheap := TimerState.entityAt_eq_some.mp hentity
  have hsafe := TimerState.safe_invoke hinv.safe hheap.left iNowMS []
  rw [show ({ pointer := ref.pointer, serial := entity.serial } : EntityRef) = ref by
    rw [hheap.right]] at hsafe
  have hstored : s.timers.Inherits
      (s.timers.store ref.pointer { entity with m_bHandleing := true }) :=
    TimerState.inherits_store hentity (by rfl) (fun _ _ h => h)
  unfold enter
  rw [hentity]
  exact hinv.next rfl rfl hsafe
    (TimerState.inherits_trans hstored (TimerState.inherits_of_heap rfl)) (Nat.le_refl _)
    (fun loop h => by cases h)

theorem traceInv_step {s t : TimerTrace} {a : TraceAction} (hinv : TraceInv s)
    (hstep : step s a = some t) : TraceInv t := by
  cases step_sound hstep with
  | directDone hnone =>
      exact hinv.next rfl rfl (hinv.safe.quiet rfl) (TimerState.inherits_of_heap rfl)
        hinv.entered (fun loop h => by cases h)
  | quiet hadd hclear hnext htaken =>
      exact hinv.next rfl rfl (TimerState.safe_step hinv.safe hnext)
        (TimerState.inherits_step hinv.safe hadd hnext) hinv.entered
        (fun loop h => ⟨htaken loop h, rfl⟩)
  | invoke hnext hnone =>
      exact hinv.next rfl rfl (TimerState.safe_step hinv.safe hnext)
        (TimerState.inherits_step hinv.safe (fun _ _ _ _ h => by cases h) hnext)
        (Nat.le_refl _) (fun loop h => by cases hnone.symm.trans h)
  | popHandles hpc hentity hbegin hnext hEq =>
      exact traceInv_popHandles hinv hpc hentity hbegin hnext hEq
  | callHandler hpc hnext =>
      exact traceInv_callHandler hinv hpc (TimerState.safe_step hinv.safe hnext)
  | addTimer iTimeMS clock handel hid => exact traceInv_addTimer hinv hid iTimeMS clock handel
  | clear hid hnext =>
      refine hinv.next rfl rfl (TimerState.safe_step hinv.safe hnext)
        (TimerState.inherits_step hinv.safe (fun _ _ _ _ h => by cases h) hnext)
        hinv.entered ?_
      intro loop hloop
      refine ⟨?_, rfl⟩
      rw [← TimerState.control_clear]
      exact hloop
  | enter iNowMS hid => exact traceInv_enter hinv hid iNowMS

/-- In every run the handlers are invoked at most once, not early, and in order. -/
theorem handlers_disciplined (actions : List TraceAction) :
    AllStates step Disciplined init actions :=
  allStates_of_invariant (fun _ _ _ hinv (_ : True) hstep => traceInv_step hinv hstep)
    (fun _ hinv => hinv.law) traceInv_init (allSteps_of_labels (fun _ _ _ => trivial) _)

end TimerTrace
end Utils
end GMServer
