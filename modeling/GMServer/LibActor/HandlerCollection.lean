import GMServer.LibActor.NamePool

/-!
# Message handlers

A message knows the number of its type and nothing else about it.  `HandlerCollection` finds
the handler by that number and casts without a check.  The number is the hash of the name
that the type is registered under, or zero.
-/

namespace GMServer
namespace LibActor

open Std

/-- `type` is the template argument. -/
structure ValueMessage (ValueType value : Type) where
  type : ValueType
  m_From : Address
  m_Value : value

structure MessageHandler (ValueType Function : Type) where
  type : ValueType
  m_Actor : Option Nat
  m_HandlerFunction : Option Function
  m_pDebugInfor : Option Text

/-- The call of a handler function, with the message that was cast for it. -/
structure Invocation (ValueType value Function : Type) where
  handler : MessageHandler ValueType Function
  message : ValueMessage ValueType value

/-- `typeName` gives the names of the types that `ACTOR_REGISTER_MESSAGE` was used for. -/
def MessageTraits.TYPE_ID {ValueType : Type} (typeName : ValueType -> Option Text)
    (type : ValueType) : uint32_t :=
  match typeName type with
  | none => 0
  | some name => NamePool.Hash name

structure HandlerCollection (ValueType Function : Type) where
  m_mapHandles : ExtTreeMap uint32_t (MessageHandler ValueType Function)

namespace HandlerCollection

open Transition MessageTraits

variable {ValueType value Function : Type}

def empty : HandlerCollection ValueType Function := { m_mapHandles := ∅ }

/-- The last assertion fails wherever it is reached. -/
def Add (typeName : ValueType -> Option Text) (handlers : HandlerCollection ValueType Function)
    (handler : MessageHandler ValueType Function) :
    Except Fault (HandlerCollection ValueType Function) :=
  if handler.m_Actor.isNone then .error .assertFailed
  else if handler.m_HandlerFunction.isNone then .error .assertFailed
  else
    match handlers.m_mapHandles[TYPE_ID typeName handler.type]? with
    | none =>
        .ok { m_mapHandles :=
          handlers.m_mapHandles.insert (TYPE_ID typeName handler.type) handler }
    | some _ => .error .assertFailed

/-- `MessageHandler::Handle`; the message is not null where it is called. -/
def invoke (handler : MessageHandler ValueType Function)
    (message : ValueMessage ValueType value) :
    Except Fault (Invocation ValueType value Function) :=
  if handler.m_Actor.isNone then .error .assertFailed
  else if handler.m_HandlerFunction.isNone then .error .assertFailed
  else .ok { handler := handler, message := message }

/-- No invocation where it returns false. -/
def Handle (typeName : ValueType -> Option Text)
    (handlers : HandlerCollection ValueType Function)
    (message : Option (ValueMessage ValueType value)) :
    Except Fault (Option (Invocation ValueType value Function)) :=
  match message with
  | none => .error .nullPointer
  | some message =>
      match handlers.m_mapHandles[TYPE_ID typeName message.type]? with
      | none => .ok none
      | some handler => (invoke handler message).map some

/-- The calls of `Add` up to the first whose assertions fail. -/
def step (typeName : ValueType -> Option Text)
    (handlers : HandlerCollection ValueType Function)
    (handler : MessageHandler ValueType Function) :
    Option (HandlerCollection ValueType Function) :=
  (handlers.Add typeName handler).toOption

/-!
# Safe dispatch
-/

/-- No assertion about its pointers fails. -/
def Usable (handler : MessageHandler ValueType Function) : Prop :=
  handler.m_Actor.isNone = false ∧ handler.m_HandlerFunction.isNone = false

/-- For messages and handlers of one type: what is called was added for that type, and one
more handler is refused only if there is one for that type. -/
structure DispatchSafe (typeName : ValueType -> Option Text)
    (handlers : HandlerCollection ValueType Function)
    (added : List (MessageHandler ValueType Function)) (type : ValueType) : Prop where
  invoked : forall {value : Type} (message : ValueMessage ValueType value) invocation,
    message.type = type -> handlers.Handle typeName (some message) = .ok (some invocation) ->
      invocation.handler.type = invocation.message.type
  accepted : forall handler, handler.type = type -> Usable handler ->
    (forall earlier, earlier ∈ added -> earlier.type ≠ type) ->
      exists next, handlers.Add typeName handler = .ok next

/-!
# What is in the map
-/

variable {typeName : ValueType -> Option Text} {handlers : HandlerCollection ValueType Function}

theorem add_spec {handler : MessageHandler ValueType Function}
    {next : HandlerCollection ValueType Function} (h : handlers.Add typeName handler = .ok next) :
    Usable handler ∧ handlers.m_mapHandles[TYPE_ID typeName handler.type]? = none ∧
      next.m_mapHandles =
        handlers.m_mapHandles.insert (TYPE_ID typeName handler.type) handler := by
  unfold Add at h
  split at h
  · cases h
  · rename_i hactor
    split at h
    · cases h
    · rename_i hfunction
      split at h
      · rename_i hnone
        cases h
        exact ⟨⟨Bool.eq_false_iff.mpr hactor, Bool.eq_false_iff.mpr hfunction⟩, hnone, rfl⟩
      · cases h

theorem add_of_none {handler : MessageHandler ValueType Function} (husable : Usable handler)
    (hnone : handlers.m_mapHandles[TYPE_ID typeName handler.type]? = none) :
    exists next, handlers.Add typeName handler = .ok next := by
  refine ⟨{ m_mapHandles :=
    handlers.m_mapHandles.insert (TYPE_ID typeName handler.type) handler }, ?_⟩
  unfold Add
  rw [if_neg (Bool.eq_false_iff.mp husable.left), if_neg (Bool.eq_false_iff.mp husable.right),
    hnone]

theorem handle_spec {message : ValueMessage ValueType value}
    {invocation : Invocation ValueType value Function}
    (h : handlers.Handle typeName (some message) = .ok (some invocation)) :
    handlers.m_mapHandles[TYPE_ID typeName message.type]? = some invocation.handler ∧
      invocation.message = message := by
  unfold Handle at h
  dsimp only at h
  split at h
  · cases h
  · rename_i handler hget
    unfold invoke at h
    split at h
    · cases h
    · split at h
      · cases h
      · cases h
        exact ⟨hget, rfl⟩

theorem step_eq_some {handler : MessageHandler ValueType Function}
    {next : HandlerCollection ValueType Function}
    (hstep : step typeName handlers handler = some next) :
    handlers.Add typeName handler = .ok next := by
  unfold step at hstep
  cases hresult : handlers.Add typeName handler with
  | error fault =>
      rw [hresult] at hstep
      cases hstep
  | ok other =>
      rw [hresult] at hstep
      cases hstep
      rfl

theorem added_usable {start last : HandlerCollection ValueType Function}
    {added : List (MessageHandler ValueType Function)}
    (hrun : Run (step typeName) start added = some last)
    {handler : MessageHandler ValueType Function} (hmem : handler ∈ added) : Usable handler := by
  induction added generalizing start with
  | nil => cases hmem
  | cons first added ih =>
      rcases run_cons_eq_some hrun with ⟨next, hstep, hrest⟩
      rcases List.mem_cons.mp hmem with hfirst | hlater
      · rw [hfirst]
        exact (add_spec (step_eq_some hstep)).left
      · exact ih hrest hlater

/-- Every handler that was added is found under the number of its type, and no other. -/
theorem run_handlers {start last : HandlerCollection ValueType Function}
    {added : List (MessageHandler ValueType Function)}
    (hrun : Run (step typeName) start added = some last) (id : uint32_t)
    (handler : MessageHandler ValueType Function) :
    last.m_mapHandles[id]? = some handler <->
      start.m_mapHandles[id]? = some handler ∨
        handler ∈ added ∧ TYPE_ID typeName handler.type = id := by
  induction added generalizing start with
  | nil =>
      cases hrun
      exact (or_iff_left (fun h => absurd h.left List.not_mem_nil)).symm
  | cons first added ih =>
      rcases run_cons_eq_some hrun with ⟨next, hstep, hrest⟩
      rcases add_spec (step_eq_some hstep) with ⟨_, hnone, hnext⟩
      rw [ih hrest, hnext, SortedMap.getElem?_insert_eq, List.mem_cons]
      by_cases hid : TYPE_ID typeName first.type = id
      · rw [if_pos hid, ← hid, hnone, Option.some.injEq]
        constructor
        · intro h
          rcases h with hfirst | hlater
          · exact Or.inr ⟨Or.inl hfirst.symm, hfirst ▸ rfl⟩
          · exact Or.inr ⟨Or.inr hlater.left, hlater.right⟩
        · intro h
          rcases h with hbefore | ⟨hfirst | hlater, hsame⟩
          · cases hbefore
          · exact Or.inl hfirst.symm
          · exact Or.inr ⟨hlater, hsame⟩
      · rw [if_neg hid]
        constructor
        · intro h
          exact h.imp_right (fun hlater => ⟨Or.inr hlater.left, hlater.right⟩)
        · intro h
          rcases h with hbefore | ⟨hfirst | hlater, hsame⟩
          · exact Or.inl hbefore
          · exact absurd (hfirst ▸ hsame) hid
          · exact Or.inr ⟨hlater, hsame⟩

theorem handlers_added {added : List (MessageHandler ValueType Function)}
    (hrun : Run (step typeName) empty added = some handlers) (id : uint32_t)
    (handler : MessageHandler ValueType Function) :
    handlers.m_mapHandles[id]? = some handler <->
      handler ∈ added ∧ TYPE_ID typeName handler.type = id := by
  rw [run_handlers hrun]
  apply or_iff_right
  intro h
  rw [show (empty : HandlerCollection ValueType Function).m_mapHandles = ∅ from rfl,
    ExtTreeMap.getElem?_empty] at h
  cases h

/-!
# When dispatch is safe
-/

/-- It is for a type whose number none of the other types has that a handler was added for. -/
theorem dispatchSafe_iff {added : List (MessageHandler ValueType Function)}
    (hrun : Run (step typeName) empty added = some handlers) (type : ValueType) :
    DispatchSafe typeName handlers added type <->
      forall earlier, earlier ∈ added ->
        TYPE_ID typeName earlier.type = TYPE_ID typeName type -> earlier.type = type := by
  have hmap := handlers_added hrun (TYPE_ID typeName type)
  constructor
  · intro hsafe earlier hmem hid
    have hearlier := (hmap earlier).mpr ⟨hmem, hid⟩
    by_contra hne
    -- no handler can have been added for the type
    have hnone : forall other, other ∈ added -> other.type ≠ type := by
      intro other hother hEq
      have hget := (hmap other).mpr ⟨hother, hEq ▸ rfl⟩
      rw [hearlier] at hget
      exact hne ((Option.some.inj hget) ▸ hEq)
    have husable := added_usable hrun hmem
    rcases hsafe.accepted { earlier with type := type } rfl husable hnone with ⟨next, hadd⟩
    rw [(add_spec hadd).right.left] at hearlier
    cases hearlier
  · intro hapart
    constructor
    · intro value message invocation htype hhandle
      rcases handle_spec hhandle with ⟨hget, hmessage⟩
      rw [htype] at hget
      rcases (hmap invocation.handler).mp hget with ⟨hmem, hid⟩
      rw [hmessage, htype]
      exact hapart _ hmem hid
    · intro handler htype husable hnone
      apply add_of_none husable
      rw [htype]
      by_contra hsome
      rcases Option.ne_none_iff_exists'.mp hsome with ⟨earlier, hget⟩
      rcases (hmap earlier).mp hget with ⟨hmem, hid⟩
      exact hnone earlier hmem (hapart earlier hmem hid)

/-!
# Types that share a number

Two types that are registered under different names, and two that are not registered.
-/

def handlerFor (type : Bool) : MessageHandler Bool Nat :=
  { type := type, m_Actor := some 1, m_HandlerFunction := some 1, m_pDebugInfor := none }

def pairNames (first second : Option Text) (type : Bool) : Option Text :=
  if type then second else first

theorem namesApart_safe :
    exists handlers, Run (step (pairNames (some "Az".toList) (some "Ay".toList))) empty
        [handlerFor false] = some handlers ∧
      DispatchSafe (pairNames (some "Az".toList) (some "Ay".toList)) handlers
        [handlerFor false] true := by
  have hruns : (Run (step (pairNames (some "Az".toList) (some "Ay".toList))) empty
      [handlerFor false]).isSome := by
    decide +kernel
  rcases Option.isSome_iff_exists.mp hruns with ⟨handlers, hrun⟩
  refine ⟨handlers, hrun, (dispatchSafe_iff hrun true).mpr ?_⟩
  intro earlier hmem hid
  rw [List.mem_singleton.mp hmem] at hid
  exact absurd hid (by decide)

/-- A handler for the first of two types with one number is called for the second. -/
theorem not_dispatchSafe_of_shared {first second : Option Text}
    (hshared : TYPE_ID (pairNames first second) false = TYPE_ID (pairNames first second) true) :
    exists handlers, Run (step (pairNames first second)) empty [handlerFor false] =
        some handlers ∧
      ¬ DispatchSafe (pairNames first second) handlers [handlerFor false] true := by
  have husable : Usable (handlerFor false) := ⟨rfl, rfl⟩
  have hempty : (empty : HandlerCollection Bool Nat).m_mapHandles[TYPE_ID
      (pairNames first second) (handlerFor false).type]? = none :=
    ExtTreeMap.getElem?_empty
  rcases add_of_none husable hempty with ⟨handlers, hadd⟩
  have hrun : Run (step (pairNames first second)) empty [handlerFor false] = some handlers := by
    apply run_cons_of_step
    unfold step
    rw [hadd]
    rfl
  have hget := (handlers_added hrun (TYPE_ID (pairNames first second) true)
    (handlerFor false)).mpr ⟨List.mem_cons_self, hshared⟩
  refine ⟨handlers, hrun, ?_⟩
  intro hsafe
  have hhandle : handlers.Handle (pairNames first second)
      (some { type := true, m_From := Address.ofUint32 0, m_Value := () }) =
        .ok (some
          { handler := handlerFor false,
            message := { type := true, m_From := Address.ofUint32 0, m_Value := () } }) := by
    unfold Handle
    dsimp only
    rw [hget]
    rfl
  cases hsafe.invoked _ _ rfl hhandle

theorem sharedNumbers_unsafe :
    (exists handlers, Run (step (pairNames (some "Az".toList) (some "BY".toList))) empty
        [handlerFor false] = some handlers ∧
      ¬ DispatchSafe (pairNames (some "Az".toList) (some "BY".toList)) handlers
        [handlerFor false] true) ∧
    exists handlers, Run (step (pairNames none none)) empty [handlerFor false] =
        some handlers ∧
      ¬ DispatchSafe (pairNames none none) handlers [handlerFor false] true :=
  ⟨not_dispatchSafe_of_shared (by decide), not_dispatchSafe_of_shared rfl⟩

end HandlerCollection
end LibActor
end GMServer
