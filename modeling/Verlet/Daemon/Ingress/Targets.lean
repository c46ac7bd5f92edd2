import Verlet.Daemon.Ingress.Routes

/-!
# Daemon — Ingress — Targets

The thread address that an envelope resolves to.  A route's threading says what its session is named
after: the source alone, the source and the actor, or the source and the conversation.  The name
joins these texts with `:` and a conversation's with `#`, and the texts come from outside.
-/

namespace Verlet.Daemon
open Support Kernel Io

/-! ### Sessions -/

def sessionIn (source : IoSource) (part : String) : String :=
  "io:" ++ source.stableScope ++ ":" ++ part

/-- What a session that is named after the actor is named after. -/
def actorPart (envelope : IngressEnvelope) : String :=
  (envelope.actor.map (·.externalActorId)).getD "anonymous"

/-- The session id of `resolve_target`. -/
def sessionId (envelope : IngressEnvelope) : String :=
  match routeThreading envelope with
  | "single_thread" | "route_single_thread" => "io:" ++ envelope.source.stableScope
  | "per_actor"                             => sessionIn envelope.source (actorPart envelope)
  | _                                       =>
    sessionIn envelope.source envelope.conversation.stableKey

variable {envelope : IngressEnvelope}

theorem sessionId_perActor (h : routeThreading envelope = "per_actor") :
    sessionId envelope = sessionIn envelope.source (actorPart envelope) := by
  simp [sessionId, h]

theorem sessionId_perConversation (h : routeThreading envelope = "per_conversation") :
    sessionId envelope = sessionIn envelope.source envelope.conversation.stableKey := by
  simp [sessionId, h]

/-! ### Addresses -/

/-- What `resolve_target` reads of the bridge of a route, and how it resolves a handle's outcome,
which takes the store's control streams. -/
structure TargetScope where
  tenantId : String
  userId : String
  modelProvider : String
  model : String
  resolveHandleOutcomeTarget : IngressEnvelope → IoResult ResolvedIoTarget

namespace TargetScope

def routeAgentRefMetadata : String := "cooldis_route_agent_ref"

variable (scope : TargetScope)

/-- A target at the address, with the bridge's policy and the scope of the source. -/
def targetAt (envelope : IngressEnvelope) (address : ThreadAddress) : ResolvedIoTarget :=
  { ResolvedIoTarget.new address with
    providerPolicy := some ⟨scope.modelProvider, scope.model, []⟩
    metadata := [("verlet_source_scope", envelope.source.stableScope)] }

/-- `resolve_handle_dispatch_target`, of the content's payload. -/
def resolveHandleDispatchTarget (envelope : IngressEnvelope) (payload : Json) :
    IoResult ResolvedIoTarget :=
  match Wire.dispatchEnvelope.fromValue payload with
  | .error err   => .error (.bridgeText ("invalid handle dispatch payload: " ++ err))
  | .ok dispatch =>
    if dispatch.handle.kind ≠ .process then
      .error (.bridgeText "handle dispatch ingress currently requires kind process")
    else if dispatch.consumer.tenantId ≠ scope.tenantId ∨
        dispatch.consumer.userId ≠ scope.userId then
      .error (.bridgeText ("handle dispatch " ++ dispatch.dispatchId.text ++
        " consumer is outside this daemon scope"))
    else
      .ok { scope.targetAt envelope ⟨dispatch.consumer.tenantId, dispatch.consumer.userId,
            dispatch.consumer.sessionId, some dispatch.consumer.threadId.uuid.text⟩ with
          createThreadIfMissing := false }

def routeTarget (envelope : IngressEnvelope) : ResolvedIoTarget :=
  let target := scope.targetAt envelope ⟨scope.tenantId, scope.userId, sessionId envelope, none⟩
  match envelope.metadata.get? routeAgentRefMetadata with
  | none          => target
  | some agentRef =>
    { target with metadata := Metadata.insert routeAgentRefMetadata agentRef target.metadata }

def resolveTarget (envelope : IngressEnvelope) : IoResult ResolvedIoTarget :=
  match envelope.content with
  | .event kind payload =>
    if kind = handleDispatchContentKind then scope.resolveHandleDispatchTarget envelope payload
    else if kind = handleOutcomeContentKind then scope.resolveHandleOutcomeTarget envelope
    else .ok (scope.routeTarget envelope)
  | _ => .ok (scope.routeTarget envelope)

@[simp] theorem routeTarget_sessionId (envelope : IngressEnvelope) :
    (scope.routeTarget envelope).address.sessionId = sessionId envelope := by
  unfold routeTarget
  cases envelope.metadata.get? routeAgentRefMetadata <;> rfl

end TargetScope

/-- The envelope comes from a conversation: it is neither a handle's dispatch nor its outcome. -/
def FromConversation (envelope : IngressEnvelope) : Prop :=
  ∀ kind payload, envelope.content = .event kind payload →
    kind ≠ handleDispatchContentKind ∧ kind ≠ handleOutcomeContentKind

theorem TargetScope.resolveTarget_eq (scope : TargetScope) (h : FromConversation envelope) :
    scope.resolveTarget envelope = .ok (scope.routeTarget envelope) := by
  unfold resolveTarget
  cases hcontent : envelope.content with
  | text | command => rfl
  | event kind payload =>
    obtain ⟨hdispatch, houtcome⟩ := h kind payload hcontent
    simp only [if_neg hdispatch, if_neg houtcome]

/-! ### Names without separators -/

/-- The sources go by the same protocol and instance. -/
def SameSource (left right : IoSource) : Prop :=
  left.protocol = right.protocol ∧ left.instanceId = right.instanceId

/-- The source's names have no `:`. -/
def PlainSource (source : IoSource) : Prop :=
  ':' ∉ source.protocol.toList ∧ ':' ∉ source.instanceId.toList

theorem sessionIn_toList (source : IoSource) (part : String) :
    (sessionIn source part).toList =
      "io:".toList ++ (source.protocol.toList ++ ':' :: (source.instanceId.toList ++
        ':' :: part.toList)) := by
  simp [sessionIn, IoSource.stableScope]

theorem sessionIn_inj {left right : IoSource}
    (h : SameSource left right ∨ (PlainSource left ∧ PlainSource right)) {part part' : String} :
    sessionIn left part = sessionIn right part' ↔ SameSource left right ∧ part = part' := by
  rw [← String.toList_inj, sessionIn_toList, sessionIn_toList, List.append_cancel_left_eq]
  rcases h with ⟨hprotocol, hinstance⟩ | ⟨⟨hp, hi⟩, hp', hi'⟩
  · simp [SameSource, hprotocol, hinstance, String.toList_inj]
  · rw [joined_inj hp hp', joined_inj hi hi']
    simp [SameSource, String.toList_inj, and_assoc]

theorem stableKey_inj {left right : IoConversation}
    (hleft : '#' ∉ left.externalConversationId.toList)
    (hright : '#' ∉ right.externalConversationId.toList) :
    left.stableKey = right.stableKey ↔
      left.externalConversationId = right.externalConversationId ∧
        left.externalThreadId = right.externalThreadId := by
  unfold IoConversation.stableKey
  rw [← String.toList_inj]
  cases left.externalThreadId with
  | none =>
    cases right.externalThreadId with
    | none          => simp [String.toList_inj]
    | some threadId =>
      have hne := joined_ne (q := right.externalConversationId.toList) hleft threadId.toList
      simp [hne]
  | some threadId =>
    cases right.externalThreadId with
    | none =>
      have hne := joined_ne (q := left.externalConversationId.toList) hright threadId.toList
      simp [hne.symm]
    | some threadId' =>
      have hinj := joined_inj hleft hright (s := threadId.toList) (t := threadId'.toList)
      simpa [String.toList_inj] using hinj

/-! ### Sessions of two envelopes -/

/-- **Conversations are told apart by names without separators.**  Two envelopes from conversations
resolve, and if their sources are the same or have no `:` in their names, then: by conversation, where
no conversation's name has a `#`, they are given one session if and only if they agree in the source,
the conversation and the thread; by actor, if and only if they agree in the source and the actor, an
absent one going by `anonymous`; and one by actor shares one by conversation on its source if and only
if the actor's name is the conversation's key. -/
theorem sessions_iff (scope : TargetScope) (left right : IngressEnvelope)
    (hleft : FromConversation left) (hright : FromConversation right)
    (hsource : SameSource left.source right.source ∨
      (PlainSource left.source ∧ PlainSource right.source)) :
    ∃ target target', scope.resolveTarget left = .ok target ∧
      scope.resolveTarget right = .ok target' ∧
      (routeThreading left = "per_conversation" → routeThreading right = "per_conversation" →
        '#' ∉ left.conversation.externalConversationId.toList →
        '#' ∉ right.conversation.externalConversationId.toList →
        (target.address.sessionId = target'.address.sessionId ↔
          SameSource left.source right.source ∧
            left.conversation.externalConversationId = right.conversation.externalConversationId ∧
            left.conversation.externalThreadId = right.conversation.externalThreadId)) ∧
      (routeThreading left = "per_actor" → routeThreading right = "per_actor" →
        (target.address.sessionId = target'.address.sessionId ↔
          SameSource left.source right.source ∧ actorPart left = actorPart right)) ∧
      (routeThreading left = "per_actor" → routeThreading right = "per_conversation" →
        (target.address.sessionId = target'.address.sessionId ↔
          SameSource left.source right.source ∧ actorPart left = right.conversation.stableKey)) := by
  refine ⟨_, _, scope.resolveTarget_eq hleft, scope.resolveTarget_eq hright, ?_, ?_, ?_⟩
  · intro hthreading hthreading' hplain hplain'
    rw [TargetScope.routeTarget_sessionId, TargetScope.routeTarget_sessionId,
      sessionId_perConversation hthreading, sessionId_perConversation hthreading',
      sessionIn_inj hsource, stableKey_inj hplain hplain']
  · intro hthreading hthreading'
    rw [TargetScope.routeTarget_sessionId, TargetScope.routeTarget_sessionId,
      sessionId_perActor hthreading, sessionId_perActor hthreading', sessionIn_inj hsource]
  · intro hthreading hthreading'
    rw [TargetScope.routeTarget_sessionId, TargetScope.routeTarget_sessionId,
      sessionId_perActor hthreading, sessionId_perConversation hthreading', sessionIn_inj hsource]

/-! ### Envelopes to try it on -/

/-- A bridge for one user. -/
def sampleScope : TargetScope where
  tenantId := "tenant"
  userId := "user"
  modelProvider := "anthropic"
  model := "model"
  resolveHandleOutcomeTarget _ := .error (.bridgeText "no handle outcome has a binding")

def delivered (threading : String) (source : IoSource) (conversation : String)
    (thread : Option String) (actor : Option String) : IngressEnvelope where
  id := "ing-1"
  source := source
  conversation := ⟨conversation, .group, none, thread, []⟩
  actor := actor.map fun id => ⟨id, none, false, []⟩
  content := .text "hello"
  attachments := []
  dedupeKey := none
  delivery := some ⟨"d-1", none, []⟩
  principal := some ⟨"tenant", "user", "route"⟩
  receivedAtMs := 0
  metadata := [("cooldis_route_threading", threading)]

def shareSession (left right : IngressEnvelope) : Bool :=
  match sampleScope.resolveTarget left, sampleScope.resolveTarget right with
  | .ok target, .ok target' =>
    left.requireAttributed target = .ok () && right.requireAttributed target' = .ok () &&
      target.address.sessionId = target'.address.sessionId
  | _, _ => false

theorem fromConversation_delivered (threading : String) (source : IoSource) (conversation : String)
    (thread actor : Option String) :
    FromConversation (delivered threading source conversation thread actor) := by
  rintro kind payload ⟨⟩

/-- **Names that hold the separators run together**: a conversation whose name has a `#` with the
thread of another, sources of one protocol whose instances and conversations share a `:`, and sources
whose protocols and instances do.  By actor, sources run together likewise, and an absent actor with
one named `anonymous`; and an actor runs together with another conversation that has its name. -/
theorem sessions_run_together :
    shareSession (delivered "per_conversation" ⟨"chat", "main", []⟩ "room#1" none none)
        (delivered "per_conversation" ⟨"chat", "main", []⟩ "room" (some "1") none) ∧
      shareSession (delivered "per_conversation" ⟨"chat", "main:eu", []⟩ "room" none none)
        (delivered "per_conversation" ⟨"chat", "main", []⟩ "eu:room" none none) ∧
      shareSession (delivered "per_conversation" ⟨"chat:main", "eu", []⟩ "room" none none)
        (delivered "per_conversation" ⟨"chat", "main:eu", []⟩ "room" none none) ∧
      shareSession (delivered "per_actor" ⟨"chat", "main:eu", []⟩ "room" none (some "ann"))
        (delivered "per_actor" ⟨"chat", "main", []⟩ "room" none (some "eu:ann")) ∧
      shareSession (delivered "per_actor" ⟨"chat", "main", []⟩ "room" none none)
        (delivered "per_actor" ⟨"chat", "main", []⟩ "room" none (some "anonymous")) ∧
      shareSession (delivered "per_actor" ⟨"chat", "main", []⟩ "room" none (some "lobby"))
        (delivered "per_conversation" ⟨"chat", "main", []⟩ "lobby" none none) := by
  decide

/-- Two threads of one conversation, under sources of one instance. -/
theorem sessions_iff_sample :
    ∃ target target',
      sampleScope.resolveTarget
        (delivered "per_conversation" ⟨"chat", "main", []⟩ "a:room" (some "1") none) = .ok target ∧
      sampleScope.resolveTarget
        (delivered "per_conversation" ⟨"chat", "main", []⟩ "a:room" (some "2") none) = .ok target' ∧
      target.address.sessionId ≠ target'.address.sessionId := by
  obtain ⟨target, target', hleft, hright, hconversation, -⟩ := sessions_iff sampleScope
    (delivered "per_conversation" ⟨"chat", "main", []⟩ "a:room" (some "1") none)
    (delivered "per_conversation" ⟨"chat", "main", []⟩ "a:room" (some "2") none)
    (fromConversation_delivered _ _ _ _ _) (fromConversation_delivered _ _ _ _ _)
    (.inl ⟨rfl, rfl⟩)
  refine ⟨target, target', hleft, hright, ?_⟩
  intro h
  have hthread := ((hconversation rfl rfl (by decide) (by decide)).mp h).2.2
  exact absurd hthread (by decide)

end Verlet.Daemon
