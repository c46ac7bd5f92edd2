import Verlet.Daemon.HandleIngress.Streams

/-!
# Daemon — Thread handle ingress — Deliveries

What is to hold of a joined child, and what a pass does for it.  The sink takes one outcome of a dispatch
id, whoever's child it is of; a pass gives it outcomes of joined children only, and acknowledges what the
sink has taken.

* `Good.move`, `Good.serves`: what every step keeps.
-/

namespace Verlet.Daemon.HandleIngress
open Support Kernel Io History
open RemoteStore (DispatchId VerletError)

variable {adapter : ThreadHandleIngressAdapter} {rows rows' : List EventRecord}
  {s s' s'' : IngressWorld} {binding binding' : ThreadHandleBinding} {envelope : IngressEnvelope}

/-! ### What is to hold -/

/-- The binding is of a thread of the adapter's, on its control stream. -/
def Bound (adapter : ThreadHandleIngressAdapter) (rows : List EventRecord) (binding : ThreadHandleBinding) :
    Prop :=
  adapter.InScope binding.consumer ∧
    ∃ spawned, Binds (eventsOf rows (controlStreamId binding.consumer)) spawned binding

/-- Its child has been joined. -/
def Joined (adapter : ThreadHandleIngressAdapter) (rows : List EventRecord) (binding : ThreadHandleBinding) :
    Prop :=
  Bound adapter rows binding ∧
    ∃ joined, JoinedIn (eventsOf rows (controlStreamId binding.consumer)) joined binding

/-- No other thread has a binding of the dispatch of a joined child. -/
def Unshared (adapter : ThreadHandleIngressAdapter) (rows : List EventRecord) : Prop :=
  ∀ binding binding', Joined adapter rows binding → Bound adapter rows binding' →
    binding'.dispatchId = binding.dispatchId → binding'.consumer = binding.consumer

def outcomeKey (dispatchId : DispatchId) : IoDedupeKey := ⟨handleOutcomeContentKind, dispatchId.text⟩

def outcomeOf (envelope : IngressEnvelope) : Option HandleTerminalEnvelope :=
  match envelope.content with
  | .event kind payload =>
    if kind = handleOutcomeContentKind then (Wire.terminalEnvelope.fromValue payload).toOption else none
  | _ => none

def reports (binding : ThreadHandleBinding) (envelope : IngressEnvelope) : Bool :=
  envelope.effectiveDedupeKey = some (outcomeKey binding.dispatchId) ∧
    envelope.conversation.externalConversationId = "thread:" ++ binding.consumer.threadId.uuid.text ∧
    (outcomeOf envelope).map (fun terminal => (terminal.dispatchId, terminal.handle)) =
      some (binding.dispatchId, binding.handle)

def deliveries (binding : ThreadHandleBinding) (s : IngressWorld) : List IngressEnvelope :=
  s.accepted.filter (reports binding)

/-- The sink has accepted an outcome of the dispatch. -/
def Taken (s : IngressWorld) (dispatchId : String) : Prop :=
  ∃ envelope ∈ s.accepted, envelope.effectiveDedupeKey = some (outcomeKey ⟨dispatchId⟩)

/-- What is so in every state. -/
structure Good (adapter : ThreadHandleIngressAdapter) (s : IngressWorld) : Prop where
  written : ∀ streamId, Written (eventsOf s.rows streamId)
  scope : ∀ row ∈ s.rows, adapter.InScope row.coordinates
  streams : ∀ row ∈ s.rows, row.kind = .threadSpawned → rawCorrelation row ≠ none →
    controlStreamId row.coordinates = row.streamId
  keys : (s.accepted.map IngressEnvelope.effectiveDedupeKey).Nodup
  acknowledged : ∀ dispatchId ∈ s.acknowledged, Taken s dispatchId
  accepted : ∀ envelope ∈ s.accepted, ∃ binding, Joined adapter s.rows binding ∧ reports binding envelope = true

/-- What a program relies on: the streams grow, and so does what the sink has accepted.  In calm, no dispatch
comes to be shared. -/
structure Rely (adapter : ThreadHandleIngressAdapter) (calm : Prop) (s s' : IngressWorld) : Prop where
  rows : s.rows <+: s'.rows
  accepted : s.accepted <+: s'.accepted
  good : Good adapter s → Good adapter s'
  unshared : calm → Unshared adapter s.rows → Unshared adapter s'.rows

def answers (calm : Prop) (call : IngressCall) (s : IngressWorld) (r : call.Reply) (s' : IngressWorld) : Prop :=
  ingressServes call s r s' ∧ (calm → Answered call r)

/-- The sink is given outcomes of joined children, and what is acknowledged it has accepted. -/
def asks (adapter : ThreadHandleIngressAdapter) : IngressCall → IngressWorld → Prop
  | .submit envelope, s => ∃ binding, Joined adapter s.rows binding ∧ reports binding envelope = true
  | .acknowledge dispatchId, s => Taken s dispatchId
  | _, _ => True

/-- **Every joined child is reported once, to its own parent**: no more than one outcome of it is accepted; a
pass that is answered leaves exactly one; and that resolves to its consumer. -/
structure Reported (adapter : ThreadHandleIngressAdapter) (policy : TargetPolicy) (s : IngressWorld) : Prop where
  once : ∀ binding, Joined adapter s.rows binding → (deliveries binding s).length ≤ 1
  delivered : (pollReadyOnce adapter).run.Meets (Rely adapter True) (fun _ _ => True) (answers True)
    (fun _ s' => ∀ binding, Joined adapter s.rows binding → (deliveries binding s').length = 1) s
  resolved : ∀ binding envelope kind payload, Joined adapter s.rows binding → reports binding envelope = true →
    envelope.content = .event kind payload →
      (resolveHandleOutcomeTarget adapter policy envelope payload).run.Meets (Rely adapter True)
        (fun _ _ => True) (answers True)
        (fun result _ => result = .ok (outcomeTarget policy envelope binding.consumer)) s

/-! ### Streams that grow -/

theorem eventsOf_append (event : EventRecord) (streamId : EventStreamId) :
    eventsOf (rows ++ [event]) streamId =
      eventsOf rows streamId ++ if event.streamId = streamId then [event] else [] := by
  rw [eventsOf, List.filter_append]
  by_cases h : event.streamId = streamId <;> simp [eventsOf, h]

theorem eventsOf_grows (h : rows <+: rows') (streamId : EventStreamId) :
    eventsOf rows streamId <+: eventsOf rows' streamId := h.filter _

theorem Bound.mono (h : rows <+: rows') (hbound : Bound adapter rows binding) :
    Bound adapter rows' binding := by
  obtain ⟨hscope, spawned, hbinds⟩ := hbound
  obtain ⟨later, hlater⟩ := eventsOf_grows h (controlStreamId binding.consumer)
  exact ⟨hscope, spawned, hlater ▸ hbinds.append later⟩

theorem Joined.mono (h : rows <+: rows') (hjoined : Joined adapter rows binding) :
    Joined adapter rows' binding := by
  obtain ⟨hbound, joined, hmem, hrest⟩ := hjoined
  exact ⟨hbound.mono h, joined, (eventsOf_grows h _).subset hmem, hrest⟩

theorem Taken.mono {dispatchId : String} (h : s.accepted <+: s'.accepted) (htaken : Taken s dispatchId) :
    Taken s' dispatchId := by
  obtain ⟨envelope, hmem, hkey⟩ := htaken
  exact ⟨envelope, h.subset hmem, hkey⟩

theorem Rely.refl (calm : Prop) (s : IngressWorld) : Rely adapter calm s s :=
  ⟨List.prefix_refl _, List.prefix_refl _, id, fun _ => id⟩

theorem Rely.trans {calm : Prop} (h : Rely adapter calm s s') (h' : Rely adapter calm s' s'') :
    Rely adapter calm s s'' :=
  ⟨h.rows.trans h'.rows, h.accepted.trans h'.accepted, fun hgood => h'.good (h.good hgood),
    fun hcalm hunshared => h'.unshared hcalm (h.unshared hcalm hunshared)⟩

theorem Good.bound (h : Good adapter s) {streamId : EventStreamId} {spawned : EventRecord}
    (hbinds : Binds (eventsOf s.rows streamId) spawned binding) :
    Bound adapter s.rows binding ∧ controlStreamId binding.consumer = streamId := by
  obtain ⟨hmem, hstream⟩ := List.mem_filter.mp hbinds.1
  have hcontrol := h.streams spawned hmem hbinds.2.1 (by simp [hbinds.correlation])
  rw [of_decide_eq_true hstream, ← hbinds.consumer] at hcontrol
  exact ⟨⟨hbinds.consumer ▸ h.scope spawned hmem, spawned, hcontrol ▸ hbinds⟩, hcontrol⟩

theorem Good.binding_eq (h : Good adapter s) (hbound : Bound adapter s.rows binding)
    (hbound' : Bound adapter s.rows binding') (hconsumer : binding.consumer = binding'.consumer)
    (hid : binding.dispatchId = binding'.dispatchId) : binding = binding' := by
  obtain ⟨-, spawned, hbinds⟩ := hbound
  obtain ⟨-, spawned', hbinds'⟩ := hbound'
  rw [← hconsumer] at hbinds'
  exact (h.written _).bindable.eq hbinds hbinds' hid

/-! ### What every step keeps -/

theorem Good.move (h : Good adapter s) (hmoves : IngressMoves adapter s s') : Good adapter s' := by
  cases hmoves with
  | append event hid hscope hwrites =>
    have hprefix : s.rows <+: s.rows ++ [event] := List.prefix_append _ _
    refine ⟨fun streamId => ?_, fun row hrow => ?_, fun row hrow hkind hcorrelation => ?_, h.keys,
      h.acknowledged, fun envelope henvelope => ?_⟩
    · change Written (eventsOf (s.rows ++ [event]) streamId)
      rw [eventsOf_append]
      split
      · next hstream =>
        subst hstream
        exact .append (h.written _) (fun row hrow => hid row (List.mem_filter.mp hrow).1) hwrites
      · rw [List.append_nil]
        exact h.written streamId
    · rcases List.mem_append.mp hrow with hrow | hrow
      · exact h.scope row hrow
      · obtain rfl := List.mem_singleton.mp hrow
        exact hscope
    · rcases List.mem_append.mp hrow with hrow | hrow
      · exact h.streams row hrow hkind hcorrelation
      · obtain rfl := List.mem_singleton.mp hrow
        obtain ⟨request, requested, payload, hspawned⟩ := hwrites.of_spawned hkind hcorrelation
        exact hspawned.hstream
    · obtain ⟨binding, hjoined, hreports⟩ := h.accepted envelope henvelope
      exact ⟨binding, hjoined.mono hprefix, hreports⟩
  | restart => exact ⟨h.written, h.scope, h.streams, h.keys, nofun, h.accepted⟩

theorem Good.accepts (h : Good adapter s) (haccepts : Accepts envelope s s')
    (hasks : asks adapter (.submit envelope) s) : Good adapter s' := by
  obtain ⟨hnew, rfl⟩ := haccepts
  obtain ⟨binding, hjoined, hreports⟩ := hasks
  refine ⟨h.written, h.scope, h.streams, ?_, fun dispatchId hmem => ?_, fun earlier hearlier => ?_⟩
  · rw [List.map_append, List.nodup_append]
    refine ⟨h.keys, List.nodup_singleton _, ?_⟩
    rintro key hkey key' hkey' rfl
    obtain ⟨earlier, hearlier, heq⟩ := List.mem_map.mp hkey
    exact hnew earlier hearlier (heq.trans (List.mem_singleton.mp hkey'))
  · exact (h.acknowledged dispatchId hmem).mono (List.prefix_append _ _)
  · rcases List.mem_append.mp hearlier with hearlier | hearlier
    · exact h.accepted earlier hearlier
    · obtain rfl := List.mem_singleton.mp hearlier
      exact ⟨binding, hjoined, hreports⟩

variable {call : IngressCall}

/-- **Every call that is made as it may be keeps what is so.** -/
theorem Good.serves {r : call.Reply} (h : Good adapter s) (hasks : asks adapter call s)
    (hserves : ingressServes call s r s') :
    Good adapter s' ∧ s'.rows = s.rows ∧ s.accepted <+: s'.accepted := by
  have same (hsame : s' = s) : Good adapter s' ∧ s'.rows = s.rows ∧ s.accepted <+: s'.accepted := by
    subst hsame
    exact ⟨h, rfl, List.prefix_refl _⟩
  have takes {envelope : IngressEnvelope} (haccepts : Accepts envelope s s')
      (hasks : asks adapter (.submit envelope) s) :
      Good adapter s' ∧ s'.rows = s.rows ∧ s.accepted <+: s'.accepted := by
    refine ⟨h.accepts haccepts hasks, ?_⟩
    obtain ⟨-, rfl⟩ := haccepts
    exact ⟨rfl, List.prefix_append _ _⟩
  cases call with
  | listControlStreamCoordinates => exact same hserves.2
  | readEvents streamId => exact same hserves.2
  | buildContext child => exact same hserves
  | seed => exact same hserves
  | isAcknowledged dispatchId => exact same hserves.2
  | submit envelope =>
    cases hserves with
    | accepted ack haccepted haccepts => exact takes haccepts hasks
    | duplicate ack haccepted hreason hkey => exact same rfl
    | rejected ack haccepted hreason => exact same rfl
    | failed err => exact same rfl
    | lost err haccepts => exact takes haccepts hasks
  | acknowledge dispatchId =>
    obtain rfl : s' = { s with acknowledged := dispatchId :: s.acknowledged } := hserves
    refine ⟨⟨h.written, h.scope, h.streams, h.keys, fun found hfound => ?_, h.accepted⟩, rfl, List.prefix_refl _⟩
    rcases List.mem_cons.mp hfound with rfl | hfound
    · exact hasks
    · exact h.acknowledged found hfound

theorem rely_of_serves {r : call.Reply} (calm : Prop) (hasks : asks adapter call s)
    (hgood : Good adapter s) (hserves : ingressServes call s r s') : Rely adapter calm s s' := by
  obtain ⟨hgood', hrows, haccepted⟩ := hgood.serves hasks hserves
  exact ⟨hrows ▸ List.prefix_refl _, haccepted, fun _ => hgood', fun _ hunshared => hrows ▸ hunshared⟩

theorem rely_of_moves {calm : Prop} (hmoves : IngressMoves adapter s s')
    (hcalm : calm → Unshared adapter s.rows → Unshared adapter s'.rows) : Rely adapter calm s s' := by
  refine ⟨?_, ?_, fun hgood => hgood.move hmoves, hcalm⟩
  · cases hmoves with
    | append event _ _ _ => exact List.prefix_append _ _
    | restart => exact List.prefix_refl _
  · cases hmoves <;> exact List.prefix_refl _

/-! ### Outcomes -/

def SettlementOf (binding : ThreadHandleBinding) (settlement : ThreadTerminalSettlement) : Prop :=
  settlement.consumer = binding.consumer ∧ settlement.dispatchId = binding.dispatchId ∧
    HandleId.thread settlement.childThreadId = binding.handle

theorem reads_runtimeUsage : Wire.Reads Wire.runtimeUsage.toValue Wire.runtimeUsage.fromValue := by
  refine ⟨fun usage => ?_, fun _ => by simp [Wire.runtimeUsage, Wire.object]⟩
  refine bind_ok.mpr ⟨_, rfl, Wire.reads_natural.required ?_ <| Wire.reads_natural.required ?_ <|
    Wire.reads_natural.required ?_ <| Wire.reads_natural.required ?_ rfl⟩
  all_goals simp [Wire.get?_object]

theorem latestAssistantResult_ne_null (context : SessionContext) (child : ThreadId) :
    latestAssistantResult context child ≠ some .null := by
  intro h
  obtain ⟨said, -, htext⟩ := List.exists_of_findSome?_eq_some h
  unfold resultText at htext
  dsimp only at htext
  split at htext <;> cases htext

/-- **What an envelope says of a child is read back.** -/
theorem terminal_fromValue (settlement : ThreadTerminalSettlement) (context : SessionContext) :
    Wire.terminalEnvelope.fromValue (Wire.terminalEnvelope.toValue (settlement.terminal context)) =
      .ok (settlement.terminal context) := by
  refine bind_ok.mpr ⟨_, rfl, Wire.reads_dispatchId.required ?_ <|
    Wire.reads_handleId.required ?_ <| Wire.reads_terminalOutcome.required ?_ <|
    Wire.reads_text.option ?_ <|
    bind_ok.mpr ⟨_, Wire.option_value ?_ (latestAssistantResult_ne_null context settlement.childThreadId),
    bind_ok.mpr ⟨none, Wire.option_absent ?_, bind_ok.mpr ⟨none, Wire.option_absent ?_,
    reads_runtimeUsage.option ?_ <| Wire.reads_flag.required ?_ rfl⟩⟩⟩⟩
  all_goals simp [Wire.get?_object, ThreadTerminalSettlement.terminal]

variable {settlement : ThreadTerminalSettlement}

theorem reports_ingressEnvelope (h : SettlementOf binding settlement) (context : SessionContext)
    (seed : EnvelopeSeed) : reports binding (settlement.ingressEnvelope context seed) = true := by
  obtain ⟨hconsumer, hid, hhandle⟩ := h
  refine decide_eq_true ⟨?_, ?_, ?_⟩
  · change some (outcomeKey settlement.dispatchId) = _
    rw [hid]
  · change "thread:" ++ settlement.consumer.threadId.uuid.text = _
    rw [hconsumer]
  · have houtcome : outcomeOf (settlement.ingressEnvelope context seed) = some (settlement.terminal context) := by
      simp only [outcomeOf, ThreadTerminalSettlement.ingressEnvelope, if_true, terminal_fromValue]
      rfl
    rw [houtcome, ← hid, ← hhandle]
    rfl

theorem reports_iff : reports binding envelope = true ↔
    envelope.effectiveDedupeKey = some (outcomeKey binding.dispatchId) ∧
      envelope.conversation.externalConversationId = "thread:" ++ binding.consumer.threadId.uuid.text ∧
      (outcomeOf envelope).map (fun terminal => (terminal.dispatchId, terminal.handle)) =
        some (binding.dispatchId, binding.handle) := decide_eq_true_iff

variable {dispatchId : DispatchId}

theorem outcomeKey_inj {dispatchId' : DispatchId}
    (h : outcomeKey dispatchId = outcomeKey dispatchId') :
    dispatchId = dispatchId' := congrArg DispatchId.mk (IoDedupeKey.mk.inj h).2

theorem Good.deliveries_le (h : Good adapter s) (binding : ThreadHandleBinding) :
    (deliveries binding s).length ≤ 1 := by
  have hkeys : (deliveries binding s).map IngressEnvelope.effectiveDedupeKey =
      List.replicate (deliveries binding s).length (some (outcomeKey binding.dispatchId)) := by
    refine List.eq_replicate_iff.mpr ⟨by rw [List.length_map], fun key hkey => ?_⟩
    obtain ⟨envelope, hmem, rfl⟩ := List.mem_map.mp hkey
    exact (reports_iff.mp (List.mem_filter.mp hmem).2).1
  have hsub : (deliveries binding s).Sublist s.accepted := List.filter_sublist
  have hnodup := h.keys.sublist (hsub.map IngressEnvelope.effectiveDedupeKey)
  exact List.nodup_replicate.mp (hkeys ▸ hnodup)

/-- **What the sink has taken under an unshared dispatch is its child's outcome**, and only once. -/
theorem Good.deliveries_length (h : Good adapter s) (hunshared : Unshared adapter s.rows)
    (hjoined : Joined adapter s.rows binding) (htaken : Taken s binding.dispatchId.text) :
    (deliveries binding s).length = 1 := by
  obtain ⟨envelope, hmem, hkey⟩ := htaken
  -- whoever's outcome it is has the dispatch of the binding
  obtain ⟨binding', hjoined', hreports⟩ := h.accepted envelope hmem
  have hid : binding'.dispatchId = binding.dispatchId :=
    outcomeKey_inj (Option.some.inj ((reports_iff.mp hreports).1.symm.trans hkey))
  have hsame : binding' = binding :=
    h.binding_eq hjoined'.1 hjoined.1 (hunshared binding binding' hjoined hjoined'.1 hid) hid
  subst hsame
  have hdelivered : envelope ∈ deliveries binding' s := List.mem_filter.mpr ⟨hmem, hreports⟩
  exact Nat.le_antisymm (h.deliveries_le binding') (List.length_pos_of_mem hdelivered)

/-! ### A pass -/

section Pass
variable {α β δ : Type} {calm : Prop} {A : α → IngressWorld → Prop} {C : β → IngressWorld → Prop}
  {B : δ → IngressWorld → Prop}

variable (adapter calm) in
/-- What a program of the daemon does. -/
abbrev SettlesIn (A : α → IngressWorld → Prop) (B : δ → IngressWorld → Prop) (p : IngressM δ α)
    (s : IngressWorld) : Prop :=
  Proc.Settles (Rely adapter calm) (asks adapter) (answers calm) A B p s

theorem settles_ask {f : call.Reply → IngressM δ β} (hgood : Good adapter s)
    (h : ∀ s₁, Rely adapter calm s s₁ → asks adapter call s₁ ∧ ∀ r s₂, answers calm call s₁ r s₂ →
      Good adapter s₂ → Rely adapter calm s s₂ → SettlesIn adapter calm C B (f r) s₂) :
    SettlesIn adapter calm C B (ask call >>= f) s := by
  refine Proc.Settles.await fun s₁ h₁ => ?_
  obtain ⟨hasks, hrest⟩ := h s₁ h₁
  refine ⟨hasks, fun r s₂ hanswers => ?_⟩
  have h₂ := rely_of_serves calm hasks (h₁.good hgood) hanswers.1
  exact hrest r s₂ hanswers (h₂.good (h₁.good hgood)) (h₁.trans h₂)

theorem settles_quiet {f : call.Reply → IngressM δ β} (hgood : Good adapter s)
    (hasks : ∀ s, asks adapter call s)
    (h : ∀ r s₁ s₂, answers calm call s₁ r s₂ → Good adapter s₂ → Rely adapter calm s s₁ →
      Rely adapter calm s s₂ → SettlesIn adapter calm C B (f r) s₂) :
    SettlesIn adapter calm C B (ask call >>= f) s :=
  settles_ask hgood fun s₁ h₁ => ⟨hasks s₁, fun r s₂ hanswers hgood₂ h₂ => h r s₁ s₂ hanswers hgood₂ h₁ h₂⟩

theorem SettlesIn.since {p : IngressM δ α} (h : Rely adapter calm s s')
    (hp : SettlesIn adapter calm (fun a s'' => Rely adapter calm s' s'' ∧ A a s'') B p s') :
    SettlesIn adapter calm (fun a s'' => Rely adapter calm s s'' ∧ A a s'') B p s' :=
  Proc.Settles.imp (fun _ _ hA => ⟨h.trans hA.1, hA.2⟩) (fun _ _ hB => hB) hp

theorem settles_then {p : IngressM VerletError α} {f : α → IngressM VerletError β}
    (h : SettlesIn adapter calm A (fun _ _ => False) p s)
    (hf : ∀ a s', A a s' → SettlesIn adapter calm C (fun _ _ => False) (f a) s') :
    SettlesIn adapter calm C (fun _ _ => False) (p >>= f) s :=
  Proc.Settles.bind (Rely.refl calm) (fun _ _ _ h _ => h) (Proc.Settles.imp hf (fun _ _ h => h) h)

end Pass

variable {calm : Prop}

/-- The settlement is of a joined child. -/
def Sound (adapter : ThreadHandleIngressAdapter) (rows : List EventRecord)
    (settlement : ThreadTerminalSettlement) : Prop :=
  ∃ binding, Joined adapter rows binding ∧ SettlementOf binding settlement

/-- The children of these consumers that were joined are among the settlements. -/
def Covers (adapter : ThreadHandleIngressAdapter) (rows : List EventRecord) (consumers : List ThreadCoordinates)
    (ready : List ThreadTerminalSettlement) : Prop :=
  ∀ binding, Joined adapter rows binding → binding.consumer ∈ consumers →
    ∃ settlement ∈ ready, settlement.dispatchId = binding.dispatchId

theorem Sound.mono (h : rows <+: rows') (hsound : Sound adapter rows settlement) :
    Sound adapter rows' settlement := by
  obtain ⟨binding, hjoined, hsettlement⟩ := hsound
  exact ⟨binding, hjoined.mono h, hsettlement⟩

variable {gathered : Gathered}

theorem take_events (hgood : Good adapter s) {consumer : ThreadCoordinates}
    (hscope : adapter.InScope consumer) :
    gathered.ready ⊆ (gathered.take consumer (.ok (eventsOf s.rows (controlStreamId consumer)))).ready ∧
      (∀ settlement ∈ (gathered.take consumer (.ok (eventsOf s.rows (controlStreamId consumer)))).ready,
        settlement ∈ gathered.ready ∨ Sound adapter s.rows settlement) ∧
      Covers adapter s.rows [consumer]
        (gathered.take consumer (.ok (eventsOf s.rows (controlStreamId consumer)))).ready := by
  have hwritten := hgood.written (controlStreamId consumer)
  unfold Gathered.take
  dsimp only
  split
  · next settlements hfold =>
    have hmem := mem_settlements hwritten hfold
    refine ⟨List.subset_append_left _ _, fun settlement hsettlement => ?_, ?_⟩
    · refine (List.mem_append.mp hsettlement).imp_right fun hsettlement => ?_
      obtain ⟨spawned, binding, joined, hbinds, hjoined, hsettles⟩ := (hmem settlement).mp hsettlement
      obtain ⟨payload, -, rfl, hchild, rfl⟩ := settlementOf_ok.mp hsettles
      refine ⟨binding, ⟨⟨hscope, spawned, hbinds⟩, joined, hjoined⟩, rfl, rfl, ?_⟩
      obtain ⟨_, _, _, -, -, -, -, -, -, hbinding⟩ := bindingOf_some.mp hbinds.2.2
      rw [hbinding] at hchild ⊢
      exact congrArg (HandleId.mk .thread) hchild
    · rintro binding ⟨⟨-, spawned, hbinds⟩, joined, hjoined⟩ hconsumer
      obtain rfl := List.mem_singleton.mp hconsumer
      obtain ⟨settlement, hsettles⟩ := hwritten.settles hbinds hjoined
      obtain ⟨payload, -, -, -, rfl⟩ := settlementOf_ok.mp hsettles
      exact ⟨_, List.mem_append_right _ ((hmem _).mpr ⟨spawned, binding, joined, hbinds, hjoined, hsettles⟩),
        rfl⟩
  · next err hfold =>
    refine ⟨List.Subset.refl _, fun settlement hsettlement => .inl hsettlement, ?_⟩
    rintro binding ⟨⟨-, spawned, hbinds⟩, -⟩ hconsumer
    obtain rfl := List.mem_singleton.mp hconsumer
    -- the fold of the children's own consumer goes through
    obtain ⟨settlements, hok⟩ := exists_settlements hwritten
      fun spawned' binding' hbinds' => hwritten.consumer_eq hbinds' hbinds
    rw [hok] at hfold
    cases hfold

/-- **One consumer of the first loop.** -/
theorem settles_gatherFrom (hgood : Good adapter s) {consumer : ThreadCoordinates}
    (hsound : ∀ settlement ∈ gathered.ready, Sound adapter s.rows settlement) :
    SettlesIn adapter calm
      (fun gathered' s' => Rely adapter calm s s' ∧ gathered.ready ⊆ gathered'.ready ∧
        (∀ settlement ∈ gathered'.ready, Sound adapter s'.rows settlement) ∧
        (calm → Covers adapter s.rows [consumer] gathered'.ready))
      (fun _ _ => False) (gatherFrom adapter consumer gathered) s := by
  unfold gatherFrom
  split
  · next hscope =>
    refine Proc.Settles.pure fun s' h' => ⟨h', List.Subset.refl _,
      fun settlement hsettlement => (hsound settlement hsettlement).mono h'.rows, fun _ => ?_⟩
    rintro binding ⟨⟨hinScope, -⟩, -⟩ hconsumer
    obtain rfl := List.mem_singleton.mp hconsumer
    exact absurd hinScope hscope
  · next hscope =>
    refine settles_quiet hgood (fun _ => trivial) ?_
    rintro read s₁ s₂ ⟨⟨hread, rfl⟩, hanswered⟩ hgood₂ h₁ -
    refine Proc.Settles.pure fun s' h' => ?_
    have hrows := h₁.rows.trans h'.rows
    rcases hread with ⟨err, rfl⟩ | rfl
    · refine ⟨h₁.trans h', List.Subset.refl _, fun settlement hsettlement =>
      (hsound settlement hsettlement).mono hrows, fun hcalm => ?_⟩
      obtain ⟨events, ⟨⟩⟩ := hanswered hcalm
    · obtain ⟨hsubset, hready, hcovers⟩ := @take_events _ _ gathered hgood₂ _ (not_not.mp hscope)
      refine ⟨h₁.trans h', hsubset, fun settlement hsettlement => ?_,
        fun _ binding hjoined => hcovers binding (hjoined.mono h₁.rows)⟩
      rcases hready settlement hsettlement with hold | hnew
      · exact (hsound settlement hold).mono hrows
      · exact hnew.mono h'.rows

/-- **The first loop** leaves the settlements of the joined children, and of no others. -/
theorem settles_gather (hgood : Good adapter s) {consumers : List ThreadCoordinates}
    (hsound : ∀ settlement ∈ gathered.ready, Sound adapter s.rows settlement) :
    SettlesIn adapter calm
      (fun gathered' s' => Rely adapter calm s s' ∧ gathered.ready ⊆ gathered'.ready ∧
        (∀ settlement ∈ gathered'.ready, Sound adapter s'.rows settlement) ∧
        (calm → Covers adapter s.rows consumers gathered'.ready))
      (fun _ _ => False) (gather adapter consumers gathered) s := by
  induction consumers generalizing s gathered with
  | nil =>
    refine Proc.Settles.pure fun s' h' => ⟨h', List.Subset.refl _,
      fun settlement hsettlement => (hsound settlement hsettlement).mono h'.rows, fun _ => ?_⟩
    rintro binding - ⟨⟩
  | cons consumer consumers ih =>
    refine settles_then (settles_gatherFrom hgood hsound) ?_
    rintro gathered₁ s₁ ⟨h₁, hsubset, hsound₁, hcovers⟩
    refine Proc.Settles.imp ?_ (fun _ _ h => h) (ih (h₁.good hgood) hsound₁)
    rintro gathered' s' ⟨h', hsubset', hsound', hcovers'⟩
    refine ⟨h₁.trans h', List.Subset.trans hsubset hsubset', hsound', fun hcalm binding hjoined hmem => ?_⟩
    rcases List.mem_cons.mp hmem with hconsumer | hmem
    · obtain ⟨settlement, hready, hid⟩ := hcovers hcalm binding hjoined (List.mem_singleton.mpr hconsumer)
      exact ⟨settlement, hsubset' hready, hid⟩
    · exact hcovers' hcalm binding (hjoined.mono h₁.rows) hmem

theorem Accepts.taken (h : Accepts envelope s s')
    (hkey : envelope.effectiveDedupeKey = some (outcomeKey dispatchId)) :
    Taken s' dispatchId.text := by
  obtain ⟨-, rfl⟩ := h
  exact ⟨envelope, by simp, hkey⟩

/-- The answer leaves the outcome taken, where it says so. -/
def Acks (ack : IngressAck) : Prop := ack.accepted = true ∨ ack.reason = some "duplicate dedupe key"

variable {outcome : IngressPollOutcome}

theorem settles_takeAck (hgood : Good adapter s) {ack : IngressAck}
    (htaken : Acks ack → Taken s settlement.dispatchId.text) (hanswered : calm → Acks ack) :
    SettlesIn adapter calm
      (fun _ s' => Rely adapter calm s s' ∧ (calm → Taken s' settlement.dispatchId.text))
      (fun _ _ => False) (takeAck settlement outcome ack) s := by
  unfold takeAck
  dsimp only
  split
  · next htakes =>
    have htaken := htaken htakes
    refine settles_ask hgood fun s₁ h₁ => ⟨htaken.mono h₁.accepted, ?_⟩
    rintro r s₂ - - h₂
    exact Proc.Settles.pure fun s' h' =>
      ⟨h₂.trans h', fun _ => htaken.mono (h₂.accepted.trans h'.accepted)⟩
  · next hnot => exact Proc.Settles.pure fun s' h' => ⟨h', fun hcalm => absurd (hanswered hcalm) hnot⟩

theorem settles_takeAnswer (hgood : Good adapter s) {answer : Except String IngressAck}
    (htaken : ∀ ack, answer = .ok ack → Acks ack → Taken s settlement.dispatchId.text)
    (hanswered : calm → ∃ ack, answer = .ok ack ∧ Acks ack) :
    SettlesIn adapter calm
      (fun _ s' => Rely adapter calm s s' ∧ (calm → Taken s' settlement.dispatchId.text))
      (fun _ _ => False) (takeAnswer settlement outcome answer) s := by
  cases answer with
  | error err =>
    refine Proc.Settles.pure fun s' h' => ⟨h', fun hcalm => ?_⟩
    obtain ⟨ack, ⟨⟩, -⟩ := hanswered hcalm
  | ok ack =>
    refine settles_takeAck hgood (htaken ack rfl) fun hcalm => ?_
    obtain ⟨ack, ⟨⟩, hacks⟩ := hanswered hcalm
    exact hacks

theorem SubmitServes.taken {answer : Except String IngressAck}
    (h : SubmitServes envelope s answer s')
    (hkey : envelope.effectiveDedupeKey = some (outcomeKey dispatchId)) {ack : IngressAck}
    (hanswer : answer = .ok ack) (hacks : Acks ack) : Taken s' dispatchId.text := by
  cases h with
  | accepted ack haccepted haccepts => exact haccepts.taken hkey
  | duplicate ack haccepted hreason htaken =>
    obtain ⟨earlier, hmem, hsame⟩ := htaken
    exact ⟨earlier, hmem, hsame.trans hkey⟩
  | rejected ack haccepted hreason =>
    cases hanswer
    exact absurd hacks (by simp [Acks, haccepted, hreason])
  | failed err => cases hanswer
  | lost err haccepts => cases hanswer

theorem settles_submitAssembled (hgood : Good adapter s) (hsound : Sound adapter s.rows settlement)
    {assembled : Except String SessionContext}
    (hanswered : calm → ∃ context, assembled = .ok context) :
    SettlesIn adapter calm
      (fun _ s' => Rely adapter calm s s' ∧ (calm → Taken s' settlement.dispatchId.text))
      (fun _ _ => False) (submitAssembled settlement outcome assembled) s := by
  cases assembled with
  | error err =>
    refine Proc.Settles.pure fun s' h' => ⟨h', fun hcalm => ?_⟩
    obtain ⟨context, ⟨⟩⟩ := hanswered hcalm
  | ok context =>
    refine settles_quiet hgood (fun _ => trivial) ?_
    rintro seed s₁ s₂ - hgood₂ - h₂
    refine settles_ask hgood₂ fun s₃ h₃ => ?_
    obtain ⟨binding, hjoined, hsettlement⟩ := hsound.mono (h₂.trans h₃).rows
    refine ⟨⟨binding, hjoined, reports_ingressEnvelope hsettlement context seed⟩, ?_⟩
    rintro answer s₄ ⟨hserves, hanswered⟩ hgood₄ h₄
    refine SettlesIn.since (h₂.trans h₄) (settles_takeAnswer hgood₄ (fun ack hanswer hacks => ?_) hanswered)
    exact SubmitServes.taken hserves rfl hanswer hacks

/-- **One settlement of the second loop.** -/
theorem settles_submitOne (hgood : Good adapter s) (hsound : Sound adapter s.rows settlement) :
    SettlesIn adapter calm
      (fun _ s' => Rely adapter calm s s' ∧ (calm → Taken s' settlement.dispatchId.text))
      (fun _ _ => False) (submitOne outcome settlement) s := by
  refine settles_quiet hgood (fun _ => trivial) ?_
  rintro acknowledged s₁ s₂ ⟨⟨rfl, rfl⟩, -⟩ hgood₂ - h₂
  split
  · next hacknowledged =>
    have htaken := hgood₂.acknowledged _ (of_decide_eq_true hacknowledged)
    exact Proc.Settles.pure fun s' h' => ⟨h₂.trans h', fun _ => htaken.mono h'.accepted⟩
  · refine settles_quiet hgood₂ (fun _ => trivial) ?_
    rintro assembled s₃ s₄ ⟨-, hanswered⟩ hgood₄ - h₄
    exact SettlesIn.since (h₂.trans h₄)
      (settles_submitAssembled hgood₄ (hsound.mono (h₂.trans h₄).rows) hanswered)

/-- **The second loop** leaves the outcomes of its settlements taken. -/
theorem settles_submitReady (hgood : Good adapter s) {ready : List ThreadTerminalSettlement}
    (hsound : ∀ settlement ∈ ready, Sound adapter s.rows settlement) :
    SettlesIn adapter calm
      (fun _ s' => Rely adapter calm s s' ∧ (calm → ∀ settlement ∈ ready, Taken s' settlement.dispatchId.text))
      (fun _ _ => False) (ready.foldlM submitOne outcome) s := by
  induction ready generalizing s outcome with
  | nil =>
    refine Proc.Settles.pure fun s' h' => ⟨h', fun _ => ?_⟩
    rintro settlement ⟨⟩
  | cons settlement ready ih =>
    rw [List.foldlM_cons]
    refine settles_then (settles_submitOne hgood (hsound settlement List.mem_cons_self)) ?_
    rintro outcome₁ s₁ ⟨h₁, htaken⟩
    refine Proc.Settles.imp ?_ (fun _ _ h => h) (ih (h₁.good hgood) fun other hother =>
      (hsound other (List.mem_cons_of_mem _ hother)).mono h₁.rows)
    rintro outcome' s' ⟨h', htaken'⟩
    refine ⟨h₁.trans h', fun hcalm other hother => ?_⟩
    rcases List.mem_cons.mp hother with rfl | hother
    · exact (htaken hcalm).mono h'.accepted
    · exact htaken' hcalm other hother

theorem likeControl_controlStreamId (coordinates : ThreadCoordinates) :
    likeControl (controlStreamId coordinates) = true := by
  have htake : ((controlStreamId coordinates).text.toList.take 8) = "control:".toList := by
    simp [controlStreamId, String.toList_append]
  rw [likeControl, htake]
  rfl

theorem Bound.listed (h : Bound adapter s.rows binding) : binding.consumer ∈ controlCoordinates s.rows := by
  obtain ⟨-, spawned, hbinds⟩ := h
  obtain ⟨hmem, hstream⟩ := List.mem_filter.mp hbinds.1
  rw [controlCoordinates, List.mem_insertionSort, List.mem_dedup]
  refine List.mem_map.mpr ⟨spawned, List.mem_filter.mpr ⟨hmem, ?_⟩, hbinds.consumer.symm⟩
  rw [of_decide_eq_true hstream]
  exact likeControl_controlStreamId binding.consumer

/-- **A pass** gives the sink outcomes of joined children only; and one that is answered leaves the outcomes of
all that were joined when it began. -/
theorem settles_pollReadyOnce (hgood : Good adapter s) :
    SettlesIn adapter calm
      (fun _ s' => Rely adapter calm s s' ∧
        (calm → ∀ binding, Joined adapter s.rows binding → Taken s' binding.dispatchId.text))
      (fun _ _ => ¬ calm) (pollReadyOnce adapter) s := by
  refine settles_quiet hgood (fun _ => trivial) ?_
  rintro listed s₁ s₂ ⟨⟨hlisted, rfl⟩, hanswered⟩ hgood₂ h₂ -
  refine Proc.Settles.settle (fun consumers hconsumers => ?_) (fun err herr s' _ hcalm => ?_)
  · have hcovered (hcalm : calm) : consumers = controlCoordinates s₂.rows := by
      obtain ⟨found, hfound⟩ := hanswered hcalm
      rcases hlisted with ⟨err, rfl⟩ | rfl
      · cases hfound
      · exact (Except.ok.inj hconsumers).symm
    have hnone : ∀ settlement ∈ (⟨⟨0, 0, none⟩, []⟩ : Gathered).ready, Sound adapter s₂.rows settlement := nofun
    refine Proc.Settles.bind (Rely.refl calm) (fun _ _ _ hnot _ => hnot) ?_
    refine Proc.Settles.imp ?_ (fun _ _ h => h.elim) (settles_gather hgood₂ hnone)
    rintro gathered s₃ ⟨h₃, -, hsound, hcovers⟩
    refine Proc.Settles.imp ?_ (fun _ _ h => h.elim) (settles_submitReady (h₃.good hgood₂) hsound)
    rintro outcome s' ⟨h', htaken⟩
    refine ⟨(h₂.trans h₃).trans h', fun hcalm binding hjoined => ?_⟩
    have hjoined₂ : Joined adapter s₂.rows binding := hjoined.mono h₂.rows
    obtain ⟨settlement, hready, hid⟩ := hcovers hcalm binding hjoined₂
      (hcovered hcalm ▸ hjoined₂.1.listed)
    exact hid ▸ htaken hcalm settlement hready
  · obtain ⟨found, hfound⟩ := hanswered hcalm
    rcases hlisted with ⟨err, rfl⟩ | rfl
    · cases hfound
    · cases herr

end Verlet.Daemon.HandleIngress
