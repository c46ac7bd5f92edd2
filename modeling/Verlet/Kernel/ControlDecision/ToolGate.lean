import Verlet.Kernel.ControlDecision.Wire

/-!
# Kernel — Control decisions — The tool gate

What `decide_tool_call` lets through.  A tool call runs only on the word of one fact about it; two
facts, or a malformed one that names the request, close the gate for good.
-/

namespace Verlet.Kernel
open Support History

variable {codec : ControlCodec} {request : ToolDecisionRequest}

/-! ### Facts -/

/-- The fact is fresh: witnessed, or discharged with the request in its provenance. -/
def Fresh (requestEventId : EventRecordId) (event : EventRecord) : Prop :=
  event.origin = .witnessed ∨ requestEventId ∈ event.provenance.sourceEventIds

variable {requestEventId : EventRecordId} {event : EventRecord}

theorem freshControlEvent_iff :
    freshControlEvent event requestEventId = true ↔ Fresh requestEventId event := by
  unfold freshControlEvent Fresh provenanceReachesEvent
  cases event.origin <;> simp

/-- A well-formed, fresh decision about the call. -/
structure Decides (codec : ControlCodec) (request : ToolDecisionRequest) (event : EventRecord)
    (payload : ToolCallDecisionPayload) : Prop where
  kind : event.kind = .toolCallDecision
  reads : codec.toolCallDecision.fromValue event.payload = .ok payload
  subject : payload.subject = request.subject
  snapshot : payload.snapshotId = request.snapshotId
  fresh : Fresh request.requestEventId event

/-- A malformed decision or suspension that names the request. -/
structure Malformed (codec : ControlCodec) (request : ToolDecisionRequest) (event : EventRecord) :
    Prop where
  unread : event.kind = .toolCallDecision ∧
      (∃ err, codec.toolCallDecision.fromValue event.payload = .error err) ∨
    event.kind = .toolCallSuspended ∧
      ∃ err, codec.toolCallSuspended.fromValue event.payload = .error err
  reaches : request.requestEventId ∈ event.provenance.sourceEventIds

/-- A well-formed decision or suspension about another call or snapshot. -/
def AboutOther (codec : ControlCodec) (request : ToolDecisionRequest) (event : EventRecord) : Prop :=
  (event.kind = .toolCallDecision ∧ ∃ payload,
    codec.toolCallDecision.fromValue event.payload = .ok payload ∧
      ¬ (payload.subject = request.subject ∧ payload.snapshotId = request.snapshotId)) ∨
  (event.kind = .toolCallSuspended ∧ ∃ payload,
    codec.toolCallSuspended.fromValue event.payload = .ok payload ∧
      ¬ (payload.subject = request.subject ∧ payload.snapshotId = request.snapshotId))

theorem readFact_answered {π δ α : Type} {serde : Serde π} {malformed : EventRecord → String → δ}
    {concerns : π → Bool} {found : EventRecord → π → α} {d : δ} :
    readFact serde requestEventId malformed concerns found event = .answered d ↔
      requestEventId ∈ event.provenance.sourceEventIds ∧
        ∃ err, serde.fromValue event.payload = .error err ∧ malformed event err = d := by
  unfold readFact provenanceReachesEvent
  cases serde.fromValue event.payload with
  | error err => by_cases h : requestEventId ∈ event.provenance.sourceEventIds <;> simp [h]
  | ok payload =>
    by_cases h : concerns payload = true ∧ freshControlEvent event requestEventId = true <;>
      simp [h]

theorem readFact_candidate {π δ α : Type} {serde : Serde π} {malformed : EventRecord → String → δ}
    {concerns : π → Bool} {found : EventRecord → π → α} {a : α} :
    readFact serde requestEventId malformed concerns found event = .candidate a ↔
      Fresh requestEventId event ∧ ∃ payload, serde.fromValue event.payload = .ok payload ∧
        concerns payload = true ∧ found event payload = a := by
  rw [← freshControlEvent_iff]
  unfold readFact
  cases serde.fromValue event.payload with
  | error err => by_cases h : provenanceReachesEvent event requestEventId = true <;> simp [h]
  | ok payload =>
    by_cases hc : concerns payload = true <;>
      by_cases hf : freshControlEvent event requestEventId = true <;> simp [hc, hf]

/-- **The scan answers at a malformed fact**, and closes the gate. -/
theorem readToolFact_answered :
    (∃ d, readToolFact codec request event = .answered d) ↔ Malformed codec request event := by
  constructor
  · rintro ⟨d, h⟩
    unfold readToolFact at h
    split at h
    · next hkind =>
      obtain ⟨hreaches, err, herr, -⟩ := readFact_answered.mp h
      exact ⟨.inl ⟨hkind, err, herr⟩, hreaches⟩
    · next hkind =>
      obtain ⟨hreaches, err, herr, -⟩ := readFact_answered.mp h
      exact ⟨.inr ⟨hkind, err, herr⟩, hreaches⟩
    · cases h
  · rintro ⟨⟨hkind, err, herr⟩ | ⟨hkind, err, herr⟩, hreaches⟩
    · refine ⟨malformedToolFact .toolCallDecision event err, ?_⟩
      simp only [readToolFact, hkind]
      exact readFact_answered.mpr ⟨hreaches, err, herr, rfl⟩
    · refine ⟨malformedToolFact .toolCallSuspended event err, ?_⟩
      simp only [readToolFact, hkind]
      exact readFact_answered.mpr ⟨hreaches, err, herr, rfl⟩

variable {d : ToolCallDecision}

theorem failClosed_of_answered (h : readToolFact codec request event = .answered d) :
    ∃ reason, d = .deny (some event.id) reason true := by
  unfold readToolFact at h
  split at h
  · obtain ⟨-, err, -, rfl⟩ := readFact_answered.mp h
    exact ⟨_, rfl⟩
  · obtain ⟨-, err, -, rfl⟩ := readFact_answered.mp h
    exact ⟨_, rfl⟩
  · cases h

theorem readToolFact_terminal :
    readToolFact codec request event = .candidate (.terminal d) ↔
      ∃ payload, Decides codec request event payload ∧ toolDecisionFromPayload event.id payload = d := by
  unfold readToolFact
  split
  · next hkind =>
    rw [readFact_candidate]
    constructor
    · rintro ⟨hfresh, payload, hreads, hconcerns, hd⟩
      simp only [decide_eq_true_eq] at hconcerns
      exact ⟨payload, ⟨hkind, hreads, hconcerns.1, hconcerns.2, hfresh⟩,
        ToolCandidate.terminal.inj hd⟩
    · rintro ⟨payload, hd, rfl⟩
      exact ⟨hd.fresh, payload, hd.reads, decide_eq_true ⟨hd.subject, hd.snapshot⟩, rfl⟩
  · next hkind =>
    refine ⟨fun h => ?_, fun ⟨_, hd, _⟩ => ?_⟩
    · obtain ⟨-, _, -, -, hwait⟩ := readFact_candidate.mp h
      cases hwait
    · rw [hd.kind] at hkind
      cases hkind
  · next hne _ =>
    refine ⟨fun h => ?_, fun ⟨_, hd, _⟩ => absurd hd.kind hne⟩
    cases h

theorem readToolFact_other (h : AboutOther codec request event) :
    readToolFact codec request event = .skipped := by
  rcases h with ⟨hkind, payload, hreads, hother⟩ | ⟨hkind, payload, hreads, hother⟩
  · simp only [readToolFact, hkind, readFact, hreads]
    rw [if_neg]
    simp only [decide_eq_true_eq, not_and]
    exact fun hsame => absurd hsame hother
  · simp only [readToolFact, hkind, readFact, hreads]
    rw [if_neg]
    simp only [decide_eq_true_eq, not_and]
    exact fun hsame => absurd hsame hother

theorem wait_of_waiting (h : readToolFact codec request event = .candidate (.waiting d)) :
    ∃ approvalId reason, d = .wait event.id approvalId reason := by
  unfold readToolFact at h
  split at h
  · obtain ⟨-, _, -, -, hterminal⟩ := readFact_candidate.mp h
    cases hterminal
  · obtain ⟨-, payload, -, -, hwait⟩ := readFact_candidate.mp h
    exact ⟨_, _, (ToolCandidate.waiting.inj hwait).symm⟩
  · cases h

/-! ### The decision -/

inductive ToolClass where
  | noDecision
  | allow
  | rewrite
  | deny
  | wait

def ToolCallDecision.toolClass : ToolCallDecision → ToolClass
  | .noDecision => .noDecision
  | .allow ..   => .allow
  | .rewrite .. => .rewrite
  | .deny ..    => .deny
  | .wait ..    => .wait

/-- The decisions about the call, in order. -/
def terminals (codec : ControlCodec) (request : ToolDecisionRequest) (events : List EventRecord) :
    List ToolCallDecision :=
  (candidates (readToolFact codec request) events).filterMap (·.terminal?)

def suspensions (codec : ControlCodec) (request : ToolDecisionRequest) (events : List EventRecord) :
    List ToolCallDecision :=
  (candidates (readToolFact codec request) events).filterMap (·.waiting?)

/-- **A malformed fact closes the gate; otherwise the candidates settle it.** -/
theorem toolCallDecision_cases (codec : ControlCodec) (request : ToolDecisionRequest)
    (events : List EventRecord) :
    ((∃ event ∈ events, Malformed codec request event) ∧ ∃ id reason,
      toolCallDecision codec request events = .deny (some id) reason true) ∨
    ((∀ event ∈ events, ¬ Malformed codec request event) ∧
      toolCallDecision codec request events =
        settleToolCall (terminals codec request events) (suspensions codec request events)) := by
  unfold toolCallDecision
  cases hscan : scan (readToolFact codec request) events with
  | error d =>
    obtain ⟨event, hevent, hd⟩ := scan_error hscan
    obtain ⟨reason, rfl⟩ := failClosed_of_answered hd
    exact .inl ⟨⟨event, hevent, readToolFact_answered.mp ⟨_, hd⟩⟩, _, _, rfl⟩
  | ok found =>
    obtain ⟨hnone, rfl⟩ := scan_ok.mp hscan
    refine .inr ⟨fun event hevent hmalformed => ?_, rfl⟩
    obtain ⟨d, hd⟩ := readToolFact_answered.mpr hmalformed
    exact hnone event hevent d hd

variable {events : List EventRecord}

theorem mem_suspensions (h : d ∈ suspensions codec request events) : d.toolClass = .wait := by
  obtain ⟨candidate, hmem, hd⟩ := List.mem_filterMap.mp h
  cases candidate with
  | terminal _ => cases hd
  | waiting d' =>
    obtain rfl := Option.some.inj hd
    obtain ⟨event, -, hread⟩ := mem_candidates.mp hmem
    obtain ⟨_, _, rfl⟩ := wait_of_waiting hread
    rfl

theorem terminals_eq_singleton :
    terminals codec request events = [d] ↔ ∃ (i : Nat) (fact : EventRecord)
      (payload : ToolCallDecisionPayload), events[i]? = some fact ∧
        Decides codec request fact payload ∧ toolDecisionFromPayload fact.id payload = d ∧
        ∀ (j : Nat) (fact' : EventRecord) (payload' : ToolCallDecisionPayload),
          events[j]? = some fact' → Decides codec request fact' payload' → j = i := by
  have hread : ∀ (event : EventRecord) (d' : ToolCallDecision),
      (readToolFact codec request event).candidate?.bind ToolCandidate.terminal? = some d' ↔
        ∃ payload, Decides codec request event payload ∧
          toolDecisionFromPayload event.id payload = d' := by
    intro event d'
    rw [← readToolFact_terminal]
    cases readToolFact codec request event with
    | skipped => simp [Reading.candidate?]
    | answered a => simp [Reading.candidate?]
    | candidate c => cases c <;> simp [Reading.candidate?, ToolCandidate.terminal?]
  rw [terminals, candidates, List.filterMap_filterMap, filterMap_eq_singleton]
  constructor
  · rintro ⟨i, fact, hfact, hd, honly⟩
    obtain ⟨payload, hdecides, rfl⟩ := (hread _ _).mp hd
    exact ⟨i, fact, payload, hfact, hdecides, rfl, fun j fact' payload' hfact' hdecides' =>
      honly j fact' _ hfact' ((hread _ _).mpr ⟨payload', hdecides', rfl⟩)⟩
  · rintro ⟨i, fact, payload, hfact, hdecides, rfl, honly⟩
    refine ⟨i, fact, hfact, (hread _ _).mpr ⟨payload, hdecides, rfl⟩, fun j fact' d' hfact' hd' => ?_⟩
    obtain ⟨payload', hdecides', -⟩ := (hread _ _).mp hd'
    exact honly j fact' payload' hfact' hdecides'

/-- **When a call is let through.** -/
theorem toolCallDecision_passes (hd : d.toolClass = .allow ∨ d.toolClass = .rewrite) :
    toolCallDecision codec request events = d ↔
      (∀ event ∈ events, ¬ Malformed codec request event) ∧
        terminals codec request events = [d] := by
  rcases toolCallDecision_cases codec request events with ⟨hmalformed, id, reason, heq⟩ | ⟨hnone, heq⟩
  · rw [heq]
    obtain ⟨event, hevent, hm⟩ := hmalformed
    refine ⟨fun h => ?_, fun h => absurd hm (h.1 event hevent)⟩
    subst h
    rcases hd with hd | hd <;> cases hd
  · rw [heq]
    refine ⟨fun h => ⟨hnone, ?_⟩, fun h => by rw [h.2]; rfl⟩
    cases hts : terminals codec request events with
    | nil =>
      -- without a decision the answer waits, denies or does not decide
      rw [hts] at h
      cases hws : suspensions codec request events with
      | nil =>
        rw [hws] at h
        subst h
        rcases hd with hd | hd <;> cases hd
      | cons w ws =>
        have hw : w.toolClass = .wait := mem_suspensions (hws ▸ List.mem_cons_self)
        rw [hws] at h
        cases ws with
        | nil =>
          change w = d at h
          subst h
          rcases hd with hd | hd <;> rw [hw] at hd <;> cases hd
        | cons w' ws =>
          subst h
          rcases hd with hd | hd <;> cases hd
    | cons t ts =>
      rw [hts] at h
      cases ts with
      | nil =>
        change t = d at h
        rw [h]
      | cons t' ts =>
        subst h
        rcases hd with hd | hd <;> cases hd

theorem settleToolCall_perm {ts ts' ws ws' : List ToolCallDecision} (ht : ts.Perm ts')
    (hw : ws.Perm ws') :
    (settleToolCall ts ws).toolClass = (settleToolCall ts' ws').toolClass := by
  have hlength := ht.length_eq
  have hlength' := hw.length_eq
  match ts, ts' with
  | [], [] =>
    match ws, ws' with
    | [], [] => rfl
    | [w], [w'] =>
      obtain rfl := List.singleton_perm_singleton.mp hw
      rfl
    | _ :: _ :: _, _ :: _ :: _ => rfl
  | [t], [t'] =>
    obtain rfl := List.singleton_perm_singleton.mp ht
    rfl
  | _ :: _ :: _, _ :: _ :: _ => rfl

/-- **The class does not depend on the order of the facts.** -/
theorem toolClass_perm {events' : List EventRecord} (h : events.Perm events') :
    (toolCallDecision codec request events).toolClass =
      (toolCallDecision codec request events').toolClass := by
  rcases toolCallDecision_cases codec request events with
    ⟨⟨event, hevent, hm⟩, _, _, heq⟩ | ⟨hnone, heq⟩
  · rcases toolCallDecision_cases codec request events' with ⟨-, _, _, heq'⟩ | ⟨hnone', -⟩
    · rw [heq, heq']
      rfl
    · exact absurd hm (hnone' event (h.mem_iff.mp hevent))
  · rcases toolCallDecision_cases codec request events' with ⟨⟨event, hevent, hm⟩, -⟩ | ⟨-, heq'⟩
    · exact absurd hm (hnone event (h.mem_iff.mpr hevent))
    · rw [heq, heq']
      exact settleToolCall_perm ((candidates_perm h).filterMap _) ((candidates_perm h).filterMap _)

/-- **Nor on facts about other calls.** -/
theorem toolCallDecision_other (h : AboutOther codec request event)
    (before after : List EventRecord) :
    toolCallDecision codec request (before ++ event :: after) =
      toolCallDecision codec request (before ++ after) := by
  have hscan : scan (readToolFact codec request) (before ++ event :: after) =
      scan (readToolFact codec request) (before ++ after) := by
    induction before with
    | nil => simp only [List.nil_append, scan, readToolFact_other h]
    | cons fact before ih => simp only [List.cons_append, scan, ih]
  rw [toolCallDecision, hscan, toolCallDecision]

/-- **A gate closed by a malformed or a second decision stays closed.** -/
theorem toolCallDecision_stays {consumed : Option EventRecordId} {reason : String}
    (hdeny : toolCallDecision codec request events = .deny consumed reason true)
    (hcause : consumed.isSome ∨ reason = "conflicting terminal tool control facts")
    (later : List EventRecord) :
    ∃ consumed' reason',
      toolCallDecision codec request (events ++ later) = .deny consumed' reason' true := by
  have hfails : (∃ event ∈ events, Malformed codec request event) ∨
      2 ≤ (terminals codec request events).length := by
    rcases toolCallDecision_cases codec request events with ⟨hm, -⟩ | ⟨-, heq⟩
    · exact .inl hm
    · right
      rw [heq] at hdeny
      match hts : terminals codec request events with
      | [] =>
        rw [hts] at hdeny
        match hws : suspensions codec request events with
        | [] =>
          rw [hws] at hdeny
          cases hdeny
        | [w] =>
          rw [hws] at hdeny
          have hw : w.toolClass = .wait := mem_suspensions (hws ▸ List.mem_cons_self)
          change w = _ at hdeny
          subst hdeny
          cases hw
        | _ :: _ :: _ =>
          rw [hws] at hdeny
          cases hdeny
          rcases hcause with hsome | htext
          · cases hsome
          · revert htext
            decide
      | [t] =>
        -- a single decision that denies is not fail-closed
        rw [hts] at hdeny
        change t = _ at hdeny
        subst hdeny
        obtain ⟨_, _, payload, -, -, heq', -⟩ := terminals_eq_singleton.mp hts
        unfold toolDecisionFromPayload at heq'
        split at heq' <;> cases heq'
      | _ :: _ :: _ => simp
  rcases toolCallDecision_cases codec request (events ++ later) with ⟨-, id, reason', heq⟩ | ⟨hnone, heq⟩
  · exact ⟨_, _, heq⟩
  · rcases hfails with ⟨event, hevent, hm⟩ | hmany
    · exact absurd hm (hnone event (List.mem_append_left _ hevent))
    · have hsplit : terminals codec request (events ++ later) =
          terminals codec request events ++ terminals codec request later := by
        rw [terminals, candidates_append, List.filterMap_append]
        rfl
      rw [heq, hsplit]
      match hts : terminals codec request events with
      | [] => simp [hts] at hmany
      | [_] => simp [hts] at hmany
      | _ :: _ :: _ => exact ⟨_, _, rfl⟩

theorem decideToolCall_eq {read : Reader}
    (hread : read (controlStreamId request.coordinates) = .ok events) :
    decideToolCall codec read request = .ok (toolCallDecision codec request events) := by
  rw [decideToolCall, hread]
  rfl

/-- **The tool gate is fail-closed.**  A call is allowed or rewritten if and only if exactly one
well-formed, fresh decision is about it, that one says so, and no malformed fact names the request.
The class of the answer is the same for the facts in any order, and the answer is the same without a
fact about another call or snapshot.  Once the gate is closed by a malformed or by a second decision,
whatever is appended keeps it closed. -/
theorem tool_gate_fails_closed (codec : ControlCodec) (request : ToolDecisionRequest) (read : Reader)
    (events : List EventRecord)
    (hread : read (controlStreamId request.coordinates) = .ok events) :
    (∀ d : ToolCallDecision, d.toolClass = .allow ∨ d.toolClass = .rewrite →
      (decideToolCall codec read request = .ok d ↔
        (∀ event ∈ events, ¬ Malformed codec request event) ∧
        ∃ (i : Nat) (fact : EventRecord) (payload : ToolCallDecisionPayload),
          events[i]? = some fact ∧ Decides codec request fact payload ∧
            toolDecisionFromPayload fact.id payload = d ∧
            ∀ (j : Nat) (fact' : EventRecord) (payload' : ToolCallDecisionPayload),
              events[j]? = some fact' → Decides codec request fact' payload' → j = i)) ∧
    (∀ (read' : Reader) (events' : List EventRecord),
      read' (controlStreamId request.coordinates) = .ok events' → events.Perm events' →
      (decideToolCall codec read' request).map (·.toolClass) =
        (decideToolCall codec read request).map (·.toolClass)) ∧
    (∀ (read' : Reader) (before : List EventRecord) (event : EventRecord) (after : List EventRecord),
      events = before ++ event :: after → AboutOther codec request event →
      read' (controlStreamId request.coordinates) = .ok (before ++ after) →
      decideToolCall codec read' request = decideToolCall codec read request) ∧
    (∀ (read' : Reader) (later : List EventRecord) (consumed : Option EventRecordId)
      (reason : String),
      decideToolCall codec read request = .ok (.deny consumed reason true) →
      consumed.isSome ∨ reason = "conflicting terminal tool control facts" →
      read' (controlStreamId request.coordinates) = .ok (events ++ later) →
      ∃ consumed' reason',
        decideToolCall codec read' request = .ok (.deny consumed' reason' true)) := by
  refine ⟨fun d hd => ?_, ?_, ?_, ?_⟩
  · rw [decideToolCall_eq hread, Except.ok.injEq, toolCallDecision_passes hd,
      terminals_eq_singleton]
  · intro read' events' hread' hperm
    rw [decideToolCall_eq hread, decideToolCall_eq hread']
    exact congrArg Except.ok (toolClass_perm hperm).symm
  · intro read' before event after hevents hother hread'
    rw [decideToolCall_eq hread, decideToolCall_eq hread', hevents,
      toolCallDecision_other hother]
  · intro read' later consumed reason hdeny hcause hread'
    rw [decideToolCall_eq hread, Except.ok.injEq] at hdeny
    obtain ⟨consumed', reason', heq⟩ := toolCallDecision_stays hdeny hcause later
    exact ⟨consumed', reason', by rw [decideToolCall_eq hread', heq]⟩

/-! ### A sample stream -/

def sampleToolRequest : ToolDecisionRequest :=
  ⟨.counted "user" 1, ⟨"turn-1", "call-1"⟩, "snapshot-a", (Draw.counted 1).eventId⟩

def sampleControlEvent (n : Nat) (kind : EventKind) (payload : Json) : EventRecord :=
  .fromNew (controlStreamId (.counted "user" 1)) n
    (.witnessed (.counted n) (.counted "user" 1) kind payload)

/-- A decision that allows the call of a sample stream, as the `n`th event. -/
def sampleAllow (n : Nat) : EventRecord :=
  sampleControlEvent n .toolCallDecision (Wire.decision.toValue
    ⟨⟨"turn-1", "call-1"⟩, "snapshot-a", .allow, none⟩)

set_option maxRecDepth 100000 in
/-- A call is allowed on the word of one decision, and not on that of two. -/
theorem tool_gate_fails_closed_twice :
    decideToolCall (.wire fun _ => none) (fun _ => .ok [sampleAllow 2]) sampleToolRequest =
      .ok (.allow (Draw.counted 2).eventId) ∧
    ∃ consumed reason, decideToolCall (.wire fun _ => none)
      (fun _ => .ok [sampleAllow 2, sampleAllow 3, sampleAllow 4]) sampleToolRequest =
        .ok (.deny consumed reason true) := by
  refine ⟨by decide, ?_⟩
  obtain ⟨-, -, -, hstays⟩ := tool_gate_fails_closed (.wire fun _ => none) sampleToolRequest
    (fun _ => .ok [sampleAllow 2, sampleAllow 3]) [sampleAllow 2, sampleAllow 3] rfl
  exact hstays _ [sampleAllow 4] none "conflicting terminal tool control facts" (by decide)
    (.inr rfl) rfl

end Verlet.Kernel
