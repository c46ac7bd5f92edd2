import Verlet.Kernel.ControlDecision.Wire
import Verlet.Kernel.CouplingScheduler.Receipts

/-!
# Kernel — The coupling scheduler — Suspensions

Tool calls suspended by controllers that the scheduler runs, and the listing of those still pending.
The listing takes the first source of a suspension for its request.  The scheduler puts there what
the controller's selectors find, in the order of the streams, and the trigger only where they find
nothing.
-/

namespace Verlet.Kernel
open Support History

/-- A controller triggered by the request discharged the event, with these sources selected, in some
cycle of some scheduler. -/
inductive Discharged (event trigger : EventRecord) (sources : List EventRecord) : Prop
  | run {σ : Type} {store : JournalStore σ} {scheduler : CouplingScheduler σ}
      {couplingSet : BoundCouplingSet} {batch : List EventRecord} {s : σ} {queued : QueuedActivation}
      {cycle settled : Cycle σ} {exit : Exit}
      (htaken : TakenUp store scheduler couplingSet batch s queued cycle)
      (hsettle : exec ((scheduler.over store).settle queued) cycle = (.ok exit, settled))
      (hevent : event ∈ exit.sinkEvents) (hrole : queued.coupling.role = .controller)
      (hkind : queued.coupling.triggerKind = .toolCallRequested)
      (htrigger : queued.triggerEvent = trigger) (hsources : exit.sourceEvents = sources)

section
variable {event trigger : EventRecord} {sources : List EventRecord}

theorem Discharged.trigger_kind (h : Discharged event trigger sources) :
    trigger.kind = .toolCallRequested := by
  obtain ⟨htaken, -, -, -, hkind, rfl, -⟩ := h
  obtain ⟨head, rest, hhead, hqueue, -⟩ := htaken
  have hmatched := (matched_of_head hhead (by rw [hqueue]; exact List.mem_cons_self)).2
  rw [couplingMatchesEvent, decide_eq_true_eq] at hmatched
  rw [← hmatched.1, hkind]

/-- **The sources of what a run discharges**: those selected, or else the trigger. -/
theorem Discharged.sourceEventIds (h : Discharged event trigger sources) :
    event.provenance.sourceEventIds =
      if sources.isEmpty then [trigger.id] else sources.map (·.id) := by
  obtain @⟨σ, store, scheduler, couplingSet, batch, s, queued, cycle, settled, exit, htaken, hsettle,
    hevent, -, -, rfl, rfl⟩ := h
  obtain ⟨head, rest, hhead, hqueue, -⟩ := htaken
  have htrigger := (matched_of_head hhead (by rw [hqueue]; exact List.mem_cons_self)).1
  cases settles hsettle with
  | completed hoffers _ hsink =>
    simp only [hsink] at hevent
    obtain ⟨record, hrecord, sequence, rfl⟩ := History.mem_numbered hevent
    rw [hoffers.records] at hrecord
    obtain ⟨pair, -, rfl⟩ := List.mem_map.mp hrecord
    rw [← htrigger]
    rfl
  | deep => cases hevent
  | exhausted => cases hevent
  | sourceless => cases hevent
  | failed => cases hevent

theorem Discharged.first (h : Discharged event trigger sources) :
    event.provenance.sourceEventIds.head? = some trigger.id ↔
      ∀ source ∈ sources.head?, source.id = trigger.id := by
  rw [h.sourceEventIds]
  cases sources with
  | nil =>
    refine iff_of_true rfl ?_
    rintro source ⟨⟩
  | cons source sources =>
    simp only [List.isEmpty_cons, Bool.false_eq_true, if_false, List.map_cons, List.head?_cons,
      Option.some.injEq, Option.mem_def, forall_eq']

end

/-! ### The listing -/

section
variable (codec : ControlCodec) (threadEvents controlEvents : List EventRecord)
  (own : EventRecord → EventRecord)

def readable {α : Type} (serde : Serde α) (kind : EventKind) (events : List EventRecord) : List α :=
  (events.filter fun event => event.kind = kind).filterMap
    fun event => (serde.fromValue event.payload).toOption

/-- The call that the request asked for has completed. -/
def Completed (trigger : EventRecord) : Prop :=
  ∃ request, codec.toolCallRequested.fromValue trigger.payload = .ok request ∧
    ∃ completion ∈ readable codec.toolCallCompleted .toolCallCompleted threadEvents,
      completion.subject = request.subject ∧ completion.snapshotId = request.snapshotId ∧
        completion.argsFingerprint = request.argsFingerprint

/-- The subject has a terminal decision. -/
def Decided (payload : ToolCallSuspendedPayload) : Prop :=
  ∃ terminal ∈ readable codec.toolCallDecision .toolCallDecision controlEvents,
    terminal.subject = payload.subject ∧ terminal.snapshotId = payload.snapshotId

open Classical in
/-- What the listing is to have for a suspension: an entry that names its own trigger, until the call
has completed or been decided. -/
noncomputable def awaited (event : EventRecord) : Option PendingToolCallSuspension :=
  match codec.toolCallSuspended.fromValue event.payload with
  | .error _    => none
  | .ok payload =>
    if Completed codec threadEvents (own event) ∨ Decided codec controlEvents payload then none
    else some ⟨event.id, payload.subject, payload.snapshotId, some (own event).id, payload.approvalId,
      payload.reason⟩

def suspended : List EventRecord :=
  controlEvents.filter fun event => event.kind = .toolCallSuspended

/-- **The listing has exactly the suspensions still awaited.** -/
def ListsAwaited (read : Reader) (coordinates : ThreadCoordinates) : Prop :=
  ∃ found, listPendingToolCallSuspensions codec read coordinates = .ok found ∧
    found.Perm ((suspended controlEvents).filterMap (awaited codec threadEvents controlEvents own))

/-- Every payload that the listing reads can be read. -/
structure Legible : Prop where
  decisions : ∀ event ∈ controlEvents, event.kind = .toolCallDecision →
    ∃ payload, codec.toolCallDecision.fromValue event.payload = .ok payload
  completions : ∀ event ∈ threadEvents, event.kind = .toolCallCompleted →
    ∃ payload, codec.toolCallCompleted.fromValue event.payload = .ok payload
  suspensions : ∀ event ∈ controlEvents, event.kind = .toolCallSuspended →
    ∃ payload, codec.toolCallSuspended.fromValue event.payload = .ok payload
  /-- The request that a suspension names first, if the thread has it. -/
  requests : ∀ event ∈ controlEvents, event.kind = .toolCallSuspended →
    ∀ request ∈ threadEvents, request.kind = .toolCallRequested →
      event.provenance.sourceEventIds.head? = some request.id →
        ∃ payload, codec.toolCallRequested.fromValue request.payload = .ok payload

/-- The call that the suspension names first, or else its subject, has completed. -/
def NamedCompleted (event : EventRecord) (payload : ToolCallSuspendedPayload) : Prop :=
  (∃ request ∈ threadEvents, request.kind = .toolCallRequested ∧
    event.provenance.sourceEventIds.head? = some request.id ∧
      Completed codec threadEvents request) ∨
  (¬ ∃ request ∈ threadEvents, request.kind = .toolCallRequested ∧
    event.provenance.sourceEventIds.head? = some request.id) ∧
    ∃ completion ∈ readable codec.toolCallCompleted .toolCallCompleted threadEvents,
      completion.subject = payload.subject ∧ completion.snapshotId = payload.snapshotId

end

section
variable {codec : ControlCodec} {threadEvents controlEvents : List EventRecord}

theorem payloadsOf_ok {α : Type} {serde : Serde α} {kind : EventKind} {text : String}
    {events : List EventRecord} :
    (∃ found, payloadsOf serde kind text events = .ok found) ↔
      ∀ event ∈ events, event.kind = kind → ∃ payload, serde.fromValue event.payload = .ok payload := by
  rw [payloadsOf, exists_mapM_ok]
  simp only [decodeOr_ok, List.mem_filter, decide_eq_true_eq, and_imp]

theorem payloadsOf_eq {α : Type} {serde : Serde α} {kind : EventKind} {text : String}
    {events : List EventRecord} {found : List α} (h : payloadsOf serde kind text events = .ok found) :
    found = readable serde kind events := by
  rw [payloadsOf] at h
  rw [readable]
  generalize events.filter (fun event => decide (event.kind = kind)) = l at h
  induction l generalizing found with
  | nil => exact (Except.ok.inj h).symm
  | cons event l ih =>
    obtain ⟨payload, rest, hpayload, hrest, rfl⟩ := mapM_cons_ok.mp h
    rw [List.filterMap_cons, decodeOr_ok.mp hpayload, ← ih hrest]
    rfl

theorem suspendedRequest_found (hids : (threadEvents.map (·.id)).Nodup) {request : EventRecord}
    (hmem : request ∈ threadEvents) (hkind : request.kind = .toolCallRequested)
    {payload : Option ToolCallRequestedPayload} :
    suspendedRequest codec threadEvents (some request.id) = .ok payload ↔
      ∃ asked, payload = some asked ∧
        codec.toolCallRequested.fromValue request.payload = .ok asked := by
  have hfind : threadEvents.find? (fun event => decide (event.id = request.id ∧
      event.kind = .toolCallRequested)) = some request := by
    cases hfound : threadEvents.find? (fun event => decide (event.id = request.id ∧
        event.kind = .toolCallRequested)) with
    | none =>
      exact absurd (decide_eq_true ⟨rfl, hkind⟩) (List.find?_eq_none.mp hfound request hmem)
    | some event =>
      have hsame := List.find?_some hfound
      simp only [decide_eq_true_eq] at hsame
      obtain ⟨hid, -⟩ := hsame
      rw [List.inj_on_of_nodup_map hids (List.mem_of_find?_eq_some hfound) hmem hid]
  rw [suspendedRequest, Option.bind_some, hfind]
  change (some <$> decodeOr _ _ _) = _ ↔ _
  rw [map_eq_pure_bind, bind_ok]
  simp only [decodeOr_ok, pure_ok]
  exact exists_congr fun asked => ⟨fun ⟨h, hp⟩ => ⟨hp.symm, h⟩, fun ⟨hp, h⟩ => ⟨h, hp.symm⟩⟩

theorem suspendedRequest_missing {requestEventId : Option EventRecordId}
    (h : ¬ ∃ request ∈ threadEvents, request.kind = .toolCallRequested ∧
      requestEventId = some request.id) :
    suspendedRequest codec threadEvents requestEventId = .ok none := by
  cases requestEventId with
  | none => rfl
  | some id =>
    have hfind : threadEvents.find? (fun event => decide (event.id = id ∧
        event.kind = .toolCallRequested)) = none := by
      refine List.find?_eq_none.mpr fun event hevent hsame => h ?_
      obtain ⟨hid, hkind⟩ := of_decide_eq_true hsame
      exact ⟨event, hevent, hkind, by rw [hid]⟩
    rw [suspendedRequest, Option.bind_some, hfind]

theorem decided_iff (codec : ControlCodec) (controlEvents : List EventRecord)
    (payload : ToolCallSuspendedPayload) :
    (readable codec.toolCallDecision .toolCallDecision controlEvents).any (fun terminal =>
      terminal.subject = payload.subject ∧ terminal.snapshotId = payload.snapshotId) = true ↔
      Decided codec controlEvents payload := by
  rw [List.any_eq_true, Decided]
  simp only [decide_eq_true_eq]

theorem completes_some_iff {payload : ToolCallSuspendedPayload} {asked : ToolCallRequestedPayload}
    {request : EventRecord}
    (hasked : codec.toolCallRequested.fromValue request.payload = .ok asked) :
    (readable codec.toolCallCompleted .toolCallCompleted threadEvents).any
      (completes (some asked) payload) = true ↔ Completed codec threadEvents request := by
  rw [List.any_eq_true, Completed]
  simp only [completes, decide_eq_true_eq]
  constructor
  · rintro ⟨completion, hmem, h⟩
    exact ⟨asked, hasked, completion, hmem, h⟩
  · rintro ⟨asked', hasked', completion, hmem, h⟩
    obtain rfl := Except.ok.inj (hasked.symm.trans hasked')
    exact ⟨completion, hmem, h⟩

open Classical in
/-- **What the listing has for a suspension.** -/
theorem pendingSuspension_ok (hids : (threadEvents.map (·.id)).Nodup) {event : EventRecord}
    {pending : Option PendingToolCallSuspension} :
    pendingSuspension codec threadEvents (readable codec.toolCallDecision .toolCallDecision controlEvents)
        (readable codec.toolCallCompleted .toolCallCompleted threadEvents) event = .ok pending ↔
      (∀ request ∈ threadEvents, request.kind = .toolCallRequested →
        event.provenance.sourceEventIds.head? = some request.id →
          ∃ asked, codec.toolCallRequested.fromValue request.payload = .ok asked) ∧
      ∃ payload, codec.toolCallSuspended.fromValue event.payload = .ok payload ∧
        pending = if NamedCompleted codec threadEvents event payload ∨
            Decided codec controlEvents payload then none
          else some ⟨event.id, payload.subject, payload.snapshotId,
            event.provenance.sourceEventIds.head?, payload.approvalId, payload.reason⟩ := by
  have hread : ∀ (request : Option ToolCallRequestedPayload) (payload : ToolCallSuspendedPayload),
      suspendedRequest codec threadEvents event.provenance.sourceEventIds.head? = .ok request →
        ((readable codec.toolCallCompleted .toolCallCompleted threadEvents).any
          (completes request payload) = true ↔ NamedCompleted codec threadEvents event payload) := by
    intro request payload hrequest
    by_cases hnamed : ∃ request ∈ threadEvents, request.kind = .toolCallRequested ∧
        event.provenance.sourceEventIds.head? = some request.id
    · obtain ⟨named, hmem, hkind, hhead⟩ := id hnamed
      rw [hhead] at hrequest
      obtain ⟨asked, rfl, hasked⟩ := (suspendedRequest_found hids hmem hkind).mp hrequest
      rw [completes_some_iff hasked]
      constructor
      · exact fun h => .inl ⟨named, hmem, hkind, hhead, h⟩
      · rintro (⟨named', hmem', -, hhead', h⟩ | ⟨hnone, -⟩)
        · have hid := Option.some.inj (hhead.symm.trans hhead')
          rwa [List.inj_on_of_nodup_map hids hmem hmem' hid]
        · exact absurd hnamed hnone
    · rw [suspendedRequest_missing hnamed] at hrequest
      obtain rfl := Except.ok.inj hrequest
      rw [List.any_eq_true, NamedCompleted]
      simp only [completes, decide_eq_true_eq]
      constructor
      · exact fun h => .inr ⟨hnamed, h⟩
      · rintro (⟨named, hmem, hkind, hhead, -⟩ | ⟨-, h⟩)
        · exact absurd ⟨named, hmem, hkind, hhead⟩ hnamed
        · exact h
  have hlegible : (∃ request,
      suspendedRequest codec threadEvents event.provenance.sourceEventIds.head? = .ok request) ↔
      ∀ request ∈ threadEvents, request.kind = .toolCallRequested →
        event.provenance.sourceEventIds.head? = some request.id →
          ∃ asked, codec.toolCallRequested.fromValue request.payload = .ok asked := by
    constructor
    · rintro ⟨request, hrequest⟩ named hmem hkind hhead
      rw [hhead] at hrequest
      obtain ⟨asked, -, hasked⟩ := (suspendedRequest_found hids hmem hkind).mp hrequest
      exact ⟨asked, hasked⟩
    · intro h
      by_cases hnamed : ∃ request ∈ threadEvents, request.kind = .toolCallRequested ∧
          event.provenance.sourceEventIds.head? = some request.id
      · obtain ⟨named, hmem, hkind, hhead⟩ := hnamed
        obtain ⟨asked, hasked⟩ := h named hmem hkind hhead
        rw [hhead]
        exact ⟨some asked, (suspendedRequest_found hids hmem hkind).mpr ⟨asked, rfl, hasked⟩⟩
      · exact ⟨none, suspendedRequest_missing hnamed⟩
  rw [← hlegible, pendingSuspension]
  simp only [bind_ok, decodeOr_ok]
  constructor
  · rintro ⟨payload, hpayload, request, hrequest, h⟩
    refine ⟨⟨request, hrequest⟩, payload, hpayload, ?_⟩
    have hdone := or_congr (hread request payload hrequest) (decided_iff codec controlEvents payload)
    by_cases hlisted : NamedCompleted codec threadEvents event payload ∨
        Decided codec controlEvents payload
    · rw [if_pos (hdone.mpr hlisted)] at h
      rw [if_pos hlisted, pure_ok.mp h]
    · rw [if_neg fun hyes => hlisted (hdone.mp hyes)] at h
      rw [if_neg hlisted, pure_ok.mp h]
  · rintro ⟨⟨request, hrequest⟩, payload, hpayload, rfl⟩
    refine ⟨payload, hpayload, request, hrequest, ?_⟩
    have hdone := or_congr (hread request payload hrequest) (decided_iff codec controlEvents payload)
    by_cases hlisted : NamedCompleted codec threadEvents event payload ∨
        Decided codec controlEvents payload
    · rw [if_pos (hdone.mpr hlisted), if_pos hlisted]
      rfl
    · rw [if_neg fun hyes => hlisted (hdone.mp hyes), if_neg hlisted]
      rfl

open Classical in
noncomputable def listed (codec : ControlCodec) (threadEvents controlEvents : List EventRecord)
    (event : EventRecord) : Option PendingToolCallSuspension :=
  match codec.toolCallSuspended.fromValue event.payload with
  | .error _    => none
  | .ok payload =>
    if NamedCompleted codec threadEvents event payload ∨ Decided codec controlEvents payload then none
    else some ⟨event.id, payload.subject, payload.snapshotId,
      event.provenance.sourceEventIds.head?, payload.approvalId, payload.reason⟩

theorem listPending_ok {read : Reader} {coordinates : ThreadCoordinates}
    (hthread : read (.forThread coordinates) = .ok threadEvents)
    (hcontrol : read (controlStreamId coordinates) = .ok controlEvents)
    (hids : (threadEvents.map (·.id)).Nodup) {found : List PendingToolCallSuspension}
    (h : listPendingToolCallSuspensions codec read coordinates = .ok found) :
    Legible codec threadEvents controlEvents ∧
      found.Perm ((suspended controlEvents).filterMap (listed codec threadEvents controlEvents)) := by
  simp only [listPendingToolCallSuspensions, hcontrol, hthread, bind_ok, orHistory_ok, Except.ok.injEq,
    exists_eq_left', pure_ok] at h
  obtain ⟨terminals, hterminals, completions, hcompletions, pending, hpending, rfl⟩ := h
  obtain rfl := payloadsOf_eq hterminals
  obtain rfl := payloadsOf_eq hcompletions
  have heach : ∀ event ∈ suspended controlEvents, ∃ entry,
      pendingSuspension codec threadEvents
        (readable codec.toolCallDecision .toolCallDecision controlEvents)
        (readable codec.toolCallCompleted .toolCallCompleted threadEvents) event = .ok entry :=
    exists_mapM_ok.mp ⟨pending, hpending⟩
  have hlisted : ∀ event ∈ suspended controlEvents, pendingSuspension codec threadEvents
      (readable codec.toolCallDecision .toolCallDecision controlEvents)
      (readable codec.toolCallCompleted .toolCallCompleted threadEvents) event =
        .ok (listed codec threadEvents controlEvents event) := by
    intro event hevent
    obtain ⟨entry, hentry⟩ := heach event hevent
    obtain ⟨-, payload, hpayload, hvalue⟩ := (pendingSuspension_ok hids).mp hentry
    rw [hentry, hvalue, listed, hpayload]
  have hpending' := mapM_ok_map hlisted
  obtain rfl := Except.ok.inj (hpending.symm.trans hpending')
  refine ⟨⟨payloadsOf_ok.mp ⟨_, hterminals⟩, payloadsOf_ok.mp ⟨_, hcompletions⟩, ?_, ?_⟩, ?_⟩
  · intro event hevent hkind
    obtain ⟨entry, hentry⟩ := heach event (List.mem_filter.mpr ⟨hevent, decide_eq_true hkind⟩)
    obtain ⟨-, payload, hpayload, -⟩ := (pendingSuspension_ok hids).mp hentry
    exact ⟨payload, hpayload⟩
  · intro event hevent hkind
    obtain ⟨entry, hentry⟩ := heach event (List.mem_filter.mpr ⟨hevent, decide_eq_true hkind⟩)
    exact ((pendingSuspension_ok hids).mp hentry).1
  · refine (List.perm_insertionSort _ _).trans ?_
    rw [List.filterMap_map]
    rfl

theorem exists_listPending {read : Reader} {coordinates : ThreadCoordinates}
    (hthread : read (.forThread coordinates) = .ok threadEvents)
    (hcontrol : read (controlStreamId coordinates) = .ok controlEvents)
    (hids : (threadEvents.map (·.id)).Nodup) (h : Legible codec threadEvents controlEvents) :
    ∃ found, listPendingToolCallSuspensions codec read coordinates = .ok found := by
  obtain ⟨terminals, hterminals⟩ := payloadsOf_ok.mpr h.decisions
  obtain ⟨completions, hcompletions⟩ := payloadsOf_ok.mpr h.completions
  obtain rfl := payloadsOf_eq hterminals
  obtain rfl := payloadsOf_eq hcompletions
  have heach : ∀ event ∈ suspended controlEvents, ∃ entry,
      pendingSuspension codec threadEvents
        (readable codec.toolCallDecision .toolCallDecision controlEvents)
        (readable codec.toolCallCompleted .toolCallCompleted threadEvents) event = .ok entry := by
    intro event hevent
    obtain ⟨hmem, hkind⟩ := List.mem_filter.mp hevent
    obtain ⟨payload, hpayload⟩ := h.suspensions event hmem (of_decide_eq_true hkind)
    exact ⟨_, (pendingSuspension_ok hids).mpr
      ⟨h.requests event hmem (of_decide_eq_true hkind), payload, hpayload, rfl⟩⟩
  obtain ⟨pending, hpending⟩ := exists_mapM_ok.mpr heach
  simp only [listPendingToolCallSuspensions, hcontrol, hthread, bind_ok, orHistory_ok, Except.ok.injEq,
    exists_eq_left', pure_ok]
  exact ⟨_, _, hterminals, _, hcompletions, pending, hpending, rfl⟩

variable {event : EventRecord}

theorem suspendedEventId_listed {entry : PendingToolCallSuspension}
    (h : listed codec threadEvents controlEvents event = some entry) :
    entry.suspendedEventId = event.id := by
  rw [listed] at h
  split at h
  · cases h
  · split at h
    · cases h
    · rw [← Option.some.inj h]

theorem suspendedEventId_awaited {own : EventRecord → EventRecord}
    {entry : PendingToolCallSuspension}
    (h : awaited codec threadEvents controlEvents own event = some entry) :
    entry.suspendedEventId = event.id := by
  rw [awaited] at h
  split at h
  · cases h
  · split at h
    · cases h
    · rw [← Option.some.inj h]

theorem namedCompleted_of_first (codec : ControlCodec) (hids : (threadEvents.map (·.id)).Nodup)
    {trigger : EventRecord} (payload : ToolCallSuspendedPayload) (hmem : trigger ∈ threadEvents)
    (hkind : trigger.kind = .toolCallRequested)
    (hfirst : event.provenance.sourceEventIds.head? = some trigger.id) :
    NamedCompleted codec threadEvents event payload ↔ Completed codec threadEvents trigger := by
  constructor
  · rintro (⟨named, hmem', -, hhead, h⟩ | ⟨hnone, -⟩)
    · have hid := Option.some.inj (hfirst.symm.trans hhead)
      rwa [List.inj_on_of_nodup_map hids hmem hmem' hid]
    · exact absurd ⟨trigger, hmem, hkind, hfirst⟩ hnone
  · exact fun h => .inl ⟨trigger, hmem, hkind, hfirst, h⟩

/-- **When the listing has what is awaited for a suspension.** -/
theorem listed_eq_awaited_iff {own : EventRecord → EventRecord}
    {payload : ToolCallSuspendedPayload} (hids : (threadEvents.map (·.id)).Nodup)
    (hpayload : codec.toolCallSuspended.fromValue event.payload = .ok payload)
    (hmem : own event ∈ threadEvents) (hkind : (own event).kind = .toolCallRequested) :
    listed codec threadEvents controlEvents event =
        awaited codec threadEvents controlEvents own event ↔
      event.provenance.sourceEventIds.head? = some (own event).id ∨
        Decided codec controlEvents payload ∨
        (Completed codec threadEvents (own event) ∧
          NamedCompleted codec threadEvents event payload) := by
  rw [listed, awaited, hpayload]
  simp only
  by_cases hdecided : Decided codec controlEvents payload
  · rw [if_pos (.inr hdecided), if_pos (.inr hdecided)]
    exact iff_of_true rfl (.inr (.inl hdecided))
  by_cases hfirst : event.provenance.sourceEventIds.head? = some (own event).id
  · have hsame := namedCompleted_of_first codec hids payload hmem hkind hfirst
    refine iff_of_true ?_ (.inl hfirst)
    by_cases hown : Completed codec threadEvents (own event)
    · rw [if_pos (.inl (hsame.mpr hown)), if_pos (.inl hown)]
    · have hnamed := fun h => hown (hsame.mp h)
      rw [if_neg (not_or.mpr ⟨hnamed, hdecided⟩), if_neg (not_or.mpr ⟨hown, hdecided⟩), hfirst]
  by_cases hown : Completed codec threadEvents (own event)
  · rw [if_pos (Or.inl hown : Completed codec threadEvents (own event) ∨ _)]
    by_cases hnamed : NamedCompleted codec threadEvents event payload
    · rw [if_pos (.inl hnamed)]
      exact iff_of_true rfl (.inr (.inr ⟨hown, hnamed⟩))
    · rw [if_neg (by tauto)]
      refine iff_of_false (Option.some_ne_none _) ?_
      tauto
  · rw [if_neg (by tauto : ¬ (Completed codec threadEvents (own event) ∨
      Decided codec controlEvents payload))]
    refine iff_of_false (fun heq => ?_) (by tauto)
    split at heq
    · cases heq
    · simp only [Option.some.injEq, PendingToolCallSuspension.mk.injEq, true_and, and_true] at heq
      exact hfirst heq

/-- **When the listing has exactly the suspensions still awaited**: its payloads can be read, and each
suspension has its own trigger as its first source, unless it is decided, or completed both by its
trigger and by what it names. -/
theorem pending_suspensions_iff (codec : ControlCodec) (read : Reader) (coordinates : ThreadCoordinates)
    (hthread : read (.forThread coordinates) = .ok threadEvents)
    (hcontrol : read (controlStreamId coordinates) = .ok controlEvents)
    (hthreadIds : (threadEvents.map (·.id)).Nodup) (hcontrolIds : (controlEvents.map (·.id)).Nodup)
    (own : EventRecord → EventRecord) (sources : EventRecord → List EventRecord)
    (hdischarged : ∀ event ∈ suspended controlEvents,
      own event ∈ threadEvents ∧ Discharged event (own event) (sources event)) :
    ListsAwaited codec threadEvents controlEvents own read coordinates ↔
      Legible codec threadEvents controlEvents ∧ ∀ event ∈ suspended controlEvents, ∀ payload,
        codec.toolCallSuspended.fromValue event.payload = .ok payload →
          (∀ source ∈ (sources event).head?, source.id = (own event).id) ∨
            Decided codec controlEvents payload ∨
            (Completed codec threadEvents (own event) ∧
              NamedCompleted codec threadEvents event payload) := by
  have hsuspendedIds : ((suspended controlEvents).map (·.id)).Nodup :=
    hcontrolIds.sublist (List.filter_sublist.map _)
  have hperm : ((suspended controlEvents).filterMap (listed codec threadEvents controlEvents)).Perm
      ((suspended controlEvents).filterMap (awaited codec threadEvents controlEvents own)) ↔
      ∀ event ∈ suspended controlEvents, listed codec threadEvents controlEvents event =
        awaited codec threadEvents controlEvents own event :=
    filterMap_perm_iff (fun _ _ => suspendedEventId_listed) (fun _ _ => suspendedEventId_awaited)
      hsuspendedIds
  have heach : ∀ event ∈ suspended controlEvents, ∀ payload,
      codec.toolCallSuspended.fromValue event.payload = .ok payload →
        (listed codec threadEvents controlEvents event =
          awaited codec threadEvents controlEvents own event ↔
          (∀ source ∈ (sources event).head?, source.id = (own event).id) ∨
            Decided codec controlEvents payload ∨
            (Completed codec threadEvents (own event) ∧
              NamedCompleted codec threadEvents event payload)) := by
    intro event hevent payload hpayload
    obtain ⟨hown, hrun⟩ := hdischarged event hevent
    rw [listed_eq_awaited_iff hthreadIds hpayload hown hrun.trigger_kind, hrun.first]
  constructor
  · rintro ⟨found, hfound, hawaited⟩
    obtain ⟨hlegible, hlisted⟩ := listPending_ok hthread hcontrol hthreadIds hfound
    refine ⟨hlegible, fun event hevent payload hpayload => ?_⟩
    exact (heach event hevent payload hpayload).mp
      (hperm.mp (hlisted.symm.trans hawaited) event hevent)
  · rintro ⟨hlegible, hfirst⟩
    obtain ⟨found, hfound⟩ := exists_listPending hthread hcontrol hthreadIds hlegible
    obtain ⟨-, hlisted⟩ := listPending_ok hthread hcontrol hthreadIds hfound
    refine ⟨found, hfound, hlisted.trans (hperm.mpr fun event hevent => ?_)⟩
    obtain ⟨hmem, hkind⟩ := List.mem_filter.mp hevent
    obtain ⟨payload, hpayload⟩ := hlegible.suspensions event hmem (of_decide_eq_true hkind)
    exact (heach event hevent payload hpayload).mpr (hfirst event hevent payload hpayload)

end

/-! ### Sample histories -/

/-- A request for a tool call, of a sample thread. -/
def sampleRequested (n : Nat) : NewEventRecord :=
  .witnessed (.counted n) (.counted "user" 1) .toolCallRequested
    (Wire.requested.toValue ⟨⟨"turn", "call"⟩, "snapshot", "tool", .null, none, none, []⟩)

variable (requests : List Nat)

def sampleRequests : InMemoryState 0 :=
  ((inMemoryStore 0).appendEvents (.forThread (.counted "user" 1)) (requests.map sampleRequested)
    .empty).2

/-- A controller that suspends every call, with the thread's requests for its sources. -/
def sampleController : BoundCoupling :=
  { sampleCoupling "gate" none with
    role := .controller
    triggerKind := .toolCallRequested
    sourceSelectors := [⟨"thread", [.toolCallRequested], none, none⟩]
    sink := ⟨"control", [.toolCallSuspended]⟩ }

def sampleGate : CouplingScheduler (InMemoryState 0) where
  store := (inMemoryStore 0).toEventStore
  executor := fun _ _ => .ok [⟨none, "control", .toolCallSuspended,
    Wire.suspended.toValue ⟨⟨"turn", "call"⟩, "snapshot", none, none⟩⟩]
  config := ⟨1, 4⟩
  draws := fun i => .counted (10 + i)
  describe := fun _ => "history"

def sampleRequestEvents : List EventRecord :=
  (inMemoryStore 0).events (sampleRequests requests) (.forThread (.counted "user" 1))

/-- The batch of the last request. -/
def sampleLast : List EventRecord :=
  (sampleRequestEvents requests).drop (requests.length - 1)

/-- The store after the cycle of that batch. -/
def sampleGated : InMemoryState 0 :=
  ((sampleGate.over (inMemoryStore 0)).runBatch ⟨"snapshot", [sampleController]⟩ (sampleLast requests)
    (sampleRequests requests)).2.store

/-- The last request. -/
def sampleOwn (event : EventRecord) : EventRecord :=
  (sampleLast requests).headD event

def sampleReader : Reader :=
  fun streamId => .ok ((inMemoryStore 0).events (sampleGated requests) streamId)

def sampleGateStart : Cycle (InMemoryState 0) :=
  (sampleGate.over (inMemoryStore 0)).start ⟨"snapshot", [sampleController]⟩ (sampleLast requests)
    (sampleRequests requests)

/-- The threads's events and those of its control stream, after the cycle. -/
def sampleThreadEvents : List EventRecord :=
  (inMemoryStore 0).events (sampleGated requests) (.forThread (.counted "user" 1))

def sampleGateEvents : List EventRecord :=
  (inMemoryStore 0).events (sampleGated requests) (controlStreamId (.counted "user" 1))

/-- The suspensions after the cycle are those that its first round discharged. -/
def sampleDischarges : Bool :=
  match (sampleGateStart requests).queue with
  | [] => false
  | queued :: rest =>
    (exec ((sampleGate.over (inMemoryStore 0)).settle queued)
      ((sampleGateStart requests).takeUp queued rest)).1.toOption.any fun exit =>
        queued.coupling = sampleController ∧ exit.sourceEvents = sampleRequestEvents requests ∧
        ∀ event ∈ suspended (sampleGateEvents requests),
          queued.triggerEvent = sampleOwn requests event ∧ event ∈ exit.sinkEvents ∧
            sampleOwn requests event ∈ sampleThreadEvents requests

theorem discharged_sample {requests : List Nat} (h : sampleDischarges requests = true) :
    ∀ event ∈ suspended (sampleGateEvents requests),
      sampleOwn requests event ∈ sampleThreadEvents requests ∧
        Discharged event (sampleOwn requests event) (sampleRequestEvents requests) := by
  intro event hevent
  rw [sampleDischarges] at h
  cases hqueue : (sampleGateStart requests).queue with
  | nil =>
    rw [hqueue] at h
    cases h
  | cons queued rest =>
    rw [hqueue] at h
    simp only at h
    have htaken : TakenUp (inMemoryStore 0) sampleGate ⟨"snapshot", [sampleController]⟩
        (sampleLast requests) (sampleRequests requests) queued
        ((sampleGateStart requests).takeUp queued rest) := ⟨_, rest, .start, hqueue, rfl⟩
    rcases hsettle : exec ((sampleGate.over (inMemoryStore 0)).settle queued)
      ((sampleGateStart requests).takeUp queued rest) with ⟨e | exit, settled⟩
    · rw [hsettle] at h
      cases h
    · rw [hsettle] at h
      obtain ⟨hcoupling, hsources, hall⟩ := of_decide_eq_true h
      obtain ⟨htrigger, hsink, hthread⟩ := hall event hevent
      exact ⟨hthread, .run htaken hsettle hsink (by rw [hcoupling]; rfl) (by rw [hcoupling]; rfl)
        htrigger hsources⟩

theorem requestEventId_awaited {codec : ControlCodec} {threadEvents controlEvents : List EventRecord}
    {own : EventRecord → EventRecord} {event : EventRecord} {entry : PendingToolCallSuspension}
    (h : awaited codec threadEvents controlEvents own event = some entry) :
    entry.requestEventId = some (own event).id := by
  rw [awaited] at h
  split at h
  · cases h
  · split at h
    · cases h
    · rw [← Option.some.inj h]

/-- The second request of a thread is suspended: the listing names the first. -/
theorem earlier_request_listed :
    (∀ event ∈ suspended (sampleGateEvents [1, 2]),
      sampleOwn [1, 2] event ∈ sampleThreadEvents [1, 2] ∧
        Discharged event (sampleOwn [1, 2] event) (sampleRequestEvents [1, 2])) ∧
    ¬ ListsAwaited (.wire fun _ => none) (sampleThreadEvents [1, 2]) (sampleGateEvents [1, 2])
      (sampleOwn [1, 2]) (sampleReader [1, 2]) (.counted "user" 1) := by
  refine ⟨discharged_sample (by decide), ?_⟩
  rintro ⟨found, hfound, hperm⟩
  have hlisting : (listPendingToolCallSuspensions (.wire fun _ => none) (sampleReader [1, 2])
      (.counted "user" 1)).toOption.map (·.map (·.requestEventId)) = some [some ⟨⟨1⟩⟩] := by
    decide
  rw [hfound] at hlisting
  have hids : found.map (·.requestEventId) = [some ⟨⟨1⟩⟩] := Option.some.inj hlisting
  cases found with
  | nil => cases hids
  | cons entry rest =>
    have hentry : entry.requestEventId = some ⟨⟨1⟩⟩ := (List.cons.inj hids).1
    obtain ⟨event, hevent, hawaited⟩ :=
      List.mem_filterMap.mp (hperm.mem_iff.mp List.mem_cons_self)
    have hown : (sampleOwn [1, 2] event).id = ⟨⟨2⟩⟩ := by
      have hlast : ∀ event ∈ suspended (sampleGateEvents [1, 2]),
          (sampleOwn [1, 2] event).id = ⟨⟨2⟩⟩ := by
        decide
      exact hlast event hevent
    rw [requestEventId_awaited hawaited, hown] at hentry
    exact absurd hentry (by decide)

theorem exists_of_isSome {α : Type} {x : Except String α} (h : x.toOption.isSome = true) :
    ∃ a, x = .ok a := by
  cases x with
  | error e => cases h
  | ok a => exact ⟨a, rfl⟩

theorem legible_sample : Legible (.wire fun _ => none) (sampleThreadEvents [2]) (sampleGateEvents [2]) := by
  have hevents : (∀ event ∈ sampleGateEvents [2], event.kind ≠ .toolCallDecision) ∧
      (∀ event ∈ sampleThreadEvents [2], event.kind ≠ .toolCallCompleted) ∧
      (∀ event ∈ sampleGateEvents [2], event.kind = .toolCallSuspended →
        (Wire.suspended.fromValue event.payload).toOption.isSome = true) ∧
      ∀ request ∈ sampleThreadEvents [2],
        (Wire.requested.fromValue request.payload).toOption.isSome = true := by
    decide +kernel
  obtain ⟨hdecisions, hcompletions, hsuspensions, hrequests⟩ := hevents
  exact ⟨fun event hevent hkind => absurd hkind (hdecisions event hevent),
    fun event hevent hkind => absurd hkind (hcompletions event hevent),
    fun event hevent hkind => exists_of_isSome (hsuspensions event hevent hkind),
    fun _ _ _ request hrequest _ _ => exists_of_isSome (hrequests request hrequest)⟩

/-- The suspension of the only request of a thread is listed. -/
theorem pending_suspensions_iff_only :
    ListsAwaited (.wire fun _ => none) (sampleThreadEvents [2]) (sampleGateEvents [2])
      (sampleOwn [2]) (sampleReader [2]) (.counted "user" 1) := by
  refine (pending_suspensions_iff (.wire fun _ => none) (sampleReader [2]) (.counted "user" 1) rfl rfl
    (by decide +kernel) (by decide +kernel) (sampleOwn [2]) (fun _ => sampleRequestEvents [2])
    (discharged_sample (by decide))).mpr ⟨legible_sample, ?_⟩
  intro event hevent payload _
  have hfirst : ∀ event ∈ suspended (sampleGateEvents [2]), ∀ source ∈ sampleRequestEvents [2],
      source.id = (sampleOwn [2] event).id := by
    decide
  exact .inl fun source hsource => hfirst event hevent source (List.mem_of_mem_head? hsource)

end Verlet.Kernel
