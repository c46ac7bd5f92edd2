import Verlet.Agent.AgentLoop.ProviderTurn

/-!
# Agent — The agent loop — The world of a turn

What a turn works on: the streams of the store and the entries of its thread.  `LoopWorld.serves` is what
a call may be answered, and the world it leaves; a store may fail at any call, and an append that fails
may have been taken all the same.

Which records say how the turn ended, and that its thread was spawned and joined, is said once: these are
its *marks*, and nobody else appends them.
-/

namespace Verlet.Agent
open Support Kernel History

/-- The streams, and the entries of the thread; of the steers, those that were appended, those that stood
when the session was last read, and of these again those that stood for the last request. -/
structure LoopWorld where
  streams : EventStreamId → List EventRecord
  entries : List SessionEntry
  steers : List SessionEntryId
  read : List SessionEntryId
  assembled : List SessionEntryId

/-! ### Marks -/

def AgentTurn.parentStream (turn : AgentTurn) : Option EventStreamId :=
  turn.thread.parentThreadId.map fun parentThreadId =>
    controlStreamId (History.coordinatesWithThreadId turn.coordinates parentThreadId)

def isChildRecord (kind : EventKind) (child : ThreadId) (event : EventRecord) : Bool :=
  event.kind = kind ∧ (event.payload.index "child_thread_id").asStr = some child.uuid.text

def isMarkKind (kind : EventKind) : Bool :=
  kind = .turnCompleted ∨ kind = .turnFailed ∨ kind = .threadJoined ∨ kind = .threadSpawned

/-- The event says how the turn ended, or that its thread was spawned or joined. -/
def AgentTurn.Marks (turn : AgentTurn) (streamId : EventStreamId) (event : EventRecord) : Prop :=
  streamId = turn.stream ∧ (isTurnRecord .turnCompleted turn.turnId event ∨
      isTurnRecord .turnFailed turn.turnId event) ∨
    turn.parentStream = some streamId ∧ (isChildRecord .threadJoined turn.coordinates.threadId event ∨
      isChildRecord .threadSpawned turn.coordinates.threadId event)

variable {streamId : EventStreamId}

theorem AgentTurn.Marks.kind {turn : AgentTurn} {event : EventRecord}
    (h : turn.Marks streamId event) : isMarkKind event.kind := by
  rcases h with ⟨-, h | h⟩ | ⟨-, h | h⟩
  all_goals
    simp only [isTurnRecord, isChildRecord, decide_eq_true_eq] at h
    simp [isMarkKind, h.1]

/-! ### What grows -/

/-- The streams and the entries only grow, and no mark is among what is new. -/
structure Quiet (turn : AgentTurn) (w w' : LoopWorld) : Prop where
  streams : ∀ streamId, ∃ more, w'.streams streamId = w.streams streamId ++ more ∧
    ∀ event ∈ more, ¬ turn.Marks streamId event
  entries : w.entries ⊆ w'.entries

/-- Quiet, and what is known of the steers is left. -/
structure Still (turn : AgentTurn) (w w' : LoopWorld) : Prop extends Quiet turn w w' where
  steers : w'.steers = w.steers
  read : w'.read = w.read
  assembled : w'.assembled = w.assembled

variable {turn : AgentTurn} {w w' w'' : LoopWorld}

theorem Quiet.refl (w : LoopWorld) : Quiet turn w w :=
  ⟨fun _ => ⟨[], (List.append_nil _).symm, fun _ h => nomatch h⟩, List.Subset.refl _⟩

theorem Quiet.trans (h : Quiet turn w w') (h' : Quiet turn w' w'') : Quiet turn w w'' := by
  refine ⟨fun streamId => ?_, List.Subset.trans h.entries h'.entries⟩
  obtain ⟨more, hmore, hquiet⟩ := h.streams streamId
  obtain ⟨later, hlater, hquiet'⟩ := h'.streams streamId
  refine ⟨more ++ later, by rw [hlater, hmore, List.append_assoc], fun event hevent => ?_⟩
  rcases List.mem_append.mp hevent with hevent | hevent
  · exact hquiet event hevent
  · exact hquiet' event hevent

theorem Still.refl (w : LoopWorld) : Still turn w w := ⟨.refl w, rfl, rfl, rfl⟩

/-! ### Calls -/

def LoopWorld.appended (w : LoopWorld) (streamId : EventStreamId) (records : List NewEventRecord) :
    LoopWorld :=
  { w with streams := appendBatch w.streams streamId records }

def LoopWorld.placed (w : LoopWorld) (streamId : EventStreamId) (records : List NewEventRecord) :
    List EventRecord :=
  numbered streamId (w.streams streamId).length records

def isFenceConflict : HistoryError → Bool
  | .appendFenceConflict .. => true
  | _                       => false

/-- What a call may be answered, and the world that it leaves. -/
def LoopWorld.serves (turn : AgentTurn) : (call : LoopCall) → LoopWorld → call.Reply → LoopWorld → Prop
  | .readEvents streamId after, w, answer, w' =>
    w' = w ∧ ∀ events, answer = .ok events →
      events = (w.streams streamId).filter fun event => after.all (· < event.sequence)
  | .appendEvents streamId records, w, answer, w' =>
    answer = .ok (w.placed streamId records) ∧ w' = w.appended streamId records ∨
      ∃ error, answer = .error error ∧ (w' = w ∨ w' = w.appended streamId records)
  | .appendEventsFenced streamId expected records, w, answer, w' =>
    w' = w ∧ (∃ error, answer = .error error) ∨
      expected = (w.streams streamId).length + 1 ∧ w' = w.appended streamId records ∧
        (answer = .ok (w.placed streamId records) ∨
          ∃ error, answer = .error error ∧ isFenceConflict error = false)
  | .appendTurnInput _ _ _, w, .ok entry, w' =>
    ∃ w₁, Still turn w w₁ ∧ entry ∈ w₁.entries ∧ w' = { w₁ with steers := w₁.steers ++ [entry.entryId] }
  | .buildContext _, w, .ok context, w' =>
    context.entries = w.entries ∧ w' = { w with read := w.steers }
  | .executeProviderRequest _, w, _, w' => Still turn { w with assembled := w.read } w'
  | .appendTurnInput _ _ _, w, .error _, w' | .buildContext _, w, .error _, w' => Still turn w w'
  | .append .., w, _, w' | .appendObservation .., w, _, w' | .draw, w, _, w' | .nowMs, w, _, w'
  | .cancelTurn, w, _, w' | .runBoundCouplings _, w, _, w' | .interruptions, w, _, w'
  | .commandCount, w, _, w' | .commandsClosed, w, _, w' | .tryRecv, w, _, w'
  | .runUserPromptSubmit .., w, _, w' | .runStop .., w, _, w'
  | .buildRecallReadPlanContexts _, w, _, w' | .buildInstructionReadPlanContexts _, w, _, w'
  | .contextSourceRanges _, w, _, w' | .toolDefinitions, w, _, w'
  | .executeToolCallBatch .., w, _, w' | .executeToolCall .., w, _, w' | .finishOrder, w, _, w' =>
    Still turn w w'

/-! ### A turn that runs alone

A turn of a spawned thread whose provider answers without a tool call, and a store that serves it.  What
its couplings come to and what comes while it awaits something are parameters. -/

def sampleUuid (n : Nat) : Uuid := ⟨BitVec.ofNat 128 n⟩

def sampleCoordinates (n : Nat) : ThreadCoordinates := ⟨"tenant", "user", "session", ⟨sampleUuid n⟩⟩

def sampleDraw (n : Nat) : Draw := ⟨⟨sampleUuid n⟩, 0, ⟨sampleUuid n⟩, 0⟩

/-- The setup of the sample: what is only written or shown is left empty. -/
def sampleSetup : LoopSetup Nat where
  errorText _ := "failed"
  sha256Json _ := ""
  bindReceipt _ := .error "no receipt"
  diagnosticsJson _ := .null
  replayTransformJson _ := .null
  messagesJson _ := .null
  segmentJson _ := .null
  readPlan _ _ _ := .null
  fractionalBudgetLimit _ _ := 0

def sampleLoop : AgentLoop Nat where
  hasHookPipeline := false
  hasToolRouter := false
  strictToolRouterUnknowns := false
  maxToolRounds := none
  system := []
  tools := []
  contextCompilePolicy := ⟨none, none⟩
  skillContextSegments := .ok []
  staticContextSegments := .ok []
  attachEventIdForToolName _ := none

/-- The turn of thread 2, which thread 1 spawned. -/
def sampleTurn : AgentTurn where
  thread :=
    { coordinates := sampleCoordinates 2
      parentThreadId := some ⟨sampleUuid 1⟩
      topology := ⟨.thread ⟨sampleUuid 1⟩ none none, .root, some ⟨⟨sampleUuid 1⟩, none, none, none⟩, none⟩
      metadata := [] }
  turnId := "turn"
  turnInput := ⟨[.text "hello" none], false, none⟩
  turnSourceEventId := ⟨sampleUuid 9⟩
  turnDeliveryStartSequence := 0
  turnAnchorTimestampMs := 0
  context := ⟨none, [], [], [], []⟩
  endpoint := ⟨.openAIResponses, "provider", "model", 100, none⟩

/-- `thread.spawned` of the thread. -/
def sampleSpawned : NewEventRecord :=
  .discharged (sampleDraw 5) (sampleCoordinates 1) .threadSpawned
    (Wire.object [("child_thread_id", .str (sampleUuid 2).text)]) EventProvenance.empty

/-- The thread was spawned, and the turn has not begun. -/
def sampleStart : LoopWorld :=
  LoopWorld.appended ⟨fun _ => [], [], [], [], []⟩ (controlStreamId (sampleCoordinates 1)) [sampleSpawned]

/-- The next entry of the thread. -/
def LoopWorld.sampleEntry (w : LoopWorld) (turnId : Option String) (kind : SessionEntryKind) :
    SessionEntry :=
  ⟨⟨sampleUuid (100 + w.entries.length)⟩, none, turnId, sampleCoordinates 2, 0, kind⟩

/-- An answer without a tool call. -/
def sampleAnswer : CanonicalMessage :=
  .assistant [.text "done" none] .openAIResponses "provider" "model" ⟨0, 0, 0, 0⟩ .endTurn none 0

def sampleServe (couplings : List EventRecord → LoopResult Unit)
    (comes : LoopWorld → List Interruption) : (call : LoopCall) → LoopWorld → call.Reply × LoopWorld
  | .readEvents streamId after, w =>
    (.ok ((w.streams streamId).filter fun event => after.all (· < event.sequence)), w)
  | .appendEvents streamId records, w => (.ok (w.placed streamId records), w.appended streamId records)
  | .appendEventsFenced streamId expected records, w =>
    if expected = (w.streams streamId).length + 1 then
      (.ok (w.placed streamId records), w.appended streamId records)
    else (.error (.appendFenceConflict streamId expected (w.streams streamId).length), w)
  | .append _ kind _, w =>
    (.ok (w.sampleEntry none kind), { w with entries := w.entries ++ [w.sampleEntry none kind] })
  | .appendTurnInput _ turnId kind, w =>
    (.ok (w.sampleEntry turnId kind),
      { w with
        entries := w.entries ++ [w.sampleEntry turnId kind]
        steers := w.steers ++ [(w.sampleEntry turnId kind).entryId] })
  | .buildContext _, w => (.ok ⟨w.entries, [], []⟩, { w with read := w.steers })
  | .executeProviderRequest _, w => (.ok sampleAnswer, { w with assembled := w.read })
  | .runBoundCouplings appended, w => (couplings appended, w)
  | .interruptions, w => (comes w, w)
  | .draw, w => (sampleDraw (10 + (w.streams sampleTurn.stream).length), w)
  | .appendObservation .., w => (.ok (), w)
  | .nowMs, w => ((0 : Int), w)
  | .cancelTurn, w => ((), w)
  | .commandCount, w => ((0 : Nat), w)
  | .commandsClosed, w => (false, w)
  | .tryRecv, w => (.empty, w)
  | .runUserPromptSubmit .., w => (⟨[], [], false⟩, w)
  | .runStop .., w => (⟨[], [], false⟩, w)
  | .buildRecallReadPlanContexts _, w => (.ok [], w)
  | .buildInstructionReadPlanContexts _, w => (.ok [], w)
  | .contextSourceRanges _, w => (.ok [], w)
  | .toolDefinitions, w => ([], w)
  | .executeToolCallBatch .., w => ([], w)
  | .executeToolCall .., w => (.error (.execution "no tool"), w)
  | .finishOrder, w => ((0 : Nat), w)

theorem serves_sampleServe (turn : AgentTurn) (couplings : List EventRecord → LoopResult Unit)
    (comes : LoopWorld → List Interruption) (call : LoopCall) (w : LoopWorld) :
    LoopWorld.serves turn call w (sampleServe couplings comes call w).1
      (sampleServe couplings comes call w).2 := by
  cases call with
  | readEvents streamId after => exact ⟨rfl, fun events h => (Except.ok.inj h).symm⟩
  | appendEvents streamId records => exact .inl ⟨rfl, rfl⟩
  | appendEventsFenced streamId expected records =>
    simp only [sampleServe]
    split
    · exact .inr ⟨‹_›, rfl, .inl rfl⟩
    · exact .inl ⟨rfl, _, rfl⟩
  | append coordinates kind provenance =>
    exact ⟨⟨(Quiet.refl w).streams, List.subset_append_left _ _⟩, rfl, rfl, rfl⟩
  | appendTurnInput coordinates turnId kind =>
    exact ⟨{ w with entries := w.entries ++ [w.sampleEntry turnId kind] },
      ⟨⟨(Quiet.refl w).streams, List.subset_append_left _ _⟩, rfl, rfl, rfl⟩,
      List.mem_append_right _ List.mem_cons_self, rfl⟩
  | buildContext coordinates => exact ⟨rfl, rfl⟩
  | executeProviderRequest request => exact .refl _
  | _ => exact Still.refl w

def sampleRun (couplings : List EventRecord → LoopResult Unit)
    (comes : LoopWorld → List Interruption) :
    Except LoopStop (Bool × List ThreadCommand) × LoopWorld :=
  (runProviderTurn sampleSetup 3 sampleLoop sampleTurn []).run.alone (sampleServe couplings comes)
    sampleStart

/-! ### Batches -/

theorem index_object (fields : List (String × Json)) (key : String) :
    (Wire.object fields).index key =
      (fields.foldl (fun found field => if key = field.1 then some field.2 else found) none).getD
        .null :=
  congrArg (·.getD .null) (Wire.get?_object fields key)

theorem mem_numbered {len : Nat} {records : List NewEventRecord} {event : EventRecord}
    (h : event ∈ numbered streamId len records) :
    ∃ sequence, ∃ record ∈ records, event = .fromNew streamId sequence record := by
  induction records generalizing len with
  | nil => cases h
  | cons record records ih =>
    rcases List.mem_cons.mp h with rfl | h
    · exact ⟨_, record, List.mem_cons_self, rfl⟩
    · obtain ⟨sequence, record', hrecord, heq⟩ := ih h
      exact ⟨sequence, record', List.mem_cons_of_mem _ hrecord, heq⟩

theorem streams_appended (w : LoopWorld) (streamId : EventStreamId) (records : List NewEventRecord)
    (streamId' : EventStreamId) :
    (w.appended streamId records).streams streamId' =
      w.streams streamId' ++ if streamId' = streamId then w.placed streamId records else [] := by
  by_cases h : streamId' = streamId
  · subst h
    simp [LoopWorld.appended, LoopWorld.placed, appendBatch]
  · simp [LoopWorld.appended, appendBatch, h]

theorem mem_streams_appended (w : LoopWorld) (streamId : EventStreamId) (record : NewEventRecord) :
    .fromNew streamId ((w.streams streamId).length + 1) record ∈
      (w.appended streamId [record]).streams streamId := by
  rw [streams_appended, if_pos rfl]
  exact List.mem_append_right _ List.mem_cons_self

theorem Quiet.appended {records : List NewEventRecord}
    (h : ∀ record ∈ records, isMarkKind record.kind = false) :
    Quiet turn w (w.appended streamId records) := by
  refine ⟨fun streamId' => ⟨_, streams_appended w streamId records streamId', fun event hevent => ?_⟩,
    List.Subset.refl _⟩
  intro hmarks
  split at hevent
  · obtain ⟨sequence, record, hrecord, rfl⟩ := mem_numbered hevent
    exact Bool.false_ne_true ((h record hrecord).symm.trans hmarks.kind)
  · cases hevent

/-! ### Calls without a mark -/

/-- The call appends no mark. -/
def Unmarked : LoopCall → Prop
  | .appendEvents _ records | .appendEventsFenced _ _ records =>
    ∀ record ∈ records, isMarkKind record.kind = false
  | _ => True

/-- The call appends no mark and is no request to the provider. -/
def QuietCall (call : LoopCall) : Prop := Unmarked call ∧ ∀ request, call ≠ .executeProviderRequest request

/-- **A call without a mark is quiet.** -/
theorem Unmarked.quiet {call : LoopCall} {answer : call.Reply} (h : Unmarked call)
    (hserves : LoopWorld.serves turn call w answer w') : Quiet turn w w' := by
  cases call with
  | readEvents streamId after =>
    obtain ⟨rfl, -⟩ := hserves
    exact .refl _
  | appendEvents streamId records =>
    rcases hserves with ⟨-, rfl⟩ | ⟨error, -, rfl | rfl⟩
    · exact .appended h
    · exact .refl _
    · exact .appended h
  | appendEventsFenced streamId expected records =>
    rcases hserves with ⟨rfl, -⟩ | ⟨-, rfl, -⟩
    · exact .refl _
    · exact .appended h
  | appendTurnInput coordinates turnId kind =>
    cases answer with
    | ok entry =>
      obtain ⟨w₁, hstill, -, rfl⟩ := hserves
      exact ⟨hstill.streams, hstill.entries⟩
    | error error => exact hserves.toQuiet
  | buildContext coordinates =>
    cases answer with
    | ok context =>
      obtain ⟨-, rfl⟩ := hserves
      exact ⟨(Quiet.refl w).streams, List.Subset.refl _⟩
    | error error => exact hserves.toQuiet
  | executeProviderRequest request => exact ⟨hserves.streams, hserves.entries⟩
  | append coordinates kind provenance => exact hserves.toQuiet
  | appendObservation coordinates kind payload => exact hserves.toQuiet
  | draw => exact hserves.toQuiet
  | nowMs => exact hserves.toQuiet
  | cancelTurn => exact hserves.toQuiet
  | runBoundCouplings appended => exact hserves.toQuiet
  | interruptions => exact hserves.toQuiet
  | commandCount => exact hserves.toQuiet
  | commandsClosed => exact hserves.toQuiet
  | tryRecv => exact hserves.toQuiet
  | runUserPromptSubmit turnId prompt => exact hserves.toQuiet
  | runStop turnId lastAssistantMessage => exact hserves.toQuiet
  | buildRecallReadPlanContexts coordinates => exact hserves.toQuiet
  | buildInstructionReadPlanContexts coordinates => exact hserves.toQuiet
  | contextSourceRanges sourceCuts => exact hserves.toQuiet
  | toolDefinitions => exact hserves.toQuiet
  | executeToolCallBatch calls waitEdges => exact hserves.toQuiet
  | executeToolCall turnId callId toolName arguments => exact hserves.toQuiet
  | finishOrder => exact hserves.toQuiet

end Verlet.Agent
