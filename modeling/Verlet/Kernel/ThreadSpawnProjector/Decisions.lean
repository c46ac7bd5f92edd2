import Verlet.Kernel.ThreadSpawnProjector.Dispatch

/-!
# Kernel — The thread spawn projector — Decisions

What the control stream says of one correlation id: its claims, its `thread.spawned` and its
`loop.denied`.  A fenced decision is appended only where there is none; what a dispatch answers is
read from them.

* `dispatchNext_ok`, `dispatchNext_error`: what a dispatch finds.
-/

namespace Verlet.Kernel
open Support History
open RemoteStore (DispatchId)

/-! ### Decisions of a correlation id -/

def decides (correlationId : String) (event : EventRecord) : Bool :=
  isSpawnDecision event ∧ rawCorrelation event = some correlationId

def decisions (correlationId : String) (events : List EventRecord) : List EventRecord :=
  events.filter (decides correlationId)

variable {correlationId : String} {event : EventRecord}

theorem decides_iff :
    decides correlationId event = true ↔
      isSpawnDecision event = true ∧ rawCorrelation event = some correlationId := by
  simp [decides]

theorem decides_unique {correlationId' : String} (h : decides correlationId event = true)
    (h' : decides correlationId' event = true) : correlationId = correlationId' :=
  Option.some.inj ((decides_iff.mp h).2.symm.trans (decides_iff.mp h').2)

variable {events : List EventRecord}

theorem mem_decisions :
    event ∈ decisions correlationId events ↔
      event ∈ events ∧ decides correlationId event = true := List.mem_filter

@[simp] theorem decisions_append (correlationId : String) (events later : List EventRecord) :
    decisions correlationId (events ++ later) =
      decisions correlationId events ++ decisions correlationId later := List.filter_append ..

theorem decisions_single (h : decides correlationId event = true) :
    decisions correlationId [event] = [event] :=
  List.filter_cons_of_pos h

theorem decisions_single_of_not (h : decides correlationId event = false) :
    decisions correlationId [event] = [] := by
  simp [decisions, h]

theorem decisions_eq_nil (h : ∀ event ∈ events, decides correlationId event = false) :
    decisions correlationId events = [] := by
  refine List.filter_eq_nil_iff.mpr fun event hevent => ?_
  simp [h event hevent]

/-- **What is not projected has no decisions.** -/
theorem decisions_of_unprojected {requestEventId : EventRecordId}
    (h : spawnRequestAlreadyProjected events requestEventId (some correlationId) = false) :
    decisions correlationId events = [] := by
  refine decisions_eq_nil fun event hevent => ?_
  have hnone := List.any_eq_false.mp h event hevent
  rw [Bool.eq_false_iff]
  intro hdecides
  obtain ⟨hdecision, hraw⟩ := decides_iff.mp hdecides
  exact hnone (by simp [hdecision, joins, hraw])

/-! ### Records -/

section
variable {streamId : EventStreamId} {sequence : EventSequence} {request : EventRecord} {draw : Draw}

theorem isSpawnRequestClaim_spawnClaim :
    isSpawnRequestClaim (.fromNew streamId sequence (spawnClaim request draw)) = true := by
  simp [isSpawnRequestClaim, EventRecord.fromNew, spawnClaim, NewEventRecord.discharged,
    projectorProvenance]

theorem rawCorrelation_spawnClaim :
    rawCorrelation (.fromNew streamId sequence (spawnClaim request draw)) = rawCorrelation request :=
  rfl

theorem rawCorrelation_failureRecord {coordinates : ThreadCoordinates}
    {correlationId : Option String} {reason : String} :
    rawCorrelation (.fromNew streamId sequence
        (failureRecord coordinates request correlationId reason draw)) =
      correlationId.or (rawCorrelation request) := by
  change (Json.index (Wire.object _) "correlation_id").asStr = _
  simp only [Wire.object, Json.index, Json.asObject, Option.bind_some, Wire.get?_object]
  cases correlationId.or (rawCorrelation request) <;> simp [Json.asStr]

variable {setup : SpawnSetup} {caller child : SpawnContext} {policyHash : Option String}
  {witness : SpawnWitness}

theorem rawCorrelation_spawnedRecord :
    rawCorrelation (.fromNew streamId sequence
      (spawnedRecord setup caller child policyHash witness draw)) = some witness.correlationId := by
  change (Json.index (Wire.object _) "correlation_id").asStr = _
  simp only [Wire.object, Json.index, Json.asObject, Option.bind_some, Wire.get?_object]
  simp [Wire.spawnedFields, Json.asStr]

theorem childThreadId_spawnedRecord :
    ((EventRecord.fromNew streamId sequence
        (spawnedRecord setup caller child policyHash witness draw)).payload.index
          "child_thread_id").asStr = some child.coordinates.threadId.uuid.text := by
  change (Json.index (Wire.object _) "child_thread_id").asStr = _
  simp only [Wire.object, Json.index, Json.asObject, Option.bind_some, Wire.get?_object]
  simp [Wire.spawnedFields, Json.asStr]

variable {coordinates : ThreadCoordinates} {payload : ThreadSpawnRequestedPayload}

theorem isSpawnRequest_spawnRequest :
    isSpawnRequest (.fromNew streamId sequence (spawnRequest coordinates payload draw)) = true := by
  simp [isSpawnRequest, isSpawnRequestClaim, EventRecord.fromNew, spawnRequest,
    NewEventRecord.discharged, threadSpawnProjectorDischargedBy]

theorem isSpawnRequestClaim_spawnRequest :
    isSpawnRequestClaim (.fromNew streamId sequence (spawnRequest coordinates payload draw)) =
      false := by
  simp [isSpawnRequestClaim, EventRecord.fromNew, spawnRequest, NewEventRecord.discharged,
    threadSpawnProjectorDischargedBy]

/-- **What a dispatch asks for is read back** from its request. -/
theorem decode_spawnRequestValue (payload : ThreadSpawnRequestedPayload) :
    Wire.spawnRequested.fromValue (spawnRequestValue payload) = .ok payload := by
  refine bind_ok.mpr ⟨_, rfl, Wire.reads_threadId.required ?_ <| Wire.reads_text.option ?_ <|
    Wire.reads_text.option ?_ <| Wire.reads_text.option ?_ <| Wire.reads_text.required ?_ <|
    Wire.reads_text.required ?_ <| Wire.reads_text.required ?_ <|
    bind_ok.mpr ⟨payload.blockParent, ?_, rfl⟩⟩
  on_goal 8 =>
    unfold Wire.defaulted
    rw [Json.get?_insertField, Wire.get?_object]
    simp [Wire.flag]
  all_goals
    rw [Json.get?_insertField, Wire.get?_object]
    simp

end

/-! ### What a dispatch finds -/

/-- The event is a `thread.spawned` that carries the correlation id. -/
def spawnedWith (correlationId : String) (event : EventRecord) : Bool :=
  event.kind = .threadSpawned ∧ rawCorrelation event = some correlationId

/-- The event is a `loop.denied` that carries the correlation id. -/
def deniedWith (correlationId : String) (event : EventRecord) : Bool :=
  event.kind = .loopDenied ∧ rawCorrelation event = some correlationId

/-- The child that a `thread.spawned` names. -/
def childHandle (event : EventRecord) : Option HandleId :=
  ((event.payload.index "child_thread_id").asStr.bind Uuid.parseStr).map fun uuid => .thread ⟨uuid⟩

theorem childHandle_spawnedRecord {streamId : EventStreamId} {sequence : EventSequence}
    {setup : SpawnSetup} {caller child : SpawnContext} {policyHash : Option String}
    {witness : SpawnWitness} {draw : Draw} :
    childHandle (.fromNew streamId sequence
        (spawnedRecord setup caller child policyHash witness draw)) =
      some (.thread child.coordinates.threadId) := by
  rw [childHandle, childThreadId_spawnedRecord, Option.bind_some, Uuid.parse_text]
  rfl

/-- The child of the first `thread.spawned`. -/
def spawnedHandle (correlationId : String) (events : List EventRecord) : Option HandleId :=
  (events.find? (spawnedWith correlationId)).bind childHandle

/-- The reason of the first `loop.denied`. -/
def deniedReason (correlationId : String) (events : List EventRecord) : Option String :=
  (events.find? (deniedWith correlationId)).bind fun event =>
    (event.payload.index "reason").asStr

theorem find?_spawnedWith (correlationId : String) (events : List EventRecord) :
    events.find? (spawnedWith correlationId) =
      (decisions correlationId events).find? fun event => event.kind = .threadSpawned := by
  rw [decisions, List.find?_filter]
  congr 1
  funext event
  by_cases hkind : event.kind = .threadSpawned
  · simp [spawnedWith, decides, isSpawnDecision, hkind]
  · simp [spawnedWith, hkind]

theorem spawnedHandle_mono {events' : List EventRecord} {handle : HandleId}
    (hpre : events <+: events') (h : spawnedHandle correlationId events = some handle) :
    spawnedHandle correlationId events' = some handle := by
  obtain ⟨later, rfl⟩ := hpre
  obtain ⟨event, hfind, hchild⟩ := Option.bind_eq_some_iff.mp h
  rw [spawnedHandle, List.find?_append, hfind, Option.some_or, Option.bind_some]
  exact hchild

def firstRequest (dispatchId : DispatchId) (events : List EventRecord) :
    Option (EventRecord × ThreadSpawnRequestedPayload) := events.findSome? (requestOf dispatchId)

variable {dispatchId : DispatchId} {payload : ThreadSpawnRequestedPayload} {request : EventRecord}

theorem requestOf_some : requestOf dispatchId event = some (request, payload) ↔
      isSpawnRequest event = true ∧ Wire.spawnRequested.fromValue event.payload = .ok payload ∧
        payload.correlationId = dispatchId.text ∧ request = event := by
  unfold requestOf
  cases isSpawnRequest event with
  | false => simp
  | true =>
    cases Wire.spawnRequested.fromValue event.payload with
    | error err => simp
    | ok found =>
      by_cases hid : found.correlationId = dispatchId.text
      · simp only [hid, if_true, not_true, if_false, Option.some.injEq, Prod.mk.injEq, true_and,
          Except.ok.injEq]
        constructor
        · rintro ⟨rfl, rfl⟩
          exact ⟨rfl, hid, rfl⟩
        · rintro ⟨rfl, -, rfl⟩
          exact ⟨rfl, rfl⟩
      · simp only [hid, if_false, not_true, reduceCtorEq, Except.ok.injEq, true_and, false_iff]
        rintro ⟨rfl, hid', -⟩
        exact hid hid'

theorem fold_of_firstRequest_none (h : firstRequest dispatchId events = none) :
    foldThreadSpawnDispatch events dispatchId = none := by
  unfold firstRequest at h
  simp [foldThreadSpawnDispatch, h]

theorem fold_of_firstRequest (h : firstRequest dispatchId events = some (request, payload)) :
    ∃ folded, foldThreadSpawnDispatch events dispatchId = some folded ∧
      folded.requestEventId = request.id ∧ folded.handle = spawnedHandle dispatchId.text events ∧
      folded.failureReason = deniedReason dispatchId.text events := by
  unfold firstRequest at h
  refine ⟨_, by rw [foldThreadSpawnDispatch, h]; rfl, rfl, ?_, ?_⟩
  · have hfind : (fun event : EventRecord => decide (event.kind = .threadSpawned ∧
        decide (rawCorrelation event = some dispatchId.text) = true)) =
          spawnedWith dispatchId.text := by
      funext event
      simp [spawnedWith]
    dsimp only
    rw [spawnedHandle, hfind]
    cases events.find? (spawnedWith dispatchId.text) <;> rfl
  · have hfind : (fun event : EventRecord => decide (event.kind = .loopDenied ∧
        decide (rawCorrelation event = some dispatchId.text) = true)) =
          deniedWith dispatchId.text := by
      funext event
      simp [deniedWith]
    dsimp only
    rw [deniedReason, hfind]

/-- The first request of the dispatch, and whether it is one of the call's parent. -/
structure Requested (call : SpawnDispatch) (events : List EventRecord) (request : EventRecord)
    (payload : ThreadSpawnRequestedPayload) (belongs : Bool) : Prop where
  first : firstRequest call.dispatchId events = some (request, payload)
  belongs_eq : spawnRequestBelongsToParent request payload call.coordinates = belongs

inductive Finds (call : SpawnDispatch) (events : List EventRecord) : SpawnResult DispatchNext → Prop
  | nameRefused {e : SpawnError} (hfirst : firstRequest call.dispatchId events = none)
      (hname : checkTaskName call events = .error e) : Finds call events (.error e)
  | request (hfirst : firstRequest call.dispatchId events = none)
      (hname : checkTaskName call events = .ok ()) : Finds call events (.ok .request)
  | outOfScope {e : SpawnError} {request : EventRecord} {payload : ThreadSpawnRequestedPayload}
      (h : Requested call events request payload false) : Finds call events (.error e)
  | answer {receipt : ThreadSpawnDispatchReceipt} {request : EventRecord}
      {payload : ThreadSpawnRequestedPayload} (h : Requested call events request payload true)
      (hhandle : spawnedHandle call.payload.correlationId events = some receipt.handle) :
      Finds call events (.ok (.answer receipt))
  | denied {e : SpawnError} {reason : String} {request : EventRecord}
      {payload : ThreadSpawnRequestedPayload} (h : Requested call events request payload true)
      (hhandle : spawnedHandle call.payload.correlationId events = none)
      (hreason : deniedReason call.payload.correlationId events = some reason) :
      Finds call events (.error e)
  | await {request : EventRecord} {payload : ThreadSpawnRequestedPayload}
      (h : Requested call events request payload true) : Finds call events (.ok .await)
  | claim {request : EventRecord} {payload : ThreadSpawnRequestedPayload}
      (h : Requested call events request payload true) : Finds call events (.ok (.claim request))

theorem firstRequest_some (h : firstRequest dispatchId events = some (request, payload)) :
    request ∈ events ∧ isSpawnRequest request = true ∧
      Wire.spawnRequested.fromValue request.payload = .ok payload ∧
      payload.correlationId = dispatchId.text := by
  obtain ⟨event, hevent, hrequest⟩ := List.exists_of_findSome?_eq_some h
  obtain ⟨hkind, hdecode, hid, rfl⟩ := requestOf_some.mp hrequest
  exact ⟨hevent, hkind, hdecode, hid⟩

theorem foldedRequest_eq (hnodup : (events.map (·.id)).Nodup) {folded : ThreadSpawnDispatchFold}
    (hmem : request ∈ events) (hid : folded.requestEventId = request.id) :
    foldedRequest events folded = .ok request := by
  unfold foldedRequest
  cases hfind : events.find? fun event => event.id = folded.requestEventId with
  | none =>
    have hnone := List.find?_eq_none.mp hfind request hmem
    exact absurd (decide_eq_true hid.symm) hnone
  | some event =>
    have hfound := List.find?_some hfind
    have hsame : event.id = request.id := (of_decide_eq_true hfound).trans hid
    rw [List.inj_on_of_nodup_map hnodup (List.mem_of_find?_eq_some hfind) hmem hsame]

theorem finds_dispatchNext (call : SpawnDispatch) (hnodup : (events.map (·.id)).Nodup) :
    Finds call events (dispatchNext call events) := by
  cases hfirst : firstRequest call.dispatchId events with
  | none =>
    rw [dispatchNext, fold_of_firstRequest_none hfirst]
    cases hname : checkTaskName call events with
    | error e => exact .nameRefused hfirst hname
    | ok _ => exact .request hfirst hname
  | some found =>
    obtain ⟨request, payload⟩ := found
    obtain ⟨folded, hfolded, hid, hhandle, hreason⟩ := fold_of_firstRequest hfirst
    obtain ⟨hmem, -, hdecode, -⟩ := firstRequest_some hfirst
    have hpayload : decodeSpawnRequest "folded thread spawn request payload decode failed: "
        request = .ok payload := orSpawn_ok.mpr (decodeOr_ok.mpr hdecode)
    rw [dispatchNext, hfolded]
    simp only [foldedRequest_eq hnodup hmem hid, hpayload, bind, Except.bind]
    cases hscope : spawnRequestBelongsToParent request payload call.coordinates with
    | false => exact .outOfScope ⟨hfirst, hscope⟩
    | true =>
      simp only [not_true, if_false]
      rw [hhandle]
      cases hchild : spawnedHandle call.dispatchId.text events with
      | some handle => exact .answer ⟨hfirst, hscope⟩ hchild
      | none =>
        rw [hreason]
        cases hdenied : deniedReason call.dispatchId.text events with
        | some reason => exact .denied ⟨hfirst, hscope⟩ hchild hdenied
        | none =>
          dsimp only
          split
          · exact .await ⟨hfirst, hscope⟩
          · exact .claim ⟨hfirst, hscope⟩

end Verlet.Kernel
