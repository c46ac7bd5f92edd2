import Verlet.Daemon.Ingress.Bridge

/-!
# Daemon — Ingress — Claims

The three writers of a thread's claims and settles.  Each reads the control stream, folds it, and
appends on the condition that the stream still ends where it was read; where the fence conflicts it
reads again.  `append_ingress_claim` leaves the settle to its delivery, `append_effect_free` writes
both at once, `append_ingress_settle` settles a claim.

A writer that holds dedupe keys first asks, under the lock of the claim admissions, what became of
its envelopes on the streams that the keys name.
-/

namespace Verlet.Daemon
open Support Kernel Io History

inductive IngressClaimAppend where
  | appended (claim : EventRecord)
  | existing (state : IngressOutcomeState)
deriving DecidableEq

/-! ### Records -/

def ingressClaimProvenance (controlStream : EventStreamId)
    (ingressWitnessEventIds : List EventRecordId) (admissionEventId : EventRecordId) :
    EventProvenance :=
  { EventProvenance.empty with
    sourceStreams := [controlStream]
    sourceEventIds := ingressWitnessEventIds ++ [admissionEventId]
    dischargedBy := some "controller:ingress-outcome"
    function := some "claim/v1" }

def ingressSettleProvenance (controlStream : EventStreamId) (coordinates : ThreadCoordinates)
    (claimEventId : EventRecordId) (evidenceEventId : Option EventRecordId) : EventProvenance :=
  { EventProvenance.empty with
    sourceStreams := controlStream ::
      if evidenceEventId.isSome then [EventStreamId.forThread coordinates] else []
    sourceEventIds := claimEventId :: evidenceEventId.toList
    dischargedBy := some "controller:ingress-outcome"
    function := some "settle/v1" }

/-- `ingress_outcome_stream_id`; a missing outcome has none. -/
def ingressOutcomeStreamId : IngressOutcomeState → Option EventStreamId
  | .missing          => none
  | .claimed claim _  => some (controlStreamId claim.coordinates)
  | .settled _ settle => some (controlStreamId settle.coordinates)

structure ClaimRequest where
  coordinates : ThreadCoordinates
  ingressEnvelopeIds : List String
  ingressWitnessEventIds : List EventRecordId
  admissionEventId : EventRecordId
  intent : IngressOutcomeIntent

namespace ClaimRequest

def streamId (request : ClaimRequest) : EventStreamId := controlStreamId request.coordinates

def payload (request : ClaimRequest) : IoIngressClaimedPayload :=
  ⟨request.ingressEnvelopeIds, request.ingressWitnessEventIds, request.admissionEventId,
    request.intent⟩

/-- The `io.ingress.claimed` record. -/
def claim (codec : OutcomeCodec) (request : ClaimRequest) (draw : Draw) : NewEventRecord :=
  .discharged draw request.coordinates .ioIngressClaimed (codec.claimed.toValue request.payload)
    (ingressClaimProvenance request.streamId request.ingressWitnessEventIds request.admissionEventId)

end ClaimRequest

variable (codec : OutcomeCodec)

/-- The `io.ingress.settled` record. -/
def settleRecord (coordinates : ThreadCoordinates)
    (payload : IoIngressSettledPayload) (draw : Draw) : NewEventRecord :=
  .discharged draw coordinates .ioIngressSettled (codec.settled.toValue payload)
    (ingressSettleProvenance (controlStreamId coordinates) coordinates payload.claimEventId
      payload.evidenceEventId)

/-! ### The outcome on other streams -/

def readStreams : List EventStreamId → BridgeM (List EventRecord)
  | [] => return []
  | stream :: rest => do
    let events ← readEvents stream
    return events ++ (← readStreams rest)

def ingressOutcomeOnStreams (streams : List EventStreamId)
    (ingressEnvelopeIds : List String) : BridgeM IngressOutcomeState :=
  if streams = [] then return .missing
  else do given (ingressOutcomeFold codec (← readStreams streams) ingressEnvelopeIds)

def readStreamsFrom : List (EventStreamId × Option StreamCursorV1) →
    BridgeM (List EventRecord × List (EventStreamId × Option StreamCursorV1))
  | [] => return ([], [])
  | (stream, cursor) :: rest => do
    let events ← readEventsFrom stream cursor
    let (later, cursors) ← readStreamsFrom rest
    return (events ++ later, (stream, (events.getLast?.map (·.cursorV1)).or cursor) :: cursors)

def ingressOutcomeTimeoutError : IoError :=
  .bridgeText "timed out waiting for superseding durable ingress ownership"

/-- The loop of `ingress_outcome_on_store`. -/
def ingressOutcomeLoop (codec : OutcomeCodec) (ingressEnvelopeIds : List String) :
    Nat → List EventRecord → List (EventStreamId × Option StreamCursorV1) →
      BridgeM IngressOutcomeState
  | 0,        _,      _       => throw divergedIo
  | fuel + 1, events, cursors => do
    let state ← given (ingressOutcomeFold codec events ingressEnvelopeIds)
    if state ≠ .missing then return state
    else if ← sleep then throw ingressOutcomeTimeoutError
    else
      let (later, cursors) ← readStreamsFrom cursors
      ingressOutcomeLoop codec ingressEnvelopeIds fuel (events ++ later) cursors

def awaitIngressOutcomeOnStreams (fuel : Nat) (streams : List EventStreamId)
    (ingressEnvelopeIds : List String) : BridgeM IngressOutcomeState := do
  let (events, cursors) ← readStreamsFrom (streams.map (·, none))
  ingressOutcomeLoop codec ingressEnvelopeIds fuel events cursors

/-! ### Claims -/

/-- The claim-admission lock of both claiming writers: the outcome that is there already, or nothing
where the writer goes on. -/
def admitClaim (fuel : Nat) (ingressEnvelopeIds : List String) :
    Option IngressOwnershipReservation → BridgeM (Option IngressOutcomeState)
  | none           => return none
  | some ownership => do
    lockClaimAdmission
    let streams ← lockedOwnershipStreams ownership.keys
    let state ← ingressOutcomeOnStreams codec streams ingressEnvelopeIds
    match ingressOutcomeStreamId state with
    | some streamId => do
      pruneToStream ownership.keys streamId
      commitClaimAdmission
      return some state
    | none => do
      if ← reservationIsCurrent ownership then
        pruneToReservation ownership
        return none
      else
        commitClaimAdmission
        return some (← awaitIngressOutcomeOnStreams codec fuel streams ingressEnvelopeIds)

def commitAdmission : Option IngressOwnershipReservation → BridgeM Unit
  | none   => return ()
  | some _ => commitClaimAdmission

/-- The loop of the claiming writers: `records` makes the batch, `answer` takes the claim from what
was appended. -/
def claimLoop (codec : OutcomeCodec) (request : ClaimRequest)
    (ownership : Option IngressOwnershipReservation) (records : BridgeM (List NewEventRecord))
    (answer : List EventRecord → IoResult EventRecord) : Nat → BridgeM IngressClaimAppend
  | 0        => throw divergedIo
  | fuel + 1 => do
    let events ← readEvents request.streamId
    let state ← given (ingressOutcomeFold codec events request.ingressEnvelopeIds)
    if state ≠ .missing then
      commitAdmission ownership
      return .existing state
    else
      match ← appendEventsFenced request.streamId (nextSequence events) (← records) with
      | none          => claimLoop codec request ownership records answer fuel
      | some appended => do
        let claim ← given (answer appended)
        commitAdmission ownership
        return .appended claim

def claimRecords (request : ClaimRequest) : BridgeM (List NewEventRecord) :=
  do return [request.claim codec (← ask .draw)]

/-- What `append_ingress_claim` takes from the appended events. -/
def claimAppended (appended : List EventRecord) : IoResult EventRecord :=
  match appended.getLast? with
  | some claim => .ok claim
  | none       => .error (.bridgeText "ingress claim append returned no record")

def appendIngressClaim (fuel : Nat) (request : ClaimRequest)
    (ownership : Option IngressOwnershipReservation) : BridgeM IngressClaimAppend := do
  match ← admitClaim codec fuel request.ingressEnvelopeIds ownership with
  | some state => return .existing state
  | none       => claimLoop codec request ownership (claimRecords codec request) claimAppended fuel

def effectFreeSettle (request : ClaimRequest) (claimEventId : EventRecordId) :
    IoIngressSettledPayload :=
  ⟨claimEventId, request.ingressEnvelopeIds, none, .execution⟩

def effectFreeRecords (request : ClaimRequest) : BridgeM (List NewEventRecord) := do
  let claim := request.claim codec (← ask .draw)
  return [claim, settleRecord codec request.coordinates (effectFreeSettle request claim.id)
    (← ask .draw)]

/-- What `append_effect_free_ingress_outcome` takes from the appended events. -/
def effectFreeAppended (appended : List EventRecord) : IoResult EventRecord :=
  match appended with
  | [claim, _] => .ok claim
  | _          => .error (.bridgeText "effect-free ingress outcome append returned an incomplete batch")

def appendEffectFreeIngressOutcome (fuel : Nat) (request : ClaimRequest)
    (ownership : Option IngressOwnershipReservation) : BridgeM IngressClaimAppend := do
  match ← admitClaim codec fuel request.ingressEnvelopeIds ownership with
  | some state => return .existing state
  | none       =>
    claimLoop codec request ownership (effectFreeRecords codec request) effectFreeAppended fuel

/-! ### Settles -/

structure SettleRequest where
  coordinates : ThreadCoordinates
  claim : EventRecord
  claimPayload : IoIngressClaimedPayload
  evidenceEventId : Option EventRecordId
  settledBy : IngressSettledBy

namespace SettleRequest

def streamId (request : SettleRequest) : EventStreamId := controlStreamId request.coordinates

def payload (request : SettleRequest) : IoIngressSettledPayload :=
  ⟨request.claim.id, request.claimPayload.ingressEnvelopeIds, request.evidenceEventId,
    request.settledBy⟩

end SettleRequest

def settleState (request : SettleRequest) : IngressOutcomeState → IoResult (Option EventRecord)
  | .settled _ settle   => .ok (some settle)
  | .claimed existing _ =>
    if existing.id = request.claim.id then .ok none
    else .error (.bridgeText "ingress settle no longer matches the active claim")
  | .missing => .error (.bridgeText "ingress settle no longer matches the active claim")

/-- What `append_ingress_settle` takes from the appended events. -/
def settleAppended (appended : List EventRecord) : IoResult EventRecord :=
  match appended.getLast? with
  | some settle => .ok settle
  | none        => .error (.bridgeText "ingress settle append returned no record")

def appendIngressSettle (codec : OutcomeCodec) (request : SettleRequest) :
    Nat → BridgeM EventRecord
  | 0        => throw divergedIo
  | fuel + 1 => do
    let events ← readEvents request.streamId
    let state ← given (ingressOutcomeFold codec events request.claimPayload.ingressEnvelopeIds)
    match ← given (settleState request state) with
    | some settle => return settle
    | none => do
      let record := settleRecord codec request.coordinates request.payload (← ask .draw)
      match ← appendEventsFenced request.streamId (nextSequence events) [record] with
      | none          => appendIngressSettle codec request fuel
      | some appended => given (settleAppended appended)

end Verlet.Daemon
