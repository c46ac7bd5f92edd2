import Verlet.Kernel.Admission
import Verlet.Kernel.FencedStore
import Verlet.Support.Pools
import Verlet.Daemon.Ingress.Outcomes

/-!
# Daemon — Ingress — The bridge

`VerletDaemonIoBridge` as sequential programs that await one call at a time: of the session store, of
the route's state, of the supervisor and of the ingress queue.  A loop of the source that goes on
while it meets conflicts, or until something shows, has fuel here; out of fuel it `diverged`, an error
that no loop of the source gives.

Only the store's calls are told in full.  The others (threads, turns, checkpoints, the queue's own
tables) answer what they answer, and what they write is other events than the bridge's own.
-/

namespace Verlet.Daemon
open Support Kernel Io History
open RemoteStore (VerletError)
open Proc (Does)

/-! ### Calls -/

/-- A dedupe key and the envelope that it is a key of. -/
structure IngressOwnershipKey where
  dedupeKey : String
  ingressEnvelopeId : String

/-- The rows by which a delivery holds its dedupe keys. -/
structure IngressOwnershipReservation where
  ownershipId : String
  keys : List IngressOwnershipKey
  streamId : EventStreamId

inductive BridgeCall where
  /-- `read_events`, from the start of the stream. -/
  | readEvents (streamId : EventStreamId)
  /-- `read_events_after_cursor`. -/
  | readEventsAfterCursor (streamId : EventStreamId) (cursor : StreamCursorV1)
  | appendEvents (streamId : EventStreamId) (records : List NewEventRecord)
  | appendEventsFenced (streamId : EventStreamId) (expected : EventSequence)
      (records : List NewEventRecord)
  /-- The id and the clock of a new record. -/
  | draw
  /-- `lock_ingress_claim_admission`. -/
  | lockClaimAdmission
  /-- `IngressClaimAdmissionLock::ownership_streams`. -/
  | lockedOwnershipStreams (keys : List IngressOwnershipKey)
  | reservationIsCurrent (reservation : IngressOwnershipReservation)
  | pruneToReservation (reservation : IngressOwnershipReservation)
  | pruneToStream (keys : List IngressOwnershipKey) (streamId : EventStreamId)
  | commitClaimAdmission
  /-- A sleep, and whether the time for all of it is over. -/
  | sleep
  /-- `resolve_target`. -/
  | resolveTarget (envelope : IngressEnvelope)
  /-- `ingress_route_state`: the route has its state. -/
  | hasRouteState (envelope : IngressEnvelope)
  /-- The route has a config, and so must have its state. -/
  | hasRouteConfig (envelope : IngressEnvelope)
  /-- `DaemonEgressState::ingress_ownership_streams`. -/
  | ownershipStreams (keys : List IngressOwnershipKey)
  /-- `DaemonEgressState::record_ingress_ownership`. -/
  | recordOwnership (keys : List IngressOwnershipKey) (streamId : EventStreamId) (attempt : Nat)
  /-- `resolved_target_coordinates`. -/
  | targetCoordinates (target : ResolvedIoTarget)
  /-- `get_or_load_thread_handle`, and the parent of the thread. -/
  | parentThread (coordinates : ThreadCoordinates)
  /-- `ensure_thread`. -/
  | ensureThread (target : ResolvedIoTarget) (envelope : IngressEnvelope)
  /-- The active turn of a scope. -/
  | activeTurn (scopeKey : String)
  /-- `supervisor.get_thread_at`. -/
  | threadHandle (coordinates : ThreadCoordinates)
  /-- `run_bound_couplings`, of an event that a thread's handle appended. -/
  | runBoundCouplings (appended : EventRecord)
  | newTurnId
  | newThreadId
  /-- `get_or_load_thread_handle`, of a thread shut down first if it failed. -/
  | reviveThread (coordinates : ThreadCoordinates)
  /-- `reserve_admitted_turn_to`. -/
  | reserveTurn (coordinates : ThreadCoordinates) (turnId : String) (input : IoTurnInput)
      (mode : TurnSubmissionMode)
  | bindEgressThread (envelope : IngressEnvelope) (target : ResolvedIoTarget)
      (coordinates : ThreadCoordinates)
  /-- `append_ingress_turn_submitted_event`. -/
  | appendTurnSubmitted (coordinates : ThreadCoordinates) (envelope : IngressEnvelope)
      (target : ResolvedIoTarget) (turnId : String) (sourceStream : Option EventStreamId)
      (sourceEventIds : List EventRecordId)
  | setActiveTurn (scopeKey turnId : String)
  /-- `submit_reserved`. -/
  | submitReserved
  /-- `wait_for_turn_execution_evidence`. -/
  | waitForEvidence (coordinates : ThreadCoordinates) (turnId : String) (mode : TurnSubmissionMode)
  /-- `read_thread_events` and `turn_execution_evidence`. -/
  | findEvidence (coordinates : ThreadCoordinates) (turnId : String) (mode : TurnSubmissionMode)
  /-- `cancel_at`. -/
  | cancelThread (coordinates : ThreadCoordinates) (reason : String)
  /-- `run_fork_effects`: the id of the `thread.spawned` event. -/
  | runForkEffects (envelope : IngressEnvelope) (target : ResolvedIoTarget)
      (parent : ThreadCoordinates) (childKey : String) (input : IoTurnInput)
      (sourceEventIds : List EventRecordId) (claimEventId : Option EventRecordId)
      (childThreadId : ThreadId) (scanForExistingSpawn : Bool)
  | completeIngress (messageId : String)
  | retryIngress (messageId : String) (reason : IoError)
  | holdIngressUntil (messageId : String) (visibleAtMs : Nat)
  | nowMs

def BridgeCall.Reply : BridgeCall → Type
  | .readEvents _              => HistoryResult (List EventRecord)
  | .readEventsAfterCursor _ _ => HistoryResult (List EventRecord)
  | .appendEvents _ _          => HistoryResult (List EventRecord)
  | .appendEventsFenced _ _ _  => HistoryResult (List EventRecord)
  | .draw                      => Draw
  | .lockClaimAdmission        => IoResult Unit
  | .lockedOwnershipStreams _  => IoResult (List EventStreamId)
  | .reservationIsCurrent _    => IoResult Bool
  | .pruneToReservation _      => IoResult Unit
  | .pruneToStream _ _         => IoResult Unit
  | .commitClaimAdmission      => IoResult Unit
  | .sleep                     => Bool
  | .resolveTarget _           => IoResult ResolvedIoTarget
  | .hasRouteState _           => Bool
  | .hasRouteConfig _          => Bool
  | .ownershipStreams _        => IoResult (List EventStreamId)
  | .recordOwnership _ _ _     => IoResult String
  | .targetCoordinates _       => IoResult (Option ThreadCoordinates)
  | .parentThread _            => IoResult (Option ThreadId)
  | .ensureThread _ _          => IoResult ThreadCoordinates
  | .activeTurn _              => Option String
  | .threadHandle _            => IoResult Unit
  | .runBoundCouplings _       => IoResult Unit
  | .newTurnId                 => String
  | .newThreadId               => ThreadId
  | .reviveThread _            => IoResult Unit
  | .reserveTurn _ _ _ _       => IoResult Unit
  | .bindEgressThread _ _ _    => IoResult Unit
  | .appendTurnSubmitted ..    => IoResult Unit
  | .setActiveTurn _ _         => Unit
  | .submitReserved            => Unit
  | .waitForEvidence _ _ _     => IoResult EventRecordId
  | .findEvidence _ _ _        => IoResult (Option EventRecordId)
  | .cancelThread _ _          => IoResult Unit
  | .runForkEffects ..         => IoResult EventRecordId
  | .completeIngress _         => IoResult Unit
  | .retryIngress _ _          => IoResult Unit
  | .holdIngressUntil _ _      => IoResult Unit
  | .nowMs                     => Nat

/-- An answer that fails, or says nothing. -/
def BridgeCall.refused : (call : BridgeCall) → call.Reply
  | .readEvents _ | .readEventsAfterCursor _ _ | .appendEvents _ _ | .appendEventsFenced _ _ _ =>
    .error .diverged
  | .lockClaimAdmission | .lockedOwnershipStreams _ | .reservationIsCurrent _ | .pruneToReservation _
  | .pruneToStream _ _ | .commitClaimAdmission | .resolveTarget _ | .ownershipStreams _
  | .recordOwnership _ _ _ | .targetCoordinates _ | .parentThread _ | .ensureThread _ _
  | .threadHandle _ | .runBoundCouplings _ | .reviveThread _ | .reserveTurn _ _ _ _
  | .bindEgressThread _ _ _ | .appendTurnSubmitted .. | .waitForEvidence _ _ _ | .findEvidence _ _ _
  | .cancelThread _ _ | .runForkEffects .. | .completeIngress _ | .retryIngress _ _
  | .holdIngressUntil _ _ => .error (.ofHistory .diverged)
  | .sleep => true
  | .hasRouteState _ | .hasRouteConfig _ => false
  | .activeTurn _ => none
  | .setActiveTurn _ _ | .submitReserved => ()
  | .draw => .counted 0
  | .newTurnId => ""
  | .newThreadId => ⟨⟨BitVec.ofNat 128 0⟩⟩
  | .nowMs => (0 : Nat)

/-! ### Programs -/

abbrev BridgeM (α : Type) := ExceptT IoError (Proc BridgeCall BridgeCall.Reply) α

/-- Make a call that always answers. -/
def ask (call : BridgeCall) : BridgeM call.Reply := ExceptT.lift (Proc.perform call)

/-- Make a call that may fail, and fail with it. -/
def attempt {α : Type} (call : Proc BridgeCall BridgeCall.Reply (IoResult α)) : BridgeM α :=
  ExceptT.mk call

/-- A sleep; it is true where the time is over. -/
def sleep : BridgeM Bool := ask .sleep

def lockClaimAdmission : BridgeM Unit := attempt (Proc.perform BridgeCall.lockClaimAdmission)

/-- `IngressClaimAdmissionLock::ownership_streams`. -/
def lockedOwnershipStreams (keys : List IngressOwnershipKey) : BridgeM (List EventStreamId) :=
  attempt (Proc.perform (BridgeCall.lockedOwnershipStreams keys))

def reservationIsCurrent (reservation : IngressOwnershipReservation) : BridgeM Bool :=
  attempt (Proc.perform (BridgeCall.reservationIsCurrent reservation))

def pruneToReservation (reservation : IngressOwnershipReservation) : BridgeM Unit :=
  attempt (Proc.perform (BridgeCall.pruneToReservation reservation))

def pruneToStream (keys : List IngressOwnershipKey) (streamId : EventStreamId) : BridgeM Unit :=
  attempt (Proc.perform (BridgeCall.pruneToStream keys streamId))

def commitClaimAdmission : BridgeM Unit := attempt (Proc.perform BridgeCall.commitClaimAdmission)

/-- An answer of the store. -/
def orBridge {α : Type} : HistoryResult α → IoResult α
  | .ok a        => .ok a
  | .error error => .error (.ofHistory error)

theorem orBridge_ok {α : Type} {x : HistoryResult α} {a : α} : orBridge x = .ok a ↔ x = .ok a := by
  cases x <;> simp [orBridge]

def given {α : Type} (result : IoResult α) : BridgeM α := ExceptT.mk (.done result)

variable (streamId : EventStreamId)

/-- `read_events`, at the bridge. -/
def readEvents : BridgeM (List EventRecord) := do
  given (orBridge (← ask (.readEvents streamId)))

def readEventsFrom : Option StreamCursorV1 → BridgeM (List EventRecord)
  | some cursor => do given (orBridge (← ask (.readEventsAfterCursor streamId cursor)))
  | none        => readEvents streamId

/-- `append_events`, at the bridge. -/
def appendEvents (records : List NewEventRecord) : BridgeM (List EventRecord) := do
  given (orBridge (← ask (.appendEvents streamId records)))

/-- `append_events_fenced`; nothing where the fence conflicts. -/
def appendEventsFenced (expected : EventSequence)
    (records : List NewEventRecord) : BridgeM (Option (List EventRecord)) := do
  match ← ask (.appendEventsFenced streamId expected records) with
  | .ok appended => return some appended
  | .error (.appendFenceConflict ..) => return none
  | .error error => throw (.ofHistory error)

/-- A loop of the source that would not end. -/
def divergedIo : IoError := .ofHistory .diverged

/-! ### What a program of the bridge does -/

variable {call : BridgeCall}

section
variable {σ α β : Type} {rely : σ → σ → Prop} {asks : BridgeCall → σ → Prop}
  {answers : (call : BridgeCall) → σ → call.Reply → σ → Prop} {Q : β → σ → Prop} {s : σ}

/-- A call that may always be made, and moves nothing that the program relies on. -/
def Quiet (rely : σ → σ → Prop) (asks : BridgeCall → σ → Prop)
    (answers : (call : BridgeCall) → σ → call.Reply → σ → Prop) (call : BridgeCall) : Prop :=
  ∀ s, asks call s ∧ ∀ r s', answers call s r s' → rely s s'

theorem does_ask {f : call.Reply → BridgeM β}
    (h : ∀ s', rely s s' → asks call s' ∧ ∀ r s'', answers call s' r s'' →
      Does rely asks answers Q (f r) s'') :
    Does rely asks answers Q (ask call >>= f) s := h

theorem does_given {result : IoResult α} {f : α → BridgeM β}
    (h : ∀ a, result = .ok a → Does rely asks answers Q (f a) s) :
    Does rely asks answers Q (given result >>= f) s := by
  cases result with
  | ok a => exact h a rfl
  | error e => exact Does.fail

theorem does_result {result : IoResult β} (h : ∀ b s', rely s s' → result = .ok b → Q b s') :
    Does rely asks answers Q (given result) s := fun s' hs' b hb => h b s' hs' hb

theorem Quiet.ask (htrans : ∀ a b c, rely a b → rely b c → rely a c)
    (h : Quiet rely asks answers call) {f : call.Reply → BridgeM β}
    (hf : ∀ r s', rely s s' → Does rely asks answers Q (f r) s') :
    Does rely asks answers Q (Daemon.ask call >>= f) s := by
  refine does_ask fun s' hs' => ⟨(h s').1, fun r s'' hanswer => ?_⟩
  exact hf r s'' (htrans _ _ _ hs' ((h s').2 r s'' hanswer))

theorem Quiet.meets (htrans : ∀ a b c, rely a b → rely b c → rely a c)
    (h : Quiet rely asks answers call) {P : call.Reply → σ → Prop} (hP : ∀ r s', rely s s' → P r s') :
    (Proc.perform call).Meets rely asks answers P s := by
  intro s' hs'
  refine ⟨(h s').1, fun r s'' hanswer s₁ hs₁ => ?_⟩
  exact hP r s₁ (htrans _ _ _ (htrans _ _ _ hs' ((h s').2 r s'' hanswer)) hs₁)

end

/-- What the bridge runs with: `serde_json` and the SHA-256 of canonical JSON. -/
structure Bridge where
  outcomes : OutcomeCodec
  printJson : Json → String
  envelope : IngressEnvelope → Json
  turnInput : IoTurnInput → Json
  canonicalJsonHash : Json → Except VerletError String

end Verlet.Daemon
