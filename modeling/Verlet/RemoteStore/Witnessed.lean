import Verlet.RemoteStore.Pushes

/-!
# Remote store — Witnessed pushes

A push that the endpoint refuses is to leave a witness, and an error is to be the store's alone.  Every
check of the endpoint's own answers with a rejection.  The store's insert has checks of its own, of the
ids of the events, of their provenance and of the lease epoch of the daemon's handle, and the endpoint
passes on what it says as an error: the push is refused, and no witness is stored.
-/

namespace Verlet.RemoteStore
open Support History History.Sqlite

variable {Text : Type} {endpoint : SyncEndpoint Text}

/-! ### What the insert asks -/

/-- What the insert asks of a batch beyond the endpoint's own checks: new ids, each its own, and a
provenance of every discharged event. -/
structure Insertable (history : Db Text) (envelopes : List StreamRecordEnvelopeV1) : Prop where
  fresh : ∀ envelope ∈ envelopes, ¬ history.hasEvent envelope.eventId
  nodup : (envelopes.map (·.eventId)).Nodup
  provenance : ∀ envelope ∈ envelopes, envelope.origin = .discharged →
    envelope.provenance.isEmpty = false

theorem validateNewEvent_ok {record : NewEventRecord} : History.validateNewEvent record = .ok () ↔
    (record.origin = .discharged → record.provenance.isEmpty = false) := by
  unfold History.validateNewEvent
  cases record.provenance.isEmpty <;> simp

theorem admissible_iff_insertable {history : Db Text} {envelopes : List StreamRecordEnvelopeV1}
    {records : List NewEventRecord} (h : List.Forall₂ Carried envelopes records)
    (streamId : EventStreamId) (len : Nat) :
    Admissible history.hasEvent streamId len records ↔ Insertable history envelopes := by
  have hids : records.map (·.id) = envelopes.map (·.eventId) := by
    induction h with
    | nil => rfl
    | cons hfirst _ ih => rw [List.map_cons, List.map_cons, ih, hfirst.id]
  have hschema : ∀ record ∈ records, (∃ fields, record.payload = .obj fields) ∧
      (record.kind = .ioEgressRequested → History.validateAgainst record.kind.payloadSchemaId
        History.ioEgressRequestedPayloadSchemaV1 record.payload = .ok ()) :=
    (forall_carried (q := fun _ => True) h fun hcarried => iff_of_true hcarried.schema trivial).mpr
      fun _ _ => trivial
  have hvalid := forall_carried h (p := fun record => History.validateNewEvent record = .ok ())
    (q := fun envelope => envelope.origin = .discharged → envelope.provenance.isEmpty = false)
    fun hcarried => by rw [validateNewEvent_ok, hcarried.origin, hcarried.provenance]
  have hfresh := forall_carried h (p := fun record => ¬ history.hasEvent record.id)
    (q := fun envelope => ¬ history.hasEvent envelope.eventId) fun hcarried => by rw [hcarried.id]
  rw [History.admissible_iff, hvalid, hfresh, hids]
  exact ⟨fun h => ⟨h.2.1, h.2.2.1, h.1⟩, fun h => ⟨h.provenance, h.fresh, h.nodup, hschema⟩⟩

/-! ### The append -/

theorem fromAppended_numbered (streamId : EventStreamId) (len : Nat) {records : List NewEventRecord}
    (hsome : records ≠ []) {acks : List StreamAckClass} (hacks : acks ≠ []) :
    ∃ ack, StreamAppendAckV1.fromAppended streamId (numbered streamId len records) acks = .ok ack ∧
      ack.startSequence = len + 1 ∧ ack.endSequence = len + records.length := by
  have hcheck : ∀ (records : List NewEventRecord) (index : Nat),
      History.checkAppended streamId (len + 1) index (numbered streamId (len + index) records) =
        .ok () := by
    intro records
    induction records with
    | nil => exact fun _ => rfl
    | cons record records ih =>
      intro index
      have hsequence : ((len + index : Nat) : EventSequence) + 1 = len + 1 + index := by
        push_cast
        ring
      simp only [numbered, History.checkAppended, EventRecord.fromNew, hsequence, ne_eq,
        not_true_eq_false, if_false]
      exact ih (index + 1)
  obtain ⟨record, rest, rfl⟩ := List.exists_cons_of_ne_nil hsome
  obtain ⟨last, hlast⟩ := Option.isSome_iff_exists.mp
    (List.getLast?_isSome.mpr (List.cons_ne_nil (EventRecord.fromNew streamId (len + 1) record)
      (numbered streamId (len + 1) rest)))
  have hsequence : last.sequence = len + (record :: rest).length := by
    have hget : (numbered streamId len (record :: rest))[rest.length]? = some last := by
      rw [numbered, ← hlast, List.getLast?_eq_getElem?, List.length_cons, History.length_numbered]
      rfl
    rw [History.getElem?_numbered] at hget
    obtain ⟨record', -, rfl⟩ := Option.map_eq_some_iff.mp hget
    simp only [EventRecord.fromNew, List.length_cons]
    push_cast
    ring
  refine ⟨⟨History.streamAppendAckSchemaIdV1, streamId, len + 1, last.sequence, last.sequence, last.id,
    acks⟩, ?_, rfl, hsequence⟩
  have hcheck' := hcheck (record :: rest) 0
  rw [Nat.add_zero] at hcheck'
  simp only [StreamAppendAckV1.fromAppended, bind_ok]
  refine ⟨_, rfl, last, by rw [numbered, hlast]; rfl, ?_⟩
  rw [if_neg (by simpa using hacks)]
  simp only [bind_ok, exists_unit_ok, pure_ok]
  exact ⟨hcheck', rfl⟩

/-- What the append asks of the database: the daemon's handle may write the stream, and where the batch
is to come next, the insert takes it. -/
structure Takeable (db : EndpointDb Text) (leaseEpoch : Nat) (request : SyncPushRequestV1) : Prop where
  lease : LeaseAdmits db.authority.history.journalLeaseEpochs request.streamId leaseEpoch
  insert : request.expectedNextSequence =
    Sqlite.sqliteNextEventSequence db.authority.history request.streamId →
      Insertable db.authority.history request.records

/-! ### A push -/

/-- A push gets as far as the insert: its token is known and covers the stream, its lease is the token's
and current, and it is well formed. -/
structure Reaches (endpoint : SyncEndpoint Text) (db : EndpointDb Text) (nowMs : Int)
    (bearerToken : String) (request : SyncPushRequestV1) : Prop where
  verified : ∃ identity, verifyToken endpoint.authority db.authority bearerToken = some identity ∧
    identity.scope.authorizes request.streamId = true ∧ identity.leaseId = request.leaseId
  valid : ∃ records, validatePushRequest request = .ok records
  current : fenceDecision db.authority.leases request.streamId request.leaseId nowMs = .current

/-- A push was accepted, and its records stand in the store from the expected sequence on; or refused,
the store is as it was and there is a witness of the refusal. -/
def Witnessed (endpoint : SyncEndpoint Text) (request : SyncPushRequestV1) (db : EndpointDb Text) :
    VerletResult SyncPushOutcome × EndpointDb Text → Prop
  | (.ok (.accepted ack), after) =>
    ∃ (len : Nat) (records : List NewEventRecord),
      validatePushRequest request = .ok records ∧ request.expectedNextSequence = len + 1 ∧
      after.authority.history.eventRecords = db.authority.history.eventRecords ++
        (numbered request.streamId len records).map (EventRow.of endpoint.codec) ∧
      ack.startSequence = request.expectedNextSequence ∧
      ack.endSequence = len + records.length
  | (.ok (.rejected rejection), after) =>
    after.authority = db.authority ∧ ∃ witness ∈ after.rejections,
      witness.requestFingerprint = endpoint.rejectionFingerprint request rejection.reason
  | (.error _, _) => False

/-- **A rejection leaves its witness.** -/
theorem witnessed_reject (endpoint : SyncEndpoint Text) (nowMs : Int) (leaseEpoch : Nat)
    (request : SyncPushRequestV1) (reason : SyncPushRejectionReason) (db : EndpointDb Text) :
    Witnessed endpoint request db ((reject endpoint request reason).alone
      (EndpointCall.serve endpoint nowMs leaseEpoch) db) := by
  simp only [reject, EndpointCall.ask, Proc.perform_bind, Proc.alone, EndpointCall.serve]
  refine ⟨rfl, ?_⟩
  change ∃ witness ∈ insertRejection _ db.rejections, _
  unfold insertRejection
  split
  · next hstored =>
    obtain ⟨witness, hmem, hsame⟩ := List.any_eq_true.mp hstored
    exact ⟨witness, hmem, of_decide_eq_true hsame⟩
  · exact ⟨_, List.mem_append_right _ (List.mem_singleton_self _), rfl⟩

theorem appendIfCurrent_error {codec : Sqlite.Codec Text} {leaseEpoch : Nat} {nowMs : Int}
    {streamId : EventStreamId} {presented : StreamLeaseId} {expected : EventSequence}
    {records : List NewEventRecord} {db : AuthorityDb Text} {e : HistoryError}
    (hcurrent : fenceDecision db.leases streamId presented nowMs = .current)
    (hplain : NoConflict e) (happend : Sqlite.appendEventsFencedInTransaction codec leaseEpoch
      streamId expected records db.history = .error e) :
    exec (appendIfCurrent codec leaseEpoch nowMs streamId presented expected records) db =
      (.error (.history (.store e)), db) := by
  simp only [exec, appendIfCurrent, hcurrent, happend]
  cases e with
  | appendFenceConflict => exact absurd rfl (hplain _ _ _)
  | _ => rfl

theorem pushRecords_witnessed_iff {nowMs : Int} {leaseEpoch : Nat} {request : SyncPushRequestV1}
    {records : List NewEventRecord} {db : EndpointDb Text}
    (hkept : Kept endpoint.codec db.authority.history)
    (hvalid : validatePushRequest request = .ok records)
    (hcurrent : fenceDecision db.authority.leases request.streamId request.leaseId nowMs = .current) :
    Witnessed endpoint request db ((pushRecords endpoint request records).alone
      (EndpointCall.serve endpoint nowMs leaseEpoch) db) ↔ Takeable db leaseEpoch request := by
  obtain ⟨hcarried, hsome, -⟩ := validatePushRequest_carried hvalid
  have hinsert := @admissible_iff_insertable _ db.authority.history _ _ hcarried request.streamId
    (db.authority.history.count request.streamId)
  have hnext := hkept.counted.next request.streamId
  simp only [pushRecords, EndpointCall.ask, Proc.perform_bind, Proc.alone, EndpointCall.serve]
  rcases happend : Sqlite.appendEventsFencedInTransaction endpoint.codec leaseEpoch
    request.streamId request.expectedNextSequence records db.authority.history with
      e | ⟨appended, history⟩
  · rcases Sqlite.appendEventsFencedInTransaction_error happend with
      ⟨hlease, hplain⟩ | ⟨hlease, hne, rfl⟩ | ⟨hlease, heq, hplain⟩
    · rw [appendIfCurrent_error hcurrent hplain happend]
      exact iff_of_false id fun htake => hlease htake.lease
    · have hcall : exec (appendIfCurrent endpoint.codec leaseEpoch nowMs request.streamId
          request.leaseId request.expectedNextSequence records) db.authority =
            (.ok (.sequenceFenceConflict (Sqlite.sqliteNextEventSequence
              db.authority.history request.streamId)), db.authority) := by
        simp only [exec, appendIfCurrent, hcurrent, happend]
      rw [hcall]
      exact iff_of_true (witnessed_reject endpoint nowMs leaseEpoch request _ db)
        ⟨hlease, fun heq => absurd heq.symm hne⟩
    · rw [appendIfCurrent_error hcurrent hplain happend]
      -- had the insert's own conditions held, the append would have gone through
      refine iff_of_false id fun htake => ?_
      have hok := (@Sqlite.appendEventsFencedInTransaction_ok _ endpoint.codec _ _ _ _ _ _
        hkept.counted _).mpr ⟨⟨hlease, hinsert.mpr (htake.insert heq.symm)⟩, heq.symm.trans hnext, rfl, rfl⟩
      cases happend.symm.trans hok
  · obtain ⟨hjournaled, hseq, rfl, hhistory⟩ :=
      (Sqlite.appendEventsFencedInTransaction_ok hkept.counted).mp happend
    obtain ⟨ack, hack, hstart, hend⟩ := @fromAppended_numbered request.streamId
      (db.authority.history.count request.streamId) _ hsome [.streamCommitted, .queryProjected] (by simp)
    have hcall : exec (appendIfCurrent endpoint.codec leaseEpoch nowMs request.streamId
        request.leaseId request.expectedNextSequence records) db.authority =
          (.ok (.appended ack), { db.authority with history := history }) := by
      simp only [exec, appendIfCurrent, hcurrent, happend, hack]
    rw [hcall]
    refine iff_of_true ⟨_, records, hvalid, hseq, ?_, hstart.trans hseq.symm, hend⟩
      ⟨hjournaled.lease, fun _ => hinsert.mp hjournaled.batch⟩
    rw [hhistory]
    rfl

/-- **A push is taken whole or refused with a witness just when, where it gets as far as the append, the
daemon may write the stream and the insert has nothing against the records.** -/
theorem push_witnessed_iff (endpoint : SyncEndpoint Text) (steps : List DaemonStep) (nowMs : Int)
    (leaseEpoch : Nat) (bearerToken : String) (request : SyncPushRequestV1) :
    let db := run (DaemonStep.serve endpoint) steps .empty
    Witnessed endpoint request db ((push endpoint bearerToken request).alone
      (EndpointCall.serve endpoint nowMs leaseEpoch) db) ↔
    (Reaches endpoint db nowMs bearerToken request → Takeable db leaseEpoch request) := by
  intro db
  have hkept : Kept endpoint.codec db.authority.history := kept_run endpoint steps
  have hreject := fun reason => witnessed_reject endpoint nowMs leaseEpoch request reason db
  simp only [push, EndpointCall.ask, Proc.perform_bind, Proc.alone, EndpointCall.serve]
  cases hverify : verifyToken endpoint.authority db.authority bearerToken with
  | none =>
    refine iff_of_true (hreject _) fun hreaches => ?_
    obtain ⟨_, hidentity, -⟩ := hreaches.verified
    cases hverify.symm.trans hidentity
  | some identity =>
    have hsame : ∀ identity', verifyToken endpoint.authority db.authority bearerToken =
        some identity' → identity' = identity := fun _ h => by
      cases hverify.symm.trans h
      rfl
    by_cases hscope : identity.scope.authorizes request.streamId = true
    · by_cases hlease : identity.leaseId = request.leaseId
      · cases hvalid : validatePushRequest request with
        | error detail =>
          simp only [hscope, hlease, not_true_eq_false, ne_eq, if_false]
          refine iff_of_true (hreject _) fun hreaches => ?_
          obtain ⟨_, hrecords⟩ := hreaches.valid
          cases hvalid.symm.trans hrecords
        | ok records =>
          simp only [hscope, hlease, not_true_eq_false, ne_eq, if_false]
          by_cases hcurrent : fenceDecision db.authority.leases request.streamId
            request.leaseId nowMs = .current
          · rw [pushRecords_witnessed_iff hkept hvalid hcurrent]
            exact ⟨fun h _ => h, fun h => h ⟨⟨identity, hverify, hscope, hlease⟩,
              ⟨records, hvalid⟩, hcurrent⟩⟩
          · refine iff_of_true ?_ fun hreaches => absurd hreaches.current hcurrent
            have hcall : exec (appendIfCurrent endpoint.codec leaseEpoch nowMs request.streamId
                request.leaseId request.expectedNextSequence records) db.authority =
                  (.ok (.leaseRejected (fenceDecision db.authority.leases request.streamId
                    request.leaseId nowMs)), db.authority) := by
              simp only [exec, appendIfCurrent]
            simp only [pushRecords, EndpointCall.ask, Proc.perform_bind, Proc.alone,
              EndpointCall.serve]
            rw [hcall]
            exact hreject _
      · simp only [hscope, hlease, not_true_eq_false, not_false_eq_true, ne_eq, if_false, if_true]
        refine iff_of_true (hreject _) fun hreaches => ?_
        obtain ⟨_, hidentity, -, hsameLease⟩ := hreaches.verified
        rw [hsame _ hidentity] at hsameLease
        exact absurd hsameLease hlease
    · simp only [hscope]
      refine iff_of_true (hreject _) fun hreaches => ?_
      obtain ⟨_, hidentity, hcovers, -⟩ := hreaches.verified
      rw [hsame _ hidentity] at hcovers
      exact absurd hcovers hscope

/-- The child's own event, and the same event once more behind it. -/
def sampleTwice : List EventRecord := [sampleOwn, { sampleOwn with sequence := 2 }]

set_option maxRecDepth 100000 in
/-- A push under a credential for the child's stream, well formed and in place, with one event named
twice: the endpoint answers with the insert's error, and there is no witness of the refusal. -/
theorem duplicate_unwitnessed :
    (validatePushRequest (sampleRequest sampleTwice)).isOk = true ∧
    (samplePushed sampleTwice).1 = .error (.history (.store (.duplicateEventId sampleOwn.id))) ∧
    (samplePushed sampleTwice).2.rejections = [] ∧
    ¬ Witnessed .sample (sampleRequest sampleTwice) sampleDaemonDb (samplePushed sampleTwice) := by
  have hpushed : (validatePushRequest (sampleRequest sampleTwice)).isOk = true ∧
      (samplePushed sampleTwice).1 = .error (.history (.store (.duplicateEventId sampleOwn.id))) ∧
      (samplePushed sampleTwice).2.rejections = [] := by decide
  obtain ⟨hvalid, herror, hnone⟩ := hpushed
  refine ⟨hvalid, herror, hnone, ?_⟩
  rw [← Prod.mk.eta (p := samplePushed sampleTwice), herror]
  exact id

end Verlet.RemoteStore
