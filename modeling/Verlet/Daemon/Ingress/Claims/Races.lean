import Mathlib.Tactic.Common
import Verlet.Daemon.Ingress.Claims

/-!
# Daemon — Ingress — Claims — Races

Any number of writers of claims and settles on one control stream, each at its own place, while
other events go into the stream between their steps.  A writer reads, folds what it read, and asks
the store for an append that is taken only where the stream still ends there: so what it appends is
right of the stream it is appended to, and the stream goes on to be a ledger.

`made` is what is known of the past: the claim that each writer has appended.

* `Racing.sound`: the step lemma; no call of a writer breaks the ledger, or what another counts on.
-/

namespace Verlet.Daemon
open Support Kernel Io History
open Function (update update_of_ne update_self)

/-! ### Writers -/

/-- A call of one of the three writers. -/
inductive OutcomeWriter where
  | claim (request : ClaimRequest) (ownership : Option IngressOwnershipReservation)
  | effectFree (request : ClaimRequest) (ownership : Option IngressOwnershipReservation)
  | settle (request : SettleRequest)

inductive OutcomeWritten where
  | claim (append : IngressClaimAppend)
  | settle (settle : EventRecord)
deriving DecidableEq

namespace OutcomeWriter

def program (codec : OutcomeCodec) (fuel : Nat) : OutcomeWriter → BridgeM OutcomeWritten
  | .claim request ownership =>
    do return .claim (← appendIngressClaim codec fuel request ownership)
  | .effectFree request ownership =>
    do return .claim (← appendEffectFreeIngressOutcome codec fuel request ownership)
  | .settle request => do return .settle (← appendIngressSettle codec request fuel)

def claims : OutcomeWriter → Option ClaimRequest
  | .claim request _ | .effectFree request _ => some request
  | .settle _                                => none

def streamId : OutcomeWriter → EventStreamId
  | .claim request _ | .effectFree request _ => request.streamId
  | .settle request                          => request.streamId

end OutcomeWriter

/-! ### The race -/

/-- A store, and the claim that each writer has appended to it. -/
structure ClaimWorld (σ ι : Type) where
  store : σ
  made : ι → Option EventRecord

/-- The writers of one control stream, and the store they start from. -/
structure Racing (σ ι : Type) where
  store : FencedStore σ
  codec : OutcomeCodec
  streamId : EventStreamId
  jobs : ι → OutcomeWriter
  start : σ

namespace Racing

variable {σ ι : Type} [DecidableEq ι] (race : Racing σ ι)

def events (w : ClaimWorld σ ι) : List EventRecord := race.store.events w.store race.streamId

def before : List EventRecord := race.store.events race.start race.streamId

/-- The claims that the writers have appended, where one more append is taken. -/
def note (made : ι → Option EventRecord) (i : ι) (appended : List EventRecord) :
    ι → Option EventRecord :=
  match appended.find? fun event => event.kind = .ioIngressClaimed with
  | some claim => update made i (some claim)
  | none       => made

/-- The claims that the writers have appended, where one more append is taken or refused. -/
def noteResult (made : ι → Option EventRecord) (i : ι) :
    HistoryResult (List EventRecord) → ι → Option EventRecord
  | .ok appended => note made i appended
  | .error _     => made

/-- How a call of a writer is served.  The store does what it does; the ownership of the dedupe keys
names no other stream; what else is awaited answers anything. -/
def serves (i : ι) : (call : BridgeCall) → ClaimWorld σ ι → call.Reply → ClaimWorld σ ι → Prop
  | .readEvents streamId, w, r, w' => r = race.store.readEvents streamId w.store ∧ w' = w
  | .readEventsAfterCursor streamId cursor, w, r, w' =>
    (∀ found, r = .ok found → found = (race.store.events w.store streamId).filter fun event =>
      cursor.sequence < event.sequence) ∧ w' = w
  | .appendEventsFenced streamId expected records, w, r, w' =>
    (r, w'.store) = race.store.appendEventsFenced streamId expected records w.store ∧
      w'.made = noteResult w.made i r
  | .lockedOwnershipStreams _, w, r, w' =>
    (∀ streams, r = .ok streams → ∀ streamId ∈ streams, streamId = race.streamId) ∧ w' = w
  | _, w, _, w' => w' = w

/-- One way to serve the calls: the store does what it does, a draw is the writer's own, and nothing
else is there. -/
def serve (draws : ι → Draw) (i : ι) (call : BridgeCall) (w : ClaimWorld σ ι) :
    call.Reply × ClaimWorld σ ι :=
  match call with
  | .readEvents streamId => (race.store.readEvents streamId w.store, w)
  | .appendEventsFenced streamId expected records =>
    let answered := race.store.appendEventsFenced streamId expected records w.store
    (answered.1, ⟨answered.2, noteResult w.made i answered.1⟩)
  | .draw => (draws i, w)
  | call  => (call.refused, w)

theorem serves_serve (draws : ι → Draw) (i : ι) (call : BridgeCall) (w : ClaimWorld σ ι) :
    race.serves i call w (race.serve draws i call w).1 (race.serve draws i call w).2 := by
  cases call with
  | readEvents _ => exact ⟨rfl, rfl⟩
  | readEventsAfterCursor _ _ | lockedOwnershipStreams _ => exact ⟨by rintro _ ⟨⟩, rfl⟩
  | appendEventsFenced _ _ _ => exact ⟨rfl, rfl⟩
  | _ => exact rfl

/-- Anything else appends events that are neither claims nor settles. -/
def others (w w' : ClaimWorld σ ι) : Prop :=
  w'.made = w.made ∧ ∃ streamId records,
    w'.store = (race.store.appendEvents streamId records w.store).2 ∧ (streamId = race.streamId →
      ∀ record ∈ records, record.kind ≠ .ioIngressClaimed ∧ record.kind ≠ .ioIngressSettled)

/-- A writer is taken up; one that is to settle a claim has it from the stream. -/
def starts (i : ι) (w : ClaimWorld σ ι)
    (p : Proc BridgeCall BridgeCall.Reply (IoResult OutcomeWritten)) : Prop :=
  (∃ fuel, p = ((race.jobs i).program race.codec fuel).run) ∧
    ∀ request, race.jobs i = .settle request → request.claim ∈ race.events w ∧
      Claims race.codec request.claim request.claimPayload

/-! ### What stays true -/

/-- The stream is a ledger, and its claims are those of before and those the writers made. -/
structure Good (events : List EventRecord) (made : ι → Option EventRecord) : Prop where
  ledger : Ledger race.codec events
  recorded : ∀ i claim, made i = some claim → claim ∈ events ∧ ∃ request,
    (race.jobs i).claims = some request ∧ Claims race.codec claim request.payload
  /-- No two writers made one claim. -/
  distinct : ∀ i j claim, made i = some claim → made j = some claim → i = j
  known : ∀ claim ∈ events, ∀ payload, Claims race.codec claim payload →
    claim ∈ race.before ∨ ∃ i, made i = some claim

variable {race} {events : List EventRecord} {made : ι → Option EventRecord}

theorem note_of_ne {i j : ι} {appended : List EventRecord} (h : j ≠ i) :
    note made i appended j = made j := by
  unfold note
  cases appended.find? fun event => event.kind = .ioIngressClaimed with
  | none => rfl
  | some claim => exact update_of_ne h ..

theorem note_self {i : ι} {appended : List EventRecord} (h : made i = none) :
    note made i appended i = appended.find? fun event => event.kind = .ioIngressClaimed := by
  unfold note
  cases appended.find? fun event => event.kind = .ioIngressClaimed with
  | none => exact h
  | some claim => exact update_self ..

theorem Good.claim {i : ι} {claim : EventRecord} {request : ClaimRequest} (h : race.Good events made)
    (hjob : (race.jobs i).claims = some request) (hclaims : Claims race.codec claim request.payload)
    (hnodup : request.ingressEnvelopeIds.Nodup)
    (hfree : ∀ id ∈ request.ingressEnvelopeIds, ¬ Covered race.codec events id)
    (hnew : claim ∉ events) (hnone : made i = none) :
    race.Good (events ++ [claim]) (update made i (some claim)) where
  ledger := by
    refine h.ledger.snoc (fun _ => ⟨request.payload, hclaims, hnodup, hfree⟩) fun hkind => ?_
    exact absurd (hclaims.1.symm.trans hkind) EventKind.noConfusion
  recorded := by
    intro j claim' hj
    by_cases hji : j = i
    · subst hji
      rw [update_self] at hj
      obtain rfl := Option.some.inj hj
      exact ⟨by simp, request, hjob, hclaims⟩
    · rw [update_of_ne hji] at hj
      obtain ⟨hmem, hrest⟩ := h.recorded j claim' hj
      exact ⟨List.mem_append_left _ hmem, hrest⟩
  distinct := by
    -- The new claim is no claim that was made before.
    have hold : ∀ j, made j ≠ some claim := fun j hj => hnew (h.recorded j claim hj).1
    intro j k claim' hj hk
    by_cases hji : j = i <;> by_cases hki : k = i
    · rw [hji, hki]
    · rw [hji, update_self] at hj
      rw [update_of_ne hki, ← hj] at hk
      exact absurd hk (hold k)
    · rw [hki, update_self] at hk
      rw [update_of_ne hji, ← hk] at hj
      exact absurd hj (hold j)
    · rw [update_of_ne hji] at hj
      rw [update_of_ne hki] at hk
      exact h.distinct j k claim' hj hk
  known := by
    intro claim' hmem payload hc
    rcases List.mem_append.mp hmem with hmem | hmem
    · rcases h.known claim' hmem payload hc with hbefore | ⟨j, hj⟩
      · exact .inl hbefore
      · refine .inr ⟨j, ?_⟩
        rw [update_of_ne, hj]
        rintro rfl
        rw [hnone] at hj
        cases hj
    · obtain rfl := List.mem_singleton.mp hmem
      exact .inr ⟨i, update_self ..⟩

section
omit [DecidableEq ι]

theorem Good.other {event : EventRecord} (h : race.Good events made)
    (hkind : event.kind ≠ .ioIngressClaimed) (hledger : Ledger race.codec (events ++ [event])) :
    race.Good (events ++ [event]) made where
  ledger := hledger
  recorded := by
    intro i claim hi
    obtain ⟨hmem, hrest⟩ := h.recorded i claim hi
    exact ⟨List.mem_append_left _ hmem, hrest⟩
  distinct := h.distinct
  known := by
    intro claim hmem payload hc
    rcases List.mem_append.mp hmem with hmem | hmem
    · exact h.known claim hmem payload hc
    · obtain rfl := List.mem_singleton.mp hmem
      exact absurd hc.1 hkind

theorem Good.settle {claim settle : EventRecord} {claimPayload : IoIngressClaimedPayload}
    {payload : IoIngressSettledPayload} (h : race.Good events made)
    (hsettles : Settles race.codec settle payload) (hmem : claim ∈ events)
    (hclaims : Claims race.codec claim claimPayload) (hid : claim.id = payload.claimEventId)
    (hids : claimPayload.ingressEnvelopeIds = payload.ingressEnvelopeIds)
    (hfree : ∀ settle ∈ events, ∀ payload', Settles race.codec settle payload' →
      payload'.claimEventId ≠ payload.claimEventId) :
    race.Good (events ++ [settle]) made := by
  have hkind : settle.kind ≠ .ioIngressClaimed := by
    rw [hsettles.1]
    exact EventKind.noConfusion
  refine h.other hkind (h.ledger.snoc (fun hk => absurd hk hkind) fun _ => ?_)
  exact ⟨payload, hsettles, hfree, claim, hmem, claimPayload, hclaims, hid, hids⟩

theorem Good.others {later : List EventRecord} (h : race.Good events made)
    (hlater : ∀ event ∈ later, event.kind ≠ .ioIngressClaimed ∧ event.kind ≠ .ioIngressSettled) :
    race.Good (events ++ later) made := by
  induction later generalizing events with
  | nil => rwa [List.append_nil]
  | cons event rest ih =>
    obtain ⟨hclaimed, hsettled⟩ := hlater event List.mem_cons_self
    rw [List.append_cons]
    refine ih (h.other hclaimed (h.ledger.snoc_other hclaimed hsettled)) ?_
    exact fun event he => hlater event (.tail _ he)

end

/-! ### What a writer writes -/

variable (race)

inductive Writes (i : ι) (seen : List EventRecord) : List NewEventRecord → Prop
  | claim {request : ClaimRequest} {ownership : Option IngressOwnershipReservation} {draw : Draw}
      (hjob : race.jobs i = .claim request ownership)
      (hfree : ∀ id ∈ request.ingressEnvelopeIds, ¬ Covered race.codec seen id) :
      Writes i seen [request.claim race.codec draw]
  | effectFree {request : ClaimRequest} {ownership : Option IngressOwnershipReservation}
      {draw draw' : Draw} (hjob : race.jobs i = .effectFree request ownership)
      (hfree : ∀ id ∈ request.ingressEnvelopeIds, ¬ Covered race.codec seen id) :
      Writes i seen [request.claim race.codec draw, settleRecord race.codec request.coordinates
        (effectFreeSettle request draw.eventId) draw']
  | settle {request : SettleRequest} {draw : Draw} (hjob : race.jobs i = .settle request)
      (hmem : request.claim ∈ seen)
      (hclaims : Claims race.codec request.claim request.claimPayload)
      (hfree : ∀ settle ∈ seen, ∀ payload, Settles race.codec settle payload →
        payload.claimEventId ≠ request.claim.id) :
      Writes i seen [settleRecord race.codec request.coordinates request.payload draw]

/-- What a writer may ask: an append on the control stream, of what it writes where it has seen the
stream so far, and a claim only once. -/
def asks (i : ι) : BridgeCall → ClaimWorld σ ι → Prop
  | .appendEventsFenced streamId expected records, w =>
    streamId = race.streamId ∧ w.made i = none ∧ ∃ seen, seen <+: race.events w ∧
      expected = nextSequence seen ∧ race.Writes i seen records
  | .appendEvents _ _, _ => False
  | _, _ => True

/-- What the other writers and events leave alone. -/
structure Rely (i : ι) (w w' : ClaimWorld σ ι) : Prop where
  grows : race.events w <+: race.events w'
  made : w'.made i = w.made i
  good : race.Good (race.events w) w.made → race.Good (race.events w') w'.made

omit [DecidableEq ι] in
theorem Rely.refl (i : ι) (w : ClaimWorld σ ι) : race.Rely i w w := ⟨List.prefix_refl _, rfl, id⟩

variable {race} in
omit [DecidableEq ι] in
theorem Rely.trans {i : ι} {w w' w'' : ClaimWorld σ ι} (h : race.Rely i w w')
    (h' : race.Rely i w' w'') : race.Rely i w w'' :=
  ⟨h.grows.trans h'.grows, h'.made.trans h.made, h'.good ∘ h.good⟩

/-- What the race asks of its writers: all on the one stream, each for envelopes it names once, and
what they write is read back. -/
structure Lawful : Prop where
  codec : race.codec.RoundTrips
  stream : ∀ i, (race.jobs i).streamId = race.streamId
  nodup : ∀ i request, (race.jobs i).claims = some request → request.ingressEnvelopeIds.Nodup

variable {race}

section
omit [DecidableEq ι]

theorem claims_fromNew (h : race.codec.RoundTrips) (request : ClaimRequest) (draw : Draw)
    (sequence : EventSequence) : Claims race.codec
      (.fromNew race.streamId sequence (request.claim race.codec draw)) request.payload :=
  ⟨rfl, h.claimed request.payload⟩

theorem settles_fromNew (h : race.codec.RoundTrips) (coordinates : ThreadCoordinates)
    (payload : IoIngressSettledPayload) (draw : Draw) (sequence : EventSequence) :
    Settles race.codec
      (.fromNew race.streamId sequence (settleRecord race.codec coordinates payload draw)) payload :=
  ⟨rfl, h.settled payload⟩

end

/-- **What a writer writes is right of the stream it is appended to.** -/
theorem Writes.good {i : ι} {seen : List EventRecord} {records : List NewEventRecord} {len : Nat}
    (h : race.Writes i seen records) (hlaw : race.Lawful) (hgood : race.Good seen made)
    (hnone : made i = none)
    (hunique : ((seen ++ numbered race.streamId len records).map (·.id)).Nodup) :
    race.Good (seen ++ numbered race.streamId len records)
      (note made i (numbered race.streamId len records)) := by
  have hnew : ∀ event ∈ numbered race.streamId len records, event ∉ seen := by
    intro event hmem hold
    rw [List.map_append, List.nodup_append] at hunique
    exact hunique.2.2 _ (List.mem_map_of_mem hold) _ (List.mem_map_of_mem hmem) rfl
  cases h with
  | @claim request ownership draw hjob hfree =>
    have hrequest : (race.jobs i).claims = some request := by rw [hjob]; rfl
    exact hgood.claim hrequest (claims_fromNew hlaw.codec request draw _)
      (hlaw.nodup i request hrequest) hfree (hnew _ List.mem_cons_self) hnone
  | @effectFree request ownership draw draw' hjob hfree =>
    have hrequest : (race.jobs i).claims = some request := by rw [hjob]; rfl
    have hclaims := claims_fromNew hlaw.codec request draw (len + 1 : Nat)
    have hclaim := hgood.claim hrequest hclaims (hlaw.nodup i request hrequest) hfree
      (hnew _ List.mem_cons_self) hnone
    have hsettle := @Good.settle _ _ _ _ _ (.fromNew race.streamId (len + 1 : Nat)
        (request.claim race.codec draw)) _ _ _ hclaim (settles_fromNew hlaw.codec request.coordinates
        (effectFreeSettle request draw.eventId) draw' (len + 1 + 1 : Nat)) (by simp) hclaims rfl rfl ?_
    · rw [List.append_assoc] at hsettle
      exact hsettle
    · -- A settle of the claim would have followed it.
      intro settle hs payload hp heq
      rcases List.mem_append.mp hs with hs | hs
      · obtain ⟨before, after, hsplit⟩ := List.append_of_mem hs
        obtain ⟨claim, hbefore, -, -, hid, -⟩ := hgood.ledger.follows before settle after hsplit payload hp
        have hmem : claim ∈ seen := by rw [hsplit]; exact List.mem_append_left _ hbefore
        rw [List.map_append, List.nodup_append] at hunique
        refine hunique.2.2 _ (List.mem_map_of_mem hmem) _ (List.mem_map_of_mem List.mem_cons_self) ?_
        exact hid.trans heq
      · obtain rfl := List.mem_singleton.mp hs
        exact absurd (hclaims.1.symm.trans hp.1) EventKind.noConfusion
  | @settle request draw hjob hmem hclaims hfree =>
    exact hgood.settle (settles_fromNew hlaw.codec request.coordinates request.payload draw _) hmem
      hclaims rfl rfl hfree

omit [DecidableEq ι] in
theorem appended_of_taken {w : ClaimWorld σ ι} {s' : σ} {seen found : List EventRecord}
    {records : List NewEventRecord} (hseen : seen <+: race.events w)
    (h : race.store.appendEventsFenced race.streamId (nextSequence seen) records w.store =
      (.ok found, s')) :
    seen = race.events w ∧ found = numbered race.streamId seen.length records ∧
      race.store.events s' race.streamId = seen ++ found := by
  obtain ⟨hall, hfound, hevents⟩ := FencedStore.appended_at_end hseen h
  refine ⟨hall, hfound, ?_⟩
  rw [hevents, History.appendBatch, if_pos rfl, hfound, hall]

/-- **No call of a writer breaks the ledger**, or what another counts on. -/
theorem good_of_serves (hlaw : race.Lawful) {i : ι} {call : BridgeCall} {w w' : ClaimWorld σ ι}
    {r : call.Reply} (hgood : race.Good (race.events w) w.made) (hask : race.asks i call w)
    (h : race.serves i call w r w') :
    race.Good (race.events w') w'.made ∧ ∀ j, j ≠ i → race.Rely j w w' := by
  cases call with
  | readEvents _ | readEventsAfterCursor _ _ | lockedOwnershipStreams _ =>
    obtain rfl := h.2
    exact ⟨hgood, fun j _ => .refl race j _⟩
  | appendEvents _ _ => exact hask.elim
  | appendEventsFenced streamId expected records =>
    obtain ⟨rfl, hnone, seen, hseen, rfl, hwrites⟩ := hask
    obtain ⟨hstore, hmade⟩ := h
    cases r with
    | error e =>
      have hstate := race.store.refusesFenced hstore.symm
      obtain rfl : w' = w := by
        cases w
        exact (ClaimWorld.mk.injEq ..).mpr ⟨hstate, hmade⟩
      exact ⟨hgood, fun j _ => .refl race j _⟩
    | ok found =>
      obtain ⟨hall, rfl, hafter⟩ := appended_of_taken hseen hstore.symm
      change race.events w' = _ at hafter
      change w'.made = note w.made i _ at hmade
      have hstill : race.Good (race.events w') w'.made := by
        rw [hafter, hmade]
        refine hwrites.good hlaw (hall ▸ hgood) hnone ?_
        rw [← hafter]
        exact (race.store.journal w'.store).nodup race.streamId
      refine ⟨hstill, fun j hji => ⟨?_, ?_, fun _ => hstill⟩⟩
      · rw [hafter, hall]
        exact List.prefix_append ..
      · rw [hmade]
        exact note_of_ne hji
  | _ =>
    obtain rfl : w' = w := h
    exact ⟨hgood, fun j _ => .refl race j _⟩

end Racing

end Verlet.Daemon
