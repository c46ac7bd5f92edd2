import Verlet.Daemon.Ingress.Claims.Writers
import Verlet.Daemon.Ingress.Wire

/-!
# Daemon — Ingress — Claims — Uniqueness

What any number of writers leave on a thread's control stream, wherever they stand and whichever of
them have stopped: at most one claim for an envelope, one settle for a claim, after it.  Of the
writers of one list of envelopes at most one appends the claim; the others are shown it.
-/

namespace Verlet.Daemon
open Support Kernel Io
open History (EventRecord Draw)

variable {ids : List String}

namespace Racing

variable {σ ι α β : Type} [DecidableEq ι] {race : Racing σ ι} {i : ι}

/-! ### What the writers leave -/

/-- The pools that the race leads to. -/
abbrev Reaches (race : Racing σ ι)
    (pool : Pool ι BridgeCall BridgeCall.Reply (IoResult OutcomeWritten) (ClaimWorld σ ι)) : Prop :=
  pool.Reachable race.starts race.serves race.others ⟨race.start, fun _ => none⟩

def On (race : Racing σ ι) (ids : List String) (i : ι) : Prop :=
  ∃ request, (race.jobs i).claims = some request ∧ request.ingressEnvelopeIds = ids

section
variable (race : Racing σ ι)
  (pool : Pool ι BridgeCall BridgeCall.Reply (IoResult OutcomeWritten) (ClaimWorld σ ι))

def Answers (i : ι) (written : OutcomeWritten) : Prop := pool.procs i = some (.done (.ok written))

/-- The claims and settles of the stream, and what the writers of it were answered. -/
structure OneClaim : Prop where
  /-- The fold finds no envelope under two claims, no claim with two settles, and no settle of other
  envelopes than its claim's. -/
  folds : ∀ ids e, ingressOutcomeFold race.codec (race.events pool.state) ids = .error e →
    e = partialOverlap ∨ e = differentClaims
  /-- A settle follows its claim. -/
  follows : ∀ before settle after, race.events pool.state = before ++ settle :: after →
    ∀ payload, Settles race.codec settle payload →
      ∃ claim ∈ before, ∃ claimPayload, Claims race.codec claim claimPayload ∧
        claim.id = payload.claimEventId ∧
        claimPayload.ingressEnvelopeIds = payload.ingressEnvelopeIds
  /-- Of the writers for one envelope at most one has appended its claim. -/
  once : ∀ i j ids ids', race.On ids i → race.On ids' j → (∃ id ∈ ids, id ∈ ids') →
    ∀ claim claim', Answers pool i (.claim (.appended claim)) →
      Answers pool j (.claim (.appended claim')) → i = j
  /-- The writers of one list were all answered with the one claim that covers it. -/
  same : ∀ i ids append, race.On ids i → ids ≠ [] → Answers pool i (.claim append) →
    ∃ claim ∈ race.events pool.state, CoveredBy race.codec (race.events pool.state) ids claim.id ∧
      ∀ j, race.On ids j →
        (∀ claim', Answers pool j (.claim (.appended claim')) → claim' = claim) ∧
        ∀ state, Answers pool j (.claim (.existing state)) →
          state.Of race.codec (race.events pool.state) claim
  /-- Where all writers of a list that were taken up are answered, and no claim from before or of
  another list is on an envelope of it, exactly one of them has appended the claim. -/
  exactly : ∀ i ids append, race.On ids i → ids ≠ [] → Answers pool i (.claim append) →
    (∀ j, race.On ids j → ∀ p, pool.procs j = some p → ∃ written, Answers pool j written) →
    (∀ claim ∈ race.events pool.state, ∀ payload, Claims race.codec claim payload →
      (∃ id ∈ ids, id ∈ payload.ingressEnvelopeIds) →
        claim ∉ race.before ∧ payload.ingressEnvelopeIds = ids) →
    ∃! j, race.On ids j ∧ ∃ claim, Answers pool j (.claim (.appended claim))
  /-- The settles of one claim are one. -/
  settled : ∀ i j request request' settle settle', race.jobs i = .settle request →
    race.jobs j = .settle request' → request.claim.id = request'.claim.id →
      Answers pool i (.settle settle) → Answers pool j (.settle settle') → settle = settle'

end

theorem appends_of_answers
    {pool : Pool ι BridgeCall BridgeCall.Reply (IoResult OutcomeWritten) (ClaimWorld σ ι)}
    (hlaw : race.Lawful) (hkept : pool.Kept race.ways) {append : IngressClaimAppend}
    (hon : race.On ids i) (h : Answers pool i (.claim append)) :
    race.Appends i ids append pool.state := by
  obtain ⟨request, hrequest, rfl⟩ := hon
  obtain ⟨request', hrequest', happends⟩ := hkept.ends (sound hlaw) h _ rfl
  obtain rfl := Option.some.inj (hrequest.symm.trans hrequest')
  exact happends

theorem coveredBy_unique {codec : OutcomeCodec} {events : List EventRecord}
    {claim claim' : EventRecord} (hledger : Ledger codec events)
    (hunique : (events.map (·.id)).Nodup) (hids : ids ≠ []) (hmem : claim ∈ events)
    (hmem' : claim' ∈ events) (h : CoveredBy codec events ids claim.id)
    (h' : CoveredBy codec events ids claim'.id) : claim = claim' := by
  obtain ⟨id, hid⟩ := List.exists_mem_of_ne_nil ids hids
  obtain ⟨owner, howner, payload, hc, hin, heq⟩ := h id hid
  obtain ⟨owner', howner', payload', hc', hin', heq'⟩ := h' id hid
  obtain rfl := hledger.claim_unique howner howner' hc hc' hin hin'
  exact eq_of_id hunique hmem hmem' (heq.symm.trans heq')

section
variable {pool : Pool ι BridgeCall BridgeCall.Reply (IoResult OutcomeWritten) (ClaimWorld σ ι)}

omit [DecidableEq ι] in
theorem coveredBy_of_made (hgood : race.Good (race.events pool.state) pool.state.made)
    {claim : EventRecord} (hon : race.On ids i) (hmade : pool.state.made i = some claim) :
    claim ∈ race.events pool.state ∧ CoveredBy race.codec (race.events pool.state) ids claim.id := by
  obtain ⟨request, hrequest, rfl⟩ := hon
  obtain ⟨hmem, request', hrequest', hclaims⟩ := hgood.recorded i claim hmade
  obtain rfl := Option.some.inj (hrequest.symm.trans hrequest')
  exact ⟨hmem, fun id hid => ⟨claim, hmem, _, hclaims, hid, rfl⟩⟩

/-- **One claim per envelope, one settle per claim**, in every pool that the race leads to. -/
theorem one_claim_per_envelope (hlaw : race.Lawful) (hstart : Ledger race.codec race.before)
    (h : race.Reaches pool) : race.OneClaim pool := by
  have hbefore : race.Good race.before fun _ => none :=
    ⟨hstart, by simp, by simp, fun claim hmem _ _ => .inl hmem⟩
  have hkept : pool.Kept race.ways := by
    refine Pool.Reachable.kept (sound hlaw) ?_ ?_ h
    · exact hbefore
    · exact fun _ => rfl
  have hgood : race.Good (race.events pool.state) pool.state.made := hkept.good
  have hunique := (race.store.journal pool.state.store).nodup race.streamId
  -- An answered writer's claim covers its envelopes.
  have hcovers : ∀ {i ids append}, race.On ids i → Answers pool i (.claim append) →
      ∃ claim ∈ race.events pool.state, CoveredBy race.codec (race.events pool.state) ids claim.id ∧
        (∀ claim', append = .appended claim' → claim' = claim) ∧
        ∀ state, append = .existing state → state.Of race.codec (race.events pool.state) claim := by
    intro i ids append hon hanswers
    have happends := appends_of_answers hlaw hkept hon hanswers
    cases append with
    | appended claim =>
      obtain ⟨hmem, hcovered⟩ := coveredBy_of_made hgood hon happends
      exact ⟨claim, hmem, hcovered, (by rintro _ ⟨⟩; rfl), (by rintro _ ⟨⟩)⟩
    | existing state =>
      obtain ⟨-, claim, hmem, hof, hcovered⟩ := happends
      exact ⟨claim, hmem, hcovered, (by rintro _ ⟨⟩), (by rintro _ ⟨⟩; exact hof)⟩
  have honce : ∀ i j ids ids', race.On ids i → race.On ids' j → (∃ id ∈ ids, id ∈ ids') →
      ∀ claim claim', Answers pool i (.claim (.appended claim)) →
        Answers pool j (.claim (.appended claim')) → i = j := by
    rintro i j ids ids' hi hj ⟨id, hid, hid'⟩ claim claim' hanswers hanswers'
    have hmade := appends_of_answers hlaw hkept hi hanswers
    have hmade' := appends_of_answers hlaw hkept hj hanswers'
    obtain ⟨owner, howner, payload, hc, hin, heq⟩ := (coveredBy_of_made hgood hi hmade).2 id hid
    obtain ⟨owner', howner', payload', hc', hin', heq'⟩ := (coveredBy_of_made hgood hj hmade').2 id hid'
    obtain rfl := hgood.ledger.claim_unique howner howner' hc hc' hin hin'
    obtain rfl := eq_of_id hunique (coveredBy_of_made hgood hi hmade).1
      (coveredBy_of_made hgood hj hmade').1 (heq.symm.trans heq')
    exact hgood.distinct i j claim hmade hmade'
  refine ⟨fun ids e => ingressOutcomeFold_error hgood.ledger hunique, hgood.ledger.follows, honce,
    ?_, ?_, ?_⟩
  · intro i ids append hon hids hanswers
    obtain ⟨claim, hmem, hcovered, -⟩ := hcovers hon hanswers
    refine ⟨claim, hmem, hcovered, fun j hj => ⟨fun claim' h' => ?_, fun state h' => ?_⟩⟩
    · obtain ⟨claim'', hmem', hcovered', hclaim, -⟩ := hcovers hj h'
      obtain rfl := coveredBy_unique hgood.ledger hunique hids hmem hmem' hcovered hcovered'
      exact hclaim claim' rfl
    · obtain ⟨claim'', hmem', hcovered', -, hstate⟩ := hcovers hj h'
      obtain rfl := coveredBy_unique hgood.ledger hunique hids hmem hmem' hcovered hcovered'
      exact hstate state rfl
  · intro i ids append hon hids hanswers hall hfree
    obtain ⟨claim, hmem, hcovered, -⟩ := hcovers hon hanswers
    -- The claim that covers the list was made by a writer of the list, who was answered with it.
    obtain ⟨id, hid⟩ := List.exists_mem_of_ne_nil ids hids
    obtain ⟨claim', hmem', payload, hc, hin, heq⟩ := hcovered id hid
    obtain ⟨hnew, hsame⟩ := hfree claim' hmem' payload hc ⟨id, hid, hin⟩
    obtain ⟨j, hmade⟩ := (hgood.known claim' hmem' payload hc).resolve_left hnew
    obtain ⟨-, request, hrequest, hclaims⟩ := hgood.recorded j claim' hmade
    have hj : race.On ids j := by
      refine ⟨request, hrequest, ?_⟩
      rw [← hsame, hc.unique hclaims]
      rfl
    have htaken : ∃ p, pool.procs j = some p := by
      cases hp : pool.procs j with
      | some p => exact ⟨p, rfl⟩
      | none =>
        have hnone : pool.state.made j = none := hkept.waits j hp
        rw [hnone] at hmade
        cases hmade
    obtain ⟨p, hp⟩ := htaken
    obtain ⟨written, hwritten⟩ := hall j hj p hp
    have happended : ∃ claim, Answers pool j (.claim (.appended claim)) := by
      have hends := hkept.ends (sound hlaw) hwritten _ rfl
      cases written with
      | settle settle =>
        obtain ⟨hnone, -⟩ := hends
        rw [hnone] at hmade
        cases hmade
      | claim append =>
        cases append with
        | appended claim => exact ⟨claim, hwritten⟩
        | existing state =>
          obtain ⟨request, -, hnone, -⟩ := hends
          rw [hnone] at hmade
          cases hmade
    refine ⟨j, ⟨hj, happended⟩, ?_⟩
    rintro k ⟨hk, claim₂, h₂⟩
    obtain ⟨claim₁, h₁⟩ := happended
    exact honce k j ids ids hk hj ⟨id, hid, hid⟩ claim₂ claim₁ h₂ h₁
  · intro i j request request' settle settle' hi hj heq hanswers hanswers'
    obtain ⟨-, request₁, h₁, hmem, payload, hs, hid⟩ := hkept.ends (sound hlaw) hanswers _ rfl
    obtain ⟨-, request₂, h₂, hmem', payload', hs', hid'⟩ := hkept.ends (sound hlaw) hanswers' _ rfl
    cases hi.symm.trans h₁
    cases hj.symm.trans h₂
    exact hgood.ledger.settle_unique hmem hmem' hs hs' (hid.trans (heq.trans hid'.symm))

end

/-! ### Races -/

/-- An observed delivery of the envelopes. -/
def sampleClaim (ids : List String) : ClaimRequest :=
  ⟨.counted "user" 1, ids, [], (Draw.counted 100).eventId, .observe "observed"⟩

/-- Three deliveries on one thread, each of its own list of envelopes. -/
def sampleRacing (lists : Fin 3 → List String) : Racing (InMemoryState 0) (Fin 3) where
  store := inMemoryFenced 0
  codec := .wire
  streamId := controlStreamId (.counted "user" 1)
  jobs i := .claim (sampleClaim (lists i)) none
  start := .empty

/-- One delivery of `b` alone, two of `a` and `b` together. -/
def sampleLists (i : Fin 3) : List String := if i = 0 then ["b"] else ["a", "b"]

section
variable {lists : Fin 3 → List String}

/-- Nothing was taken up yet. -/
def sampleIdle : Pool (Fin 3) BridgeCall BridgeCall.Reply (IoResult OutcomeWritten)
    (ClaimWorld (InMemoryState 0) (Fin 3)) :=
  .idle ⟨.empty, fun _ => none⟩

/-- The writer runs from its start to its end. -/
def sampleRun (lists : Fin 3 → List String) (i : Fin 3)
    (w : ClaimWorld (InMemoryState 0) (Fin 3)) :
    IoResult OutcomeWritten × ClaimWorld (InMemoryState 0) (Fin 3) :=
  (((sampleRacing lists).jobs i).program .wire 1).run.alone
    ((sampleRacing lists).serve (fun i => .counted i) i) w

/-- The pool after one more writer has run. -/
def sampleNext (lists : Fin 3 → List String)
    (pool : Pool (Fin 3) BridgeCall BridgeCall.Reply (IoResult OutcomeWritten)
      (ClaimWorld (InMemoryState 0) (Fin 3))) (i : Fin 3) :
    Pool (Fin 3) BridgeCall BridgeCall.Reply (IoResult OutcomeWritten)
      (ClaimWorld (InMemoryState 0) (Fin 3)) :=
  pool.set i (.done (sampleRun lists i pool.state).1) (sampleRun lists i pool.state).2

theorem reaches_sampleNext {pool : Pool (Fin 3) BridgeCall BridgeCall.Reply
    (IoResult OutcomeWritten) (ClaimWorld (InMemoryState 0) (Fin 3))} {i : Fin 3}
    (h : (sampleRacing lists).Reaches pool) (hnew : pool.procs i = none) :
    (sampleRacing lists).Reaches (sampleNext lists pool i) := by
  refine h.runs (serves_serve (sampleRacing lists) _) hnew ⟨⟨1, rfl⟩, fun request hjob => ?_⟩
  cases hjob

theorem lawful_sampleRacing (h : ∀ i, (lists i).Nodup) : (sampleRacing lists).Lawful where
  codec := roundTrips_wire
  stream _ := rfl
  nodup := by
    rintro i request ⟨⟩
    exact h i

end

set_option maxRecDepth 100000 in
/-- **No claim for a list that a claim covers in part**: once `b` is claimed alone, both deliveries of
`a` and `b` are turned away, and none of them gets a claim. -/
theorem overlap_refused : ∃ pool, (sampleRacing sampleLists).Reaches pool ∧
    (sampleRacing sampleLists).On ["a", "b"] 1 ∧ (sampleRacing sampleLists).On ["a", "b"] 2 ∧
    pool.procs 1 = some (.done (.error partialOverlap)) ∧
    pool.procs 2 = some (.done (.error partialOverlap)) := by
  have h₀ : (sampleRacing sampleLists).Reaches (sampleNext sampleLists sampleIdle 0) :=
    reaches_sampleNext .refl rfl
  have h₁ := reaches_sampleNext (i := 1) h₀ rfl
  have h₂ := reaches_sampleNext (i := 2) h₁ rfl
  have hruns : (sampleRun sampleLists 1 (sampleNext sampleLists sampleIdle 0).state).1 =
      .error partialOverlap ∧ (sampleRun sampleLists 2
        (sampleNext sampleLists (sampleNext sampleLists sampleIdle 0) 1).state).1 =
      .error partialOverlap := by
    decide
  obtain ⟨hfirst, hsecond⟩ := hruns
  refine ⟨_, h₂, ⟨_, rfl, rfl⟩, ⟨_, rfl, rfl⟩, ?_, ?_⟩
  · exact congrArg (fun r => some (Proc.done r)) hfirst
  · exact congrArg (fun r => some (Proc.done r)) hsecond

set_option maxRecDepth 100000 in
/-- A list that names an envelope twice is claimed as it is, and no fold reads past the claim. -/
theorem repeated_claimed_twice : ∃ pool, (sampleRacing fun _ => ["a", "a"]).Reaches pool ∧
    ingressOutcomeFold .wire ((sampleRacing fun _ => ["a", "a"]).events pool.state) ["b"] =
      .error (.bridge (.quoted "ingress envelope " "a" " has more than one claim")) := by
  refine ⟨sampleNext (fun _ => ["a", "a"]) sampleIdle 0, reaches_sampleNext .refl rfl, ?_⟩
  decide

/-- **What a race for lists that overlap, or repeat an envelope, may end with.** -/
theorem racing_not_always_claimed :
    (∃ pool, (sampleRacing sampleLists).Reaches pool ∧
      (sampleRacing sampleLists).On ["a", "b"] 1 ∧ (sampleRacing sampleLists).On ["a", "b"] 2 ∧
      pool.procs 1 = some (.done (.error partialOverlap)) ∧
      pool.procs 2 = some (.done (.error partialOverlap))) ∧
    ∃ pool, (sampleRacing fun _ => ["a", "a"]).Reaches pool ∧
      ingressOutcomeFold .wire ((sampleRacing fun _ => ["a", "a"]).events pool.state) ["b"] =
        .error (.bridge (.quoted "ingress envelope " "a" " has more than one claim")) :=
  ⟨overlap_refused, repeated_claimed_twice⟩

/-- The claim of the second delivery. -/
def sampleClaimed : EventRecord :=
  .fromNew (sampleRacing sampleLists).streamId 1 ((sampleClaim ["a", "b"]).claim .wire (.counted 1))

set_option maxRecDepth 100000 in
/-- One delivery of `a` and `b` claims them, the other is shown the claim. -/
theorem one_claim_per_envelope_once :
    (sampleRacing sampleLists).OneClaim
        (sampleNext sampleLists (sampleNext sampleLists sampleIdle 1) 2) ∧
      Answers (sampleNext sampleLists (sampleNext sampleLists sampleIdle 1) 2) 1
        (.claim (.appended sampleClaimed)) ∧
      Answers (sampleNext sampleLists (sampleNext sampleLists sampleIdle 1) 2) 2
        (.claim (.existing (.claimed sampleClaimed (sampleClaim ["a", "b"]).payload))) := by
  have hruns : (sampleRun sampleLists 1 sampleIdle.state).1 =
      .ok (.claim (.appended sampleClaimed)) ∧
      (sampleRun sampleLists 2 (sampleNext sampleLists sampleIdle 1).state).1 =
      .ok (.claim (.existing (.claimed sampleClaimed (sampleClaim ["a", "b"]).payload))) := by
    decide
  obtain ⟨hfirst, hsecond⟩ := hruns
  have hlists : ∀ i, (sampleLists i).Nodup := by decide
  refine ⟨one_claim_per_envelope (lawful_sampleRacing hlists) Ledger.nil
    (reaches_sampleNext (reaches_sampleNext .refl rfl) rfl), ?_, ?_⟩
  · exact congrArg (fun r => some (Proc.done r)) hfirst
  · exact congrArg (fun r => some (Proc.done r)) hsecond

end Racing

end Verlet.Daemon
