import Verlet.Io.Admission
import Verlet.Support.Claims

/-!
# Io — The ingress queue

`PgqrsIngressQueue::submit`: a row of the dedupe table is claimed, the message is enqueued, and the claim is
committed; or it is released, by hand after a failure and by its guard when the submission is dropped.  Every
step of every submission is one step here, a submission may be dropped where it awaits and may die anywhere,
and what SQLite and pgqrs answer is part of the step.  A step that does not apply changes nothing.

The table is that of one queue in one SQLite file.

* `dedupeHolds_of_run`: no key is enqueued twice and none is lost, as long as no submission dies holding a
  claim whose message is yet to be enqueued, none is dropped after its message was, and no guard fails to
  release.
* `dead_claim_lost`: what the first does otherwise.
-/

namespace Verlet.Io
open Support

structure IngressAck where
  envelopeId : String
  dedupeKey : Option IoDedupeKey
  accepted : Bool
  reason : Option String

/-- `IngressAck::accepted`. -/
def IngressAck.ofAccepted (envelope : IngressEnvelope) : IngressAck :=
  ⟨envelope.id, envelope.effectiveDedupeKey, true, none⟩

/-- `IngressAck::rejected`. -/
def IngressAck.ofRejected (envelope : IngressEnvelope) (reason : String) : IngressAck :=
  ⟨envelope.id, envelope.effectiveDedupeKey, false, some reason⟩

/-! ### The table -/

/-- The rows of the dedupe table: the stable key, and the envelope that claimed it. -/
abbrev DedupeRows := List (String × String)

/-- `try_claim_dedupe_key`: `INSERT OR IGNORE`, and whether it inserted. -/
def tryClaimDedupeKey (envelope : IngressEnvelope) (rows : DedupeRows) :
    Except String (Bool × DedupeRows) :=
  match envelope.effectiveDedupeKey with
  | none => .error "effective dedupe key is required"
  | some dedupeKey =>
    if rows.any fun row => row.1 = dedupeKey.stableKey then .ok (false, rows)
    else .ok (true, rows ++ [(dedupeKey.stableKey, envelope.id)])

/-- `release_dedupe_key`: the row goes, whoever claimed it. -/
def releaseDedupeKey (dedupeKey : Option IoDedupeKey) (rows : DedupeRows) : DedupeRows :=
  match dedupeKey with
  | none           => rows
  | some dedupeKey => rows.filter fun row => row.1 ≠ dedupeKey.stableKey

/-! ### Submissions -/

/-- How far a submission has come.  From `claimed` on it holds its `PendingDedupeClaim`, armed. -/
inductive Phase where
  | submitted (envelope : IngressEnvelope)
  | claimed (envelope : IngressEnvelope)
  /-- The message is in the queue, and the submission still awaits the answer. -/
  | enqueued (envelope : IngressEnvelope)
  /-- `claim.release()`, after a failure. -/
  | releasing (envelope : IngressEnvelope) (err : String)
  /-- The guard's `drop`; the failure the submission returns, if it returns. -/
  | dropping (envelope : IngressEnvelope) (err : Option String)

structure IngressQueueState where
  dedupe : DedupeRows
  /-- Every message the queue has received. -/
  received : List IngressEnvelope
  submissions : Nat → Option Phase

namespace IngressQueueState

/-- The submission `id` is at `phase`, or is over. -/
def set (s : IngressQueueState) (id : Nat) (phase : Option Phase) : IngressQueueState :=
  { s with submissions := Function.update s.submissions id phase }

def new : IngressQueueState := ⟨[], [], fun _ => none⟩

end IngressQueueState

/-- A step of the submission `id`. -/
inductive SubmitStep where
  | submit (id : Nat) (envelope : IngressEnvelope)
  | claim (id : Nat) (answer : Except String Unit)
  /-- The payload does not encode. -/
  | encodeFails (id : Nat) (err : String)
  | enqueue (id : Nat) (answer : Except String Unit)
  /-- The answer of the enqueue arrives: `commit`. -/
  | finish (id : Nat)
  | release (id : Nat) (answer : Except String Unit)
  /-- The future is dropped. -/
  | drop (id : Nat)
  /-- The process dies. -/
  | die (id : Nat)

abbrev SubmitAnswer := Option (Except String IngressAck)

def stepSubmission : SubmitStep → IngressQueueState → SubmitAnswer × IngressQueueState
  | .submit id envelope, s =>
    match s.submissions id, envelope.requireWitnessed with
    | some _, _ => (none, s)
    | none, .error err => (some (.error err), s)
    | none, .ok () => (none, s.set id (some (.submitted envelope)))
  | .claim id answer, s =>
    match s.submissions id with
    | some (.submitted envelope) =>
      match answer, tryClaimDedupeKey envelope s.dedupe with
      | .error err, _ => (some (.error err), s.set id none)
      | .ok (), .error err => (some (.error err), s.set id none)
      | .ok (), .ok (false, _) =>
        (some (.ok (.ofRejected envelope "duplicate dedupe key")), s.set id none)
      | .ok (), .ok (true, rows) =>
        (none, { s.set id (some (.claimed envelope)) with dedupe := rows })
    | _ => (none, s)
  | .encodeFails id err, s =>
    match s.submissions id with
    | some (.claimed envelope) => (none, s.set id (some (.dropping envelope (some err))))
    | _                        => (none, s)
  | .enqueue id answer, s =>
    match s.submissions id with
    | some (.claimed envelope) =>
      match answer with
      | .ok () =>
        (none, { s.set id (some (.enqueued envelope)) with received := s.received ++ [envelope] })
      | .error err => (none, s.set id (some (.releasing envelope err)))
    | _ => (none, s)
  | .finish id, s =>
    match s.submissions id with
    | some (.enqueued envelope) => (some (.ok (.ofAccepted envelope)), s.set id none)
    | _                         => (none, s)
  | .release id answer, s =>
    match s.submissions id with
    | some (.releasing envelope err) =>
      match answer with
      | .ok () =>
        (some (.error err), { s.set id none with
          dedupe := releaseDedupeKey (IngressAck.ofAccepted envelope).dedupeKey s.dedupe })
      | .error err' =>
        -- `?` leaves the claim armed, so its guard tries once more
        (none, s.set id (some (.dropping envelope (some err'))))
    | some (.dropping envelope err) =>
      match answer with
      | .ok () =>
        (err.map .error, { s.set id none with
          dedupe := releaseDedupeKey (IngressAck.ofAccepted envelope).dedupeKey s.dedupe })
      | .error _ => (err.map .error, s.set id none)
    | _ => (none, s)
  | .drop id, s =>
    match s.submissions id with
    | some (.submitted _)       => (none, s.set id none)
    | some (.claimed envelope)  => (none, s.set id (some (.dropping envelope none)))
    | some (.enqueued envelope) => (none, s.set id (some (.dropping envelope none)))
    | _                         => (none, s)
  | .die id, s => (none, s.set id none)

/-! ### What is to hold -/

def IngressEnvelope.stableKey? (envelope : IngressEnvelope) : Option String :=
  envelope.effectiveDedupeKey.map IoDedupeKey.stableKey

def IngressQueueState.ofKey (s : IngressQueueState) (key : String) : List IngressEnvelope :=
  s.received.filter fun envelope => envelope.stableKey? = some key

/-- No key is enqueued twice; and while nothing is being submitted, every key of the table has been
enqueued. -/
def DedupeHolds (s : IngressQueueState) : Prop :=
  (∀ key, (s.ofKey key).length ≤ 1) ∧
    ((∀ id, s.submissions id = none) → ∀ row ∈ s.dedupe, s.ofKey row.1 ≠ [])

/-- The step is none of the three that lose or double a message: no death between a claim and its message,
no drop between the message and the commit, no guard that fails to release. -/
def Spares (s : IngressQueueState) : SubmitStep → Prop
  | .die id  => ∀ phase ∈ s.submissions id, (∃ e, phase = .submitted e) ∨ ∃ e, phase = .enqueued e
  | .drop id => ∀ e, s.submissions id ≠ some (.enqueued e)
  | .release id (.error _) => ∀ e err, s.submissions id ≠ some (.dropping e err)
  | _ => True

/-! ### Its claims -/

/-- The key a submission holds, and whether its message is in the queue. -/
def Phase.held : Phase → Option (String × Bool)
  | .submitted _          => none
  | .claimed envelope     => envelope.stableKey?.map (·, false)
  | .enqueued envelope    => envelope.stableKey?.map (·, true)
  | .releasing envelope _ => envelope.stableKey?.map (·, false)
  | .dropping envelope _  => envelope.stableKey?.map (·, false)

def IngressQueueState.claims (s : IngressQueueState) : Claims Nat String where
  held id := (s.submissions id).bind Phase.held
  listed key := key ∈ s.dedupe.map (·.1)
  effects key := (s.ofKey key).length

open IngressQueueState (claims)

theorem claims_set (s : IngressQueueState) (id : Nat) (phase : Option Phase) :
    (s.set id phase).claims = s.claims.hold id (phase.bind Phase.held) := by
  have hheld : (fun id' => ((s.set id phase).submissions id').bind Phase.held) =
      Function.update s.claims.held id (phase.bind Phase.held) := by
    funext id'
    by_cases h : id' = id
    · subst h
      simp [IngressQueueState.set]
    · simp [IngressQueueState.set, claims, h]
  simp only [claims, Claims.hold, hheld]
  rfl

theorem claims_set_same {s : IngressQueueState} {id : Nat} {phase : Option Phase}
    (h : (s.submissions id).bind Phase.held = phase.bind Phase.held) :
    (s.set id phase).claims = s.claims := by
  rw [claims_set, ← h]
  simp [Claims.hold, claims]

variable {rows : DedupeRows}

theorem tryClaimDedupeKey_inserted {envelope : IngressEnvelope} {rows' : DedupeRows}
    (h : tryClaimDedupeKey envelope rows = .ok (true, rows')) :
    ∃ key, envelope.stableKey? = some key ∧ key ∉ rows.map (·.1) ∧ rows' = rows ++ [(key, envelope.id)] := by
  unfold tryClaimDedupeKey at h
  split at h
  · cases h
  · next dedupeKey hkey =>
    split at h
    · cases h
    · next hnew =>
      cases h
      refine ⟨dedupeKey.stableKey, by simp [IngressEnvelope.stableKey?, hkey], ?_, rfl⟩
      simpa using hnew

theorem mem_releaseDedupeKey {envelope : IngressEnvelope} {key key' : String}
    (h : envelope.stableKey? = some key) :
    key' ∈ (releaseDedupeKey (IngressAck.ofAccepted envelope).dedupeKey rows).map (·.1) ↔
      key' ∈ rows.map (·.1) ∧ key' ≠ key := by
  obtain ⟨dedupeKey, hkey, rfl⟩ := Option.map_eq_some_iff.mp h
  simp only [IngressAck.ofAccepted, releaseDedupeKey, hkey, List.mem_map, List.mem_filter,
    decide_eq_true_eq]
  constructor
  · rintro ⟨row, ⟨hmem, hne⟩, rfl⟩
    exact ⟨⟨row, hmem, rfl⟩, hne⟩
  · rintro ⟨⟨row, hmem, rfl⟩, hne⟩
    exact ⟨row, ⟨hmem, hne⟩, rfl⟩

theorem length_ofKey_append (s : IngressQueueState) (envelope : IngressEnvelope) (key : String) :
    ({ s with received := s.received ++ [envelope] }.ofKey key).length =
      (s.ofKey key).length + if envelope.stableKey? = some key then 1 else 0 := by
  simp only [IngressQueueState.ofKey, List.filter_append, List.length_append, List.filter_cons,
    List.filter_nil, decide_eq_true_eq]
  split <;> rfl

section Steps
variable {s : IngressQueueState} {id : Nat} {phase : Phase} {envelope : IngressEnvelope}

theorem held_claims (hphase : s.submissions id = some phase) : s.claims.held id = phase.held := by
  simp [claims, hphase]

theorem claim_claims (hphase : s.submissions id = some (.submitted envelope))
    (h : tryClaimDedupeKey envelope s.dedupe = .ok (true, rows)) :
    s.claims.Step { s.set id (some (.claimed envelope)) with dedupe := rows }.claims := by
  obtain ⟨key, hkey, hnew, rfl⟩ := tryClaimDedupeKey_inserted h
  have heq : { s.set id (some (.claimed envelope)) with dedupe := s.dedupe ++ [(key, envelope.id)] }.claims =
      { s.claims.hold id (some (key, false)) with
        listed := fun key' => s.claims.listed key' ∨ key' = key } := by
    have hset := claims_set s id (some (.claimed envelope))
    simp only [Option.bind_some, Phase.held, hkey, Option.map_some] at hset
    rw [← hset]
    simp [claims, IngressQueueState.set, IngressQueueState.ofKey]
  rw [heq]
  exact .claim id key (held_claims hphase) hnew

theorem enqueue_claims (hphase : s.submissions id = some (.claimed envelope)) :
    s.claims.Step { s.set id (some (.enqueued envelope)) with
      received := s.received ++ [envelope] }.claims := by
  have hset := claims_set s id (some (.enqueued envelope))
  rw [Option.bind_some, Phase.held] at hset
  have heffects (key : String) :
      ({ s.set id (some (.enqueued envelope)) with received := s.received ++ [envelope] }.ofKey key).length =
        (s.ofKey key).length + if envelope.stableKey? = some key then 1 else 0 :=
    length_ofKey_append (s.set id (some (.enqueued envelope))) envelope key
  cases hkey : envelope.stableKey? with
  | none =>
    have hsame : (s.set id (some (.enqueued envelope))).claims = s.claims :=
      claims_set_same (by simp [hphase, Phase.held, hkey])
    have heq : { s.set id (some (.enqueued envelope)) with
        received := s.received ++ [envelope] }.claims = s.claims := by
      rw [← hsame]
      simp only [claims, heffects, hkey]
      rfl
    rw [heq]
    exact .stay
  | some key =>
    have heq : { s.set id (some (.enqueued envelope)) with received := s.received ++ [envelope] }.claims =
        { s.claims.hold id (some (key, true)) with
          effects := Function.update s.claims.effects key (s.claims.effects key + 1) } := by
      rw [hkey, Option.map_some] at hset
      rw [← hset]
      simp only [claims, heffects, hkey, Option.some.injEq, Claims.mk.injEq]
      refine ⟨trivial, trivial, ?_⟩
      funext key'
      by_cases h : key' = key
      · subst h
        simp
      · simp [h, Ne.symm h]
    rw [heq]
    exact .effect id key (by rw [held_claims hphase, Phase.held, hkey]; rfl)

theorem over_claims (hphase : s.submissions id = some phase)
    (hheld : phase.held = none ∨ phase.held = envelope.stableKey?.map (·, true)) :
    s.claims.Step (s.set id none).claims := by
  have hset := claims_set s id none
  cases hkey : phase.held with
  | none =>
    rw [claims_set_same (by simp [hphase, hkey])]
    exact .stay
  | some claim =>
    rcases hheld with hheld | hheld
    · rw [hkey] at hheld
      cases hheld
    · obtain ⟨key, -, rfl⟩ := Option.map_eq_some_iff.mp (hheld.symm.trans hkey)
      rw [hset]
      exact .settle id key (by rw [held_claims hphase, hkey])

theorem release_claims (hphase : s.submissions id = some phase)
    (hheld : phase.held = envelope.stableKey?.map (·, false)) :
    s.claims.Step { s.set id none with
      dedupe := releaseDedupeKey (IngressAck.ofAccepted envelope).dedupeKey s.dedupe }.claims := by
  cases hkey : envelope.stableKey? with
  | none =>
    have hnone : (IngressAck.ofAccepted envelope).dedupeKey = none := Option.map_eq_none_iff.mp hkey
    have hsame : (s.set id none).claims = s.claims := claims_set_same (by simp [hphase, hheld, hkey])
    rw [hnone]
    change s.claims.Step (s.set id none).claims
    rw [hsame]
    exact .stay
  | some key =>
    have heq : { s.set id none with
        dedupe := releaseDedupeKey (IngressAck.ofAccepted envelope).dedupeKey s.dedupe }.claims =
        { s.claims.hold id none with listed := fun key' => s.claims.listed key' ∧ key' ≠ key } := by
      have hset := claims_set s id none
      rw [Option.bind_none] at hset
      rw [← hset]
      simp only [claims, mem_releaseDedupeKey hkey]
      rfl
    rw [heq]
    exact .release id key (by rw [held_claims hphase, hheld, hkey]; rfl)

end Steps

/-- **Every step that spares the claims is a step of theirs.** -/
theorem stepSubmission_claims {s : IngressQueueState} {step : SubmitStep} (h : Spares s step) :
    s.claims.Step (stepSubmission step s).2.claims := by
  cases step with
  | submit id envelope =>
    rw [stepSubmission]
    split
    · exact .stay
    · exact .stay
    · next hnone _ =>
      rw [claims_set_same (by rw [hnone]; rfl)]
      exact .stay
  | claim id answer =>
    rw [stepSubmission]
    split
    · next envelope hphase =>
      have hover : s.claims.Step (s.set id none).claims := by
        rw [claims_set_same (by rw [hphase]; rfl)]
        exact .stay
      split
      · exact hover
      · exact hover
      · exact hover
      · next hclaim => exact claim_claims hphase hclaim
    · exact .stay
  | encodeFails id err =>
    rw [stepSubmission]
    split
    · next envelope hphase =>
      rw [claims_set_same (by rw [hphase]; rfl)]
      exact .stay
    · exact .stay
  | enqueue id answer =>
    rw [stepSubmission]
    split
    · next envelope hphase =>
      cases answer with
      | ok => exact enqueue_claims hphase
      | error err =>
        dsimp only
        rw [claims_set_same (by rw [hphase]; rfl)]
        exact .stay
    · exact .stay
  | finish id =>
    rw [stepSubmission]
    split
    · next envelope hphase => exact over_claims hphase (.inr rfl)
    · exact .stay
  | release id answer =>
    rw [stepSubmission]
    split
    · next envelope err hphase =>
      cases answer with
      | ok => exact release_claims hphase rfl
      | error err' =>
        dsimp only
        rw [claims_set_same (by rw [hphase]; rfl)]
        exact .stay
    · next envelope err hphase =>
      cases answer with
      | ok => exact release_claims hphase rfl
      | error err' => exact absurd hphase (h envelope err)
    · exact .stay
  | drop id =>
    rw [stepSubmission]
    split
    · next envelope hphase =>
      rw [claims_set_same (by rw [hphase]; rfl)]
      exact .stay
    · next envelope hphase =>
      rw [claims_set_same (by rw [hphase]; rfl)]
      exact .stay
    · next envelope hphase => exact absurd hphase (h envelope)
    · exact .stay
  | die id =>
    rw [stepSubmission]
    cases hphase : s.submissions id with
    | none =>
      rw [claims_set_same (by rw [hphase])]
      exact .stay
    | some phase =>
      rcases h phase hphase with ⟨envelope, rfl⟩ | ⟨envelope, rfl⟩
      · exact @over_claims s id _ envelope hphase (.inl rfl)
      · exact over_claims hphase (.inr rfl)

/-! ### Runs -/

theorem sound_new : IngressQueueState.new.claims.Sound := by
  have h : IngressQueueState.new.claims = Claims.empty := by
    simp [IngressQueueState.new, claims, Claims.empty, IngressQueueState.ofKey]
  rw [h]
  exact Claims.sound_empty

theorem dedupeHolds_of_sound {s : IngressQueueState} (h : s.claims.Sound) : DedupeHolds s := by
  refine ⟨h.effects_le, fun hquiet row hrow hnone => ?_⟩
  obtain ⟨id, hheld⟩ := h.accounted (List.mem_map_of_mem hrow) (congrArg List.length hnone)
  simp [claims, hquiet id] at hheld

theorem sound_of_run {steps : List SubmitStep}
    (h : Along stepSubmission Spares steps IngressQueueState.new) :
    (run stepSubmission steps IngressQueueState.new).claims.Sound :=
  h.invariant (P := fun s => s.claims.Sound)
    (fun _ _ hs hspares => hs.step (stepSubmission_claims hspares)) sound_new

/-- **The queue loses and doubles nothing** in a run whose every step spares the claims. -/
theorem dedupeHolds_of_run {steps : List SubmitStep}
    (h : Along stepSubmission Spares steps IngressQueueState.new) :
    DedupeHolds (run stepSubmission steps IngressQueueState.new) :=
  dedupeHolds_of_sound (sound_of_run h)

/-- A redelivery of `update:1`. -/
def sampleEnvelope : IngressEnvelope where
  id := "envelope"
  source := ⟨"telegram.bot", "main", []⟩
  conversation := ⟨"telegram:chat:123", .direct, none, none, []⟩
  actor := none
  content := .text "hello"
  attachments := []
  dedupeKey := some ⟨"telegram.bot:main", "update:1"⟩
  delivery := some ⟨"update:1", none, []⟩
  principal := none
  receivedAtMs := 1777000000000
  metadata := []

theorem dedupeHolds_redelivered : DedupeHolds (run stepSubmission
    [.submit 0 sampleEnvelope, .claim 0 (.ok ()), .enqueue 0 (.ok ()), .submit 1 sampleEnvelope,
      .claim 1 (.ok ()), .finish 0] IngressQueueState.new) :=
  dedupeHolds_of_run ⟨trivial, trivial, trivial, trivial, trivial, trivial, trivial⟩

/-- The submission dies between its claim and its message: the table keeps the key, and every redelivery is
answered with a message that the queue never received. -/
theorem dead_claim_lost : ¬ DedupeHolds (run stepSubmission
    [.submit 0 sampleEnvelope, .claim 0 (.ok ()), .die 0] IngressQueueState.new) := by
  rintro ⟨-, hlisted⟩
  refine hlisted (fun id => ?_) ("telegram.bot:main:update:1", "envelope") (.head _) rfl
  by_cases hid : id = 0
  · subst hid
    rfl
  · have hother (s : IngressQueueState) (phase : Option Phase) :
        (s.set 0 phase).submissions id = s.submissions id := by simp [IngressQueueState.set, hid]
    exact (hother _ _).trans ((hother _ _).trans (hother _ _))

end Verlet.Io
