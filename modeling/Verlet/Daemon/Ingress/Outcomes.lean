import Verlet.Io.Admission

/-!
# Daemon — Ingress — Outcomes

A claim on a thread's control stream names the envelopes it covers and what is to become of them; a
settle names the claim it ends.  `ingressOutcomeFold` reads off a stream what became of a list of
envelopes: nothing yet, claimed, or settled.

`Ledger` is what the fold counts on: no envelope is claimed twice, no claim is settled twice, and a
settle follows its claim and names its envelopes.
-/

namespace Verlet.Daemon
open Support Kernel Io History

/-! ### Payloads -/

inductive IngressOutcomeIntent where
  | turn (turnId submissionMode inputDigest : String)
  | fork (childKey : String) (childThreadId : Option ThreadId) (inputDigest : String)
  | interrupt (replacementTurnId : Option String) (cancelReason inputDigest : String)
  | observe (reason : String)
  | reject (reason : String)
deriving DecidableEq

structure IoIngressClaimedPayload where
  ingressEnvelopeIds : List String
  ingressWitnessEventIds : List EventRecordId
  admissionEventId : EventRecordId
  intent : IngressOutcomeIntent
deriving DecidableEq

inductive IngressSettledBy where
  | execution
  | recovery

structure IoIngressSettledPayload where
  claimEventId : EventRecordId
  ingressEnvelopeIds : List String
  evidenceEventId : Option EventRecordId
  settledBy : IngressSettledBy

/-- `serde_json` at the two payloads. -/
structure OutcomeCodec where
  claimed : Serde IoIngressClaimedPayload
  settled : Serde IoIngressSettledPayload

/-- What is written is read back. -/
structure OutcomeCodec.RoundTrips (codec : OutcomeCodec) : Prop where
  claimed : codec.claimed.RoundTrips
  settled : codec.settled.RoundTrips

/-- `from_value` of an event's payload, with the text of its failure. -/
def decodeIo {α : Type} (serde : Serde α) (text : String) (event : EventRecord) : IoResult α :=
  match serde.fromValue event.payload with
  | .ok payload => .ok payload
  | .error err  => .error (.bridgeText (text ++ err))

variable {event : EventRecord}

theorem decodeIo_ok {α : Type} {serde : Serde α} {text : String} {payload : α} :
    decodeIo serde text event = .ok payload ↔ serde.fromValue event.payload = .ok payload := by
  unfold decodeIo
  cases serde.fromValue event.payload <;> simp

/-! ### The fold -/

inductive IngressOutcomeState where
  | missing
  | claimed (claim : EventRecord) (payload : IoIngressClaimedPayload)
  | settled (claimPayload : IoIngressClaimedPayload) (settle : EventRecord)
deriving DecidableEq

/-- Some of the envelopes are claimed and some are not. -/
def partialOverlap : IoError :=
  .bridgeText "durable ingress batch partially overlaps claimed envelopes"

/-- The envelopes are under several claims. -/
def differentClaims : IoError := .bridgeText "durable ingress batch maps to different claims"

/-- What the loop of `ingress_outcome_fold` has gathered. -/
structure OutcomeFold where
  ownerByEnvelope : Map String (EventRecord × IoIngressClaimedPayload)
  settles : Map EventRecordId (EventRecord × IoIngressSettledPayload)

namespace OutcomeFold

def empty : OutcomeFold := ⟨∅, ∅⟩

/-- The envelopes of a claim, one after the other. -/
def own (claim : EventRecord × IoIngressClaimedPayload) :
    Map String (EventRecord × IoIngressClaimedPayload) → List String →
      IoResult (Map String (EventRecord × IoIngressClaimedPayload))
  | owners, [] => .ok owners
  | owners, envelopeId :: rest =>
    if (owners.lookup envelopeId).isSome then
      .error (.bridge (.quoted "ingress envelope " envelopeId " has more than one claim"))
    else own claim (owners.insert envelopeId claim) rest

def take (codec : OutcomeCodec) (fold : OutcomeFold) (event : EventRecord) : IoResult OutcomeFold :=
  match event.kind with
  | .ioIngressClaimed => do
    let payload ← decodeIo codec.claimed "invalid io.ingress.claimed payload: " event
    let owners ← own (event, payload) fold.ownerByEnvelope payload.ingressEnvelopeIds
    return { fold with ownerByEnvelope := owners }
  | .ioIngressSettled => do
    let payload ← decodeIo codec.settled "invalid io.ingress.settled payload: " event
    if (fold.settles.lookup payload.claimEventId).isSome then
      .error (.bridgeText "ingress claim has more than one settle")
    else return { fold with settles := fold.settles.insert payload.claimEventId (event, payload) }
  | _ => return fold

/-- What became of the envelopes, once the loop is through. -/
def outcome (fold : OutcomeFold) (requested : List String) : IoResult IngressOutcomeState :=
  let owners := requested.filterMap fold.ownerByEnvelope.lookup
  match owners.getLast? with
  | none => .ok .missing
  | some (claim, claimPayload) =>
    if owners.length ≠ requested.length then .error partialOverlap
    else if owners.any (fun owner => owner.1.id ≠ claim.id) then .error differentClaims
    else
      match fold.settles.lookup claim.id with
      | none => .ok (.claimed claim claimPayload)
      | some (settle, settlePayload) =>
        if settlePayload.ingressEnvelopeIds ≠ claimPayload.ingressEnvelopeIds then
          .error (.bridgeText "ingress settle envelope set does not match its claim")
        else .ok (.settled claimPayload settle)

end OutcomeFold

/-- `ingress_outcome_fold`.  The set of the requested envelopes is a list without repetition. -/
def ingressOutcomeFold (codec : OutcomeCodec) (events : List EventRecord)
    (ingressEnvelopeIds : List String) : IoResult IngressOutcomeState :=
  if ingressEnvelopeIds = [] then .ok .missing
  else do
    let fold ← events.foldlM (OutcomeFold.take codec) .empty
    fold.outcome ingressEnvelopeIds.dedup

/-! ### What a stream says of claims -/

def Claims (codec : OutcomeCodec) (event : EventRecord) (payload : IoIngressClaimedPayload) : Prop :=
  event.kind = .ioIngressClaimed ∧ codec.claimed.fromValue event.payload = .ok payload

def Settles (codec : OutcomeCodec) (event : EventRecord) (payload : IoIngressSettledPayload) : Prop :=
  event.kind = .ioIngressSettled ∧ codec.settled.fromValue event.payload = .ok payload

variable {codec : OutcomeCodec} {events : List EventRecord} {payload : IoIngressClaimedPayload}

theorem Claims.unique {payload' : IoIngressClaimedPayload} (h : Claims codec event payload)
    (h' : Claims codec event payload') : payload = payload' :=
  Except.ok.inj (h.2.symm.trans h'.2)

theorem Settles.unique {payload payload' : IoIngressSettledPayload}
    (h : Settles codec event payload) (h' : Settles codec event payload') : payload = payload' :=
  Except.ok.inj (h.2.symm.trans h'.2)

def Covered (codec : OutcomeCodec) (events : List EventRecord) (envelopeId : String) : Prop :=
  ∃ claim ∈ events, ∃ payload, Claims codec claim payload ∧ envelopeId ∈ payload.ingressEnvelopeIds

/-- The claims and settles of a stream are in order. -/
structure Ledger (codec : OutcomeCodec) (events : List EventRecord) : Prop where
  claimed : ∀ event ∈ events, event.kind = .ioIngressClaimed →
    ∃ payload, Claims codec event payload ∧ payload.ingressEnvelopeIds.Nodup
  settled : ∀ event ∈ events, event.kind = .ioIngressSettled → ∃ payload, Settles codec event payload
  /-- No envelope is claimed twice. -/
  disjoint : events.Pairwise fun event later => ∀ payload payload', Claims codec event payload →
    Claims codec later payload' →
      payload.ingressEnvelopeIds.Disjoint payload'.ingressEnvelopeIds
  /-- No claim is settled twice. -/
  once : events.Pairwise fun event later => ∀ payload payload', Settles codec event payload →
    Settles codec later payload' → payload.claimEventId ≠ payload'.claimEventId
  /-- A settle follows its claim. -/
  follows : ∀ before settle after, events = before ++ settle :: after → ∀ payload,
    Settles codec settle payload → ∃ claim ∈ before, ∃ claimPayload, Claims codec claim claimPayload ∧
      claim.id = payload.claimEventId ∧ claimPayload.ingressEnvelopeIds = payload.ingressEnvelopeIds

theorem Ledger.nil : Ledger codec [] :=
  ⟨by simp, by simp, .nil, .nil, by simp⟩

theorem Ledger.left {later : List EventRecord} (h : Ledger codec (events ++ later)) :
    Ledger codec events where
  claimed event he := h.claimed event (List.mem_append_left _ he)
  settled event he := h.settled event (List.mem_append_left _ he)
  disjoint := (List.pairwise_append.mp h.disjoint).1
  once := (List.pairwise_append.mp h.once).1
  follows before settle after heq payload hs :=
    h.follows before settle (after ++ later) (by rw [heq]; simp) payload hs

/-- **One more event of a ledger**: a claim of envelopes that are free, or the settle of a claim that
has none. -/
theorem Ledger.snoc (h : Ledger codec events)
    (hclaim : event.kind = .ioIngressClaimed → ∃ payload, Claims codec event payload ∧
      payload.ingressEnvelopeIds.Nodup ∧ ∀ id ∈ payload.ingressEnvelopeIds, ¬ Covered codec events id)
    (hsettle : event.kind = .ioIngressSettled → ∃ payload, Settles codec event payload ∧
      (∀ settle ∈ events, ∀ payload', Settles codec settle payload' →
        payload'.claimEventId ≠ payload.claimEventId) ∧
      ∃ claim ∈ events, ∃ claimPayload, Claims codec claim claimPayload ∧
        claim.id = payload.claimEventId ∧
        claimPayload.ingressEnvelopeIds = payload.ingressEnvelopeIds) :
    Ledger codec (events ++ [event]) where
  claimed := by
    intro event' he hkind
    rcases List.mem_append.mp he with he | he
    · exact h.claimed event' he hkind
    · obtain rfl := List.mem_singleton.mp he
      obtain ⟨payload, hc, hnodup, -⟩ := hclaim hkind
      exact ⟨payload, hc, hnodup⟩
  settled := by
    intro event' he hkind
    rcases List.mem_append.mp he with he | he
    · exact h.settled event' he hkind
    · obtain rfl := List.mem_singleton.mp he
      obtain ⟨payload, hs, -⟩ := hsettle hkind
      exact ⟨payload, hs⟩
  disjoint := by
    refine List.pairwise_append.mpr ⟨h.disjoint, List.pairwise_singleton .., ?_⟩
    intro event' he later hlater payload payload' hc hc' id hid hid'
    obtain rfl := List.mem_singleton.mp hlater
    obtain ⟨payload'', hc'', -, hfree⟩ := hclaim hc'.1
    obtain rfl := hc'.unique hc''
    exact hfree id hid' ⟨event', he, payload, hc, hid⟩
  once := by
    refine List.pairwise_append.mpr ⟨h.once, List.pairwise_singleton .., ?_⟩
    intro event' he later hlater payload payload' hs hs'
    obtain rfl := List.mem_singleton.mp hlater
    obtain ⟨payload'', hs'', hfree, -⟩ := hsettle hs'.1
    obtain rfl := hs'.unique hs''
    exact hfree event' he payload hs
  follows := by
    intro before settle after heq payload hs
    rcases List.eq_nil_or_concat after with rfl | ⟨after, last, rfl⟩
    · obtain ⟨rfl, hlast⟩ := List.append_inj' heq rfl
      obtain rfl := (List.cons.inj hlast).1
      obtain ⟨payload', hs', -, claim, hmem, hclaim⟩ := hsettle hs.1
      obtain rfl := hs.unique hs'
      exact ⟨claim, hmem, hclaim⟩
    · rw [List.concat_eq_append, ← List.cons_append, ← List.append_assoc] at heq
      exact h.follows before settle after (List.append_inj' heq rfl).1 payload hs

theorem Ledger.snoc_other (h : Ledger codec events) (hclaimed : event.kind ≠ .ioIngressClaimed)
    (hsettled : event.kind ≠ .ioIngressSettled) : Ledger codec (events ++ [event]) :=
  h.snoc (fun hkind => absurd hkind hclaimed) (fun hkind => absurd hkind hsettled)

/-! ### What the fold gathers -/

/-- The fold has every claim by its envelopes and every settle by its claim. -/
structure OutcomeFold.Of (codec : OutcomeCodec) (events : List EventRecord) (fold : OutcomeFold) :
    Prop where
  owners : ∀ envelopeId claim payload,
    fold.ownerByEnvelope.lookup envelopeId = some (claim, payload) ↔
      claim ∈ events ∧ Claims codec claim payload ∧ envelopeId ∈ payload.ingressEnvelopeIds
  settles : ∀ claimId settle payload, fold.settles.lookup claimId = some (settle, payload) ↔
    settle ∈ events ∧ Settles codec settle payload ∧ payload.claimEventId = claimId

variable {ids : List String}

theorem own_ok {claim : EventRecord × IoIngressClaimedPayload}
    {owners owners' : Map String (EventRecord × IoIngressClaimedPayload)}
    (h : OutcomeFold.own claim owners ids = .ok owners') :
    (∀ id ∈ ids, owners.lookup id = none) ∧
      ∀ id, owners'.lookup id = if id ∈ ids then some claim else owners.lookup id := by
  induction ids generalizing owners with
  | nil =>
    cases h
    exact ⟨fun id hid => absurd hid List.not_mem_nil, fun id => (if_neg List.not_mem_nil).symm⟩
  | cons first rest ih =>
    rw [OutcomeFold.own] at h
    split at h
    · cases h
    · rename_i hfree
      obtain ⟨hfresh, hlookup⟩ := ih h
      have hfirst : owners.lookup first = none := by simpa using hfree
      refine ⟨?_, fun id => ?_⟩
      · intro id hid
        by_cases heq : id = first
        · exact heq ▸ hfirst
        · have := hfresh id ((List.mem_cons.mp hid).resolve_left heq)
          rwa [Map.lookup_insert, if_neg heq] at this
      · rw [hlookup id, Map.lookup_insert]
        by_cases heq : id = first <;> simp [heq]

theorem own_of_fresh (claim : EventRecord × IoIngressClaimedPayload)
    {owners : Map String (EventRecord × IoIngressClaimedPayload)} (hnodup : ids.Nodup)
    (hfresh : ∀ id ∈ ids, owners.lookup id = none) :
    ∃ owners', OutcomeFold.own claim owners ids = .ok owners' := by
  induction ids generalizing owners with
  | nil => exact ⟨owners, rfl⟩
  | cons first rest ih =>
    obtain ⟨hnew, hrest⟩ := List.nodup_cons.mp hnodup
    rw [OutcomeFold.own, if_neg (by simp [hfresh first List.mem_cons_self])]
    refine ih hrest fun id hid => ?_
    have hne : id ≠ first := by
      rintro rfl
      exact hnew hid
    rw [Map.lookup_insert, if_neg hne]
    exact hfresh id (.tail _ hid)

theorem OutcomeFold.Of.empty : OutcomeFold.empty.Of codec [] :=
  ⟨by simp [OutcomeFold.empty], by simp [OutcomeFold.empty]⟩

/-- The events of another kind stay the same. -/
theorem mem_concat_of_kind {other : EventRecord} (h : other.kind ≠ event.kind) :
    other ∈ events ↔ other ∈ events ++ [event] := by
  have hne : other ≠ event := fun hsame => h (congrArg EventRecord.kind hsame)
  simp [hne]

theorem OutcomeFold.Of.take {fold fold' : OutcomeFold} (hof : fold.Of codec events)
    (h : fold.take codec event = .ok fold') : fold'.Of codec (events ++ [event]) := by
  unfold OutcomeFold.take at h
  split at h
  · rename_i hkind
    simp only [bind_ok, decodeIo_ok, pure_ok] at h
    obtain ⟨payload, hpayload, owners, hown, rfl⟩ := h
    obtain ⟨hfresh, hlookup⟩ := own_ok hown
    have hclaims : Claims codec event payload := ⟨hkind, hpayload⟩
    refine ⟨fun id claim payload' => ?_, fun claimId settle payload' => ?_⟩
    · rw [hlookup id, List.mem_append, List.mem_singleton]
      constructor
      · intro hsome
        split at hsome
        · rename_i hid
          cases hsome
          exact ⟨.inr rfl, hclaims, hid⟩
        · obtain ⟨hmem, hrest⟩ := (hof.owners id claim payload').mp hsome
          exact ⟨.inl hmem, hrest⟩
      · rintro ⟨hmem | rfl, hc, hid⟩
        · have hold := (hof.owners id claim payload').mpr ⟨hmem, hc, hid⟩
          rw [if_neg, hold]
          intro hin
          rw [hfresh id hin] at hold
          cases hold
        · obtain rfl := hc.unique hclaims
          rw [if_pos hid]
    · rw [hof.settles]
      exact and_congr_left fun hs => mem_concat_of_kind (by simp [hs.1.1, hkind])
  · rename_i hkind
    simp only [bind_ok, decodeIo_ok] at h
    obtain ⟨payload, hpayload, h⟩ := h
    split at h
    · cases h
    · rename_i hfree
      cases h
      have hnone : fold.settles.lookup payload.claimEventId = none := by simpa using hfree
      have hsettles : Settles codec event payload := ⟨hkind, hpayload⟩
      refine ⟨fun id claim payload' => ?_, fun claimId settle payload' => ?_⟩
      · rw [hof.owners]
        exact and_congr_left fun hc => mem_concat_of_kind (by simp [hc.1.1, hkind])
      · rw [Map.lookup_insert, List.mem_append, List.mem_singleton]
        constructor
        · intro hsome
          split at hsome
          · rename_i hid
            cases hsome
            exact ⟨.inr rfl, hsettles, hid.symm⟩
          · obtain ⟨hmem, hrest⟩ := (hof.settles claimId settle payload').mp hsome
            exact ⟨.inl hmem, hrest⟩
        · rintro ⟨hmem | rfl, hs, hid⟩
          · have hold := (hof.settles claimId settle payload').mpr ⟨hmem, hs, hid⟩
            rw [if_neg, hold]
            rintro rfl
            rw [hnone] at hold
            cases hold
          · obtain rfl := hs.unique hsettles
            rw [if_pos hid.symm]
  · rename_i hclaimed hsettled
    cases h
    refine ⟨fun id claim payload' => ?_, fun claimId settle payload' => ?_⟩
    · rw [hof.owners]
      exact and_congr_left fun hc => mem_concat_of_kind (hc.1.1 ▸ Ne.symm hclaimed)
    · rw [hof.settles]
      exact and_congr_left fun hs => mem_concat_of_kind (hs.1.1 ▸ Ne.symm hsettled)

theorem OutcomeFold.of_foldlM {fold : OutcomeFold}
    (h : events.foldlM (OutcomeFold.take codec) .empty = .ok fold) : fold.Of codec events := by
  induction events using List.reverseRecOn generalizing fold with
  | nil =>
    cases h
    exact .empty
  | append_singleton before event ih =>
    rw [List.foldlM_append, bind_ok] at h
    obtain ⟨fold₁, hbefore, hlast⟩ := h
    simp only [List.foldlM_cons, List.foldlM_nil, bind_ok, pure_ok] at hlast
    obtain ⟨_, hlast, rfl⟩ := hlast
    exact (ih hbefore).take hlast

/-- **The fold reads every ledger through.** -/
theorem foldlM_of_ledger (h : Ledger codec events) :
    ∃ fold, events.foldlM (OutcomeFold.take codec) .empty = .ok fold := by
  induction events using List.reverseRecOn with
  | nil => exact ⟨.empty, rfl⟩
  | append_singleton before event ih =>
    obtain ⟨fold, hbefore⟩ := ih h.left
    have hof := OutcomeFold.of_foldlM hbefore
    suffices ∃ fold', fold.take codec event = .ok fold' by
      obtain ⟨fold', hlast⟩ := this
      refine ⟨fold', ?_⟩
      rw [List.foldlM_append, hbefore]
      exact congrArg (· >>= pure) hlast
    have hmem : event ∈ before ++ [event] := by simp
    have hlater : ∀ earlier ∈ before, ∀ {P : EventRecord → EventRecord → Prop},
        (before ++ [event]).Pairwise P → P earlier event := fun earlier he P hp =>
      (List.pairwise_append.mp hp).2.2 earlier he event (by simp)
    unfold OutcomeFold.take
    split
    · rename_i hkind
      obtain ⟨payload, hclaims, hnodup⟩ := h.claimed event hmem hkind
      have hfresh : ∀ id ∈ payload.ingressEnvelopeIds, fold.ownerByEnvelope.lookup id = none := by
        intro id hid
        rw [Option.eq_none_iff_forall_ne_some]
        rintro ⟨claim, payload'⟩ hsome
        obtain ⟨hclaim, hc, hid'⟩ := (hof.owners id claim payload').mp hsome
        exact hlater claim hclaim h.disjoint payload' payload hc hclaims hid' hid
      obtain ⟨owners, hown⟩ := own_of_fresh (event, payload) hnodup hfresh
      refine ⟨{ fold with ownerByEnvelope := owners }, ?_⟩
      simp only [bind_ok, decodeIo_ok, pure_ok]
      exact ⟨payload, hclaims.2, owners, hown, rfl⟩
    · rename_i hkind
      obtain ⟨payload, hsettles⟩ := h.settled event hmem hkind
      have hfree : fold.settles.lookup payload.claimEventId = none := by
        rw [Option.eq_none_iff_forall_ne_some]
        rintro ⟨settle, payload'⟩ hsome
        obtain ⟨hsettle, hs, hid⟩ := (hof.settles _ settle payload').mp hsome
        exact hlater settle hsettle h.once payload' payload hs hsettles hid
      refine ⟨{ fold with settles := fold.settles.insert payload.claimEventId (event, payload) }, ?_⟩
      simp only [bind_ok, decodeIo_ok]
      refine ⟨payload, hsettles.2, ?_⟩
      rw [hfree]
      rfl
    · exact ⟨fold, rfl⟩

/-! ### What the fold answers -/

/-- Claims of this id cover the envelopes. -/
def CoveredBy (codec : OutcomeCodec) (events : List EventRecord) (ids : List String)
    (claimId : EventRecordId) : Prop :=
  ∀ id ∈ ids, ∃ claim ∈ events, ∃ payload, Claims codec claim payload ∧
    id ∈ payload.ingressEnvelopeIds ∧ claim.id = claimId

/-- The events show that this became of the envelopes. -/
def Shows (codec : OutcomeCodec) (events : List EventRecord) (ids : List String) :
    IngressOutcomeState → Prop
  | .missing => ∀ id ∈ ids, ¬ Covered codec events id
  | .claimed claim payload =>
    claim ∈ events ∧ Claims codec claim payload ∧ CoveredBy codec events ids claim.id ∧
      ∀ settle ∈ events, ∀ settlePayload, Settles codec settle settlePayload →
        settlePayload.claimEventId ≠ claim.id
  | .settled claimPayload settle =>
    ∃ claim ∈ events, Claims codec claim claimPayload ∧ CoveredBy codec events ids claim.id ∧
      settle ∈ events ∧ ∃ settlePayload, Settles codec settle settlePayload ∧
        settlePayload.claimEventId = claim.id ∧
        settlePayload.ingressEnvelopeIds = claimPayload.ingressEnvelopeIds

section
variable {fold : OutcomeFold} {requested : List String}

theorem OutcomeFold.Of.lookup_eq_none (hof : fold.Of codec events) {id : String} :
    fold.ownerByEnvelope.lookup id = none ↔ ¬ Covered codec events id := by
  rw [Option.eq_none_iff_forall_ne_some]
  constructor
  · rintro h ⟨claim, hmem, payload, hc, hid⟩
    exact h (claim, payload) ((hof.owners id claim payload).mpr ⟨hmem, hc, hid⟩)
  · rintro h ⟨claim, payload⟩ hsome
    obtain ⟨hmem, hc, hid⟩ := (hof.owners id claim payload).mp hsome
    exact h ⟨claim, hmem, payload, hc, hid⟩

/-- **What the fold answers is there.** -/
theorem OutcomeFold.Of.shows (hof : fold.Of codec events) {state : IngressOutcomeState}
    (h : fold.outcome requested = .ok state) : Shows codec events requested state := by
  unfold OutcomeFold.outcome at h
  cases hlast : (requested.filterMap fold.ownerByEnvelope.lookup).getLast? with
  | none =>
    simp only [hlast, Except.ok.injEq] at h
    subst h
    intro id hid
    rw [List.getLast?_eq_none_iff, List.filterMap_eq_nil_iff] at hlast
    exact hof.lookup_eq_none.mp (hlast id hid)
  | some owner =>
    obtain ⟨claim, payload⟩ := owner
    simp only [hlast] at h
    split_ifs at h with hlen hany
    have hall : ∀ id ∈ requested, (fold.ownerByEnvelope.lookup id).isSome :=
      List.filterMap_length_eq_length.mp (not_not.mp hlen)
    have hcovered : CoveredBy codec events requested claim.id := by
      intro id hid
      obtain ⟨⟨claim', payload'⟩, hsome⟩ := Option.isSome_iff_exists.mp (hall id hid)
      obtain ⟨hmem, hc, hin⟩ := (hof.owners id claim' payload').mp hsome
      refine ⟨claim', hmem, payload', hc, hin, ?_⟩
      by_contra hne
      refine hany (List.any_eq_true.mpr ⟨_, List.mem_filterMap.mpr ⟨id, hid, hsome⟩, ?_⟩)
      exact decide_eq_true hne
    obtain ⟨id, -, hsome⟩ := List.mem_filterMap.mp (List.mem_of_getLast? hlast)
    obtain ⟨hmem, hc, -⟩ := (hof.owners id claim payload).mp hsome
    cases hsettle : fold.settles.lookup claim.id with
    | none =>
      simp only [hsettle, Except.ok.injEq] at h
      subst h
      refine ⟨hmem, hc, hcovered, ?_⟩
      intro settle hs settlePayload hsp heq
      have := (hof.settles claim.id settle settlePayload).mpr ⟨hs, hsp, heq⟩
      rw [hsettle] at this
      cases this
    | some found =>
      obtain ⟨settle, settlePayload⟩ := found
      simp only [hsettle] at h
      split_ifs at h with hids
      cases h
      obtain ⟨hs, hsp, heq⟩ := (hof.settles claim.id settle settlePayload).mp hsettle
      exact ⟨claim, hmem, hc, hcovered, hs, settlePayload, hsp, heq, not_not.mp hids⟩

/-- **What `ingress_outcome_fold` answers is there.** -/
theorem shows_of_ok {state : IngressOutcomeState}
    (h : ingressOutcomeFold codec events ids = .ok state) : Shows codec events ids state := by
  unfold ingressOutcomeFold at h
  split at h
  · rename_i hnil
    cases h
    intro id hid
    rw [hnil] at hid
    exact (List.not_mem_nil hid).elim
  · obtain ⟨fold, hfold, hstate⟩ := bind_ok.mp h
    have hshows := (OutcomeFold.of_foldlM hfold).shows hstate
    unfold Shows CoveredBy at hshows ⊢
    simpa only [List.mem_dedup] using hshows

/-! ### Ledgers -/

theorem eq_of_id (hunique : (events.map (·.id)).Nodup) {event' : EventRecord} (h : event ∈ events)
    (h' : event' ∈ events) (heq : event.id = event'.id) : event = event' :=
  List.inj_on_of_nodup_map hunique h h' heq

theorem Ledger.claim_unique (h : Ledger codec events) {claim claim' : EventRecord}
    {payload' : IoIngressClaimedPayload} {id : String} (hmem : claim ∈ events)
    (hmem' : claim' ∈ events) (hc : Claims codec claim payload) (hc' : Claims codec claim' payload')
    (hid : id ∈ payload.ingressEnvelopeIds) (hid' : id ∈ payload'.ingressEnvelopeIds) :
    claim = claim' := by
  -- Both are what the fold has at the envelope.
  obtain ⟨fold, hfold⟩ := foldlM_of_ledger h
  have hof := OutcomeFold.of_foldlM hfold
  have hfound := (hof.owners id claim payload).mpr ⟨hmem, hc, hid⟩
  rw [(hof.owners id claim' payload').mpr ⟨hmem', hc', hid'⟩] at hfound
  cases hfound
  rfl

theorem Ledger.settle_unique (h : Ledger codec events) {settle settle' : EventRecord}
    {payload payload' : IoIngressSettledPayload} (hmem : settle ∈ events) (hmem' : settle' ∈ events)
    (hs : Settles codec settle payload) (hs' : Settles codec settle' payload')
    (heq : payload.claimEventId = payload'.claimEventId) : settle = settle' := by
  obtain ⟨fold, hfold⟩ := foldlM_of_ledger h
  have hof := OutcomeFold.of_foldlM hfold
  have hfound := (hof.settles _ settle payload).mpr ⟨hmem, hs, rfl⟩
  rw [heq, (hof.settles _ settle' payload').mpr ⟨hmem', hs', rfl⟩] at hfound
  cases hfound
  rfl

theorem Ledger.settled_ids (h : Ledger codec events) (hunique : (events.map (·.id)).Nodup)
    {claim settle : EventRecord} {settlePayload : IoIngressSettledPayload} (hmem : claim ∈ events)
    (hc : Claims codec claim payload) (hsmem : settle ∈ events)
    (hs : Settles codec settle settlePayload) (heq : settlePayload.claimEventId = claim.id) :
    settlePayload.ingressEnvelopeIds = payload.ingressEnvelopeIds := by
  obtain ⟨before, after, hsplit⟩ := List.append_of_mem hsmem
  obtain ⟨claim', hbefore, payload', hc', hid, hids⟩ :=
    h.follows before settle after hsplit settlePayload hs
  have hmem' : claim' ∈ events := by
    rw [hsplit]
    exact List.mem_append_left _ hbefore
  obtain rfl := eq_of_id hunique hmem' hmem (hid.trans heq)
  rw [← hids, hc'.unique hc]

/-- **What the fold of a ledger fails with.** -/
theorem ingressOutcomeFold_error (h : Ledger codec events) (hunique : (events.map (·.id)).Nodup)
    {e : IoError} (herror : ingressOutcomeFold codec events ids = .error e) :
    e = partialOverlap ∨ e = differentClaims := by
  unfold ingressOutcomeFold at herror
  split at herror
  · cases herror
  · obtain ⟨fold, hfold⟩ := foldlM_of_ledger h
    have hof := OutcomeFold.of_foldlM hfold
    rw [hfold] at herror
    change fold.outcome ids.dedup = .error e at herror
    unfold OutcomeFold.outcome at herror
    cases hlast : (ids.dedup.filterMap fold.ownerByEnvelope.lookup).getLast? with
    | none =>
      simp only [hlast] at herror
      cases herror
    | some owner =>
      obtain ⟨claim, payload⟩ := owner
      simp only [hlast] at herror
      split_ifs at herror with hlen hany
      · cases herror
        exact .inl rfl
      · cases herror
        exact .inr rfl
      · obtain ⟨id, -, hsome⟩ := List.mem_filterMap.mp (List.mem_of_getLast? hlast)
        obtain ⟨hmem, hc, -⟩ := (hof.owners id claim payload).mp hsome
        cases hsettle : fold.settles.lookup claim.id with
        | none =>
          simp only [hsettle] at herror
          cases herror
        | some found =>
          obtain ⟨settle, settlePayload⟩ := found
          obtain ⟨hs, hsp, heq⟩ := (hof.settles claim.id settle settlePayload).mp hsettle
          simp only [hsettle] at herror
          rw [if_neg (not_not.mpr (h.settled_ids hunique hmem hc hs hsp heq))] at herror
          cases herror

end

end Verlet.Daemon
