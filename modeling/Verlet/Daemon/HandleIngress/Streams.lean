import Verlet.Agent.AgentLoop.Verdict.Settling
import Verlet.Daemon.HandleIngress
import Verlet.Kernel.ControlDecision.Continuations
import Verlet.Kernel.ThreadSpawnProjector.Decisions

/-!
# Daemon — Thread handle ingress — Streams

What stands in a control stream that the spawn projector and the joins have written, and what the two
folds make of it.

* `writes_spawnRequest`, `writes_spawnedRecord`, `writes_threadJoinedRecord`: what is appended may stand
  there.
-/

namespace Verlet.Daemon.HandleIngress
open Support Kernel Io History
open RemoteStore (DispatchId)
open Agent (ThreadJoin)

/-- A control stream, record after record. -/
inductive Written : List EventRecord → Prop
  | nil : Written []
  | append {before : List EventRecord} {event : EventRecord} (hbefore : Written before)
      (hid : ∀ row ∈ before, row.id ≠ event.id) (hwrites : SpawnWrites before event) :
      Written (before ++ [event])

variable {events : List EventRecord} {spawned spawned' joined : EventRecord}
  {binding binding' : ThreadHandleBinding}

/-! ### Any two records -/

/-- What a record has to each that stands before it, any two of the stream have one way or the other. -/
theorem Written.either {R : EventRecord → EventRecord → Prop}
    (hR : ∀ before event, SpawnWrites before event → ∀ other ∈ before, other.id ≠ event.id → R other event)
    (h : Written events) {a b : EventRecord} (ha : a ∈ events) (hb : b ∈ events) (hne : a ≠ b) :
    R a b ∨ R b a := by
  induction h with
  | nil => cases ha
  | @append before event hbefore hid hwrites ih =>
    rcases List.mem_append.mp ha with ha' | ha' <;> rcases List.mem_append.mp hb with hb' | hb'
    · exact ih ha' hb'
    · obtain rfl := List.mem_singleton.mp hb'
      exact .inl (hR before b hwrites a ha' (hid a ha'))
    · obtain rfl := List.mem_singleton.mp ha'
      exact .inr (hR before a hwrites b hb' (hid b hb'))
    · exact absurd ((List.mem_singleton.mp ha').trans (List.mem_singleton.mp hb').symm) hne

theorem Written.eq_of_id (h : Written events) {a b : EventRecord} (ha : a ∈ events) (hb : b ∈ events)
    (hid : a.id = b.id) : a = b := by
  by_contra hne
  rcases h.either (R := fun a b => a.id ≠ b.id) (fun _ _ _ _ _ hne => hne) ha hb hne with hab | hba
  · exact hab hid
  · exact hba hid.symm

section Writes
variable {before : List EventRecord} {event : EventRecord}

theorem kind_of_isSpawnRequest (h : isSpawnRequest event = true) : event.kind = .threadSpawnRequested :=
  (of_decide_eq_true h).1

theorem SpawnWrites.of_spawned (h : SpawnWrites before event) (hkind : event.kind = .threadSpawned)
    (hcorrelation : rawCorrelation event ≠ none) :
    ∃ request requested payload, WritesSpawned before event request requested payload := by
  cases h with
  | requested hrequest hnew => simp [kind_of_isSpawnRequest hrequest] at hkind
  | spawned hspawned => exact ⟨_, _, _, hspawned⟩
  | unbound _ hnone => exact absurd hnone hcorrelation
  | joined hjoined => simp [hjoined.hkind] at hkind
  | other _ hspawned _ => exact absurd hkind hspawned

theorem SpawnWrites.of_joined (h : SpawnWrites before event) (hkind : event.kind = .threadJoined) :
    ∃ spawned payload, WritesJoined before event spawned payload := by
  cases h with
  | requested hrequest hnew => simp [kind_of_isSpawnRequest hrequest] at hkind
  | spawned hspawned => simp [hspawned.hkind] at hkind
  | unbound hspawned _ => simp [hspawned] at hkind
  | joined hjoined => exact ⟨_, _, hjoined⟩
  | other _ _ hjoined => exact absurd hkind hjoined

theorem SpawnWrites.request_new (h : SpawnWrites before event) {dispatchId : DispatchId}
    (hfound : requestOf dispatchId event ≠ none) : before.findSome? (requestOf dispatchId) = none := by
  have hrequest : isSpawnRequest event = true := by
    by_contra hnot
    exact hfound (if_pos hnot)
  have hkind := kind_of_isSpawnRequest hrequest
  cases h with
  | requested _ hnew => exact hnew dispatchId hfound
  | spawned hspawned => simp [hspawned.hkind] at hkind
  | unbound hspawned _ => simp [hspawned] at hkind
  | joined hjoined => simp [hjoined.hkind] at hkind
  | other hnot _ _ => simp [hrequest] at hnot

end Writes

variable (h : Written events)

include h

theorem Written.spawned_eq (hmem : spawned ∈ events) (hmem' : spawned' ∈ events)
    (hkind : spawned.kind = .threadSpawned) (hkind' : spawned'.kind = .threadSpawned)
    {correlationId : String} (hid : rawCorrelation spawned = some correlationId)
    (hid' : rawCorrelation spawned' = some correlationId) : spawned = spawned' := by
  by_contra hne
  have hfirst := h.either (R := fun a b => a.kind = .threadSpawned → b.kind = .threadSpawned →
      rawCorrelation b ≠ none → rawCorrelation a ≠ rawCorrelation b)
    (fun before event hwrites other hother _ hk hk' hc => ?_) hmem hmem' hne
  · rcases hfirst with hfirst | hfirst
    · exact hfirst hkind hkind' (by simp [hid']) (hid.trans hid'.symm)
    · exact hfirst hkind' hkind (by simp [hid]) (hid'.trans hid.symm)
  · obtain ⟨request, requested, payload, hspawned⟩ := hwrites.of_spawned hk' hc
    rw [hspawned.hcorrelation]
    exact hspawned.hfirst other hother hk

theorem Written.spawned_coordinates (hmem : spawned ∈ events)
    (hmem' : spawned' ∈ events) (hkind : spawned.kind = .threadSpawned)
    (hkind' : spawned'.kind = .threadSpawned) (hid : rawCorrelation spawned ≠ none)
    (hid' : rawCorrelation spawned' ≠ none) : spawned.coordinates = spawned'.coordinates := by
  by_cases hsame : spawned = spawned'
  · rw [hsame]
  · have hthread := h.either (R := fun a b => a.kind = .threadSpawned → b.kind = .threadSpawned →
        rawCorrelation a ≠ none → rawCorrelation b ≠ none → a.coordinates = b.coordinates)
      (fun before event hwrites other hother _ hk hk' hc hc' => ?_) hmem hmem' hsame
    · rcases hthread with hthread | hthread
      · exact hthread hkind hkind' hid hid'
      · exact (hthread hkind' hkind hid' hid).symm
    · obtain ⟨request, requested, payload, hspawned⟩ := hwrites.of_spawned hk' hc'
      exact hspawned.hthread other hother hk hc

/-! ### Requests and bindings -/

theorem Written.findSome_request {dispatchId : DispatchId} {request : EventRecord}
    {found : EventRecord × ThreadSpawnRequestedPayload} (hmem : request ∈ events)
    (hrequest : requestOf dispatchId request = some found) :
    events.findSome? (requestOf dispatchId) = some found := by
  induction h with
  | nil => cases hmem
  | @append before event hbefore hid hwrites ih =>
    rw [List.findSome?_append]
    rcases List.mem_append.mp hmem with hmem | hmem
    · rw [ih hmem, Option.some_or]
    · obtain rfl := List.mem_singleton.mp hmem
      rw [hwrites.request_new (by simp [hrequest]), Option.none_or, List.findSome?_cons, hrequest]

/-- **Every child has its request**, if it carries a correlation id. -/
theorem Written.binds (hmem : spawned ∈ events) (hkind : spawned.kind = .threadSpawned)
    {correlationId : String} (hcorrelation : rawCorrelation spawned = some correlationId) :
    ∃ binding, bindingOf events spawned = .ok (some binding) := by
  induction h with
  | nil => cases hmem
  | @append before event hbefore hid hwrites ih =>
    rcases List.mem_append.mp hmem with hmem | hmem
    · obtain ⟨binding, hbinding⟩ := ih hmem
      exact ⟨binding, bindingOf_append [event] hbinding⟩
    · obtain rfl := List.mem_singleton.mp hmem
      obtain ⟨request, requested, payload, hspawned⟩ := hwrites.of_spawned hkind (by simp [hcorrelation])
      refine ⟨⟨request.id, spawned.id, submittedTurnOf request requested, spawned.coordinates,
        ⟨requested.correlationId⟩, .thread payload.childThreadId⟩, ?_⟩
      exact bindingOf_append [spawned] (bindingOf_some.mpr ⟨payload, request, requested, hspawned.hpayload,
        hspawned.hparent, hspawned.hcorrelation, hbefore.findSome_request hspawned.hmem hspawned.hrequest,
        hspawned.hrequested, hspawned.hsource, rfl⟩)

/-- **The bindings of a stream are its children's.** -/
theorem Written.bindable : Bindable events where
  requested spawned hmem hkind := by
    cases hcorrelation : rawCorrelation spawned with
    | none => exact ⟨none, by rw [bindingOf, hcorrelation]⟩
    | some correlationId =>
      obtain ⟨binding, hbinding⟩ := h.binds hmem hkind hcorrelation
      exact ⟨some binding, hbinding⟩
  distinct spawned spawned' binding binding' hbinds hbinds' hid :=
    h.spawned_eq hbinds.1 hbinds'.1 hbinds.2.1 hbinds'.2.1 hbinds.correlation
      (by rw [hid]; exact hbinds'.correlation)

theorem Written.consumer_eq (hbinds : Binds events spawned binding)
    (hbinds' : Binds events spawned' binding') : binding.consumer = binding'.consumer := by
  rw [hbinds.consumer, hbinds'.consumer]
  exact h.spawned_coordinates hbinds.1 hbinds'.1 hbinds.2.1 hbinds'.2.1 (by simp [hbinds.correlation])
    (by simp [hbinds'.correlation])

theorem Written.binding_eq (hbinds : Binds events spawned binding)
    (hbinds' : Binds events spawned' binding')
    (hid : binding.spawnedEventId.uuid.text = binding'.spawnedEventId.uuid.text) : binding = binding' := by
  have huuid : binding.spawnedEventId.uuid = binding'.spawnedEventId.uuid := Uuid.text_injective hid
  have hevent : binding.spawnedEventId = binding'.spawnedEventId := congrArg EventRecordId.mk huuid
  have hspawned : spawned.id = spawned'.id := by
    rw [← hbinds.spawnedEventId, ← hbinds'.spawnedEventId, hevent]
  obtain rfl := h.eq_of_id hbinds.1 hbinds'.1 hspawned
  exact Option.some.inj (Except.ok.inj (hbinds.2.2.symm.trans hbinds'.2.2))

/-! ### Joins -/

variable {spawnedEventId : String}

theorem Written.joined_eq {joined' : EventRecord} (hmem : joined ∈ events)
    (hmem' : joined' ∈ events) (hkind : joined.kind = .threadJoined)
    (hkind' : joined'.kind = .threadJoined) (hspawn : joinsSpawn joined = some spawnedEventId)
    (hspawn' : joinsSpawn joined' = some spawnedEventId) : joined = joined' := by
  by_contra hne
  have hfirst := h.either (R := fun a b => a.kind = .threadJoined → b.kind = .threadJoined →
      joinsSpawn a ≠ joinsSpawn b) (fun before event hwrites other hother _ hk hk' => ?_) hmem hmem' hne
  · rcases hfirst with hfirst | hfirst
    · exact hfirst hkind hkind' (hspawn.trans hspawn'.symm)
    · exact hfirst hkind' hkind (hspawn'.trans hspawn.symm)
  · obtain ⟨spawned, payload, hjoined⟩ := hwrites.of_joined hk'
    rw [hjoined.hspawn]
    exact hjoined.hfirst other hother hk

theorem Written.joins (hmem : joined ∈ events) (hkind : joined.kind = .threadJoined) :
    ∃ spawned ∈ events, ∃ payload, spawned.kind = .threadSpawned ∧
      (spawned.payload.index "child_thread_id").asStr = some payload.childThreadId.uuid.text ∧
      Agent.Wire.joined.fromValue joined.payload = .ok payload ∧
      joinsSpawn joined = some spawned.id.uuid.text := by
  induction h with
  | nil => cases hmem
  | @append before event hbefore hid hwrites ih =>
    rcases List.mem_append.mp hmem with hmem | hmem
    · obtain ⟨spawned, hspawned, hrest⟩ := ih hmem
      exact ⟨spawned, List.mem_append_left _ hspawned, hrest⟩
    · obtain rfl := List.mem_singleton.mp hmem
      obtain ⟨spawned, payload, hjoined⟩ := hwrites.of_joined hkind
      exact ⟨spawned, List.mem_append_left _ hjoined.hmem, payload, hjoined.hspawned, hjoined.hchild,
        hjoined.hpayload, hjoined.hspawn⟩

omit h

/-! ### The fold of the joins -/

theorem settlementOf_ok {consumer : ThreadCoordinates} {settlement : ThreadTerminalSettlement} :
    settlementOf consumer joined binding = .ok settlement ↔
      ∃ payload, Agent.Wire.joined.fromValue joined.payload = .ok payload ∧ binding.consumer = consumer ∧
        payload.childThreadId.uuid.text = binding.handle.id ∧
        settlement = ⟨binding.consumer, binding.dispatchId, payload.childThreadId, payload.terminalState,
          payload.resultDigest⟩ := by
  simp only [settlementOf, bind_ok, decodeOr_ok]
  refine exists_congr fun payload => and_congr_right fun _ => ?_
  by_cases hconsumer : binding.consumer = consumer
  · by_cases hchild : payload.childThreadId.uuid.text = binding.handle.id
    · rw [if_neg (by simp [hconsumer, hchild]), pure_ok]
      simp [hconsumer, hchild, eq_comm]
    · simp [hconsumer, hchild]
  · simp [hconsumer]

def Settles (consumer : ThreadCoordinates) (bindings : SpawnBindings) (joined : EventRecord)
    (settled : String × ThreadTerminalSettlement) : Prop :=
  joinsSpawn joined = some settled.1 ∧ ∃ binding, bindings.get? settled.1 = some binding ∧
    settlementOf consumer joined binding = .ok settled.2

section Fold
variable {consumer : ThreadCoordinates} {bindings : SpawnBindings}
  {settlements settlements' : ThreadTerminalSettlements}

theorem keepSettlement_ok {settlement : ThreadTerminalSettlement}
    (h : keepSettlement settlements spawnedEventId settlement = .ok settlements')
    (settled : String × ThreadTerminalSettlement) :
    settled ∈ settlements'.values ↔ settled = (spawnedEventId, settlement) ∨ settled ∈ settlements.values := by
  unfold keepSettlement at h
  split at h
  · cases h
  · next hagrees =>
    obtain rfl := Except.ok.inj h
    refine Keyed.mem_insert_of_agrees fun existing hexisting => ?_
    have hid : existing.1 = spawnedEventId := Keyed.key_of_get? hexisting
    have hsettlement : existing.2 = settlement := by
      by_contra hne
      exact hagrees ((Option.any_eq_true ..).mpr ⟨existing, hexisting, decide_eq_true hne⟩)
    exact Prod.ext hid hsettlement

/-- **One join of the loop.** -/
theorem takeJoin_ok (h : takeJoin consumer bindings settlements joined = .ok settlements')
    (settled : String × ThreadTerminalSettlement) :
    settled ∈ settlements'.values ↔ Settles consumer bindings joined settled ∨ settled ∈ settlements.values := by
  unfold takeJoin at h
  unfold Settles
  cases hspawn : joinsSpawn joined with
  | none =>
    rw [hspawn] at h
    obtain rfl := Except.ok.inj h
    simp
  | some spawnedEventId =>
    rw [hspawn] at h
    dsimp only at h
    cases hbinding : bindings.get? spawnedEventId with
    | none =>
      rw [hbinding] at h
      obtain rfl := Except.ok.inj h
      refine (or_iff_right ?_).symm
      rintro ⟨hid, binding, hget, -⟩
      obtain rfl := Option.some.inj hid
      rw [hbinding] at hget
      cases hget
    | some binding =>
      rw [hbinding] at h
      obtain ⟨settlement, hsettlement, h⟩ := bind_ok.mp h
      rw [keepSettlement_ok h]
      refine or_congr_left ⟨?_, ?_⟩
      · rintro rfl
        exact ⟨rfl, binding, hbinding, hsettlement⟩
      · rintro ⟨hid, binding', hget, hsettled⟩
        obtain rfl := Option.some.inj hid
        obtain rfl := Option.some.inj (hbinding.symm.trans hget)
        exact Prod.ext rfl (Except.ok.inj (hsettled.symm.trans hsettlement))

theorem foldlM_takeJoin_ok {joins : List EventRecord}
    (h : joins.foldlM (takeJoin consumer bindings) settlements = .ok settlements')
    (settled : String × ThreadTerminalSettlement) :
    settled ∈ settlements'.values ↔
      (∃ joined ∈ joins, Settles consumer bindings joined settled) ∨ settled ∈ settlements.values := by
  induction joins generalizing settlements with
  | nil =>
    obtain rfl := Except.ok.inj h
    simp
  | cons joined joins ih =>
    obtain ⟨settlements₁, hfirst, hrest⟩ := bind_ok.mp ((List.foldlM_cons ..).symm.trans h)
    rw [ih hrest, takeJoin_ok hfirst, List.exists_mem_cons_iff, or_left_comm, or_assoc]

theorem exists_foldlM_takeJoin {joins : List EventRecord}
    (hsettles : ∀ joined ∈ joins, ∀ spawnedEventId binding, joinsSpawn joined = some spawnedEventId →
      bindings.get? spawnedEventId = some binding →
        ∃ settlement, settlementOf consumer joined binding = .ok settlement)
    (hfirst : ∀ joined ∈ joins, ∀ settled, Settles consumer bindings joined settled →
      ∀ settlement, (settled.1, settlement) ∈ settlements.values → settlement = settled.2)
    (honce : ∀ joined ∈ joins, ∀ joined' ∈ joins, ∀ spawnedEventId, joinsSpawn joined = some spawnedEventId →
      joinsSpawn joined' = some spawnedEventId → joined = joined') :
    ∃ settlements', joins.foldlM (takeJoin consumer bindings) settlements = .ok settlements' := by
  induction joins generalizing settlements with
  | nil => exact ⟨settlements, rfl⟩
  | cons joined joins ih =>
    have hstep : ∃ settlements₁, takeJoin consumer bindings settlements joined = .ok settlements₁ := by
      unfold takeJoin
      cases hspawn : joinsSpawn joined with
      | none => exact ⟨settlements, rfl⟩
      | some spawnedEventId =>
        dsimp only
        cases hbinding : bindings.get? spawnedEventId with
        | none => exact ⟨settlements, rfl⟩
        | some binding =>
          obtain ⟨settlement, hsettlement⟩ :=
            hsettles joined List.mem_cons_self spawnedEventId binding hspawn hbinding
          refine ⟨_, bind_ok.mpr ⟨settlement, hsettlement, if_neg ?_⟩⟩
          -- what is there under the spawn is this settlement
          simp only [Option.any_eq_true, not_exists, not_and, decide_eq_true_eq, not_not]
          intro existing hexisting
          obtain ⟨hmem, hid⟩ := Keyed.get?_eq_some.mp hexisting
          refine hfirst joined List.mem_cons_self (spawnedEventId, settlement)
            ⟨hspawn, binding, hbinding, hsettlement⟩ existing.2 ?_
          rwa [← hid]
    obtain ⟨settlements₁, hstep⟩ := hstep
    have hfirst' : ∀ other ∈ joins, ∀ settled, Settles consumer bindings other settled →
        ∀ settlement, (settled.1, settlement) ∈ settlements₁.values → settlement = settled.2 := by
      intro other hother settled hsettled settlement hmem
      rcases (takeJoin_ok hstep _).mp hmem with hjoined | hmem
      · obtain rfl := honce joined List.mem_cons_self other (List.mem_cons_of_mem _ hother) settled.1
          hjoined.1 hsettled.1
        obtain ⟨binding, hbinding, hsettlement⟩ := hjoined.2
        obtain ⟨binding', hbinding', hsettlement'⟩ := hsettled.2
        obtain rfl := Option.some.inj (hbinding.symm.trans hbinding')
        exact Except.ok.inj (hsettlement.symm.trans hsettlement')
      · exact hfirst other (List.mem_cons_of_mem _ hother) settled hsettled settlement hmem
    obtain ⟨settlements', hrest⟩ := @ih settlements₁
      (fun other hother => hsettles other (List.mem_cons_of_mem _ hother)) hfirst'
      (fun a ha b hb => honce a (List.mem_cons_of_mem _ ha) b (List.mem_cons_of_mem _ hb))
    exact ⟨settlements', (List.foldlM_cons ..).trans (bind_ok.mpr ⟨settlements₁, hstep, hrest⟩)⟩

end Fold

def JoinedIn (events : List EventRecord) (joined : EventRecord) (binding : ThreadHandleBinding) : Prop :=
  joined ∈ events ∧ joined.kind = .threadJoined ∧
    joinsSpawn joined = some binding.spawnedEventId.uuid.text

theorem Written.get_bindings (h : Written events) {found : List ThreadHandleBinding}
    (hfound : ∀ binding, binding ∈ found ↔ ∃ spawned, Binds events spawned binding) :
    (found.foldl Keyed.insert .empty : SpawnBindings).get? spawnedEventId = some binding ↔
      (∃ spawned, Binds events spawned binding) ∧ binding.spawnedEventId.uuid.text = spawnedEventId := by
  have hkey : ∀ a ∈ found, ∀ b ∈ found, a.spawnedEventId.uuid.text = b.spawnedEventId.uuid.text → a = b := by
    intro a ha b hb hid
    obtain ⟨spawned, hbinds⟩ := (hfound a).mp ha
    obtain ⟨spawned', hbinds'⟩ := (hfound b).mp hb
    exact h.binding_eq hbinds hbinds' hid
  rw [Keyed.get?_eq_some, Keyed.mem_foldl_insert hkey, hfound]

/-- **The settlements of a stream** are those of the children that were joined. -/
theorem mem_settlements (h : Written events) {consumer : ThreadCoordinates}
    {settlements : List ThreadTerminalSettlement}
    (hfold : foldTerminalSettlements consumer events = .ok settlements)
    (settlement : ThreadTerminalSettlement) :
    settlement ∈ settlements ↔ ∃ spawned binding joined, Binds events spawned binding ∧
      JoinedIn events joined binding ∧ settlementOf consumer joined binding = .ok settlement := by
  obtain ⟨found, hbindings, hfound⟩ := foldThreadHandleBindings_ok h.bindable
  obtain ⟨found', hbindings', hfold⟩ := bind_ok.mp hfold
  obtain rfl := Except.ok.inj (hbindings.symm.trans hbindings')
  obtain ⟨settled, hjoins, hvalues⟩ := bind_ok.mp hfold
  obtain rfl := Except.ok.inj hvalues
  simp only [List.mem_map, foldlM_takeJoin_ok hjoins, Keyed.values_empty, List.not_mem_nil, or_false,
    List.mem_filter, decide_eq_true_eq, Settles, h.get_bindings hfound, JoinedIn]
  constructor
  · rintro ⟨⟨id, settlement⟩, ⟨joined, ⟨hmem, hkind⟩, hspawn, binding, ⟨⟨spawned, hbinds⟩, rfl⟩, hsettlement⟩,
      rfl⟩
    exact ⟨spawned, binding, joined, hbinds, ⟨hmem, hkind, hspawn⟩, hsettlement⟩
  · rintro ⟨spawned, binding, joined, hbinds, ⟨hmem, hkind, hspawn⟩, hsettlement⟩
    exact ⟨(_, settlement), ⟨joined, ⟨hmem, hkind⟩, hspawn, binding, ⟨⟨spawned, hbinds⟩, rfl⟩, hsettlement⟩, rfl⟩

theorem Written.settles (h : Written events) (hbinds : Binds events spawned binding)
    (hjoined : JoinedIn events joined binding) :
    ∃ settlement, settlementOf binding.consumer joined binding = .ok settlement := by
  obtain ⟨spawned', hmem', joinedPayload, -, hchild, hjoinedPayload, hspawn⟩ := h.joins hjoined.1 hjoined.2.1
  obtain ⟨payload, _, _, hpayload, -, -, -, -, -, hbinding⟩ := bindingOf_some.mp hbinds.2.2
  have hid : spawned'.id = spawned.id := by
    have htext := Option.some.inj (hspawn.symm.trans hjoined.2.2)
    have huuid := Uuid.text_injective htext
    rw [← hbinds.spawnedEventId]
    exact congrArg EventRecordId.mk huuid
  obtain rfl := h.eq_of_id hmem' hbinds.1 hid
  refine ⟨_, settlementOf_ok.mpr ⟨joinedPayload, hjoinedPayload, rfl, ?_, rfl⟩⟩
  have hsame : joinedPayload.childThreadId = payload.childThreadId := childThreadId_of_spawned hpayload hchild
  rw [hbinding, hsame]
  rfl

/-- **The fold of a stream goes through**, for the consumer of its children. -/
theorem exists_settlements (h : Written events) {consumer : ThreadCoordinates}
    (hconsumer : ∀ spawned binding, Binds events spawned binding → binding.consumer = consumer) :
    ∃ settlements, foldTerminalSettlements consumer events = .ok settlements := by
  obtain ⟨found, hbindings, hfound⟩ := foldThreadHandleBindings_ok h.bindable
  have hjoins : ∃ settlements, (events.filter fun event => event.kind = .threadJoined).foldlM
      (takeJoin consumer (found.foldl Keyed.insert .empty)) .empty = .ok settlements := by
    refine exists_foldlM_takeJoin (fun joined hjoined spawnedEventId binding hspawn hget => ?_)
      (fun _ _ _ _ _ hmem => by simp at hmem) (fun a ha b hb spawnedEventId hspawn hspawn' => ?_)
    · obtain ⟨⟨spawned, hbinds⟩, rfl⟩ := (h.get_bindings hfound).mp hget
      obtain ⟨hmem, hkind⟩ := List.mem_filter.mp hjoined
      rw [← hconsumer spawned binding hbinds]
      exact h.settles hbinds ⟨hmem, of_decide_eq_true hkind, hspawn⟩
    · obtain ⟨hmem, hkind⟩ := List.mem_filter.mp ha
      obtain ⟨hmem', hkind'⟩ := List.mem_filter.mp hb
      exact h.joined_eq hmem hmem' (of_decide_eq_true hkind) (of_decide_eq_true hkind') hspawn hspawn'
  obtain ⟨settled, hjoins⟩ := hjoins
  exact ⟨settled.values.map (·.2), bind_ok.mpr ⟨found, hbindings, bind_ok.mpr ⟨settled, hjoins, rfl⟩⟩⟩

/-! ### The records of the writers -/

section Records
variable {before : List EventRecord} {streamId : EventStreamId} {sequence : EventSequence} {draw : Draw}

theorem writes_spawnRequest {coordinates : ThreadCoordinates} {payload : ThreadSpawnRequestedPayload}
    (hnew : before.findSome? (requestOf ⟨payload.correlationId⟩) = none) :
    SpawnWrites before (.fromNew streamId sequence (spawnRequest coordinates payload draw)) := by
  refine .requested isSpawnRequest_spawnRequest fun dispatchId hfound => ?_
  have hdecode : Wire.spawnRequested.fromValue (EventRecord.fromNew streamId sequence
      (spawnRequest coordinates payload draw)).payload = .ok payload := decode_spawnRequestValue payload
  have hid : dispatchId = ⟨payload.correlationId⟩ := by
    by_contra hne
    refine hfound ?_
    rw [requestOf, if_neg (by simp [isSpawnRequest_spawnRequest]), hdecode]
    exact if_neg fun heq => hne (congrArg DispatchId.mk heq.symm)
  rwa [hid]

theorem decode_spawned {payload : ThreadSpawnedPayload} (hfork : payload.fork = none)
    (correlationId : String) :
    Wire.spawned.fromValue (Wire.object (Wire.spawnedFields payload ++
      [("schema", .str EventKind.threadSpawned.payloadSchemaId), ("correlation_id", .str correlationId)])) =
        .ok payload := by
  obtain ⟨parent, turn, child, manifest, policy, granted, inputs, fork⟩ := payload
  obtain rfl : fork = none := hfork
  refine bind_ok.mpr ⟨_, rfl, Wire.reads_threadId.required ?_ <| Wire.reads_text.option ?_ <|
    Wire.reads_threadId.required ?_ <| Wire.reads_text.required ?_ <| Wire.reads_text.option ?_ <|
    (Wire.reads_list Wire.reads_text).required ?_ <| Wire.reads_text.required ?_ <|
    bind_ok.mpr ⟨none, Wire.option_absent ?_, rfl⟩⟩
  all_goals simp [Wire.get?_object, Wire.spawnedFields]

/-- **The record of a child** may stand after its request, where its correlation id has no child. -/
theorem writes_spawnedRecord {setup : SpawnSetup} {caller child : SpawnContext} {policyHash : Option String}
    {witness : SpawnWitness} {request : EventRecord} {requested : ThreadSpawnRequestedPayload}
    (hmem : request ∈ before)
    (hrequest : requestOf ⟨requested.correlationId⟩ request = some (request, requested))
    (hid : witness.requestEventId = request.id) (hcorrelation : witness.correlationId = requested.correlationId)
    (hparent : requested.parentThreadId = caller.coordinates.threadId)
    (hfirst : ∀ other ∈ before, other.kind = .threadSpawned →
      rawCorrelation other ≠ some requested.correlationId)
    (hthread : ∀ other ∈ before, other.kind = .threadSpawned → rawCorrelation other ≠ none →
      other.coordinates = caller.coordinates) :
    SpawnWrites before (.fromNew (controlStreamId caller.coordinates) sequence
      (spawnedRecord setup caller child policyHash witness draw)) :=
  .spawned {
    hmem, hrequest
    hkind := rfl
    hstream := rfl
    hpayload := decode_spawned rfl witness.correlationId
    hparent := rfl
    hrequested := hparent
    hcorrelation := by rw [rawCorrelation_spawnedRecord, hcorrelation]
    hsource := List.mem_singleton.mpr hid.symm
    hfirst, hthread }

theorem joinsSpawn_threadJoinedRecord {join : ThreadJoin} :
    joinsSpawn (.fromNew streamId sequence (Agent.threadJoinedRecord join draw)) =
      some join.spawnedEventId.uuid.text := by
  change (Json.index (Wire.object _) "spawned_event_id").asStr = _
  simp only [Wire.object, Json.index, Json.asObject, Option.bind_some, Wire.get?_object]
  simp [Agent.Wire.joinedFields, Json.asStr]

/-- **The record of a join** may stand where the scan has found its child, and no join of it. -/
theorem writes_threadJoinedRecord {join : ThreadJoin} {spawned : EventRecord}
    (hspawned : Agent.spawnedOf join.child.threadId before = some spawned)
    (hid : join.spawnedEventId = spawned.id)
    (hfirst : ∀ other ∈ before, other.kind = .threadJoined → joinsSpawn other ≠ some spawned.id.uuid.text) :
    SpawnWrites before (.fromNew streamId sequence (Agent.threadJoinedRecord join draw)) := by
  have hmem : spawned ∈ before.filter fun event => event.kind = .threadSpawned ∧
      (event.payload.index "child_thread_id").asStr = some join.child.threadId.uuid.text := by
    obtain ⟨best, hbest, rfl⟩ := Option.map_eq_some_iff.mp hspawned
    obtain ⟨event, hevent, rfl⟩ := List.mem_map.mp (mem_of_maxByKey hbest)
    exact hevent
  obtain ⟨hmem, hchild⟩ := List.mem_filter.mp hmem
  obtain ⟨hkind, hchild⟩ := of_decide_eq_true hchild
  exact @SpawnWrites.joined _ _ spawned ⟨join.child.threadId, join.spawnedEventId, join.terminalState,
    join.resultDigest⟩ {
    hmem, hkind := rfl, hspawned := hkind, hchild, hfirst
    hpayload := Agent.decode_joined _
    hspawn := by rw [joinsSpawn_threadJoinedRecord, hid] }

end Records

end Verlet.Daemon.HandleIngress
