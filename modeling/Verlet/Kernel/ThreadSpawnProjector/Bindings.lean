import Verlet.Kernel.ThreadSpawnProjector
import Verlet.Support.Keyed
import Mathlib.Data.String.Basic

/-!
# Kernel — The thread spawn projector — Handle bindings

The spawn bindings of a control stream: for each `thread.spawned` that carries a correlation id, the
request that has it, and the handle of the child.  A binding says for whom the child works: its
consumer is the thread that the record was written for.
-/

namespace Verlet.Kernel
open Support History RemoteStore

structure ThreadHandleBinding where
  requestEventId : EventRecordId
  spawnedEventId : EventRecordId
  submittedTurnId : String
  consumer : ThreadCoordinates
  dispatchId : DispatchId
  handle : HandleId
deriving DecidableEq

/-- What stands before a correlation id, and after it. -/
def bindingText (correlationId text : String) : VerletError :=
  historyText ("thread handle binding " ++ correlationId ++ text)

def bindRequest (spawned : EventRecord) (correlationId : String) (payload : ThreadSpawnedPayload)
    (request : EventRecord) (requested : ThreadSpawnRequestedPayload) : VerletResult ThreadHandleBinding :=
  if requested.parentThreadId ≠ spawned.coordinates.threadId then
    .error (historyText ("thread handle binding request parent " ++ requested.parentThreadId.uuid.text ++
      " does not match consumer stream " ++ spawned.coordinates.threadId.uuid.text))
  else if request.id ∉ spawned.provenance.sourceEventIds then
    .error (bindingText correlationId " spawned receipt is missing request provenance")
  else .ok {
    requestEventId := request.id
    spawnedEventId := spawned.id
    submittedTurnId := submittedTurnOf request requested
    consumer := spawned.coordinates
    dispatchId := ⟨correlationId⟩
    handle := .thread payload.childThreadId }

/-- What a `thread.spawned` binds, if it carries a correlation id. -/
def bindingOf (events : List EventRecord) (spawned : EventRecord) :
    VerletResult (Option ThreadHandleBinding) :=
  match rawCorrelation spawned with
  | none               => .ok none
  | some correlationId => do
    let payload ← decodeOr Wire.spawned spawned "thread handle binding spawned payload decode failed: "
    if payload.parentThreadId ≠ spawned.coordinates.threadId then
      throw (historyText ("thread handle binding parent " ++ payload.parentThreadId.uuid.text ++
        " does not match consumer stream " ++ spawned.coordinates.threadId.uuid.text))
    else
      match events.findSome? (requestOf ⟨correlationId⟩) with
      | none                      => throw (bindingText correlationId " is missing its spawn request")
      | some (request, requested) =>
        return some (← bindRequest spawned correlationId payload request requested)

abbrev ThreadHandleBindings := Keyed fun binding : ThreadHandleBinding => binding.dispatchId.text

def keepBinding (bindings : ThreadHandleBindings) :
    Option ThreadHandleBinding → VerletResult ThreadHandleBindings
  | none         => .ok bindings
  | some binding =>
    if (bindings.get? binding.dispatchId.text).any fun existing => existing ≠ binding then
      .error (bindingText binding.dispatchId.text " has conflicting spawned receipts")
    else .ok (bindings.insert binding)

def foldThreadHandleBindings (events : List EventRecord) : VerletResult (List ThreadHandleBinding) := do
  let spawned := events.filter fun event => event.kind = .threadSpawned
  let bindings ← spawned.foldlM (fun bindings spawned => do
    keepBinding bindings (← bindingOf events spawned)) Keyed.empty
  return bindings.values

/-! ### What is bound -/

def Binds (events : List EventRecord) (spawned : EventRecord) (binding : ThreadHandleBinding) : Prop :=
  spawned ∈ events ∧ spawned.kind = .threadSpawned ∧ bindingOf events spawned = .ok (some binding)

/-- Every `thread.spawned` has its request, if it carries a correlation id, and none shares it. -/
structure Bindable (events : List EventRecord) : Prop where
  requested : ∀ spawned ∈ events, spawned.kind = .threadSpawned →
    ∃ found, bindingOf events spawned = .ok found
  distinct : ∀ spawned spawned' binding binding', Binds events spawned binding →
    Binds events spawned' binding' → binding.dispatchId = binding'.dispatchId → spawned = spawned'

variable {events : List EventRecord} {spawned : EventRecord} {binding : ThreadHandleBinding}

theorem bindRequest_ok {correlationId : String} {payload : ThreadSpawnedPayload} {request : EventRecord}
    {requested : ThreadSpawnRequestedPayload} :
    bindRequest spawned correlationId payload request requested = .ok binding ↔
      requested.parentThreadId = spawned.coordinates.threadId ∧
        request.id ∈ spawned.provenance.sourceEventIds ∧
        binding = ⟨request.id, spawned.id, submittedTurnOf request requested, spawned.coordinates,
          ⟨correlationId⟩, .thread payload.childThreadId⟩ := by
  unfold bindRequest
  by_cases hparent : requested.parentThreadId = spawned.coordinates.threadId
  · by_cases hsource : request.id ∈ spawned.provenance.sourceEventIds
    · simp [hparent, hsource, eq_comm]
    · simp [hparent, hsource]
  · simp [hparent]

/-- **What a binding is**: the record's own child, for whom the record was written. -/
theorem bindingOf_some :
    bindingOf events spawned = .ok (some binding) ↔
      ∃ payload request requested, Wire.spawned.fromValue spawned.payload = .ok payload ∧
        payload.parentThreadId = spawned.coordinates.threadId ∧
        rawCorrelation spawned = some binding.dispatchId.text ∧
        events.findSome? (requestOf binding.dispatchId) = some (request, requested) ∧
        requested.parentThreadId = spawned.coordinates.threadId ∧
        request.id ∈ spawned.provenance.sourceEventIds ∧
        binding = ⟨request.id, spawned.id, submittedTurnOf request requested, spawned.coordinates,
          binding.dispatchId, .thread payload.childThreadId⟩ := by
  unfold bindingOf
  cases hcorrelation : rawCorrelation spawned with
  | none => simp
  | some correlationId =>
    simp only [bind_ok, decodeOr_ok]
    constructor
    · rintro ⟨payload, hpayload, h⟩
      split at h
      · cases h
      · next hparent =>
        split at h
        · cases h
        · next request requested hrequest =>
          obtain ⟨found, hfound, h⟩ := bind_ok.mp h
          cases h
          obtain ⟨hrequested, hsource, rfl⟩ := bindRequest_ok.mp hfound
          exact ⟨payload, request, requested, hpayload, not_not.mp hparent, rfl, hrequest,
            hrequested, hsource, rfl⟩
    · rintro ⟨payload, request, requested, hpayload, hparent, hid, hrequest, hrequested, hsource,
        hbinding⟩
      obtain rfl : correlationId = binding.dispatchId.text := Option.some.inj hid
      refine ⟨payload, hpayload, ?_⟩
      rw [if_neg (not_not.mpr hparent), hrequest]
      exact bind_ok.mpr ⟨binding, bindRequest_ok.mpr ⟨hrequested, hsource, hbinding⟩, rfl⟩

theorem childThreadId_of_spawned {payload : ThreadSpawnedPayload} {child : ThreadId}
    (h : Wire.spawned.fromValue spawned.payload = .ok payload)
    (hchild : (spawned.payload.index "child_thread_id").asStr = some child.uuid.text) :
    child = payload.childThreadId := by
  obtain ⟨fields, hfields, h⟩ := bind_ok.mp h
  obtain ⟨parent, -, h⟩ := bind_ok.mp h
  obtain ⟨turn, -, h⟩ := bind_ok.mp h
  obtain ⟨found, hfound, h⟩ := bind_ok.mp h
  have hpayload : payload.childThreadId = found := by
    obtain ⟨manifest, -, h⟩ := bind_ok.mp h
    obtain ⟨policy, -, h⟩ := bind_ok.mp h
    obtain ⟨granted, -, h⟩ := bind_ok.mp h
    obtain ⟨inputs, -, h⟩ := bind_ok.mp h
    obtain ⟨fork, -, h⟩ := bind_ok.mp h
    rw [← Except.ok.inj h]
  rw [hpayload]
  unfold Wire.fieldsOf at hfields
  unfold Wire.required at hfound
  unfold Json.index at hchild
  cases hobject : spawned.payload.asObject with
  | none => simp [hobject] at hfields
  | some object =>
    rw [hobject] at hfields hchild
    obtain rfl := Except.ok.inj hfields
    cases hvalue : Json.get? object "child_thread_id" with
    | none => simp [hvalue] at hfound
    | some value =>
      simp only [hvalue] at hfound
      have hstr : value.asStr = some child.uuid.text := by simpa [hvalue] using hchild
      simp only [Wire.threadId, hstr, Option.bind_some, Uuid.parse_text] at hfound
      exact Except.ok.inj hfound

theorem bindingOf_append (later : List EventRecord)
    (h : bindingOf events spawned = .ok (some binding)) :
    bindingOf (events ++ later) spawned = .ok (some binding) := by
  obtain ⟨payload, request, requested, hpayload, hparent, hid, hrequest, hrest⟩ := bindingOf_some.mp h
  refine bindingOf_some.mpr ⟨payload, request, requested, hpayload, hparent, hid, ?_, hrest⟩
  rw [List.findSome?_append, hrequest, Option.some_or]

theorem Binds.append (later : List EventRecord) (h : Binds events spawned binding) :
    Binds (events ++ later) spawned binding :=
  ⟨List.mem_append_left later h.1, h.2.1, bindingOf_append later h.2.2⟩

theorem Binds.spawnedEventId (h : Binds events spawned binding) : binding.spawnedEventId = spawned.id := by
  obtain ⟨_, _, _, -, -, -, -, -, -, hbinding⟩ := bindingOf_some.mp h.2.2
  rw [hbinding]

theorem Binds.consumer (h : Binds events spawned binding) : binding.consumer = spawned.coordinates := by
  obtain ⟨_, _, _, -, -, -, -, -, -, hbinding⟩ := bindingOf_some.mp h.2.2
  rw [hbinding]

theorem Binds.correlation (h : Binds events spawned binding) :
    rawCorrelation spawned = some binding.dispatchId.text := by
  obtain ⟨_, _, _, -, -, hid, -⟩ := bindingOf_some.mp h.2.2
  exact hid

theorem Bindable.eq (h : Bindable events) {spawned' : EventRecord} {binding' : ThreadHandleBinding}
    (hbinds : Binds events spawned binding) (hbinds' : Binds events spawned' binding')
    (hid : binding.dispatchId = binding'.dispatchId) : binding = binding' := by
  obtain rfl := h.distinct spawned spawned' binding binding' hbinds hbinds' hid
  exact Option.some.inj (Except.ok.inj (hbinds.2.2.symm.trans hbinds'.2.2))

/-! ### The fold -/

/-- One step of the fold. -/
def bindNext (events : List EventRecord) (bindings : ThreadHandleBindings) (spawned : EventRecord) :
    VerletResult ThreadHandleBindings := do keepBinding bindings (← bindingOf events spawned)

/-- The bindings of these records are there, and no others. -/
def Collects (events : List EventRecord) (bindings : ThreadHandleBindings) (done : List EventRecord) :
    Prop :=
  ∀ binding, binding ∈ bindings.values ↔
    ∃ spawned ∈ done, bindingOf events spawned = .ok (some binding)

/-- **One record more.** -/
theorem Bindable.bindNext (h : Bindable events) {bindings : ThreadHandleBindings}
    {done : List EventRecord} (hdone : ∀ event ∈ done, event ∈ events ∧ event.kind = .threadSpawned)
    (hspawned : spawned ∈ events) (hkind : spawned.kind = .threadSpawned)
    (hcollects : Collects events bindings done) :
    ∃ bindings', Kernel.bindNext events bindings spawned = .ok bindings' ∧
      Collects events bindings' (done ++ [spawned]) := by
  obtain ⟨found, hfound⟩ := h.requested spawned hspawned hkind
  unfold Kernel.bindNext
  rw [hfound]
  cases found with
  | none =>
    refine ⟨bindings, rfl, fun binding => (hcollects binding).trans ?_⟩
    simp [hfound]
  | some new =>
    have hnew : Binds events spawned new := ⟨hspawned, hkind, hfound⟩
    -- what is there under the dispatch is this binding
    have hsame (binding) (hmem : binding ∈ bindings.values)
        (hid : binding.dispatchId.text = new.dispatchId.text) : binding = new := by
      obtain ⟨other, hother, hbinding⟩ := (hcollects binding).mp hmem
      exact h.eq ⟨(hdone other hother).1, (hdone other hother).2, hbinding⟩ hnew
        (congrArg DispatchId.mk hid)
    have hagrees (existing) (hexisting : bindings.get? new.dispatchId.text = some existing) :
        existing = new := by
      obtain ⟨hmem, hid⟩ := Keyed.get?_eq_some.mp hexisting
      exact hsame existing hmem hid
    refine ⟨bindings.insert new, ?_, fun binding => ?_⟩
    · change keepBinding bindings (some new) = _
      refine if_neg ?_
      simp only [Option.any_eq_true, not_exists, not_and]
      intro existing hexisting
      simp [hagrees existing hexisting]
    · rw [Keyed.mem_insert_of_agrees hagrees, hcollects]
      simp [hfound, or_comm, eq_comm, or_and_right, exists_or]

theorem Bindable.foldlM (h : Bindable events) {bindings : ThreadHandleBindings}
    {done rest : List EventRecord}
    (hall : ∀ event ∈ done ++ rest, event ∈ events ∧ event.kind = .threadSpawned)
    (hcollects : Collects events bindings done) :
    ∃ bindings', rest.foldlM (Kernel.bindNext events) bindings = .ok bindings' ∧
      Collects events bindings' (done ++ rest) := by
  induction rest generalizing bindings done with
  | nil => exact ⟨bindings, rfl, by rwa [List.append_nil]⟩
  | cons spawned rest ih =>
    obtain ⟨hspawned, hkind⟩ := hall spawned (by simp)
    obtain ⟨bindings₁, hnext, hcollects₁⟩ :=
      h.bindNext (fun event hmem => hall event (by simp [hmem])) hspawned hkind hcollects
    obtain ⟨bindings', hrest, hcollects'⟩ :=
      ih (fun event hmem => hall event (by simpa using hmem)) hcollects₁
    refine ⟨bindings', ?_, by simpa using hcollects'⟩
    rw [List.foldlM_cons]
    exact bind_ok.mpr ⟨bindings₁, hnext, hrest⟩

/-- **The bindings of a stream** are those of its records. -/
theorem foldThreadHandleBindings_ok (h : Bindable events) :
    ∃ bindings, foldThreadHandleBindings events = .ok bindings ∧
      ∀ binding, binding ∈ bindings ↔ ∃ spawned, Binds events spawned binding := by
  have hspawned : ∀ event ∈ [] ++ events.filter (fun event => event.kind = .threadSpawned),
      event ∈ events ∧ event.kind = .threadSpawned := by simp
  obtain ⟨bindings, hfold, hcollects⟩ := @Bindable.foldlM events h .empty [] _ hspawned (by simp [Collects])
  refine ⟨bindings.values, bind_ok.mpr ⟨bindings, hfold, rfl⟩, fun binding => (hcollects binding).trans ?_⟩
  simp [Binds, and_assoc]

end Verlet.Kernel
