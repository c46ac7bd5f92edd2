import Verlet.Daemon.Ingress.Witnesses

/-!
# Daemon — The recovery sweep — Processes

`fold_orphaned_process_dispatches`: the dispatches that a control stream witnesses, without those
whose outcome it witnesses too.  What a witness is about is read from the content it holds.  The
ingress path keeps the content of dispatches alone, so that no outcome is ever found.
-/

namespace Verlet.Daemon
open Support Kernel Io History
open RemoteStore (DispatchId VerletResult)

/-! ### The fold -/

/-- What the fold has gathered, by dispatch id. -/
structure ProcessFold where
  dispatches : Map String HandleDispatchEnvelope
  outcomes : Map String HandleTerminalEnvelope

namespace ProcessFold

def empty : ProcessFold := ⟨∅, ∅⟩

def witnessedEvent (event : EventRecord) : Option (String × Json) :=
  match Wire.ingressReceived.fromValue event.payload with
  | .error _    => none
  | .ok witness =>
    match witness.content.map Wire.ingressContent.fromValue with
    | some (.ok (.event kind payload)) => some (kind, payload)
    | _                                => none

/-- The witness of a dispatch; one that does not read as a binding of the consumer is skipped. -/
def takeDispatch (consumer : ThreadCoordinates) (fold : ProcessFold) (payload : Json) :
    VerletResult ProcessFold :=
  match Wire.dispatchEnvelope.fromValue payload with
  | .error _    => .ok fold
  | .ok binding =>
    match validateBinding binding consumer binding.dispatchId binding.commandDigest with
    | .error _ => .ok fold
    | .ok ()   =>
      let taken := { fold with
        dispatches := fold.dispatches.insert binding.dispatchId.text binding }
      match fold.dispatches.lookup binding.dispatchId.text with
      | none          => .ok taken
      | some existing =>
        if existing ≠ binding then
          .error (historyText ("process dispatch " ++ binding.dispatchId.text ++
            " has conflicting witnesses"))
        else .ok taken

def takeOutcome (fold : ProcessFold) (payload : Json) : VerletResult ProcessFold :=
  match Wire.terminalEnvelope.fromValue payload with
  | .error _     => .ok fold
  | .ok terminal =>
    if terminal.handle.kind ≠ .process then .ok fold
    else
      let taken := { fold with
        outcomes := fold.outcomes.insert terminal.dispatchId.text terminal }
      match fold.outcomes.lookup terminal.dispatchId.text with
      | none          => .ok taken
      | some existing =>
        if existing ≠ terminal then
          .error (historyText ("process dispatch " ++ terminal.dispatchId.text ++
            " has conflicting outcome witnesses"))
        else .ok taken

def take (consumer : ThreadCoordinates) (fold : ProcessFold) (event : EventRecord) :
    VerletResult ProcessFold :=
  if event.kind ≠ .ioIngressReceived then .ok fold
  else
    match witnessedEvent event with
    | none                 => .ok fold
    | some (kind, payload) =>
      if kind = handleDispatchContentKind then fold.takeDispatch consumer payload
      else if kind = handleOutcomeContentKind then fold.takeOutcome payload
      else .ok fold

def inOrder {ν : Type} (m : Map String ν) : List (String × ν) :=
  (m.entries.map fun entry => (entry.1, entry.2)).mergeSort fun entry later =>
    !Json.textBefore later.1.toList entry.1.toList

/-- An outcome whose handle is not that of its dispatch. -/
def mismatch (fold : ProcessFold) : Option String :=
  ((inOrder fold.outcomes).find? fun outcome =>
    (fold.dispatches.lookup outcome.1).any fun binding => binding.handle ≠ outcome.2.handle).map (·.1)

def orphans (fold : ProcessFold) : List HandleDispatchEnvelope :=
  ((inOrder fold.dispatches).filter fun binding => (fold.outcomes.lookup binding.1).isNone).map (·.2)

end ProcessFold

def foldOrphanedProcessDispatches (consumer : ThreadCoordinates) (events : List EventRecord) :
    VerletResult (List HandleDispatchEnvelope) := do
  let fold ← events.foldlM (ProcessFold.take consumer) .empty
  match fold.mismatch with
  | some dispatchId => .error (historyText ("process outcome " ++ dispatchId ++
      " does not match its dispatch handle"))
  | none => return fold.orphans

/-- The bindings that `recover_processes` submits a failure for. -/
def recoveredProcesses (isLiveDispatch : DispatchId → Bool) (consumer : ThreadCoordinates)
    (events : List EventRecord) : List HandleDispatchEnvelope :=
  match foldOrphanedProcessDispatches consumer events with
  | .error _     => []
  | .ok bindings => bindings.filter fun binding => !isLiveDispatch binding.dispatchId

/-! ### Streams of the ingress path -/

variable (sha256Hex : String → String)

def Arrival.ofDispatch (binding : HandleDispatchEnvelope) (nowMs : Nat) : Arrival :=
  let envelope := dispatchEnvelope sha256Hex binding nowMs
  ⟨envelope, some envelope.id⟩

def Arrival.ofOutcome (binding : HandleDispatchEnvelope)
    (report : TerminalReport) (nowMs : Nat) : Arrival :=
  let envelope := outcomeEnvelope sha256Hex binding (report.terminal binding) nowMs
  ⟨envelope, some envelope.id⟩

/-- What arrives at the stream of a consumer: dispatches of its processes, their outcomes, and
ordinary ingress, which dispatches nothing. -/
inductive Arrives (sha256Hex : String → String) (consumer : ThreadCoordinates) : Arrival → Prop
  | dispatch {binding : HandleDispatchEnvelope} {nowMs : Nat} (hconsumer : binding.consumer = consumer)
      (hkind : binding.handle.kind = .process) :
      Arrives sha256Hex consumer (.ofDispatch sha256Hex binding nowMs)
  | outcome {binding : HandleDispatchEnvelope} {report : TerminalReport} {nowMs : Nat} :
      Arrives sha256Hex consumer (.ofOutcome sha256Hex binding report nowMs)
  | ordinary {arrival : Arrival}
      (h : ∀ payload, arrival.envelope.content ≠ .event handleDispatchContentKind payload) :
      Arrives sha256Hex consumer arrival

def Dispatched (arrivals : List Arrival) (binding : HandleDispatchEnvelope) : Prop :=
  ∃ nowMs, .ofDispatch sha256Hex binding nowMs ∈ arrivals

/-- An outcome of the dispatch was received among the arrivals. -/
def Reported (arrivals : List Arrival) (dispatchId : DispatchId) : Prop :=
  ∃ binding report nowMs, binding.dispatchId = dispatchId ∧
    .ofOutcome sha256Hex binding report nowMs ∈ arrivals

variable {bridge : Bridge} {sha256Hex : String → String} {consumer : ThreadCoordinates}
  {events : List EventRecord} {arrivals : List Arrival} {arrival : Arrival} {event : EventRecord}
  {binding : HandleDispatchEnvelope}

theorem dispatched_append : Dispatched sha256Hex (arrivals ++ [arrival]) binding ↔
    Dispatched sha256Hex arrivals binding ∨ ∃ nowMs, arrival = .ofDispatch sha256Hex binding nowMs := by
  simp only [Dispatched, List.mem_append, List.mem_singleton, exists_or, eq_comm]

variable {nowMs : Nat}

theorem ofDispatch_inj {binding' : HandleDispatchEnvelope} {nowMs' : Nat}
    (h : Arrival.ofDispatch sha256Hex binding nowMs = .ofDispatch sha256Hex binding' nowMs') :
    binding = binding' := by
  have hcontent := congrArg (·.envelope.content) h
  have hpayload : Wire.dispatchEnvelope.toValue binding = Wire.dispatchEnvelope.toValue binding' := by
    simpa [Arrival.ofDispatch, dispatchEnvelope, handleEnvelope] using hcontent
  have hread := Wire.reads_dispatchEnvelope.back binding
  rw [hpayload, Wire.reads_dispatchEnvelope.back] at hread
  exact (Except.ok.inj hread).symm

theorem witnessedEvent_eq_none (hrecorded : arrival.Recorded bridge event)
    (h : ∀ payload, arrival.envelope.content ≠ .event handleDispatchContentKind payload) :
    ProcessFold.witnessedEvent event = none := by
  obtain ⟨-, digest, -, hpayload⟩ := hrecorded
  rw [ProcessFold.witnessedEvent, hpayload, ingressReceived_fromValue]
  simp only [witnessOf, witnessedIngressContent_eq_none h, Option.map_none]

theorem witnessedEvent_of_dispatch
    (hrecorded : (Arrival.ofDispatch sha256Hex binding nowMs).Recorded bridge event) :
    ProcessFold.witnessedEvent event =
      some (handleDispatchContentKind, Wire.dispatchEnvelope.toValue binding) := by
  obtain ⟨-, digest, -, hpayload⟩ := hrecorded
  have hcontent : (Arrival.ofDispatch sha256Hex binding nowMs).envelope.content =
      .event handleDispatchContentKind (Wire.dispatchEnvelope.toValue binding) := rfl
  rw [ProcessFold.witnessedEvent, hpayload, ingressReceived_fromValue]
  simp only [witnessOf, witnessedIngressContent_of_dispatch hcontent, Option.map_some,
    Wire.ingressContent_fromValue]

/-! ### What the fold gathers -/

/-- The fold has every binding that was dispatched, and no outcome. -/
structure Gathers (sha256Hex : String → String) (arrivals : List Arrival) (fold : ProcessFold) :
    Prop where
  outcomes : fold.outcomes = ∅
  dispatches : ∀ key binding, fold.dispatches.lookup key = some binding ↔
    Dispatched sha256Hex arrivals binding ∧ binding.dispatchId.text = key

theorem gathers_empty : Gathers sha256Hex [] .empty where
  outcomes := rfl
  dispatches key binding := by simp [ProcessFold.empty, Dispatched]

/-- **A witness that dispatches nothing** is passed over. -/
theorem Gathers.pass {fold : ProcessFold} (h : Gathers sha256Hex arrivals fold)
    (hrecorded : arrival.Recorded bridge event)
    (hcontent : ∀ payload, arrival.envelope.content ≠ .event handleDispatchContentKind payload) :
    ∃ fold', fold.take consumer event = .ok fold' ∧ Gathers sha256Hex (arrivals ++ [arrival]) fold' := by
  refine ⟨fold, ?_, h.outcomes, fun key binding => ?_⟩
  · rw [ProcessFold.take, if_neg (not_not.mpr hrecorded.1), witnessedEvent_eq_none hrecorded hcontent]
  · rw [h.dispatches, dispatched_append]
    have hother : ¬ ∃ nowMs, arrival = .ofDispatch sha256Hex binding nowMs := by
      rintro ⟨nowMs, rfl⟩
      exact hcontent _ rfl
    rw [or_iff_left hother]

theorem Gathers.dispatch {fold : ProcessFold} (h : Gathers sha256Hex arrivals fold)
    (hrecorded : (Arrival.ofDispatch sha256Hex binding nowMs).Recorded bridge event)
    (hconsumer : binding.consumer = consumer) (hkind : binding.handle.kind = .process)
    (hnew : ∀ arrival ∈ arrivals, arrival.messageId ≠
      some (dispatchEnvelope sha256Hex binding nowMs).id) :
    ∃ fold', fold.take consumer event = .ok fold' ∧
      Gathers sha256Hex (arrivals ++ [.ofDispatch sha256Hex binding nowMs]) fold' := by
  have hfresh : fold.dispatches.lookup binding.dispatchId.text = none := by
    rw [Option.eq_none_iff_forall_not_mem]
    intro existing hexisting
    obtain ⟨⟨nowMs', hmem⟩, hid⟩ := (h.dispatches _ _).mp hexisting
    have hsame : existing.dispatchId = binding.dispatchId := congrArg DispatchId.mk hid
    refine hnew _ hmem (congrArg some ?_)
    simp only [dispatchEnvelope, handleEnvelope, hsame]
  refine ⟨{ fold with dispatches := fold.dispatches.insert binding.dispatchId.text binding }, ?_,
    h.outcomes, fun key other => ?_⟩
  · rw [ProcessFold.take, if_neg (not_not.mpr hrecorded.1), witnessedEvent_of_dispatch hrecorded]
    simp only [if_true, ProcessFold.takeDispatch, Wire.reads_dispatchEnvelope.back,
      validateBinding_ok.mpr ⟨hconsumer, rfl, rfl, hkind⟩, hfresh]
  · rw [Map.lookup_insert, dispatched_append]
    by_cases hkey : key = binding.dispatchId.text
    · rw [if_pos hkey]
      constructor
      · rintro ⟨⟩
        exact ⟨.inr ⟨nowMs, rfl⟩, hkey.symm⟩
      · rintro ⟨hdispatched | ⟨nowMs', hsame⟩, hother⟩
        · have hlookup := (h.dispatches key other).mpr ⟨hdispatched, hother⟩
          rw [hkey, hfresh] at hlookup
          cases hlookup
        · rw [ofDispatch_inj hsame]
    · rw [if_neg hkey, h.dispatches]
      refine and_congr_left fun hother => ⟨.inl, ?_⟩
      rintro (hdispatched | ⟨nowMs', hsame⟩)
      · exact hdispatched
      · rw [← ofDispatch_inj hsame] at hother
        exact (hkey hother.symm).elim

/-- **The fold of a written stream** gathers every dispatch and no outcome. -/
theorem gathers_of_written (h : Written bridge events arrivals)
    (harrives : ∀ arrival ∈ arrivals, Arrives sha256Hex consumer arrival) :
    ∃ fold, events.foldlM (ProcessFold.take consumer) .empty = .ok fold ∧
      Gathers sha256Hex arrivals fold := by
  induction h with
  | nil => exact ⟨.empty, rfl, gathers_empty⟩
  | @other events arrivals event h hkind ih =>
    obtain ⟨fold, hfold, hgathers⟩ := ih harrives
    refine ⟨fold, ?_, hgathers⟩
    rw [List.foldlM_append, hfold]
    exact bind_ok.mpr ⟨fold, rfl, bind_ok.mpr ⟨fold, if_pos hkind, rfl⟩⟩
  | @witness events arrivals event arrival h hrecorded hnew ih =>
    obtain ⟨fold, hfold, hgathers⟩ :=
      ih fun arrival' hmem => harrives arrival' (List.mem_append_left _ hmem)
    have htake : ∃ fold', fold.take consumer event = .ok fold' ∧
        Gathers sha256Hex (arrivals ++ [arrival]) fold' := by
      cases harrives arrival (List.mem_append_right _ (List.mem_singleton_self _)) with
      | dispatch hconsumer hkind =>
        exact hgathers.dispatch hrecorded hconsumer hkind (h.ne_of_new (hnew _ rfl))
      | outcome =>
        refine hgathers.pass hrecorded fun payload => ?_
        simp [Arrival.ofOutcome, outcomeEnvelope, handleEnvelope, handleOutcomeContentKind,
          handleDispatchContentKind]
      | ordinary hcontent => exact hgathers.pass hrecorded hcontent
    obtain ⟨fold', htaken, hgathers'⟩ := htake
    refine ⟨fold', ?_, hgathers'⟩
    rw [List.foldlM_append, hfold]
    exact bind_ok.mpr ⟨fold, rfl, bind_ok.mpr ⟨fold', htaken, rfl⟩⟩

/-! ### What the sweep fails -/

theorem mem_inOrder {ν : Type} {m : Map String ν} {entry : String × ν} :
    entry ∈ ProcessFold.inOrder m ↔ m.lookup entry.1 = some entry.2 := by
  rw [ProcessFold.inOrder, (List.mergeSort_perm _ _).mem_iff, List.mem_map]
  constructor
  · rintro ⟨⟨key, value⟩, hmem, rfl⟩
    exact AList.mem_lookup_iff.mpr hmem
  · intro h
    exact ⟨⟨entry.1, entry.2⟩, AList.mem_lookup_iff.mp h, rfl⟩

theorem inOrder_empty {ν : Type} : ProcessFold.inOrder (∅ : Map String ν) = [] := List.mergeSort_nil

theorem nodup_inOrder {ν : Type} (m : Map String ν) : (ProcessFold.inOrder m).Nodup := by
  rw [ProcessFold.inOrder, (List.mergeSort_perm _ _).nodup_iff]
  have hkeys : (m.entries.map fun entry => entry.1).Nodup := m.nodupKeys
  refine List.Nodup.of_map Prod.fst ?_
  rw [List.map_map]
  exact hkeys

/-- **On a stream of the ingress path the fold returns every dispatch**, each once. -/
theorem foldOrphanedProcessDispatches_written (h : Written bridge events arrivals)
    (harrives : ∀ arrival ∈ arrivals, Arrives sha256Hex consumer arrival) :
    ∃ bindings, foldOrphanedProcessDispatches consumer events = .ok bindings ∧ bindings.Nodup ∧
      ∀ binding, binding ∈ bindings ↔ Dispatched sha256Hex arrivals binding := by
  obtain ⟨fold, hfold, hgathers⟩ := gathers_of_written h harrives
  have hmismatch : fold.mismatch = none := by
    rw [ProcessFold.mismatch, hgathers.outcomes, inOrder_empty]
    rfl
  have hfilter : fold.orphans = (ProcessFold.inOrder fold.dispatches).map (·.2) := by
    rw [ProcessFold.orphans, List.filter_eq_self.mpr]
    intro entry _
    rw [hgathers.outcomes]
    rfl
  refine ⟨fold.orphans, ?_, ?_, fun binding => ?_⟩
  · rw [foldOrphanedProcessDispatches]
    refine bind_ok.mpr ⟨fold, hfold, ?_⟩
    rw [hmismatch]
    rfl
  · rw [hfilter]
    -- a binding is under its own id, so that no two entries have one binding
    refine List.Nodup.map_on (fun entry hentry later hlater hsame => ?_) (nodup_inOrder _)
    have hkey := ((hgathers.dispatches _ _).mp (mem_inOrder.mp hentry)).2
    have hkey' := ((hgathers.dispatches _ _).mp (mem_inOrder.mp hlater)).2
    exact Prod.ext (hkey.symm.trans ((congrArg (·.dispatchId.text) hsame).trans hkey')) hsame
  · rw [hfilter, List.mem_map]
    constructor
    · rintro ⟨entry, hentry, rfl⟩
      exact ((hgathers.dispatches _ _).mp (mem_inOrder.mp hentry)).1
    · intro hdispatched
      exact ⟨(binding.dispatchId.text, binding),
        mem_inOrder.mpr ((hgathers.dispatches _ _).mpr ⟨hdispatched, rfl⟩), rfl⟩

/-- The sweep finds the orphaned processes: each dispatch once whose outcome did not arrive. -/
def FindsOrphans (sha256Hex : String → String) (consumer : ThreadCoordinates)
    (events : List EventRecord) (arrivals : List Arrival) : Prop :=
  ∃ bindings, foldOrphanedProcessDispatches consumer events = .ok bindings ∧ bindings.Nodup ∧
    ∀ binding, binding ∈ bindings ↔
      Dispatched sha256Hex arrivals binding ∧ ¬ Reported sha256Hex arrivals binding.dispatchId

/-- **The sweep fails exactly the orphaned processes** where no process that was dispatched on the
stream has reported there, and only there; whatever has reported and is not live is failed again. -/
theorem findsOrphans_iff {bridge : Bridge} {sha256Hex : String → String}
    {consumer : ThreadCoordinates} {events : List EventRecord} {arrivals : List Arrival}
    (hwritten : Written bridge events arrivals)
    (harrives : ∀ arrival ∈ arrivals, Arrives sha256Hex consumer arrival) :
    (FindsOrphans sha256Hex consumer events arrivals ↔
      ∀ binding, Dispatched sha256Hex arrivals binding →
        ¬ Reported sha256Hex arrivals binding.dispatchId) ∧
    ∀ isLiveDispatch,
      (∀ binding ∈ recoveredProcesses isLiveDispatch consumer events,
        ¬ Reported sha256Hex arrivals binding.dispatchId) ↔
      ∀ binding, Dispatched sha256Hex arrivals binding → isLiveDispatch binding.dispatchId = false →
        ¬ Reported sha256Hex arrivals binding.dispatchId := by
  obtain ⟨bindings, hfold, hnodup, hmem⟩ := foldOrphanedProcessDispatches_written hwritten harrives
  refine ⟨⟨?_, fun hunreported => ⟨bindings, hfold, hnodup, fun binding => ?_⟩⟩, fun isLive => ?_⟩
  · rintro ⟨found, hfound, -, horphans⟩ binding hdispatched
    obtain rfl := Except.ok.inj (hfold.symm.trans hfound)
    exact ((horphans binding).mp ((hmem binding).mpr hdispatched)).2
  · rw [hmem]
    exact ⟨fun hdispatched => ⟨hdispatched, hunreported binding hdispatched⟩, And.left⟩
  · rw [recoveredProcesses, hfold]
    simp only [List.mem_filter, hmem, Bool.not_eq_eq_eq_not, Bool.not_true, and_imp]

/-! ### A process that has reported -/

/-- A bridge whose digests are texts of the content. -/
def sampleBridge : Bridge where
  outcomes := .wire
  printJson _ := ""
  envelope envelope := Wire.ingressContent.toValue envelope.content
  turnInput _ := .null
  canonicalJsonHash _ := .ok "digest"

def sampleBinding : HandleDispatchEnvelope where
  dispatchId := ⟨"call-1"⟩
  handle := .process "process-1"
  consumer := .counted "user" 1
  commandDigest := "sha256:command"

/-- What arrives in the sample: the dispatch, and what the process came to. -/
def sampleArrivals : List Arrival :=
  [.ofDispatch id sampleBinding 0,
    .ofOutcome id sampleBinding (.observed (.completed (some 0) true)) 1]

def sampleWitness (n : Nat) (arrival : Arrival) : EventRecord :=
  .fromNew (controlStreamId sampleBinding.consumer) n
    (.witnessed (.counted n) sampleBinding.consumer .ioIngressReceived
      (ingressReceivedPayload arrival.envelope arrival.messageId "digest"))

/-- The stream of the sample, with as many of the arrivals. -/
def sampleStream (n : Nat) : List EventRecord :=
  (sampleArrivals.take n).zipIdx.map fun arrival => sampleWitness (arrival.2 + 1) arrival.1

theorem recorded_sampleWitness (n : Nat) (arrival : Arrival) :
    arrival.Recorded sampleBridge (sampleWitness n arrival) := ⟨rfl, "digest", rfl, rfl⟩

theorem written_dispatched : Written sampleBridge (sampleStream 1) (sampleArrivals.take 1) :=
  .witness .nil (recorded_sampleWitness 1 _) fun _ _ => rfl

theorem written_reported : Written sampleBridge (sampleStream 2) sampleArrivals := by
  refine .witness written_dispatched (recorded_sampleWitness 2 _) fun messageId hid => ?_
  obtain rfl := Option.some.inj hid
  decide

theorem arrives_sample : ∀ arrival ∈ sampleArrivals, Arrives id sampleBinding.consumer arrival := by
  intro arrival hmem
  rcases List.mem_cons.mp hmem with rfl | hmem
  · exact .dispatch rfl rfl
  · obtain rfl := List.mem_singleton.mp hmem
    exact .outcome

/-- **A process that has reported is failed again**: its outcome is received on the stream, and the
sweep submits another. -/
theorem reported_process_fails_again : ∃ events arrivals, Written sampleBridge events arrivals ∧
    (∀ arrival ∈ arrivals, Arrives id sampleBinding.consumer arrival) ∧
    Reported id arrivals sampleBinding.dispatchId ∧
    ¬ FindsOrphans id sampleBinding.consumer events arrivals ∧
    sampleBinding ∈ recoveredProcesses (fun _ => false) sampleBinding.consumer events := by
  have hreported : Reported id sampleArrivals sampleBinding.dispatchId :=
    ⟨sampleBinding, _, 1, rfl, List.mem_cons_of_mem _ (List.mem_singleton_self _)⟩
  obtain ⟨bindings, hfold, -, hmem⟩ :=
    foldOrphanedProcessDispatches_written written_reported arrives_sample
  have hdispatched : sampleBinding ∈ bindings := (hmem _).mpr ⟨0, List.mem_cons_self⟩
  refine ⟨sampleStream 2, sampleArrivals, written_reported, arrives_sample, hreported, ?_, ?_⟩
  · rintro ⟨found, hfound, -, horphans⟩
    obtain rfl := Except.ok.inj (hfold.symm.trans hfound)
    exact ((horphans _).mp hdispatched).2 hreported
  · rw [recoveredProcesses, hfold]
    exact List.mem_filter.mpr ⟨hdispatched, rfl⟩

/-- Before its outcome arrives the process is found. -/
theorem findsOrphans_dispatched :
    FindsOrphans id sampleBinding.consumer (sampleStream 1) (sampleArrivals.take 1) := by
  have harrives : ∀ arrival ∈ sampleArrivals.take 1, Arrives id sampleBinding.consumer arrival :=
    fun arrival hmem => arrives_sample arrival (List.mem_of_mem_take hmem)
  refine (findsOrphans_iff written_dispatched harrives).1.mpr fun binding _ => ?_
  rintro ⟨binding', report, nowMs, -, hmem⟩
  have hcontent := congrArg (·.envelope.content) (List.mem_singleton.mp hmem)
  simp [Arrival.ofOutcome, Arrival.ofDispatch, outcomeEnvelope, dispatchEnvelope, handleEnvelope,
    handleOutcomeContentKind, handleDispatchContentKind] at hcontent

end Verlet.Daemon
