import Verlet.History.InMemory.Frames
import Verlet.Kernel.RuntimeHost.ThreadStarts

/-!
# Kernel — The runtime host — Fork recovery

What a fork finds of an earlier one.  The start identity of a fork is an event of the child that names
the parent; the branch that a fork clones ends at the checkpoint that it was asked for.  The parent's
own start identity, which the branch carries along, names another parent.

* `durableStart_some`, `durableStart_start`: what the events of the child say.
-/

namespace Verlet.Kernel
open Support History

/-! ### The event of an entry -/

structure Records (event : EventRecord) (entry : SessionEntry) : Prop where
  kind : event.kind = .sessionEntryAppended
  payload : event.payload = .obj (sessionEntryPayload entry)

theorem records_sessionEntryEvent (streamId : EventStreamId) (sequence : EventSequence) (draw : Draw)
    (entry : SessionEntry) (provenance : Option EventProvenance) :
    Records (.fromNew streamId sequence (sessionEntryEvent draw entry provenance)) entry := by
  unfold sessionEntryEvent
  split
  · exact ⟨rfl, rfl⟩
  · exact ⟨rfl, rfl⟩

section
variable {event : EventRecord} {entry : SessionEntry}

theorem Records.index (h : Records event entry) (key : String) :
    Json.index event.payload key = (Json.get? (sessionEntryPayload entry) key).getD .null := by
  rw [h.payload]
  rfl

theorem get?_runtime_kind (entry : SessionEntry) :
    ((Json.get? (sessionEntryPayload entry) "runtime_kind").getD .null).asStr =
      match entry.kind with
      | .runtime kind _ => some kind
      | _ => none := by
  unfold sessionEntryPayload
  cases entry.turnId <;> cases entry.kind with
  | message m | customContextMessage m => cases m <;> simp [Json.object, Json.asStr]
  | _ => simp [Json.object, Json.asStr]

theorem get?_runtime_payload {kind : String} {payload : Json}
    (h : entry.kind = .runtime kind payload) :
    Json.get? (sessionEntryPayload entry) "runtime_payload" = some payload := by
  unfold sessionEntryPayload
  simp [h]

theorem get?_entry_kind {kind : String} {payload : Json} (h : entry.kind = .runtime kind payload) :
    Json.get? (sessionEntryPayload entry) "entry_kind" = some (.str "runtime") := by
  unfold sessionEntryPayload
  cases entry.turnId <;> simp [h, Json.object, SessionEntryKind.asRef]

theorem Records.appendsRuntimeKind (h : Records event entry) (kind : String) :
    appendsRuntimeKind event kind = true ↔ ∃ payload, entry.kind = .runtime kind payload := by
  rw [Verlet.Kernel.appendsRuntimeKind, decide_eq_true_iff, h.index, get?_runtime_kind]
  constructor
  · rintro ⟨-, hkind⟩
    cases hentry : entry.kind with
    | runtime k payload =>
      rw [hentry] at hkind
      obtain rfl := Option.some.inj hkind
      exact ⟨payload, rfl⟩
    | _ =>
      rw [hentry] at hkind
      cases hkind
  · rintro ⟨payload, hentry⟩
    exact ⟨h.kind, by rw [hentry]⟩

theorem Records.isThreadStarted (h : Records event entry) :
    isThreadStarted event = true ↔ ∃ payload, entry.kind = .runtime "thread_started" payload := by
  rw [Verlet.Kernel.isThreadStarted, Bool.and_eq_true, h.appendsRuntimeKind, decide_eq_true_iff]
  refine and_iff_left_of_imp fun ⟨payload, hentry⟩ => ?_
  rw [h.index, get?_entry_kind hentry]
  rfl

/-- **A start identity is read back from its event.** -/
theorem Records.startIdentityOf (h : Records event entry) {context : ThreadContext}
    (hentry : entry.kind = startIdentityKind context) :
    startIdentityOf event = some (some (context.topology, context.metadata)) := by
  have hpayload : Json.index event.payload "runtime_payload" = startIdentityPayload context := by
    rw [h.index, get?_runtime_payload hentry]
    rfl
  rw [Verlet.Kernel.startIdentityOf, hpayload, startIdentityPayload, Json.asObject]
  simp [Json.object, Wire.reads_threadTopology.back, Wire.reads_metadata.back]

end

/-! ### What the child's events say -/

/-- The context of the start identity that the event is, if it is one of a fork of the parent. -/
def forkStartOf (coordinates : ThreadCoordinates) (parentThreadId : ThreadId) (event : EventRecord) :
    Option ThreadContext :=
  if isThreadStarted event then
    match startIdentityOf event with
    | some (some (topology, metadata)) =>
      let context := ThreadContext.withTopologyAndMetadata coordinates topology metadata
      if forkChildContextIsCompatible context coordinates parentThreadId then some context else none
    | _ => none
  else none

section
variable {coordinates : ThreadCoordinates} {parentThreadId : ThreadId} {event : EventRecord}
  {events : List EventRecord} {context : ThreadContext}

theorem durableStart_some
    (h : durableStart coordinates parentThreadId events = some (some context)) :
    ∃ event ∈ events, forkStartOf coordinates parentThreadId event = some context := by
  induction events with
  | nil => cases h
  | cons event events ih =>
    have htail (h : durableStart coordinates parentThreadId events = some (some context)) :
        ∃ found ∈ event :: events, forkStartOf coordinates parentThreadId found = some context := by
      obtain ⟨found, hfound, hstart⟩ := ih h
      exact ⟨found, List.mem_cons_of_mem _ hfound, hstart⟩
    rw [durableStart] at h
    split at h
    · rename_i hstarted
      cases hidentity : startIdentityOf event with
      | none =>
        rw [hidentity] at h
        cases h
      | some identity =>
        rw [hidentity] at h
        cases identity with
        | none => exact htail h
        | some identity =>
          simp only [Option.bind_eq_bind, Option.bind_some] at h
          split at h
          · rename_i hcompatible
            obtain rfl := Option.some.inj (Option.some.inj h)
            refine ⟨event, List.mem_cons_self, ?_⟩
            simp [forkStartOf, hstarted, hidentity, hcompatible]
          · exact htail h
    · exact htail h

/-- **The first start identity is what the events say**, where it is a fork's of the parent. -/
theorem durableStart_start {passed rest : List EventRecord}
    (hpassed : ∀ event ∈ passed, isThreadStarted event = false)
    (h : forkStartOf coordinates parentThreadId event = some context) :
    durableStart coordinates parentThreadId (passed ++ event :: rest) = some (some context) := by
  induction passed with
  | nil =>
    unfold forkStartOf at h
    rw [List.nil_append, durableStart]
    split at h
    · rename_i hstarted
      rw [if_pos hstarted]
      split at h
      · rename_i topology metadata hidentity
        rw [hidentity]
        simp only [Option.bind_eq_bind, Option.bind_some]
        dsimp only at h
        split at h
        · rename_i hcompatible
          rw [if_pos hcompatible]
          exact congrArg some h
        · cases h
      · cases h
    · cases h
  | cons first passed ih =>
    rw [List.cons_append, durableStart, if_neg]
    · exact ih fun event hevent => hpassed event (List.mem_cons_of_mem _ hevent)
    · rw [hpassed first List.mem_cons_self]
      exact Bool.false_ne_true

variable {entry : SessionEntry}

theorem forkStartOf_start (h : Records event entry)
    (hentry : entry.kind = startIdentityKind context)
    (hcompatible : forkChildContextIsCompatible context coordinates parentThreadId = true)
    (hcontext : context.parentThreadId = context.topology.compatibilityParentThreadId) :
    forkStartOf coordinates parentThreadId event = some context := by
  have hsame : ThreadContext.withTopologyAndMetadata coordinates context.topology context.metadata =
      context := by
    obtain ⟨own, parent, topology, metadata⟩ := context
    obtain rfl : own = coordinates := (of_decide_eq_true hcompatible).1
    exact congrArg (ThreadContext.mk own · topology metadata) hcontext.symm
  have hstarted : isThreadStarted event = true := h.isThreadStarted.mpr ⟨_, hentry⟩
  simp [forkStartOf, hstarted, h.startIdentityOf hentry, hsame, hcompatible]

theorem forkStartOf_of_not_started (h : isThreadStarted event = false) :
    forkStartOf coordinates parentThreadId event = none := by
  simp [forkStartOf, h]

/-! ### Honest entries -/

/-- A start identity among the entries of the thread is that of no branch of the thread itself. -/
def Honest (thread : ThreadId) (kind : SessionEntryKind) : Prop :=
  ∀ payload, kind = .runtime "thread_started" payload →
    ∃ context, payload = startIdentityPayload context ∧
      context.topology.branchParentThreadId ≠ some thread

/-- **An honest entry's event is no fork's start identity.** -/
theorem forkStartOf_of_honest (h : Records event entry) (hhonest : Honest parentThreadId entry.kind) :
    forkStartOf coordinates parentThreadId event = none := by
  by_cases hstarted : isThreadStarted event = true
  · obtain ⟨payload, hentry⟩ := h.isThreadStarted.mp hstarted
    obtain ⟨context, rfl, hother⟩ := hhonest payload hentry
    simp [forkStartOf, hstarted, h.startIdentityOf hentry, forkChildContextIsCompatible,
      ThreadContext.withTopologyAndMetadata, hother]
  · exact forkStartOf_of_not_started (Bool.eq_false_iff.mpr hstarted)

/-! ### Whether an identity is recorded -/

/-- **A start identity that is recorded is found**, if the search gets through. -/
theorem anyMatches_start (h : Records event entry) (hentry : entry.kind = startIdentityKind context)
    (hevent : event ∈ events) : anyMatches context events ≠ some false := by
  have hmatches : threadStartIdentityMatchesContext event context = some true := by
    have happends : appendsRuntimeKind event "thread_started" = true :=
      (h.appendsRuntimeKind _).mpr ⟨_, hentry⟩
    simp [threadStartIdentityMatchesContext, happends, h.startIdentityOf hentry]
  induction events with
  | nil => cases hevent
  | cons first rest ih =>
    rcases List.mem_cons.mp hevent with rfl | hrest
    · simp [anyMatches, hmatches]
    · rw [anyMatches]
      cases threadStartIdentityMatchesContext first context with
      | none => exact nofun
      | some found =>
        cases found with
        | true => exact nofun
        | false => exact ih hrest

end

/-! ### What the cloned branch says -/

section
variable {checkpoint : ThreadCheckpoint} {childThreadId : ThreadId}

/-- **A checkpoint is read back from its payload.** -/
theorem readCheckpoint_payload (childThreadId : ThreadId) (checkpoint : ThreadCheckpoint) :
    readCheckpoint childThreadId (checkpointPayload checkpoint) =
      .ok (checkpoint.id, checkpoint.metadata) := by
  have hid : (Json.index (checkpointPayload checkpoint) "checkpoint_id").asStr =
      some checkpoint.id.uuid.text := by
    simp [checkpointPayload, Json.index, Json.asObject, Json.object, Json.asStr]
  have hmetadata : ((checkpointPayload checkpoint).asObject.bind fun fields =>
      Json.get? fields "metadata") = some (Wire.metadata.toValue checkpoint.metadata) := by
    simp [checkpointPayload, Json.asObject, Json.object]
  rw [readCheckpoint, hid, hmetadata]
  simp only [Uuid.parse_text, Wire.reads_metadata.back]
  rfl

/-- The entry is the one that `create_checkpoint` appended for the checkpoint. -/
def IsCheckpoint (checkpoint : ThreadCheckpoint) (entry : SessionEntry) : Prop :=
  entry.kind = .runtime "thread_checkpoint" (checkpointPayload checkpoint)

/-- **A branch that ends at a checkpoint is the fork's at that checkpoint**, whatever checkpoint of
the same thread the recovery comes with. -/
theorem clonedContext_of_last {made : ThreadCheckpoint} {entries : List SessionEntry}
    {last : SessionEntry} (hlast : entries.getLast? = some last) (hmade : IsCheckpoint made last)
    (hsame : checkpoint.coordinates = made.coordinates) :
    clonedContext checkpoint childThreadId entries = .ok (desiredContext made childThreadId) := by
  have hfound : entries.reverse.findSome? checkpointPayloadOf = some (checkpointPayload made) := by
    obtain ⟨init, rfl⟩ := List.getLast?_eq_some_iff.mp hlast
    have hpayload : checkpointPayloadOf last = some (checkpointPayload made) := by
      rw [checkpointPayloadOf, hmade]
      rfl
    rw [List.reverse_append, List.reverse_singleton, List.singleton_append, List.findSome?_cons,
      hpayload]
  simp only [clonedContext, hfound, readCheckpoint_payload]
  rw [desiredContext, forkCoordinates, forkCoordinates, hsame]

end

end Verlet.Kernel
