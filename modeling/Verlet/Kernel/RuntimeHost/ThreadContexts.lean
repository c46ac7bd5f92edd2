import Verlet.Kernel.ControlDecision.Wire

/-!
# Kernel — The runtime host — Thread contexts

What a thread is started with: its coordinates, where it comes from (its topology), and its metadata.
A fork starts a branch of its parent at a checkpoint, and its metadata name both.
-/

namespace Verlet.Kernel
open Support History

structure RuntimeEventId where
  uuid : Uuid
deriving DecidableEq

inductive ThreadInitiationSource where
  | root
  | thread (threadId : ThreadId) (turnId : Option String) (eventId : Option RuntimeEventId)
deriving DecidableEq

inductive ThreadLineage where
  | root
  | branch (parentThreadId : ThreadId) (checkpointId : Option ThreadCheckpointId)
deriving DecidableEq

structure ThreadSpawnAttribution where
  sourceThreadId : ThreadId
  sourceTurnId : Option String
  sourceEventId : Option RuntimeEventId
  promptRef : Option String
deriving DecidableEq

structure ThreadTopology where
  initiation : ThreadInitiationSource
  lineage : ThreadLineage
  spawnAttribution : Option ThreadSpawnAttribution
  controllerThreadId : Option ThreadId
deriving DecidableEq

namespace ThreadTopology

def root : ThreadTopology := ⟨.root, .root, none, none⟩

def spawnedFrom (sourceThreadId : ThreadId) : ThreadTopology where
  initiation := .thread sourceThreadId none none
  lineage := .root
  spawnAttribution := some ⟨sourceThreadId, none, none, none⟩
  controllerThreadId := some sourceThreadId

def branchFrom (parentThreadId : ThreadId) (checkpointId : Option ThreadCheckpointId) :
    ThreadTopology := ⟨.root, .branch parentThreadId checkpointId, none, none⟩

def compatibilityParentThreadId (topology : ThreadTopology) : Option ThreadId :=
  match topology.lineage with
  | .branch parentThreadId _ => some parentThreadId
  | .root => topology.spawnAttribution.map (·.sourceThreadId)

def branchParentThreadId (topology : ThreadTopology) : Option ThreadId :=
  match topology.lineage with
  | .branch parentThreadId _ => some parentThreadId
  | .root => none

theorem compatibilityParent_of_branch {topology : ThreadTopology} {parent : ThreadId}
    (h : topology.branchParentThreadId = some parent) :
    topology.compatibilityParentThreadId = some parent := by
  obtain ⟨initiation, lineage, attribution, controller⟩ := topology
  cases lineage with
  | root => cases h
  | branch parentThreadId checkpointId => exact h

end ThreadTopology

/-! ### Metadata -/

/-- A `BTreeMap<String, String>`, as its listing by key. -/
abbrev Metadata := List (String × String)

namespace Metadata

def get? (metadata : Metadata) (key : String) : Option String := metadata.lookup key

def insert (key value : String) : Metadata → Metadata
  | []             => [(key, value)]
  | (k, v) :: rest =>
    if key = k then (key, value) :: rest
    else if Json.textBefore key.toList k.toList then (key, value) :: (k, v) :: rest
    else (k, v) :: insert key value rest

theorem get?_cons (key k v : String) (rest : Metadata) :
    get? ((k, v) :: rest) key = if key = k then some v else get? rest key := by
  by_cases h : key = k
  · simp [get?, h]
  · simp [get?, List.lookup_cons, h, beq_eq_false_iff_ne.mpr h]

@[simp] theorem get?_insert (key k v : String) (metadata : Metadata) :
    get? (insert k v metadata) key = if key = k then some v else get? metadata key := by
  induction metadata with
  | nil => rw [insert, get?_cons]
  | cons entry rest ih =>
    obtain ⟨k', v'⟩ := entry
    rw [insert]
    split
    · next h =>
      subst h
      simp only [get?_cons]
      split <;> rfl
    · next h =>
      split
      · exact get?_cons key k v _
      · rw [get?_cons, ih, get?_cons]
        by_cases hk : key = k'
        · subst hk
          simp [Ne.symm h]
        · simp [hk]

end Metadata

/-! ### Contexts and checkpoints -/

structure ThreadContext where
  coordinates : ThreadCoordinates
  parentThreadId : Option ThreadId
  topology : ThreadTopology
  metadata : Metadata

def ThreadContext.withTopologyAndMetadata (coordinates : ThreadCoordinates)
    (topology : ThreadTopology) (metadata : Metadata) : ThreadContext where
  coordinates := coordinates
  parentThreadId := topology.compatibilityParentThreadId
  topology := topology
  metadata := metadata

inductive ThreadCheckpointLineage where
  | unknown
  | root
  | parent (parentThreadId : ThreadId)

structure ThreadCheckpoint where
  id : ThreadCheckpointId
  coordinates : ThreadCoordinates
  lineage : ThreadCheckpointLineage
  parentCheckpointId : Option ThreadCheckpointId
  activeEntryId : Option SessionEntryId
  label : Option String
  metadata : Metadata
  createdAtMs : Nat

def forkChildContextIsCompatible (context : ThreadContext) (coordinates : ThreadCoordinates)
    (parentThreadId : ThreadId) : Bool :=
  context.coordinates = coordinates ∧
    context.topology.branchParentThreadId = some parentThreadId ∧
    context.metadata.get? "forked_from_thread_id" = some parentThreadId.uuid.text

def forkMetadata (parentThreadId : ThreadId) (checkpointId : ThreadCheckpointId)
    (metadata : Metadata) : Metadata :=
  (metadata.insert "forked_from_thread_id" parentThreadId.uuid.text).insert
    "forked_from_checkpoint_id" checkpointId.uuid.text

def forkContext (forkCoordinates : ThreadCoordinates) (parentThreadId : ThreadId)
    (checkpointId : ThreadCheckpointId) (metadata : Metadata) : ThreadContext :=
  .withTopologyAndMetadata forkCoordinates (.branchFrom parentThreadId (some checkpointId))
    (forkMetadata parentThreadId checkpointId metadata)

theorem forkContext_compatible (forkCoordinates : ThreadCoordinates) (parentThreadId : ThreadId)
    (checkpointId : ThreadCheckpointId) (metadata : Metadata) :
    forkChildContextIsCompatible (forkContext forkCoordinates parentThreadId checkpointId metadata)
      forkCoordinates parentThreadId = true := by
  simp [forkChildContextIsCompatible, forkContext, ThreadContext.withTopologyAndMetadata,
    ThreadTopology.branchFrom, ThreadTopology.branchParentThreadId, forkMetadata]

theorem compatibilityParent_of_compatible {context : ThreadContext} {coordinates : ThreadCoordinates}
    {parent : ThreadId} (h : forkChildContextIsCompatible context coordinates parent = true) :
    context.topology.compatibilityParentThreadId = some parent :=
  ThreadTopology.compatibilityParent_of_branch (of_decide_eq_true h).2.1

/-! ### On the wire -/

namespace Wire

def runtimeEventId (value : Json) : Except String RuntimeEventId :=
  match value.asStr.bind Uuid.parseStr with
  | some uuid => .ok ⟨uuid⟩
  | none      => .error "UUID parsing failed"

def checkpointId (value : Json) : Except String ThreadCheckpointId :=
  match value.asStr.bind Uuid.parseStr with
  | some uuid => .ok ⟨uuid⟩
  | none      => .error "UUID parsing failed"

def threadInitiation : Serde ThreadInitiationSource where
  toValue
    | .root => object [("type", .str "root")]
    | .thread threadId turnId eventId =>
      object ([("type", .str "thread"), ("thread_id", .str threadId.uuid.text)] ++
        (optional "turn_id" .str turnId ++
          optional "event_id" (fun id : RuntimeEventId => .str id.uuid.text) eventId))
  fromValue value := do
    let fields ← fieldsOf value
    let tag ← required text fields "type"
    if tag = "root" then return .root
    else if tag = "thread" then
      return .thread (← required threadId fields "thread_id") (← option text fields "turn_id")
        (← option runtimeEventId fields "event_id")
    else throw s!"unknown variant {tag}"

def threadLineage : Serde ThreadLineage where
  toValue
    | .root => object [("type", .str "root")]
    | .branch parentThreadId checkpointId =>
      object ([("type", .str "branch"), ("parent_thread_id", .str parentThreadId.uuid.text)] ++
        optional "checkpoint_id" (fun id : ThreadCheckpointId => .str id.uuid.text) checkpointId)
  fromValue value := do
    let fields ← fieldsOf value
    let tag ← required text fields "type"
    if tag = "root" then return .root
    else if tag = "branch" then
      return .branch (← required threadId fields "parent_thread_id")
        (← option checkpointId fields "checkpoint_id")
    else throw s!"unknown variant {tag}"

def spawnAttribution : Serde ThreadSpawnAttribution where
  toValue a := object ([("source_thread_id", .str a.sourceThreadId.uuid.text)] ++
    (optional "source_turn_id" .str a.sourceTurnId ++
      (optional "source_event_id" (fun id : RuntimeEventId => .str id.uuid.text) a.sourceEventId ++
        optional "prompt_ref" .str a.promptRef)))
  fromValue value := do
    let fields ← fieldsOf value
    return ⟨← required threadId fields "source_thread_id", ← option text fields "source_turn_id",
      ← option runtimeEventId fields "source_event_id", ← option text fields "prompt_ref"⟩

def threadTopology : Serde ThreadTopology where
  toValue t := object ([("initiation", threadInitiation.toValue t.initiation),
    ("lineage", threadLineage.toValue t.lineage)] ++
      (optional "spawn_attribution" spawnAttribution.toValue t.spawnAttribution ++
        optional "controller_thread_id" (fun id : ThreadId => .str id.uuid.text)
          t.controllerThreadId))
  fromValue value := do
    let fields ← fieldsOf value
    return ⟨← defaulted threadInitiation.fromValue fields "initiation" .root,
      ← defaulted threadLineage.fromValue fields "lineage" .root,
      ← option spawnAttribution.fromValue fields "spawn_attribution",
      ← option threadId fields "controller_thread_id"⟩

def metadata : Serde Metadata where
  toValue m := .obj (m.map fun entry => (entry.1, .str entry.2))
  fromValue value := do
    let fields ← fieldsOf value
    fields.mapM fun field => return (field.1, ← text field.2)

def checkpointLineage (lineage : ThreadCheckpointLineage) : Json :=
  match lineage with
  | .unknown => object [("kind", .str "unknown")]
  | .root => object [("kind", .str "root")]
  | .parent parentThreadId =>
    object [("kind", .str "parent"), ("parent_thread_id", .str parentThreadId.uuid.text)]

theorem reads_runtimeEventId :
    Reads (fun id : RuntimeEventId => .str id.uuid.text) runtimeEventId :=
  ⟨fun id => by simp [runtimeEventId, Json.asStr, Uuid.parse_text], fun _ => by simp⟩

theorem reads_checkpointId :
    Reads (fun id : ThreadCheckpointId => .str id.uuid.text) checkpointId :=
  ⟨fun id => by simp [checkpointId, Json.asStr, Uuid.parse_text], fun _ => by simp⟩

theorem reads_threadInitiation : Reads threadInitiation.toValue threadInitiation.fromValue := by
  refine ⟨fun source => ?_, fun source => by cases source <;> simp [threadInitiation, object]⟩
  cases source with
  | root => exact bind_ok.mpr ⟨_, rfl, bind_ok.mpr ⟨"root", rfl, rfl⟩⟩
  | thread threadId turnId eventId =>
    refine bind_ok.mpr ⟨_, rfl, bind_ok.mpr ⟨"thread", required_ok reads_text ?_, ?_⟩⟩
    · simp [get?_object]
    refine reads_threadId.required ?_ <| reads_text.option ?_ <| reads_runtimeEventId.option ?_ rfl
    all_goals simp [get?_object]

theorem reads_threadLineage : Reads threadLineage.toValue threadLineage.fromValue := by
  refine ⟨fun lineage => ?_, fun lineage => by cases lineage <;> simp [threadLineage, object]⟩
  cases lineage with
  | root => exact bind_ok.mpr ⟨_, rfl, bind_ok.mpr ⟨"root", rfl, rfl⟩⟩
  | branch parentThreadId checkpointId =>
    refine bind_ok.mpr ⟨_, rfl, bind_ok.mpr ⟨"branch", required_ok reads_text ?_, ?_⟩⟩
    · simp [get?_object]
    refine reads_threadId.required ?_ <| reads_checkpointId.option ?_ rfl
    all_goals simp [get?_object]

theorem reads_spawnAttribution : Reads spawnAttribution.toValue spawnAttribution.fromValue := by
  refine ⟨fun a => ?_, fun _ => by simp [spawnAttribution, object]⟩
  refine bind_ok.mpr ⟨_, rfl, reads_threadId.required ?_ <| reads_text.option ?_ <|
    reads_runtimeEventId.option ?_ <| reads_text.option ?_ rfl⟩
  all_goals simp [get?_object]

/-- **A topology is read back as it was written.** -/
theorem reads_threadTopology : Reads threadTopology.toValue threadTopology.fromValue := by
  refine ⟨fun t => ?_, fun _ => by simp [threadTopology, object]⟩
  refine bind_ok.mpr ⟨_, rfl, reads_threadInitiation.defaulted ?_ <|
    reads_threadLineage.defaulted ?_ <| reads_spawnAttribution.option ?_ <|
    reads_threadId.option ?_ rfl⟩
  all_goals simp [get?_object]

/-- **Metadata are read back as they were written.** -/
theorem reads_metadata : Reads metadata.toValue metadata.fromValue := by
  refine ⟨fun m => ?_, fun _ => by simp [metadata]⟩
  refine bind_ok.mpr ⟨_, rfl, ?_⟩
  induction m with
  | nil => rfl
  | cons entry rest ih =>
    rw [List.map_cons, List.mapM_cons]
    exact bind_ok.mpr ⟨entry, rfl, bind_ok.mpr ⟨rest, ih, rfl⟩⟩

end Wire

/-- The payload of a `thread_started` entry. -/
def startIdentityPayload (context : ThreadContext) : Json :=
  .obj (Json.object [("parent_thread_id", .ofOption (fun id => id.uuid.text) context.parentThreadId),
    ("topology", Wire.threadTopology.toValue context.topology),
    ("metadata", Wire.metadata.toValue context.metadata)])

/-- The payload of a `thread_checkpoint` entry. -/
def checkpointPayload (checkpoint : ThreadCheckpoint) : Json :=
  .obj (Json.object [("checkpoint_id", .str checkpoint.id.uuid.text),
    ("lineage", Wire.checkpointLineage checkpoint.lineage),
    ("parent_checkpoint_id", .ofOption (fun id => id.uuid.text) checkpoint.parentCheckpointId),
    ("label", (checkpoint.label.map Json.str).getD .null),
    ("metadata", Wire.metadata.toValue checkpoint.metadata)])

end Verlet.Kernel
