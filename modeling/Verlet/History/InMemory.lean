import Verlet.Support.Chains
import Verlet.Support.Maps
import Verlet.History.Context
import Verlet.History.Operations

/-!
# History — The in-memory store

`InMemorySessionStore`: the maps behind its lock, and its operations as fallible computations
over them, in the source's order of checks and writes.  A handle is its lease epoch; every handle
shares one `Inner`.  The ids and times an operation draws are its arguments (`Draw`).

A `HashMap` is a `Map`; where the source iterates one (`append_turn_input` looking for a turn),
the order is the map's own, and at most one entry matches.
-/

namespace Verlet.History.InMemory
open Support

/-- `InMemorySessionStoreInner`, less its observations. -/
structure Inner where
  entries : Map ThreadId (Map SessionEntryId SessionEntry)
  activeLeaf : Map ThreadId SessionEntryId
  bases : Map ThreadId ThreadBaseRef
  events : Map EventStreamId (List EventRecord)
  eventIds : Finset EventRecordId
  leaseEpochMinimums : Map EventStreamId Nat

/-- `InMemorySessionStoreInner::default`. -/
def Inner.empty : Inner := ⟨∅, ∅, ∅, ∅, ∅, ∅⟩

abbrev StoreM := Fallible HistoryError Inner

variable (inner : Inner)

/-- The entry stored under `thread` and `id`. -/
def Inner.entryAt (thread : ThreadId) (id : SessionEntryId) : Option SessionEntry :=
  (inner.entries.lookup thread).bind (·.lookup id)

variable (streamId : EventStreamId)

/-- The events of a stream; an absent stream has none. -/
def Inner.eventsOf : List EventRecord :=
  (inner.events.lookup streamId).getD []

/-! ### The lease fence -/

def checkInMemoryLeaseEpoch (presentedEpoch : Nat) : HistoryResult Unit :=
  match inner.leaseEpochMinimums.lookup streamId with
  | some minimumEpoch =>
    if presentedEpoch < minimumEpoch then
      .error (.staleLeaseEpoch streamId presentedEpoch minimumEpoch)
    else .ok ()
  | none => .ok ()

def raiseInMemoryLeaseEpoch (presentedEpoch : Nat) (inner : Inner) : Inner :=
  if 0 < presentedEpoch then
    { inner with
      leaseEpochMinimums := inner.leaseEpochMinimums.insert streamId
        (match inner.leaseEpochMinimums.lookup streamId with
        | some minimumEpoch => max minimumEpoch presentedEpoch
        | none => presentedEpoch) }
  else inner

/-! ### Appending events -/

/-- The first loop of `append_in_memory_events`: every record is valid and new, to the store and
to the batch.  The result is `batch_ids`. -/
def checkBatch (eventIds : Finset EventRecordId) :
    List NewEventRecord → List EventRecordId → HistoryResult (List EventRecordId)
  | [],           batchIds => .ok batchIds
  | record :: rs, batchIds => do
    validateNewEvent record
    if record.id ∈ eventIds ∨ record.id ∈ batchIds then
      throw (.duplicateEventId record.id)
    checkBatch eventIds rs (record.id :: batchIds)

/-- The second loop: number the records after `currentLen` and validate each against the frozen
schema. -/
def numberBatch (streamId : EventStreamId) (currentLen : Nat) :
    List NewEventRecord → Nat → HistoryResult (List EventRecord)
  | [],           _     => .ok []
  | record :: rs, index => do
    let event := EventRecord.fromNew streamId (currentLen + index + 1) record
    event.validateStreamRecordV1
    return event :: (← numberBatch streamId currentLen rs (index + 1))

def appendInMemoryEvents (records : List NewEventRecord)
    (leaseEpoch : Nat) : StoreM (List EventRecord) := do
  let batchIds ← reading fun inner => checkBatch inner.eventIds records []
  let appended ← reading fun inner =>
    numberBatch streamId (inner.eventsOf streamId).length records 0
  writing (raiseInMemoryLeaseEpoch streamId leaseEpoch)
  writing fun inner =>
    { inner with events := inner.events.insert streamId (inner.eventsOf streamId ++ appended) }
  writing fun inner => { inner with eventIds := inner.eventIds ∪ batchIds.toFinset }
  return appended

/-! ### Reading branches and contexts -/

/-- `branch_path`: the entries from the root to `leaf`.  The source pushes them leaf first and
reverses. -/
def branchPath (entriesById : Map SessionEntryId SessionEntry) (leaf : SessionEntryId)
    (coordinates : ThreadCoordinates) : HistoryResult (List SessionEntry) :=
  (follow (fun id => do
      let entry ← okOr (.entryNotFound id) (entriesById.lookup id)
      validateEntryCoordinates coordinates entry
      return entry)
    (·.parentEntryId) (Map.size entriesById + 1) (some leaf) []).getD (.error .diverged)

variable (coordinates : ThreadCoordinates)

/-- The branch of a thread that ends at `leaf`. -/
def Inner.branchPath (leaf : SessionEntryId) : HistoryResult (List SessionEntry) := do
  let entriesById ← okOr (.entryNotFound leaf) (inner.entries.lookup coordinates.threadId)
  InMemory.branchPath entriesById leaf coordinates

/-- What the store answers while a context is built. -/
def Inner.source : ContextSource where
  base thread := .ok (inner.bases.lookup thread)
  activeLeaf thread := .ok (inner.activeLeaf.lookup thread)
  branchPath := inner.branchPath

/-- `build_in_memory_context`, from the outermost call. -/
def buildInMemoryContext (leafOverride : Option SessionEntryId) : HistoryResult SessionContext :=
  buildContextFrom inner.source (Map.size inner.bases + 1) coordinates leafOverride false []

def buildContext : HistoryResult SessionContext :=
  buildInMemoryContext inner coordinates none

def activeLeaf : HistoryResult (Option SessionEntryId) :=
  match inner.activeLeaf.lookup coordinates.threadId with
  | none => .ok none
  | some leaf => do
    let entry ← okOr (.entryNotFound leaf) (inner.entryAt coordinates.threadId leaf)
    validateEntryCoordinates coordinates entry
    return some leaf

def validateInMemoryBaseCycle (child parent : ThreadId) : HistoryResult Unit :=
  validateBaseCycleFrom (fun thread => .ok (inner.bases.lookup thread)) child
    (Map.size inner.bases + 2) (some parent) []

/-! ### The session operations -/

variable (thread : ThreadId)

/-- `entries.entry(thread).or_default().insert(id, entry)`. -/
def Inner.insertEntry (entry : SessionEntry) : Inner :=
  { inner with
    entries := inner.entries.insert thread
      (((inner.entries.lookup thread).getD ∅).insert entry.entryId entry) }

/-- `active_leaf.insert`. -/
def Inner.setLeaf (leaf : SessionEntryId) : Inner :=
  { inner with activeLeaf := inner.activeLeaf.insert thread leaf }

/-- `active_leaf.remove`. -/
def Inner.clearLeaf : Inner :=
  { inner with activeLeaf := inner.activeLeaf.erase thread }

/-- `bases.insert`. -/
def Inner.setBase (base : ThreadBaseRef) : Inner :=
  { inner with bases := inner.bases.insert thread base }

/-- `bases.remove`. -/
def Inner.clearBase : Inner :=
  { inner with bases := inner.bases.erase thread }

/-- The parent of a new entry: the one asked for, checked, or the active leaf, unchecked. -/
def resolveParent : Option SessionEntryId → HistoryResult (Option SessionEntryId)
  | some parent => do
    let entries ← okOr (.entryNotFound parent) (inner.entries.lookup coordinates.threadId)
    let entry ← okOr (.entryNotFound parent) (entries.lookup parent)
    validateEntryCoordinates coordinates entry
    return some parent
  | none => .ok (inner.activeLeaf.lookup coordinates.threadId)

/-- `InMemorySessionStore::append_inner`. -/
def appendInner (leaseEpoch : Nat) (draw : Draw) (coordinates : ThreadCoordinates)
    (parentEntryId : Option SessionEntryId) (kind : SessionEntryKind)
    (provenance : Option EventProvenance) : StoreM SessionEntry := do
  let parentEntryId ← reading fun inner => resolveParent inner coordinates parentEntryId
  let streamId := EventStreamId.forThread coordinates
  reading fun inner => checkInMemoryLeaseEpoch inner streamId leaseEpoch
  let entry := SessionEntry.new draw coordinates parentEntryId kind
  discard <| appendInMemoryEvents streamId [sessionEntryEvent draw entry provenance] leaseEpoch
  writing (·.insertEntry coordinates.threadId entry)
  writing (·.setLeaf coordinates.threadId entry.entryId)
  return entry

/-- The thread's entry for `turnId`, where it has one. -/
def Inner.turnEntryAt (turnId : String) : Option SessionEntry :=
  (inner.entries.lookup thread).bind fun entries =>
    (Map.values entries).find? fun entry => entry.turnId = some turnId

/-- `append_turn_input`: the entry a turn already has, or a new one. -/
def appendTurnInput (leaseEpoch : Nat) (draw : Draw) (coordinates : ThreadCoordinates)
    (turnId : String) (kind : SessionEntryKind) : StoreM SessionEntry := do
  match ← reading fun inner => .ok (inner.turnEntryAt coordinates.threadId turnId) with
  | some existing =>
    reading fun _ => validateEntryCoordinates coordinates existing
    if turnInputKindsMatch existing.kind kind then return existing
    else throw (.storage (.turnInputMismatch turnId))
  | none =>
    let parentEntryId ← reading fun inner => .ok (inner.activeLeaf.lookup coordinates.threadId)
    let streamId := EventStreamId.forThread coordinates
    reading fun inner => checkInMemoryLeaseEpoch inner streamId leaseEpoch
    let entry := SessionEntry.forTurn draw coordinates parentEntryId turnId kind
    discard <| appendInMemoryEvents streamId [sessionEntryEvent draw entry none] leaseEpoch
    writing (·.insertEntry coordinates.threadId entry)
    writing (·.setLeaf coordinates.threadId entry.entryId)
    return entry

def selectBranch (leaseEpoch : Nat) (draw : Draw) (coordinates : ThreadCoordinates)
    (leaf : Option SessionEntryId) : StoreM Unit := do
  let prior ← reading fun inner => .ok (inner.activeLeaf.lookup coordinates.threadId)
  match leaf with
  | some leaf => discard <| reading fun inner => inner.branchPath coordinates leaf
  | none => pure ()
  let payload := (ThreadBranchSelectedPayload.mk coordinates.threadId leaf prior).toValue
  let streamId := EventStreamId.forThread coordinates
  reading fun inner => checkInMemoryLeaseEpoch inner streamId leaseEpoch
  discard <| appendInMemoryEvents streamId
    [.witnessed draw coordinates .threadBranchSelected payload] leaseEpoch
  match leaf with
  | some leaf => writing (·.setLeaf coordinates.threadId leaf)
  | none => writing (·.clearLeaf coordinates.threadId)

/-- The entries `clone_branch` writes for a path: the same kinds, chained anew at the target. -/
def cloneEntries (draws : Nat → Draw) (target : ThreadCoordinates) :
    List SessionEntry → Nat → Option SessionEntryId → List SessionEntry
  | [],          _,     _      => []
  | source :: p, index, parent =>
    let entry := SessionEntry.new (draws index) target parent source.kind
    entry :: cloneEntries draws target p (index + 1) (some entry.entryId)

def cloneEvents (draws : Nat → Draw) (entries : List SessionEntry) : List NewEventRecord :=
  entries.mapIdx fun index entry => sessionEntryEvent (draws index) entry none

def cloneBranch (leaseEpoch : Nat) (draws : Nat → Draw) (source : ThreadCoordinates)
    (sourceLeaf : Option SessionEntryId) (target : ThreadCoordinates) :
    StoreM (Option SessionEntryId) := do
  match sourceLeaf with
  | none =>
    writing (·.clearBase target.threadId)
    writing (·.clearLeaf target.threadId)
    return none
  | some sourceLeaf =>
    let path ← reading fun inner => inner.branchPath source sourceLeaf
    let streamId := EventStreamId.forThread target
    reading fun inner => checkInMemoryLeaseEpoch inner streamId leaseEpoch
    let cloned := cloneEntries draws target path 0 none
    discard <| appendInMemoryEvents streamId (cloneEvents draws cloned) leaseEpoch
    writing (·.clearBase target.threadId)
    writing fun inner => cloned.foldl (·.insertEntry target.threadId ·) inner
    match cloned.getLast? with
    | some last => writing (·.setLeaf target.threadId last.entryId)
    | none => pure ()
    return cloned.getLast?.map (·.entryId)

def forkByReference (source target : ThreadCoordinates) (base : ThreadBaseRef) : StoreM Unit := do
  reading fun _ => validateThreadBaseRef source target base
  reading fun inner => validateInMemoryBaseCycle inner target.threadId source.threadId
  match base.parentLeafEntryId with
  | some leaf => discard <| reading fun inner => buildInMemoryContext inner source (some leaf)
  | none => pure ()
  writing (·.clearLeaf target.threadId)
  writing (·.setBase target.threadId base)

/-! ### The event operations -/

def appendEvents (leaseEpoch : Nat) (streamId : EventStreamId) (records : List NewEventRecord) :
    StoreM (List EventRecord) := do
  reading fun inner => checkInMemoryLeaseEpoch inner streamId leaseEpoch
  appendInMemoryEvents streamId records leaseEpoch

def appendEventsFenced (leaseEpoch : Nat) (streamId : EventStreamId) (expected : EventSequence)
    (records : List NewEventRecord) : StoreM (List EventRecord) := do
  reading fun inner => checkInMemoryLeaseEpoch inner streamId leaseEpoch
  reading fun inner =>
    let actual : EventSequence := (inner.eventsOf streamId).length + 1
    if actual ≠ expected then .error (.appendFenceConflict streamId expected actual) else .ok ()
  appendInMemoryEvents streamId records leaseEpoch

def readEvents (fromSequence : Option EventSequence) : HistoryResult (List EventRecord) :=
  .ok ((inner.eventsOf streamId).filter fun event =>
    match fromSequence with
    | some sequence => sequence ≤ event.sequence
    | none => true)

/-! ### The store as a machine -/

def perform (call : Call) : StoreM Reply :=
  match call.op with
  | .append coordinates parent kind provenance =>
    .entry <$> appendInner call.leaseEpoch (call.draws 0) coordinates parent kind provenance
  | .appendTurnInput coordinates turnId kind =>
    .entry <$> appendTurnInput call.leaseEpoch (call.draws 0) coordinates turnId kind
  | .selectBranch coordinates leaf =>
    (fun _ => .unit) <$> selectBranch call.leaseEpoch (call.draws 0) coordinates leaf
  | .cloneBranch source sourceLeaf target =>
    .leaf <$> cloneBranch call.leaseEpoch call.draws source sourceLeaf target
  | .forkByReference source target base =>
    (fun _ => .unit) <$> forkByReference source target base
  | .appendEvents streamId records =>
    .events <$> appendEvents call.leaseEpoch streamId records
  | .appendEventsFenced streamId expected records =>
    .events <$> appendEventsFenced call.leaseEpoch streamId expected records

/-- The answer to a call, and the state it leaves. -/
def step (call : Call) (inner : Inner) : HistoryResult Reply × Inner := exec (perform call) inner

end Verlet.History.InMemory
