import Mathlib.Data.List.Sort
import Verlet.Support.Chains
import Verlet.Support.Maps
import Verlet.History.Context
import Verlet.History.Operations

/-!
# History — The SQLite store

`SqliteSessionStore`: its tables, and its operations as transactions over them, statement by
statement.  A table with a rowid that is read in rowid order, or through more than its key, is a
list of rows; a table read by its primary key alone is a `Map`.  A statement that violates a
constraint (a primary key, a unique index, a foreign key) fails, and a failed transaction rolls
back.

A UUID column holds the UUID: its text names it (`Uuid.text_injective`) and reads back
(`Uuid.parse_text`).  The JSON columns hold what `serde_json` makes of a value, a `Codec`; a new
database needs no migration.
-/

namespace Verlet.History.Sqlite
open Support

/-- `serde_json::to_string` and `from_str`, at the types the store writes. -/
structure Codec (Text : Type) where
  encodeEntry : SessionEntry → Text
  decodeEntry : Text → Option SessionEntry
  encodeValue : Json → Text
  decodeValue : Text → Option Json
  encodeProvenance : EventProvenance → Text
  decodeProvenance : Text → Option EventProvenance

/-! ### Tables -/

/-- A row of `session_entries`; the coordinates are four columns. -/
structure EntryRow (Text : Type) where
  entryId : SessionEntryId
  parentEntryId : Option SessionEntryId
  turnId : Option String
  coordinates : ThreadCoordinates
  createdAtMs : Int
  entryJson : Text

/-- A row of `event_records`; the coordinates are four columns. -/
structure EventRow (Text : Type) where
  eventId : EventRecordId
  schema : String
  payloadSchema : String
  streamId : EventStreamId
  sequence : EventSequence
  coordinates : ThreadCoordinates
  createdAtMs : Int
  kind : String
  origin : String
  provenanceJson : Text
  payloadJson : Text
deriving DecidableEq

/-- The database: `session_entries` and `event_records` in rowid order, `active_leaves`,
`thread_bases` and `journal_lease_epochs` by key. -/
structure Db (Text : Type) where
  sessionEntries : List (EntryRow Text)
  activeLeaves : Map ThreadId SessionEntryId
  threadBases : Map ThreadId ThreadBaseRef
  eventRecords : List (EventRow Text)
  journalLeaseEpochs : Map EventStreamId Int

variable {Text : Type}

/-- A new database. -/
def Db.empty : Db Text := ⟨[], ∅, ∅, [], ∅⟩

abbrev StoreM (Text : Type) := Fallible HistoryError (Db Text)
abbrev StoreTx (Text : Type) := Tx HistoryError (Db Text)

variable (codec : Codec Text)

def EntryRow.of (entry : SessionEntry) : EntryRow Text where
  entryId := entry.entryId
  parentEntryId := entry.parentEntryId
  turnId := entry.turnId
  coordinates := entry.coordinates
  createdAtMs := entry.createdAtMs
  entryJson := codec.encodeEntry entry

def EventRow.of (event : EventRecord) : EventRow Text where
  eventId := event.id
  schema := streamRecordSchemaIdV1
  payloadSchema := event.kind.payloadSchemaId
  streamId := event.streamId
  sequence := event.sequence
  coordinates := event.coordinates
  createdAtMs := event.createdAtMs
  kind := event.kind.asRef
  origin := event.origin.asRef
  provenanceJson := codec.encodeProvenance event.provenance
  payloadJson := codec.encodeValue event.payload

/-! ### Statements -/

/-- Some entry has the id: what a foreign key to `session_entries` asks. -/
def Db.hasEntry (db : Db Text) (id : SessionEntryId) : Bool :=
  db.sessionEntries.any fun row => row.entryId = id

/-- `INSERT INTO session_entries`: the primary key, the foreign key of the parent, and the unique
index over the turns of a thread. -/
def insertEntryRow (row : EntryRow Text) (db : Db Text) : HistoryResult (Db Text) :=
  if db.hasEntry row.entryId then .error (.storage (.constraint "session_entries.entry_id"))
  else if row.parentEntryId.any (fun parent => parent ≠ row.entryId ∧ ¬ db.hasEntry parent) then
    .error (.storage (.constraint "session_entries.parent_entry_id"))
  else if row.turnId.isSome ∧ db.sessionEntries.any fun other =>
      other.coordinates.threadId = row.coordinates.threadId ∧ other.turnId = row.turnId then
    .error (.storage (.constraint "session_entries.turn_id"))
  else .ok { db with sessionEntries := db.sessionEntries ++ [row] }

/-- `INSERT INTO event_records`: the primary key and the unique place in the stream. -/
def insertEventRow (row : EventRow Text) (db : Db Text) : HistoryResult (Db Text) :=
  if db.eventRecords.any fun other => other.eventId = row.eventId then
    .error (.storage (.constraint "event_records.event_id"))
  else if db.eventRecords.any fun other =>
      other.streamId = row.streamId ∧ other.sequence = row.sequence then
    .error (.storage (.constraint "event_records.sequence"))
  else .ok { db with eventRecords := db.eventRecords ++ [row] }

/-- `INSERT INTO active_leaves .. ON CONFLICT DO UPDATE`. -/
def upsertActiveLeaf (thread : ThreadId) (leaf : SessionEntryId) (db : Db Text) :
    HistoryResult (Db Text) :=
  if db.hasEntry leaf then .ok { db with activeLeaves := db.activeLeaves.insert thread leaf }
  else .error (.storage (.constraint "active_leaves.entry_id"))

/-- `DELETE FROM active_leaves`. -/
def deleteActiveLeaf (thread : ThreadId) (db : Db Text) : HistoryResult (Db Text) :=
  .ok { db with activeLeaves := db.activeLeaves.erase thread }

def sqliteInsertThreadBase (base : ThreadBaseRef) (db : Db Text) : HistoryResult (Db Text) :=
  if base.parentLeafEntryId.any fun leaf => ¬ db.hasEntry leaf then
    .error (.storage (.constraint "thread_bases.parent_leaf_entry_id"))
  else .ok { db with threadBases := db.threadBases.insert base.childThreadId base }

/-- `DELETE FROM thread_bases`. -/
def deleteThreadBase (child : ThreadId) (db : Db Text) : HistoryResult (Db Text) :=
  .ok { db with threadBases := db.threadBases.erase child }

/-- `i64::MAX`. -/
def i64Max : Nat := 2 ^ 63 - 1

def sqliteEnforceLeaseEpoch (streamId : EventStreamId) (presentedEpoch : Nat) (db : Db Text) :
    HistoryResult (Db Text) :=
  let raised : HistoryResult (Db Text) :=
    if presentedEpoch ≤ i64Max then
      .ok { db with journalLeaseEpochs := db.journalLeaseEpochs.insert streamId presentedEpoch }
    else .error (.storage (.leaseEpochOutOfRange streamId))
  match db.journalLeaseEpochs.lookup streamId with
  | some stored =>
    if stored < 0 then .error (.storage (.leaseEpochInvalid streamId))
    else if presentedEpoch < stored.toNat then
      .error (.staleLeaseEpoch streamId presentedEpoch stored.toNat)
    else if presentedEpoch = stored.toNat then .ok db
    else raised
  | none => if presentedEpoch = 0 then .ok db else raised

/-! ### Reads -/

def decodeEntry (text : Text) : HistoryResult SessionEntry :=
  okOr (.codec (.unreadable "entry_json")) (codec.decodeEntry text)

def sqliteLoadEntry (db : Db Text) (thread : ThreadId) (id : SessionEntryId) :
    HistoryResult (Option SessionEntry) :=
  match db.sessionEntries.find? fun row =>
      row.coordinates.threadId = thread ∧ row.entryId = id with
  | some row => some <$> decodeEntry codec row.entryJson
  | none => .ok none

/-- `sqlite_active_leaf_entry`: the leaf joined with its entry. -/
def sqliteActiveLeafEntry (db : Db Text) (thread : ThreadId) :
    HistoryResult (Option SessionEntry) :=
  match db.activeLeaves.lookup thread with
  | some leaf => sqliteLoadEntry codec db thread leaf
  | none => .ok none

/-- `active_leaf`, and the active leaf wherever a transaction asks for it. -/
def activeLeaf (coordinates : ThreadCoordinates) (db : Db Text) :
    HistoryResult (Option SessionEntryId) := do
  match ← sqliteActiveLeafEntry codec db coordinates.threadId with
  | none => return none
  | some entry =>
    validateEntryCoordinates coordinates entry
    return some entry.entryId

def sqliteBranchPath (db : Db Text) (coordinates : ThreadCoordinates)
    (leaf : SessionEntryId) : HistoryResult (List SessionEntry) :=
  (follow (fun id => do
      let entry ← okOr (.entryNotFound id) (← sqliteLoadEntry codec db coordinates.threadId id)
      validateEntryCoordinates coordinates entry
      return entry)
    (·.parentEntryId) (db.sessionEntries.length + 1) (some leaf) []).getD (.error .diverged)

/-- What the store answers while a context is built. -/
def Db.source (db : Db Text) : ContextSource where
  base thread := .ok (db.threadBases.lookup thread)
  activeLeaf thread := do
    return (← sqliteActiveLeafEntry codec db thread).map (·.entryId)
  branchPath := sqliteBranchPath codec db

/-- `sqlite_build_context`, from the outermost call. -/
def sqliteBuildContext (db : Db Text) (coordinates : ThreadCoordinates)
    (leafOverride : Option SessionEntryId) : HistoryResult SessionContext :=
  buildContextFrom (db.source codec) (Map.size db.threadBases + 1) coordinates leafOverride false []

def buildContext (db : Db Text) (coordinates : ThreadCoordinates) : HistoryResult SessionContext :=
  sqliteBuildContext codec db coordinates none

def validateSqliteBaseCycle (db : Db Text) (child parent : ThreadId) : HistoryResult Unit :=
  validateBaseCycleFrom (fun thread => .ok (db.threadBases.lookup thread)) child
    (Map.size db.threadBases + 2) (some parent) []

/-- `sqlite_next_event_sequence`: `COALESCE(MAX(sequence), 0) + 1`. -/
def sqliteNextEventSequence (db : Db Text) (streamId : EventStreamId) : EventSequence :=
  (((db.eventRecords.filter fun row => row.streamId = streamId).map (·.sequence)).max?).getD 0 + 1

def sqliteEventFromRow (row : EventRow Text) : HistoryResult EventRecord := do
  if row.schema ≠ streamRecordSchemaIdV1 then
    throw (.codec (.rowSchema row.eventId row.schema))
  let kind ← okOr (.codec (.rowKind row.kind)) (EventKind.tryFrom row.kind)
  if row.payloadSchema ≠ kind.payloadSchemaId then
    throw (.codec (.rowPayloadSchema row.eventId kind row.payloadSchema))
  let origin ← okOr (.codec (.rowOrigin row.origin)) (EventOrigin.fromStr row.origin)
  let provenance ← okOr (.codec (.unreadable "provenance_json"))
    (codec.decodeProvenance row.provenanceJson)
  let payload ← okOr (.codec (.unreadable "payload_json")) (codec.decodeValue row.payloadJson)
  let event : EventRecord := ⟨row.eventId, row.streamId, row.sequence, row.coordinates,
    row.createdAtMs, kind, origin, provenance, payload⟩
  event.validateStreamRecordV1
  return event

/-- `read_events`: the rows of the stream from a sequence on, by sequence. -/
def readEvents (db : Db Text) (streamId : EventStreamId)
    (fromSequence : Option EventSequence) : HistoryResult (List EventRecord) :=
  let rows := db.eventRecords.filter fun row => row.streamId = streamId
  let rows := rows.filter fun row =>
    match fromSequence with
    | some sequence => sequence ≤ row.sequence
    | none => true
  (rows.insertionSort fun row row' => row.sequence ≤ row'.sequence).mapM (sqliteEventFromRow codec)

/-- `list_thread_events`: the rows of a thread, by rowid. -/
def listThreadEvents (db : Db Text) (thread : ThreadId) : HistoryResult (List EventRecord) :=
  (db.eventRecords.filter fun row => row.coordinates.threadId = thread).mapM
    (sqliteEventFromRow codec)

/-! ### Operations -/

def sqliteInsertEvent (streamId : EventStreamId) (record : NewEventRecord) :
    StoreTx Text EventRecord := do
  query fun _ => validateNewEvent record
  query fun db => if db.eventRecords.any fun row => row.eventId = record.id then
    .error (.duplicateEventId record.id) else .ok ()
  let nextSequence ← query fun db => .ok (sqliteNextEventSequence db streamId)
  let event := EventRecord.fromNew streamId nextSequence record
  query fun _ => event.validateStreamRecordV1
  execute (insertEventRow (.of codec event))
  return event

/-- `sqlite_insert_event`, for each record of a batch. -/
def sqliteInsertEvents (codec : Codec Text) (streamId : EventStreamId) :
    List NewEventRecord → StoreTx Text (List EventRecord)
  | []           => return []
  | record :: rs => do
    let event ← sqliteInsertEvent codec streamId record
    return event :: (← sqliteInsertEvents codec streamId rs)

/-- `sqlite_insert_entry_with_optional_provenance`: the entry, then its event. -/
def sqliteInsertEntry (draw : Draw) (entry : SessionEntry)
    (provenance : Option EventProvenance) : StoreTx Text Unit := do
  execute (insertEntryRow (.of codec entry))
  discard <| sqliteInsertEvent codec (.forThread entry.coordinates)
    (sessionEntryEvent draw entry provenance)

/-- The parent of a new entry: the one asked for or the active leaf, checked either way. -/
def resolveParent (coordinates : ThreadCoordinates)
    (parentEntryId : Option SessionEntryId) (db : Db Text) :
    HistoryResult (Option SessionEntryId) :=
  match parentEntryId with
  | some parent => do
    let entry ← okOr (.entryNotFound parent)
      (← sqliteLoadEntry codec db coordinates.threadId parent)
    validateEntryCoordinates coordinates entry
    return some parent
  | none => activeLeaf codec coordinates db

/-- The end of `append_inner` and of `append_turn_input`: the fence, the entry and its event, then
the leaf. -/
def storeEntry (leaseEpoch : Nat) (draw : Draw) (entry : SessionEntry)
    (provenance : Option EventProvenance) : StoreTx Text SessionEntry := do
  execute (sqliteEnforceLeaseEpoch (.forThread entry.coordinates) leaseEpoch)
  sqliteInsertEntry codec draw entry provenance
  execute (upsertActiveLeaf entry.coordinates.threadId entry.entryId)
  return entry

/-- `SqliteSessionStore::append_inner`. -/
def appendInner (leaseEpoch : Nat) (draw : Draw)
    (coordinates : ThreadCoordinates) (parentEntryId : Option SessionEntryId)
    (kind : SessionEntryKind) (provenance : Option EventProvenance) : StoreM Text SessionEntry :=
  transaction do
    let parentEntryId ← query (resolveParent codec coordinates parentEntryId)
    storeEntry codec leaseEpoch draw (.new draw coordinates parentEntryId kind) provenance

/-- The thread's entry for `turnId`, where it has one. -/
def turnEntryAt (thread : ThreadId) (turnId : String) (db : Db Text) :
    HistoryResult (Option SessionEntry) :=
  match db.sessionEntries.find? fun row =>
      row.coordinates.threadId = thread ∧ row.turnId = some turnId with
  | some row => some <$> decodeEntry codec row.entryJson
  | none => .ok none

def appendTurnInput (leaseEpoch : Nat) (draw : Draw)
    (coordinates : ThreadCoordinates) (turnId : String) (kind : SessionEntryKind) :
    StoreM Text SessionEntry :=
  transaction do
    match ← query (turnEntryAt codec coordinates.threadId turnId) with
    | some existing =>
      query fun _ => validateEntryCoordinates coordinates existing
      query fun _ => if turnInputKindsMatch existing.kind kind then .ok ()
        else .error (.storage (.turnInputMismatch turnId))
      return existing
    | none =>
      let parentEntryId ← query (activeLeaf codec coordinates)
      storeEntry codec leaseEpoch draw (.forTurn draw coordinates parentEntryId turnId kind) none

def selectBranch (leaseEpoch : Nat) (draw : Draw)
    (coordinates : ThreadCoordinates) (leaf : Option SessionEntryId) : StoreM Text Unit :=
  transaction do
    let prior ← query (activeLeaf codec coordinates)
    match leaf with
    | some leaf => discard <| query fun db => sqliteBranchPath codec db coordinates leaf
    | none => pure ()
    let payload := (ThreadBranchSelectedPayload.mk coordinates.threadId leaf prior).toValue
    let streamId := EventStreamId.forThread coordinates
    execute (sqliteEnforceLeaseEpoch streamId leaseEpoch)
    discard <| sqliteInsertEvent codec streamId
      (.witnessed draw coordinates .threadBranchSelected payload)
    match leaf with
    | some leaf => execute (upsertActiveLeaf coordinates.threadId leaf)
    | none => execute (deleteActiveLeaf coordinates.threadId)

/-- The loop of `clone_branch`: each entry of the path anew, below the one before it. -/
def insertClones (codec : Codec Text) (draws : Nat → Draw) (target : ThreadCoordinates) :
    List SessionEntry → Nat → Option SessionEntryId → StoreTx Text (Option SessionEntryId)
  | [],          _,     parent => return parent
  | source :: p, index, parent => do
    let entry := SessionEntry.new (draws index) target parent source.kind
    sqliteInsertEntry codec (draws index) entry none
    insertClones codec draws target p (index + 1) (some entry.entryId)

def cloneBranch (leaseEpoch : Nat) (draws : Nat → Draw)
    (source : ThreadCoordinates) (sourceLeaf : Option SessionEntryId) (target : ThreadCoordinates) :
    StoreM Text (Option SessionEntryId) :=
  transaction do
    execute (deleteThreadBase target.threadId)
    match sourceLeaf with
    | none =>
      execute (deleteActiveLeaf target.threadId)
      return none
    | some sourceLeaf =>
      let path ← query fun db => sqliteBranchPath codec db source sourceLeaf
      execute (sqliteEnforceLeaseEpoch (.forThread target) leaseEpoch)
      let latest ← insertClones codec draws target path 0 none
      match latest with
      | some latest => execute (upsertActiveLeaf target.threadId latest)
      | none => pure ()
      return latest

def forkByReference (source target : ThreadCoordinates) (base : ThreadBaseRef) : StoreM Text Unit :=
  transaction do
    query fun _ => validateThreadBaseRef source target base
    query fun db => validateSqliteBaseCycle db target.threadId source.threadId
    match base.parentLeafEntryId with
    | some leaf => discard <| query fun db => sqliteBuildContext codec db source (some leaf)
    | none => pure ()
    execute (deleteActiveLeaf target.threadId)
    execute (sqliteInsertThreadBase base)

def appendEvents (leaseEpoch : Nat) (streamId : EventStreamId)
    (records : List NewEventRecord) : StoreM Text (List EventRecord) :=
  transaction do
    execute (sqliteEnforceLeaseEpoch streamId leaseEpoch)
    sqliteInsertEvents codec streamId records

def appendEventsFencedInTransaction (leaseEpoch : Nat)
    (streamId : EventStreamId) (expected : EventSequence) (records : List NewEventRecord) :
    StoreTx Text (List EventRecord) := do
  execute (sqliteEnforceLeaseEpoch streamId leaseEpoch)
  query fun db =>
    let actual := sqliteNextEventSequence db streamId
    if actual ≠ expected then .error (.appendFenceConflict streamId expected actual) else .ok ()
  sqliteInsertEvents codec streamId records

def appendEventsFenced (leaseEpoch : Nat) (streamId : EventStreamId)
    (expected : EventSequence) (records : List NewEventRecord) : StoreM Text (List EventRecord) :=
  transaction (appendEventsFencedInTransaction codec leaseEpoch streamId expected records)

/-! ### Opening -/

def selectedEntryOf (row : EventRow Text) : HistoryResult (Option SessionEntryId) := do
  let unreadable : HistoryError := .codec (.unreadable "payload_json")
  let value ← okOr unreadable (codec.decodeValue row.payloadJson)
  if row.kind = EventKind.threadBranchSelected.asRef then
    let payload ← okOr unreadable (ThreadBranchSelectedPayload.fromValue value)
    if payload.threadId ≠ row.coordinates.threadId then
      throw (.codec (.branchSelectedThread payload.threadId row.coordinates.threadId))
    return payload.selectedEntryId
  else
    okOr unreadable (optionalEntryIdFromValue (some (Json.index value "entry_id")))

/-- One row of the journal, folded into the active leaves. -/
def rebuildRow (row : EventRow Text) (db : Db Text) : HistoryResult (Db Text) := do
  let thread := row.coordinates.threadId
  match ← selectedEntryOf codec row with
  | some id =>
    match ← sqliteLoadEntry codec db thread id with
    | none => throw (.entryNotFound id)
    | some _ => upsertActiveLeaf thread id db
  | none => deleteActiveLeaf thread db

/-- The row is one the rebuild folds. -/
def EventRow.movesLeaf (row : EventRow Text) : Bool :=
  row.kind = EventKind.sessionEntryAppended.asRef ∨ row.kind = EventKind.threadBranchSelected.asRef

/-- The threads with a `thread.branch.selected` event. -/
def Db.selectedThreads (db : Db Text) : List ThreadId :=
  (db.eventRecords.filter fun row => row.kind = EventKind.threadBranchSelected.asRef).map
    (·.coordinates.threadId)

/-- `sqlite_rebuild_active_leaves_from_events`, as one transaction. -/
def sqliteRebuildActiveLeavesFromEvents (db : Db Text) : HistoryResult (Db Text) :=
  let selected := db.selectedThreads
  let cleared := { db with
    activeLeaves := selected.foldl (fun leaves thread => leaves.erase thread) db.activeLeaves }
  (db.eventRecords.filter fun row => row.movesLeaf ∧ row.coordinates.threadId ∈ selected).foldlM
    (fun db row => rebuildRow codec row db) cleared

/-- `from_db`: `init_sqlite_schema` over an existing database. -/
def reopen : StoreM Text Unit :=
  transaction (execute (sqliteRebuildActiveLeavesFromEvents codec))

/-! ### The store as a machine -/

def perform (call : Call) : StoreM Text Reply :=
  match call.op with
  | .append coordinates parent kind provenance =>
    .entry <$> appendInner codec call.leaseEpoch (call.draws 0) coordinates parent kind provenance
  | .appendTurnInput coordinates turnId kind =>
    .entry <$> appendTurnInput codec call.leaseEpoch (call.draws 0) coordinates turnId kind
  | .selectBranch coordinates leaf =>
    (fun _ => .unit) <$> selectBranch codec call.leaseEpoch (call.draws 0) coordinates leaf
  | .cloneBranch source sourceLeaf target =>
    .leaf <$> cloneBranch codec call.leaseEpoch call.draws source sourceLeaf target
  | .forkByReference source target base =>
    (fun _ => .unit) <$> forkByReference codec source target base
  | .appendEvents streamId records =>
    .events <$> appendEvents codec call.leaseEpoch streamId records
  | .appendEventsFenced streamId expected records =>
    .events <$> appendEventsFenced codec call.leaseEpoch streamId expected records

/-- The answer to a call, and the database it leaves. -/
def step (call : Call) (db : Db Text) : HistoryResult Reply × Db Text :=
  exec (perform codec call) db

/-! ### A sample codec -/

/-- A text of a sample run: the value it is the text of. -/
inductive Stored where
  | entry (entry : SessionEntry)
  | value (value : Json)
  | provenance (provenance : EventProvenance)
deriving DecidableEq

/-- The codec of a sample run: every text reads back. -/
def Codec.tagged : Codec Stored where
  encodeEntry := .entry
  decodeEntry
    | .entry entry => some entry
    | _            => none
  encodeValue := .value
  decodeValue
    | .value value => some value
    | _            => none
  encodeProvenance := .provenance
  decodeProvenance
    | .provenance provenance => some provenance
    | _                      => none

/-- What `serde_json` reads of a number, of two that it does not read back: it takes `5e49` for 5
times the binary64 of 10^49, which is less, and so on with what that is written as. -/
def rereadNumber (number : JsonNumber) : JsonNumber :=
  if number = .float 50000000000000003814884920545943501647482485473280 then
    .float 49999999999999993430291203476288244586489827033088
  else if number = .float 49999999999999993430291203476288244586489827033088 then
    .float 49999999999999983045697486406632987525497168592896
  else number

/-- What `serde_json` reads of an object with such numbers. -/
def reread : Json → Json
  | .obj fields => .obj (fields.map fun
      | (name, .num number) => (name, .num (rereadNumber number))
      | field               => field)
  | value => value

/-- The codec with payloads read as `serde_json` reads them. -/
def Codec.rereading {Text : Type} (codec : Codec Text) : Codec Text :=
  { codec with decodeValue := fun text => (codec.decodeValue text).map reread }

/-- A payload that is not read back. -/
def sampleMeasure : Json :=
  .obj [("at", .num (.float 50000000000000003814884920545943501647482485473280))]

/-- The payload, in the `n`th event, on a stream. -/
def measure (streamId : EventStreamId) (n : Nat) : Op :=
  .appendEvents streamId [.witnessed (.counted n) (.counted "user" 1) .turnSubmitted sampleMeasure]

/-- The payloads of the events that are read. -/
def payloads (events : HistoryResult (List EventRecord)) : Option (List Json) :=
  events.toOption.map (·.map (·.payload))

end Verlet.History.Sqlite
