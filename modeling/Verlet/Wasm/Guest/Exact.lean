import Verlet.Support.Runs
import Verlet.Wasm.Guest.Ledger
import Verlet.Wasm.Guest.Memory

/-!
# Wasm — The guest — Streams and files are exact

Whatever a module calls, the turn agrees with what is kept of it, unless a read asks for a chunk that its
buffer cannot hold: the stream has moved on by then, and the chunk is lost.
-/

namespace Verlet.Wasm
open Support
open GuestMove (given handed opened paid)

variable {σ : Type} {turn : WasmTurnState} {ledger : GuestLedger}

/-! ### What is to hold -/

/-- What a read asks, if it gets as far as its stream. -/
structure Asks (w : GuestWorld σ) (move : GuestMove) (stream : GuestStream) (ptr lenPtr capacity : Nat)
    (source : WasmSourceState) : Prop where
  read : ∃ ptr' lenPtr', move.read = some (some stream, ptr', lenPtr') ∧ nonnegativeUsize ptr' = some ptr ∧
    nonnegativeUsize lenPtr' = some lenPtr
  capacity : readGuestU32At w.memory lenPtr = some capacity
  source : w.turn.stream? stream = some source

/-- The guest finds the chunk in its buffer and the chunk's length where it gave the capacity, unless it laid
one over the other. -/
def Sees (memory : Memory) (ptr lenPtr : Nat) (chunk : Bytes) : Prop :=
  ptr + chunk.length ≤ lenPtr ∨ lenPtr + 4 ≤ ptr →
    sliceAt memory ptr chunk.length = some chunk ∧ readGuestU32At memory lenPtr = some chunk.length

/-- The move may change the file system: writes are granted, and it is `fs_mkdir` or it closes a file that was
written. -/
def MovesFiles (config : WasmRuntimeConfig) (w : GuestWorld σ) (move : GuestMove) : Prop :=
  fsWriteCapability ∈ config.capabilityGrants ∧
    ((∃ pathPtr pathLen recursive, move = .call (.fsMkdir pathPtr pathLen recursive)) ∨
      ∃ handle n path buffer, move = .call (.fsClose handle) ∧ nonnegativeU32 handle = some n ∧
        w.turn.files n = some (.write path buffer))

/-- **Streams and files are exact** over a move: what was handed out of a stream is a prefix of what it was
opened with, a read that fails consumes nothing, and the end of a stream is reported once all of it was handed
out; the file system changes by `fs_mkdir` and by the close of a file that was written, if writes are granted,
and a file that was closed then holds what it was paid; and a sink holds what it was given, up to its limit. -/
structure Exact (config : WasmRuntimeConfig) (vfs : VerletVfs σ) (library : JsonLibrary) (t : GuestRun σ)
    (move : GuestMove) : Prop where
  delivered : ∀ stream source, (t.step vfs library move).2.world.turn.stream? stream = some source →
    (t.step vfs library move).2.ledger.delivered stream <+: (t.step vfs library move).2.ledger.contents stream
  failed : move.read ≠ none → ¬ Succeeds (t.step vfs library move).1 →
    (t.step vfs library move).2.world.turn = t.world.turn
  seen : ∀ stream ptr lenPtr capacity source, Asks t.world move stream ptr lenPtr capacity source →
    Succeeds (t.step vfs library move).1 →
      (t.step vfs library move).2.ledger.delivered stream = t.ledger.delivered stream ++ source.chunk capacity ∧
        Sees (t.step vfs library move).2.world.memory ptr lenPtr (source.chunk capacity)
  ended : ∀ stream ptr lenPtr, move.read = some (some stream, ptr, lenPtr) → Ends (t.step vfs library move).1 →
    (t.step vfs library move).2.ledger.delivered stream = (t.step vfs library move).2.ledger.contents stream
  changed : (t.step vfs library move).2.world.vfs ≠ t.world.vfs → MovesFiles config t.world move
  stored : ∀ handle n path buffer, move = .call (.fsClose handle) → nonnegativeU32 handle = some n →
    t.world.turn.files n = some (.write path buffer) → (t.step vfs library move).1 = statusOk →
      vfs.readFile path (t.step vfs library move).2.world.vfs = .ok (t.ledger.payloads n)
  sinks : ∀ sink, (t.step vfs library move).2.world.turn.sink sink =
    ((t.step vfs library move).2.ledger.written sink).take config.maxOutputBytes

/-- The move is a read, and its buffer cannot hold the chunk that it asks for. -/
def Overruns (w : GuestWorld σ) (move : GuestMove) : Prop :=
  ∃ stream ptr lenPtr capacity source, Asks w move stream ptr lenPtr capacity source ∧
    source.chunk capacity ≠ [] ∧ copyAt w.memory ptr (source.chunk capacity) = none

/-! ### Host calls by their ends -/

section Ends
variable {α : Type} {w : GuestWorld σ} {P : Int × GuestWorld σ → Prop}

theorem orReturn_of {found : Option α} {status : Int} {next : α → Int × GuestWorld σ}
    (hnone : found = none → P (status, w)) (hsome : ∀ a, found = some a → P (next a)) :
    P (orReturn found status w next) := by
  cases hfound : found with
  | none => exact hnone hfound
  | some a => exact hsome a hfound

theorem orFail_of {found : Except Int α} {next : α → Int × GuestWorld σ}
    (herror : ∀ status, found = .error status → P (status, w)) (hok : ∀ a, found = .ok a → P (next a)) :
    P (orFail found w next) := by
  cases hfound : found with
  | error status => exact herror status hfound
  | ok a => exact hok a hfound

end Ends

/-- How a read ends: it does not get as far as its stream, or the chunk is handed out, or it is lost. -/
inductive ReadEnds (w : GuestWorld σ) (move : GuestMove) : Int × GuestWorld σ → Prop
  | refused (status : Int) (hstatus : ¬ Succeeds status)
      (hasks : ∀ stream ptr lenPtr capacity source, ¬ Asks w move stream ptr lenPtr capacity source) :
      ReadEnds w move (status, w)
  | handed {stream : GuestStream} {ptr lenPtr capacity : Nat} {source : WasmSourceState} (status : Int)
      (memory : Memory) (hasks : Asks w move stream ptr lenPtr capacity source) (hstatus : Succeeds status)
      (hcopy : copyAt w.memory ptr (source.chunk capacity) ≠ none)
      (hends : Ends status → (source.advance capacity).exhausted = true)
      (hseen : Sees memory ptr lenPtr (source.chunk capacity)) :
      ReadEnds w move (status, { w with turn := w.turn.advance capacity stream, memory := memory })
  | lost {stream : GuestStream} {ptr lenPtr capacity : Nat} {source : WasmSourceState}
      (hasks : Asks w move stream ptr lenPtr capacity source)
      (hcopy : copyAt w.memory ptr (source.chunk capacity) = none) :
      ReadEnds w move (statusInvalidArgument, { w with turn := w.turn.advance capacity stream })

variable {stream : GuestStream} {ptr lenPtr capacity : Nat} {source : WasmSourceState}

theorem readEnds_handOut {w : GuestWorld σ} {move : GuestMove}
    (hasks : Asks w move stream ptr lenPtr capacity source) {status : Int}
    (hstatus : Succeeds status) (hends : Ends status → (source.advance capacity).exhausted = true) :
    ReadEnds w move (handOut ptr lenPtr (source.chunk capacity) status
      { w with turn := w.turn.advance capacity stream }) := by
  unfold handOut
  refine orReturn_of (fun hnone => .lost hasks hnone) fun data hdata => ?_
  obtain ⟨found, hfound⟩ := exists_readGuestU32At_copyAt hasks.capacity hdata
  obtain ⟨data', hdata'⟩ := exists_writeGuestU32At hfound (source.chunk capacity).length
  unfold answerU32
  rw [hdata']
  refine .handed status (some data') hasks hstatus (fun hnone => ?_) hends fun hbeside => ⟨?_, ?_⟩
  · rw [hnone] at hdata
    cases hdata
  · exact sliceAt_copyAt_beside hdata' (sliceAt_copyAt hdata) hbeside
  · have hcapacity := readGuestU32At_lt hasks.capacity
    have hlength := source.length_chunk capacity
    exact readGuestU32At_write (by omega) hdata'

theorem readSourceChunk_eq (turn : WasmTurnState) (source capacity : Nat) :
    turn.readSourceChunk source capacity = (turn.stream? (.source source)).map fun state =>
      (state.chunk capacity, (state.advance capacity).exhausted, turn.advance capacity (.source source)) := by
  by_cases h : source = inputSource
  · simp [WasmTurnState.readSourceChunk, WasmTurnState.stream?, WasmTurnState.advance, h]
  · cases hsource : turn.sources source with
    | none => simp [WasmTurnState.readSourceChunk, WasmTurnState.stream?, h, hsource]
    | some state =>
      simp [WasmTurnState.readSourceChunk, WasmTurnState.stream?, WasmTurnState.advance, h, hsource]

theorem readFileChunk_cases (turn : WasmTurnState) (handle capacity : Nat) :
    (turn.stream? (.file handle) = none ∧
        ∃ status, ¬ Succeeds status ∧ turn.readFileChunk handle capacity = .error status) ∨
      ∃ state, turn.stream? (.file handle) = some state ∧ turn.readFileChunk handle capacity =
        .ok (state.chunk capacity, (state.advance capacity).exhausted, turn.advance capacity (.file handle)) := by
  cases hfile : turn.files handle with
  | none => exact .inl ⟨by simp [WasmTurnState.stream?, hfile], statusNotFound, by decide,
      by simp [WasmTurnState.readFileChunk, hfile]⟩
  | some file =>
    cases file with
    | write path buffer => exact .inl ⟨by simp [WasmTurnState.stream?, hfile], statusInvalidArgument, by decide,
        by simp [WasmTurnState.readFileChunk, hfile]⟩
    | read state => exact .inr ⟨state, by simp [WasmTurnState.stream?, hfile],
        by simp [WasmTurnState.readFileChunk, WasmTurnState.advance, hfile]⟩

theorem readEnds_of {w : GuestWorld σ} {move : GuestMove} {found : Option Nat} {toStream : Nat → GuestStream}
    {ptr lenPtr : Int32} (hread : move.read = some (found.map toStream, ptr, lenPtr))
    {next : Nat → Nat → Nat → Nat → Int × GuestWorld σ}
    (h : ∀ n p l c, (∀ source, w.turn.stream? (toStream n) = some source →
        Asks w move (toStream n) p l c source) →
      (w.turn.stream? (toStream n) = none → ∀ stream p' l' c' source, ¬ Asks w move stream p' l' c' source) →
      ReadEnds w move (next n p l c)) :
    ReadEnds w move (orReturn found statusInvalidArgument w fun n =>
      orReturn (nonnegativeUsize ptr) statusInvalidArgument w fun p =>
      orReturn (nonnegativeUsize lenPtr) statusInvalidArgument w fun l =>
      orReturn (readGuestU32At w.memory l) statusInvalidArgument w fun c => next n p l c) := by
  have hinvalid := not_succeeds_invalid
  -- what a read asks, if anything
  have hasked {stream : GuestStream} {p l c : Nat} {source : WasmSourceState}
      (hasks : Asks w move stream p l c source) : found.map toStream = some stream ∧
        nonnegativeUsize ptr = some p ∧ nonnegativeUsize lenPtr = some l := by
    obtain ⟨ptr', lenPtr', hread', hptr, hlenPtr⟩ := hasks.read
    obtain ⟨hstream, rfl, rfl⟩ : found.map toStream = some stream ∧ ptr = ptr' ∧ lenPtr = lenPtr' := by
      simpa using hread.symm.trans hread'
    exact ⟨hstream, hptr, hlenPtr⟩
  refine orReturn_of (fun hnone => .refused _ hinvalid ?_) fun n hn => ?_
  · intro stream p l c source hasks
    obtain ⟨hstream, -, -⟩ := hasked hasks
    simp [hnone] at hstream
  refine orReturn_of (fun hnone => .refused _ hinvalid ?_) fun p hp => ?_
  · intro stream p l c source hasks
    obtain ⟨-, hptr, -⟩ := hasked hasks
    simp [hnone] at hptr
  refine orReturn_of (fun hnone => .refused _ hinvalid ?_) fun l hl => ?_
  · intro stream p l c source hasks
    obtain ⟨-, -, hlenPtr⟩ := hasked hasks
    simp [hnone] at hlenPtr
  refine orReturn_of (fun hnone => .refused _ hinvalid ?_) fun c hc => ?_
  · intro stream p l' c source hasks
    obtain ⟨-, -, hlenPtr⟩ := hasked hasks
    obtain rfl : l = l' := Option.some.inj (hl.symm.trans hlenPtr)
    have hcapacity := hasks.capacity
    simp [hnone] at hcapacity
  refine h n p l c (fun source hsource => ⟨⟨ptr, lenPtr, ?_, hp, hl⟩, hc, hsource⟩) ?_
  · rw [hread, hn]
    rfl
  · intro hclosed stream p' l' c' source hasks
    obtain ⟨hstream, -, -⟩ := hasked hasks
    obtain rfl : toStream n = stream := by simpa [hn] using hstream
    have hsource := hasks.source
    simp [hclosed] at hsource

theorem readEnds_sourceRead (w : GuestWorld σ) (source ptr lenPtr : Int32) :
    ReadEnds w (.call (.sourceRead source ptr lenPtr)) (sourceRead source ptr lenPtr w) := by
  refine readEnds_of rfl fun n p l c hasks hclosed => ?_
  rw [readSourceChunk_eq]
  cases hsource : w.turn.stream? (.source n) with
  | none => exact .refused _ (by decide) (hclosed hsource)
  | some state =>
    refine readEnds_handOut (hasks state hsource) ?_ ?_
    · dsimp only
      split <;> decide
    · intro hends
      by_contra hmore
      simp only [hmore] at hends
      revert hends
      decide

theorem readEnds_fsRead (w : GuestWorld σ) (handle ptr lenPtr : Int32) :
    ReadEnds w (.call (.fsRead handle ptr lenPtr)) (fsRead handle ptr lenPtr w) := by
  refine readEnds_of rfl fun n p l c hasks hclosed => ?_
  rcases readFileChunk_cases w.turn n c with ⟨hnone, status, hstatus, herror⟩ | ⟨state, hsource, hok⟩
  · rw [herror]
    exact .refused _ hstatus (hclosed hnone)
  · rw [hok]
    refine readEnds_handOut (hasks state hsource) ?_ ?_
    · dsimp only
      split <;> decide
    · intro hends
      by_contra hmore
      simp only [hmore] at hends
      revert hends
      simp
      decide

/-! ### One move -/

section Moves
variable {config : WasmRuntimeConfig} {vfs : VerletVfs σ} {library : JsonLibrary} {w : GuestWorld σ}
  {move : GuestMove} {r : Int × GuestWorld σ} {status : Int}

theorem handed_of_fails (h : ¬ Succeeds status) : move.handed w status = none := by
  simp [handed, h]

theorem handed_of_asks (hasks : Asks w move stream ptr lenPtr capacity source) (h : Succeeds status) :
    move.handed w status = some (stream, source.chunk capacity) := by
  obtain ⟨ptr', lenPtr', hread, -, hlenPtr⟩ := hasks.read
  simp [handed, GuestMove.chunk?, hread, hlenPtr, hasks.capacity, hasks.source, h]

/-- **A read** whose buffer can hold what it asks for. -/
theorem kept_read (h : Kept config w.turn ledger) (hends : ReadEnds w move r) (hnot : ¬ Overruns w move) :
    Kept config r.2.turn (ledger.deliver (move.handed w r.1)) ∧ r.2.vfs = w.vfs ∧
      (¬ Succeeds r.1 → r.2.turn = w.turn) ∧
      ∀ stream ptr lenPtr, move.read = some (some stream, ptr, lenPtr) → Ends r.1 →
        (ledger.deliver (move.handed w r.1)).delivered stream = ledger.contents stream := by
  cases hends with
  | refused status hstatus _ =>
    rw [handed_of_fails hstatus]
    exact ⟨h, rfl, fun _ => rfl, fun _ _ _ _ hends => absurd (.inr hends) hstatus⟩
  | @handed stream ptr lenPtr capacity source status memory hasks hstatus _ hends _ =>
    have hkept := h.advance hasks.source capacity
    rw [handed_of_asks hasks hstatus]
    refine ⟨hkept, rfl, fun hnot => absurd hstatus hnot, fun stream' ptr' lenPtr' hread hend => ?_⟩
    obtain ⟨_, _, hread', -, -⟩ := hasks.read
    obtain rfl : stream = stream' := by
      rw [hread'] at hread
      exact Option.some.inj (Prod.mk.inj (Option.some.inj hread)).1
    have hnew : (w.turn.advance capacity stream).stream? stream = some (source.advance capacity) := by
      rw [WasmTurnState.stream?_advance hasks.source, if_pos rfl]
    rw [(hkept.delivered stream _ hnew).1, ← h.contents stream source hasks.source]
    exact List.take_of_length_le (of_decide_eq_true (hends hend))
  | @lost stream ptr lenPtr capacity source hasks hcopy =>
    -- nothing was asked for
    have hchunk : source.chunk capacity = [] := by
      by_contra hchunk
      exact hnot ⟨stream, ptr, lenPtr, capacity, source, hasks, hchunk, hcopy⟩
    have hfails := not_succeeds_invalid
    have hsame := WasmTurnState.advance_nil hasks.source hchunk
    rw [handed_of_fails hfails]
    refine ⟨?_, rfl, fun _ => hsame, fun _ _ _ _ hends => absurd (.inr hends) hfails⟩
    change Kept config (w.turn.advance capacity stream) ledger
    rwa [hsame]

variable {P : Int × GuestWorld σ → Prop}

theorem sinkGuestBytes_of {sink : Nat} {ptr lenPtr : Int32}
    (hfails : ∀ status, status ≠ statusOk → P (status, w) ∧
      P (status, { w with turn := { w.turn with outputTruncated := true } }))
    (hok : ∀ bytes memory, GuestMove.payload? w ptr lenPtr = some bytes →
      P (statusOk, { w with turn := w.turn.appendSink sink bytes, memory := memory })) :
    P (sinkGuestBytes sink ptr lenPtr w) := by
  have hinvalid : statusInvalidArgument ≠ statusOk := by decide
  unfold sinkGuestBytes
  refine orReturn_of (fun _ => (hfails _ hinvalid).1) fun l hl => ?_
  refine orReturn_of (fun _ => (hfails _ hinvalid).1) fun len hlen => ?_
  cases hbytes : readGuestMemory w.memory ptr (Int32.ofInt len) with
  | none => exact (hfails _ hinvalid).2
  | some bytes =>
    obtain ⟨data, hdata⟩ := exists_writeGuestU32At hlen bytes.length
    have hpayload : GuestMove.payload? w ptr lenPtr = some bytes := by
      simp [GuestMove.payload?, hl, hlen, hbytes]
    dsimp only
    unfold answerU32
    rw [hdata]
    exact hok bytes (some data) hpayload

/-- The turn agrees with what is kept after the move, and the file system is as it was. -/
def KeptBy (config : WasmRuntimeConfig) (vfs : VerletVfs σ) (library : JsonLibrary) (w : GuestWorld σ)
    (ledger : GuestLedger) (move : GuestMove) (r : Int × GuestWorld σ) : Prop :=
  Kept config r.2.turn (ledger.record vfs library move w r.1) ∧ r.2.vfs = w.vfs

theorem keptBy_quiet (hread : move.read = none) (hopened : move.opened vfs library w = [])
    (hpaid : move.paid w r.1 = none) (hgiven : move.given library w r.1 = none)
    (h : Kept config r.2.turn ledger) (hvfs : r.2.vfs = w.vfs) : KeptBy config vfs library w ledger move r := by
  refine ⟨?_, hvfs⟩
  simpa [GuestLedger.record, handed, hread, hopened, hpaid, hgiven] using h

theorem keptBy_given {sink : Nat} {bytes : Bytes} (hread : move.read = none)
    (hopened : move.opened vfs library w = []) (hpaid : move.paid w r.1 = none)
    (hgiven : move.given library w r.1 = some (sink, bytes)) (h : Kept config w.turn ledger)
    (hturn : r.2.turn = w.turn.appendSink sink bytes) (hvfs : r.2.vfs = w.vfs) :
    KeptBy config vfs library w ledger move r := by
  refine ⟨?_, hvfs⟩
  rw [hturn]
  simpa [GuestLedger.record, handed, hread, hopened, hpaid, hgiven] using h.write sink bytes

theorem keptBy_opened {opened : GuestStream × Bytes} (hread : move.read = none)
    (hopened : move.opened vfs library w = [opened]) (hpaid : move.paid w r.1 = none)
    (hgiven : move.given library w r.1 = none) (h : Kept config r.2.turn (ledger.opening opened))
    (hvfs : r.2.vfs = w.vfs) : KeptBy config vfs library w ledger move r := by
  refine ⟨?_, hvfs⟩
  simpa [GuestLedger.record, GuestLedger.opens, handed, hread, hopened, hpaid, hgiven] using h

-- Each call below is evaluated where its move is already named.
attribute [local simp] given opened paid

variable (h : Kept config w.turn ledger)

include h

theorem keptBy_inputRead (ptr maxLen : Int32) :
    KeptBy config vfs library w ledger (.call (.inputRead ptr maxLen)) (inputRead ptr maxLen w) := by
  unfold inputRead
  refine orReturn_of (fun _ => keptBy_quiet rfl rfl rfl rfl h rfl) fun p _ => ?_
  refine orReturn_of (fun _ => keptBy_quiet rfl rfl rfl rfl h rfl) fun l _ => ?_
  exact orReturn_of (fun _ => keptBy_quiet rfl rfl rfl rfl h rfl) fun data _ => keptBy_quiet rfl rfl rfl rfl h rfl

theorem keptBy_outputWrite (ptr len : Int32) :
    KeptBy config vfs library w ledger (.call (.outputWrite ptr len)) (statusOk, outputWrite ptr len w) := by
  unfold outputWrite
  cases hbytes : readGuestMemory w.memory ptr len with
  | none => exact keptBy_quiet rfl rfl rfl (by simp [hbytes]) h.outputTruncated rfl
  | some bytes => exact keptBy_given rfl rfl rfl (by simp [hbytes]) h rfl rfl

theorem keptBy_outputLog (ptr len : Int32) :
    KeptBy config vfs library w ledger (.call (.outputLog ptr len)) (statusOk, outputLog ptr len w) := by
  unfold outputLog
  cases hbytes : readGuestMemory w.memory ptr len with
  | none => exact keptBy_quiet rfl rfl rfl (by simp [hbytes]) h rfl
  | some bytes => exact keptBy_given rfl rfl rfl (by simp [hbytes]) h rfl rfl

theorem keptBy_sinkWrite (sink ptr lenPtr : Int32) :
    KeptBy config vfs library w ledger (.call (.sinkWrite sink ptr lenPtr)) (sinkWrite sink ptr lenPtr w) := by
  have hfails {turn : WasmTurnState} (status : Int) (hstatus : status ≠ statusOk)
      (hturn : Kept config turn ledger) :
      KeptBy config vfs library w ledger (.call (.sinkWrite sink ptr lenPtr)) (status, { w with turn := turn }) :=
    keptBy_quiet rfl rfl rfl (by simp [hstatus]) hturn rfl
  unfold sinkWrite
  refine orReturn_of (fun _ => hfails _ (by decide) h) fun n hn => ?_
  split
  · exact hfails _ (by decide) h
  · refine sinkGuestBytes_of (fun status hstatus => ⟨hfails _ hstatus h, hfails _ hstatus h.outputTruncated⟩) ?_
    intro bytes memory hpayload
    exact keptBy_given rfl rfl rfl (by simp [hn, hpayload]) h rfl rfl

theorem keptBy_eventEmit (ptr lenPtr : Int32) :
    KeptBy config vfs library w ledger (.call (.eventEmit ptr lenPtr)) (eventEmit ptr lenPtr w) := by
  have hfails {turn : WasmTurnState} (status : Int) (hstatus : status ≠ statusOk)
      (hturn : Kept config turn ledger) :
      KeptBy config vfs library w ledger (.call (.eventEmit ptr lenPtr)) (status, { w with turn := turn }) :=
    keptBy_quiet rfl rfl rfl (by simp [hstatus]) hturn rfl
  refine sinkGuestBytes_of (fun status hstatus => ⟨hfails _ hstatus h, hfails _ hstatus h.outputTruncated⟩) ?_
  intro bytes memory hpayload
  exact keptBy_given rfl rfl rfl (by simp [hpayload]) h rfl rfl

theorem keptBy_log (ptr len : Int32) :
    KeptBy config vfs library w ledger (.call (.log ptr len)) (logGuestBytes ptr len w) := by
  refine orReturn_of (fun hnone => ?_) fun bytes hbytes => ?_
  · exact keptBy_quiet rfl rfl rfl (by simp [hnone]) h rfl
  · exact keptBy_given rfl rfl rfl (by simp [hbytes]) h rfl rfl

theorem keptBy_httpRequest
    (invocation requestPtr requestLen bodyPtr bodyLen outPtr sink : Int32) (answer : HttpAnswer) :
    KeptBy config vfs library w ledger
      (.call (.httpRequest invocation requestPtr requestLen bodyPtr bodyLen outPtr sink answer))
      (httpRequest library invocation requestPtr requestLen bodyPtr bodyLen outPtr sink answer w) := by
  refine orFail_of (fun status herror => ?_) fun out hout => ?_
  · cases answer <;> exact keptBy_quiet rfl (by simp [herror]) rfl
      (by simp [herror]) h rfl
  cases answer with
  | failed status code message => exact keptBy_given rfl rfl rfl (by simp [hout]) h rfl rfl
  | exchange response body =>
    refine orReturn_of (fun hnone => ?_) fun responseMeta hmeta => ?_
    · exact keptBy_quiet rfl (by simp [hout, hnone]) rfl
        (by simp [hout, hnone]) h rfl
    have hsources : Kept config ((w.turn.insertSource responseMeta).insertSource body)
        ((ledger.opening (.source w.turn.nextSource, responseMeta)).opening
          (.source (nextU32 w.turn.nextSource), body)) := (h.insertSource responseMeta).insertSource body
    have hinvalid : statusInvalidArgument ≠ statusOk := by decide
    refine orReturn_of (fun _ => ⟨?_, rfl⟩) fun data _ =>
      orReturn_of (fun _ => ⟨?_, rfl⟩) fun data' _ => ⟨?_, rfl⟩
    · simpa [GuestLedger.record, GuestLedger.opens, opened, handed, GuestMove.read,
        paid, given, hout, hmeta, hinvalid] using hsources
    · simpa [GuestLedger.record, GuestLedger.opens, opened, handed, GuestMove.read,
        paid, given, hout, hmeta, hinvalid] using hsources
    · simpa [GuestLedger.record, GuestLedger.opens, opened, handed, GuestMove.read,
        paid, given, hout, hmeta] using
          hsources.write eventSink (httpEvent library "http_response" "")

omit h

theorem openTarget_ok {pathPtr pathLen mode outPtr : Int32} {target : Nat × WasmFileState}
    (h : openTarget vfs pathPtr pathLen mode outPtr w = .ok target) :
    (∃ bytes, target.2 = .read ⟨bytes, 0⟩) ∨
      ∃ path, target.2 = .write path [] ∧ fsWriteCapability ∈ w.turn.capabilityGrants := by
  unfold openTarget at h
  split at h
  · cases h
  split at h
  · cases h
  split at h
  · split at h
    · cases h
    split at h
    · split at h
      · next hgranted =>
        cases h
        exact .inr ⟨_, rfl, hgranted⟩
      · cases h
    · split at h
      · cases h
      · cases h
        exact .inl ⟨_, rfl⟩
  · cases h

theorem answerU32_of {value : Nat} {status : Int}
    (h : ∀ status memory, P (status, { w with memory := memory })) :
    P (answerU32 ptr value status w) :=
  orReturn_of (fun _ => h _ w.memory) fun data _ => h _ (some data)

theorem keptBy_fsOpen (h : Kept config w.turn ledger) (pathPtr pathLen mode outPtr : Int32) :
    KeptBy config vfs library w ledger (.call (.fsOpen pathPtr pathLen mode outPtr))
      (fsOpen vfs pathPtr pathLen mode outPtr w) := by
  refine orFail_of (fun status herror => ?_) fun target htarget => ?_
  · exact keptBy_quiet rfl (by simp [herror]) rfl rfl h rfl
  · have hinsert := h.insertFile (h.grants ▸ openTarget_ok htarget)
    exact answerU32_of fun status memory =>
      keptBy_opened rfl (by simp [htarget]) rfl rfl hinsert rfl

theorem keptBy_fsList (h : Kept config w.turn ledger) (pathPtr pathLen outPtr : Int32) :
    KeptBy config vfs library w ledger (.call (.fsList pathPtr pathLen outPtr))
      (fsList vfs library pathPtr pathLen outPtr w) := by
  refine orFail_of (fun status herror => ?_) fun listed hlisted => ?_
  · exact keptBy_quiet rfl (by simp [herror]) rfl rfl h rfl
  · exact answerU32_of fun status memory =>
    keptBy_opened rfl (by simp [hlisted]) rfl rfl (h.insertSource listed.2) rfl

theorem keptBy_fsStat (h : Kept config w.turn ledger) (pathPtr pathLen outPtr : Int32) :
    KeptBy config vfs library w ledger (.call (.fsStat pathPtr pathLen outPtr))
      (fsStat vfs pathPtr pathLen outPtr w) := by
  unfold fsStat
  refine orReturn_of (fun _ => keptBy_quiet rfl rfl rfl rfl h rfl) fun out _ => ?_
  refine orReturn_of (fun _ => keptBy_quiet rfl rfl rfl rfl h rfl) fun path _ => ?_
  split
  · exact keptBy_quiet rfl rfl rfl rfl h rfl
  · split
    · exact keptBy_quiet rfl rfl rfl rfl h rfl
    · exact orReturn_of (fun _ => keptBy_quiet rfl rfl rfl rfl h rfl) fun data _ =>
        keptBy_quiet rfl rfl rfl rfl h rfl

theorem keptBy_fsWrite (h : Kept config w.turn ledger) (handle ptr len : Int32) :
    KeptBy config vfs library w ledger (.call (.fsWrite handle ptr len)) (fsWrite handle ptr len w) := by
  have hfails (status : Int) (hstatus : status ≠ statusOk) :
      KeptBy config vfs library w ledger (.call (.fsWrite handle ptr len)) (status, w) :=
    keptBy_quiet rfl rfl (by simp [hstatus]) rfl h rfl
  unfold fsWrite
  refine orReturn_of (fun _ => hfails _ (by decide)) fun n hn => ?_
  refine orReturn_of (fun _ => hfails _ (by decide)) fun file hfile => ?_
  split
  · exact hfails _ (by decide)
  · refine orReturn_of (fun _ => hfails _ (by decide)) fun bytes hbytes => ?_
    refine ⟨?_, rfl⟩
    simpa [GuestLedger.record, opened, handed, GuestMove.read, paid, given,
      hn, hbytes] using h.pay hfile bytes

/-- **How `fs_close` ends**: it leaves all as it was, or it closes its file, and what was written replaces what
the file system had. -/
theorem fsClose_of {handle : Int32} (hnone : ∀ status, status ≠ statusOk → P (status, w))
    (hread : ∀ n source, nonnegativeU32 handle = some n → w.turn.files n = some (.read source) →
      P (statusOk, { w with turn := { w.turn with files := Function.update w.turn.files n none } }))
    (hwrite : ∀ n path buffer status s, nonnegativeU32 handle = some n →
      w.turn.files n = some (.write path buffer) →
      (s = w.vfs ∧ status ≠ statusOk ∨ s = (vfs.writeFile path buffer w.vfs).2 ∧
        (status = statusOk → (vfs.writeFile path buffer w.vfs).1 = .ok ())) →
      P (status, { turn := { w.turn with files := Function.update w.turn.files n none }
                   memory := w.memory, vfs := s })) :
    P (fsClose vfs handle w) := by
  refine orReturn_of (fun _ => hnone _ (by decide)) fun n hn => ?_
  refine orReturn_of (fun _ => hnone _ (by decide)) fun file hfile => ?_
  cases file with
  | read source => exact hread n source hn hfile
  | write path buffer =>
    dsimp only
    unfold fsCloseCommit
    split
    · exact hwrite n path buffer _ _ hn hfile (.inl ⟨rfl, by decide⟩)
    · split
      · next s hok =>
        dsimp only at hok
        exact hwrite n path buffer _ _ hn hfile (.inr ⟨by rw [hok], fun _ => by rw [hok]⟩)
      · next err s herror =>
        dsimp only at herror
        refine hwrite n path buffer _ _ hn hfile (.inr ⟨by rw [herror], fun hstatus => ?_⟩)
        cases err <;> exact absurd hstatus (by decide)

/-- **How `fs_mkdir` ends**: it leaves the turn, and without a grant the file system. -/
theorem fsMkdir_of {pathPtr pathLen recursive : Int32} (hnone : ∀ status, P (status, w))
    (hmkdir : ∀ status s, fsWriteCapability ∈ w.turn.capabilityGrants → P (status, { w with vfs := s })) :
    P (fsMkdir vfs pathPtr pathLen recursive w) := by
  unfold fsMkdir
  split
  · exact hnone _
  · refine orReturn_of (fun _ => hnone _) fun path _ => ?_
    split
    · exact hnone _
    · next hgranted =>
      have hgranted : fsWriteCapability ∈ w.turn.capabilityGrants := by
        by_contra hnot
        exact hgranted (.inr hnot)
      split
      · exact hmkdir _ _ hgranted
      · exact hmkdir _ _ hgranted

/-- The turn agrees with what is kept after the move, and the file system is as it was where it may not move. -/
def Agrees (config : WasmRuntimeConfig) (vfs : VerletVfs σ) (library : JsonLibrary) (w : GuestWorld σ)
    (ledger : GuestLedger) (move : GuestMove) (r : Int × GuestWorld σ) : Prop :=
  Kept config r.2.turn (ledger.record vfs library move w r.1) ∧ (r.2.vfs ≠ w.vfs → MovesFiles config w move)

theorem KeptBy.agrees (h : KeptBy config vfs library w ledger move r) :
    Agrees config vfs library w ledger move r :=
  ⟨h.1, fun hvfs => absurd h.2 hvfs⟩

theorem agrees_fsClose (h : Kept config w.turn ledger) (handle : Int32) :
    Agrees config vfs library w ledger (.call (.fsClose handle)) (fsClose vfs handle w) := by
  refine fsClose_of (fun _ _ => ⟨h, absurd rfl⟩) (fun n source _ _ => ⟨h.close n, absurd rfl⟩) ?_
  intro n path buffer status s hn hfile _
  exact ⟨h.close n, fun _ => ⟨(h.payloads n path buffer hfile).2, .inr ⟨handle, n, path, buffer, rfl, hn, hfile⟩⟩⟩

theorem agrees_fsMkdir (h : Kept config w.turn ledger) (pathPtr pathLen recursive : Int32) :
    Agrees config vfs library w ledger (.call (.fsMkdir pathPtr pathLen recursive))
      (fsMkdir vfs pathPtr pathLen recursive w) :=
  fsMkdir_of (fun _ => ⟨h, absurd rfl⟩) fun _ _ hgranted =>
    ⟨h, fun _ => ⟨h.grants ▸ hgranted, .inl ⟨pathPtr, pathLen, recursive, rfl⟩⟩⟩

/-- **A move whose buffer can hold what it asks for** leaves the turn in agreement with what is kept. -/
theorem agrees_guestMove (h : Kept config w.turn ledger) (hnot : ¬ Overruns w move) :
    Agrees config vfs library w ledger move (guestMove vfs library move w) := by
  have hread {r : Int × GuestWorld σ} (hends : ReadEnds w move r)
      (hrecord : ledger.record vfs library move w r.1 = ledger.deliver (move.handed w r.1)) :
      Agrees config vfs library w ledger move r := by
    obtain ⟨hkept, hvfs, -⟩ := kept_read h hends hnot
    exact ⟨hrecord ▸ hkept, absurd hvfs⟩
  cases move with
  | computes memory => exact ⟨h, absurd rfl⟩
  | call call =>
    cases call with
    | inputLen => exact ⟨h, absurd rfl⟩
    | inputRead ptr maxLen => exact (keptBy_inputRead h ptr maxLen).agrees
    | outputWrite ptr len => exact (keptBy_outputWrite h ptr len).agrees
    | outputLog ptr len => exact (keptBy_outputLog h ptr len).agrees
    | sourceRead source ptr lenPtr => exact hread (readEnds_sourceRead w source ptr lenPtr) rfl
    | sinkWrite sink ptr lenPtr => exact (keptBy_sinkWrite h sink ptr lenPtr).agrees
    | eventEmit ptr lenPtr => exact (keptBy_eventEmit h ptr lenPtr).agrees
    | httpRequest _ _ _ _ _ _ _ _ => exact (keptBy_httpRequest h ..).agrees
    | fsOpen pathPtr pathLen mode outPtr => exact (keptBy_fsOpen h pathPtr pathLen mode outPtr).agrees
    | fsRead handle ptr lenPtr => exact hread (readEnds_fsRead w handle ptr lenPtr) rfl
    | fsClose handle => exact agrees_fsClose h handle
    | fsWrite handle ptr len => exact (keptBy_fsWrite h handle ptr len).agrees
    | fsStat pathPtr pathLen outPtr => exact (keptBy_fsStat h pathPtr pathLen outPtr).agrees
    | fsList pathPtr pathLen outPtr => exact (keptBy_fsList h pathPtr pathLen outPtr).agrees
    | fsMkdir pathPtr pathLen recursive => exact agrees_fsMkdir h pathPtr pathLen recursive
    | log ptr len => exact (keptBy_log h ptr len).agrees
    | checkCancelled invocation => exact ⟨h, absurd rfl⟩

theorem readEnds_guestMove (hread : move.read ≠ none) : ReadEnds w move (guestMove vfs library move w) := by
  cases move with
  | computes memory => exact absurd rfl hread
  | call call =>
    cases call with
    | sourceRead source ptr lenPtr => exact readEnds_sourceRead w source ptr lenPtr
    | fsRead handle ptr lenPtr => exact readEnds_fsRead w handle ptr lenPtr
    | _ => exact absurd rfl hread

theorem Asks.unique {stream' : GuestStream} {ptr' lenPtr' capacity' : Nat}
    {source' : WasmSourceState} (h : Asks w move stream ptr lenPtr capacity source)
    (h' : Asks w move stream' ptr' lenPtr' capacity' source') :
    stream = stream' ∧ ptr = ptr' ∧ lenPtr = lenPtr' ∧ capacity = capacity' ∧ source = source' := by
  obtain ⟨⟨p, l, hread, hptr, hlenPtr⟩, hcapacity, hsource⟩ := h
  obtain ⟨⟨p', l', hread', hptr', hlenPtr'⟩, hcapacity', hsource'⟩ := h'
  obtain ⟨rfl, rfl, rfl⟩ : stream = stream' ∧ p = p' ∧ l = l' := by simpa using hread.symm.trans hread'
  obtain rfl : lenPtr = lenPtr' := Option.some.inj (hlenPtr.symm.trans hlenPtr')
  exact ⟨rfl, Option.some.inj (hptr.symm.trans hptr'), rfl, Option.some.inj (hcapacity.symm.trans hcapacity'),
    Option.some.inj (hsource.symm.trans hsource')⟩

theorem sees_of_ends (hends : ReadEnds w move r)
    (hasks : Asks w move stream ptr lenPtr capacity source) (hsucceeds : Succeeds r.1) :
    Sees r.2.memory ptr lenPtr (source.chunk capacity) := by
  cases hends with
  | refused status hstatus _ => exact absurd hsucceeds hstatus
  | handed status memory hasks' _ _ _ hseen =>
    obtain ⟨rfl, rfl, rfl, rfl, rfl⟩ := hasks.unique hasks'
    exact hseen
  | lost _ _ => exact absurd hsucceeds not_succeeds_invalid

/-- **A read that its buffer cannot hold** fails, and its stream has moved on. -/
theorem lost_of_overruns (hends : ReadEnds w move r) (hover : Overruns w move) :
    move.read ≠ none ∧ ¬ Succeeds r.1 ∧ r.2.turn ≠ w.turn := by
  obtain ⟨stream, ptr, lenPtr, capacity, source, hasks, hchunk, hcopy⟩ := hover
  cases hends with
  | refused status _ hnone => exact absurd hasks (hnone stream ptr lenPtr capacity source)
  | handed status memory hasks' _ hfits _ _ =>
    obtain ⟨rfl, rfl, rfl, rfl, rfl⟩ := hasks.unique hasks'
    exact absurd hcopy hfits
  | lost hasks' _ =>
    obtain ⟨rfl, rfl, rfl, rfl, rfl⟩ := hasks.unique hasks'
    obtain ⟨_, _, hread, -, -⟩ := hasks.read
    refine ⟨by simp [hread], not_succeeds_invalid, fun hsame => hchunk ?_⟩
    have hmoved := WasmTurnState.stream?_advance hasks.source capacity stream
    rw [if_pos rfl, show w.turn.advance capacity stream = w.turn from hsame, hasks.source] at hmoved
    have hoffset : source.offset = source.offset + (source.chunk capacity).length :=
      congrArg WasmSourceState.offset (Option.some.inj hmoved)
    exact List.length_eq_zero_iff.mp (by omega)

theorem record_read (hread : move.read ≠ none) (status : Int) :
    ledger.record vfs library move w status = ledger.deliver (move.handed w status) := by
  cases move with
  | computes memory => exact absurd rfl hread
  | call call =>
    cases call with
    | sourceRead source ptr lenPtr => rfl
    | fsRead handle ptr lenPtr => rfl
    | _ => exact absurd rfl hread

end Moves

/-! ### Runs -/

section Runs
variable {config : WasmRuntimeConfig} {vfs : VerletVfs σ} {library : JsonLibrary} {t : GuestRun σ}
  {move : GuestMove}

theorem stored_fsClose (h : Kept config t.world.turn t.ledger) {handle : Int32} {n : Nat} {path : String}
    {buffer : Bytes} (hn : nonnegativeU32 handle = some n)
    (hfile : t.world.turn.files n = some (.write path buffer))
    (hok : (fsClose vfs handle t.world).1 = statusOk) :
    vfs.readFile path (fsClose vfs handle t.world).2.vfs = .ok (t.ledger.payloads n) := by
  revert hok
  refine fsClose_of
    (P := fun r => r.1 = statusOk → vfs.readFile path r.2.vfs = .ok (t.ledger.payloads n)) ?_ ?_ ?_
  · intro status hnot hok
    exact absurd hok hnot
  · intro n' source hn' hread
    obtain rfl : n = n' := Option.some.inj (hn.symm.trans hn')
    rw [hfile] at hread
    cases hread
  · intro n' path' buffer' status s hn' hwrite hends hok
    obtain rfl : n = n' := Option.some.inj (hn.symm.trans hn')
    obtain ⟨rfl, rfl⟩ : path = path' ∧ buffer = buffer' := by simpa [hfile] using hwrite
    rcases hends with ⟨-, hnot⟩ | ⟨rfl, hstored⟩
    · exact absurd hok hnot
    · rw [(h.payloads n path buffer hfile).1]
      exact vfs.replaces path buffer t.world.vfs (hstored hok)

/-- **A move is exact** where its buffer can hold what it asks for. -/
theorem exact_of_kept (h : Kept config t.world.turn t.ledger) (hnot : ¬ Overruns t.world move) :
    Exact config vfs library t move := by
  obtain ⟨hkept, hmoves⟩ : Agrees config vfs library t.world t.ledger move _ := agrees_guestMove h hnot
  refine ⟨fun stream source hsource => ?_, fun hread hfails => ?_, ?_, fun stream ptr lenPtr hread hends => ?_,
    hmoves, ?_, hkept.written⟩
  · change _ <+: (t.ledger.record vfs library move t.world (guestMove vfs library move t.world).1).contents stream
    rw [← hkept.contents stream source hsource]
    exact (hkept.delivered stream source hsource).1 ▸ List.take_prefix _ _
  · exact (kept_read h (readEnds_guestMove hread) hnot).2.2.1 hfails
  · intro stream ptr lenPtr capacity source hasks hsucceeds
    obtain ⟨_, _, hread, -, -⟩ := hasks.read
    have hread : move.read ≠ none := by simp [hread]
    have hsucceeds : Succeeds (guestMove vfs library move t.world).1 := hsucceeds
    refine ⟨?_, sees_of_ends (readEnds_guestMove hread) hasks hsucceeds⟩
    change (t.ledger.record vfs library move t.world (guestMove vfs library move t.world).1).delivered stream = _
    rw [record_read hread, handed_of_asks hasks hsucceeds]
    simp [GuestLedger.deliver]
  · have hread' : move.read ≠ none := by simp [hread]
    obtain ⟨-, -, -, hall⟩ := kept_read h (@readEnds_guestMove σ vfs library t.world move hread') hnot
    change (t.ledger.record vfs library move t.world (guestMove vfs library move t.world).1).delivered stream =
      (t.ledger.record vfs library move t.world (guestMove vfs library move t.world).1).contents stream
    rw [record_read hread', GuestLedger.contents_deliver]
    exact hall stream ptr lenPtr hread hends
  · rintro handle n path buffer rfl hn hfile hok
    exact stored_fsClose h hn hfile hok

theorem exact_iff_move (h : Kept config t.world.turn t.ledger) :
    Exact config vfs library t move ↔ ¬ Overruns t.world move := by
  refine ⟨fun hexact hover => ?_, exact_of_kept h⟩
  obtain ⟨_, _, _, _, _, ⟨⟨_, _, hread, -, -⟩, -, -⟩, -⟩ := id hover
  have hread : move.read ≠ none := by simp [hread]
  obtain ⟨-, hfails, hmoved⟩ := lost_of_overruns (@readEnds_guestMove σ vfs library t.world move hread) hover
  exact hmoved (hexact.failed hread hfails)

/-- **Streams and files are exact over a run just if no read asks for a chunk that its buffer cannot hold.** -/
theorem exact_iff (config : WasmRuntimeConfig) (vfs : VerletVfs σ) (library : JsonLibrary) (input : Bytes)
    (memory : Memory) (s : σ) (moves : List GuestMove) :
    Along (GuestRun.step vfs library) (Exact config vfs library) moves (.start input config memory s) ↔
      Along (GuestRun.step vfs library) (fun t move => ¬ Overruns t.world move) moves
        (.start input config memory s) := by
  have hiff (moves : List GuestMove) (t : GuestRun σ) (h : Kept config t.world.turn t.ledger) :
      Along (GuestRun.step vfs library) (Exact config vfs library) moves t ↔
        Along (GuestRun.step vfs library) (fun t move => ¬ Overruns t.world move) moves t := by
    induction moves generalizing t with
    | nil => exact Iff.rfl
    | cons move moves ih =>
      change Exact config vfs library t move ∧ _ ↔ ¬ Overruns t.world move ∧ _
      rw [exact_iff_move h]
      exact and_congr_right fun hnot => ih _ (agrees_guestMove h hnot).1
  exact hiff moves _ (.start input config)

end Runs

/-! ### A read that its buffer cannot hold -/

def flatVfs : VerletVfs (List (String × Bytes)) where
  readFile path s := match s.lookup path with
    | none       => .error .notFound
    | some bytes => .ok bytes
  stat path s := match s.lookup path with
    | none       => .error .notFound
    | some bytes => .ok ⟨.file, bytes.length⟩
  readDir _ s := .ok (s.map fun file => ⟨file.1, .file⟩)
  writeFile path bytes s := (.ok (), (path, bytes) :: s)
  mkdir _ _ s := (.ok (), s)
  replaces path bytes s _ := by simp

/-- A page of memory, which begins with a two. -/
@[irreducible] def samplePage : Bytes := [2, 0, 0, 0] ++ List.replicate 65532 0

theorem length_samplePage : samplePage.length = 65536 := by
  rw [samplePage, List.length_append, List.length_replicate]
  rfl

theorem readGuestU32At_samplePage : readGuestU32At (some samplePage) 0 = some 2 := by
  have hfour : sliceAt (some samplePage) 0 4 = some [2, 0, 0, 0] := by
    rw [sliceAt, if_neg (by rw [length_samplePage]; decide), List.drop_zero, samplePage]
    rfl
  rw [readGuestU32At, hfour]
  rfl

def sampleConfig : WasmRuntimeConfig := ⟨16, [], false⟩

def sampleJson : JsonLibrary := ⟨fun _ => none, fun _ => none, fun _ => []⟩

def sampleGuest : GuestRun (List (String × Bytes)) := .start [1, 2, 3] sampleConfig (some samplePage) []

/-- Two bytes of the input are asked for, to the last byte of the page. -/
def sampleRead : GuestMove := .call (.sourceRead 1 65535 0)

theorem overruns_sampleRead : Overruns sampleGuest.world sampleRead := by
  refine ⟨.source 1, 65535, 0, 2, ⟨[1, 2, 3], 0⟩, ⟨⟨65535, 0, rfl, rfl, rfl⟩, readGuestU32At_samplePage, rfl⟩,
    by decide, ?_⟩
  exact if_pos (by rw [length_samplePage]; decide)

/-- **Bytes that are lost**: the read fails, and the turn has moved on. -/
theorem overrun_lost :
    ¬ Succeeds (sampleGuest.step flatVfs sampleJson sampleRead).1 ∧
      (sampleGuest.step flatVfs sampleJson sampleRead).2.world.turn ≠ sampleGuest.world.turn ∧
      ¬ Along (GuestRun.step flatVfs sampleJson) (Exact sampleConfig flatVfs sampleJson) [sampleRead]
        sampleGuest := by
  obtain ⟨-, hfails, hmoved⟩ := lost_of_overruns
    (@readEnds_guestMove _ flatVfs sampleJson sampleGuest.world sampleRead (by simp [sampleRead, GuestMove.read]))
    overruns_sampleRead
  exact ⟨hfails, hmoved, fun hexact => (exact_iff_move (.start _ _)).mp hexact.1 overruns_sampleRead⟩

end Verlet.Wasm
