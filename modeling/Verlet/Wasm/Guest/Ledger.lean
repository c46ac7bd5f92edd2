import Verlet.Wasm.Guest

/-!
# Wasm — The guest — The ledger

What each stream was opened with and what a module was handed of it, what it paid into a file that it
writes, and what it gave a sink, kept beside the turn.
-/

namespace Verlet.Wasm
open Function (update update_eq_self update_self)

variable {σ : Type}

/-! ### Streams -/

/-- What a module reads from: a source, which the input is one of, or a file that is open for it. -/
inductive GuestStream where
  | source (source : Nat)
  | file (handle : Nat)
deriving DecidableEq

namespace WasmTurnState

def stream? (turn : WasmTurnState) : GuestStream → Option WasmSourceState
  | .source source => if source = inputSource then some ⟨turn.input, turn.inputOffset⟩ else turn.sources source
  | .file handle   =>
    match turn.files handle with
    | some (.read state) => some state
    | _                  => none

def advance (turn : WasmTurnState) (capacity : Nat) : GuestStream → WasmTurnState
  | .source source =>
    if source = inputSource then
      { turn with inputOffset := (WasmSourceState.advance ⟨turn.input, turn.inputOffset⟩ capacity).offset }
    else { turn with
      sources := update turn.sources source ((turn.sources source).map (·.advance capacity)) }
  | .file handle =>
    match turn.files handle with
    | some (.read state) =>
      { turn with files := update turn.files handle (some (.read (state.advance capacity))) }
    | _ => turn

end WasmTurnState

/-! ### What a module was given, and what it gave -/

/-- What each stream was opened with and what was handed out of it since, what each file to be written was paid
since it was opened, and what each sink was given. -/
structure GuestLedger where
  contents : GuestStream → Bytes
  delivered : GuestStream → Bytes
  payloads : Nat → Bytes
  written : Nat → Bytes

namespace GuestLedger

def start (input : Bytes) : GuestLedger where
  contents stream := if stream = .source inputSource then input else []
  delivered _ := []
  payloads _ := []
  written _ := []

variable (ledger : GuestLedger)

/-- The stream begins anew, and so does the file of its handle. -/
def opening (opened : GuestStream × Bytes) : GuestLedger where
  contents := update ledger.contents opened.1 opened.2
  delivered := update ledger.delivered opened.1 []
  payloads handle := if .file handle = opened.1 then [] else ledger.payloads handle
  written := ledger.written

def opens (opened : List (GuestStream × Bytes)) : GuestLedger :=
  opened.foldl opening ledger

def deliver : Option (GuestStream × Bytes) → GuestLedger
  | none                 => ledger
  | some (stream, chunk) => { ledger with
      delivered := update ledger.delivered stream (ledger.delivered stream ++ chunk) }

def pay : Option (Nat × Bytes) → GuestLedger
  | none => ledger
  | some (handle, bytes) => { ledger with
      payloads := update ledger.payloads handle (ledger.payloads handle ++ bytes) }

def write : Option (Nat × Bytes) → GuestLedger
  | none               => ledger
  | some (sink, bytes) => { ledger with
      written := update ledger.written sink (ledger.written sink ++ bytes) }

end GuestLedger

/-- A status with which a read hands out all that is left. -/
def Ends (status : Int) : Prop := status = statusExhausted ∨ status = statusEof

/-- A status with which a read hands out a chunk. -/
def Succeeds (status : Int) : Prop := status = statusOk ∨ Ends status

instance (status : Int) : Decidable (Ends status) := inferInstanceAs (Decidable (_ ∨ _))

instance (status : Int) : Decidable (Succeeds status) := inferInstanceAs (Decidable (_ ∨ _))

theorem not_succeeds_invalid : ¬ Succeeds statusInvalidArgument := by decide

namespace GuestMove

/-- What a read is asked: its stream, its buffer and where its capacity stands. -/
def read : GuestMove → Option (Option GuestStream × Int32 × Int32)
  | .call (.sourceRead source ptr lenPtr) => some ((nonnegativeU32 source).map .source, ptr, lenPtr)
  | .call (.fsRead handle ptr lenPtr)     => some ((nonnegativeU32 handle).map .file, ptr, lenPtr)
  | _                                     => none

def chunk? (w : GuestWorld σ) (stream : GuestStream) (lenPtr : Int32) : Option Bytes := do
  let lenPtr ← nonnegativeUsize lenPtr
  let capacity ← readGuestU32At w.memory lenPtr
  let source ← w.turn.stream? stream
  return source.chunk capacity

/-- What a read that succeeds hands out. -/
def handed (move : GuestMove) (w : GuestWorld σ) (status : Int) : Option (GuestStream × Bytes) := do
  let (stream, _, lenPtr) ← move.read
  let stream ← stream
  let chunk ← chunk? w stream lenPtr
  if Succeeds status then some (stream, chunk) else none

def contentsOf : WasmFileState → Bytes
  | .read source => source.bytes
  | .write _ _   => []

def opened (vfs : VerletVfs σ) (library : JsonLibrary) (w : GuestWorld σ) : GuestMove → List (GuestStream × Bytes)
  | .call (.fsOpen pathPtr pathLen mode outPtr) =>
    match openTarget vfs pathPtr pathLen mode outPtr w with
    | .ok target => [(.file w.turn.nextFile, contentsOf target.2)]
    | .error _   => []
  | .call (.fsList pathPtr pathLen outPtr) =>
    match listing vfs library pathPtr pathLen outPtr w with
    | .ok listed => [(.source w.turn.nextSource, listed.2)]
    | .error _   => []
  | .call (.httpRequest invocation requestPtr requestLen bodyPtr bodyLen outPtr sink (.exchange response body)) =>
    match httpArguments invocation requestPtr requestLen bodyPtr bodyLen outPtr sink w,
        library.responseBytes response with
    | .ok _, some responseMeta =>
      [(.source w.turn.nextSource, responseMeta), (.source (nextU32 w.turn.nextSource), body)]
    | _, _ => []
  | _ => []

/-- What a write that succeeds pays into its file. -/
def paid (w : GuestWorld σ) (status : Int) : GuestMove → Option (Nat × Bytes)
  | .call (.fsWrite handle ptr len) => do
    let handle ← nonnegativeU32 handle
    let bytes ← readGuestMemory w.memory ptr len
    if status = statusOk then some (handle, bytes) else none
  | _ => none

/-- The payload of `sink_write` and `event_emit`. -/
def payload? (w : GuestWorld σ) (ptr lenPtr : Int32) : Option Bytes := do
  let lenPtr ← nonnegativeUsize lenPtr
  let len ← readGuestU32At w.memory lenPtr
  readGuestMemory w.memory ptr (Int32.ofInt len)

/-- What a call that succeeds gives a sink. -/
def given (library : JsonLibrary) (w : GuestWorld σ) (status : Int) : GuestMove → Option (Nat × Bytes)
  | .call (.outputWrite ptr len) => (readGuestMemory w.memory ptr len).map fun bytes => (outputSink, bytes)
  | .call (.outputLog ptr len) => (readGuestMemory w.memory ptr len).map fun bytes => (outputSink, logLine bytes)
  | .call (.sinkWrite sink ptr lenPtr) => do
    let sink ← nonnegativeU32 sink
    let bytes ← payload? w ptr lenPtr
    if status = statusOk then some (sink, bytes) else none
  | .call (.eventEmit ptr lenPtr) => do
    let bytes ← payload? w ptr lenPtr
    if status = statusOk then some (eventSink, bytes) else none
  | .call (.log ptr len) => do
    let bytes ← readGuestMemory w.memory ptr len
    if status = statusOk then some (eventSink, logLine bytes) else none
  | .call (.httpRequest invocation requestPtr requestLen bodyPtr bodyLen outPtr sink (.failed _ code message)) =>
    match httpArguments invocation requestPtr requestLen bodyPtr bodyLen outPtr sink w with
    | .ok _    => some (eventSink, httpEvent library code message)
    | .error _ => none
  | .call (.httpRequest invocation requestPtr requestLen bodyPtr bodyLen outPtr sink (.exchange response _)) =>
    match httpArguments invocation requestPtr requestLen bodyPtr bodyLen outPtr sink w,
        library.responseBytes response with
    | .ok _, some _ => if status = statusOk then some (eventSink, httpEvent library "http_response" "") else none
    | _, _          => none
  | _ => none

end GuestMove

def GuestLedger.record (vfs : VerletVfs σ) (library : JsonLibrary) (move : GuestMove) (w : GuestWorld σ)
    (status : Int) (ledger : GuestLedger) : GuestLedger :=
  (((ledger.opens (move.opened vfs library w)).deliver (move.handed w status)).pay (move.paid w status)).write
    (move.given library w status)

/-- A turn, with what is kept of it. -/
structure GuestRun (σ : Type) where
  world : GuestWorld σ
  ledger : GuestLedger

def GuestRun.step (vfs : VerletVfs σ) (library : JsonLibrary) (move : GuestMove) (t : GuestRun σ) :
    Int × GuestRun σ :=
  ((guestMove vfs library move t.world).1, ⟨(guestMove vfs library move t.world).2,
    t.ledger.record vfs library move t.world (guestMove vfs library move t.world).1⟩)

/-- The turn begins. -/
def GuestRun.start (input : Bytes) (config : WasmRuntimeConfig) (memory : Memory) (s : σ) : GuestRun σ :=
  ⟨⟨.new input config, memory, s⟩, .start input⟩

/-! ### What is kept -/

/-- The turn agrees with its configuration and with what is kept of it. -/
structure Kept (config : WasmRuntimeConfig) (turn : WasmTurnState) (ledger : GuestLedger) : Prop where
  limit : turn.maxOutputBytes = config.maxOutputBytes
  grants : turn.capabilityGrants = config.capabilityGrants
  fresh : inputSource < turn.nextSource
  contents : ∀ stream source, turn.stream? stream = some source → source.bytes = ledger.contents stream
  delivered : ∀ stream source, turn.stream? stream = some source →
    ledger.delivered stream = source.bytes.take source.offset ∧ source.offset ≤ source.bytes.length
  payloads : ∀ handle path buffer, turn.files handle = some (.write path buffer) →
    ledger.payloads handle = buffer ∧ fsWriteCapability ∈ config.capabilityGrants
  written : ∀ sink, turn.sink sink = (ledger.written sink).take config.maxOutputBytes

namespace GuestLedger

@[simp] theorem opens_nil (ledger : GuestLedger) : ledger.opens [] = ledger := rfl

@[simp] theorem deliver_none (ledger : GuestLedger) : ledger.deliver none = ledger := rfl

@[simp] theorem contents_deliver (ledger : GuestLedger) (handed : Option (GuestStream × Bytes)) :
    (ledger.deliver handed).contents = ledger.contents := by
  cases handed <;> rfl

end GuestLedger

@[simp] theorem pay_none (ledger : GuestLedger) : ledger.pay none = ledger := rfl

@[simp] theorem write_none (ledger : GuestLedger) : ledger.write none = ledger := rfl

variable {source : WasmSourceState}

namespace WasmSourceState

theorem length_chunk (source : WasmSourceState) (capacity : Nat) :
    (source.chunk capacity).length = min capacity (source.bytes.length - source.offset) := by
  rw [chunk, List.length_take, List.length_drop]

theorem take_advance (source : WasmSourceState) (capacity : Nat) :
    source.bytes.take source.offset ++ source.chunk capacity =
      source.bytes.take (source.advance capacity).offset := by
  rw [advance, List.take_add, chunk, List.length_take, ← List.take_eq_take_min]

theorem advance_le (h : source.offset ≤ source.bytes.length) (capacity : Nat) :
    (source.advance capacity).offset ≤ source.bytes.length := by
  rw [advance, length_chunk]
  dsimp only
  omega

end WasmSourceState

variable {turn : WasmTurnState} {ledger : GuestLedger} {handle : Nat} {stream : GuestStream}

namespace WasmTurnState

theorem stream?_file :
    turn.stream? (.file handle) = some source ↔ turn.files handle = some (.read source) := by
  cases hfile : turn.files handle with
  | none => simp [stream?, hfile]
  | some file => cases file <;> simp [stream?, hfile]

theorem stream?_advance (h : turn.stream? stream = some source) (capacity : Nat)
    (stream' : GuestStream) :
    (turn.advance capacity stream).stream? stream' =
      if stream' = stream then some (source.advance capacity) else turn.stream? stream' := by
  cases stream with
  | source n =>
    by_cases hn : n = inputSource
    · obtain rfl : (⟨turn.input, turn.inputOffset⟩ : WasmSourceState) = source := by simpa [stream?, hn] using h
      cases stream' with
      | source m => by_cases hm : m = inputSource <;> simp [stream?, advance, hn, hm, WasmSourceState.advance]
      | file m => simp [stream?, advance, hn]
    · have hsource : turn.sources n = some source := by simpa [stream?, hn] using h
      cases stream' with
      | source m =>
        by_cases hmn : m = n
        · simp [stream?, advance, hn, hmn, hsource]
        · by_cases hm : m = inputSource <;> simp [stream?, advance, hn, hm, hmn]
          intro hinput
          exact absurd hinput.symm hn
      | file m => simp [stream?, advance, hn]
  | file n =>
    have hfile := stream?_file.mp h
    cases stream' with
    | source m => simp [stream?, advance, hfile]
    | file m => by_cases hmn : m = n <;> simp [stream?, advance, hfile, hmn]

theorem files_advance (capacity : Nat) (stream : GuestStream) {path : String} {buffer : Bytes} :
    (turn.advance capacity stream).files handle = some (.write path buffer) ↔
      turn.files handle = some (.write path buffer) := by
  cases stream with
  | source n => by_cases hn : n = inputSource <;> simp [advance, hn]
  | file n =>
    cases hfile : turn.files n with
    | none => simp [advance, hfile]
    | some file =>
      cases file with
      | write path buffer => simp [advance, hfile]
      | read source => by_cases hn : handle = n <;> simp [advance, hfile, hn]

theorem advance_rest (turn : WasmTurnState) (capacity : Nat) (stream : GuestStream) :
    (turn.advance capacity stream).nextSource = turn.nextSource ∧
      (turn.advance capacity stream).sinks = turn.sinks ∧
      (turn.advance capacity stream).maxOutputBytes = turn.maxOutputBytes ∧
      (turn.advance capacity stream).capabilityGrants = turn.capabilityGrants := by
  cases stream with
  | source n => by_cases hn : n = inputSource <;> simp [advance, hn]
  | file n =>
    cases hfile : turn.files n with
    | none => simp [advance, hfile]
    | some file => cases file <;> simp [advance, hfile]

theorem advance_nil (h : turn.stream? stream = some source) {capacity : Nat}
    (hchunk : source.chunk capacity = []) : turn.advance capacity stream = turn := by
  have hsame : source.advance capacity = source := by simp [WasmSourceState.advance, hchunk]
  cases stream with
  | source n =>
    by_cases hn : n = inputSource
    · obtain rfl : (⟨turn.input, turn.inputOffset⟩ : WasmSourceState) = source := by simpa [stream?, hn] using h
      simp [advance, hn, hsame]
    · have hsource : turn.sources n = some source := by simpa [stream?, hn] using h
      have hupdate : update turn.sources n (some source) = turn.sources := by
        rw [← hsource, update_eq_self]
      simp [advance, hn, hsource, hsame, hupdate]
  | file n =>
    have hfile := stream?_file.mp h
    have hupdate : update turn.files n (some (.read source)) = turn.files := by
      rw [← hfile, update_eq_self]
    simp [advance, hfile, hsame, hupdate]

theorem stream?_insertSource (hfresh : inputSource < turn.nextSource) (bytes : Bytes) (stream : GuestStream) :
    (turn.insertSource bytes).stream? stream =
      if stream = .source turn.nextSource then some ⟨bytes, 0⟩ else turn.stream? stream := by
  have hne : turn.nextSource ≠ inputSource := Nat.ne_of_gt hfresh
  cases stream with
  | source n =>
    by_cases hn : n = turn.nextSource
    · simp [stream?, insertSource, hn, hne]
    · simp [stream?, insertSource, hn]
  | file n => simp [stream?, insertSource]

theorem stream?_insertFile (file : WasmFileState) (stream : GuestStream) :
    (turn.insertFile file).stream? stream =
      if stream = .file turn.nextFile then (match file with | .read source => some source | _ => none)
      else turn.stream? stream := by
  cases stream with
  | source n => simp [stream?, insertFile]
  | file n => by_cases hn : n = turn.nextFile <;> cases file <;> simp [stream?, insertFile, hn]

theorem sink_appendSink (sink : Nat) (bytes : Bytes) (sink' : Nat) :
    (turn.appendSink sink bytes).sink sink' =
      if sink' = sink then turn.sink sink ++ bytes.take (turn.maxOutputBytes - (turn.sink sink).length)
      else turn.sink sink' := by
  unfold appendSink
  dsimp only
  split
  · by_cases hsink : sink' = sink <;> simp [WasmTurnState.sink, hsink]
  · next hfits =>
    rw [List.take_of_length_le (Nat.le_of_not_lt hfits)]
    by_cases hsink : sink' = sink <;> simp [WasmTurnState.sink, hsink]

theorem appendSink_rest (turn : WasmTurnState) (sink : Nat) (bytes : Bytes) :
    (turn.appendSink sink bytes).stream? = turn.stream? ∧ (turn.appendSink sink bytes).files = turn.files ∧
      (turn.appendSink sink bytes).nextSource = turn.nextSource ∧
      (turn.appendSink sink bytes).maxOutputBytes = turn.maxOutputBytes ∧
      (turn.appendSink sink bytes).capabilityGrants = turn.capabilityGrants := by
  unfold appendSink
  dsimp only
  split <;> exact ⟨rfl, rfl, rfl, rfl, rfl⟩

end WasmTurnState

namespace Kept

theorem start (input : Bytes) (config : WasmRuntimeConfig) : Kept config (.new input config) (.start input) := by
  have hinput {stream source} (h : (WasmTurnState.new input config).stream? stream = some source) :
      stream = .source inputSource ∧ source = ⟨input, 0⟩ := by
    cases stream with
    | source n =>
      by_cases hn : n = inputSource
      · simpa [WasmTurnState.stream?, WasmTurnState.new, hn, eq_comm] using h
      · simp [WasmTurnState.stream?, WasmTurnState.new, hn] at h
    | file n => simp [WasmTurnState.stream?, WasmTurnState.new] at h
  refine ⟨rfl, rfl, ?_, fun stream source hsource => ?_, fun stream source hsource => ?_, nofun, fun sink => ?_⟩
  · change 1 < 10
    omega
  · obtain ⟨rfl, rfl⟩ := hinput hsource
    simp [GuestLedger.start]
  · obtain ⟨rfl, rfl⟩ := hinput hsource
    simp [GuestLedger.start]
  · simp [WasmTurnState.sink, WasmTurnState.new, GuestLedger.start]

variable {config : WasmRuntimeConfig} (h : Kept config turn ledger)

include h

theorem outputTruncated : Kept config { turn with outputTruncated := true } ledger :=
  ⟨h.limit, h.grants, h.fresh, h.contents, h.delivered, h.payloads, h.written⟩

/-- **A chunk is handed out.** -/
theorem advance (hsource : turn.stream? stream = some source) (capacity : Nat) :
    Kept config (turn.advance capacity stream) (ledger.deliver (some (stream, source.chunk capacity))) := by
  obtain ⟨hnext, hsinks, hlimit, hgrants⟩ := turn.advance_rest capacity stream
  refine ⟨hlimit ▸ h.limit, hgrants ▸ h.grants, hnext ▸ h.fresh, fun stream' source' hsource' => ?_,
    fun stream' source' hsource' => ?_, fun handle path buffer hfile => ?_, fun sink => ?_⟩
  · rw [WasmTurnState.stream?_advance hsource] at hsource'
    by_cases hstream : stream' = stream
    · subst hstream
      obtain rfl : source.advance capacity = source' := by simpa using hsource'
      exact h.contents stream' source hsource
    · exact h.contents stream' source' (by simpa [hstream] using hsource')
  · rw [WasmTurnState.stream?_advance hsource] at hsource'
    by_cases hstream : stream' = stream
    · subst hstream
      obtain rfl : source.advance capacity = source' := by simpa using hsource'
      obtain ⟨hdelivered, hle⟩ := h.delivered stream' source hsource
      refine ⟨?_, source.advance_le hle capacity⟩
      simp only [GuestLedger.deliver, update_self]
      rw [hdelivered, source.take_advance]
      rfl
    · simpa [GuestLedger.deliver, hstream] using h.delivered stream' source' (by simpa [hstream] using hsource')
  · exact h.payloads handle path buffer ((WasmTurnState.files_advance capacity stream).mp hfile)
  · rw [WasmTurnState.sink, hsinks]
    exact h.written sink

/-- **A source is opened.** -/
theorem insertSource (bytes : Bytes) :
    Kept config (turn.insertSource bytes) (ledger.opening (.source turn.nextSource, bytes)) := by
  have hfresh := h.fresh
  refine ⟨h.limit, h.grants, ?_, fun stream source hsource => ?_, fun stream source hsource => ?_,
    fun handle path buffer hfile => ?_, h.written⟩
  · simp only [WasmTurnState.insertSource, nextU32, inputSource] at hfresh ⊢
    omega
  · rw [WasmTurnState.stream?_insertSource hfresh] at hsource
    by_cases hstream : stream = .source turn.nextSource
    · obtain rfl : (⟨bytes, 0⟩ : WasmSourceState) = source := by simpa [hstream] using hsource
      simp [GuestLedger.opening, hstream]
    · simpa [GuestLedger.opening, hstream] using h.contents stream source (by simpa [hstream] using hsource)
  · rw [WasmTurnState.stream?_insertSource hfresh] at hsource
    by_cases hstream : stream = .source turn.nextSource
    · obtain rfl : (⟨bytes, 0⟩ : WasmSourceState) = source := by simpa [hstream] using hsource
      simp [GuestLedger.opening, hstream]
    · simpa [GuestLedger.opening, hstream] using h.delivered stream source (by simpa [hstream] using hsource)
  · simpa [GuestLedger.opening] using h.payloads handle path buffer hfile

/-- **A file is opened**, to be written if writes are granted. -/
theorem insertFile {file : WasmFileState} (hfile : (∃ bytes, file = .read ⟨bytes, 0⟩) ∨
      ∃ path, file = .write path [] ∧ fsWriteCapability ∈ config.capabilityGrants) :
    Kept config (turn.insertFile file)
      (ledger.opening (.file turn.nextFile, GuestMove.contentsOf file)) := by
  -- the stream of the handle, if it is to be read
  have hnew {source} (hsource : (turn.insertFile file).stream? (.file turn.nextFile) = some source) :
      source = ⟨GuestMove.contentsOf file, 0⟩ := by
    rw [WasmTurnState.stream?_insertFile, if_pos rfl] at hsource
    rcases hfile with ⟨bytes, rfl⟩ | ⟨path, rfl, -⟩
    · exact (Option.some.inj hsource).symm
    · cases hsource
  have hold {stream source} (hsource : (turn.insertFile file).stream? stream = some source)
      (hstream : stream ≠ .file turn.nextFile) : turn.stream? stream = some source := by
    rwa [WasmTurnState.stream?_insertFile, if_neg hstream] at hsource
  refine ⟨h.limit, h.grants, h.fresh, fun stream source hsource => ?_, fun stream source hsource => ?_,
    fun handle path buffer hopen => ?_, h.written⟩
  · by_cases hstream : stream = .file turn.nextFile
    · subst hstream
      simp [hnew hsource, GuestLedger.opening]
    · simpa [GuestLedger.opening, hstream] using h.contents stream source (hold hsource hstream)
  · by_cases hstream : stream = .file turn.nextFile
    · subst hstream
      simp [hnew hsource, GuestLedger.opening]
    · simpa [GuestLedger.opening, hstream] using h.delivered stream source (hold hsource hstream)
  · by_cases hhandle : handle = turn.nextFile
    · rcases hfile with ⟨bytes, rfl⟩ | ⟨path', rfl, hgranted⟩
      · simp [WasmTurnState.insertFile, hhandle] at hopen
      · obtain ⟨rfl, rfl⟩ : path' = path ∧ [] = buffer := by
          simpa [WasmTurnState.insertFile, hhandle] using hopen
        exact ⟨by simp [GuestLedger.opening, hhandle], hgranted⟩
    · simpa [GuestLedger.opening, hhandle] using
        h.payloads handle path buffer (by simpa [WasmTurnState.insertFile, hhandle] using hopen)

theorem of_files {files : Nat → Option WasmFileState} {ledger' : GuestLedger}
    (hread : ∀ handle source, files handle = some (.read source) → turn.files handle = some (.read source))
    (hcontents : ledger'.contents = ledger.contents) (hdelivered : ledger'.delivered = ledger.delivered)
    (hwritten : ledger'.written = ledger.written)
    (hpayloads : ∀ handle path buffer, files handle = some (.write path buffer) →
      ledger'.payloads handle = buffer ∧ fsWriteCapability ∈ config.capabilityGrants) :
    Kept config { turn with files := files } ledger' := by
  have hstream {stream source}
      (hsource : ({ turn with files := files } : WasmTurnState).stream? stream = some source) :
      turn.stream? stream = some source := by
    cases stream with
    | source n => exact hsource
    | file n =>
      rw [WasmTurnState.stream?_file] at hsource ⊢
      exact hread n source hsource
  exact ⟨h.limit, h.grants, h.fresh,
    fun stream source hsource => hcontents ▸ h.contents stream source (hstream hsource),
    fun stream source hsource => hdelivered ▸ h.delivered stream source (hstream hsource), hpayloads,
    fun sink => hwritten ▸ h.written sink⟩

/-- **A file is paid.** -/
theorem pay {path : String} {buffer : Bytes}
    (hfile : turn.files handle = some (.write path buffer)) (bytes : Bytes) :
    Kept config { turn with files := update turn.files handle (some (.write path (buffer ++ bytes))) }
      (ledger.pay (some (handle, bytes))) := by
  refine h.of_files (fun handle' source hread => ?_) rfl rfl rfl fun handle' path' buffer' hopen => ?_
  · by_cases hhandle : handle' = handle
    · simp [hhandle] at hread
    · simpa [hhandle] using hread
  · by_cases hhandle : handle' = handle
    · obtain ⟨hpayloads, hgranted⟩ := h.payloads handle path buffer hfile
      obtain ⟨-, rfl⟩ : path = path' ∧ buffer ++ bytes = buffer' := by simpa [hhandle] using hopen
      exact ⟨by simp [GuestLedger.pay, hhandle, hpayloads], hgranted⟩
    · simpa [GuestLedger.pay, hhandle] using h.payloads handle' path' buffer' (by simpa [hhandle] using hopen)

/-- **A file is closed.** -/
theorem close (handle : Nat) :
    Kept config { turn with files := update turn.files handle none } ledger := by
  refine h.of_files (fun handle' source hread => ?_) rfl rfl rfl fun handle' path buffer hopen => ?_
  · by_cases hhandle : handle' = handle
    · simp [hhandle] at hread
    · simpa [hhandle] using hread
  · by_cases hhandle : handle' = handle
    · simp [hhandle] at hopen
    · exact h.payloads handle' path buffer (by simpa [hhandle] using hopen)

/-- **A sink is given bytes.** -/
theorem write (sink : Nat) (bytes : Bytes) :
    Kept config (turn.appendSink sink bytes) (ledger.write (some (sink, bytes))) := by
  obtain ⟨hstreams, hfiles, hnext, hlimit, hgrants⟩ := turn.appendSink_rest sink bytes
  refine ⟨hlimit ▸ h.limit, hgrants ▸ h.grants, hnext ▸ h.fresh, hstreams ▸ h.contents, hstreams ▸ h.delivered,
    hfiles ▸ h.payloads, fun sink' => ?_⟩
  rw [WasmTurnState.sink_appendSink, h.limit]
  by_cases hsink : sink' = sink
  · have hlength : config.maxOutputBytes - ((ledger.written sink).take config.maxOutputBytes).length =
        config.maxOutputBytes - (ledger.written sink).length := by
      rw [List.length_take]
      omega
    subst hsink
    rw [if_pos rfl, h.written sink', hlength, ← List.take_append]
    simp [GuestLedger.write]
  · simpa [GuestLedger.write, hsink] using h.written sink'

end Kept

end Verlet.Wasm
