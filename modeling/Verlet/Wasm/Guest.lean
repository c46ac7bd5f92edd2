import Mathlib.Algebra.Group.Int.Defs
import Mathlib.Algebra.Group.Nat.Defs
import Mathlib.Logic.Function.Basic

/-!
# Wasm — The guest

The host calls of a module: what it may read and write of its input, of the sources and files that it
opens and of the sinks, by way of its own memory.  A module passes what integers it likes; between two
calls it leaves its memory as it likes.

The file system and `serde_json` are parameters, and an HTTP exchange is what a call is answered.
-/

namespace Verlet.Wasm
open Function (update)

abbrev Bytes := List UInt8

/-! ### Statuses -/

def statusOk : Int := 0
def statusInvalidArgument : Int := 1
def statusNotFound : Int := 2
def statusCapabilityDenied : Int := 3
def statusTransportError : Int := 4
def statusCancelled : Int := 6
def statusEof : Int := 7

/-- What `source_read` answers with the last of its source. -/
def statusExhausted : Int := -1

def inputSource : Nat := 1
def outputSink : Nat := 1
def eventSink : Nat := 2
def firstDynamicSource : Nat := 10
def firstDynamicFile : Nat := 1000

def fsModeRead : Nat := 0
def fsModeWrite : Nat := 1

def fsWriteCapability : String := "fs.write"

/-! ### Integers and memory -/

def nonnegativeUsize (value : Int32) : Option Nat :=
  if value.toInt < 0 then none else some value.toInt.toNat

def nonnegativeU32 (value : Int32) : Option Nat :=
  if value.toInt < 0 then none else some value.toInt.toNat

def saturatingI32 (value : Nat) : Int := min value (2 ^ 31 - 1)

/-- `u32::saturating_add(1)`. -/
def nextU32 (value : Nat) : Nat := min (value + 1) (2 ^ 32 - 1)

/-- `u32::to_le_bytes`. -/
def toLeBytes (value : Nat) : Bytes :=
  [.ofNat value, .ofNat (value / 2 ^ 8), .ofNat (value / 2 ^ 16), .ofNat (value / 2 ^ 24)]

/-- `u32::from_le_bytes`. -/
def fromLeBytes (bytes : Bytes) : Nat := bytes.foldr (fun byte value => byte.toNat + 2 ^ 8 * value) 0

/-- The memory that the module exports, if it exports one. -/
abbrev Memory := Option Bytes

/-- `data[ptr..ptr + len]`.  A pointer is at most `i32::MAX` and a length `u32::MAX`, so that their sum is no
more than a `usize`. -/
def sliceAt (memory : Memory) (ptr len : Nat) : Option Bytes :=
  match memory with
  | none      => none
  | some data => if ptr + len > data.length then none else some ((data.drop ptr).take len)

/-- `data[ptr..end].copy_from_slice(bytes)`. -/
def copyAt (memory : Memory) (ptr : Nat) (bytes : Bytes) : Option Bytes :=
  match memory with
  | none      => none
  | some data =>
    if ptr + bytes.length > data.length then none
    else some (data.take ptr ++ bytes ++ data.drop (ptr + bytes.length))

def readGuestMemory (memory : Memory) (ptr len : Int32) : Option Bytes :=
  match nonnegativeUsize ptr, nonnegativeUsize len with
  | some ptr, some len => sliceAt memory ptr len
  | _,        _        => none

def readGuestU32At (memory : Memory) (ptr : Nat) : Option Nat := (sliceAt memory ptr 4).map fromLeBytes

def writeGuestU32At (memory : Memory) (ptr value : Nat) : Option Bytes := copyAt memory ptr (toLeBytes value)

/-! ### The turn -/

structure WasmSourceState where
  bytes : Bytes
  offset : Nat

namespace WasmSourceState

def chunk (source : WasmSourceState) (capacity : Nat) : Bytes :=
  (source.bytes.drop source.offset).take capacity

/-- What it leaves. -/
def advance (source : WasmSourceState) (capacity : Nat) : WasmSourceState :=
  { source with offset := source.offset + (source.chunk capacity).length }

def exhausted (source : WasmSourceState) : Bool := source.offset ≥ source.bytes.length

end WasmSourceState

inductive WasmFileState where
  | read (source : WasmSourceState)
  | write (path : String) (buffer : Bytes)

structure WasmTurnState where
  input : Bytes
  inputOffset : Nat
  sources : Nat → Option WasmSourceState
  nextSource : Nat
  files : Nat → Option WasmFileState
  nextFile : Nat
  sinks : Nat → Option Bytes
  outputTruncated : Bool
  maxOutputBytes : Nat
  capabilityGrants : List String
  /-- A file system is attached. -/
  vfs : Bool

/-- What a turn takes from its configuration. -/
structure WasmRuntimeConfig where
  maxOutputBytes : Nat
  capabilityGrants : List String
  vfs : Bool

namespace WasmTurnState

def new (input : Bytes) (config : WasmRuntimeConfig) : WasmTurnState where
  input := input
  inputOffset := 0
  sources _ := none
  nextSource := firstDynamicSource
  files _ := none
  nextFile := firstDynamicFile
  sinks _ := none
  outputTruncated := false
  maxOutputBytes := config.maxOutputBytes
  capabilityGrants := config.capabilityGrants
  vfs := config.vfs

/-- `insert_source`: the handle is the turn's next. -/
def insertSource (turn : WasmTurnState) (bytes : Bytes) : WasmTurnState :=
  { turn with
    nextSource := nextU32 turn.nextSource
    sources := update turn.sources turn.nextSource (some ⟨bytes, 0⟩) }

def insertFile (turn : WasmTurnState) (file : WasmFileState) : WasmTurnState :=
  { turn with
    nextFile := nextU32 turn.nextFile
    files := update turn.files turn.nextFile (some file) }

/-- `read_source_chunk`: what is copied, whether that is the last of it, and the turn. -/
def readSourceChunk (turn : WasmTurnState) (source capacity : Nat) :
    Option (Bytes × Bool × WasmTurnState) :=
  if source = inputSource then
    let input : WasmSourceState := ⟨turn.input, turn.inputOffset⟩
    some (input.chunk capacity, (input.advance capacity).exhausted,
      { turn with inputOffset := (input.advance capacity).offset })
  else
    match turn.sources source with
    | none       => none
    | some state => some (state.chunk capacity, (state.advance capacity).exhausted,
        { turn with sources := update turn.sources source (some (state.advance capacity)) })

def readFileChunk (turn : WasmTurnState) (handle capacity : Nat) :
    Except Int (Bytes × Bool × WasmTurnState) :=
  match turn.files handle with
  | none => .error statusNotFound
  | some (.write _ _) => .error statusInvalidArgument
  | some (.read state) => .ok (state.chunk capacity, (state.advance capacity).exhausted,
      { turn with files := update turn.files handle (some (.read (state.advance capacity))) })

def sink (turn : WasmTurnState) (sink : Nat) : Bytes := (turn.sinks sink).getD []

def appendSink (turn : WasmTurnState) (sink : Nat) (bytes : Bytes) : WasmTurnState :=
  let remaining := turn.maxOutputBytes - (turn.sink sink).length
  if bytes.length > remaining then
    { turn with
      sinks := update turn.sinks sink (some (turn.sink sink ++ bytes.take remaining))
      outputTruncated := true }
  else { turn with sinks := update turn.sinks sink (some (turn.sink sink ++ bytes)) }

end WasmTurnState

/-- `b"[wasm log] "` before the bytes, and a newline at their end. -/
def logLine (bytes : Bytes) : Bytes :=
  let line := "[wasm log] ".toUTF8.toList ++ bytes
  if line.getLast? = some 10 then line else line ++ [10]

/-! ### The file system -/

/-- `bashkit::Error`, as far as its status tells. -/
inductive VfsError where
  | notFound
  | permissionDenied
  | invalidInput
  | cancelled
  | other

def vfsErrorStatus : VfsError → Int
  | .notFound         => statusNotFound
  | .permissionDenied => statusCapabilityDenied
  | .invalidInput     => statusInvalidArgument
  | .cancelled        => statusCancelled
  | .other            => statusTransportError

inductive FileType where
  | file
  | directory
  | symlink
  | fifo
deriving DecidableEq

structure FileMetadata where
  fileType : FileType
  size : Nat

/-- An entry of a directory, by its name. -/
structure DirEntry where
  name : String
  fileType : FileType

/-- `VerletVfs`, on its states: a write that succeeds replaces the whole file. -/
structure VerletVfs (σ : Type) where
  readFile : String → σ → Except VfsError Bytes
  stat : String → σ → Except VfsError FileMetadata
  readDir : String → σ → Except VfsError (List DirEntry)
  writeFile : String → Bytes → σ → Except VfsError Unit × σ
  mkdir : String → Bool → σ → Except VfsError Unit × σ
  replaces : ∀ path bytes s, (writeFile path bytes s).1 = .ok () →
    readFile path (writeFile path bytes s).2 = .ok bytes

structure WasmHttpResponse where
  abi : String
  status : Nat
  headers : List (String × String)
  truncated : Bool
  elapsedMs : Nat

/-- What the runner uses of `serde_json`. -/
structure JsonLibrary where
  /-- `to_vec` of the response of an exchange. -/
  responseBytes : WasmHttpResponse → Option Bytes
  /-- `to_vec` of a listing, which has for each entry its name and whether it is a directory. -/
  listingBytes : List (String × Bool) → Option Bytes
  /-- `Display` of `json!` of an object of texts. -/
  objectText : List (String × String) → Bytes

/-! ### Host calls -/

/-- What `execute_http_request` answers. -/
inductive HttpAnswer where
  | exchange (response : WasmHttpResponse) (body : Bytes)
  | failed (status : Int) (eventCode message : String)

inductive HostCall where
  | inputLen
  | inputRead (ptr maxLen : Int32)
  | outputWrite (ptr len : Int32)
  | outputLog (ptr len : Int32)
  | sourceRead (source ptr lenPtr : Int32)
  | sinkWrite (sink ptr lenPtr : Int32)
  | eventEmit (ptr lenPtr : Int32)
  | httpRequest (invocation requestPtr requestLen bodyPtr bodyLen outPtr eventSink : Int32)
      (answer : HttpAnswer)
  | fsOpen (pathPtr pathLen mode outHandlePtr : Int32)
  | fsRead (handle ptr lenPtr : Int32)
  | fsClose (handle : Int32)
  | fsWrite (handle ptr len : Int32)
  | fsStat (pathPtr pathLen outPtr : Int32)
  | fsList (pathPtr pathLen outSourcePtr : Int32)
  | fsMkdir (pathPtr pathLen recursive : Int32)
  | log (ptr len : Int32)
  | checkCancelled (invocation : Int32)

/-- The turn, the guest's memory and the file system. -/
structure GuestWorld (σ : Type) where
  turn : WasmTurnState
  memory : Memory
  vfs : σ

variable {σ α : Type}

/-- `let Some(..) = .. else { return status }`. -/
def orReturn (found : Option α) (status : Int) (w : GuestWorld σ) (next : α → Int × GuestWorld σ) :
    Int × GuestWorld σ :=
  match found with
  | none   => (status, w)
  | some a => next a

/-- The same of a failure that has a status. -/
def orFail (found : Except Int α) (w : GuestWorld σ) (next : α → Int × GuestWorld σ) : Int × GuestWorld σ :=
  match found with
  | .error status => (status, w)
  | .ok a         => next a

/-- A value is written at a pointer of the guest's, and the call ends. -/
def answerU32 (ptr value : Nat) (status : Int) (w : GuestWorld σ) : Int × GuestWorld σ :=
  orReturn (writeGuestU32At w.memory ptr value) statusInvalidArgument w fun data =>
    (status, { w with memory := some data })

/-- The end of a read: the chunk goes to the guest's buffer, and its length to where the capacity was. -/
def handOut (ptr lenPtr : Nat) (bytes : Bytes) (status : Int) (w : GuestWorld σ) : Int × GuestWorld σ :=
  orReturn (copyAt w.memory ptr bytes) statusInvalidArgument w fun data =>
    answerU32 lenPtr bytes.length status { w with memory := some data }

def sourceRead (source ptr lenPtr : Int32) (w : GuestWorld σ) : Int × GuestWorld σ :=
  orReturn (nonnegativeU32 source) statusInvalidArgument w fun source =>
  orReturn (nonnegativeUsize ptr) statusInvalidArgument w fun ptr =>
  orReturn (nonnegativeUsize lenPtr) statusInvalidArgument w fun lenPtr =>
  orReturn (readGuestU32At w.memory lenPtr) statusInvalidArgument w fun capacity =>
  orReturn (w.turn.readSourceChunk source capacity) statusNotFound w fun read =>
  -- the offset has moved, whether the buffer can hold the chunk or not
  handOut ptr lenPtr read.1 (if read.2.1 then statusExhausted else statusOk) { w with turn := read.2.2 }

def fsRead (handle ptr lenPtr : Int32) (w : GuestWorld σ) : Int × GuestWorld σ :=
  orReturn (nonnegativeU32 handle) statusInvalidArgument w fun handle =>
  orReturn (nonnegativeUsize ptr) statusInvalidArgument w fun ptr =>
  orReturn (nonnegativeUsize lenPtr) statusInvalidArgument w fun lenPtr =>
  orReturn (readGuestU32At w.memory lenPtr) statusInvalidArgument w fun capacity =>
  orFail (w.turn.readFileChunk handle capacity) w fun read =>
  handOut ptr lenPtr read.1 (if read.1.length = 0 ∧ read.2.1 then statusEof else statusOk)
    { w with turn := read.2.2 }

/-- Bytes of the guest's memory go to a sink, or the output counts as truncated. -/
def sinkGuestBytes (sink : Nat) (ptr lenPtr : Int32) (w : GuestWorld σ) : Int × GuestWorld σ :=
  orReturn (nonnegativeUsize lenPtr) statusInvalidArgument w fun lenPtr =>
  orReturn (readGuestU32At w.memory lenPtr) statusInvalidArgument w fun len =>
  -- `len as i32`
  match readGuestMemory w.memory ptr (Int32.ofInt len) with
  | none       => (statusInvalidArgument, { w with turn := { w.turn with outputTruncated := true } })
  | some bytes => answerU32 lenPtr bytes.length statusOk { w with turn := w.turn.appendSink sink bytes }

def sinkWrite (sink ptr lenPtr : Int32) (w : GuestWorld σ) : Int × GuestWorld σ :=
  orReturn (nonnegativeU32 sink) statusInvalidArgument w fun sink =>
  if sink ≠ outputSink ∧ sink ≠ eventSink then (statusNotFound, w)
  else sinkGuestBytes sink ptr lenPtr w

def eventEmit (ptr lenPtr : Int32) (w : GuestWorld σ) : Int × GuestWorld σ :=
  sinkGuestBytes eventSink ptr lenPtr w

/-- `log` of `cooldis_0.1`. -/
def logGuestBytes (ptr len : Int32) (w : GuestWorld σ) : Int × GuestWorld σ :=
  orReturn (readGuestMemory w.memory ptr len) statusInvalidArgument w fun bytes =>
  (statusOk, { w with turn := w.turn.appendSink eventSink (logLine bytes) })

/-- The event of `append_http_event`. -/
def httpEvent (library : JsonLibrary) (code message : String) : Bytes :=
  library.objectText [("type", "http"), ("code", code), ("message", message)] ++ [10]

/-- What an HTTP request is made of, before it is sent. -/
def httpArguments (invocation requestPtr requestLen bodyPtr bodyLen outPtr sink : Int32)
    (w : GuestWorld σ) : Except Int Nat :=
  match nonnegativeU32 invocation, nonnegativeUsize outPtr, readGuestMemory w.memory requestPtr requestLen with
  | some _, some outPtr, some _ =>
    if bodyLen.toInt ≠ 0 ∧ readGuestMemory w.memory bodyPtr bodyLen = none then .error statusInvalidArgument
    else
      match nonnegativeU32 sink with
      | none      => .error statusInvalidArgument
      | some sink => if sink ≠ eventSink then .error statusNotFound else .ok outPtr
  | _, _, _ => .error statusInvalidArgument

def httpRequest (library : JsonLibrary) (invocation requestPtr requestLen bodyPtr bodyLen outPtr sink : Int32)
    (answer : HttpAnswer) (w : GuestWorld σ) : Int × GuestWorld σ :=
  orFail (httpArguments invocation requestPtr requestLen bodyPtr bodyLen outPtr sink w) w fun outPtr =>
  match answer with
  | .failed status code message =>
    (status, { w with turn := w.turn.appendSink eventSink (httpEvent library code message) })
  | .exchange response body =>
    orReturn (library.responseBytes response) statusInvalidArgument w fun responseMeta =>
    let metaSource := w.turn.nextSource
    let turn := w.turn.insertSource responseMeta
    let bodySource := turn.nextSource
    let w := { w with turn := turn.insertSource body }
    orReturn (writeGuestU32At w.memory outPtr metaSource) statusInvalidArgument w fun data =>
    let w := { w with memory := some data }
    orReturn (writeGuestU32At w.memory (outPtr + 4) bodySource) statusInvalidArgument w fun data =>
    (statusOk, { w with
      memory := some data
      turn := w.turn.appendSink eventSink (httpEvent library "http_response" "") })

def guestPath (memory : Memory) (pathPtr pathLen : Int32) : Option String :=
  match readGuestMemory memory pathPtr pathLen with
  | none       => none
  | some bytes =>
    match String.fromUTF8? ⟨bytes.toArray⟩ with
    | none      => none
    | some path => if path.toList.head? = some '/' then some path else none

/-- What `fs_open` opens, and where its handle goes. -/
def openTarget (vfs : VerletVfs σ) (pathPtr pathLen mode outHandlePtr : Int32) (w : GuestWorld σ) :
    Except Int (Nat × WasmFileState) :=
  match nonnegativeU32 mode with
  | none      => .error statusInvalidArgument
  | some mode =>
    if mode ≠ fsModeRead ∧ mode ≠ fsModeWrite then .error statusInvalidArgument
    else
      match nonnegativeUsize outHandlePtr, guestPath w.memory pathPtr pathLen with
      | some outHandlePtr, some path =>
        if ¬ w.turn.vfs then .error statusCapabilityDenied
        else if mode = fsModeWrite then
          if fsWriteCapability ∈ w.turn.capabilityGrants then .ok (outHandlePtr, .write path [])
          else .error statusCapabilityDenied
        else
          match vfs.readFile path w.vfs with
          | .error err => .error (vfsErrorStatus err)
          | .ok bytes  => .ok (outHandlePtr, .read ⟨bytes, 0⟩)
      | _, _ => .error statusInvalidArgument

def fsOpen (vfs : VerletVfs σ) (pathPtr pathLen mode outHandlePtr : Int32) (w : GuestWorld σ) :
    Int × GuestWorld σ :=
  orFail (openTarget vfs pathPtr pathLen mode outHandlePtr w) w fun target =>
  answerU32 target.1 w.turn.nextFile statusOk { w with turn := w.turn.insertFile target.2 }

/-- `fs_close_commit_impl`. -/
def fsCloseCommit (vfs : VerletVfs σ) (path : String) (buffer : Bytes) (w : GuestWorld σ) :
    Int × GuestWorld σ :=
  if ¬ w.turn.vfs then (statusCapabilityDenied, w)
  else
    match vfs.writeFile path buffer w.vfs with
    | (.ok (), s)     => (statusOk, { w with vfs := s })
    | (.error err, s) => (vfsErrorStatus err, { w with vfs := s })

def fsClose (vfs : VerletVfs σ) (handle : Int32) (w : GuestWorld σ) : Int × GuestWorld σ :=
  orReturn (nonnegativeU32 handle) statusInvalidArgument w fun handle =>
  orReturn (w.turn.files handle) statusNotFound w fun file =>
  -- the handle is consumed, whether its commit succeeds or not
  let w := { w with turn := { w.turn with files := update w.turn.files handle none } }
  match file with
  | .read _            => (statusOk, w)
  | .write path buffer => fsCloseCommit vfs path buffer w

/-- `fs_write_impl`. -/
def fsWrite (handle ptr len : Int32) (w : GuestWorld σ) : Int × GuestWorld σ :=
  orReturn (nonnegativeU32 handle) statusInvalidArgument w fun handle =>
  orReturn (w.turn.files handle) statusNotFound w fun file =>
  match file with
  | .read _            => (statusInvalidArgument, w)
  | .write path buffer =>
    orReturn (readGuestMemory w.memory ptr len) statusInvalidArgument w fun bytes =>
    (statusOk, { w with turn := { w.turn with
      files := update w.turn.files handle (some (.write path (buffer ++ bytes))) } })

/-- The record of `fs_stat`. -/
def statRecord (stat : FileMetadata) : Bytes :=
  let kind := match stat.fileType with
    | .file            => 0
    | .directory       => 1
    | .symlink | .fifo => 2
  let size := if stat.fileType = .directory then 0 else stat.size
  toLeBytes kind ++ toLeBytes 0 ++ toLeBytes size ++ toLeBytes (size / 2 ^ 32)

/-- `fs_stat_impl`. -/
def fsStat (vfs : VerletVfs σ) (pathPtr pathLen outPtr : Int32) (w : GuestWorld σ) : Int × GuestWorld σ :=
  orReturn (nonnegativeUsize outPtr) statusInvalidArgument w fun outPtr =>
  orReturn (guestPath w.memory pathPtr pathLen) statusInvalidArgument w fun path =>
  if ¬ w.turn.vfs then (statusCapabilityDenied, w)
  else
    match vfs.stat path w.vfs with
    | .error err => (vfsErrorStatus err, w)
    | .ok stat   =>
      orReturn (copyAt w.memory outPtr (statRecord stat)) statusInvalidArgument w fun data =>
      (statusOk, { w with memory := some data })

/-- The listing that `fs_list` makes a source of, and where its handle goes. -/
def listing (vfs : VerletVfs σ) (library : JsonLibrary) (pathPtr pathLen outSourcePtr : Int32)
    (w : GuestWorld σ) : Except Int (Nat × Bytes) :=
  match nonnegativeUsize outSourcePtr, guestPath w.memory pathPtr pathLen with
  | some outSourcePtr, some path =>
    if ¬ w.turn.vfs then .error statusCapabilityDenied
    else
      match vfs.readDir path w.vfs with
      | .error err  => .error (vfsErrorStatus err)
      | .ok entries =>
        let sorted := entries.mergeSort fun left right => left.name.toUTF8.toList ≤ right.name.toUTF8.toList
        match library.listingBytes (sorted.map fun entry => (entry.name, entry.fileType = .directory)) with
        | none       => .error statusTransportError
        | some bytes => .ok (outSourcePtr, bytes)
  | _, _ => .error statusInvalidArgument

/-- `fs_list_impl`. -/
def fsList (vfs : VerletVfs σ) (library : JsonLibrary) (pathPtr pathLen outSourcePtr : Int32)
    (w : GuestWorld σ) : Int × GuestWorld σ :=
  orFail (listing vfs library pathPtr pathLen outSourcePtr w) w fun listed =>
  answerU32 listed.1 w.turn.nextSource statusOk { w with turn := w.turn.insertSource listed.2 }

/-- `fs_mkdir_impl`. -/
def fsMkdir (vfs : VerletVfs σ) (pathPtr pathLen recursive : Int32) (w : GuestWorld σ) : Int × GuestWorld σ :=
  if recursive.toInt ≠ 0 ∧ recursive.toInt ≠ 1 then (statusInvalidArgument, w)
  else
    orReturn (guestPath w.memory pathPtr pathLen) statusInvalidArgument w fun path =>
    if ¬ w.turn.vfs ∨ fsWriteCapability ∉ w.turn.capabilityGrants then (statusCapabilityDenied, w)
    else
      match vfs.mkdir path (recursive.toInt = 1) w.vfs with
      | (.ok (), s)     => (statusOk, { w with vfs := s })
      | (.error err, s) => (vfsErrorStatus err, { w with vfs := s })

def inputRead (ptr maxLen : Int32) (w : GuestWorld σ) : Int × GuestWorld σ :=
  orReturn (nonnegativeUsize ptr) (-1) w fun ptr =>
  orReturn (nonnegativeUsize maxLen) (-1) w fun maxLen =>
  orReturn (copyAt w.memory ptr (w.turn.input.take maxLen)) (-1) w fun data =>
  (saturatingI32 (w.turn.input.take maxLen).length, { w with memory := some data })

def outputWrite (ptr len : Int32) (w : GuestWorld σ) : GuestWorld σ :=
  match readGuestMemory w.memory ptr len with
  | none       => { w with turn := { w.turn with outputTruncated := true } }
  | some bytes => { w with turn := w.turn.appendSink outputSink bytes }

/-- `log` of `verlet`. -/
def outputLog (ptr len : Int32) (w : GuestWorld σ) : GuestWorld σ :=
  match readGuestMemory w.memory ptr len with
  | none       => w
  | some bytes => { w with turn := w.turn.appendSink outputSink (logLine bytes) }

/-- What a call returns, and what it leaves.  A call that returns nothing returns `statusOk` here. -/
def hostCall (vfs : VerletVfs σ) (library : JsonLibrary) : HostCall → GuestWorld σ → Int × GuestWorld σ
  | .inputLen, w                     => (saturatingI32 w.turn.input.length, w)
  | .inputRead ptr maxLen, w         => inputRead ptr maxLen w
  | .outputWrite ptr len, w          => (statusOk, outputWrite ptr len w)
  | .outputLog ptr len, w            => (statusOk, outputLog ptr len w)
  | .sourceRead source ptr lenPtr, w => sourceRead source ptr lenPtr w
  | .sinkWrite sink ptr lenPtr, w    => sinkWrite sink ptr lenPtr w
  | .eventEmit ptr lenPtr, w         => eventEmit ptr lenPtr w
  | .httpRequest invocation requestPtr requestLen bodyPtr bodyLen outPtr sink answer, w =>
    httpRequest library invocation requestPtr requestLen bodyPtr bodyLen outPtr sink answer w
  | .fsOpen pathPtr pathLen mode outPtr, w => fsOpen vfs pathPtr pathLen mode outPtr w
  | .fsRead handle ptr lenPtr, w           => fsRead handle ptr lenPtr w
  | .fsClose handle, w                     => fsClose vfs handle w
  | .fsWrite handle ptr len, w             => fsWrite handle ptr len w
  | .fsStat pathPtr pathLen outPtr, w      => fsStat vfs pathPtr pathLen outPtr w
  | .fsList pathPtr pathLen outPtr, w      => fsList vfs library pathPtr pathLen outPtr w
  | .fsMkdir pathPtr pathLen recursive, w  => fsMkdir vfs pathPtr pathLen recursive w
  | .log ptr len, w                        => logGuestBytes ptr len w
  | .checkCancelled invocation, w          =>
    (if (nonnegativeU32 invocation).isSome then statusOk else statusInvalidArgument, w)

/-- What a module does: it makes a host call, or it changes its memory. -/
inductive GuestMove where
  | call (call : HostCall)
  | computes (memory : Memory)

def guestMove (vfs : VerletVfs σ) (library : JsonLibrary) : GuestMove → GuestWorld σ → Int × GuestWorld σ
  | .call call, w       => hostCall vfs library call w
  | .computes memory, w => (statusOk, { w with memory := memory })

end Verlet.Wasm
