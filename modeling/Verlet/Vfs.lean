import Verlet.Wasm.Guest

/-!
# Vfs

`verlet_vfs::VerletVfs`: a root backend and the backends mounted in it, each call resolved to one of them,
and the journal of what the calls did.

The backends are records of what each does to one world that they share, so that a backend may be
mounted at several places.  `bashkit` normalizes the paths.
-/

namespace Verlet.Vfs
open Wasm (Bytes FileType)

/-! ### Paths -/

/-- A name in a path; one that is not UTF-8 has only its bytes. -/
inductive OsName where
  | text (name : String)
  | raw (bytes : Bytes)
deriving DecidableEq

/-- `OsStr::to_str`. -/
def OsName.toStr : OsName → Option String
  | .text name => some name
  | .raw _     => none

/-- `std::path::Component`. -/
inductive PathComponent where
  | rootDir
  | curDir
  | parentDir
  | normal (name : OsName)
deriving DecidableEq

def PathComponent.name? : PathComponent → Option OsName
  | .normal name => some name
  | _            => none

abbrev RawPath := List PathComponent

/-- A normalized path by its names, from `/` down. -/
abbrev VfsPath := List OsName

def hasRoot (path : RawPath) : Bool := path.head? = some .rootDir

def absolute (path : VfsPath) : RawPath := .rootDir :: path.map .normal

/-- What `bashkit` does with paths. -/
structure Bashkit where
  normalizePath : RawPath → VfsPath

/-- A path without dots is its own normalization. -/
def Bashkit.Normalizes (bashkit : Bashkit) : Prop :=
  ∀ path, bashkit.normalizePath (absolute path) = path

def normalizeVfsPath (bashkit : Bashkit) (path : RawPath) : VfsPath :=
  if hasRoot path then bashkit.normalizePath path else bashkit.normalizePath (.rootDir :: path)

/-- `Path::parent`. -/
def parent : VfsPath → Option VfsPath
  | []   => none
  | path => some path.dropLast

/-- `Path::file_name`. -/
def fileName (path : VfsPath) : Option OsName := path.getLast?

/-! ### Backends -/

inductive ErrorKind where
  | notFound
  | permissionDenied
  | invalidInput
  | other

/-- `std::io::Error`. -/
structure FsError where
  kind : ErrorKind
  message : String

/-- `bashkit::Metadata`. -/
structure Metadata where
  fileType : FileType
  size : Nat
  mode : Nat
  modified : Nat
  created : Nat

/-- `bashkit::DirEntry`. -/
structure DirEntry where
  name : String
  metadata : Metadata

/-- `VerletVfsBackend`, on the world that the backends share. -/
structure Backend (ω : Type) where
  validatePath : RawPath → Except String Unit
  readFile : VfsPath → ω → Except FsError Bytes × ω
  writeFile : VfsPath → Bytes → ω → Except FsError Unit × ω
  appendFile : VfsPath → Bytes → ω → Except FsError Unit × ω
  mkdir : VfsPath → Bool → ω → Except FsError Unit × ω
  remove : VfsPath → Bool → ω → Except FsError Unit × ω
  stat : VfsPath → ω → Except FsError Metadata × ω
  readDir : VfsPath → ω → Except FsError (List DirEntry) × ω
  exists? : VfsPath → ω → Except FsError Bool × ω
  rename : VfsPath → VfsPath → ω → Except FsError Unit × ω
  copy : VfsPath → VfsPath → ω → Except FsError Unit × ω
  symlink : RawPath → VfsPath → ω → Except FsError Unit × ω
  readLink : VfsPath → ω → Except FsError RawPath × ω
  chmod : VfsPath → Nat → ω → Except FsError Unit × ω
  setModifiedTime : VfsPath → Nat → ω → Except FsError Unit × ω

/-- The backends by what tells two of them apart, and how paths are normalized. -/
structure Backends (ι ω : Type) where
  bashkit : Bashkit
  backend : ι → Backend ω

/-! ### The mounts and the journal -/

inductive VfsMutationKind where
  | write
  | append
  | mkdir
  | remove
  | rename
  | copy
  | chmod
  | setModifiedTime
deriving DecidableEq

structure VfsMutation where
  kind : VfsMutationKind
  path : VfsPath
  target : Option VfsPath
deriving DecidableEq

/-- `VerletVfs`; the mounts have each path once. -/
structure VerletVfs (ι : Type) where
  root : ι
  mounts : List (VfsPath × ι)
  journal : List VfsMutation

/-- The file system and the world of its backends. -/
structure Mounted (ι ω : Type) where
  vfs : VerletVfs ι
  world : ω

namespace VerletVfs

variable {ι ω : Type}

def new (root : ι) : VerletVfs ι := ⟨root, [], []⟩

def mount (bashkit : Bashkit) (vfs : VerletVfs ι) (path : RawPath) (fs : ι) : Except FsError (VerletVfs ι) :=
  if !hasRoot path then .error ⟨.other, "mount path must be absolute"⟩
  else
    let path := normalizeVfsPath bashkit path
    if path = [] then .error ⟨.other, "mount path must not be /"⟩
    else .ok { vfs with mounts := (path, fs) :: vfs.mounts.filter fun mount => mount.1 ≠ path }

def isMount (vfs : VerletVfs ι) (path : VfsPath) : Bool := vfs.mounts.any fun mount => mount.1 = path

def record (vfs : VerletVfs ι) (kind : VfsMutationKind) (path : VfsPath) (target : Option VfsPath) :
    VerletVfs ι :=
  { vfs with journal := vfs.journal ++ [⟨kind, path, target⟩] }

/-- `max_by_key` of the components' count. -/
def deeper (best : Option (VfsPath × ι)) (mount : VfsPath × ι) : Option (VfsPath × ι) :=
  match best with
  | none      => some mount
  | some best => if best.1.length ≤ mount.1.length then some mount else some best

/-- The backend that serves a normalized path, and the path there. -/
def resolve (vfs : VerletVfs ι) (path : VfsPath) : ι × VfsPath :=
  match (vfs.mounts.filter fun mount => mount.1.isPrefixOf path).foldl deeper none with
  | some (mountPath, fs) => (fs, path.drop mountPath.length)
  | none                 => (vfs.root, path)

def directChildMountNames (vfs : VerletVfs ι) (path : VfsPath) : List String :=
  vfs.mounts.filterMap fun mount =>
    if parent mount.1 = some path then (fileName mount.1).bind OsName.toStr else none

/-- The path is a mount, or one is directly in it. -/
def madeUp (vfs : VerletVfs ι) (path : VfsPath) : Bool :=
  vfs.isMount path || !(vfs.directChildMountNames path).isEmpty

end VerletVfs

def directoryMetadata (now : Nat) : Metadata := ⟨.directory, 0, 0o755, now, now⟩

/-! ### Calls -/

def listMount (now : Nat) (listing : List DirEntry × List String) (name : String) :
    List DirEntry × List String :=
  if name ∈ listing.2 then listing
  else (listing.1 ++ [⟨name, directoryMetadata now⟩], name :: listing.2)

def listing (now : Nat) (entries : List DirEntry) (children : List String) : List DirEntry :=
  (children.foldl (listMount now) (entries, entries.map (·.name))).1.mergeSort fun left right =>
    left.name.toUTF8.toList ≤ right.name.toUTF8.toList

namespace Backends

variable {ι ω α : Type} (S : Backends ι ω)

/-- A call of one backend. -/
def asking (s : Mounted ι ω) (answered : Except FsError α × ω) : Except FsError α × Mounted ι ω :=
  (answered.1, { s with world := answered.2 })

def validatePath (s : Mounted ι ω) (path : RawPath) : Except FsError Unit :=
  match (S.backend s.vfs.root).validatePath path with
  | .ok ()       => .ok ()
  | .error error => .error ⟨.invalidInput, error⟩

def backendAt (s : Mounted ι ω) (path : VfsPath) : Backend ω := S.backend (s.vfs.resolve path).1

def resolved (s : Mounted ι ω) (path : VfsPath) : VfsPath := (s.vfs.resolve path).2

def readFile (path : RawPath) (s : Mounted ι ω) : Except FsError Bytes × Mounted ι ω :=
  let path := normalizeVfsPath S.bashkit path
  asking s ((S.backendAt s path).readFile (resolved s path) s.world)

def readLink (path : RawPath) (s : Mounted ι ω) : Except FsError RawPath × Mounted ι ω :=
  let path := normalizeVfsPath S.bashkit path
  asking s ((S.backendAt s path).readLink (resolved s path) s.world)

/-- A change that a backend was asked for is recorded if it was made. -/
def recording (kind : VfsMutationKind) (path : VfsPath) (target : Option VfsPath) (s : Mounted ι ω) :
    Except FsError Unit × ω → Except FsError Unit × Mounted ι ω
  | (.error error, world) => (.error error, { s with world })
  | (.ok (), world)       => (.ok (), ⟨s.vfs.record kind path target, world⟩)

/-- A change of one path: the path is checked, its backend asked, and what it did recorded. -/
def onPath (kind : VfsMutationKind) (change : Backend ω → VfsPath → ω → Except FsError Unit × ω)
    (path : RawPath) (s : Mounted ι ω) : Except FsError Unit × Mounted ι ω :=
  match S.validatePath s path with
  | .error error => (.error error, s)
  | .ok ()       =>
    let path := normalizeVfsPath S.bashkit path
    recording kind path none s (change (S.backendAt s path) (resolved s path) s.world)

def writeFile (path : RawPath) (content : Bytes) : Mounted ι ω → Except FsError Unit × Mounted ι ω :=
  S.onPath .write (fun fs path => fs.writeFile path content) path

def appendFile (path : RawPath) (content : Bytes) : Mounted ι ω → Except FsError Unit × Mounted ι ω :=
  S.onPath .append (fun fs path => fs.appendFile path content) path

def mkdir (path : RawPath) (recursive : Bool) : Mounted ι ω → Except FsError Unit × Mounted ι ω :=
  S.onPath .mkdir (fun fs path => fs.mkdir path recursive) path

def remove (path : RawPath) (recursive : Bool) : Mounted ι ω → Except FsError Unit × Mounted ι ω :=
  S.onPath .remove (fun fs path => fs.remove path recursive) path

def chmod (path : RawPath) (mode : Nat) : Mounted ι ω → Except FsError Unit × Mounted ι ω :=
  S.onPath .chmod (fun fs path => fs.chmod path mode) path

def setModifiedTime (path : RawPath) (time : Nat) : Mounted ι ω → Except FsError Unit × Mounted ι ω :=
  S.onPath .setModifiedTime (fun fs path => fs.setModifiedTime path time) path

/-- `symlink`, which records nothing. -/
def symlink (target link : RawPath) (s : Mounted ι ω) : Except FsError Unit × Mounted ι ω :=
  match S.validatePath s link with
  | .error error => (.error error, s)
  | .ok ()       =>
    let link := normalizeVfsPath S.bashkit link
    asking s ((S.backendAt s link).symlink target (resolved s link) s.world)

def stat (now : Nat) (path : RawPath) (s : Mounted ι ω) : Except FsError Metadata × Mounted ι ω :=
  let path := normalizeVfsPath S.bashkit path
  if s.vfs.madeUp path then (.ok (directoryMetadata now), s)
  else asking s ((S.backendAt s path).stat (resolved s path) s.world)

def readDir (now : Nat) (path : RawPath) (s : Mounted ι ω) :
    Except FsError (List DirEntry) × Mounted ι ω :=
  let path := normalizeVfsPath S.bashkit path
  let children := s.vfs.directChildMountNames path
  match (S.backendAt s path).readDir (resolved s path) s.world with
  | (.ok entries, world)  => (.ok (listing now entries children), { s with world })
  | (.error error, world) =>
    if children.isEmpty then (.error error, { s with world })
    else (.ok (listing now [] children), { s with world })

def exists? (path : RawPath) (s : Mounted ι ω) : Except FsError Bool × Mounted ι ω :=
  let path := normalizeVfsPath S.bashkit path
  if s.vfs.madeUp path then (.ok true, s)
  else asking s ((S.backendAt s path).exists? (resolved s path) s.world)

/-- One step of a call of several: the next is taken where this one succeeds. -/
def andThen {β : Type} (answered : Except FsError α × ω) (next : α → ω → Except FsError β × ω) :
    Except FsError β × ω :=
  match answered with
  | (.ok a, world)        => next a world
  | (.error error, world) => (.error error, world)

/-- What `rename` and `copy` between two backends have in common. -/
def copyAcross (fromFs toFs : Backend ω) (fromResolved toResolved : VfsPath) (world : ω) :
    Except FsError Unit × ω :=
  andThen (fromFs.stat fromResolved world) fun metadata world =>
    if metadata.fileType = .symlink then
      andThen (fromFs.readLink fromResolved world) fun target => toFs.symlink target toResolved
    else andThen (fromFs.readFile fromResolved world) fun content => toFs.writeFile toResolved content

def onPaths (kind : VfsMutationKind)
    (change : (fromFs toFs : ι) → VfsPath → VfsPath → ω → Except FsError Unit × ω)
    (source target : RawPath) (s : Mounted ι ω) : Except FsError Unit × Mounted ι ω :=
  match S.validatePath s source, S.validatePath s target with
  | .error error, _ => (.error error, s)
  | _, .error error => (.error error, s)
  | .ok (), .ok () =>
    let source := normalizeVfsPath S.bashkit source
    let target := normalizeVfsPath S.bashkit target
    recording kind source (some target) s
      (change (s.vfs.resolve source).1 (s.vfs.resolve target).1 (resolved s source) (resolved s target)
        s.world)

variable [DecidableEq ι]

def rename (source target : RawPath) : Mounted ι ω → Except FsError Unit × Mounted ι ω :=
  S.onPaths .rename (fun fromFs toFs source target world =>
    if fromFs = toFs then (S.backend fromFs).rename source target world
    else andThen (copyAcross (S.backend fromFs) (S.backend toFs) source target world) fun _ world =>
      (S.backend fromFs).remove source false world) source target

def copy (source target : RawPath) : Mounted ι ω → Except FsError Unit × Mounted ι ω :=
  S.onPaths .copy (fun fromFs toFs source target world =>
    if fromFs = toFs then (S.backend fromFs).copy source target world
    else copyAcross (S.backend fromFs) (S.backend toFs) source target world) source target

end Backends

end Verlet.Vfs
