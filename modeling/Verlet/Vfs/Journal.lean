import Verlet.Support.Runs
import Verlet.Vfs

/-!
# Vfs — The journal

What the journal has after any sequence of calls, whatever the mounts and the backends.
-/

namespace Verlet.Vfs
open Support
open Wasm (Bytes)

variable {ι ω κ : Type} [DecidableEq ι]

/-- A call of `bashkit::FileSystem`. -/
inductive VfsCall where
  | readFile (path : RawPath)
  | writeFile (path : RawPath) (content : Bytes)
  | appendFile (path : RawPath) (content : Bytes)
  | mkdir (path : RawPath) (recursive : Bool)
  | remove (path : RawPath) (recursive : Bool)
  | stat (now : Nat) (path : RawPath)
  | readDir (now : Nat) (path : RawPath)
  | exists? (path : RawPath)
  | rename (source target : RawPath)
  | copy (source target : RawPath)
  | symlink (target link : RawPath)
  | readLink (path : RawPath)
  | chmod (path : RawPath) (mode : Nat)
  | setModifiedTime (path : RawPath) (time : Nat)

/-- Whether the call succeeds, and what is left. -/
def outcome {α : Type} (answered : Except FsError α × Mounted ι ω) : Bool × Mounted ι ω :=
  (answered.1.isOk, answered.2)

def execCall (S : Backends ι ω) : VfsCall → Mounted ι ω → Bool × Mounted ι ω
  | .readFile path, s             => outcome (S.readFile path s)
  | .writeFile path content, s    => outcome (S.writeFile path content s)
  | .appendFile path content, s   => outcome (S.appendFile path content s)
  | .mkdir path recursive, s      => outcome (S.mkdir path recursive s)
  | .remove path recursive, s     => outcome (S.remove path recursive s)
  | .stat now path, s             => outcome (S.stat now path s)
  | .readDir now path, s          => outcome (S.readDir now path s)
  | .exists? path, s              => outcome (S.exists? path s)
  | .rename source target, s      => outcome (S.rename source target s)
  | .copy source target, s        => outcome (S.copy source target s)
  | .symlink target link, s       => outcome (S.symlink target link s)
  | .readLink path, s             => outcome (S.readLink path s)
  | .chmod path mode, s           => outcome (S.chmod path mode s)
  | .setModifiedTime path time, s => outcome (S.setModifiedTime path time s)

/-- What a call does, for those that are recorded. -/
def VfsCall.mutation? (bashkit : Bashkit) : VfsCall → Option VfsMutation
  | .writeFile path _     => some ⟨.write, normalizeVfsPath bashkit path, none⟩
  | .appendFile path _    => some ⟨.append, normalizeVfsPath bashkit path, none⟩
  | .mkdir path _         => some ⟨.mkdir, normalizeVfsPath bashkit path, none⟩
  | .remove path _        => some ⟨.remove, normalizeVfsPath bashkit path, none⟩
  | .rename source target =>
    some ⟨.rename, normalizeVfsPath bashkit source, some (normalizeVfsPath bashkit target)⟩
  | .copy source target =>
    some ⟨.copy, normalizeVfsPath bashkit source, some (normalizeVfsPath bashkit target)⟩
  | .chmod path _           => some ⟨.chmod, normalizeVfsPath bashkit path, none⟩
  | .setModifiedTime path _ => some ⟨.setModifiedTime, normalizeVfsPath bashkit path, none⟩
  | _                       => none

def VfsCall.isRead : VfsCall → Bool
  | .readFile _ | .stat _ _ | .readDir _ _ | .exists? _ | .readLink _ => true
  | _                                                                 => false

def VfsCall.affected? (bashkit : Bashkit) : VfsCall → Option (VfsPath × Option VfsPath)
  | .symlink _ link => some (normalizeVfsPath bashkit link, none)
  | call            => (call.mutation? bashkit).map fun mutation => (mutation.path, mutation.target)

/-! ### One call -/

/-- A call leaves the mounts, and the journal with the entries at its end. -/
structure Appends (s s' : Mounted ι ω) (entries : List VfsMutation) : Prop where
  root : s'.vfs.root = s.vfs.root
  mounts : s'.vfs.mounts = s.vfs.mounts
  journal : s'.vfs.journal = s.vfs.journal ++ entries

omit [DecidableEq ι] in
theorem appends_nil (s : Mounted ι ω) (world : ω) : Appends s { s with world } [] :=
  ⟨rfl, rfl, (List.append_nil _).symm⟩

/-- What one call adds: its own mutation where it has one and succeeds, and nothing otherwise. -/
def entriesOf (bashkit : Bashkit) (call : VfsCall) (succeeded : Bool) : List VfsMutation :=
  if succeeded then (call.mutation? bashkit).toList else []

variable {S : Backends ι ω}

section
omit [DecidableEq ι]

theorem appends_recording (kind : VfsMutationKind) (path : VfsPath) (target : Option VfsPath)
    (s : Mounted ι ω) (answered : Except FsError Unit × ω) :
    Appends s (Backends.recording kind path target s answered).2
      (if (Backends.recording kind path target s answered).1.isOk then [⟨kind, path, target⟩] else []) := by
  obtain ⟨result, world⟩ := answered
  cases result with
  | error error => exact appends_nil s world
  | ok _ => exact ⟨rfl, rfl, rfl⟩

theorem appends_onPath (kind : VfsMutationKind)
    (change : Backend ω → VfsPath → ω → Except FsError Unit × ω) (path : RawPath) (s : Mounted ι ω) :
    Appends s (S.onPath kind change path s).2
      (if (S.onPath kind change path s).1.isOk then [⟨kind, normalizeVfsPath S.bashkit path, none⟩]
        else []) := by
  unfold Backends.onPath
  cases S.validatePath s path with
  | error error => exact appends_nil s s.world
  | ok _ => exact appends_recording _ _ _ s _

theorem appends_onPaths (kind : VfsMutationKind)
    (change : ι → ι → VfsPath → VfsPath → ω → Except FsError Unit × ω) (source target : RawPath)
    (s : Mounted ι ω) :
    Appends s (S.onPaths kind change source target s).2
      (if (S.onPaths kind change source target s).1.isOk then
        [⟨kind, normalizeVfsPath S.bashkit source, some (normalizeVfsPath S.bashkit target)⟩]
        else []) := by
  unfold Backends.onPaths
  cases S.validatePath s source with
  | error error => exact appends_nil s s.world
  | ok _ =>
    cases S.validatePath s target with
    | error error => exact appends_nil s s.world
    | ok _ => exact appends_recording _ _ _ s _

end

/-- **One call adds its own mutation where it has one and succeeds**, and nothing otherwise. -/
theorem appends_execCall (call : VfsCall) (s : Mounted ι ω) :
    Appends s (execCall S call s).2 (entriesOf S.bashkit call (execCall S call s).1) := by
  have hquiet {α : Type} (answered : Except FsError α × ω) (succeeded : Bool) :
      Appends s (outcome (Backends.asking s answered)).2 (if succeeded then [] else []) := by
    rw [ite_self]
    exact appends_nil s answered.2
  cases call with
  | readFile path => exact hquiet _ _
  | readLink path => exact hquiet _ _
  | writeFile path content => exact appends_onPath _ _ _ s
  | appendFile path content => exact appends_onPath _ _ _ s
  | mkdir path recursive => exact appends_onPath _ _ _ s
  | remove path recursive => exact appends_onPath _ _ _ s
  | chmod path mode => exact appends_onPath _ _ _ s
  | setModifiedTime path time => exact appends_onPath _ _ _ s
  | rename source target => exact appends_onPaths _ _ _ _ s
  | copy source target => exact appends_onPaths _ _ _ _ s
  | symlink target link =>
    show Appends s (outcome (S.symlink target link s)).2 (if _ then [] else [])
    unfold Backends.symlink
    rw [ite_self]
    split
    · exact appends_nil s s.world
    · exact appends_nil s _
  | stat now path =>
    show Appends s (outcome (S.stat now path s)).2 (if _ then [] else [])
    unfold Backends.stat
    rw [ite_self]
    simp only
    split
    · exact appends_nil s s.world
    · exact appends_nil s _
  | exists? path =>
    show Appends s (outcome (S.exists? path s)).2 (if _ then [] else [])
    unfold Backends.exists?
    rw [ite_self]
    simp only
    split
    · exact appends_nil s s.world
    · exact appends_nil s _
  | readDir now path =>
    show Appends s (outcome (S.readDir now path s)).2 (if _ then [] else [])
    unfold Backends.readDir
    rw [ite_self]
    simp only
    split
    · exact appends_nil s _
    · split
      · exact appends_nil s _
      · exact appends_nil s _

/-! ### Runs of calls -/

structure Journaled (S : Backends ι ω) (contents : ω → κ) (s : Mounted ι ω) (call : VfsCall)
    (entries : List VfsMutation) : Prop where
  appended : (execCall S call s).2.vfs.journal = s.vfs.journal ++ entries
  recorded : ∀ mutation, call.mutation? S.bashkit = some mutation → (execCall S call s).1 = true →
    entries = [mutation]
  quiet : call.isRead = true ∨
      (execCall S call s).1 = false ∧ contents (execCall S call s).2.world = contents s.world →
    entries = []

def JournaledRun (S : Backends ι ω) (contents : ω → κ) :
    List VfsCall → Mounted ι ω → List (List VfsMutation) → Prop
  | [], _, added            => added = []
  | call :: calls, s, added => ∃ entries rest, added = entries :: rest ∧
      Journaled S contents s call entries ∧ JournaledRun S contents calls (execCall S call s).2 rest

theorem journaled_execCall (contents : ω → κ) (call : VfsCall) (s : Mounted ι ω) :
    Journaled S contents s call (entriesOf S.bashkit call (execCall S call s).1) := by
  refine ⟨(appends_execCall call s).journal, fun mutation hmutation hsucceeded => ?_, ?_⟩
  · simp [entriesOf, hmutation, hsucceeded]
  · rintro (hread | ⟨hfailed, -⟩)
    · cases call with
      | readFile _ | stat _ _ | readDir _ _ | exists? _ | readLink _ =>
        simp [entriesOf, VfsCall.mutation?]
      | _ => cases hread
    · simp [entriesOf, hfailed]

/-- **The journal has the calls that succeeded, in their order**, over every run. -/
theorem journal_of_run (S : Backends ι ω) (contents : ω → κ) (calls : List VfsCall) (s : Mounted ι ω) :
    ∃ added, JournaledRun S contents calls s added ∧
      (run (execCall S) calls s).vfs.journal = s.vfs.journal ++ added.flatten := by
  induction calls generalizing s with
  | nil => exact ⟨[], rfl, (List.append_nil _).symm⟩
  | cons call calls ih =>
    have hcall := journaled_execCall (S := S) contents call s
    obtain ⟨rest, hrest, hjournal⟩ := ih (execCall S call s).2
    refine ⟨_ :: rest, ⟨_, rest, rfl, hcall, hrest⟩, ?_⟩
    rw [run, hjournal, hcall.appended, List.flatten_cons, List.append_assoc]

/-! ### A file written twice -/

/-- A backend of files alone, which takes whatever it is given. -/
def flatBackend : Backend (List (VfsPath × Bytes)) where
  validatePath _ := .ok ()
  readFile path files :=
    (match files.lookup path with
      | some content => .ok content
      | none         => .error ⟨.notFound, "not found"⟩, files)
  writeFile path content files := (.ok (), (path, content) :: files.filter fun file => file.1 ≠ path)
  appendFile _ _ files := (.error ⟨.other, "unsupported"⟩, files)
  mkdir _ _ files := (.error ⟨.other, "unsupported"⟩, files)
  remove path _ files := (.ok (), files.filter fun file => file.1 ≠ path)
  stat _ files := (.error ⟨.notFound, "not found"⟩, files)
  readDir _ files := (.error ⟨.notFound, "not found"⟩, files)
  exists? path files := (.ok (files.any fun file => file.1 = path), files)
  rename _ _ files := (.error ⟨.other, "unsupported"⟩, files)
  copy _ _ files := (.error ⟨.other, "unsupported"⟩, files)
  symlink _ _ files := (.error ⟨.other, "unsupported"⟩, files)
  readLink _ files := (.error ⟨.other, "unsupported"⟩, files)
  chmod _ _ files := (.error ⟨.other, "unsupported"⟩, files)
  setModifiedTime _ _ files := (.error ⟨.other, "unsupported"⟩, files)

/-- The names of a path as they stand, and nothing mounted. -/
def flatBackends : Backends Unit (List (VfsPath × Bytes)) where
  bashkit := ⟨List.filterMap PathComponent.name?⟩
  backend _ := flatBackend

/-- **A file written again as it was**: nothing has changed, and the journal has it. -/
theorem rewritten_recorded :
    ¬ ∀ (calls : List VfsCall) (s : Mounted Unit (List (VfsPath × Bytes))),
      Along (execCall flatBackends) (fun s call => ∃ entries,
        (execCall flatBackends call s).2.vfs.journal = s.vfs.journal ++ entries ∧
        ((execCall flatBackends call s).2.world ≠ s.world → ∃ mutation, entries = [mutation] ∧
          call.affected? flatBackends.bashkit = some (mutation.path, mutation.target)) ∧
        ((execCall flatBackends call s).2.world = s.world → entries = [])) calls s := by
  intro h
  obtain ⟨-, ⟨entries, hjournal, -, hquiet⟩, -⟩ := h
    [.writeFile (absolute [.text "a"]) [1], .writeFile (absolute [.text "a"]) [1]] ⟨.new (), []⟩
  have hnone : entries = [] := hquiet (by decide)
  subst hnone
  exact absurd hjournal (by decide)

end Verlet.Vfs
