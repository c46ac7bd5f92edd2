import Verlet.Vfs.Journal

/-!
# Vfs — What guests see

The file system of the wasm runner, `Wasm.VerletVfs`, made of the mounted backends.
-/

namespace Verlet.Vfs
open Wasm (Bytes)

variable {ι ω : Type}

/-- An error as `vfs_error_status` reads it. -/
def FsError.forGuests (error : FsError) : Wasm.VfsError :=
  match error.kind with
  | .notFound         => .notFound
  | .permissionDenied => .permissionDenied
  | .invalidInput     => .invalidInput
  | .other            => .other

namespace Backends

/-- Each backend reads a file as it was written. -/
def ReadsBack (S : Backends ι ω) : Prop :=
  ∀ i path content world, ((S.backend i).writeFile path content world).1 = .ok () →
    ((S.backend i).readFile path ((S.backend i).writeFile path content world).2).1 = .ok content

/-- **A written file is read back** through the mounts: the write does not change what serves its path. -/
theorem readFile_writeFile {S : Backends ι ω} (hback : S.ReadsBack) {path : RawPath} {content : Bytes}
    {s : Mounted ι ω} (h : (S.writeFile path content s).1 = .ok ()) :
    (S.readFile path (S.writeFile path content s).2).1 = .ok content := by
  unfold writeFile onPath at h ⊢
  cases hvalid : S.validatePath s path with
  | error error => simp [hvalid] at h
  | ok _ =>
    simp only [hvalid] at h ⊢
    have hbackend := hback (s.vfs.resolve (normalizeVfsPath S.bashkit path)).1
      (resolved s (normalizeVfsPath S.bashkit path)) content s.world
    rcases hwrite : (S.backendAt s (normalizeVfsPath S.bashkit path)).writeFile
      (resolved s (normalizeVfsPath S.bashkit path)) content s.world with ⟨error | _, world⟩
    · simp [hwrite, recording] at h
    · rw [backendAt] at hwrite
      rw [hwrite] at hbackend
      exact hbackend rfl

/-- The file system that a guest is handed; `components` stands for `Path::new`. -/
def forGuests (S : Backends ι ω) (hback : S.ReadsBack) (components : String → RawPath) (now : Nat) :
    Wasm.VerletVfs (Mounted ι ω) where
  readFile path s := (S.readFile (components path) s).1.mapError FsError.forGuests
  stat path s := match (S.stat now (components path) s).1 with
    | .ok metadata => .ok ⟨metadata.fileType, metadata.size⟩
    | .error error => .error error.forGuests
  readDir path s := match (S.readDir now (components path) s).1 with
    | .ok entries  => .ok (entries.map fun entry => ⟨entry.name, entry.metadata.fileType⟩)
    | .error error => .error error.forGuests
  writeFile path content s :=
    ((S.writeFile (components path) content s).1.mapError FsError.forGuests,
      (S.writeFile (components path) content s).2)
  mkdir path recursive s :=
    ((S.mkdir (components path) recursive s).1.mapError FsError.forGuests,
      (S.mkdir (components path) recursive s).2)
  replaces path content s h := by
    have hok : (S.writeFile (components path) content s).1 = .ok () := by
      cases hwrite : (S.writeFile (components path) content s).1 with
      | error error =>
        rw [hwrite] at h
        cases h
      | ok _ => rfl
    rw [readFile_writeFile hback hok]
    rfl

end Backends

theorem readsBack_flatBackends : flatBackends.ReadsBack := by
  intro _ path content files _
  simp [flatBackends, flatBackend]

end Verlet.Vfs
