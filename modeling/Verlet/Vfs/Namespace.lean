import Mathlib.Data.List.Induction
import Verlet.Vfs

/-!
# Vfs — The namespace

What the mounts and the backends show together, from `/` down.  A directory that leads to a mount is made
up where the mount is directly in it, and no further up.
-/

namespace Verlet.Vfs
open Wasm (Bytes FileType)

variable {ι ω : Type}

/-! ### One tree -/

def ListsOnce (entries : List DirEntry) (name : OsName) (fileType : FileType) : Prop :=
  ∃ entry, (entries.filter fun entry => name.toStr = some entry.name) = [entry] ∧
    entry.metadata.fileType = fileType

/-- Its parent exists, is a directory, and lists it as what it is. -/
structure Hangs (S : Backends ι ω) (now : Nat) (s : Mounted ι ω) (above : VfsPath) (name : OsName) :
    Prop where
  parentExists : (S.exists? (absolute above) s).1 = .ok true
  parentDirectory : ∃ metadata, (S.stat now (absolute above) s).1 = .ok metadata ∧
    metadata.fileType = .directory
  listed : ∃ entries metadata, (S.readDir now (absolute above) s).1 = .ok entries ∧
    (S.stat now (absolute (above ++ [name])) s).1 = .ok metadata ∧
    ListsOnce entries name metadata.fileType

/-- What is come to from `/` by reading directories. -/
inductive Walked (S : Backends ι ω) (now : Nat) (s : Mounted ι ω) : VfsPath → Prop where
  | root : Walked S now s []
  | child {above : VfsPath} {entries : List DirEntry} {entry : DirEntry} {name : OsName}
      (h : Walked S now s above) (hread : (S.readDir now (absolute above) s).1 = .ok entries)
      (hmem : entry ∈ entries) (hname : name.toStr = some entry.name) : Walked S now s (above ++ [name])

/-- The namespace is one tree. -/
structure Coherent (S : Backends ι ω) (now : Nat) (s : Mounted ι ω) : Prop where
  tree : ∀ (path : RawPath) (above : VfsPath) (name : OsName),
    normalizeVfsPath S.bashkit path = above ++ [name] → (S.exists? path s).1 = .ok true →
      Hangs S now s above name
  walked : ∀ mount ∈ s.vfs.mounts, Walked S now s mount.1

/-! ### What serves a path -/

variable {text : String}

section Resolution
variable {vfs : VerletVfs ι} {above : VfsPath} {name : OsName}

theorem isMount_iff {path : VfsPath} : vfs.isMount path = true ↔ ∃ mount ∈ vfs.mounts, mount.1 = path := by
  simp [VerletVfs.isMount]

/-- **A path that is no mount is served where its parent is**, under the parent. -/
theorem resolve_child (h : vfs.isMount (above ++ [name]) = false) :
    vfs.resolve (above ++ [name]) = ((vfs.resolve above).1, (vfs.resolve above).2 ++ [name]) := by
  have hfilter : (vfs.mounts.filter fun mount => mount.1.isPrefixOf (above ++ [name])) =
      vfs.mounts.filter fun mount => mount.1.isPrefixOf above := by
    refine List.filter_congr fun mount hmount => Bool.eq_iff_iff.mpr ?_
    have hne : mount.1 ≠ above ++ [name] := fun hsame => by
      rw [isMount_iff.mpr ⟨mount, hmount, hsame⟩] at h
      cases h
    rw [List.isPrefixOf_iff_prefix, List.isPrefixOf_iff_prefix, List.prefix_concat_iff]
    exact or_iff_right hne
  have hreach : ∀ (mounts : List (VfsPath × ι)) (best : Option (VfsPath × ι)),
      (∀ mount ∈ mounts, mount.1 <+: above) → (∀ mount, best = some mount → mount.1 <+: above) →
        ∀ mount, mounts.foldl VerletVfs.deeper best = some mount → mount.1 <+: above := by
    intro mounts
    induction mounts with
    | nil => exact fun best _ hbest => hbest
    | cons mount mounts ih =>
      intro best hmounts hbest
      refine ih _ (fun other hother => hmounts other (.tail _ hother)) fun other hother => ?_
      cases best with
      | none =>
        cases hother
        exact hmounts _ List.mem_cons_self
      | some best =>
        simp only [VerletVfs.deeper] at hother
        split at hother
        · cases hother
          exact hmounts _ List.mem_cons_self
        · cases hother
          exact hbest _ rfl
  rw [VerletVfs.resolve, VerletVfs.resolve, hfilter]
  cases hbest : (vfs.mounts.filter fun mount => mount.1.isPrefixOf above).foldl VerletVfs.deeper none with
  | none => rfl
  | some best =>
    have hle : best.1.length ≤ above.length :=
      (hreach _ none (fun mount hmount =>
        List.isPrefixOf_iff_prefix.mp (List.mem_filter.mp hmount).2) (fun _ hnone => nomatch hnone)
        best hbest).length_le
    simp only [List.drop_append_of_le_length hle]

theorem parent_concat : parent (above ++ [name]) = some above := by
  have hsome : parent (above ++ [name]) = some (above ++ [name]).dropLast := by cases above <;> rfl
  rw [hsome, List.dropLast_concat]

theorem mem_directChildMountNames :
    text ∈ vfs.directChildMountNames above ↔ vfs.isMount (above ++ [.text text]) = true := by
  rw [isMount_iff, VerletVfs.directChildMountNames, List.mem_filterMap]
  refine exists_congr fun mount => and_congr_right fun _ => ?_
  constructor
  · intro h
    split at h
    · next hparent =>
      obtain ⟨last, hlast, htext⟩ := Option.bind_eq_some_iff.mp h
      obtain ⟨rest, hrest⟩ := List.getLast?_eq_some_iff.mp hlast
      rw [hrest, parent_concat] at hparent
      obtain rfl := Option.some.inj hparent
      cases last with
      | raw bytes => cases htext
      | text name =>
        cases htext
        exact hrest
    · cases h
  · intro h
    rw [h, if_pos parent_concat, fileName, List.getLast?_concat]
    rfl

end Resolution

/-! ### What is listed -/

variable {entries : List DirEntry} {fileType : FileType}

section Listing

theorem filter_listMount (now : Nat) (text : String) (children : List String) (entries : List DirEntry)
    (names : List String) :
    ((children.foldl (listMount now) (entries, names)).1.filter fun entry => text = entry.name) =
      (entries.filter fun entry => text = entry.name) ++
        if text ∈ children ∧ text ∉ names then [⟨text, directoryMetadata now⟩] else [] := by
  induction children generalizing entries names with
  | nil => simp
  | cons child children ih =>
    rw [List.foldl_cons]
    by_cases hchild : child ∈ names
    · have hsame : (text ∈ child :: children ∧ text ∉ names) ↔ (text ∈ children ∧ text ∉ names) := by
        grind
      rw [listMount, if_pos hchild, ih]
      simp only [hsame]
    · rw [listMount, if_neg hchild, ih, List.filter_append]
      by_cases htext : text = child
      · subst htext
        simp [hchild]
      · simp [htext]

theorem listsOnce_of_perm {entries' : List DirEntry} {name : OsName} (h : entries.Perm entries') :
    ListsOnce entries name fileType ↔ ListsOnce entries' name fileType := by
  have hfilter := h.filter fun entry => name.toStr = some entry.name
  refine exists_congr fun entry => and_congr_left fun _ => ?_
  constructor
  · intro hone
    rw [hone] at hfilter
    exact List.perm_singleton.mp hfilter.symm
  · intro hone
    rw [hone] at hfilter
    exact List.perm_singleton.mp hfilter

theorem not_listsOnce_raw {bytes : Bytes} : ¬ ListsOnce entries (.raw bytes) fileType := by
  rintro ⟨entry, hone, -⟩
  have hmem : entry ∈ entries.filter fun entry => (OsName.raw bytes).toStr = some entry.name :=
    hone ▸ List.mem_singleton_self entry
  cases of_decide_eq_true (List.mem_filter.mp hmem).2

theorem filter_text (entries : List DirEntry) (text : String) :
    (entries.filter fun entry => (OsName.text text).toStr = some entry.name) =
      entries.filter fun entry => text = entry.name := by
  simp [OsName.toStr]

theorem listsOnce_listing {now : Nat} {children : List String} {name : OsName}
    (h : ∀ text, name = .text text → text ∉ children) :
    ListsOnce (listing now entries children) name fileType ↔ ListsOnce entries name fileType := by
  rw [listing, listsOnce_of_perm (List.mergeSort_perm _ _)]
  cases name with
  | raw bytes => exact iff_of_false not_listsOnce_raw not_listsOnce_raw
  | text text =>
    simp only [ListsOnce, filter_text, filter_listMount, h text rfl, false_and, if_false,
      List.append_nil]

theorem listsOnce_listing_mount {now : Nat} {children : List String} (h : text ∈ children) :
    ListsOnce (listing now entries children) (.text text) .directory ↔
      (∀ entry ∈ entries, text ≠ entry.name) ∨ ListsOnce entries (.text text) .directory := by
  rw [listing, listsOnce_of_perm (List.mergeSort_perm _ _)]
  simp only [ListsOnce, filter_text, filter_listMount, h, true_and]
  by_cases hnames : text ∈ entries.map (·.name)
  · have hsome : ¬ ∀ entry ∈ entries, text ≠ entry.name := by
      obtain ⟨entry, hentry, hname⟩ := List.mem_map.mp hnames
      exact fun hall => hall entry hentry hname.symm
    simp only [hnames, not_true_eq_false, if_false, List.append_nil, hsome, false_or]
  · have hnone : ∀ entry ∈ entries, text ≠ entry.name := fun entry hentry hsame =>
    hnames (hsame ▸ List.mem_map_of_mem hentry)
    have hfilter : (entries.filter fun entry => text = entry.name) = [] :=
      List.filter_eq_nil_iff.mpr fun entry hentry => by simpa using hnone entry hentry
    exact iff_of_true ⟨⟨text, directoryMetadata now⟩, by simp [hnames, hfilter], rfl⟩ (.inl hnone)

end Listing

/-! ### What the calls answer -/

section Calls

/-- The backend that serves the directory holds it, unless it is made up. -/
def Grounded (S : Backends ι ω) (s : Mounted ι ω) (path : VfsPath) : Prop :=
  s.vfs.madeUp path = true ∨
    ((S.backendAt s path).exists? (Backends.resolved s path) s.world).1 = .ok true ∧
      ∃ metadata, ((S.backendAt s path).stat (Backends.resolved s path) s.world).1 = .ok metadata ∧
        metadata.fileType = .directory

def served (S : Backends ι ω) (s : Mounted ι ω) (above : VfsPath) : Except FsError (List DirEntry) :=
  ((S.backendAt s above).readDir (Backends.resolved s above) s.world).1

variable {S : Backends ι ω} {s : Mounted ι ω} {now : Nat} {above path : VfsPath} {name : OsName}

theorem normalize_absolute (h : S.bashkit.Normalizes) (path : VfsPath) :
    normalizeVfsPath S.bashkit (absolute path) = path := by
  rw [normalizeVfsPath, if_pos (by simp [hasRoot, absolute])]
  exact h path

theorem exists_iff (raw : RawPath) :
    (S.exists? raw s).1 = .ok true ↔ s.vfs.madeUp (normalizeVfsPath S.bashkit raw) = true ∨
      ((S.backendAt s (normalizeVfsPath S.bashkit raw)).exists?
        (Backends.resolved s (normalizeVfsPath S.bashkit raw)) s.world).1 = .ok true := by
  unfold Backends.exists?
  cases hmade : s.vfs.madeUp (normalizeVfsPath S.bashkit raw) <;> simp [hmade, Backends.asking]

theorem stat_madeUp (now : Nat) (h : S.bashkit.Normalizes) (hmade : s.vfs.madeUp path = true) :
    (S.stat now (absolute path) s).1 = .ok (directoryMetadata now) := by
  unfold Backends.stat
  simp only [normalize_absolute h, hmade, if_true]

theorem stat_served (now : Nat) (h : S.bashkit.Normalizes) (hmade : s.vfs.madeUp path = false) :
    (S.stat now (absolute path) s).1 =
      ((S.backendAt s path).stat (Backends.resolved s path) s.world).1 := by
  unfold Backends.stat
  simp only [normalize_absolute h, hmade, Bool.false_eq_true, if_false]
  rfl

theorem grounded_iff (now : Nat) (h : S.bashkit.Normalizes) :
    Grounded S s path ↔ (S.exists? (absolute path) s).1 = .ok true ∧
      ∃ metadata, (S.stat now (absolute path) s).1 = .ok metadata ∧ metadata.fileType = .directory := by
  rw [exists_iff, normalize_absolute h]
  cases hmade : s.vfs.madeUp path with
  | true => simp [Grounded, hmade, stat_madeUp now h hmade, directoryMetadata]
  | false => simp [Grounded, hmade, stat_served now h hmade]

theorem readDir_ok (h : S.bashkit.Normalizes) :
    (S.readDir now (absolute above) s).1 = .ok entries ↔
      (∃ held, served S s above = .ok held ∧
        entries = listing now held (s.vfs.directChildMountNames above)) ∨
      (∃ error, served S s above = .error error) ∧ s.vfs.directChildMountNames above ≠ [] ∧
        entries = listing now [] (s.vfs.directChildMountNames above) := by
  unfold Backends.readDir served
  simp only [normalize_absolute h]
  generalize (S.backendAt s above).readDir (Backends.resolved s above) s.world = answered
  obtain ⟨result, world⟩ := answered
  cases result with
  | ok held =>
    constructor
    · intro hread
      cases hread
      exact .inl ⟨held, rfl, rfl⟩
    · rintro (⟨_, hheld, rfl⟩ | ⟨⟨_, herror⟩, -⟩)
      · cases hheld
        rfl
      · cases herror
  | error error =>
    by_cases hchildren : s.vfs.directChildMountNames above = []
    · simp [hchildren]
    · simp only [List.isEmpty_iff, hchildren, if_false, Except.ok.injEq, reduceCtorEq, false_and,
        exists_false, false_or, ne_eq, not_false_eq_true, true_and, Except.error.injEq, exists_eq']
      exact eq_comm

end Calls

/-! ### When the namespace is one tree -/

section Trees

structure Agrees (S : Backends ι ω) (s : Mounted ι ω) : Prop where
  /-- What a backend says is there hangs in a directory of its own, or in one that is made up. -/
  held : ∀ above name, s.vfs.madeUp (above ++ [name]) = false →
    ((S.backendAt s above).exists? (Backends.resolved s above ++ [name]) s.world).1 = .ok true →
      Grounded S s above ∧ ∃ entries metadata, served S s above = .ok entries ∧
        ((S.backendAt s above).stat (Backends.resolved s above ++ [name]) s.world).1 = .ok metadata ∧
        ListsOnce entries name metadata.fileType
  /-- A directory that a mount is directly in, and that is none itself, is one of the backend's. -/
  leads : ∀ above name, s.vfs.isMount (above ++ [name]) = false →
    s.vfs.directChildMountNames (above ++ [name]) ≠ [] →
      Grounded S s above ∧ ∃ entries, served S s above = .ok entries ∧
        ListsOnce entries name .directory
  /-- A mount has a name in UTF-8, and under it the backend has a directory or nothing. -/
  under : ∀ above name, s.vfs.isMount (above ++ [name]) = true → ∃ text, name = .text text ∧
    ∀ entries, served S s above = .ok entries →
      (∀ entry ∈ entries, text ≠ entry.name) ∨ ListsOnce entries name .directory

variable {S : Backends ι ω} {s : Mounted ι ω} {now : Nat} {above path : VfsPath} {name : OsName}

theorem madeUp_iff {path : VfsPath} : s.vfs.madeUp path = true ↔
    s.vfs.isMount path = true ∨ s.vfs.directChildMountNames path ≠ [] := by
  simp [VerletVfs.madeUp]

theorem listed_served (now : Nat) (h : S.bashkit.Normalizes)
    (hmount : s.vfs.isMount (above ++ [name]) = false) :
    (∃ entries, (S.readDir now (absolute above) s).1 = .ok entries ∧ ListsOnce entries name fileType) ↔
      ∃ entries, served S s above = .ok entries ∧ ListsOnce entries name fileType := by
  have hchild (text : String) (hname : name = .text text) :
      text ∉ s.vfs.directChildMountNames above := fun hin => by
    rw [hname, mem_directChildMountNames.mp hin] at hmount
    cases hmount
  constructor
  · rintro ⟨entries, hread, honce⟩
    rcases (readDir_ok h).mp hread with ⟨held, hheld, rfl⟩ | ⟨-, -, rfl⟩
    · exact ⟨held, hheld, (listsOnce_listing hchild).mp honce⟩
    · obtain ⟨entry, hnone, -⟩ := (listsOnce_listing hchild).mp honce
      cases hnone
  · rintro ⟨held, hheld, honce⟩
    exact ⟨_, (readDir_ok h).mpr (.inl ⟨held, hheld, rfl⟩), (listsOnce_listing hchild).mpr honce⟩

theorem listed_mount (now : Nat) (h : S.bashkit.Normalizes)
    (hmount : s.vfs.isMount (above ++ [.text text]) = true) :
    (∃ entries, (S.readDir now (absolute above) s).1 = .ok entries ∧
        ListsOnce entries (.text text) .directory) ↔
      ∀ entries, served S s above = .ok entries →
        (∀ entry ∈ entries, text ≠ entry.name) ∨ ListsOnce entries (.text text) .directory := by
  have hchild : text ∈ s.vfs.directChildMountNames above := mem_directChildMountNames.mpr hmount
  cases hserved : served S s above with
  | ok held =>
    have hread : (S.readDir now (absolute above) s).1 =
        .ok (listing now held (s.vfs.directChildMountNames above)) :=
      (readDir_ok h).mpr (.inl ⟨held, hserved, rfl⟩)
    simp only [hread, Except.ok.injEq, exists_eq_left', forall_eq', listsOnce_listing_mount hchild]
  | error error =>
    refine iff_of_true ⟨_, (readDir_ok h).mpr (.inr ⟨⟨error, hserved⟩, ?_, rfl⟩), ?_⟩
      (fun _ hnone => nomatch hnone)
    · exact List.ne_nil_of_mem hchild
    · exact (listsOnce_listing_mount hchild).mpr (.inl fun _ hnone => nomatch hnone)

theorem hangs_mount (h : S.bashkit.Normalizes) (hmount : s.vfs.isMount (above ++ [name]) = true) :
    Hangs S now s above name ↔ ∃ text, name = .text text ∧
      ∀ entries, served S s above = .ok entries →
        (∀ entry ∈ entries, text ≠ entry.name) ∨ ListsOnce entries name .directory := by
  have hstat := stat_madeUp now h (madeUp_iff.mpr (.inl hmount))
  constructor
  · rintro ⟨-, -, entries, metadata, hread, hmetadata, honce⟩
    obtain rfl := Except.ok.inj (hstat.symm.trans hmetadata)
    cases name with
    | raw bytes => exact absurd honce not_listsOnce_raw
    | text text => exact ⟨text, rfl, (listed_mount now h hmount).mp ⟨entries, hread, honce⟩⟩
  · rintro ⟨text, rfl, hunder⟩
    have hin : text ∈ s.vfs.directChildMountNames above := mem_directChildMountNames.mpr hmount
    obtain ⟨hexists, hdirectory⟩ := (grounded_iff now h).mp
      (.inl (madeUp_iff.mpr (.inr (List.ne_nil_of_mem hin))))
    obtain ⟨entries, hread, honce⟩ := (listed_mount now h hmount).mpr hunder
    exact ⟨hexists, hdirectory, entries, _, hread, hstat, honce⟩

theorem hangs_served (h : S.bashkit.Normalizes) (hmount : s.vfs.isMount (above ++ [name]) = false) :
    Hangs S now s above name ↔ Grounded S s above ∧ ∃ entries metadata,
      served S s above = .ok entries ∧
      (S.stat now (absolute (above ++ [name])) s).1 = .ok metadata ∧
      ListsOnce entries name metadata.fileType := by
  constructor
  · rintro ⟨hexists, hdirectory, entries, metadata, hread, hstat, honce⟩
    obtain ⟨held, hheld, honce⟩ := (listed_served now h hmount).mp ⟨entries, hread, honce⟩
    exact ⟨(grounded_iff now h).mpr ⟨hexists, hdirectory⟩, held, metadata, hheld, hstat, honce⟩
  · rintro ⟨hgrounded, held, metadata, hheld, hstat, honce⟩
    obtain ⟨hexists, hdirectory⟩ := (grounded_iff now h).mp hgrounded
    obtain ⟨entries, hread, honce⟩ := (listed_served now h hmount).mpr ⟨held, hheld, honce⟩
    exact ⟨hexists, hdirectory, entries, metadata, hread, hstat, honce⟩

theorem walked_of_hangs
    (h : ∀ above name, (S.exists? (absolute (above ++ [name])) s).1 = .ok true → Hangs S now s above name)
    (path : VfsPath) (hexists : (S.exists? (absolute path) s).1 = .ok true) : Walked S now s path := by
  induction path using List.reverseRecOn with
  | nil => exact .root
  | append_singleton above name ih =>
    obtain ⟨hparent, -, entries, metadata, hread, -, entry, honce, -⟩ := h above name hexists
    have hmem : entry ∈ entries.filter fun entry => name.toStr = some entry.name :=
      honce ▸ List.mem_singleton_self entry
    obtain ⟨hentry, hname⟩ := List.mem_filter.mp hmem
    exact .child (ih hparent) hread hentry (of_decide_eq_true hname)

/-- **The namespace is one tree just if the mounts and the backends agree.**  For every backend, set of
mounts and state of the world. -/
theorem coherent_iff (h : S.bashkit.Normalizes) : Coherent S now s ↔ Agrees S s := by
  constructor
  · rintro ⟨htree, -⟩
    have hangs (above : VfsPath) (name : OsName)
        (hexists : (S.exists? (absolute (above ++ [name])) s).1 = .ok true) : Hangs S now s above name :=
      htree _ above name (normalize_absolute h _) hexists
    refine ⟨fun above name hmade hexists => ?_, fun above name hmount hleads => ?_,
      fun above name hmount => ?_⟩
    · have hmount : s.vfs.isMount (above ++ [name]) = false := by
        rw [← Bool.not_eq_true] at hmade ⊢
        exact fun hmount => hmade (madeUp_iff.mpr (.inl hmount))
      have hchild := resolve_child hmount
      have hthere := hangs above name ((exists_iff _).mpr (.inr (by
        rwa [normalize_absolute h, Backends.backendAt, Backends.resolved, hchild])))
      have hserved := (hangs_served h hmount).mp hthere
      rw [stat_served now h hmade, Backends.backendAt, Backends.resolved, hchild] at hserved
      exact hserved
    · have hmade := madeUp_iff.mpr (.inr hleads)
      have hthere := hangs above name ((exists_iff _).mpr (.inl (by rwa [normalize_absolute h])))
      obtain ⟨hgrounded, entries, metadata, hserved, hstat, honce⟩ := (hangs_served h hmount).mp hthere
      obtain rfl := Except.ok.inj ((stat_madeUp now h hmade).symm.trans hstat)
      exact ⟨hgrounded, entries, hserved, honce⟩
    · have hmade := madeUp_iff.mpr (.inl hmount)
      exact (hangs_mount h hmount).mp
        (hangs above name ((exists_iff _).mpr (.inl (by rwa [normalize_absolute h]))))
  · intro hagrees
    have hangs (above : VfsPath) (name : OsName)
        (hexists : (S.exists? (absolute (above ++ [name])) s).1 = .ok true) :
        Hangs S now s above name := by
      rw [exists_iff, normalize_absolute h] at hexists
      cases hmount : s.vfs.isMount (above ++ [name]) with
      | true => exact (hangs_mount h hmount).mpr (hagrees.under above name hmount)
      | false =>
        refine (hangs_served h hmount).mpr ?_
        have hchild := resolve_child hmount
        cases hmade : s.vfs.madeUp (above ++ [name]) with
        | true =>
          have hleads := (madeUp_iff.mp hmade).resolve_left (by simp [hmount])
          obtain ⟨hgrounded, entries, hserved, honce⟩ := hagrees.leads above name hmount hleads
          exact ⟨hgrounded, entries, _, hserved, stat_madeUp now h hmade, honce⟩
        | false =>
          have hthere := hexists.resolve_left (by simp [hmade])
          rw [Backends.backendAt, Backends.resolved, hchild] at hthere
          rw [stat_served now h hmade, Backends.backendAt, Backends.resolved, hchild]
          exact hagrees.held above name hmade hthere
    refine ⟨fun path above name hpath hexists => hangs above name ?_, fun mount hmount => ?_⟩
    · rw [exists_iff, hpath] at hexists
      rw [exists_iff, normalize_absolute h]
      exact hexists
    · refine walked_of_hangs hangs mount.1 ((exists_iff _).mpr (.inl ?_))
      rw [normalize_absolute h]
      exact madeUp_iff.mpr (.inl (isMount_iff.mpr ⟨mount, hmount, rfl⟩))

end Trees

/-! ### Two mounts on a root that has nothing -/

/-- A backend of `/` alone, which does nothing. -/
def bareBackend : Backend Unit where
  validatePath _ := .ok ()
  readFile _ s := (.error ⟨.notFound, "not found"⟩, s)
  writeFile _ _ s := (.error ⟨.permissionDenied, "read-only"⟩, s)
  appendFile _ _ s := (.error ⟨.permissionDenied, "read-only"⟩, s)
  mkdir _ _ s := (.error ⟨.permissionDenied, "read-only"⟩, s)
  remove _ _ s := (.error ⟨.permissionDenied, "read-only"⟩, s)
  stat path s := (if path = [] then .ok (directoryMetadata 0) else .error ⟨.notFound, "not found"⟩, s)
  readDir path s := (if path = [] then .ok [] else .error ⟨.notFound, "not found"⟩, s)
  exists? path s := (.ok (path = []), s)
  rename _ _ s := (.error ⟨.permissionDenied, "read-only"⟩, s)
  copy _ _ s := (.error ⟨.permissionDenied, "read-only"⟩, s)
  symlink _ _ s := (.error ⟨.permissionDenied, "read-only"⟩, s)
  readLink _ s := (.error ⟨.notFound, "not found"⟩, s)
  chmod _ _ s := (.error ⟨.permissionDenied, "read-only"⟩, s)
  setModifiedTime _ _ s := (.error ⟨.permissionDenied, "read-only"⟩, s)

/-- The names of a path as they stand. -/
def bareBackends : Backends Bool Unit where
  bashkit := ⟨List.filterMap PathComponent.name?⟩
  backend _ := bareBackend

/-- One backend mounted in another. -/
def bareMounted (path : VfsPath) : Mounted Bool Unit := ⟨⟨true, [(path, false)], []⟩, ()⟩

theorem bareBackends_normalizes : bareBackends.bashkit.Normalizes := by
  intro path
  show (absolute path).filterMap PathComponent.name? = path
  rw [absolute, List.filterMap_cons_none rfl, List.filterMap_map]
  exact List.filterMap_some

/-- A mount directly in `/`. -/
theorem coherent_shallow : Coherent bareBackends 0 (bareMounted [.text "a"]) := by
  refine (coherent_iff bareBackends_normalizes).mpr ⟨fun above name _ hexists => ?_,
    fun above name _ hleads => ?_, fun above name hmount => ?_⟩
  · have hempty : Backends.resolved (bareMounted [.text "a"]) above ++ [name] = [] :=
      of_decide_eq_true (Except.ok.inj hexists)
    simp at hempty
  · obtain ⟨text, htext⟩ := List.exists_mem_of_ne_nil _ hleads
    obtain ⟨mount, hmem, hpath⟩ := isMount_iff.mp (mem_directChildMountNames.mp htext)
    obtain rfl := List.mem_singleton.mp hmem
    have hlength := congrArg List.length hpath
    simp at hlength
  · obtain ⟨mount, hmem, hpath⟩ := isMount_iff.mp hmount
    obtain rfl := List.mem_singleton.mp hmem
    have happend : [] ++ [.text "a"] = above ++ [name] := hpath
    obtain ⟨rfl, hname⟩ := List.append_inj' happend rfl
    obtain rfl := List.head_eq_of_cons_eq hname
    refine ⟨"a", rfl, fun entries hserved => .inl fun entry hentry => ?_⟩
    obtain rfl := Except.ok.inj hserved
    cases hentry

/-- **A mount at `/a/b/c`, of which the root has nothing**: `/a/b` is there and `/a` is not. -/
theorem deep_mount_split :
    ¬ ∀ (mounts : List (VfsPath × Bool)), Coherent bareBackends 0 ⟨⟨true, mounts, []⟩, ()⟩ := by
  intro h
  obtain ⟨htree, -⟩ := h [([.text "a", .text "b", .text "c"], false)]
  have hparent := (htree (absolute [.text "a", .text "b"]) [.text "a"] (.text "b") rfl rfl).parentExists
  cases hparent

end Verlet.Vfs
