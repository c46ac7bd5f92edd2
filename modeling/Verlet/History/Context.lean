import Mathlib.Logic.Relation
import Verlet.Support.Fallible
import Verlet.History.Records

/-!
# History — Context

`build_context`, once for both stores.  A thread's context is what it inherits through its base,
read the same way at the parent, followed by its own branch.  `ContextSource` is what a store
answers while a context is built: the base of a thread, its active leaf, and the branch that ends
at a leaf.

The recursion walks the bases; the set `visiting` makes a cycle an error, so it descends at most
once into each base, and the fuel counts them.
-/

namespace Verlet.History
open Support

/-- What a store answers while a context is built. -/
structure ContextSource where
  base : ThreadId → HistoryResult (Option ThreadBaseRef)
  activeLeaf : ThreadId → HistoryResult (Option SessionEntryId)
  branchPath : ThreadCoordinates → SessionEntryId → HistoryResult (List SessionEntry)

/-- `strip_thread_start_identity_entries`, on the entries. -/
def stripEntries (entries : List SessionEntry) : List SessionEntry :=
  let identityIds := (entries.filter sessionEntryIsThreadStartIdentity).map (·.entryId)
  entries.filter fun entry => entry.entryId ∉ identityIds

theorem getLast?_stripEntries {entries : List SessionEntry} {last : SessionEntry}
    (hlast : entries.getLast? = some last)
    (h : ∀ entry ∈ entries, sessionEntryIsThreadStartIdentity entry = true →
      entry.entryId ≠ last.entryId) : (stripEntries entries).getLast? = some last := by
  obtain ⟨init, rfl⟩ := List.getLast?_eq_some_iff.mp hlast
  have hkept : last.entryId ∉
      ((init ++ [last]).filter sessionEntryIsThreadStartIdentity).map (·.entryId) := by
    intro hmem
    obtain ⟨entry, hentry, hsame⟩ := List.mem_map.mp hmem
    obtain ⟨hin, hidentity⟩ := List.mem_filter.mp hentry
    exact h entry hin hidentity hsame
  rw [stripEntries, List.filter_append, List.filter_singleton]
  simp only [hkept, not_false_eq_true, decide_true, cond_true, List.getLast?_append,
    List.getLast?_singleton, Option.some_or]

/-- `strip_thread_start_identity_entries`, on the cuts: nothing to do without identity entries,
else the identity entries leave their cuts and empty cuts leave the list. -/
def stripSourceCuts (entries : List SessionEntry) (cuts : List SessionContextSourceCut) :
    List SessionContextSourceCut :=
  let identityIds := (entries.filter sessionEntryIsThreadStartIdentity).map (·.entryId)
  if identityIds.isEmpty then cuts
  else
    (cuts.map fun cut => { cut with entryIds := cut.entryIds.filter (· ∉ identityIds) }).filter
      fun cut => ¬ cut.entryIds.isEmpty

def contextOf (coordinates : ThreadCoordinates) (inherited : Bool)
    (fromParent : List SessionEntry × List SessionContextSourceCut)
    (localPath : List SessionEntry) : SessionContext :=
  let entries := fromParent.1 ++ localPath
  let cuts := if localPath.isEmpty then fromParent.2
    else fromParent.2 ++ [⟨coordinates, .forThread coordinates, inherited, localPath.map (·.entryId)⟩]
  let kept := stripEntries entries
  ⟨kept, appendModelVisibleMessages kept [], stripSourceCuts entries cuts⟩

/-- The entries and cuts a thread takes over from its base; `build` builds the parent's context
at the pinned leaf, or at the parent's own where the base pins none. -/
def inheritedWith (source : ContextSource)
    (build : ThreadCoordinates → Option SessionEntryId → HistoryResult SessionContext)
    (coordinates : ThreadCoordinates) :
    HistoryResult (List SessionEntry × List SessionContextSourceCut) := do
  match ← source.base coordinates.threadId with
  | none => return ([], [])
  | some base =>
    if base.childThreadId ≠ coordinates.threadId then
      throw (.storage (.baseChildNotRequested base.childThreadId coordinates.threadId))
    let parent ← build (coordinatesWithThreadId coordinates base.parentThreadId)
      base.parentLeafEntryId
    return (parent.entries, parent.sourceCuts)

/-- The thread's own branch, at the leaf asked for or else at its active leaf. -/
def localPathFrom (source : ContextSource) (coordinates : ThreadCoordinates)
    (leafOverride : Option SessionEntryId) : HistoryResult (List SessionEntry) := do
  let localLeaf ← match leafOverride with
    | some leaf => pure (some leaf)
    | none => source.activeLeaf coordinates.threadId
  match localLeaf with
  | some leaf => source.branchPath coordinates leaf
  | none => return []

/-- `build_in_memory_context` and `sqlite_build_context`. -/
def buildContextFrom (source : ContextSource) :
    Nat → ThreadCoordinates → Option SessionEntryId → Bool → List ThreadId →
      HistoryResult SessionContext
  | 0,        _,           _,            _,         _        => .error .diverged
  | fuel + 1, coordinates, leafOverride, inherited, visiting => do
    if coordinates.threadId ∈ visiting then
      throw (.threadBaseCycle coordinates.threadId coordinates.threadId)
    let fromParent ← inheritedWith source
      (fun parent leaf => buildContextFrom source fuel parent leaf true
        (coordinates.threadId :: visiting)) coordinates
    let localPath ← localPathFrom source coordinates leafOverride
    return contextOf coordinates inherited fromParent localPath

/-! ### When a context is built -/

variable {e : HistoryError} {context : SessionContext}

section Built

variable {source : ContextSource} {c : ThreadCoordinates}
  {build : ThreadCoordinates → Option SessionEntryId → HistoryResult SessionContext}

theorem inheritedWith_ok {r : List SessionEntry × List SessionContextSourceCut} :
    inheritedWith source build c = .ok r ↔
      (source.base c.threadId = .ok none ∧ r = ([], [])) ∨
      ∃ base context, source.base c.threadId = .ok (some base) ∧ base.childThreadId = c.threadId ∧
        build (coordinatesWithThreadId c base.parentThreadId) base.parentLeafEntryId = .ok context ∧
        r = (context.entries, context.sourceCuts) := by
  unfold inheritedWith
  rw [bind_ok]
  constructor
  · rintro ⟨base?, hb, h⟩
    cases base? with
    | none => exact .inl ⟨hb, (pure_ok.mp h).symm⟩
    | some base =>
      by_cases hc : base.childThreadId = c.threadId
      · simp only [hc, ne_eq, not_true_eq_false, if_false, bind_ok, pure_ok] at h
        obtain ⟨context, hx, rfl⟩ := h
        exact .inr ⟨base, context, hb, hc, hx, rfl⟩
      · simp only [hc, ne_eq, not_false_eq_true, if_true, bind_ok, throw_ok, false_and,
          exists_false] at h
  · rintro (⟨hb, rfl⟩ | ⟨base, context, hb, hc, hx, rfl⟩)
    · exact ⟨none, hb, rfl⟩
    · refine ⟨some base, hb, ?_⟩
      simp only [hc, ne_eq, not_true_eq_false, if_false, bind_ok, pure_ok]
      exact ⟨context, hx, rfl⟩

theorem inheritedWith_error (h : inheritedWith source build c = .error e) :
    source.base c.threadId = .error e ∨ ∃ base, source.base c.threadId = .ok (some base) ∧
      (e = .storage (.baseChildNotRequested base.childThreadId c.threadId) ∨
        build (coordinatesWithThreadId c base.parentThreadId) base.parentLeafEntryId =
          .error e) := by
  unfold inheritedWith at h
  rcases bind_error.mp h with hb | ⟨base?, hb, h⟩
  · exact .inl hb
  · cases base? with
    | none => cases h
    | some base =>
      refine .inr ⟨base, hb, ?_⟩
      by_cases hc : base.childThreadId = c.threadId
      · simp only [hc, ne_eq, not_true_eq_false, if_false] at h
        rcases bind_error.mp h with hx | ⟨_, -, hx⟩
        · exact .inr hx
        · cases hx
      · simp only [hc, ne_eq, not_false_eq_true, if_true] at h
        cases h
        exact .inl rfl

theorem localPathFrom_some (leaf : SessionEntryId) :
    localPathFrom source c (some leaf) = source.branchPath c leaf := rfl

theorem localPathFrom_none_ok {path : List SessionEntry} :
    localPathFrom source c none = .ok path ↔
      (source.activeLeaf c.threadId = .ok none ∧ path = []) ∨
      ∃ leaf, source.activeLeaf c.threadId = .ok (some leaf) ∧
        source.branchPath c leaf = .ok path := by
  simp only [localPathFrom, bind_ok]
  constructor
  · rintro ⟨leaf?, hl, h⟩
    cases leaf? with
    | none => exact .inl ⟨hl, (pure_ok.mp h).symm⟩
    | some leaf => exact .inr ⟨leaf, hl, h⟩
  · rintro (⟨hl, rfl⟩ | ⟨leaf, hl, h⟩)
    · exact ⟨none, hl, rfl⟩
    · exact ⟨some leaf, hl, h⟩

theorem localPathFrom_none_error (h : localPathFrom source c none = .error e) :
    source.activeLeaf c.threadId = .error e ∨
      ∃ leaf, source.activeLeaf c.threadId = .ok (some leaf) ∧
        source.branchPath c leaf = .error e := by
  simp only [localPathFrom] at h
  rcases bind_error.mp h with hl | ⟨leaf?, hl, h⟩
  · exact .inl hl
  · cases leaf? with
    | none => cases h
    | some leaf => exact .inr ⟨leaf, hl, h⟩

variable {fuel : Nat} {leafOverride : Option SessionEntryId} {inherited : Bool}
  {visiting : List ThreadId}

theorem buildContextFrom_ok :
    buildContextFrom source (fuel + 1) c leafOverride inherited visiting = .ok context ↔
      c.threadId ∉ visiting ∧ ∃ fromParent localPath,
        inheritedWith source (fun parent leaf => buildContextFrom source fuel parent leaf true
          (c.threadId :: visiting)) c = .ok fromParent ∧
        localPathFrom source c leafOverride = .ok localPath ∧
        context = contextOf c inherited fromParent localPath := by
  by_cases hv : c.threadId ∈ visiting
  · simp only [buildContextFrom, hv, if_true, bind_ok, throw_ok, false_and, exists_false,
      not_true_eq_false]
  · simp only [buildContextFrom, hv, if_false, bind_ok, pure_ok, not_false_eq_true, true_and]
    constructor
    · rintro ⟨fromParent, hp, localPath, hl, rfl⟩
      exact ⟨fromParent, localPath, hp, hl, rfl⟩
    · rintro ⟨fromParent, localPath, hp, hl, rfl⟩
      exact ⟨fromParent, hp, localPath, hl, rfl⟩

theorem buildContextFrom_error
    (h : buildContextFrom source (fuel + 1) c leafOverride inherited visiting = .error e) :
    e = .threadBaseCycle c.threadId c.threadId ∨
      inheritedWith source (fun parent leaf => buildContextFrom source fuel parent leaf true
        (c.threadId :: visiting)) c = .error e ∨
      localPathFrom source c leafOverride = .error e := by
  by_cases hv : c.threadId ∈ visiting
  · simp only [buildContextFrom, hv, if_true] at h
    cases h
    exact .inl rfl
  · simp only [buildContextFrom, hv, if_false] at h
    rcases bind_error.mp h with hp | ⟨fromParent, -, h⟩
    · exact .inr (.inl hp)
    · rcases bind_error.mp h with hl | ⟨_, -, h⟩
      · exact .inr (.inr hl)
      · cases h

end Built

/-! ### What a context reads -/

/-- From `thread`, the bases lead to `ancestor`. -/
def ContextSource.Leads (source : ContextSource) : ThreadId → ThreadId → Prop :=
  Relation.ReflTransGen fun thread parent =>
    ∃ base, source.base thread = .ok (some base) ∧ base.parentThreadId = parent

/-- Some base that `thread` leads to reads the live branch of `ancestor`: it pins no leaf. -/
def ContextSource.ReadsLive (source : ContextSource) (thread ancestor : ThreadId) : Prop :=
  ∃ child base, source.Leads thread child ∧ source.base child = .ok (some base) ∧
    base.parentThreadId = ancestor ∧ base.parentLeafEntryId = none

/-- The part of `build_context` that a thread inherits: its entries and their cuts. -/
def inheritedFrom (source : ContextSource) (fuel : Nat) (c : ThreadCoordinates) :
    HistoryResult (List SessionEntry × List SessionContextSourceCut) :=
  inheritedWith source (fun parent leaf => buildContextFrom source fuel parent leaf true
    [c.threadId]) c

section Stable

variable {source source' : ContextSource} {thread : ThreadId} {fuel : Nat} {c : ThreadCoordinates}

/-- A context that was built is built the same where the bases are the same, the branches it may
read still stand, and the leaves it reads live have not moved. -/
theorem buildContextFrom_stable (hbase : source'.base = source.base)
    (hpath : ∀ c leaf path, source.branchPath c leaf = .ok path →
      source'.branchPath c leaf = .ok path)
    (hleaf : ∀ ancestor, source.ReadsLive thread ancestor →
      source'.activeLeaf ancestor = source.activeLeaf ancestor)
    {leafOverride : Option SessionEntryId} {inherited : Bool} {visiting : List ThreadId}
    (hleads : source.Leads thread c.threadId)
    (hlocal : leafOverride = none → source'.activeLeaf c.threadId = source.activeLeaf c.threadId)
    (h : buildContextFrom source fuel c leafOverride inherited visiting = .ok context) :
    buildContextFrom source' fuel c leafOverride inherited visiting = .ok context := by
  induction fuel generalizing c leafOverride inherited visiting context with
  | zero => cases h
  | succ fuel ih =>
    rw [buildContextFrom_ok] at h ⊢
    obtain ⟨hv, fromParent, localPath, hp, hl, rfl⟩ := h
    refine ⟨hv, fromParent, localPath, ?_, ?_, rfl⟩
    · rw [inheritedWith_ok] at hp ⊢
      rcases hp with ⟨hb, rfl⟩ | ⟨base, parent, hb, hc, hx, rfl⟩
      · exact .inl ⟨by rw [hbase, hb], rfl⟩
      · refine .inr ⟨base, parent, by rw [hbase, hb], hc, ?_, rfl⟩
        exact ih (hleads.tail ⟨base, hb, rfl⟩)
          (fun hnone => hleaf _ ⟨c.threadId, base, hleads, hb, rfl, hnone⟩) hx
    · cases leafOverride with
      | some leaf => exact hpath c leaf localPath hl
      | none =>
        rw [localPathFrom_none_ok] at hl ⊢
        rw [hlocal rfl]
        exact hl.imp_right fun ⟨leaf, ha, hb⟩ => ⟨leaf, ha, hpath c leaf localPath hb⟩

/-- A context that was built does not come to fail in the way `B`, where the bases are the same,
the branches it may read still stand, and none of the live branches it reads comes to fail so. -/
theorem buildContextFrom_not_bad {B : HistoryError → Prop}
    (hcycle : ∀ child ancestor, ¬ B (.threadBaseCycle child ancestor))
    (hstorage : ∀ detail, ¬ B (.storage detail)) (hbase : source'.base = source.base)
    (hpath : ∀ c leaf path, source.branchPath c leaf = .ok path →
      source'.branchPath c leaf = .ok path) {scope : ThreadScope}
    (hlive : ∀ c path e, c.scope = scope → source.ReadsLive thread c.threadId →
      localPathFrom source c none = .ok path → localPathFrom source' c none = .error e → ¬ B e)
    {leafOverride : Option SessionEntryId} {inherited : Bool} {visiting : List ThreadId}
    (hscope : c.scope = scope) (hleads : source.Leads thread c.threadId)
    (hlocal : ∀ path e, leafOverride = none → localPathFrom source c none = .ok path →
      localPathFrom source' c none = .error e → ¬ B e)
    (h : buildContextFrom source fuel c leafOverride inherited visiting = .ok context)
    (h' : buildContextFrom source' fuel c leafOverride inherited visiting = .error e) : ¬ B e := by
  induction fuel generalizing c leafOverride inherited visiting context with
  | zero => cases h
  | succ fuel ih =>
    obtain ⟨hv, fromParent, localPath, hp, hl, rfl⟩ := buildContextFrom_ok.mp h
    rcases buildContextFrom_error h' with rfl | hp' | hl'
    · exact hcycle _ _
    · rcases inheritedWith_error hp' with hb' | ⟨base', hb', rfl | hx'⟩
      · rw [hbase] at hb'
        rcases inheritedWith_ok.mp hp with ⟨hb, -⟩ | ⟨_, _, hb, -⟩ <;> rw [hb] at hb' <;> cases hb'
      · exact hstorage _
      · rw [hbase] at hb'
        rcases inheritedWith_ok.mp hp with ⟨hb, -⟩ | ⟨base, parent, hb, -, hx, -⟩
        · rw [hb] at hb'
          cases hb'
        · obtain rfl : base = base' := by rw [hb] at hb'; cases hb'; rfl
          exact ih (c := coordinatesWithThreadId c base.parentThreadId) hscope
            (hleads.tail ⟨base, hb, rfl⟩)
            (fun path e hnone => hlive _ path e hscope
              ⟨c.threadId, base, hleads, hb, rfl, hnone⟩) hx hx'
    · cases leafOverride with
      | some leaf =>
        rw [localPathFrom_some] at hl hl'
        rw [hpath c leaf localPath hl] at hl'
        cases hl'
      | none => exact hlocal localPath e rfl hl hl'

/-- **What a thread inherits stays**, where the bases are the same, the branches still stand, and
the leaves it reads live have not moved. -/
theorem inheritedFrom_stable (hbase : source'.base = source.base)
    (hpath : ∀ c leaf path, source.branchPath c leaf = .ok path →
      source'.branchPath c leaf = .ok path)
    (hleaf : ∀ ancestor, source.ReadsLive c.threadId ancestor →
      source'.activeLeaf ancestor = source.activeLeaf ancestor)
    {r : List SessionEntry × List SessionContextSourceCut} (h : inheritedFrom source fuel c = .ok r) :
    inheritedFrom source' fuel c = .ok r := by
  unfold inheritedFrom at h ⊢
  rw [inheritedWith_ok] at h ⊢
  rcases h with ⟨hb, rfl⟩ | ⟨base, parent, hb, hc, hx, rfl⟩
  · exact .inl ⟨by rw [hbase, hb], rfl⟩
  · refine .inr ⟨base, parent, by rw [hbase, hb], hc, ?_, rfl⟩
    exact buildContextFrom_stable hbase hpath hleaf (.single ⟨base, hb, rfl⟩)
      (fun hnone => hleaf _ ⟨c.threadId, base, .refl, hb, rfl, hnone⟩) hx

end Stable

/-- The loop of `validate_in_memory_base_cycle` and `validate_sqlite_base_cycle`: walk the bases
up from `cursor`, refusing the child and any thread met twice. -/
def validateBaseCycleFrom (base : ThreadId → HistoryResult (Option ThreadBaseRef))
    (child : ThreadId) : Nat → Option ThreadId → List ThreadId → HistoryResult Unit
  | _,        none,        _       => .ok ()
  | 0,        some _,      _       => .error .diverged
  | fuel + 1, some thread, visited => do
    if thread = child ∨ thread ∈ visited then
      throw (.threadBaseCycle child thread)
    let parent ← base thread
    validateBaseCycleFrom base child fuel (parent.map (·.parentThreadId)) (thread :: visited)

end Verlet.History
