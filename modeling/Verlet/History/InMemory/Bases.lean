import Verlet.History.InMemory.Clones

/-!
# History — In-memory store — The graph of bases

A thread's base names its parent.  A fork sets the base of its target, of a new thread or of one that
has a base already, once the parent was seen not to lead back; a clone takes the base of its target
away.

* `Grounded.build_error`: no context, which is built along the bases, is refused for a circle.
-/

namespace Verlet.History.InMemory
open Support Relation

/-- The base of `child` is on `parent`. -/
def Up (s : Inner) (child parent : ThreadId) : Prop :=
  ∃ base, s.bases.lookup child = some base ∧ base.parentThreadId = parent

/-- Following the bases ends, from any thread. -/
def Grounded (s : Inner) : Prop := WellFounded fun parent child => Up s child parent

variable {s : Inner}

theorem Grounded.not_transGen (h : Grounded s) (thread : ThreadId) :
    ¬ TransGen (Up s) thread thread := by
  intro hcycle
  have hself : TransGen (fun parent child => Up s child parent) thread thread :=
    transGen_swap.mp hcycle
  exact (WellFounded.transGen h).irrefl.irrefl thread hself

theorem Grounded.mono {s' : Inner} (h : Grounded s)
    (hle : ∀ child parent, Up s' child parent → Up s child parent) : Grounded s' :=
  Subrelation.wf (fun hup => hle _ _ hup) h

/-! ### What the check of a fork says -/

variable {fuel : Nat}

theorem not_leads_of_validated {child : ThreadId} {cursor : ThreadId} {visited : List ThreadId}
    (h : validateBaseCycleFrom (fun thread => .ok (s.bases.lookup thread)) child fuel (some cursor)
      visited = .ok ()) : ¬ ReflTransGen (Up s) cursor child := by
  induction fuel generalizing cursor visited with
  | zero => cases h
  | succ fuel ih =>
    rw [validateBaseCycleFrom] at h
    by_cases hmet : cursor = child ∨ cursor ∈ visited
    · rw [if_pos hmet] at h
      cases h
    · rw [if_neg hmet] at h
      intro hleads
      rcases hleads.cases_head with heq | ⟨parent, ⟨base, hbase, rfl⟩, hrest⟩
      · exact hmet (.inl heq)
      · refine @ih base.parentThreadId (cursor :: visited) ?_ hrest
        simpa [bind, Except.bind, pure, Except.pure, hbase] using h

/-- **The check ends.**  What it has met are threads with a base, each once. -/
theorem validate_ne_diverged {child : ThreadId} {cursor : Option ThreadId} {visited : List ThreadId}
    (hnodup : visited.Nodup) (hbased : ∀ thread ∈ visited, (s.bases.lookup thread).isSome)
    (hfuel : fuel + visited.length = Map.size s.bases + 2) :
    validateBaseCycleFrom (fun thread => .ok (s.bases.lookup thread)) child fuel cursor visited ≠
      .error .diverged := by
  induction fuel generalizing cursor visited with
  | zero =>
    have := Map.length_le_size hnodup hbased
    omega
  | succ fuel ih =>
    cases cursor with
    | none => exact nofun
    | some cursor =>
      rw [validateBaseCycleFrom]
      by_cases hmet : cursor = child ∨ cursor ∈ visited
      · rw [if_pos hmet]
        exact nofun
      · rw [if_neg hmet]
        cases hbase : s.bases.lookup cursor with
        | none =>
          simp only [bind, Except.bind, Option.map_none]
          cases fuel <;> exact nofun
        | some base =>
          have hmore : ∀ thread ∈ cursor :: visited, (s.bases.lookup thread).isSome := by
            simpa [hbase] using hbased
          have := @ih (some base.parentThreadId) (cursor :: visited)
            (List.nodup_cons.mpr ⟨fun hmem => hmet (.inr hmem), hnodup⟩) hmore
            (by rw [List.length_cons]; omega)
          simpa [bind, Except.bind, pure, Except.pure, hbase] using this

/-! ### The calls -/

theorem Grounded.setBase (h : Grounded s) {target : ThreadId} {base : ThreadBaseRef}
    (hback : ¬ ReflTransGen (Up s) base.parentThreadId target) :
    Grounded (s.setBase target base) := by
  have hother : ∀ {child parent}, child ≠ target →
      Up (s.setBase target base) child parent → Up s child parent := by
    rintro child parent hne ⟨base', hbase', rfl⟩
    rw [bases_setBase, Map.lookup_insert, if_neg hne] at hbase'
    exact ⟨base', hbase', rfl⟩
  -- what does not lead to the target has its old bases above it
  have hclear : ∀ child, ¬ ReflTransGen (Up s) child target →
      Acc (fun parent child => Up (s.setBase target base) child parent) child := by
    intro child
    induction child using h.induction with
    | _ child ih =>
      refine fun hchild => .intro child fun parent hup => ?_
      have hup := hother (fun heq => hchild (heq ▸ .refl)) hup
      exact ih parent hup fun hparent => hchild (.head hup hparent)
  have htarget : Acc (fun parent child => Up (s.setBase target base) child parent) target := by
    refine .intro target fun parent ⟨base', hbase', hparent⟩ => ?_
    rw [bases_setBase, Map.lookup_insert, if_pos rfl] at hbase'
    obtain rfl := Option.some.inj hbase'
    exact hclear parent (hparent ▸ hback)
  refine ⟨fun child => ?_⟩
  induction child using h.induction with
  | _ child ih =>
    by_cases heq : child = target
    · exact heq ▸ htarget
    · exact .intro child fun parent hup => ih parent (hother heq hup)

theorem Grounded.clearBase (h : Grounded s) (target : ThreadId) :
    Grounded (s.clearBase target) := by
  refine h.mono ?_
  rintro child parent ⟨base, hbase, rfl⟩
  rw [bases_clearBase, Map.lookup_erase] at hbase
  split at hbase
  · cases hbase
  · exact ⟨base, hbase, rfl⟩

theorem Grounded.of_bases {s' : Inner} (h : Grounded s) (hbases : s'.bases = s.bases) :
    Grounded s' :=
  h.mono fun _ _ ⟨base, hbase, hparent⟩ => ⟨base, hbases ▸ hbase, hparent⟩

theorem grounded_empty : Grounded .empty :=
  ⟨fun thread => .intro thread fun _ ⟨_, hbase, _⟩ => by cases hbase⟩

/-- **No call closes a circle.** -/
theorem Grounded.step (h : Grounded s) (call : Call) : Grounded (step call s).2 := by
  rcases step_cases s call with hsame | ⟨reply, hstep⟩
  · rwa [hsame]
  · generalize (InMemory.step call s).2 = s' at hstep ⊢
    cases hstep with
    | append | turnInput => exact h.of_bases rfl
    | turnAgain => exact h
    | selectBranch => exact h.of_bases (by cases ‹Option SessionEntryId› <;> simp [Inner.moveLeaf])
    | cloneNone => exact h.clearBase _
    | @cloneSome _ _ _ _ target =>
      exact (h.clearBase target.threadId).of_bases (by simp [Inner.takeClone])
    | fork hbase hcycle hleaf =>
      have hparent := (validateThreadBaseRef_ok.mp hbase).2.1
      refine (Grounded.of_bases h rfl).setBase ?_
      rw [hparent]
      exact not_leads_of_validated hcycle
    | events | fenced => exact h.of_bases (by simp)

/-! ### Contexts -/

/-- The failures that a circle of bases would make. -/
def Circular (e : HistoryError) : Prop :=
  e = .diverged ∨ ∃ child ancestor, e = .threadBaseCycle child ancestor

variable {c : ThreadCoordinates} {e : HistoryError}

theorem loadEntry_not_circular {entriesById : Map SessionEntryId SessionEntry} {id : SessionEntryId}
    (h : loadEntry entriesById c id = .error e) : ¬ Circular e := by
  unfold loadEntry validateEntryCoordinates at h
  cases hk : entriesById.lookup id with
  | none =>
    rw [hk] at h
    cases h
    simp [Circular]
  | some entry =>
    simp only [hk, okOr_some, bind, Except.bind, pure, Except.pure] at h
    split_ifs at h <;> cases h <;> simp [Circular]

variable {leafOverride : Option SessionEntryId}

theorem localPath_not_circular (hs : Sound s) (h : localPathFrom s.source c leafOverride = .error e) :
    ¬ Circular e := by
  have hbranch : ∀ leaf, s.branchPath c leaf = .error e → ¬ Circular e := by
    intro leaf hleaf
    rcases Inner.branchPath_error hleaf with rfl | rfl | ⟨_, _, -, hload⟩
    · exact absurd hleaf (hs.branchPath_ne_diverged c leaf)
    · simp [Circular]
    · exact loadEntry_not_circular hload
  cases leafOverride with
  | some leaf => exact hbranch leaf h
  | none =>
    rcases localPathFrom_none_error h with hnone | ⟨leaf, -, hleaf⟩
    · cases hnone
    · exact hbranch leaf hleaf

/-- **A context is not refused for a circle.**  The threads on the way to it lead to it, have a base,
and are met once each. -/
theorem Grounded.build_not_circular (h : Grounded s) (hs : Sound s) {inherited : Bool}
    {visiting : List ThreadId} (hnodup : visiting.Nodup)
    (hbased : ∀ thread ∈ visiting, (s.bases.lookup thread).isSome)
    (hleads : ∀ thread ∈ visiting, TransGen (Up s) thread c.threadId)
    (hfuel : fuel + visiting.length = Map.size s.bases + 1)
    (hx : buildContextFrom s.source fuel c leafOverride inherited visiting = .error e) :
    ¬ Circular e := by
  induction fuel generalizing c leafOverride inherited visiting with
  | zero =>
    have := Map.length_le_size hnodup hbased
    omega
  | succ fuel ih =>
    have hnew : c.threadId ∉ visiting := fun hmem => h.not_transGen _ (hleads _ hmem)
    rw [buildContextFrom, if_neg hnew] at hx
    rcases bind_error.mp hx with hx | ⟨fromParent, -, hx⟩
    · rcases inheritedWith_error hx with hbase | ⟨base, hbase, rfl | hparent⟩
      · cases hbase
      · simp [Circular]
      · have hup : Up s c.threadId base.parentThreadId := ⟨base, Except.ok.inj hbase, rfl⟩
        refine ih (List.nodup_cons.mpr ⟨hnew, hnodup⟩) ?_ ?_
          (by rw [List.length_cons]; omega) hparent
        · exact List.forall_mem_cons.mpr ⟨by rw [Except.ok.inj hbase]; rfl, hbased⟩
        · exact List.forall_mem_cons.mpr ⟨.single hup, fun thread hmem => (hleads _ hmem).tail hup⟩
    · rcases bind_error.mp hx with hx | ⟨_, -, hx⟩
      · exact localPath_not_circular hs hx
      · cases hx

/-! ### Source cuts -/

/-- The cuts of a context are its entries, part by part: what the thread leads to is inherited, and its
own branch is not. -/
structure CutsOf (s : Inner) (c : ThreadCoordinates) (inherited : Bool) (context : SessionContext) :
    Prop where
  ids : context.sourceCuts.flatMap (·.entryIds) = context.entries.map (·.entryId)
  marks : ∀ cut ∈ context.sourceCuts,
    (cut.coordinates = c ∧ cut.inherited = inherited) ∨
      (TransGen (Up s) c.threadId cut.coordinates.threadId ∧ cut.inherited = true)
  kept : ∀ entry ∈ context.entries, sessionEntryIsThreadStartIdentity entry = false

variable {entries : List SessionEntry}

theorem flatMap_stripSourceCuts {cuts : List SessionContextSourceCut}
    (h : cuts.flatMap (·.entryIds) = entries.map (·.entryId)) :
    (stripSourceCuts entries cuts).flatMap (·.entryIds) =
      (stripEntries entries).map (·.entryId) := by
  unfold stripSourceCuts stripEntries
  generalize (entries.filter sessionEntryIsThreadStartIdentity).map (·.entryId) = ids
  have hfiltered : (entries.filter fun entry => entry.entryId ∉ ids).map (·.entryId) =
      (cuts.flatMap (·.entryIds)).filter (· ∉ ids) := by
    rw [h, List.filter_map]
    rfl
  have hempty : ∀ cuts : List SessionContextSourceCut,
      (cuts.filter fun cut => ¬ cut.entryIds.isEmpty).flatMap (·.entryIds) =
        cuts.flatMap (·.entryIds) := by
    intro cuts
    induction cuts with
    | nil => rfl
    | cons cut cuts ih =>
      cases hids : cut.entryIds <;> simp_all
  simp only [hfiltered]
  split
  · next hnone =>
    rw [List.isEmpty_iff.mp hnone]
    simp
  · rw [hempty, List.flatMap_map, List.filter_flatMap]

theorem mem_stripSourceCuts {cuts : List SessionContextSourceCut} {cut : SessionContextSourceCut}
    (h : cut ∈ stripSourceCuts entries cuts) :
    ∃ cut' ∈ cuts, cut.coordinates = cut'.coordinates ∧ cut.inherited = cut'.inherited := by
  dsimp only [stripSourceCuts] at h
  split at h
  · exact ⟨cut, h, rfl, rfl⟩
  · obtain ⟨cut', hcut', rfl⟩ := List.mem_map.mp (List.mem_of_mem_filter h)
    exact ⟨cut', hcut', rfl, rfl⟩

theorem not_identity_of_mem_stripEntries {entry : SessionEntry} (h : entry ∈ stripEntries entries) :
    sessionEntryIsThreadStartIdentity entry = false := by
  obtain ⟨hmem, hkept⟩ := List.mem_filter.mp h
  by_contra hidentity
  rw [Bool.not_eq_false] at hidentity
  simp only [decide_eq_true_eq] at hkept
  exact hkept (List.mem_map_of_mem (List.mem_filter.mpr ⟨hmem, hidentity⟩))

theorem cutsOf_build {inherited : Bool} {visiting : List ThreadId} {context : SessionContext}
    (h : buildContextFrom s.source fuel c leafOverride inherited visiting = .ok context) :
    CutsOf s c inherited context := by
  induction fuel generalizing c leafOverride inherited visiting context with
  | zero => cases h
  | succ fuel ih =>
    obtain ⟨-, fromParent, localPath, hp, -, rfl⟩ := buildContextFrom_ok.mp h
    have hparent : fromParent.2.flatMap (·.entryIds) = fromParent.1.map (·.entryId) ∧
        ∀ cut ∈ fromParent.2,
          TransGen (Up s) c.threadId cut.coordinates.threadId ∧ cut.inherited = true := by
      rcases inheritedWith_ok.mp hp with ⟨-, rfl⟩ | ⟨base, parent, hbase, -, hx, rfl⟩
      · exact ⟨rfl, nofun⟩
      · have hup : Up s c.threadId base.parentThreadId := ⟨base, Except.ok.inj hbase, rfl⟩
        refine ⟨(ih hx).ids, fun cut hcut => ?_⟩
        rcases (ih hx).marks cut hcut with ⟨hown, hmark⟩ | ⟨habove, hmark⟩
        · exact ⟨hown ▸ .single hup, hmark⟩
        · exact ⟨.head hup habove, hmark⟩
    refine ⟨flatMap_stripSourceCuts ?_, fun cut hcut => ?_,
      fun entry hentry => not_identity_of_mem_stripEntries hentry⟩
    · split
      · next hnone =>
        rw [List.isEmpty_iff.mp hnone, List.append_nil]
        exact hparent.1
      · simp [hparent.1]
    · obtain ⟨cut', hcut', hcoordinates, hmark⟩ := mem_stripSourceCuts hcut
      rw [hcoordinates, hmark]
      split at hcut'
      · exact .inr (hparent.2 cut' hcut')
      · rcases List.mem_append.mp hcut' with hcut' | hcut'
        · exact .inr (hparent.2 cut' hcut')
        · obtain rfl := List.mem_singleton.mp hcut'
          exact .inl ⟨rfl, rfl⟩

/-! ### Whole runs -/

/-- **The graph of bases stays acyclic.**  After any calls, following the bases comes to no thread twice;
the check of a fork and the building of a context end, and no context is refused for a circle.  The
source cuts of a context list its entries in order, those of its ancestors as inherited and its own as
not, and neither has a start of a thread. -/
theorem base_graph_acyclic (calls : List Call) (hfresh : Along step Fresh calls .empty) :
    let s := run step calls .empty
    (∀ thread, ¬ TransGen (Up s) thread thread) ∧
    (∀ child parent, validateInMemoryBaseCycle s child parent ≠ .error .diverged) ∧
    (∀ c leaf, buildInMemoryContext s c leaf ≠ .error .diverged ∧
      ∀ child ancestor, buildInMemoryContext s c leaf ≠ .error (.threadBaseCycle child ancestor)) ∧
    ∀ c leaf context, buildInMemoryContext s c leaf = .ok context →
      context.sourceCuts.flatMap (·.entryIds) = context.entries.map (·.entryId) ∧
      (∀ cut ∈ context.sourceCuts,
        if cut.inherited then TransGen (Up s) c.threadId cut.coordinates.threadId
        else cut.coordinates = c) ∧
      (∀ entry ∈ context.entries, sessionEntryIsThreadStartIdentity entry = false) ∧
      ∀ cut ∈ context.sourceCuts, ∀ id ∈ cut.entryIds, ∀ thread entry,
        s.entryAt thread id = some entry → sessionEntryIsThreadStartIdentity entry = false := by
  intro s
  obtain ⟨hs, hfiled, hgrounded⟩ : Sound s ∧ Filed s ∧ Grounded s :=
    hfresh.invariant (P := fun s => Sound s ∧ Filed s ∧ Grounded s)
      (fun s call h hfresh => ⟨h.1.step hfresh, h.2.1.step hfresh, h.2.2.step call⟩)
      ⟨sound_empty, filed_empty, grounded_empty⟩
  have hbuild : ∀ c leaf e, buildInMemoryContext s c leaf = .error e → ¬ Circular e :=
    fun c leaf e hx => hgrounded.build_not_circular hs List.nodup_nil nofun nofun rfl hx
  refine ⟨hgrounded.not_transGen, fun child parent => ?_, fun c leaf => ⟨fun hx => ?_,
    fun child ancestor hx => ?_⟩, fun c leaf context hx => ?_⟩
  · exact validate_ne_diverged List.nodup_nil nofun rfl
  · exact hbuild c leaf _ hx (.inl rfl)
  · exact hbuild c leaf _ hx (.inr ⟨child, ancestor, rfl⟩)
  · have hcuts := cutsOf_build hx
    refine ⟨hcuts.ids, fun cut hcut => ?_, hcuts.kept, fun cut hcut id hid thread entry hentry => ?_⟩
    · rcases hcuts.marks cut hcut with ⟨hown, hmark⟩ | ⟨habove, hmark⟩
      · simp [hmark, hown]
      · simp [hmark, habove]
    · have hlisted : id ∈ context.entries.map (·.entryId) :=
        hcuts.ids ▸ List.mem_flatMap.mpr ⟨cut, hcut, hid⟩
      obtain ⟨entry', hentry', rfl⟩ := List.mem_map.mp hlisted
      have hkeyed := (hs.forest.keyed _ _ _ hentry).1
      obtain rfl := hfiled.unique ⟨thread, hkeyed ▸ hentry⟩ (stored_of_context hs hx hentry') hkeyed
      exact hcuts.kept entry hentry'

/-- A thread that was forked is forked again, off a thread that was cloned. -/
def sampleRewired : List Call :=
  sampleForked ++ [sampleClone, .counted 0 6 (.forkByReference (.counted "user" 3) (.counted "user" 2)
    (.counted 3 2 none))]

set_option maxRecDepth 100000 in
theorem base_graph_acyclic_rewired :
    (run step sampleRewired .empty).bases.lookup (ThreadCoordinates.counted "user" 2).threadId =
      some (.counted 3 2 none) ∧
    ¬ TransGen (Up (run step sampleRewired .empty)) (ThreadCoordinates.counted "user" 2).threadId
      (ThreadCoordinates.counted "user" 2).threadId :=
  ⟨by decide, (base_graph_acyclic sampleRewired (by decide)).1 _⟩

end Verlet.History.InMemory
