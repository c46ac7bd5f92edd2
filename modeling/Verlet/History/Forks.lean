import Verlet.History.InMemory.Journal
import Verlet.History.Sqlite.Sound

/-!
# History — Forks

What a forked thread inherits, over whole runs of either store.  A base that pins its leaf names a
branch, and branches do not change; a base that pins none reads its parent's live branch, which
moves with every entry appended to the parent.
-/

namespace Verlet.History
open Support

/-- The thread that `append`, `append_turn_input` or `select_branch` extends. -/
def Op.extends : Op → Option ThreadId
  | .append c _ _ _        => some c.threadId
  | .appendTurnInput c _ _ => some c.threadId
  | .selectBranch c _      => some c.threadId
  | _                      => none

/-- The operation extends a thread whose live branch `target` does not read. -/
def OffChain (source : ContextSource) (target : ThreadId) (op : Op) : Prop :=
  ∃ thread, op.extends = some thread ∧ ¬ source.ReadsLive target thread

/-- The entries that `build_context` inherits, and the messages they make. -/
def inheritedPart (source : ContextSource) (depth : Nat) (c : ThreadCoordinates) :
    HistoryResult (List SessionEntry × List CanonicalMessage) := do
  let fromParent ← inheritedFrom source depth c
  return (fromParent.1, appendModelVisibleMessages fromParent.1 [])

variable {source : ContextSource} {depth : Nat}

theorem inheritedPart_ok {c : ThreadCoordinates} {part : List SessionEntry × List CanonicalMessage} :
    inheritedPart source depth c = .ok part ↔ ∃ fromParent, inheritedFrom source depth c =
      .ok fromParent ∧ part = (fromParent.1, appendModelVisibleMessages fromParent.1 []) := by
  simp only [inheritedPart, bind_ok, pure_ok]
  exact exists_congr fun _ => and_congr_right fun _ => eq_comm

theorem entries_of_context {c : ThreadCoordinates} {context : SessionContext}
    {part : List SessionEntry × List CanonicalMessage}
    (hpart : inheritedPart source depth c = .ok part)
    (h : buildContextFrom source (depth + 1) c none false [] = .ok context) :
    ∃ branch, context.entries = stripEntries (part.1 ++ branch) := by
  obtain ⟨fromParent, hp, rfl⟩ := inheritedPart_ok.mp hpart
  obtain ⟨-, fromParent', branch, hp', -, rfl⟩ := buildContextFrom_ok.mp h
  obtain rfl : fromParent = fromParent' := Except.ok.inj (hp.symm.trans hp')
  exact ⟨branch, rfl⟩

theorem not_readsLive_of_pinned {bases : Map ThreadId ThreadBaseRef}
    (hbase : ∀ thread, source.base thread = .ok (bases.lookup thread))
    (h : ∀ base ∈ Map.values bases, base.parentLeafEntryId ≠ none) (thread ancestor : ThreadId) :
    ¬ source.ReadsLive thread ancestor := by
  rintro ⟨child, base, -, hb, -, hnone⟩
  rw [hbase, Except.ok.injEq] at hb
  exact h base (Map.mem_values.mpr ⟨child, hb⟩) hnone

/-! ### One call -/

variable {call : Call}

theorem InMemory.extends_step {s : InMemory.Inner} {thread : ThreadId}
    (hop : call.op.extends = some thread) :
    (InMemory.step call s).2.bases = s.bases ∧ ∀ thread', thread' ≠ thread →
      (InMemory.step call s).2.activeLeaf.lookup thread' = s.activeLeaf.lookup thread' := by
  rcases InMemory.step_cases s call with heq | ⟨reply, hok⟩
  · rw [heq]
    exact ⟨rfl, fun _ _ => rfl⟩
  · generalize (InMemory.step call s).2 = s' at hok
    cases hok with
    | append _ hentry _ | turnInput _ hentry _ =>
      cases hop
      subst hentry
      exact ⟨rfl, fun thread' hne => (Map.lookup_insert _ _ _ _).trans (if_neg hne)⟩
    | turnAgain => exact ⟨rfl, fun _ _ => rfl⟩
    | @selectBranch _ _ _ leaf =>
      cases hop
      cases leaf with
      | none => exact ⟨rfl, fun thread' hne => (Map.lookup_erase _ _ _).trans (if_neg hne)⟩
      | some l => exact ⟨rfl, fun thread' hne => (Map.lookup_insert _ _ _ _).trans (if_neg hne)⟩
    | cloneNone | cloneSome | fork | events | fenced => cases hop

theorem Sqlite.extends_step {Text : Type} (codec : Sqlite.Codec Text) {db : Sqlite.Db Text}
    (h : Sqlite.Counted db) {thread : ThreadId} (hop : call.op.extends = some thread) :
    (Sqlite.step codec call db).2.threadBases = db.threadBases ∧ ∀ thread', thread' ≠ thread →
      (Sqlite.step codec call db).2.activeLeaves.lookup thread' =
        db.activeLeaves.lookup thread' := by
  rcases Sqlite.step_cases h call with heq | ⟨reply, hok⟩
  · rw [heq]
    exact ⟨rfl, fun _ _ => rfl⟩
  · generalize (Sqlite.step codec call db).2 = db' at hok
    cases hok with
    | append _ hentry _ _ | turnInput _ _ hentry _ _ =>
      cases hop
      subst hentry
      exact ⟨rfl, fun thread' hne => (Map.lookup_insert _ _ _ _).trans (if_neg hne)⟩
    | turnAgain => exact ⟨rfl, fun _ _ => rfl⟩
    | @selectBranch _ _ _ leaf =>
      cases hop
      cases leaf with
      | none => exact ⟨rfl, fun thread' hne => (Map.lookup_erase _ _ _).trans (if_neg hne)⟩
      | some l => exact ⟨rfl, fun thread' hne => (Map.lookup_insert _ _ _ _).trans (if_neg hne)⟩
    | cloneNone | cloneSome | fork | events | fenced => cases hop

section Part

variable {c : ThreadCoordinates} {part : List SessionEntry × List CanonicalMessage}

theorem inheritedPart_stable {source' : ContextSource} (hbase : source'.base = source.base)
    (hpath : ∀ c leaf path, source.branchPath c leaf = .ok path →
      source'.branchPath c leaf = .ok path)
    (hleaf : ∀ ancestor, source.ReadsLive c.threadId ancestor →
      source'.activeLeaf ancestor = source.activeLeaf ancestor)
    (h : inheritedPart source depth c = .ok part) : inheritedPart source' depth c = .ok part := by
  obtain ⟨fromParent, hp, rfl⟩ := inheritedPart_ok.mp h
  exact inheritedPart_ok.mpr ⟨fromParent, inheritedFrom_stable hbase hpath hleaf hp, rfl⟩

theorem InMemory.inheritedPart_step {s : InMemory.Inner} (hfresh : InMemory.Fresh s call)
    (hoff : OffChain s.source c.threadId call.op)
    (h : inheritedPart s.source (Map.size s.bases) c = .ok part) :
    inheritedPart (InMemory.step call s).2.source (Map.size (InMemory.step call s).2.bases) c =
      .ok part := by
  obtain ⟨thread, hop, hlive⟩ := hoff
  obtain ⟨hbases, hleaves⟩ := InMemory.extends_step (s := s) hop
  rw [hbases]
  refine inheritedPart_stable ?_ (fun c leaf path => ?_) (fun ancestor hread => ?_) h
  · simp only [InMemory.Inner.source, hbases]
  · exact InMemory.branchPath_of_entries fun _ _ _ => InMemory.entryAt_step hfresh
  · have hne : ancestor ≠ thread := by
      rintro rfl
      exact hlive hread
    exact congrArg Except.ok (hleaves ancestor hne)

theorem Sqlite.inheritedPart_step {Text : Type} {codec : Sqlite.Codec Text} {db : Sqlite.Db Text}
    (hs : Sqlite.Sound db) (hoff : OffChain (db.source codec) c.threadId call.op)
    (h : inheritedPart (db.source codec) (Map.size db.threadBases) c = .ok part) :
    inheritedPart ((Sqlite.step codec call db).2.source codec)
      (Map.size (Sqlite.step codec call db).2.threadBases) c = .ok part := by
  obtain ⟨thread, hop, hlive⟩ := hoff
  obtain ⟨hbases, hleaves⟩ := Sqlite.extends_step codec hs.counted hop
  have hrows : db.sessionEntries <+: (Sqlite.step codec call db).2.sessionEntries :=
    Sqlite.sessionEntries_step hs.counted call
  rw [hbases]
  refine inheritedPart_stable ?_ (fun c leaf path => ?_) (fun ancestor hread => ?_) h
  · simp only [Sqlite.Db.source, hbases]
  · exact Sqlite.sqliteBranchPath_mono hrows
  · have hne : ancestor ≠ thread := by
      rintro rfl
      exact hlive hread
    have hentry : Sqlite.sqliteActiveLeafEntry codec (Sqlite.step codec call db).2 ancestor =
        Sqlite.sqliteActiveLeafEntry codec db ancestor := by
      unfold Sqlite.sqliteActiveLeafEntry
      rw [hleaves ancestor hne]
      cases hl : db.activeLeaves.lookup ancestor with
      | none => rfl
      | some leaf => exact Sqlite.sqliteLoadEntry_mono hrows (hs.leaves ancestor leaf hl)
    simp only [Sqlite.Db.source, hentry]

end Part

/-! ### Whole runs -/

/-- A store keeps what its forks inherit: after any calls and a fork that is admitted, whatever
the target inherits then, it still inherits after later calls that extend threads it does not read
live; and what it inherits is where its context starts. -/
def KeepsForks {σ : Type} (step : Call → σ → HistoryResult Reply × σ) (init : σ)
    (admits : σ → Call → Prop) (source : σ → ContextSource) (depth : σ → Nat) : Prop :=
  ∀ (earlier later : List Call) (epoch : Nat) (draws : Nat → Draw)
    (parent target : ThreadCoordinates) (base : ThreadBaseRef) (reply : Reply) (s : σ)
    (part : List SessionEntry × List CanonicalMessage),
    Along step admits earlier init →
    step ⟨epoch, draws, .forkByReference parent target base⟩ (run step earlier init) =
      (.ok reply, s) →
    Along step (fun s call => admits s call ∧ OffChain (source s) target.threadId call.op) later s →
    inheritedPart (source s) (depth s) target = .ok part →
      inheritedPart (source (run step later s)) (depth (run step later s)) target = .ok part ∧
      ∀ context, buildContextFrom (source (run step later s)) (depth (run step later s) + 1) target
        none false [] = .ok context → ∃ branch, context.entries = stripEntries (part.1 ++ branch)

theorem keepsForks_of_step {σ : Type} {step : Call → σ → HistoryResult Reply × σ} {init : σ}
    {admits : σ → Call → Prop} {source : σ → ContextSource} {depth : σ → Nat} (P : σ → Prop)
    (hinit : P init) (hstep : ∀ s call, P s → P (step call s).2)
    (hpart : ∀ s call (target : ThreadCoordinates) part, P s → admits s call →
      OffChain (source s) target.threadId call.op →
      inheritedPart (source s) (depth s) target = .ok part →
        inheritedPart (source (step call s).2) (depth (step call s).2) target = .ok part) :
    KeepsForks step init admits source depth := by
  intro earlier later epoch draws parent target base reply s part _ hfork hlater h
  have hs : P s := by
    have := hstep _ ⟨epoch, draws, .forkByReference parent target base⟩
      (run_invariant hstep earlier hinit)
    rwa [hfork] at this
  have hkept : P (run step later s) ∧
      inheritedPart (source (run step later s)) (depth (run step later s)) target = .ok part :=
    hlater.invariant
      (P := fun s => P s ∧ inheritedPart (source s) (depth s) target = .ok part)
      (fun s call hp hc => ⟨hstep s call hp.1, hpart s call target part hp.1 hc.1 hc.2 hp.2⟩)
      ⟨hs, h⟩
  exact ⟨hkept.2, fun context hx => entries_of_context hkept.2 hx⟩

/-- **Fork isolation.**  In either store, what a forked thread inherits stays exactly what it was
right after the fork, for all later `append`, `append_with_provenance`, `append_turn_input` and
`select_branch` calls on threads that no base on its chain reads live. -/
theorem fork_isolation {Text : Type} (codec : Sqlite.Codec Text) :
    KeepsForks InMemory.step .empty InMemory.Fresh InMemory.Inner.source
      (fun s => Map.size s.bases) ∧
    KeepsForks (Sqlite.step codec) .empty (fun _ _ => True) (Sqlite.Db.source codec)
      (fun db => Map.size db.threadBases) := by
  constructor
  · exact keepsForks_of_step (fun _ => True) trivial (fun _ _ _ => trivial)
      fun s call target part _ hfresh hoff h => InMemory.inheritedPart_step hfresh hoff h
  · exact keepsForks_of_step Sqlite.Sound Sqlite.sound_empty (fun _ call hs => hs.step call)
      fun db call target part hs _ hoff h => Sqlite.inheritedPart_step hs hoff h

/-! ### Samples -/

/-- One entry in thread 1. -/
def sampleEarlier : List Call :=
  [.counted 0 1 (.append (.counted "user" 1) none (.said "first") none)]

/-- Fork thread 1 into thread 2, at a leaf or at none. -/
def sampleFork (leaf : Option SessionEntryId) : Call :=
  .counted 0 2 (.forkByReference (.counted "user" 1) (.counted "user" 2) (.counted 1 2 leaf))

/-- Another entry in thread 1. -/
def sampleLater : List Call :=
  [.counted 0 3 (.append (.counted "user" 1) none (.said "second") none)]

/-- What thread 2 inherits: the entry there was when it was forked. -/
def samplePart : List SessionEntry × List CanonicalMessage :=
  ([.new (.counted 1) (.counted "user" 1) none (.said "first")], [.userTextAt "first" 0])

/-- The in-memory store right after the sample fork. -/
def sampleInner (leaf : Option SessionEntryId) : InMemory.Inner :=
  run InMemory.step (sampleEarlier ++ [sampleFork leaf]) .empty

/-- The database right after the sample fork. -/
def sampleDb (leaf : Option SessionEntryId) : Sqlite.Db Sqlite.Stored :=
  run (Sqlite.step .tagged) (sampleEarlier ++ [sampleFork leaf]) .empty

def sampleIds (source : ContextSource) : HistoryResult (List SessionEntryId) :=
  (inheritedPart source 1 (.counted "user" 2)).map fun part => part.1.map (·.entryId)

set_option maxRecDepth 100000 in
/-- A fork that pins no leaf takes up what is later appended to its parent, in either store. -/
theorem unpinned_fork_moves :
    (InMemory.step (sampleFork none) (run InMemory.step sampleEarlier .empty)).1 = .ok .unit ∧
    sampleIds (sampleInner none).source = .ok [.counted 1] ∧
    sampleIds (run InMemory.step sampleLater (sampleInner none)).source =
      .ok [.counted 1, .counted 3] ∧
    (Sqlite.step .tagged (sampleFork none) (run (Sqlite.step .tagged) sampleEarlier .empty)).1 =
      .ok .unit ∧
    sampleIds ((sampleDb none).source .tagged) = .ok [.counted 1] ∧
    sampleIds ((run (Sqlite.step .tagged) sampleLater (sampleDb none)).source .tagged) =
      .ok [.counted 1, .counted 3] := by
  decide

set_option maxRecDepth 100000 in
/-- A fork that pins its leaf does not. -/
theorem fork_isolation_pinned :
    inheritedPart (run InMemory.step sampleLater (sampleInner (some (.counted 1)))).source
      (Map.size (run InMemory.step sampleLater (sampleInner (some (.counted 1)))).bases)
      (.counted "user" 2) = .ok samplePart ∧
    inheritedPart
      ((run (Sqlite.step .tagged) sampleLater (sampleDb (some (.counted 1)))).source .tagged)
      (Map.size (run (Sqlite.step .tagged) sampleLater (sampleDb (some (.counted 1)))).threadBases)
      (.counted "user" 2) = .ok samplePart := by
  constructor
  · refine ((fork_isolation .tagged).1 sampleEarlier sampleLater 0 _ _ (.counted "user" 2) _ .unit
      (sampleInner (some (.counted 1))) samplePart (by decide)
      (Prod.ext (by decide) rfl) ⟨⟨by decide, _, rfl, ?_⟩, trivial⟩
      (by decide)).1
    exact not_readsLive_of_pinned (fun _ => rfl) (by decide) _ _
  · refine ((fork_isolation .tagged).2 sampleEarlier sampleLater 0 _ _ (.counted "user" 2) _ .unit
      (sampleDb (some (.counted 1))) samplePart ⟨trivial, trivial⟩
      (Prod.ext (by decide) rfl) ⟨⟨trivial, _, rfl, ?_⟩, trivial⟩ (by decide)).1
    exact not_readsLive_of_pinned (fun _ => rfl) (by decide) _ _

end Verlet.History
