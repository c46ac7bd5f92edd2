import Verlet.Kernel.RuntimeHost.ForkRecovery
import Verlet.Kernel.RuntimeHost.ThreadStarts.Ownership

/-!
# Kernel — The runtime host — Fork recovery — Phases

How far the forks of a child got, as the store tells: nothing of the child is there yet, its branch is
cloned, or its start is recorded as well.  From the clone on, the checkpoint is settled.

* `At.quiet`: so do the calls that neither write the store nor publish a thread.
* `Branched.appended`, `Blank.cloned`: what the two writes of a fork lead to.
-/

namespace Verlet.Kernel
open Support History History.InMemory

/-- The parent and the child of a fork. -/
structure ForkPlan where
  parent : ThreadCoordinates
  child : ThreadId
  apart : child ≠ parent.threadId

structure BranchClone where
  source : ThreadCoordinates
  sourceLeaf : Option SessionEntryId
  target : ThreadCoordinates

/-- The store, the host's maps, and the clones that forks made. -/
structure ForkWorld (ι : Type) where
  inner : Inner
  maps : HostMaps ι
  clones : List BranchClone

variable {phase : Phase}

namespace ForkPlan

variable {ι : Type} (plan : ForkPlan)

def coordinates : ThreadCoordinates := { plan.parent with threadId := plan.child }

def stream : EventStreamId := .forThread plan.coordinates

/-- `create_checkpoint` made the checkpoint of the parent. -/
def Made (s : Inner) (checkpoint : ThreadCheckpoint) : Prop :=
  checkpoint.coordinates = plan.parent ∧ ∃ leaf entry, checkpoint.activeEntryId = some leaf ∧
    s.entryAt plan.parent.threadId leaf = some entry ∧ IsCheckpoint checkpoint entry

/-- The context of a fork that the child's events record. -/
def Recorded (s : Inner) (context : ThreadContext) : Prop :=
  durableStart plan.coordinates plan.parent.threadId (s.eventsOf plan.stream).reverse =
    some (some context)

/-! ### The others -/

/-- A call of another party: it leaves the parent's history honest, and the child's alone, or, once
the child's start is recorded, at least records no start in it. -/
structure Bystander (s : Inner) (call : Call) : Prop where
  fresh : InMemory.Fresh s call
  parent : ∀ id entry, (InMemory.step call s).2.entryAt plan.parent.threadId id = some entry →
    Honest plan.parent.threadId entry.kind
  child : ¬ targets plan.child call.op ∨ (∃ context, plan.Recorded s context) ∧
    ∀ new, (InMemory.step call s).2.eventsOf plan.stream = s.eventsOf plan.stream ++ new →
      ∀ event ∈ new, isThreadStarted event = false

/-- What goes on around a fork: other calls of the store, and changes of the host's maps, among them
their loss in a crash.  A thread that is registered under the child's id is one that was, or is loaded
with the start that is recorded. -/
inductive Others : ForkWorld ι → ForkWorld ι → Prop
  | store {w : ForkWorld ι} {call : Call} (h : plan.Bystander w.inner call) :
      Others w { w with inner := (InMemory.step call w.inner).2 }
  | host {w : ForkWorld ι} {maps : HostMaps ι}
      (h : ∀ thread, maps.threads.lookup plan.child = some thread →
        w.maps.threads.lookup plan.child = some thread ∨ plan.Recorded w.inner thread.context) :
      Others w { w with maps := maps }

/-! ### The phases -/

/-- The store is sound, and the parent's history honest. -/
structure Kept (s : Inner) : Prop where
  sound : Sound s
  honest : ∀ id entry, s.entryAt plan.parent.threadId id = some entry →
    Honest plan.parent.threadId entry.kind

def cloneOf (draws : Nat → Draw) (path : List SessionEntry) : List EventRecord :=
  numbered plan.stream 0 (cloneEvents draws (cloneEntries draws plan.coordinates path 0 none))

/-- The child's events are those of a clone of the parent's branch at the checkpoint, and then
these. -/
def Holds (s : Inner) (checkpoint : ThreadCheckpoint) (rest : List EventRecord) : Prop :=
  ∃ leaf path draws, checkpoint.activeEntryId = some leaf ∧
    s.branchPath plan.parent leaf = .ok path ∧
    s.eventsOf plan.stream = plan.cloneOf draws path ++ rest

/-- Nothing of the child is there. -/
structure Blank (w : ForkWorld ι) : Prop where
  kept : plan.Kept w.inner
  clones : w.clones = []
  events : w.inner.eventsOf plan.stream = []
  leaf : w.inner.activeLeaf.lookup plan.child = none
  registered : w.maps.threads.lookup plan.child = none

variable (offered : ThreadCheckpoint → Prop)

/-- One checkpoint was cloned, and a thread that is registered is the fork at it. -/
structure Branched (checkpoint : ThreadCheckpoint) (rest : List EventRecord) (w : ForkWorld ι) :
    Prop where
  kept : plan.Kept w.inner
  offered : offered checkpoint
  made : plan.Made w.inner checkpoint
  clones : w.clones = [⟨plan.parent, checkpoint.activeEntryId, plan.coordinates⟩]
  events : plan.Holds w.inner checkpoint rest
  registered : ∀ thread, w.maps.threads.lookup plan.child = some thread →
    thread.context = desiredContext checkpoint plan.child

/-- The branch is cloned, and nothing else is there: it ends at the checkpoint. -/
structure Unstarted (checkpoint : ThreadCheckpoint) (w : ForkWorld ι) : Prop where
  branched : plan.Branched offered checkpoint [] w
  base : w.inner.bases.lookup plan.child = none
  leaf : ∃ last, w.inner.activeLeaf.lookup plan.child = some last.entryId ∧
    w.inner.entryAt plan.child last.entryId = some last ∧ IsCheckpoint checkpoint last

/-- The start is recorded, once. -/
structure Started (checkpoint : ThreadCheckpoint) (w : ForkWorld ι) : Prop where
  recorded : ∃ start entry rest, plan.Branched offered checkpoint (start :: rest) w ∧
    Records start entry ∧ entry.kind = startIdentityKind (desiredContext checkpoint plan.child) ∧
    ∀ event ∈ rest, isThreadStarted event = false

/-- How far the forks got. -/
inductive Phase where
  | blank
  | cloned (checkpoint : ThreadCheckpoint)
  | started (checkpoint : ThreadCheckpoint)

def At : Phase → ForkWorld ι → Prop
  | .blank              => plan.Blank
  | .cloned checkpoint  => plan.Unstarted offered checkpoint
  | .started checkpoint => plan.Started offered checkpoint

def Settled (checkpoint : ThreadCheckpoint) (w : ForkWorld ι) : Prop :=
  plan.Unstarted offered checkpoint w ∨ plan.Started offered checkpoint w

variable {plan offered} {w w' : ForkWorld ι} {s s' : Inner} {checkpoint : ThreadCheckpoint}
  {rest : List EventRecord}

/-! ### What the phases say -/

theorem stream_eq : plan.stream = threadStream plan.child := rfl

theorem desired_compatible (h : plan.Made s checkpoint) :
    forkChildContextIsCompatible (desiredContext checkpoint plan.child) plan.coordinates
      plan.parent.threadId = true := by
  rw [desiredContext, forkCoordinates, h.1]
  exact forkContext_compatible ..

/-- **No event of a clone is a start of the child.** -/
theorem not_start_of_clone (hkept : plan.Kept s) {leaf : SessionEntryId} {path : List SessionEntry}
    {draws : Nat → Draw} (hpath : s.branchPath plan.parent leaf = .ok path) {event : EventRecord}
    (hevent : event ∈ plan.cloneOf draws path) :
    forkStartOf plan.coordinates plan.parent.threadId event = none := by
  obtain ⟨record, hrecord, sequence, rfl⟩ := History.mem_numbered hevent
  obtain ⟨draw, entry, hentry, rfl⟩ := InMemory.mem_cloneEvents hrecord
  obtain ⟨source, hsource, hkind⟩ := InMemory.kind_of_mem_cloneEntries hentry
  obtain ⟨id, hid⟩ := InMemory.Inner.branchPath_mem hpath hsource
  refine forkStartOf_of_honest (records_sessionEntryEvent ..) ?_
  rw [hkind]
  exact hkept.honest id source hid

theorem Blank.not_recorded (h : plan.Blank w) (context : ThreadContext) :
    ¬ plan.Recorded w.inner context := by
  intro hrecorded
  rw [Recorded, h.events] at hrecorded
  cases hrecorded

theorem Unstarted.not_recorded (h : plan.Unstarted offered checkpoint w) (context : ThreadContext) :
    ¬ plan.Recorded w.inner context := by
  intro hrecorded
  obtain ⟨leaf, path, draws, -, hpath, hevents⟩ := h.branched.events
  obtain ⟨event, hevent, hstart⟩ := durableStart_some hrecorded
  rw [List.mem_reverse, hevents, List.append_nil] at hevent
  rw [not_start_of_clone h.branched.kept hpath hevent] at hstart
  cases hstart

/-- **The start that is recorded is the fork's at the checkpoint.** -/
theorem Started.recorded_eq (h : plan.Started offered checkpoint w) :
    plan.Recorded w.inner (desiredContext checkpoint plan.child) := by
  obtain ⟨start, entry, rest, hbranched, hrecords, hentry, hrest⟩ := h.recorded
  obtain ⟨leaf, path, draws, -, hpath, hevents⟩ := hbranched.events
  rw [Recorded, hevents, List.reverse_append, List.reverse_cons, List.append_assoc,
    List.singleton_append]
  refine durableStart_start (fun event hevent => hrest event (List.mem_reverse.mp hevent)) ?_
  exact forkStartOf_start hrecords hentry (desired_compatible hbranched.made) rfl

theorem Settled.branched (h : plan.Settled offered checkpoint w) :
    ∃ rest, plan.Branched offered checkpoint rest w := by
  rcases h with h | h
  · exact ⟨_, h.branched⟩
  · obtain ⟨start, entry, rest, hbranched, -⟩ := h.recorded
    exact ⟨_, hbranched⟩

theorem At.kept (h : plan.At offered phase w) : plan.Kept w.inner := by
  cases phase with
  | blank => exact Blank.kept h
  | cloned checkpoint => exact h.branched.kept
  | started checkpoint =>
    obtain ⟨start, entry, rest, hbranched, -⟩ := h.recorded
    exact hbranched.kept

/-! ### What keeps a phase -/

theorem Made.mono (hentries : ∀ thread id e, s.entryAt thread id = some e →
    s'.entryAt thread id = some e) (h : plan.Made s checkpoint) : plan.Made s' checkpoint := by
  obtain ⟨hcoordinates, leaf, entry, hleaf, hentry, hcheckpoint⟩ := h
  exact ⟨hcoordinates, leaf, entry, hleaf, hentries _ _ _ hentry, hcheckpoint⟩

theorem Branched.grow {new : List EventRecord} (h : plan.Branched offered checkpoint rest w)
    (hkept : plan.Kept s') (hentries : ∀ thread id e, w.inner.entryAt thread id = some e →
      s'.entryAt thread id = some e)
    (hevents : s'.eventsOf plan.stream = w.inner.eventsOf plan.stream ++ new) :
    plan.Branched offered checkpoint (rest ++ new) { w with inner := s' } where
  kept := hkept
  offered := h.offered
  made := h.made.mono hentries
  clones := h.clones
  events := by
    obtain ⟨leaf, path, draws, hleaf, hpath, hheld⟩ := h.events
    refine ⟨leaf, path, draws, hleaf,
      InMemory.branchPath_of_entries hentries hpath, ?_⟩
    rw [hevents, hheld, List.append_assoc]
  registered := h.registered

theorem At.untouched (h : plan.At offered phase w) (hkept : plan.Kept s')
    (hentries : ∀ thread id e, w.inner.entryAt thread id = some e → s'.entryAt thread id = some e)
    (hchild : Untouched plan.child w.inner s') : plan.At offered phase { w with inner := s' } := by
  have hevents : s'.eventsOf plan.stream = w.inner.eventsOf plan.stream ++ [] := by
    rw [List.append_nil, stream_eq]
    exact hchild.events
  cases phase with
  | blank =>
    exact ⟨hkept, h.clones, by rw [hevents, List.append_nil]; exact h.events,
      hchild.leaf.trans h.leaf, h.registered⟩
  | cloned checkpoint =>
    obtain ⟨last, hleaf, hentry, hcheckpoint⟩ := h.leaf
    exact ⟨h.branched.grow hkept hentries hevents, hchild.base.trans h.base, last,
      hchild.leaf.trans hleaf, (hchild.entries _).trans hentry, hcheckpoint⟩
  | started checkpoint =>
    obtain ⟨start, entry, rest, hbranched, hstart⟩ := h.recorded
    refine ⟨start, entry, rest, ?_, hstart⟩
    have hgrown := hbranched.grow hkept hentries hevents
    rwa [List.append_nil] at hgrown

/-- What may be registered under the child's id. -/
def Phase.names (plan : ForkPlan) : Phase → ThreadContext → Prop
  | .blank, _                    => False
  | .cloned checkpoint, context  => context = desiredContext checkpoint plan.child
  | .started checkpoint, context => context = desiredContext checkpoint plan.child

/-- **Only one checkpoint is cloned.** -/
theorem Branched.desired_eq {other : ThreadCheckpoint} {rest' : List EventRecord}
    (h : plan.Branched offered checkpoint rest w) (h' : plan.Branched offered other rest' w) :
    desiredContext checkpoint plan.child = desiredContext other plan.child := by
  obtain ⟨hcoordinates, leaf, entry, hleaf, hentry, hcheckpoint⟩ := h.made
  obtain ⟨hcoordinates', leaf', entry', hleaf', hentry', hcheckpoint'⟩ := h'.made
  have hclones := h.clones.symm.trans h'.clones
  simp only [List.cons.injEq, BranchClone.mk.injEq, and_true, true_and, hleaf, hleaf',
    Option.some.injEq] at hclones
  subst hclones
  obtain rfl := Option.some.inj (hentry.symm.trans hentry')
  have hpayload : checkpointPayload checkpoint = checkpointPayload other := by
    have hkind := hcheckpoint.symm.trans hcheckpoint'
    injection hkind
  have hread := readCheckpoint_payload plan.child checkpoint
  rw [hpayload, readCheckpoint_payload, Except.ok.injEq, Prod.mk.injEq] at hread
  rw [desiredContext, desiredContext, forkCoordinates, forkCoordinates, hcoordinates, hcoordinates',
    hread.1, hread.2]

theorem Branched.not_blank (h : plan.Branched offered checkpoint rest w) : ¬ plan.Blank w := by
  intro hblank
  have hclones := hblank.clones.symm.trans h.clones
  cases hclones

/-- **What may be registered is the fork at the checkpoint that is cloned.** -/
theorem At.names_iff {context : ThreadContext} (h : plan.At offered phase w)
    (hbranched : plan.Branched offered checkpoint rest w) :
    phase.names plan context ↔ context = desiredContext checkpoint plan.child := by
  cases phase with
  | blank => exact (hbranched.not_blank h).elim
  | cloned made =>
    rw [← h.branched.desired_eq hbranched]
    exact Iff.rfl
  | started made =>
    obtain ⟨start, entry, rest, hstarted, -⟩ := h.recorded
    rw [← hstarted.desired_eq hbranched]
    exact Iff.rfl

theorem At.not_named {context : ThreadContext} (h : plan.At offered phase w) (hblank : plan.Blank w) :
    ¬ phase.names plan context := by
  cases phase with
  | blank => exact fun hnamed => hnamed
  | cloned made => exact (h.branched.not_blank hblank).elim
  | started made =>
    obtain ⟨start, entry, rest, hstarted, -⟩ := h.recorded
    exact (hstarted.not_blank hblank).elim

theorem Branched.registering {maps : HostMaps ι} (h : plan.Branched offered checkpoint rest w)
    (hmaps : ∀ thread, maps.threads.lookup plan.child = some thread →
      w.maps.threads.lookup plan.child = some thread ∨
        thread.context = desiredContext checkpoint plan.child) :
    plan.Branched offered checkpoint rest { w with maps := maps } :=
  ⟨h.kept, h.offered, h.made, h.clones, h.events, fun thread hthread =>
    (hmaps thread hthread).elim (h.registered thread) fun hnamed => hnamed⟩

theorem At.registering {maps : HostMaps ι} (h : plan.At offered phase w)
    (hmaps : ∀ thread, maps.threads.lookup plan.child = some thread →
      w.maps.threads.lookup plan.child = some thread ∨ phase.names plan thread.context) :
    plan.At offered phase { w with maps := maps } := by
  cases phase with
  | blank =>
    refine ⟨h.kept, h.clones, h.events, h.leaf, Option.eq_none_iff_forall_not_mem.mpr ?_⟩
    intro thread hthread
    rcases hmaps thread hthread with hold | hnamed
    · rw [h.registered] at hold
      cases hold
    · exact hnamed
  | cloned checkpoint => exact ⟨h.branched.registering hmaps, h.base, h.leaf⟩
  | started checkpoint =>
    obtain ⟨start, entry, rest, hbranched, hstart⟩ := h.recorded
    exact ⟨start, entry, rest, hbranched.registering hmaps, hstart⟩

/-- **What the others do leaves a fork where it is.** -/
theorem At.others (h : plan.At offered phase w) (hothers : plan.Others w w') :
    plan.At offered phase w' := by
  cases hothers with
  | @host maps hmaps =>
    refine h.registering fun thread hthread => (hmaps thread hthread).imp (fun hold => hold) ?_
    intro hrecorded
    cases phase with
    | blank => exact h.not_recorded _ hrecorded
    | cloned checkpoint => exact (h.not_recorded _ hrecorded).elim
    | started checkpoint =>
      exact Option.some.inj (Option.some.inj (hrecorded.symm.trans h.recorded_eq))
  | @store call hcall =>
    have hentries : ∀ thread id e, w.inner.entryAt thread id = some e →
        (InMemory.step call w.inner).2.entryAt thread id = some e :=
      fun _ _ _ he => InMemory.entryAt_step hcall.fresh he
    have hkept : plan.Kept (InMemory.step call w.inner).2 :=
      ⟨h.kept.sound.step hcall.fresh, hcall.parent⟩
    rcases hcall.child with hother | ⟨⟨context, hrecorded⟩, hnew⟩
    · exact h.untouched hkept hentries (InMemory.untouched_step hother)
    · cases phase with
      | blank => exact (h.not_recorded _ hrecorded).elim
      | cloned checkpoint => exact (h.not_recorded _ hrecorded).elim
      | started checkpoint =>
        obtain ⟨start, entry, rest, hbranched, hrecords, hentry, hrest⟩ := h.recorded
        obtain ⟨new, hgrown⟩ := InMemory.prefix_step w.inner call plan.stream
        refine ⟨start, entry, rest ++ new, hbranched.grow hkept hentries hgrown.symm, hrecords,
          hentry, fun event hevent => ?_⟩
        rcases List.mem_append.mp hevent with hold | hlate
        · exact hrest event hold
        · exact hnew new hgrown.symm event hlate

end ForkPlan

end Verlet.Kernel
