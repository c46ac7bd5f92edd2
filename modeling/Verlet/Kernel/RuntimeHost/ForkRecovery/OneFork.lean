import Verlet.Kernel.RuntimeHost.ForkRecovery.Programs
import Verlet.Kernel.RuntimeHost.ThreadStarts.Capped

/-!
# Kernel — The runtime host — Fork recovery — One fork

Any number of forks of one child, one after the other, each of a checkpoint of the same parent, and
each of them stopped anywhere or not at all.
-/

namespace Verlet.Kernel
open Support History
open History.InMemory (Inner)

/-- A fork that was asked for: its checkpoint, and the context of the thread that it returned. -/
structure ForkAttempt where
  checkpoint : ThreadCheckpoint
  returned : Option ThreadContext

namespace ForkPlan

variable {ι : Type} [DecidableEq ι]

/-- What a fork returned that got to its end, or was stopped before. -/
def returnedBy : Option (Except Stopped (RuntimeThread ι)) → Option ThreadContext
  | some (.ok thread) => some thread.context
  | _                 => none

/-- Forks of the child one after the other, with what goes on around them. -/
inductive Runs (plan : ForkPlan) (hosting : Hosting ι) (w₀ : ForkWorld ι) :
    List ForkAttempt → ForkWorld ι → Prop
  | start : Runs plan hosting w₀ [] w₀
  | fork {attempts : List ForkAttempt} {w w' : ForkWorld ι} {i : ι} {notify : Bool}
      {checkpoint : ThreadCheckpoint} {rounds : Nat}
      {result : Option (Except Stopped (RuntimeThread ι))} (hbefore : Runs plan hosting w₀ attempts w)
      (hmade : plan.Made w.inner checkpoint)
      (hrun : (forkThreadFromCheckpointWithId hosting.config notify checkpoint plan.child
        rounds).run.Upto (ForkWorld.serves hosting i) plan.Others w w' result) :
      Runs plan hosting w₀ (attempts ++ [⟨checkpoint, returnedBy result⟩]) w'
  | other {attempts : List ForkAttempt} {w w' : ForkWorld ι}
      (hbefore : Runs plan hosting w₀ attempts w) (hothers : plan.Others w w') :
      Runs plan hosting w₀ attempts w'

def Tried (attempts : List ForkAttempt) (checkpoint : ThreadCheckpoint) : Prop :=
  ∃ attempt ∈ attempts, attempt.checkpoint = checkpoint

/-- Some phase is kept, and with it what was the fork's. -/
def Since (plan : ForkPlan) (offered : ThreadCheckpoint → Prop) (named : ThreadContext → Prop)
    (w : ForkWorld ι) : Prop :=
  ∃ phase, plan.At offered phase w ∧ ∀ context, named context → phase.names plan context

variable {plan : ForkPlan} {hosting : Hosting ι} {w w' w₀ : ForkWorld ι}
  {offered offered' : ThreadCheckpoint → Prop} {checkpoint : ThreadCheckpoint}
  {attempts : List ForkAttempt}

section
omit [DecidableEq ι]

theorem Branched.mono {rest : List EventRecord} (h : plan.Branched offered checkpoint rest w)
    (hoffered : ∀ checkpoint, offered checkpoint → offered' checkpoint) :
    plan.Branched offered' checkpoint rest w :=
  ⟨h.kept, hoffered checkpoint h.offered, h.made, h.clones, h.events, h.registered⟩

theorem At.mono {phase : Phase} (h : plan.At offered phase w)
    (hoffered : ∀ checkpoint, offered checkpoint → offered' checkpoint) :
    plan.At offered' phase w := by
  cases phase with
  | blank => exact h
  | cloned checkpoint => exact ⟨h.branched.mono hoffered, h.base, h.leaf⟩
  | started checkpoint =>
    obtain ⟨start, entry, rest, hbranched, hstart⟩ := h.recorded
    exact ⟨start, entry, rest, hbranched.mono hoffered, hstart⟩

end

/-- **A fork, wherever it stops**, keeps what was the fork's, and returns nothing else. -/
theorem Since.fork {named : ThreadContext → Prop} {i : ι} {notify : Bool} {rounds : Nat}
    {result : Option (Except Stopped (RuntimeThread ι))} (hw : plan.Since offered named w)
    (hcheckpoint : plan.Offers offered checkpoint w)
    (hrun : (forkThreadFromCheckpointWithId hosting.config notify checkpoint plan.child
      rounds).run.Upto (ForkWorld.serves hosting i) plan.Others w w' result) :
    plan.Since offered (fun context => named context ∨ returnedBy result = some context) w' := by
  obtain ⟨phase, hphase, hnamed⟩ := hw
  have hleads : plan.Leads offered hosting i (plan.Returns offered)
      (forkThreadFromCheckpointWithId hosting.config notify checkpoint plan.child rounds) w :=
    leads_fork hcheckpoint hphase
  have hcall : ∀ call (s : ForkWorld ι) reply s', plan.Since offered named s →
      plan.asks offered call s → s.serves hosting i call reply s' →
      plan.Since offered named s' ∧ s.serves hosting i call reply s' := by
    rintro call s reply s' ⟨phase, hphase, hnamed⟩ hasks hserved
    obtain ⟨phase', hphase', hnames⟩ := live_of_serves hphase hasks hserved
    exact ⟨⟨phase', hphase', fun context h => hnames context (hnamed context h)⟩, hserved⟩
  have hother : ∀ s s' : ForkWorld ι, plan.Since offered named s → plan.Others s s' →
      plan.Since offered named s' ∧ plan.Rely offered s s' := by
    rintro s s' ⟨phase, hphase, hnamed⟩ hothers
    exact ⟨⟨phase, At.others hphase hothers, hnamed⟩, .others hothers⟩
  obtain ⟨⟨phase', hphase', hnamed'⟩, hends⟩ := Proc.Meets.upto Rely.refl
    (fun _ _ _ h h' => h.trans h') hcall hother ⟨phase, hphase, hnamed⟩ hleads hrun
  refine ⟨phase', hphase', fun context h => h.elim (hnamed' context) fun hreturned => ?_⟩
  rcases result with _ | _ | thread
  · cases hreturned
  · cases hreturned
  · obtain rfl := Option.some.inj hreturned
    obtain ⟨made, hsettled, hcontext⟩ := hends _ rfl
    obtain ⟨rest, hbranched⟩ := hsettled.branched
    exact (At.names_iff hphase' hbranched).mpr hcontext

def Returned (attempts : List ForkAttempt) (context : ThreadContext) : Prop :=
  ∃ attempt ∈ attempts, attempt.returned = some context

/-- **In every run** the forks are at some phase, and what they returned is the fork's. -/
theorem Runs.since (h : plan.Runs hosting w₀ attempts w) (hblank : plan.Blank w₀) :
    plan.Since (Tried attempts) (Returned attempts) w := by
  induction h with
  | start =>
    refine ⟨.blank, hblank, fun context hreturned => ?_⟩
    obtain ⟨attempt, hattempt, -⟩ := hreturned
    cases hattempt
  | other hbefore hothers ih =>
    obtain ⟨phase, hphase, hnamed⟩ := ih
    exact ⟨phase, At.others hphase hothers, hnamed⟩
  | @fork attempts w w' i notify checkpoint rounds result hbefore hmade hrun ih =>
    obtain ⟨phase, hphase, hnamed⟩ := ih
    have hlast : Tried (attempts ++ [⟨checkpoint, returnedBy result⟩]) checkpoint :=
      ⟨_, List.mem_append_right _ List.mem_cons_self, rfl⟩
    have hmore : ∀ made, Tried attempts made →
        Tried (attempts ++ [⟨checkpoint, returnedBy result⟩]) made :=
      fun made ⟨attempt, hattempt, hsame⟩ => ⟨attempt, List.mem_append_left _ hattempt, hsame⟩
    have hsince : plan.Since (Tried (attempts ++ [⟨checkpoint, returnedBy result⟩]))
        (Returned attempts) w := ⟨phase, At.mono hphase hmore, hnamed⟩
    obtain ⟨phase', hat, hnames⟩ := hsince.fork ⟨hlast, hmade⟩ hrun
    refine ⟨phase', hat, fun context ⟨attempt, hattempt, hreturned⟩ => hnames context ?_⟩
    rcases List.mem_append.mp hattempt with hold | hnew
    · exact .inl ⟨attempt, hold, hreturned⟩
    · obtain rfl := List.mem_singleton.mp hnew
      exact .inr hreturned

section
omit [DecidableEq ι]

theorem starts_of_clone {rest : List EventRecord}
    (h : plan.Branched offered checkpoint rest w) :
    (w.inner.eventsOf plan.stream).filterMap (forkStartOf plan.coordinates plan.parent.threadId) =
      rest.filterMap (forkStartOf plan.coordinates plan.parent.threadId) := by
  obtain ⟨leaf, path, draws, -, hpath, hevents⟩ := h.events
  rw [hevents, List.filterMap_append, List.filterMap_eq_nil_iff.mpr, List.nil_append]
  exact fun event hevent => not_start_of_clone h.kept hpath hevent

/-- **The start of the child is recorded at most once.** -/
theorem Settled.starts_le_one (h : plan.Settled offered checkpoint w) :
    ((w.inner.eventsOf plan.stream).filterMap
      (forkStartOf plan.coordinates plan.parent.threadId)).length ≤ 1 := by
  rcases h with h | h
  · rw [starts_of_clone h.branched]
    exact Nat.zero_le 1
  · obtain ⟨start, entry, rest, hbranched, -, -, hrest⟩ := h.recorded
    have hnone : rest.filterMap (forkStartOf plan.coordinates plan.parent.threadId) = [] :=
      List.filterMap_eq_nil_iff.mpr fun event hevent => forkStartOf_of_not_started (hrest event hevent)
    rw [starts_of_clone hbranched, List.filterMap_cons]
    split
    · rw [hnone]
      exact Nat.zero_le 1
    · rw [hnone]
      exact Nat.le_refl 1

end

/-- The checkpoint was cloned, once and for all, by one of the forks: the child's events are those of
that clone and what followed, among them at most one start of the child as a fork of the parent, and
what the forks returned has the context of that checkpoint. -/
structure Idempotent (plan : ForkPlan) (attempts : List ForkAttempt) (w : ForkWorld ι)
    (checkpoint : ThreadCheckpoint) : Prop where
  tried : ∃ attempt ∈ attempts, attempt.checkpoint = checkpoint
  clones : w.clones = [⟨plan.parent, checkpoint.activeEntryId, plan.coordinates⟩]
  events : ∃ rest, plan.Holds w.inner checkpoint rest
  starts : ((w.inner.eventsOf plan.stream).filterMap
    (forkStartOf plan.coordinates plan.parent.threadId)).length ≤ 1
  returned : ∀ attempt ∈ attempts, ∀ context, attempt.returned = some context →
    context = desiredContext checkpoint plan.child

omit [DecidableEq ι] in
theorem Settled.idempotent (h : plan.Settled (Tried attempts) checkpoint w)
    (hnames : ∀ context, Returned attempts context →
      context = desiredContext checkpoint plan.child) :
    plan.Idempotent attempts w checkpoint := by
  obtain ⟨rest, hbranched⟩ := h.branched
  exact ⟨hbranched.offered, hbranched.clones, ⟨rest, hbranched.events⟩, h.starts_le_one,
    fun attempt hattempt context hreturned => hnames context ⟨attempt, hattempt, hreturned⟩⟩

/-- **A reserved fork is idempotent.**  In every run of forks of one child, each of a checkpoint of
the parent and each stopped anywhere, either nothing of the child is there and no fork returned
anything, or one of the checkpoints is all that the forks come to. -/
theorem fork_idempotent (hblank : plan.Blank w₀) (hruns : plan.Runs hosting w₀ attempts w) :
    (w.clones = [] ∧ w.inner.eventsOf plan.stream = [] ∧
      ∀ attempt ∈ attempts, attempt.returned = none) ∨
    ∃ checkpoint, plan.Idempotent attempts w checkpoint := by
  obtain ⟨phase, hphase, hnames⟩ := hruns.since hblank
  cases phase with
  | blank =>
    refine .inl ⟨hphase.clones, hphase.events, fun attempt hattempt => ?_⟩
    refine Option.eq_none_iff_forall_not_mem.mpr fun context hreturned => ?_
    exact hnames context ⟨attempt, hattempt, hreturned⟩
  | cloned checkpoint => exact .inr ⟨checkpoint, Settled.idempotent (.inl hphase) hnames⟩
  | started checkpoint => exact .inr ⟨checkpoint, Settled.idempotent (.inr hphase) hnames⟩

/-! ### A fork that is stopped, and its retry -/

/-- The parent and the child of the sample. -/
def samplePlan : ForkPlan where
  parent := .counted "user" 1
  child := ⟨⟨BitVec.ofNat 128 2⟩⟩
  apart := by decide

/-- The checkpoint that is the parent's `n`th entry. -/
def sampleCheckpoint (n : Nat) : ThreadCheckpoint where
  id := ⟨⟨BitVec.ofNat 128 (100 + n)⟩⟩
  coordinates := samplePlan.parent
  lineage := .root
  parentCheckpointId := none
  activeEntryId := some (.counted n)
  label := none
  metadata := [("cut", "at " ++ toString n)]
  createdAtMs := n

/-- The parent's history: a message and two checkpoints. -/
def sampleCalls : List Call :=
  [.counted 0 0 (.append samplePlan.parent none (.said "first") none),
   .counted 0 1 (.append samplePlan.parent none
     (.runtime "thread_checkpoint" (checkpointPayload (sampleCheckpoint 1))) none),
   .counted 0 2 (.append samplePlan.parent none
     (.runtime "thread_checkpoint" (checkpointPayload (sampleCheckpoint 2))) none)]

def sampleWorld : ForkWorld (Fin 2) := ⟨run InMemory.step sampleCalls .empty, .empty, []⟩

/-- A write of the sample, which draws its ids after those that are there. -/
def sampleWrite (s : Inner) (op : Op) : Option (Reply × Inner) :=
  let call := Call.counted 0 s.eventIds.card op
  match InMemory.step call s with
  | (.ok reply, s') => if InMemory.Fresh s call then some (reply, s') else none
  | (.error _, _)   => none

def sampleAppend (coordinates : ThreadCoordinates) (kind : SessionEntryKind) (w : ForkWorld (Fin 2)) :
    HistoryResult SessionEntry × ForkWorld (Fin 2) :=
  match sampleWrite w.inner (.append coordinates none kind none) with
  | some (.entry entry, s') => (.ok entry, { w with inner := s' })
  | _ => (.error .diverged, w)

def sampleClone (clone : BranchClone) (w : ForkWorld (Fin 2)) :
    HistoryResult (Option SessionEntryId) × ForkWorld (Fin 2) :=
  match sampleWrite w.inner (.cloneBranch clone.source clone.sourceLeaf clone.target) with
  | some (.leaf leaf, s') => (.ok leaf, { w with inner := s', clones := w.clones ++ [clone] })
  | _ => (.error .diverged, w)

/-- How the calls of the sample are served: its host's factory fails on the first fork. -/
def sampleServe (i : Fin 2) : (call : HostCall (Fin 2)) → ForkWorld (Fin 2) →
    call.Reply × ForkWorld (Fin 2)
  | .readEvents streamId, w => (InMemory.readEvents w.inner streamId none, w)
  | .activeLeaf coordinates, w => (InMemory.activeLeaf w.inner coordinates, w)
  | .buildContext coordinates, w => (InMemory.buildContext w.inner coordinates, w)
  | .append coordinates kind, w => sampleAppend coordinates kind w
  | .cloneBranch source sourceLeaf target, w => sampleClone ⟨source, sourceLeaf, target⟩ w
  | .selectBranch _ _, w => (.error .diverged, w)
  | call, w =>
    let served := Hosting.sampleServe i call w.maps
    (served.1, { w with maps := served.2 })

theorem takes_sampleWrite {s s' : Inner} {op : Op} {reply : Reply}
    (h : sampleWrite s op = some (reply, s')) : Commits op s reply s' := by
  unfold sampleWrite at h
  dsimp only at h
  split at h
  · rename_i found s₁ hstep
    split at h
    · rename_i hfresh
      obtain ⟨rfl, rfl⟩ := Prod.mk.inj (Option.some.inj h)
      exact ⟨_, rfl, hfresh, hstep⟩
    · cases h
  · cases h

theorem serves_sampleServe (i : Fin 2) (call : HostCall (Fin 2)) (w : ForkWorld (Fin 2)) :
    w.serves Hosting.sampleHosting i call (sampleServe i call w).1 (sampleServe i call w).2 := by
  have hhost := Hosting.serves_sampleServe i call w.maps
  cases call with
  | readEvents | activeLeaf | buildContext => exact ⟨.inl rfl, rfl⟩
  | append coordinates kind =>
    unfold sampleServe sampleAppend
    dsimp only
    split
    · rename_i entry s' hwrite
      exact .inr ⟨entry, s', takes_sampleWrite hwrite, .inl rfl, rfl⟩
    · exact .inl ⟨rfl, _, rfl⟩
  | cloneBranch source sourceLeaf target =>
    unfold sampleServe sampleClone
    dsimp only
    split
    · rename_i leaf s' hwrite
      exact .inr ⟨leaf, s', takes_sampleWrite hwrite, .inl rfl, rfl⟩
    · exact .inl ⟨rfl, _, rfl⟩
  | selectBranch => exact .inl ⟨rfl, _, rfl⟩
  | _ => exact ⟨_, hhost, rfl⟩

/-- What the fork at the `n`th entry comes to, where nothing else goes on. -/
def sampleFork (i : Fin 2) (n : Nat) (w : ForkWorld (Fin 2)) :
    Except Stopped (RuntimeThread (Fin 2)) × ForkWorld (Fin 2) :=
  (forkThreadFromCheckpointWithId Hosting.sampleHosting.config false (sampleCheckpoint n)
    samplePlan.child 1).run.alone (sampleServe i) w

def sampleFirst : Except Stopped (RuntimeThread (Fin 2)) × ForkWorld (Fin 2) :=
  sampleFork 0 1 sampleWorld

def sampleSecond : Except Stopped (RuntimeThread (Fin 2)) × ForkWorld (Fin 2) :=
  sampleFork 1 2 sampleFirst.2

def sampleAttempts : List ForkAttempt :=
  [⟨sampleCheckpoint 1, returnedBy (some sampleFirst.1)⟩,
   ⟨sampleCheckpoint 2, returnedBy (some sampleSecond.1)⟩]

set_option maxRecDepth 100000 in
theorem blank_sampleWorld : samplePlan.Blank sampleWorld where
  kept := by
    refine ⟨InMemory.sound_run (by decide +kernel), fun id entry hentry payload hkind => ?_⟩
    have hno : ∀ entry ∈ Map.values ((sampleWorld.inner.entries.lookup
        samplePlan.parent.threadId).getD ∅), History.sessionEntryIsThreadStartIdentity entry =
          false := by decide +kernel
    obtain ⟨entries, hentries, hid⟩ := Option.bind_eq_some_iff.mp hentry
    rw [hentries] at hno
    have hstarted := hno entry (Map.mem_values.mpr ⟨id, hid⟩)
    rw [History.sessionEntryIsThreadStartIdentity, hkind] at hstarted
    cases hstarted
  clones := rfl
  events := by decide +kernel
  leaf := by decide +kernel
  registered := rfl

set_option maxRecDepth 100000 in
theorem runs_sample : samplePlan.Runs Hosting.sampleHosting sampleWorld sampleAttempts
    sampleSecond.2 := by
  have hfirst : samplePlan.Made sampleWorld.inner (sampleCheckpoint 1) :=
    ⟨rfl, _, _, rfl, rfl, rfl⟩
  have hsecond : samplePlan.Made sampleFirst.2.inner (sampleCheckpoint 2) :=
    ⟨rfl, _, _, rfl, rfl, rfl⟩
  exact .fork (.fork .start hfirst (Proc.upto_alone (serves_sampleServe 0) _ _)) hsecond
    (Proc.upto_alone (serves_sampleServe 1) _ _)

set_option maxRecDepth 100000 in
/-- The first fork is stopped after its clone, and the second returns the thread of the first one's
checkpoint. -/
theorem fork_idempotent_sample :
    ∃ checkpoint, samplePlan.Idempotent sampleAttempts sampleSecond.2 checkpoint :=
  (fork_idempotent blank_sampleWorld runs_sample).resolve_left fun hnone =>
    absurd hnone.1 (by decide +kernel)

end ForkPlan

end Verlet.Kernel
