import Verlet.Kernel.RuntimeHost.ForkRecovery.Serving

/-!
# Kernel — The runtime host — Fork recovery — Programs

What the programs of a fork come to, from whichever phase the forks before it left.
-/

namespace Verlet.Kernel
open Support History
open History.InMemory (Inner)
open RemoteStore (VerletError)
open Proc (Makes)

variable {context : ThreadContext} {identity : StartIdentity} {phase : Phase}

namespace ForkPlan
open HostM Hosting

variable {ι : Type} {plan : ForkPlan} {offered : ThreadCheckpoint → Prop} {w w' : ForkWorld ι}
  {checkpoint : ThreadCheckpoint}

/-! ### What the store answers -/

theorem readEvents_all (s : Inner) (plan : ForkPlan) :
    InMemory.readEvents s plan.stream none = .ok (s.eventsOf plan.stream) := by
  rw [InMemory.readEvents, List.filter_eq_self.mpr fun _ _ => rfl]

theorem Blank.activeLeaf (h : plan.Blank w) :
    InMemory.activeLeaf w.inner plan.coordinates = .ok none := by
  rw [InMemory.activeLeaf, show w.inner.activeLeaf.lookup plan.coordinates.threadId = none
    from h.leaf]

theorem Unstarted.activeLeaf (h : plan.Unstarted offered checkpoint w) :
    InMemory.activeLeaf w.inner plan.coordinates ≠ .ok none := by
  obtain ⟨last, hleaf, -⟩ := h.leaf
  rw [InMemory.activeLeaf,
    show w.inner.activeLeaf.lookup plan.coordinates.threadId = some last.entryId from hleaf]
  intro hnone
  obtain ⟨entry, -, hnone⟩ := bind_ok.mp hnone
  obtain ⟨_, -, hnone⟩ := bind_ok.mp hnone
  cases hnone

theorem not_identity_of_last {s : Inner} (hkept : plan.Kept s) {last : SessionEntry}
    (hlast : s.entryAt plan.child last.entryId = some last) (hcheckpoint : IsCheckpoint checkpoint last)
    {path : List SessionEntry} (hpath : s.branchPath plan.coordinates last.entryId = .ok path)
    (entry : SessionEntry) (hentry : entry ∈ path)
    (hidentity : History.sessionEntryIsThreadStartIdentity entry = true) :
    entry.entryId ≠ last.entryId := by
  intro hsame
  obtain ⟨id, hid⟩ := InMemory.Inner.branchPath_mem hpath hentry
  obtain ⟨rfl, -⟩ := hkept.sound.forest.keyed _ _ _ hid
  rw [hsame] at hid
  obtain rfl : last = entry := Option.some.inj (hlast.symm.trans hid)
  rw [History.sessionEntryIsThreadStartIdentity, hcheckpoint] at hidentity
  exact absurd (of_decide_eq_true hidentity) (by decide)

/-- **The context of a cloned branch ends at its checkpoint.** -/
theorem Unstarted.buildContext (h : plan.Unstarted offered checkpoint w) {context : SessionContext}
    (hbuilt : InMemory.buildContext w.inner plan.coordinates = .ok context) :
    ∃ last, context.entries.getLast? = some last ∧ IsCheckpoint checkpoint last := by
  obtain ⟨last, hleaf, hentry, hcheckpoint⟩ := h.leaf
  refine ⟨last, ?_, hcheckpoint⟩
  rw [InMemory.buildContext, InMemory.buildInMemoryContext] at hbuilt
  obtain ⟨-, fromParent, path, hinherited, hlocal, rfl⟩ := History.buildContextFrom_ok.mp hbuilt
  have hbase : w.inner.source.base plan.coordinates.threadId = .ok none := congrArg Except.ok h.base
  -- The clone has no base, so that its context is its own branch.
  obtain rfl : fromParent = ([], []) := by
    rcases History.inheritedWith_ok.mp hinherited with ⟨-, hnone⟩ | ⟨base, _, hsome, -⟩
    · exact hnone
    · cases hbase.symm.trans hsome
  have hpath : w.inner.branchPath plan.coordinates last.entryId = .ok path := by
    have hactive : w.inner.source.activeLeaf plan.coordinates.threadId = .ok (some last.entryId) :=
      congrArg Except.ok hleaf
    rcases History.localPathFrom_none_ok.mp hlocal with ⟨hnone, -⟩ | ⟨leaf, hsome, hpath⟩
    · cases hactive.symm.trans hnone
    · obtain rfl := Option.some.inj (Except.ok.inj (hactive.symm.trans hsome))
      exact hpath
  obtain ⟨found, hfound, hlast⟩ := InMemory.Inner.branchPath_last hpath
  obtain rfl : last = found := Option.some.inj (hentry.symm.trans hfound)
  exact History.getLast?_stripEntries hlast (not_identity_of_last h.branched.kept hentry hcheckpoint hpath)

/-! ### Programs of a fork -/

variable [DecidableEq ι] {hosting : Hosting ι} {i : ι}

/-- What a program of a fork succeeds with. -/
abbrev Leads {α : Type} (plan : ForkPlan) (offered : ThreadCheckpoint → Prop) (hosting : Hosting ι)
    (i : ι) (A : α → ForkWorld ι → Prop) (p : HostM ι α) (w : ForkWorld ι) : Prop :=
  Proc.Settles (plan.Rely offered) (plan.asks offered) (ForkWorld.serves hosting i) A
    (fun _ _ => True) p w

variable {α β : Type} {A : α → ForkWorld ι → Prop} {C : β → ForkWorld ι → Prop}

theorem leads_bind {p : HostM ι α} {f : α → HostM ι β} (h : plan.Leads offered hosting i A p w)
    (hf : ∀ a w', A a w' → plan.Leads offered hosting i C (f a) w') :
    plan.Leads offered hosting i C (p >>= f) w :=
  Proc.Settles.bind Rely.refl (fun _ _ _ _ _ => trivial) (h.imp hf fun _ _ _ => trivial)

theorem leads_throw {e : Stopped} : plan.Leads offered hosting i A (throw e : HostM ι α) w :=
  .throw fun _ _ => trivial

theorem leads_quiet {P : ForkWorld ι → Prop} (hP : ∀ w w', P w → plan.Rely offered w w' → P w')
    {p : HostM ι α} (h : Makes Quiet p) (hw : P w) :
    plan.Leads offered hosting i (fun _ => P) p w := by
  have hsettles : Proc.Settles (plan.Rely offered) (plan.asks offered) (ForkWorld.serves hosting i)
      (fun _ => plan.Rely offered w) (fun _ => plan.Rely offered w) p w := by
    refine Makes.settles (fun _ _ _ h h' => h.trans h') (fun call hcall w => ?_) h w
    exact ⟨Quiet.asks hcall w, fun _ _ => rely_of_quiet hcall⟩
  exact hsettles.imp (fun _ w' => hP w w' hw) fun _ _ _ => trivial

theorem leads_any {p : HostM ι α} (h : Makes Quiet p) :
    plan.Leads offered hosting i (fun _ _ => True) p w :=
  leads_quiet (fun _ _ _ _ => trivial) h trivial

section
variable {P : ForkWorld ι → Prop} (hP : ∀ w w', P w → plan.Rely offered w w' → P w')
include hP

theorem leads_orHistory {result : HistoryResult α} (hw : P w) :
    plan.Leads offered hosting i (fun a w' => P w' ∧ result = .ok a) (orKernel (orHistory result))
      w := by
  cases result with
  | ok a => exact .pure fun w' hw' => ⟨hP _ _ hw hw', rfl⟩
  | error e => exact leads_throw

theorem leads_orFail {result : Except StartError α} (hw : P w) :
    plan.Leads offered hosting i (fun a w' => P w' ∧ result = .ok a) (orFail result) w := by
  cases result with
  | ok a => exact .pure fun w' hw' => ⟨hP _ _ hw hw', rfl⟩
  | error e => exact leads_throw

theorem leads_orPanic {value : Option α} (hw : P w) :
    plan.Leads offered hosting i (fun a w' => P w' ∧ value = some a) (orPanic value) w := by
  cases value with
  | some a => exact .pure fun w' hw' => ⟨hP _ _ hw hw', rfl⟩
  | none => exact leads_throw

end

theorem leads_storeCall {call : HostCall ι} {P : ForkWorld ι → Prop}
    {Q : call.Reply → ForkWorld ι → Prop} (hP : ∀ w w', P w → plan.Rely offered w w' → P w')
    (hQ : ∀ reply w w', Q reply w → plan.Rely offered w w' → Q reply w')
    (hasks : ∀ w, P w → plan.asks offered call w)
    (hserves : ∀ w reply w', P w → w.serves hosting i call reply w' → Q reply w') (hw : P w) :
    plan.Leads offered hosting i Q (storeCall call) w := by
  refine leads_bind (leads_quiet hP makes_suspend hw) fun _ w₁ h₁ => ?_
  refine .await fun w₂ hw₂ => ⟨hasks w₂ (hP _ _ h₁ hw₂), fun reply w₃ hserved => ?_⟩
  have h₃ := hserves w₂ reply w₃ (hP _ _ h₁ hw₂) hserved
  refine leads_bind (leads_quiet (hQ reply) makes_suspend h₃) fun _ w₄ h₄ => ?_
  exact .pure fun w' hw' => hQ reply _ _ h₄ hw'

theorem leads_read {call : HostCall ι} {P : ForkWorld ι → Prop} {R : call.Reply → Prop}
    (hP : ∀ w w', P w → plan.Rely offered w w' → P w') (hcall : Quiet call)
    (hreads : ∀ w reply w', P w → w.serves hosting i call reply w' → R reply) (hw : P w) :
    plan.Leads offered hosting i (fun reply w' => P w' ∧ R reply) (storeCall call) w := by
  refine leads_storeCall hP (fun _ _ _ h hrely => ⟨hP _ _ h.1 hrely, h.2⟩)
    (fun w _ => Quiet.asks hcall w) (fun w reply w' hw hserved => ?_) hw
  exact ⟨hP _ _ hw (rely_of_quiet hcall hserved), hreads w reply w' hw hserved⟩

theorem leads_tryCatch {p : HostM ι α} {handler : Stopped → HostM ι α}
    (hA : ∀ a w w', A a w → plan.Rely offered w w' → A a w')
    (h : plan.Leads offered hosting i A p w)
    (hhandler : ∀ e w', plan.Leads offered hosting i A (handler e) w') :
    plan.Leads offered hosting i A (tryCatch p handler) w :=
  Proc.Settles.tryCatch Rely.refl hA h fun e w' _ => hhandler e w'

theorem leads_guarding {p : HostM ι α} {release : HostM ι Unit}
    (hA : ∀ a w w', A a w → plan.Rely offered w w' → A a w')
    (h : plan.Leads offered hosting i A p w) (hrelease : Makes Quiet release) :
    plan.Leads offered hosting i A (Proc.guarding p release) w :=
  leads_tryCatch hA h fun _ _ => leads_bind (leads_any hrelease) fun _ _ _ => leads_throw

variable {thread : RuntimeThread ι}

theorem leads_retracting {p : HostM ι α} (hA : ∀ a w w', A a w → plan.Rely offered w w' → A a w')
    (h : plan.Leads offered hosting i A p w) :
    plan.Leads offered hosting i A (retracting thread p) w := by
  have hretract : Makes Quiet (retract thread) :=
    .bind (makes_ask trivial) fun _ => .bind makes_suspend fun _ => .bind (makes_ask trivial) fun _ =>
      .bind makes_suspend fun _ => .bind (.await trivial) fun _ => .pure
  refine leads_tryCatch hA h fun e w' => ?_
  cases e with
  | failed error => exact leads_bind (leads_any hretract) fun _ _ _ => leads_throw
  | dropped | panicked | looping => exact leads_throw

theorem leads_guardingPublished {p : HostM ι α}
    (hA : ∀ a w w', A a w → plan.Rely offered w w' → A a w')
    (h : plan.Leads offered hosting i A p w) :
    plan.Leads offered hosting i A (guardingPublished thread p) w := by
  have hdrop : Makes Quiet (dropPublished thread) :=
    .bind (makes_ask trivial) fun _ => .bind (makes_ask trivial) fun _ =>
      .bind (.await trivial) fun _ => .pure
  refine leads_tryCatch hA h fun e w' => ?_
  cases e with
  | failed error => exact leads_throw
  | dropped | panicked | looping =>
    exact leads_bind (leads_any hdrop) fun _ _ _ => leads_throw

/-! ### The start identity -/

/-- What an attempt to record the start comes to. -/
def Attempted (plan : ForkPlan) (offered : ThreadCheckpoint → Prop) (checkpoint : ThreadCheckpoint) :
    Option VerletError → ForkWorld ι → Prop
  | none   => plan.Settled offered checkpoint
  | some _ => plan.Unstarted offered checkpoint

section
omit [DecidableEq ι]

theorem Unstarted.rely (h : plan.Unstarted offered checkpoint w) (hrely : plan.Rely offered w w') :
    plan.Unstarted offered checkpoint w' := hrely.phase (.cloned checkpoint) h

theorem desired_coordinates (h : plan.Settled offered checkpoint w) :
    (desiredContext checkpoint plan.child).coordinates = plan.coordinates := by
  obtain ⟨rest, hbranched⟩ := h.branched
  change forkCoordinates checkpoint plan.child = _
  rw [forkCoordinates, hbranched.made.1]
  rfl

theorem Started.found (h : plan.Started offered checkpoint w) :
    anyMatches (desiredContext checkpoint plan.child) (w.inner.eventsOf plan.stream) ≠
      some false := by
  obtain ⟨start, entry, rest, hbranched, hrecords, hentry, -⟩ := h.recorded
  obtain ⟨leaf, path, draws, -, -, hevents⟩ := hbranched.events
  refine anyMatches_start hrecords hentry ?_
  rw [hevents]
  exact List.mem_append_right _ List.mem_cons_self

end

/-- **Where a start is recorded, the search for it does not miss it.** -/
theorem leads_readStart (hthread : thread.context = desiredContext checkpoint plan.child)
    (hcoordinates : thread.context.coordinates = plan.coordinates)
    (hw : plan.Started offered checkpoint w) :
    plan.Leads offered hosting i (fun read w' => plan.Started offered checkpoint w' ∧
        ∀ events, read = .ok events → anyMatches thread.context events ≠ some false)
      (storeCall (.readEvents (.forThread thread.context.coordinates))) w := by
  refine leads_read (fun _ _ h hrely => hrely.phase (.started checkpoint) h) trivial
    (fun w read w' hw hserved => ?_) hw
  obtain ⟨hheard, rfl⟩ := hserved
  rw [hcoordinates] at hheard
  change Heard (InMemory.readEvents w'.inner plan.stream none) read at hheard
  rw [readEvents_all] at hheard
  rintro events rfl
  rcases hheard with hsame | ⟨e, hfailed⟩
  · obtain rfl := Except.ok.inj hsame
    rw [hthread]
    exact hw.found
  · cases hfailed

/-- **An attempt that says that it failed left no start behind.** -/
theorem leads_attemptStartIdentity (hthread : thread.context = desiredContext checkpoint plan.child)
    (hw : plan.Unstarted offered checkpoint w) :
    plan.Leads offered hosting i (plan.Attempted offered checkpoint) (attemptStartIdentity thread)
      w := by
  have hcoordinates : thread.context.coordinates = plan.coordinates := by
    rw [hthread]
    exact desired_coordinates (.inl hw)
  have happend : plan.Leads offered hosting i (fun _ => plan.Settled offered checkpoint)
      (storeCall (.append thread.context.coordinates (startIdentityKind thread.context))) w := by
    refine leads_storeCall (fun _ _ h => Unstarted.rely h) (fun _ _ _ h => h.rely) (fun w hw => ?_)
      (fun w reply w' hw hserved => ?_) hw
    · exact ⟨checkpoint, hw, hcoordinates, by rw [hthread]⟩
    · exact (served_append hw hcoordinates hthread hserved).elim .inr fun h => .inl h.2
  refine leads_bind happend fun appended w₁ h₁ => ?_
  cases appended with
  | ok entry => exact .pure fun w' hw' => h₁.rely hw'
  | error error =>
    rcases h₁ with h₁ | h₁
    · have hkeeps : ∀ w w' : ForkWorld ι, plan.Unstarted offered checkpoint w →
          plan.Rely offered w w' → plan.Unstarted offered checkpoint w' :=
        fun _ _ => Unstarted.rely
      refine leads_bind (leads_quiet hkeeps (makes_read trivial) h₁) fun read w₂ h₂ => ?_
      cases read with
      | error readError => exact leads_throw
      | ok events =>
        refine leads_bind (leads_quiet hkeeps makes_orPanic h₂) fun found w₃ h₃ => ?_
        cases found with
        | true => exact .pure fun w' hw' => .inl (h₃.rely hw')
        | false => exact .pure fun w' hw' => h₃.rely hw'
    · refine leads_bind (leads_readStart hthread hcoordinates h₁) fun read w₂ h₂ => ?_
      cases read with
      | error readError => exact leads_throw
      | ok events =>
        refine leads_bind (leads_orPanic (fun _ _ h hrely => hrely.phase (.started checkpoint) h)
          h₂.1) fun found w₃ h₃ => ?_
        cases found with
        | true => exact .pure fun w' hw' => .inr (hw'.phase (.started checkpoint) h₃.1)
        | false => exact (h₂.2 events rfl h₃.2).elim

/-- What a start is to do of its identity, as far as the forks got. -/
def Due (plan : ForkPlan) (offered : ThreadCheckpoint → Prop) (checkpoint : ThreadCheckpoint) :
    StartIdentity → ForkWorld ι → Prop
  | .omitted,    w => plan.Started offered checkpoint w
  | .reconciled, w => plan.Unstarted offered checkpoint w
  | .appended,   _ => False

section
omit [DecidableEq ι]

theorem Due.rely (h : plan.Due offered checkpoint identity w) (hrely : plan.Rely offered w w') :
    plan.Due offered checkpoint identity w' := by
  cases identity with
  | omitted => exact hrely.phase (.started checkpoint) h
  | reconciled => exact hrely.phase (.cloned checkpoint) h
  | appended => exact h.elim

theorem Due.settled (h : plan.Due offered checkpoint identity w) :
    plan.Settled offered checkpoint w := by
  cases identity with
  | omitted => exact .inr h
  | reconciled => exact .inl h
  | appended => exact h.elim

end

theorem Due.publish (h : plan.Due offered checkpoint identity w)
    (hcontext : context = desiredContext checkpoint plan.child)
    (hserved : w.serves hosting i (.publish context) thread w') :
    plan.Due offered checkpoint identity w' ∧
      thread.context = desiredContext checkpoint plan.child := by
  rw [← hcontext]
  cases identity with
  | omitted => exact served_publish (.started checkpoint) h hcontext hserved
  | reconciled => exact served_publish (.cloned checkpoint) h hcontext hserved
  | appended => exact h.elim

/-- **The start is recorded once**, by whichever attempt. -/
theorem leads_recordIdentity (hthread : thread.context = desiredContext checkpoint plan.child)
    (hw : plan.Due offered checkpoint identity w) :
    plan.Leads offered hosting i (fun _ => plan.Settled offered checkpoint)
      (recordIdentity thread identity) w := by
  cases identity with
  | appended => exact hw.elim
  | omitted => exact .pure fun w' hw' => (Due.settled hw).rely hw'
  | reconciled =>
    refine leads_bind (leads_attemptStartIdentity hthread hw) fun first w₁ h₁ => ?_
    cases first with
    | none => exact .pure fun w' hw' => Settled.rely h₁ hw'
    | some e =>
      refine leads_bind (leads_attemptStartIdentity hthread h₁) fun second w₂ h₂ => ?_
      cases second with
      | none => exact .pure fun w' hw' => Settled.rely h₂ hw'
      | some _ => exact leads_throw

def Returns (plan : ForkPlan) (offered : ThreadCheckpoint → Prop) (thread : RuntimeThread ι)
    (w : ForkWorld ι) : Prop :=
  ∃ checkpoint, plan.Settled offered checkpoint w ∧
    thread.context = desiredContext checkpoint plan.child

omit [DecidableEq ι] in
theorem Returns.rely (h : plan.Returns offered thread w) (hrely : plan.Rely offered w w') :
    plan.Returns offered thread w' := by
  obtain ⟨checkpoint, hsettled, hcontext⟩ := h
  exact ⟨checkpoint, hsettled.rely hrely, hcontext⟩

/-- **A start publishes the fork at the checkpoint that is settled**, and returns its thread. -/
theorem leads_startReservedThread {notify : Bool}
    (hcontext : context = desiredContext checkpoint plan.child)
    (hw : plan.Due offered checkpoint identity w) :
    plan.Leads offered hosting i (plan.Returns offered)
      (startReservedThread hosting.config identity notify context) w := by
  have hdue : ∀ w w' : ForkWorld ι, plan.Due offered checkpoint identity w → plan.Rely offered w w' →
      plan.Due offered checkpoint identity w' := fun _ _ => Due.rely
  have hsettled : ∀ w w' : ForkWorld ι, plan.Settled offered checkpoint w → plan.Rely offered w w' →
      plan.Settled offered checkpoint w' := fun _ _ => Settled.rely
  refine leads_bind (leads_guarding (fun _ => hdue) (leads_quiet hdue makes_prepareRuntime hw)
    (.await trivial)) fun _ w₁ h₁ => ?_
  refine .await fun w₂ hw₂ => ⟨⟨checkpoint, (h₁.rely hw₂).settled, hcontext⟩, fun thread w₃ hserved => ?_⟩
  obtain ⟨h₃, hthread⟩ := (h₁.rely hw₂).publish hcontext hserved
  refine leads_guardingPublished (fun _ _ _ => Returns.rely) ?_
  refine leads_bind (leads_retracting (fun _ => hsettled) (leads_recordIdentity hthread h₃))
    fun _ w₄ h₄ => ?_
  refine leads_bind (leads_quiet hsettled (makes_ask trivial) h₄) fun _ w₅ h₅ => ?_
  refine leads_bind (leads_retracting (fun _ => hsettled)
    (leads_quiet hsettled makes_notifyLifecycleSink h₅)) fun _ w₆ h₆ => ?_
  refine leads_bind (leads_quiet hsettled makes_announceSubthread h₆) fun _ w₇ h₇ => ?_
  exact .pure fun w' hw' => ⟨checkpoint, h₇.rely hw', hthread⟩

/-! ### What a fork finds -/

/-- What the child's events say of the phase. -/
def Phase.tells (plan : ForkPlan) (events : List EventRecord) : Phase → Prop
  | .started checkpoint =>
    durableStart plan.coordinates plan.parent.threadId events.reverse =
      some (some (desiredContext checkpoint plan.child))
  | _ => ∀ context, durableStart plan.coordinates plan.parent.threadId events.reverse ≠
      some (some context)

omit [DecidableEq ι] in
theorem At.tells (h : plan.At offered phase w) :
    phase.tells plan (w.inner.eventsOf plan.stream) := by
  cases phase with
  | blank => exact h.not_recorded
  | cloned checkpoint => exact h.not_recorded
  | started checkpoint => exact h.recorded_eq

/-- What a fork goes on with: the fork at a checkpoint that is settled, and what is due of it. -/
def Found (plan : ForkPlan) (offered : ThreadCheckpoint → Prop)
    (found : ThreadContext × StartIdentity) (w : ForkWorld ι) : Prop :=
  ∃ checkpoint, found.1 = desiredContext checkpoint plan.child ∧
    plan.Due offered checkpoint found.2 w

omit [DecidableEq ι] in
theorem Found.rely {found : ThreadContext × StartIdentity} (h : plan.Found offered found w)
    (hrely : plan.Rely offered w w') : plan.Found offered found w' := by
  obtain ⟨checkpoint, hcontext, hdue⟩ := h
  exact ⟨checkpoint, hcontext, hdue.rely hrely⟩

structure Offers (plan : ForkPlan) (offered : ThreadCheckpoint → Prop) (checkpoint : ThreadCheckpoint)
    (w : ForkWorld ι) : Prop where
  offered : offered checkpoint
  made : plan.Made w.inner checkpoint

section
omit [DecidableEq ι]

theorem Offers.rely (h : plan.Offers offered checkpoint w) (hrely : plan.Rely offered w w') :
    plan.Offers offered checkpoint w' := ⟨h.offered, hrely.made checkpoint h.made⟩

theorem Offers.coordinates (h : plan.Offers offered checkpoint w) :
    forkCoordinates checkpoint plan.child = plan.coordinates := by
  rw [forkCoordinates, h.made.1]
  rfl

end

/-- **Where nothing of the child is there, the fork's own branch is cloned.** -/
theorem leads_cloneForked_blank (hcheckpoint : plan.Offers offered checkpoint w)
    (hw : plan.Blank w) :
    plan.Leads offered hosting i (fun context => plan.Found offered (context, .reconciled))
      (cloneForked checkpoint plan.child) w := by
  have hkeeps : ∀ w w' : ForkWorld ι, plan.Offers offered checkpoint w ∧ plan.Blank w →
      plan.Rely offered w w' → plan.Offers offered checkpoint w' ∧ plan.Blank w' :=
    fun _ _ h hrely => ⟨h.1.rely hrely, hrely.phase .blank h.2⟩
  have hread : plan.Leads offered hosting i
      (fun leaf w' => (plan.Offers offered checkpoint w' ∧ plan.Blank w') ∧
        ∀ id, leaf = .ok id → id = none)
      (storeCall (.activeLeaf (forkCoordinates checkpoint plan.child))) w := by
    refine leads_read hkeeps trivial (fun w leaf w' hw hserved => ?_) ⟨hcheckpoint, hw⟩
    obtain ⟨hheard, rfl⟩ := hserved
    rw [hw.1.coordinates, hw.2.activeLeaf] at hheard
    rintro id rfl
    rcases hheard with hsame | ⟨e, hfailed⟩
    · exact Except.ok.inj hsame
    · cases hfailed
  refine leads_bind hread fun leaf w₁ h₁ => ?_
  refine leads_bind (leads_orHistory hkeeps h₁.1) fun id w₂ h₂ => ?_
  obtain ⟨h₂, hid⟩ := h₂
  obtain rfl := h₁.2 id hid
  have hclone : plan.Leads offered hosting i
      (fun cloned w' => ∀ leaf, cloned = .ok leaf → plan.Unstarted offered checkpoint w')
      (storeCall (.cloneBranch checkpoint.coordinates checkpoint.activeEntryId
        (forkCoordinates checkpoint plan.child))) w₂ := by
    refine leads_storeCall hkeeps (fun _ _ _ h hrely leaf hok => (h leaf hok).rely hrely)
      (fun w hw => ⟨hw.2, checkpoint, hw.1.offered, hw.1.made, hw.1.made.1, rfl,
        hw.1.coordinates⟩) (fun w cloned w' hw hserved leaf hok => ?_) h₂
    rcases served_clone hw.2 hw.1.offered hw.1.made hw.1.made.1 hw.1.coordinates hserved
      with hunstarted | ⟨⟨e, rfl⟩, -⟩
    · exact hunstarted
    · cases hok
  refine leads_bind hclone fun cloned w₃ h₃ => ?_
  cases cloned with
  | error e => exact leads_throw
  | ok cloned => exact .pure fun w' hw' => ⟨checkpoint, rfl, (h₃ cloned rfl).rely hw'⟩

/-- **A branch that was cloned tells its checkpoint**, whatever checkpoint the fork is of. -/
theorem leads_cloneForked_cloned {made : ThreadCheckpoint}
    (hcheckpoint : plan.Offers offered checkpoint w) (hw : plan.Unstarted offered made w) :
    plan.Leads offered hosting i (fun context => plan.Found offered (context, .reconciled))
      (cloneForked checkpoint plan.child) w := by
  have hkeeps : ∀ w w' : ForkWorld ι, plan.Offers offered checkpoint w ∧ plan.Unstarted offered made w →
      plan.Rely offered w w' → plan.Offers offered checkpoint w' ∧ plan.Unstarted offered made w' :=
    fun _ _ h hrely => ⟨h.1.rely hrely, h.2.rely hrely⟩
  have hread : plan.Leads offered hosting i
      (fun leaf w' => (plan.Offers offered checkpoint w' ∧ plan.Unstarted offered made w') ∧
        leaf ≠ .ok none)
      (storeCall (.activeLeaf (forkCoordinates checkpoint plan.child))) w := by
    refine leads_read hkeeps trivial (fun w leaf w' hw hserved => ?_) ⟨hcheckpoint, hw⟩
    obtain ⟨hheard, rfl⟩ := hserved
    rw [hw.1.coordinates] at hheard
    rintro rfl
    rcases hheard with hsame | ⟨e, hfailed⟩
    · exact hw.2.activeLeaf hsame.symm
    · cases hfailed
  refine leads_bind hread fun leaf w₁ h₁ => ?_
  refine leads_bind (leads_orHistory hkeeps h₁.1) fun id w₂ h₂ => ?_
  obtain ⟨h₂, hid⟩ := h₂
  cases id with
  | none => exact (h₁.2 hid).elim
  | some id =>
    have hbuild : plan.Leads offered hosting i
        (fun built w' => (plan.Offers offered checkpoint w' ∧ plan.Unstarted offered made w') ∧
          ∀ context, built = .ok context →
            clonedContext checkpoint plan.child context.entries =
              .ok (desiredContext made plan.child))
        (storeCall (.buildContext (forkCoordinates checkpoint plan.child))) w₂ := by
      refine leads_read hkeeps trivial (fun w built w' hw hserved => ?_) h₂
      obtain ⟨hheard, rfl⟩ := hserved
      rw [hw.1.coordinates] at hheard
      rintro context rfl
      rcases hheard with hsame | ⟨e, hfailed⟩
      · obtain ⟨last, hlast, hmade⟩ := hw.2.buildContext hsame.symm
        exact clonedContext_of_last hlast hmade
          (hw.1.made.1.trans hw.2.branched.made.1.symm)
      · cases hfailed
    refine leads_bind hbuild fun built w₃ h₃ => ?_
    refine leads_bind (leads_orHistory hkeeps h₃.1) fun context w₄ h₄ => ?_
    refine (leads_orFail hkeeps h₄.1).imp (fun found w' h => ⟨made, ?_, h.1.2⟩) fun _ _ h => h
    exact Except.ok.inj (h.2.symm.trans (h₃.2 context h₄.2))

/-- **What a fork finds**: the checkpoint that is settled, or it settles its own. -/
theorem leads_recoverFork (hcheckpoint : plan.Offers offered checkpoint w)
    (hw : plan.At offered phase w) :
    plan.Leads offered hosting i (plan.Found offered) (recoverFork checkpoint plan.child) w := by
  have hkeeps : ∀ w w' : ForkWorld ι, plan.Offers offered checkpoint w ∧ plan.At offered phase w →
      plan.Rely offered w w' → plan.Offers offered checkpoint w' ∧ plan.At offered phase w' :=
    fun _ _ h hrely => ⟨h.1.rely hrely, hrely.phase phase h.2⟩
  have hread : plan.Leads offered hosting i
      (fun read w' => (plan.Offers offered checkpoint w' ∧ plan.At offered phase w') ∧
        ∀ events, read = .ok events → phase.tells plan events)
      (storeCall (.readEvents (.forThread (forkCoordinates checkpoint plan.child)))) w := by
    refine leads_read hkeeps trivial (fun w read w' hw hserved => ?_) ⟨hcheckpoint, hw⟩
    obtain ⟨hheard, rfl⟩ := hserved
    rw [hw.1.coordinates] at hheard
    change Heard (InMemory.readEvents w'.inner plan.stream none) read at hheard
    rw [readEvents_all] at hheard
    rintro events rfl
    rcases hheard with hsame | ⟨e, hfailed⟩
    · obtain rfl := Except.ok.inj hsame
      exact At.tells hw.2
    · cases hfailed
  refine leads_bind hread fun read w₁ h₁ => ?_
  refine leads_bind (leads_orHistory hkeeps h₁.1) fun events w₂ h₂ => ?_
  refine leads_bind (leads_orPanic hkeeps h₂.1) fun durable w₃ h₃ => ?_
  obtain ⟨h₃, hdurable⟩ := h₃
  have htells := h₁.2 events h₂.2
  rw [h₃.1.coordinates, h₃.1.made.1] at hdurable
  have hreconciled {context : ThreadContext} {w' : ForkWorld ι}
      (h : plan.Found offered (context, .reconciled) w') :
      plan.Leads offered hosting i (plan.Found offered)
        (pure (context, .reconciled) : HostM ι (ThreadContext × StartIdentity)) w' :=
    .pure fun _ hw' => h.rely hw'
  cases durable with
  | some context =>
    cases phase with
    | blank => exact (htells context hdurable).elim
    | cloned made => exact (htells context hdurable).elim
    | started made =>
      obtain rfl := Option.some.inj (Option.some.inj (hdurable.symm.trans htells))
      refine leads_bind (leads_quiet hkeeps (makes_read trivial) h₃) fun leaf w₄ h₄ => ?_
      refine leads_bind (leads_quiet hkeeps (.bind makes_orKernel fun _ => .pure) h₄)
        fun _ w₅ h₅ => ?_
      exact .pure fun w' hw' => ⟨made, rfl, hw'.phase (.started made) h₅.2⟩
  | none =>
    cases phase with
    | blank => exact leads_bind (leads_cloneForked_blank h₃.1 h₃.2) fun _ _ h => hreconciled h
    | cloned made =>
      exact leads_bind (leads_cloneForked_cloned h₃.1 h₃.2) fun _ _ h => hreconciled h
    | started made => cases hdurable.symm.trans htells

section
omit [DecidableEq ι]

theorem At.returns (h : plan.At offered phase w)
    (hthread : w.maps.threads.lookup plan.child = some thread) : plan.Returns offered thread w := by
  cases phase with
  | blank =>
    rw [h.registered] at hthread
    cases hthread
  | cloned made => exact ⟨made, .inl h, h.branched.registered thread hthread⟩
  | started made =>
    obtain ⟨start, entry, rest, hbranched, -⟩ := h.recorded
    exact ⟨made, .inr h, hbranched.registered thread hthread⟩

theorem makes_reserveFork : Makes Quiet (reserveFork context : HostM ι Bool) := by
  have hreserve : Makes Quiet (reserveThreadStart context : HostM ι Unit) := by
    refine .bind makes_suspend fun _ => .bind (.await trivial) fun answer => ?_
    cases answer with
    | reserved => exact .pure
    | alreadyExists => exact .throw
    | full => exact .bind makes_rejectChild fun _ => .throw
  refine .tryCatch (.bind hreserve fun _ => .pure) fun e => ?_
  cases e with
  | failed error =>
    cases error with
    | threadAlreadyExists existing =>
      dsimp only
      split
      · exact .bind makes_waitForThreadStartReservation fun _ => .pure
      · exact .throw
    | _ => exact .throw
  | _ => exact .throw

end

/-- **Every fork of the child returns the thread of the checkpoint that is settled.** -/
theorem leads_fork {notify : Bool} {rounds : Nat} (hcheckpoint : plan.Offers offered checkpoint w)
    (hw : plan.At offered phase w) :
    plan.Leads offered hosting i (plan.Returns offered)
      (forkThreadFromCheckpointWithId hosting.config notify checkpoint plan.child rounds) w := by
  have hkeeps : ∀ w w' : ForkWorld ι, plan.Offers offered checkpoint w ∧ plan.At offered phase w →
      plan.Rely offered w w' → plan.Offers offered checkpoint w' ∧ plan.At offered phase w' :=
    fun _ _ h hrely => ⟨h.1.rely hrely, hrely.phase phase h.2⟩
  induction rounds generalizing w with
  | zero => exact leads_throw
  | succ rounds ih =>
    refine leads_bind (leads_quiet hkeeps makes_suspend ⟨hcheckpoint, hw⟩) fun _ w₁ h₁ => ?_
    refine .await fun w₂ hw₂ => ⟨trivial, fun registered w₃ hserved => ?_⟩
    have hquiet : Quiet (HostCall.getThread plan.child : HostCall ι) := trivial
    have h₂ := hkeeps _ _ h₁ hw₂
    have h₃ := hkeeps _ _ h₂ (rely_of_quiet hquiet hserved)
    cases registered with
    | some handle =>
      dsimp only
      split
      · obtain ⟨maps, ⟨hregistered, rfl⟩, rfl⟩ := hserved
        exact .pure fun w' hw' => (At.returns h₂.2 hregistered.symm).rely hw'
      · exact leads_throw
    | none =>
      refine leads_bind (leads_quiet hkeeps makes_reserveFork h₃) fun reserved w₄ h₄ => ?_
      cases reserved with
      | false => exact ih h₄.1 h₄.2
      | true =>
        refine leads_bind (leads_guarding (fun _ _ _ h hrely => h.rely hrely)
          (leads_recoverFork h₄.1 h₄.2) (.await trivial)) fun found w₅ h₅ => ?_
        obtain ⟨made, hcontext, hdue⟩ := h₅
        exact leads_startReservedThread hcontext hdue

end ForkPlan

end Verlet.Kernel
