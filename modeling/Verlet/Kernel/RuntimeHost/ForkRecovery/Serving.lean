import Verlet.Kernel.RuntimeHost.ForkRecovery.Phases
import Verlet.Kernel.RuntimeHost.ThreadStarts.Calls

/-!
# Kernel — The runtime host — Fork recovery — Serving

How the calls of a fork are served.  A write of the store happens whole or not at all, and where it
happens its caller may still hear of a failure; a read may fail.

* `served_append`, `served_clone`, `served_publish`: what the writes do.
-/

namespace Verlet.Kernel
open Support History
open History.InMemory (Inner targets)

/-- A caller hears an answer as it is, or of a failure. -/
def Heard {α : Type} (answer result : HistoryResult α) : Prop :=
  result = answer ∨ ∃ error, result = .error error

/-- A call of the operation takes effect. -/
def Commits (op : Op) (s : Inner) (reply : Reply) (s' : Inner) : Prop :=
  ∃ call : Call, call.op = op ∧ InMemory.Fresh s call ∧ InMemory.step call s = (.ok reply, s')

def ForkWorld.serves {ι : Type} [DecidableEq ι] (hosting : Hosting ι) (i : ι) :
    (call : HostCall ι) → ForkWorld ι → call.Reply → ForkWorld ι → Prop
  | .readEvents streamId, w, result, w' =>
    Heard (InMemory.readEvents w.inner streamId none) result ∧ w' = w
  | .activeLeaf coordinates, w, result, w' =>
    Heard (InMemory.activeLeaf w.inner coordinates) result ∧ w' = w
  | .buildContext coordinates, w, result, w' =>
    Heard (InMemory.buildContext w.inner coordinates) result ∧ w' = w
  | .append coordinates kind, w, result, w' =>
    (w' = w ∧ ∃ error, result = .error error) ∨
    ∃ entry s', Commits (.append coordinates none kind none) w.inner (.entry entry) s' ∧
      Heard (.ok entry) result ∧ w' = { w with inner := s' }
  | .cloneBranch source sourceLeaf target, w, result, w' =>
    (w' = w ∧ ∃ error, result = .error error) ∨
    ∃ leaf s', Commits (.cloneBranch source sourceLeaf target) w.inner (.leaf leaf) s' ∧
      Heard (.ok leaf) result ∧
      w' = { w with inner := s', clones := w.clones ++ [⟨source, sourceLeaf, target⟩] }
  | .selectBranch coordinates leaf, w, result, w' =>
    (w' = w ∧ ∃ error, result = .error error) ∨
    ∃ s', Commits (.selectBranch coordinates leaf) w.inner .unit s' ∧
      Heard (.ok ()) result ∧ w' = { w with inner := s' }
  | call, w, reply, w' => ∃ maps, hosting.serves i call w.maps reply maps ∧ w' = { w with maps := maps }

namespace ForkPlan

variable {ι : Type} (plan : ForkPlan) (offered : ThreadCheckpoint → Prop)

/-- What the others leave a fork: its phase, and the checkpoints of the parent. -/
structure Rely (w w' : ForkWorld ι) : Prop where
  phase : ∀ phase, plan.At offered phase w → plan.At offered phase w'
  made : ∀ checkpoint, plan.Made w.inner checkpoint → plan.Made w'.inner checkpoint

/-- What a fork may ask: it clones where nothing is there, records the start of what it cloned, and
publishes it. -/
def asks : HostCall ι → ForkWorld ι → Prop
  | .cloneBranch source sourceLeaf target, w =>
    plan.Blank w ∧ ∃ checkpoint, offered checkpoint ∧ plan.Made w.inner checkpoint ∧
      source = plan.parent ∧ sourceLeaf = checkpoint.activeEntryId ∧ target = plan.coordinates
  | .append coordinates kind, w =>
    ∃ checkpoint, plan.Unstarted offered checkpoint w ∧ coordinates = plan.coordinates ∧
      kind = startIdentityKind (desiredContext checkpoint plan.child)
  | .publish context, w =>
    ∃ checkpoint, plan.Settled offered checkpoint w ∧
      context = desiredContext checkpoint plan.child
  | .selectBranch _ _, _ => False
  | _, _ => True

/-- The calls that neither write the store nor publish a thread. -/
def Quiet : HostCall ι → Prop
  | .append _ _        => False
  | .cloneBranch _ _ _ => False
  | .selectBranch _ _  => False
  | .publish _         => False
  | _                  => True

instance : Hosting.TakesPlain (Quiet : HostCall ι → Prop) where
  plain {call} h := by cases call <;> first | exact h.elim | exact trivial

variable {plan offered} {w w' w'' : ForkWorld ι} {checkpoint : ThreadCheckpoint}

theorem Rely.refl (w : ForkWorld ι) : plan.Rely offered w w := ⟨fun _ h => h, fun _ h => h⟩

theorem Rely.trans (h : plan.Rely offered w w') (h' : plan.Rely offered w' w'') :
    plan.Rely offered w w'' :=
  ⟨fun phase hphase => h'.phase phase (h.phase phase hphase),
    fun checkpoint hmade => h'.made checkpoint (h.made checkpoint hmade)⟩

theorem Settled.rely (h : plan.Settled offered checkpoint w) (hrely : plan.Rely offered w w') :
    plan.Settled offered checkpoint w' :=
  h.imp (hrely.phase (.cloned checkpoint)) (hrely.phase (.started checkpoint))

theorem Rely.others (h : plan.Others w w') : plan.Rely offered w w' where
  phase _ hphase := At.others hphase h
  made checkpoint hmade := by
    cases h with
    | host => exact hmade
    | store hcall =>
      exact hmade.mono fun _ _ _ he => InMemory.entryAt_step hcall.fresh he

variable [DecidableEq ι] {hosting : Hosting ι} {i : ι}

omit [DecidableEq ι] in
theorem Quiet.asks {call : HostCall ι} (h : Quiet call) (w : ForkWorld ι) :
    plan.asks offered call w := by
  cases call <;> first | exact h.elim | exact trivial

theorem registered_of_serves {call : HostCall ι} {reply : call.Reply} {maps maps' : HostMaps ι}
    (hcall : Quiet call) (h : hosting.serves i call maps reply maps') {id : ThreadId}
    {thread : RuntimeThread ι} (hthread : maps'.threads.lookup id = some thread) :
    maps.threads.lookup id = some thread := by
  cases call with
  | publish | append | cloneBranch | selectBranch => exact hcall.elim
  | reserveStart context =>
    rcases Hosting.reserveStart_cases h with ⟨-, rfl, -⟩ | ⟨-, rfl⟩
    · exact hthread
    · exact hthread
  | releaseStart threadId =>
    obtain rfl := h
    exact hthread
  | removeThreadIfCurrent removed =>
    rcases Hosting.removeThreadIfCurrent_cases h with rfl | ⟨rfl, -⟩
    · change (maps.threads.erase removed.threadId).lookup id = some thread at hthread
      rw [Map.lookup_erase] at hthread
      split at hthread
      · cases hthread
      · exact hthread
    · exact hthread
  | getThread | subscribeStart =>
    obtain ⟨-, rfl⟩ := h
    exact hthread
  | _ =>
    obtain rfl := h
    exact hthread

theorem serves_quiet {call : HostCall ι} {reply : call.Reply} (hcall : Quiet call)
    (h : w.serves hosting i call reply w') :
    w' = w ∨ ∃ maps, hosting.serves i call w.maps reply maps ∧ w' = { w with maps := maps } := by
  cases call with
  | publish | append | cloneBranch | selectBranch => exact hcall.elim
  | readEvents | activeLeaf | buildContext => exact .inl h.2
  | _ => exact .inr h

/-- **A quiet call leaves every phase.** -/
theorem rely_of_quiet {call : HostCall ι} {reply : call.Reply} (hcall : Quiet call)
    (h : w.serves hosting i call reply w') : plan.Rely offered w w' := by
  rcases serves_quiet hcall h with rfl | ⟨maps, hmaps, rfl⟩
  · exact .refl w'
  · refine ⟨fun phase hphase => At.registering hphase fun thread hthread => .inl ?_, fun _ h => h⟩
    exact registered_of_serves hcall hmaps hthread

/-! ### The writes of a fork -/

section
omit [DecidableEq ι]
variable {s s' : Inner} {call : Call} {reply : Reply}

theorem Kept.step (h : plan.Kept s) (hfresh : InMemory.Fresh s call)
    (hstep : InMemory.step call s = (.ok reply, s'))
    (hother : ¬ targets plan.parent.threadId call.op) : plan.Kept s' := by
  obtain rfl : (InMemory.step call s).2 = s' := by rw [hstep]
  refine ⟨h.sound.step hfresh, fun id entry hentry => ?_⟩
  rw [(InMemory.untouched_step hother).entries] at hentry
  exact h.honest id entry hentry

theorem entries_of_step (hfresh : InMemory.Fresh s call)
    (hstep : InMemory.step call s = (.ok reply, s')) (thread : ThreadId)
    (id : SessionEntryId) (e : SessionEntry) (he : s.entryAt thread id = some e) :
    s'.entryAt thread id = some e := by
  obtain rfl : (InMemory.step call s).2 = s' := by rw [hstep]
  exact InMemory.entryAt_step hfresh he

/-- **A start that is appended is recorded.** -/
theorem Unstarted.append (hw : plan.Unstarted offered checkpoint w)
    (h : Commits (.append plan.coordinates none
      (startIdentityKind (desiredContext checkpoint plan.child)) none) w.inner reply s') :
    plan.Started offered checkpoint { w with inner := s' } := by
  obtain ⟨⟨epoch, draws, op⟩, rfl, hfresh, hstep⟩ := h
  have hkept := hw.branched.kept.step hfresh hstep fun htarget => plan.apart htarget
  have hentries := entries_of_step hfresh hstep
  cases InMemory.step_ok_iff.mp hstep with
  | append hparent hentry hj =>
    subst hentry
    have hgrown := hw.branched.grow hkept hentries InMemory.eventsOf_takeEntry
    rw [List.nil_append] at hgrown
    refine ⟨_, _, [], hgrown, records_sessionEntryEvent .., rfl, fun event hevent => ?_⟩
    exact (List.not_mem_nil hevent).elim

/-- **A branch that is cloned ends at its checkpoint.** -/
theorem Blank.clone (hw : plan.Blank w) (hoffered : offered checkpoint)
    (hmade : plan.Made w.inner checkpoint)
    (h : Commits (.cloneBranch plan.parent checkpoint.activeEntryId plan.coordinates) w.inner reply s') :
    plan.Unstarted offered checkpoint { w with
      inner := s'
      clones := w.clones ++ [⟨plan.parent, checkpoint.activeEntryId, plan.coordinates⟩] } := by
  obtain ⟨⟨epoch, draws, op⟩, rfl, hfresh, hstep⟩ := h
  have hkept := hw.kept.step hfresh hstep fun htarget => plan.apart htarget
  have hentries := entries_of_step hfresh hstep
  have hmade' := hmade.mono hentries
  obtain ⟨-, sourceLeaf, made, hleaf, hentry, hcheckpoint⟩ := hmade
  rw [hleaf] at hstep
  cases InMemory.step_ok_iff.mp hstep with
  | @cloneSome _ _ _ _ _ path cloned last hpath hcloned hlast hj =>
    subst hcloned
    obtain ⟨source, hsource, hend⟩ := InMemory.Inner.branchPath_last hpath
    obtain rfl : made = source := Option.some.inj (hentry.symm.trans hsource)
    have hkind : IsCheckpoint checkpoint last := by
      rw [IsCheckpoint, InMemory.kind_of_last_cloneEntries hlast hend]
      exact hcheckpoint
    refine ⟨⟨hkept, hoffered, hmade', ?_, ⟨sourceLeaf, path, draws, hleaf, ?_, ?_⟩, ?_⟩,
      @InMemory.bases_takeClone _ _ _ plan.coordinates _ _, last,
      @InMemory.activeLeaf_takeClone _ _ _ plan.coordinates _ _,
      @InMemory.entryAt_takeClone _ _ _ plan.coordinates _ _ hlast, hkind⟩
    · rw [hw.clones]
      rfl
    · exact InMemory.branchPath_of_entries hentries hpath
    · refine InMemory.eventsOf_takeClone.trans ?_
      change w.inner.eventsOf plan.stream ++
        History.numbered plan.stream (w.inner.eventsOf plan.stream).length _ = _
      rw [hw.events, List.append_nil]
      rfl
    · intro thread hthread
      rw [hw.registered] at hthread
      cases hthread

end

theorem served_append {coordinates : ThreadCoordinates} {context : ThreadContext}
    {result : HistoryResult SessionEntry} (hw : plan.Unstarted offered checkpoint w)
    (hcoordinates : coordinates = plan.coordinates)
    (hcontext : context = desiredContext checkpoint plan.child)
    (h : w.serves hosting i (.append coordinates (startIdentityKind context)) result w') :
    plan.Started offered checkpoint w' ∨
      (∃ error, result = .error error) ∧ plan.Unstarted offered checkpoint w' := by
  subst hcoordinates hcontext
  rcases h with ⟨rfl, herror⟩ | ⟨entry, s', htakes, -, rfl⟩
  · exact .inr ⟨herror, hw⟩
  · exact .inl (hw.append htakes)

theorem served_clone {source target : ThreadCoordinates}
    {result : HistoryResult (Option SessionEntryId)} (hw : plan.Blank w)
    (hoffered : offered checkpoint) (hmade : plan.Made w.inner checkpoint)
    (hsource : source = plan.parent) (htarget : target = plan.coordinates)
    (h : w.serves hosting i (.cloneBranch source checkpoint.activeEntryId target) result w') :
    plan.Unstarted offered checkpoint w' ∨ (∃ error, result = .error error) ∧ plan.Blank w' := by
  subst hsource htarget
  rcases h with ⟨rfl, herror⟩ | ⟨leaf, s', htakes, -, rfl⟩
  · exact .inr ⟨herror, hw⟩
  · exact .inl (hw.clone hoffered hmade htakes)

/-- **The fork is published** under the child's id. -/
theorem served_publish (phase : Phase) {context : ThreadContext} {thread : RuntimeThread ι}
    (hw : plan.At offered phase w) (hphase : phase.names plan context)
    (h : w.serves hosting i (.publish context) thread w') :
    plan.At offered phase w' ∧ thread.context = context := by
  obtain ⟨maps, hmaps, rfl⟩ := h
  obtain ⟨rfl, rfl⟩ := Prod.mk.inj hmaps
  refine ⟨At.registering hw fun found hfound => ?_, rfl⟩
  change (w.maps.threads.insert context.coordinates.threadId ⟨context, i⟩).lookup plan.child = _
    at hfound
  rw [Map.lookup_insert] at hfound
  split at hfound
  · obtain rfl := Option.some.inj hfound
    exact .inr hphase
  · exact .inl hfound

/-- **Whatever a fork may ask, some phase is kept**, and with it what is the fork's. -/
theorem live_of_serves {phase : Phase} {call : HostCall ι} {reply : call.Reply}
    (hw : plan.At offered phase w) (hasks : plan.asks offered call w)
    (h : w.serves hosting i call reply w') :
    ∃ phase', plan.At offered phase' w' ∧
      ∀ context, phase.names plan context → phase'.names plan context := by
  have hquiet (hcall : Quiet call) : ∃ phase', plan.At offered phase' w' ∧
      ∀ context, phase.names plan context → phase'.names plan context :=
    ⟨phase, (rely_of_quiet hcall h).phase phase hw, fun _ hnamed => hnamed⟩
  cases call with
  | append coordinates kind =>
    obtain ⟨checkpoint, hunstarted, hcoordinates, rfl⟩ := hasks
    have hnames : ∀ context, phase.names plan context →
        context = desiredContext checkpoint plan.child :=
      fun _ => (At.names_iff hw hunstarted.branched).mp
    rcases served_append hunstarted hcoordinates rfl h with hstarted | ⟨-, hunstarted⟩
    · exact ⟨.started checkpoint, hstarted, hnames⟩
    · exact ⟨.cloned checkpoint, hunstarted, hnames⟩
  | cloneBranch source sourceLeaf target =>
    obtain ⟨hblank, checkpoint, hoffered, hmade, hsource, rfl, htarget⟩ := hasks
    have hnone : ∀ context, ¬ phase.names plan context := fun context => hw.not_named hblank
    rcases served_clone hblank hoffered hmade hsource htarget h with hunstarted | ⟨-, hblank⟩
    · exact ⟨.cloned checkpoint, hunstarted, fun context hnamed => (hnone context hnamed).elim⟩
    · exact ⟨.blank, hblank, hnone⟩
  | publish context =>
    obtain ⟨checkpoint, hsettled, rfl⟩ := hasks
    obtain ⟨rest, hbranched⟩ := hsettled.branched
    have hnames : ∀ context, phase.names plan context →
        context = desiredContext checkpoint plan.child :=
      fun _ => (At.names_iff hw hbranched).mp
    rcases hsettled with hw | hw
    · exact ⟨.cloned checkpoint, (served_publish (.cloned checkpoint) hw rfl h).1, hnames⟩
    · exact ⟨.started checkpoint, (served_publish (.started checkpoint) hw rfl h).1, hnames⟩
  | selectBranch => exact hasks.elim
  | _ => exact hquiet trivial

end ForkPlan

end Verlet.Kernel
