import Verlet.Kernel.ProcessHandleDispatch.Starts
import Verlet.Support.Pools

/-!
# Kernel — Process handle dispatch — One start

Any number of calls of `dispatch_start_inner`, at any number of dispatchers over one store.  Between
their steps monitors settle, entries of `locks` go, calls are dropped and daemons restart, so that
what a dispatcher keeps in memory may become anything; the streams only grow.

A backend starts at most once for a consumer and a dispatch, and it is not the locks that see to it: a
call starts only the process of the binding it reads, the binding names its own process id, and all
bindings of a dispatch that were ever read are the same.
-/

namespace Verlet.Kernel
open Support Io History RemoteStore
open Function (update update_of_ne update_self)

/-- What a dispatcher keeps in memory. -/
structure DispatchRegistry where
  locks : String → Option Nat
  liveBindings : Uuid → Option HandleDispatchEnvelope
  terminalMonitors : Uuid → Bool

/-- The store, the dispatchers and their locks; the process id that each call drew, and the backends
that were started, by whom and with which id. -/
structure DispatchWorld (σ ι : Type) where
  store : σ
  registries : Nat → DispatchRegistry
  held : Nat → Bool
  nextLock : Nat
  minted : ι → Option Uuid
  started : List (ι × Uuid)

/-- Calls over a store, each at a dispatcher. -/
structure Dispatching (σ ι : Type) where
  store : JournalStore σ
  sha256Hex : String → String
  uuidError : String → String
  calls : ι → DispatchStart
  dispatcher : ι → Nat
  start : σ

variable {binding : HandleDispatchEnvelope} {processId : Uuid} {lock : Nat}

namespace Dispatching

variable {σ ι : Type} [DecidableEq ι] {dispatching : Dispatching σ ι} {i j : ι}
  {w w' w'' : DispatchWorld σ ι}

/-! ### Calls on the world -/

variable (dispatching) in
def Grows (s s' : σ) : Prop :=
  ∀ streamId, dispatching.store.events s streamId <+: dispatching.store.events s' streamId

section
omit [DecidableEq ι]

theorem Grows.refl (s : σ) : dispatching.Grows s s := fun _ => List.prefix_refl _

theorem Grows.trans {s s' s'' : σ} (h : dispatching.Grows s s') (h' : dispatching.Grows s' s'') :
    dispatching.Grows s s'' := fun streamId => (h streamId).trans (h' streamId)

end

variable (dispatching)

def register (i : ι) (change : DispatchRegistry → DispatchRegistry) (w : DispatchWorld σ ι) :
    DispatchWorld σ ι :=
  { w with
    registries := update w.registries (dispatching.dispatcher i)
      (change (w.registries (dispatching.dispatcher i))) }

/-- What calls are answered by what is not modelled, and what the sink leaves of the store. -/
structure Answers (σ : Type) where
  processId : Uuid
  nowMs : Nat
  submitted : VerletResult Unit
  store : σ
  outcome : ProcessResult AsyncProcessOutcome
  done : ProcessResult Unit
  accepted : Bool
  joined : Option String

/-- A call of a process, with what it is answered. -/
def serve (answers : Answers σ) (i : ι) :
    (call : DispatchCall) → DispatchWorld σ ι → call.Reply × DispatchWorld σ ι
  | .dispatchLock dispatchId, w =>
    match (w.registries (dispatching.dispatcher i)).locks dispatchId.text with
    | some lock => (lock, w)
    | none      =>
      (w.nextLock, dispatching.register i (fun registry =>
        { registry with locks := update registry.locks dispatchId.text (some w.nextLock) })
          { w with nextLock := w.nextLock + 1 })
  | .lock lock, w => ((), { w with held := update w.held lock true })
  | .unlock lock, w => ((), { w with held := update w.held lock false })
  | .readControlEvents consumer, w =>
    (dispatching.store.readEvents (controlStreamId consumer) w.store, w)
  | .newProcessId, w =>
    (answers.processId, { w with minted := update w.minted i (some answers.processId) })
  | .nowMs, w => (answers.nowMs, w)
  | .submitProcessHandleEnvelope _, w => (answers.submitted, { w with store := answers.store })
  | .insertBinding processId binding, w =>
    ((), dispatching.register i (fun registry =>
      { registry with
        liveBindings := update registry.liveBindings processId (some binding) }) w)
  | .removeBinding processId, w =>
    ((), dispatching.register i (fun registry =>
      { registry with liveBindings := update registry.liveBindings processId none }) w)
  | .releaseEntry dispatchId lock, w =>
    ((), dispatching.register i (fun registry =>
      if registry.locks dispatchId.text = some lock then
        { registry with locks := update registry.locks dispatchId.text none }
      else registry) w)
  | .snapshot _ _, w => (answers.outcome, w)
  | .insertMonitor processId, w =>
    (!(w.registries (dispatching.dispatcher i)).terminalMonitors processId,
      dispatching.register i (fun registry =>
        { registry with
          terminalMonitors := update registry.terminalMonitors processId true }) w)
  | .removeMonitor processId, w =>
    ((), dispatching.register i (fun registry =>
      { registry with
        terminalMonitors := update registry.terminalMonitors processId false }) w)
  | .spawnMonitor _, w => (answers.accepted, w)
  | .deliverSetupFailure _ _, w => ((), { w with store := answers.store })
  | .cleanupExpired, w => ((), w)
  | .nextProcessId, w => (answers.processId, w)
  | .backendStart processId _, w =>
    (answers.done, { w with started := (i, processId) :: w.started })
  | .insertEntry _ _, w => (answers.done, w)
  | .waitForSnapshot _ _, w => (answers.outcome, w)
  | .joinStart, w => (answers.joined, w)

/-- When a call may be answered so: a lock is taken when it is free, a new process id is new, and the
sink appends what it will, a witness or not. -/
def Allows (answers : Answers σ) : DispatchCall → DispatchWorld σ ι → Prop
  | .lock lock, w => w.held lock = false
  | .newProcessId, w => ∀ j, w.minted j ≠ some answers.processId
  | .submitProcessHandleEnvelope _, w => dispatching.Grows w.store answers.store
  | .deliverSetupFailure _ _, w => dispatching.Grows w.store answers.store
  | _, _ => True

def serves (i : ι) (call : DispatchCall) (w : DispatchWorld σ ι) (r : call.Reply)
    (w' : DispatchWorld σ ι) : Prop :=
  ∃ answers, dispatching.Allows answers call w ∧ (r, w') = dispatching.serve answers i call w

/-- What else happens: the streams grow, and what is in memory may become anything. -/
def others (w w' : DispatchWorld σ ι) : Prop :=
  dispatching.Grows w.store w'.store ∧ w'.minted = w.minted ∧ w'.started = w.started

/-- What is taken up. -/
def starts (i : ι) (_ : DispatchWorld σ ι)
    (p : Proc DispatchCall DispatchCall.Reply (VerletResult AsyncProcessOutcome)) : Prop :=
  p = (dispatchStartInner dispatching.sha256Hex dispatching.uuidError (dispatching.calls i)).run

/-- Nothing is taken up. -/
def begin : DispatchWorld σ ι where
  store := dispatching.start
  registries _ := ⟨fun _ => none, fun _ => none, fun _ => false⟩
  held _ := false
  nextLock := 0
  minted _ := none
  started := []

abbrev Calls (σ ι : Type) :=
  Pool ι DispatchCall DispatchCall.Reply (VerletResult AsyncProcessOutcome) (DispatchWorld σ ι)

/-- What runs of the calls lead to. -/
def Reaches (pool : Calls σ ι) : Prop :=
  Pool.Reachable dispatching.starts dispatching.serves dispatching.others dispatching.begin pool

/-! ### Bindings that were read -/

/-- A read of the control stream, now or earlier, tells this binding of the call's dispatch. -/
def Bound (i : ι) (w : DispatchWorld σ ι) (binding : HandleDispatchEnvelope) : Prop :=
  ∃ seen, seen <+: dispatching.store.events w.store (controlStreamId (dispatching.calls i).consumer) ∧
    foldDispatch (dispatching.calls i).dispatchId seen = .ok (some binding)

variable {dispatching}

omit [DecidableEq ι] in
theorem Bound.mono (h : dispatching.Bound i w binding) (hgrows : dispatching.Grows w.store w'.store) :
    dispatching.Bound i w' binding := by
  obtain ⟨seen, hseen, hfold⟩ := h
  exact ⟨seen, hseen.trans (hgrows _), hfold⟩

variable (dispatching) in
/-- The calls are of one consumer and dispatch. -/
def SameDispatch (i j : ι) : Prop :=
  (dispatching.calls i).consumer = (dispatching.calls j).consumer ∧
    (dispatching.calls i).dispatchId = (dispatching.calls j).dispatchId

omit [DecidableEq ι] in
/-- **A dispatch has one binding.** -/
theorem Bound.unique {binding' : HandleDispatchEnvelope} (hsame : dispatching.SameDispatch i j)
    (h : dispatching.Bound i w binding) (h' : dispatching.Bound j w binding') :
    binding = binding' := by
  obtain ⟨seen, hseen, hfold⟩ := h
  obtain ⟨seen', hseen', hfold'⟩ := h'
  rw [← hsame.1] at hseen'
  rw [← hsame.2] at hfold'
  rcases List.prefix_or_prefix_of_prefix hseen hseen' with hle | hle
  · exact (Option.some.inj (foldDispatch_stable hle hfold hfold')).symm
  · exact Option.some.inj (foldDispatch_stable hle hfold' hfold)

/-! ### What is true in every run -/

variable (dispatching)

structure Good (w : DispatchWorld σ ι) : Prop where
  fresh : ∀ i j processId, w.minted i = some processId → w.minted j = some processId → i = j
  bound : ∀ i processId, (i, processId) ∈ w.started → w.minted i = some processId ∧
    dispatching.Bound i w ((dispatching.calls i).binding processId)
  once : w.started.Pairwise fun a b => a.1 ≠ b.1

/-- What the others leave a call. -/
structure Rely (i : ι) (w w' : DispatchWorld σ ι) : Prop where
  grows : dispatching.Grows w.store w'.store
  minted : w'.minted i = w.minted i
  started : ∀ processId, (i, processId) ∈ w'.started ↔ (i, processId) ∈ w.started

variable {dispatching}

section
omit [DecidableEq ι]

theorem Rely.refl (i : ι) (w : DispatchWorld σ ι) : dispatching.Rely i w w :=
  ⟨.refl _, rfl, fun _ => Iff.rfl⟩

theorem Rely.trans (h : dispatching.Rely i w w') (h' : dispatching.Rely i w' w'') :
    dispatching.Rely i w w'' :=
  ⟨h.grows.trans h'.grows, h'.minted.trans h.minted, fun p => (h'.started p).trans (h.started p)⟩

end

/-- The call has started nothing. -/
def Unstarted (i : ι) (w : DispatchWorld σ ι) : Prop := ∀ processId, (i, processId) ∉ w.started

variable (dispatching)

/-- The call may start the process: it drew the id, and read its own binding to it. -/
structure MayStart (i : ι) (processId : Uuid) (w : DispatchWorld σ ι) : Prop where
  minted : w.minted i = some processId
  unstarted : Unstarted i w
  bound : dispatching.Bound i w ((dispatching.calls i).binding processId)

/-- What a call of a process may be. -/
def asks (i : ι) : DispatchCall → DispatchWorld σ ι → Prop
  | .newProcessId, w => w.minted i = none ∧ Unstarted i w
  | .backendStart processId request, w =>
    request.processId = some processId ∧ dispatching.MayStart i processId w
  | _, _ => True

/-- What a call that succeeds has found: the binding of its dispatch has its digest. -/
def Agrees (i : ι) (w : DispatchWorld σ ι) : Prop :=
  ∃ binding, dispatching.Bound i w binding ∧
    binding.commandDigest = (dispatching.calls i).commandDigest

variable {dispatching}

section
omit [DecidableEq ι]

theorem Agrees.mono (h : dispatching.Agrees i w) (hrely : dispatching.Rely i w w') :
    dispatching.Agrees i w' := by
  obtain ⟨binding, hbound, hdigest⟩ := h
  exact ⟨binding, hbound.mono hrely.grows, hdigest⟩

theorem MayStart.mono (h : dispatching.MayStart i processId w) (hrely : dispatching.Rely i w w') :
    dispatching.MayStart i processId w' :=
  ⟨hrely.minted.trans h.minted, fun p hp => h.unstarted p ((hrely.started p).mp hp),
    h.bound.mono hrely.grows⟩

end

/-! ### What one call does -/

/-- The calls that neither draw a process id nor start a backend. -/
def Quiet : DispatchCall → Prop
  | .newProcessId | .backendStart _ _ => False
  | _ => True

theorem others_of_quiet {call : DispatchCall} {r : call.Reply} (hquiet : Quiet call)
    (h : dispatching.serves i call w r w') : dispatching.others w w' := by
  obtain ⟨answers, hallows, hserve⟩ := h
  cases call with
  | newProcessId => exact hquiet.elim
  | backendStart processId request => exact hquiet.elim
  | dispatchLock dispatchId =>
    dsimp only [serve] at hserve
    split at hserve
    · obtain ⟨-, rfl⟩ := Prod.mk.inj hserve
      exact ⟨.refl _, rfl, rfl⟩
    · obtain ⟨-, rfl⟩ := Prod.mk.inj hserve
      exact ⟨.refl _, rfl, rfl⟩
  | submitProcessHandleEnvelope envelope =>
    obtain ⟨-, rfl⟩ := Prod.mk.inj hserve
    exact ⟨hallows, rfl, rfl⟩
  | deliverSetupFailure binding reason =>
    obtain ⟨-, rfl⟩ := Prod.mk.inj hserve
    exact ⟨hallows, rfl, rfl⟩
  | _ =>
    obtain ⟨-, rfl⟩ := Prod.mk.inj hserve
    exact ⟨.refl _, rfl, rfl⟩

section
omit [DecidableEq ι]

theorem rely_of_others (h : dispatching.others w w') (j : ι) : dispatching.Rely j w w' := by
  obtain ⟨hgrows, hminted, hstarted⟩ := h
  exact ⟨hgrows, congrFun hminted j, fun q => by rw [hstarted]⟩

theorem asks_of_quiet {call : DispatchCall} (hquiet : Quiet call) (w : DispatchWorld σ ι) :
    dispatching.asks i call w := by
  cases call with
  | newProcessId => exact hquiet.elim
  | backendStart processId request => exact hquiet.elim
  | _ => trivial

end

theorem Good.mint (h : dispatching.Good w) (hunstarted : Unstarted i w)
    (hnew : ∀ j, w.minted j ≠ some processId) :
    dispatching.Good { w with minted := update w.minted i (some processId) } := by
  refine ⟨fun j k q hj hk => ?_, fun j q hq => ?_, h.once⟩
  · rcases update_eq_some hj with ⟨rfl, hp⟩ | ⟨-, hj'⟩
    · rcases update_eq_some hk with ⟨rfl, -⟩ | ⟨-, hk'⟩
      · rfl
      · exact absurd (hk'.trans hp.symm) (hnew k)
    · rcases update_eq_some hk with ⟨rfl, hp⟩ | ⟨-, hk'⟩
      · exact absurd (hj'.trans hp.symm) (hnew j)
      · exact h.fresh j k q hj' hk'
  · have hji : j ≠ i := by
      rintro rfl
      exact hunstarted q hq
    obtain ⟨hminted, hbound⟩ := h.bound j q hq
    exact ⟨(update_of_ne hji ..).trans hminted, hbound⟩

section
omit [DecidableEq ι]

theorem Good.started (h : dispatching.Good w) (hmay : dispatching.MayStart i processId w) :
    dispatching.Good { w with started := (i, processId) :: w.started } := by
  refine ⟨h.fresh, fun j q hq => ?_, List.pairwise_cons.mpr ⟨?_, h.once⟩⟩
  · rcases List.mem_cons.mp hq with hq | hq
    · cases hq
      exact ⟨hmay.minted, hmay.bound⟩
    · exact h.bound j q hq
  · rintro ⟨j, q⟩ hq rfl
    exact hmay.unstarted q hq

/-- **What else happens keeps what is true.** -/
theorem Good.other (h : dispatching.Good w) (hother : dispatching.others w w') :
    dispatching.Good w' := by
  obtain ⟨hgrows, hminted, hstarted⟩ := hother
  refine ⟨hminted ▸ h.fresh, fun j q hq => ?_, hstarted ▸ h.once⟩
  obtain ⟨hmint, hbound⟩ := h.bound j q (hstarted ▸ hq)
  exact ⟨hminted ▸ hmint, hbound.mono hgrows⟩

end

/-- **A call keeps what is true**, and what the other calls rely on. -/
theorem Good.call (h : dispatching.Good w) {call : DispatchCall} {r : call.Reply}
    (hasks : dispatching.asks i call w) (hserves : dispatching.serves i call w r w') :
    dispatching.Good w' ∧ ∀ j, j ≠ i → dispatching.Rely j w w' := by
  by_cases hquiet : Quiet call
  · have hothers := others_of_quiet hquiet hserves
    exact ⟨h.other hothers, fun j _ => rely_of_others hothers j⟩
  · cases call with
    | newProcessId =>
      obtain ⟨answers, hnew, hserve⟩ := hserves
      obtain ⟨-, rfl⟩ := Prod.mk.inj hserve
      exact ⟨h.mint hasks.2 hnew, fun j hji =>
        ⟨.refl _, update_of_ne hji .., fun _ => Iff.rfl⟩⟩
    | backendStart processId request =>
      obtain ⟨answers, -, hserve⟩ := hserves
      obtain ⟨-, rfl⟩ := Prod.mk.inj hserve
      refine ⟨h.started hasks.2, fun j hji => ⟨.refl _, rfl, fun q => ?_⟩⟩
      simp [hji]
    | _ => exact absurd trivial hquiet

/-! ### What a whole call does -/

variable (dispatching) in
/-- What a program of a call does. -/
abbrev Settles {α : Type} (i : ι) (A : α → DispatchWorld σ ι → Prop) (p : DispatchM α)
    (w : DispatchWorld σ ι) : Prop :=
  Proc.Settles (dispatching.Rely i) (dispatching.asks i) (dispatching.serves i) A (fun _ _ => True) p w

section
variable {α β : Type} {A : α → DispatchWorld σ ι → Prop} {C : β → DispatchWorld σ ι → Prop}

theorem settles_bind {p : DispatchM α} {f : α → DispatchM β}
    (h : dispatching.Settles i (fun a w' => dispatching.Settles i C (f a) w') p w) :
    dispatching.Settles i C (p >>= f) w :=
  Proc.Settles.bind (Rely.refl i) (fun _ _ _ _ _ => trivial) h

theorem settles_given {result : VerletResult α} {f : α → DispatchM β}
    (h : ∀ a, result = .ok a → dispatching.Settles i C (f a) w) :
    dispatching.Settles i C (DispatchM.given result >>= f) w :=
  Proc.Settles.settle h fun _ _ _ _ => trivial

theorem settles_ask {call : DispatchCall} {f : call.Reply → DispatchM β}
    (h : ∀ w', dispatching.Rely i w w' → dispatching.asks i call w' ∧
      ∀ r w'', dispatching.serves i call w' r w'' → dispatching.Settles i C (f r) w'') :
    dispatching.Settles i C (DispatchM.ask call >>= f) w := h

theorem settles_result {result : VerletResult α}
    (h : ∀ a, result = .ok a → ∀ w', dispatching.Rely i w w' → A a w') :
    dispatching.Settles i A (DispatchM.given result) w := by
  intro w' hrely
  cases result with
  | ok a => exact h a rfl w' hrely
  | error e => trivial

theorem settles_quiet {call : DispatchCall} {f : call.Reply → DispatchM β} (hquiet : Quiet call)
    (h : ∀ r w', dispatching.Rely i w w' → dispatching.Settles i C (f r) w') :
    dispatching.Settles i C (DispatchM.ask call >>= f) w :=
  fun w₁ h₁ => ⟨asks_of_quiet hquiet w₁, fun r w₂ hserves =>
    h r w₂ (h₁.trans (rely_of_others (others_of_quiet hquiet hserves) i))⟩

theorem settles_last {call : DispatchCall} {A : call.Reply → DispatchWorld σ ι → Prop}
    (hquiet : Quiet call) (h : ∀ w', dispatching.Rely i w w' → ∀ r, A r w') :
    dispatching.Settles i A (DispatchM.ask call) w :=
  fun w₁ h₁ => ⟨asks_of_quiet hquiet w₁, fun r _ hserves w₃ h₃ =>
    h w₃ ((h₁.trans (rely_of_others (others_of_quiet hquiet hserves) i)).trans h₃) r⟩

theorem settles_makes {p : DispatchM α} {f : α → DispatchM β} (hquiet : Proc.Makes Quiet p)
    (h : ∀ a w', dispatching.Rely i w w' → dispatching.Settles i C (f a) w') :
    dispatching.Settles i C (p >>= f) w :=
  settles_bind (Proc.Settles.imp (fun a w' hrely => h a w' hrely) (fun _ _ _ => trivial)
    (Proc.Makes.settles (fun _ _ _ => Rely.trans) (fun _ hcall w => ⟨asks_of_quiet hcall w,
      fun _ _ hserves => rely_of_others (others_of_quiet hcall hserves) i⟩) hquiet w))

theorem settles_agrees {outcome : AsyncProcessOutcome} (h : dispatching.Agrees i w) :
    dispatching.Settles i (fun _ => dispatching.Agrees i)
      (pure outcome : DispatchM AsyncProcessOutcome) w :=
  Proc.Settles.pure fun _ hrely => h.mono hrely

theorem settles_throw {e : VerletError} :
    dispatching.Settles i A (throw e : DispatchM α) w :=
  Proc.Settles.throw fun _ _ => trivial

end

theorem makes_ensureTerminalMonitor (uuidError : String → String) (binding : HandleDispatchEnvelope) :
    Proc.Makes Quiet (ensureTerminalMonitor uuidError binding) := by
  unfold ensureTerminalMonitor
  split
  · exact .pure
  · refine .bind (.await trivial) fun inserted => ?_
    cases inserted with
    | false => exact .pure
    | true =>
      refine .bind (.await trivial) fun accepted => ?_
      cases accepted with
      | false => exact .await trivial
      | true => exact .pure

theorem makes_forgetSettledBinding (dispatchId : DispatchId) (processId : Uuid) (lock : Nat) :
    Proc.Makes Quiet (forgetSettledBinding dispatchId processId lock) :=
  .bind (.await trivial) fun _ => .await trivial

theorem settles_readFold (w : DispatchWorld σ ι) :
    dispatching.Settles i (fun found w' => dispatching.Rely i w w' ∧
        ∀ binding, found = some binding → dispatching.Bound i w' binding)
      (readFold (dispatching.calls i).consumer (dispatching.calls i).dispatchId) w := by
  refine settles_ask fun w₁ h₁ => ⟨trivial, ?_⟩
  rintro r w₂ ⟨answers, -, hserve⟩
  obtain ⟨rfl, rfl⟩ := Prod.mk.inj hserve
  refine settles_result fun found hfound w₃ h₃ => ⟨h₁.trans h₃, ?_⟩
  rintro binding rfl
  obtain ⟨events, hevents, hfold⟩ := bind_ok.mp hfound
  obtain rfl := dispatching.store.reads (orHistory_ok.mp hevents)
  exact ⟨_, h₃.grows _, hfold⟩

theorem settles_resumeDispatch (hbound : dispatching.Bound i w binding) :
    dispatching.Settles i (fun _ => dispatching.Agrees i)
      (resumeDispatch dispatching.uuidError (dispatching.calls i) lock binding) w := by
  refine settles_given fun _ hvalid => settles_given fun processId _ => ?_
  have hagrees : dispatching.Agrees i w := ⟨binding, hbound, (validateBinding_ok.mp hvalid).2.2.1⟩
  refine settles_quiet trivial fun _ w₁ h₁ => settles_quiet trivial fun snapshot w₂ h₂ => ?_
  cases snapshot with
  | ok outcome =>
    exact settles_makes (makes_ensureTerminalMonitor ..) fun _ w₃ h₃ =>
      settles_agrees (((hagrees.mono h₁).mono h₂).mono h₃)
  | error err =>
    exact settles_makes (makes_forgetSettledBinding ..) fun _ w₃ h₃ => settles_throw

theorem settles_yieldDispatch {folded : HandleDispatchEnvelope}
    (hbound : dispatching.Bound i w folded) :
    dispatching.Settles i (fun _ => dispatching.Agrees i)
      (yieldDispatch dispatching.uuidError (dispatching.calls i) lock folded) w := by
  refine settles_given fun _ hvalid => settles_given fun processId _ => ?_
  have hagrees : dispatching.Agrees i w := ⟨folded, hbound, (validateBinding_ok.mp hvalid).2.2.1⟩
  refine settles_quiet trivial fun _ w₁ h₁ => settles_quiet trivial fun snapshot w₂ h₂ => ?_
  cases snapshot with
  | ok outcome => exact settles_agrees ((hagrees.mono h₁).mono h₂)
  | error err =>
    exact settles_makes (makes_forgetSettledBinding ..) fun _ w₃ h₃ => settles_throw

/-- **A call that may start its process** starts it, once. -/
theorem settles_startCancellable (hmay : dispatching.MayStart i processId w) :
    dispatching.Settles i
      (fun _ w' => dispatching.Bound i w' ((dispatching.calls i).binding processId))
      (startCancellable ((dispatching.calls i).request.dispatched processId)) w := by
  refine settles_quiet trivial fun _ w₁ h₁ => ?_
  refine settles_ask fun w₂ h₂ => ⟨⟨rfl, (hmay.mono h₁).mono h₂⟩, ?_⟩
  rintro spawned w₃ ⟨answers, -, hserve⟩
  obtain ⟨-, rfl⟩ := Prod.mk.inj hserve
  have hbound := ((hmay.mono h₁).mono h₂).bound
  cases spawned with
  | error err => exact Proc.Settles.pure fun w₄ h₄ => hbound.mono h₄.grows
  | ok _ =>
    refine settles_quiet trivial fun inserted w₄ h₄ => ?_
    cases inserted with
    | error err => exact Proc.Settles.pure fun w₅ h₅ => (hbound.mono h₄.grows).mono h₅.grows
    | ok _ => exact settles_last trivial fun w₅ h₅ _ => (hbound.mono h₄.grows).mono h₅.grows

theorem settles_startTask (hmay : dispatching.MayStart i processId w) :
    dispatching.Settles i
      (fun _ w' => dispatching.Bound i w' ((dispatching.calls i).binding processId))
      (startTask dispatching.uuidError (dispatching.calls i) processId lock) w := by
  unfold startTask
  refine settles_bind ?_
  refine Proc.Settles.imp (fun started w₁ hbound => ?_) (fun _ _ _ => trivial)
    (settles_startCancellable hmay)
  cases started with
  | ok outcome =>
    -- whatever the handle of the binding is
    generalize (dispatching.calls i).binding processId = binding at hbound ⊢
    refine settles_makes (makes_ensureTerminalMonitor ..) fun _ w₂ h₂ => ?_
    exact Proc.Settles.pure fun w₃ h₃ => (hbound.mono h₂.grows).mono h₃.grows
  | error err =>
    refine settles_quiet trivial fun _ w₂ h₂ => ?_
    refine settles_makes (makes_forgetSettledBinding ..) fun _ w₃ h₃ => ?_
    exact Proc.Settles.pure fun w₄ h₄ =>
      ((hbound.mono h₂.grows).mono h₃.grows).mono h₄.grows

theorem settles_startDispatch (hmay : dispatching.MayStart i processId w) :
    dispatching.Settles i (fun _ => dispatching.Agrees i)
      (startDispatch dispatching.uuidError (dispatching.calls i) processId lock) w := by
  refine settles_quiet trivial fun _ w₁ h₁ => ?_
  refine settles_bind (Proc.Settles.imp (fun result w₂ hbound => ?_) (fun _ _ _ => trivial)
    (settles_startTask (hmay.mono h₁)))
  refine settles_quiet trivial fun joined w₃ h₃ => ?_
  cases joined with
  | some err => exact settles_throw
  | none =>
    exact settles_result fun outcome _ w₄ h₄ =>
      ⟨_, (hbound.mono h₃.grows).mono h₄.grows, rfl⟩

theorem settles_bindDispatch (hminted : w.minted i = none) (hunstarted : Unstarted i w) :
    dispatching.Settles i (fun _ => dispatching.Agrees i)
      (bindDispatch dispatching.sha256Hex dispatching.uuidError (dispatching.calls i) lock) w := by
  refine settles_ask fun w₁ h₁ =>
    ⟨⟨h₁.minted.trans hminted, fun q hq => hunstarted q ((h₁.started q).mp hq)⟩, ?_⟩
  rintro processId w₂ ⟨answers, -, hserve⟩
  obtain ⟨rfl, rfl⟩ := Prod.mk.inj hserve
  refine settles_quiet trivial fun nowMs w₃ h₃ => settles_quiet trivial fun submitted w₄ h₄ => ?_
  refine settles_given fun _ _ => ?_
  refine settles_bind (Proc.Settles.imp (fun found w₅ hfound => ?_) (fun _ _ _ => trivial)
    (settles_readFold w₄))
  obtain ⟨h₅, hbound⟩ := hfound
  cases found with
  | none => exact settles_throw
  | some folded =>
    dsimp only
    split
    · exact settles_yieldDispatch (hbound folded rfl)
    · rename_i hown
      rw [not_not] at hown
      have hrely := (h₃.trans h₄).trans h₅
      refine settles_startDispatch ⟨?_, fun q hq => ?_, hown ▸ hbound folded rfl⟩
      · exact hrely.minted.trans (update_self ..)
      · exact hunstarted q ((h₁.started q).mp ((hrely.started q).mp hq))

/-- **A whole call**: what it asks is what it may, and it succeeds only where the digests agree. -/
theorem settles_dispatchStartInner (hminted : w.minted i = none) (hunstarted : Unstarted i w) :
    dispatching.Settles i (fun _ => dispatching.Agrees i)
      (dispatchStartInner dispatching.sha256Hex dispatching.uuidError (dispatching.calls i)) w := by
  refine settles_quiet trivial fun lock w₁ h₁ => settles_quiet trivial fun _ w₂ h₂ => ?_
  refine Proc.Settles.ending (Rely.refl i) (fun _ _ _ => Rely.trans) (fun _ _ _ => Agrees.mono)
    (fun _ _ _ _ _ => trivial) (P := Quiet) ⟨trivial, fun _ => trivial⟩
    (fun _ hcall w => ⟨asks_of_quiet hcall w,
      fun _ _ hserves => rely_of_others (others_of_quiet hcall hserves) i⟩) ?_
  refine settles_bind (Proc.Settles.imp (fun found w₃ hfound => ?_) (fun _ _ _ => trivial)
    (settles_readFold w₂))
  obtain ⟨h₃, hbound⟩ := hfound
  have hrely := (h₁.trans h₂).trans h₃
  cases found with
  | some binding => exact settles_resumeDispatch (hbound binding rfl)
  | none =>
    exact settles_bindDispatch (hrely.minted.trans hminted)
      fun q hq => hunstarted q ((hrely.started q).mp hq)

/-! ### Every run -/

variable (dispatching) in
def ways : Pool.Ways ι DispatchCall DispatchCall.Reply (VerletResult AsyncProcessOutcome)
    (DispatchWorld σ ι) where
  good := dispatching.Good
  waits i w := w.minted i = none ∧ Unstarted i w
  rely := dispatching.Rely
  asks := dispatching.asks
  answers := dispatching.serves
  ends i := Proc.EndsIn (fun _ => dispatching.Agrees i) fun _ _ => True

theorem sound : dispatching.ways.Sound dispatching.starts dispatching.serves dispatching.others where
  refl i w _ := .refl i w
  trans _ _ _ _ := .trans
  waits i w w' hrely hwaits :=
    ⟨hrely.minted.trans hwaits.1, fun q hq => hwaits.2 q ((hrely.started q).mp hq)⟩
  start i w p _ hwaits hstarts := by
    obtain rfl := hstarts
    exact settles_dispatchStartInner hwaits.1 hwaits.2
  call i call w r w' hgood hasks hserves :=
    ⟨(hgood.call hasks hserves).1, hserves, (hgood.call hasks hserves).2⟩
  other w w' hgood hother := ⟨hgood.other hother, rely_of_others hother⟩

omit [DecidableEq ι] in
theorem good_begin : dispatching.Good dispatching.begin := by
  refine ⟨fun i j processId h => ?_, fun i processId h => ?_, .nil⟩
  · cases h
  · exact (List.not_mem_nil h).elim

theorem kept_of_reaches {pool : Calls σ ι} (h : dispatching.Reaches pool) :
    Pool.Kept dispatching.ways pool :=
  h.kept sound good_begin fun _ => ⟨rfl, fun _ h => (List.not_mem_nil h).elim⟩

variable (dispatching) in
/-- A witness on the control stream of the call's consumer names the binding. -/
def Readable (i : ι) (w : DispatchWorld σ ι) (binding : HandleDispatchEnvelope) : Prop :=
  ∃ event ∈ dispatching.store.events w.store (controlStreamId (dispatching.calls i).consumer),
    readDispatch (dispatching.calls i).dispatchId event = .ok (some binding)

omit [DecidableEq ι] in
theorem Bound.readable (h : dispatching.Bound i w binding) : dispatching.Readable i w binding := by
  obtain ⟨seen, hseen, hfold⟩ := h
  obtain ⟨event, hevent, hread⟩ := foldDispatch_some hfold
  exact ⟨event, hseen.subset hevent, hread⟩

/-- The call has started a backend, or has answered. -/
def Acted (pool : Calls σ ι) (i : ι) : Prop :=
  (∃ processId, (i, processId) ∈ pool.state.started) ∨
    ∃ outcome, pool.procs i = some (.done (.ok outcome))

theorem agrees_of_acted {pool : Calls σ ι} (hkept : Pool.Kept dispatching.ways pool)
    (h : Acted pool i) : dispatching.Agrees i pool.state := by
  rcases h with ⟨processId, hstarted⟩ | ⟨outcome, hdone⟩
  · exact ⟨_, (hkept.good.bound i processId hstarted).2, rfl⟩
  · exact hkept.ends sound hdone

/-- **A process dispatch starts at most once**, in every run: no two backends are started for one
consumer and dispatch id; a backend is started when a witness that names exactly its process id is
there to read; and a call whose command digest is not that of the binding, or of a call that has
started or answered, neither starts anything nor succeeds. -/
theorem dispatch_starts_once (dispatching : Dispatching σ ι) (pool : Calls σ ι)
    (h : dispatching.Reaches pool) :
    pool.state.started.Pairwise (fun a b => ¬ dispatching.SameDispatch a.1 b.1) ∧
    (∀ i processId request k, pool.procs i = some (.call (.backendStart processId request) k) →
      dispatching.Readable i pool.state ((dispatching.calls i).binding processId)) ∧
    (∀ i binding, dispatching.Bound i pool.state binding →
      binding.commandDigest ≠ (dispatching.calls i).commandDigest → ¬ Acted pool i) ∧
    ∀ i j, dispatching.SameDispatch i j →
      (dispatching.calls i).commandDigest ≠ (dispatching.calls j).commandDigest →
      Acted pool i → ¬ Acted pool j := by
  have hkept := kept_of_reaches h
  refine ⟨?_, ?_, ?_, ?_⟩
  · refine hkept.good.once.imp_of_mem ?_
    rintro ⟨i, p⟩ ⟨j, q⟩ hi hj hne hsame
    obtain ⟨hp, hboundp⟩ := hkept.good.bound i p hi
    obtain ⟨hq, hboundq⟩ := hkept.good.bound j q hj
    have hbinding := congrArg (fun binding => binding.handle.id) (hboundp.unique hsame hboundq)
    obtain rfl : p = q := Uuid.text_injective hbinding
    exact hne (hkept.good.fresh i j p hp hq)
  · intro i processId request k hproc
    exact (hkept.asks sound hproc).2.bound.readable
  · intro i binding hbound hdigest hacted
    obtain ⟨other, hother, hagrees⟩ := agrees_of_acted hkept hacted
    exact hdigest (hbound.unique ⟨rfl, rfl⟩ hother ▸ hagrees)
  · intro i j hsame hdigest hi hj
    obtain ⟨binding, hbound, hagrees⟩ := agrees_of_acted hkept hi
    obtain ⟨other, hother, hagrees'⟩ := agrees_of_acted hkept hj
    rw [hbound.unique hsame hother] at hagrees
    exact hdigest (hagrees.symm.trans hagrees')

/-! ### Two commands under one dispatch id -/

def sampleConsumer : ThreadCoordinates := .counted "user" 1

def sampleProcess (i : Fin 2) : Uuid := ⟨BitVec.ofNat 128 (100 + i)⟩

/-- Two calls at one dispatcher, with different commands. -/
def sampleDispatching : Dispatching (InMemoryState 0) (Fin 2) where
  store := inMemoryStore 0
  sha256Hex text := text
  uuidError text := text
  calls i := ⟨sampleConsumer, ⟨"dispatch-1"⟩, if i = 0 then "digest-1" else "digest-2",
    none, .virtualLabel "job", 1024, false⟩
  dispatcher _ := 0
  start := .empty

/-- The witness that the sink of the sample appends. -/
def sampleWitness (envelope : IngressEnvelope) (draw : Draw) : NewEventRecord :=
  .witnessed draw sampleConsumer .ioIngressReceived (Wire.ingressReceived.toValue
    ⟨none, none, none, none, none, some (Wire.ingressContent.toValue envelope.content), "digest"⟩)

def sampleSink (w : DispatchWorld (InMemoryState 0) (Fin 2)) : DispatchCall → InMemoryState 0
  | .submitProcessHandleEnvelope envelope =>
    w.store.append (controlStreamId sampleConsumer) [sampleWitness envelope (.counted 1)]
  | _ => w.store

/-- How the calls of the sample are served: each has a process id of its own, and all goes well. -/
def sampleServe (i : Fin 2) (call : DispatchCall) (w : DispatchWorld (InMemoryState 0) (Fin 2)) :
    call.Reply × DispatchWorld (InMemoryState 0) (Fin 2) :=
  sampleDispatching.serve ⟨sampleProcess i, 7, .ok (), sampleSink w call,
    .ok ⟨some (sampleProcess i), .running⟩, .ok (), true, none⟩ i call w

/-- The lock is free, and the process id is new. -/
def sampleMay (i : Fin 2) (call : DispatchCall) (w : DispatchWorld (InMemoryState 0) (Fin 2)) : Bool :=
  match call with
  | .lock lock    => !w.held lock
  | .newProcessId => decide (∀ j, w.minted j ≠ some (sampleProcess i))
  | _             => true

theorem serves_sampleServe (i : Fin 2) (call : DispatchCall)
    (w : DispatchWorld (InMemoryState 0) (Fin 2)) (h : sampleMay i call w = true) :
    sampleDispatching.serves i call w (sampleServe i call w).1 (sampleServe i call w).2 := by
  refine ⟨_, ?_, rfl⟩
  cases call with
  | lock lock =>
    have hfree : w.held lock = false := by simpa [sampleMay] using h
    exact hfree
  | newProcessId =>
    have hnew : ∀ j, w.minted j ≠ some (sampleProcess i) := of_decide_eq_true h
    exact hnew
  | submitProcessHandleEnvelope envelope =>
    exact fun streamId => (inMemoryStore 0).prefix_append _ _ w.store streamId
  | deliverSetupFailure binding reason => exact .refl _
  | _ => trivial

def sampleTake (i : Fin 2) (pool : Calls (InMemoryState 0) (Fin 2)) :
    Calls (InMemoryState 0) (Fin 2) :=
  pool.set i (dispatchStartInner sampleDispatching.sha256Hex sampleDispatching.uuidError
    (sampleDispatching.calls i)).run pool.state

/-- The first call runs to its end. -/
def sampleStarted : Calls (InMemoryState 0) (Fin 2) :=
  (List.replicate 16 0).foldl (Pool.turn sampleServe) (sampleTake 0 (.idle sampleDispatching.begin))

/-- And then the second. -/
def sampleRefused : Calls (InMemoryState 0) (Fin 2) :=
  (List.replicate 4 1).foldl (Pool.turn sampleServe) (sampleTake 1 sampleStarted)

set_option maxRecDepth 100000 in
theorem runs_sampleRefused :
    Pool.admits sampleServe sampleMay (List.replicate 16 0)
      (sampleTake 0 (.idle sampleDispatching.begin)) = true ∧
    sampleStarted.doneWith 0 = some (.ok ⟨some (sampleProcess 0), .running⟩) ∧
    Pool.admits sampleServe sampleMay (List.replicate 4 1) (sampleTake 1 sampleStarted) = true ∧
    sampleRefused.state.started = [(0, sampleProcess 0)] ∧
    sampleRefused.doneWith 1 = some (.error (.runtimeExecution
      "process dispatch dispatch-1 retry does not match its durable request")) := by
  decide +kernel

theorem reaches_sampleRefused : sampleDispatching.Reaches sampleRefused := by
  have h₀ : sampleDispatching.Reaches (.idle sampleDispatching.begin) := .refl
  have hfirst : sampleDispatching.Reaches sampleStarted :=
    Pool.Reachable.turns_of_admits serves_sampleServe (Pool.Reachable.start (i := 0) h₀ rfl rfl)
      runs_sampleRefused.1
  exact Pool.Reachable.turns_of_admits serves_sampleServe
    (Pool.Reachable.start (i := 1) hfirst rfl rfl) runs_sampleRefused.2.2.1

/-- The second command fails, and starts nothing. -/
theorem dispatch_starts_once_sample :
    sampleRefused.state.started = [(0, sampleProcess 0)] ∧ ¬ Acted sampleRefused 1 := by
  obtain ⟨-, -, -, hstarted, -⟩ := runs_sampleRefused
  have hfirst : Acted sampleRefused 0 := by
    refine .inl ⟨sampleProcess 0, ?_⟩
    rw [hstarted]
    exact List.mem_singleton_self _
  refine ⟨hstarted, ?_⟩
  exact (dispatch_starts_once sampleDispatching sampleRefused reaches_sampleRefused).2.2.2 0 1
    ⟨rfl, rfl⟩ (by decide) hfirst

end Dispatching

end Verlet.Kernel
