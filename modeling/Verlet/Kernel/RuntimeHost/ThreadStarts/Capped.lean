import Verlet.Kernel.RuntimeHost.ThreadStarts.Calls
import Verlet.Kernel.RuntimeHost.ThreadStarts.Ownership

/-!
# Kernel — The runtime host — Thread starts — The cap on children

What the programs of a host come to, one after the other: a start reserves, prepares, publishes and
finishes, and wherever it stops it gives up what it owns.
-/

namespace Verlet.Kernel
open Support History
open Proc (Makes Meets Yields)

variable {α : Type} {identity : StartIdentity} {checkpoint : ThreadCheckpoint}
    {childThreadId threadId : ThreadId} {config : HostConfig} {context : ThreadContext}
    {notify : Bool}

namespace Hosting
open HostM

variable {ι : Type} [DecidableEq ι] {hosting : Hosting ι} {i : ι} {w w' : HostMaps ι}

/-- What a program of a caller does. -/
abbrev Settles {α : Type} (hosting : Hosting ι) (i : ι) (A : α → HostMaps ι → Prop)
    (B : Stopped → HostMaps ι → Prop) (p : HostM ι α) (w : HostMaps ι) : Prop :=
  Proc.Settles (Rely i) (asks i) (hosting.serves i) A B p w

theorem settles_bind {β : Type} {A : α → HostMaps ι → Prop} {C : β → HostMaps ι → Prop}
    {B : Stopped → HostMaps ι → Prop} (hB : ∀ e w w', B e w → Rely i w w' → B e w') {p : HostM ι α}
    {f : α → HostM ι β} (h : hosting.Settles i A B p w)
    (hf : ∀ a w', A a w' → hosting.Settles i C B (f a) w') : hosting.Settles i C B (p >>= f) w :=
  Proc.Settles.bind (Rely.refl i) hB (h.imp hf fun _ _ he => he)

variable {P : HostMaps ι → Prop}

theorem settles_aside (hP : ∀ w w', P w → Rely i w w' → P w') {p : HostM ι α}
    (h : Makes Aside p) (hw : P w) : hosting.Settles i (fun _ => P) (fun _ => P) p w := by
  have hsettles : hosting.Settles i (fun _ => Rely i w) (fun _ => Rely i w) p w := by
    refine Makes.settles (fun _ _ _ => Rely.trans) (fun call hcall w => ?_) h w
    exact ⟨Aside.quiet hcall w, fun r w' hr => Aside.serves hcall hr ▸ Rely.refl i w⟩
  exact hsettles.imp (fun _ w' => hP w w' hw) fun _ w' => hP w w' hw

theorem settles_ask {call : HostCall ι} (hP : ∀ w w', P w → Rely i w w' → P w') (h : Aside call)
    (hw : P w) : hosting.Settles i (fun _ => P) (fun _ => P) (ask call) w :=
  settles_aside hP (.await h) hw

theorem settles_suspend (hP : ∀ w w', P w → Rely i w w' → P w') (hw : P w) :
    hosting.Settles i (fun _ => P) (fun e w' => e = .dropped ∧ P w') suspend w := by
  refine .await fun w₁ hw₁ => ⟨trivial, ?_⟩
  rintro answer _ rfl
  cases answer with
  | ready _ => exact .pure fun w' hw' => hP _ _ (hP _ _ hw hw₁) hw'
  | dropped => exact .throw fun w' hw' => ⟨rfl, hP _ _ (hP _ _ hw hw₁) hw'⟩

/-! ### What is asked aside -/

variable {thread : RuntimeThread ι}

section
omit [DecidableEq ι]

instance : TakesPlain (Aside : HostCall ι → Prop) where
  plain {call} h := by cases call <;> first | exact h.elim | exact trivial

theorem makes_attemptStartIdentity : Makes Aside (attemptStartIdentity thread) := by
  refine .bind (makes_storeCall trivial) fun appended => ?_
  split
  · exact .pure
  · refine .bind (makes_storeCall trivial) fun read => ?_
    split
    · exact .throw
    · refine .bind makes_orPanic fun found => ?_
      split
      · exact .pure
      · exact .pure

theorem makes_recordIdentity : Makes Aside (recordIdentity thread identity) := by
  cases identity with
  | omitted => exact .pure
  | appended =>
    exact .bind (makes_storeCall trivial) fun _ => .bind makes_orKernel fun _ => .pure
  | reconciled =>
    refine .bind makes_attemptStartIdentity fun first => ?_
    split
    · exact .pure
    · refine .bind makes_attemptStartIdentity fun second => ?_
      split
      · exact .pure
      · exact .throw

theorem makes_announceFinished {timedOut : Bool} :
    Makes Aside (announceFinished thread timedOut) := by
  unfold announceFinished
  split
  · exact .pure
  · refine .bind makes_suspend fun _ => .bind (.await trivial) fun parent => ?_
    split
    · exact .await trivial
    · exact .pure

theorem makes_selectCheckpoint : Makes Aside (selectCheckpoint checkpoint : HostM ι Unit) :=
  .bind (makes_storeCall trivial) fun _ => .bind makes_orKernel fun _ =>
    .bind makes_suspend fun _ => .await trivial

theorem makes_cloneForked :
    Makes Aside (cloneForked checkpoint childThreadId : HostM ι ThreadContext) := by
  refine .bind (makes_storeCall trivial) fun _ => .bind makes_orKernel fun leaf => ?_
  split
  · exact .bind (makes_storeCall trivial) fun _ => .bind makes_orKernel fun _ => makes_orFail
  · exact .bind (makes_storeCall trivial) fun _ =>
    .bind (.bind makes_orKernel fun _ => .pure) fun _ => .pure

theorem makes_recoverFork :
    Makes Aside (recoverFork checkpoint childThreadId :
      HostM ι (ThreadContext × StartIdentity)) := by
  refine .bind (makes_storeCall trivial) fun _ => .bind makes_orKernel fun _ =>
    .bind makes_orPanic fun durable => ?_
  split
  · exact .bind (makes_storeCall trivial) fun _ =>
    .bind (.bind makes_orKernel fun _ => .pure) fun _ => .pure
  · exact .bind makes_cloneForked fun _ => .pure

theorem makes_getThread : Makes Aside (getThread threadId : HostM ι (RuntimeThread ι)) := by
  refine .bind makes_suspend fun _ => .bind (.await trivial) fun found => ?_
  split
  · exact .pure
  · exact .throw

theorem makes_sendShutdown : Makes Aside (sendShutdown thread) := by
  refine .bind makes_suspend fun _ => .bind (.await trivial) fun sent => ?_
  cases sent with
  | ok _ => exact .bind makes_suspend fun _ => .await trivial
  | error e =>
    cases e with
    | host error =>
      cases error with
      | threadClosed _ => exact .await trivial
      | _ => exact .throw
    | _ => exact .throw

theorem makes_waitForShutdown : Makes Aside (waitForShutdown config thread) := by
  unfold waitForShutdown
  split
  · exact .bind makes_suspend fun _ => .bind (.await trivial) fun _ => .pure
  · refine .bind makes_suspend fun _ => .bind (.await trivial) fun stopped => ?_
    split
    · exact .bind (.await trivial) fun _ => .pure
    · exact .bind (.await trivial) fun _ => .bind (.await trivial) fun _ =>
      .bind (.await trivial) fun _ => .bind (.await trivial) fun _ =>
        .bind makes_suspend fun _ => .bind (.await trivial) fun _ => .pure

theorem makes_waitForCancelGrace : Makes Aside (waitForCancelGrace config thread) := by
  unfold waitForCancelGrace
  split
  · exact .pure
  · refine .bind makes_suspend fun _ => .bind (.await trivial) fun completed => ?_
    cases completed with
    | true => exact .await trivial
    | false =>
      exact .bind (.await trivial) fun _ => .bind (.await trivial) fun _ =>
        .bind (.await trivial) fun _ => .bind (.await trivial) fun _ =>
          .bind makes_suspend fun _ => .bind (.await trivial) fun _ => .throw

theorem makes_cancelThread {reason : String} :
    Makes Aside (cancelThread config threadId reason : HostM ι Unit) := by
  refine .bind makes_getThread fun thread => .bind (.await trivial) fun _ =>
    .bind makes_suspend fun _ => .bind (.await trivial) fun _ => .bind (.await trivial) fun status =>
      .bind (.await trivial) fun queued => ?_
  split
  · exact .pure
  · exact .bind makes_suspend fun _ => .bind (.await trivial) fun _ => .bind makes_orFail fun _ =>
    makes_waitForCancelGrace

end

/-! ### A start -/

omit [DecidableEq ι] in
theorem free_rely : ∀ (_ : Stopped) (w w' : HostMaps ι), Free i w → Rely i w w' → Free i w' :=
  fun _ _ _ h => h.rely

/-- **A reservation is held, or nothing is.** -/
theorem settles_reserveThreadStart (hw : Free i w) :
    hosting.Settles i (fun _ => Reserving i context) (fun _ => Free i)
      (reserveThreadStart context) w := by
  refine settles_bind free_rely (settles_aside (fun _ _ h => h.rely) makes_suspend hw) fun _ w₁ h₁ => ?_
  refine .await fun w₂ hw₂ => ⟨h₁.rely hw₂, fun answer w₃ hserves => ?_⟩
  rcases reserveStart_cases hserves with ⟨rfl, rfl, -⟩ | ⟨hrejected, rfl⟩
  · exact .pure fun w' hw' => (reserving_insert (h₁.rely hw₂)).rely hw'
  · cases answer with
    | reserved => exact (hrejected rfl).elim
    | alreadyExists => exact .throw fun w' hw' => (h₁.rely hw₂).rely hw'
    | full parentThreadId childCount maxChildThreads parent =>
      refine settles_bind free_rely
        (settles_aside (fun _ _ h => h.rely) makes_rejectChild (h₁.rely hw₂)) fun _ w₄ h₄ => ?_
      exact .throw fun w' hw' => h₄.rely hw'

theorem settles_releaseReservation (hw : Reserving i context w) :
    hosting.Settles i (fun _ => Free i) (fun _ => Free i) (releaseReservation context) w := by
  intro w₁ hw₁
  refine ⟨⟨context, rfl, hw.rely hw₁⟩, ?_⟩
  rintro _ _ rfl w' hw'
  exact (free_release (hw.rely hw₁)).rely hw'

theorem settles_reserved {p : HostM ι α} (h : Makes Aside p) (hw : Reserving i context w) :
    hosting.Settles i (fun _ => Reserving i context) (fun _ => Free i)
      (Proc.guarding p (releaseReservation context)) w := by
  refine .guarding (Rely.refl i) free_rely (fun _ _ _ h => h.rely) ?_
  exact (settles_aside (fun _ _ h => h.rely) h hw).imp (fun _ _ h => h)
    fun _ _ h => settles_releaseReservation h

/-- What a start that stops after its publication leaves: nothing where it failed, and else the
thread, which its guard takes out. -/
def After (i : ι) (thread : RuntimeThread ι) : Stopped → HostMaps ι → Prop
  | .failed _, w => Free i w
  | _, w         => Published i thread w

omit [DecidableEq ι] in
theorem After.rely (e : Stopped) (w w' : HostMaps ι) (h : After i thread e w) (hrely : Rely i w w') :
    After i thread e w' := by
  cases e with
  | failed error => exact Free.rely h hrely
  | dropped => exact Published.rely h hrely
  | panicked => exact Published.rely h hrely
  | looping => exact Published.rely h hrely

theorem settles_remove {B : Stopped → HostMaps ι → Prop} (hw : Published i thread w) :
    hosting.Settles i (fun _ => Free i) B
      (do let _ : Bool ← ask (.removeThreadIfCurrent thread)) w := by
  refine .await fun w₁ hw₁ => ⟨trivial, fun removed w₂ hserves => ?_⟩
  exact .pure fun w' hw' => (free_remove (hw.rely hw₁) hserves).rely hw'

theorem settles_retract (hw : Published i thread w) :
    hosting.Settles i (fun _ => Free i) (fun e w' => e = .dropped ∧ Published i thread w')
      (retract thread) w := by
  have hkeeps : ∀ w w', Published i thread w → Rely i w w' → Published i thread w' :=
    fun _ _ h => h.rely
  have hdropped : ∀ (e : Stopped) w w', e = .dropped ∧ Published i thread w → Rely i w w' →
      e = .dropped ∧ Published i thread w' := fun _ _ _ h hrely => ⟨h.1, h.2.rely hrely⟩
  refine .await fun w₁ hw₁ => ⟨trivial, ?_⟩
  rintro _ _ rfl
  refine settles_bind hdropped (settles_suspend hkeeps (hw.rely hw₁)) fun _ w₂ h₂ => ?_
  refine .await fun w₃ hw₃ => ⟨trivial, ?_⟩
  rintro _ _ rfl
  refine settles_bind hdropped (settles_suspend hkeeps (h₂.rely hw₃)) fun _ w₄ h₄ => ?_
  exact settles_remove h₄

theorem settles_retracting {p : HostM ι α} (h : Makes Aside p) (hw : Published i thread w) :
    hosting.Settles i (fun _ => Published i thread) (After i thread) (retracting thread p) w := by
  refine .tryCatch (Rely.refl i) (fun _ _ _ h => h.rely)
    (settles_aside (P := Published i thread) (fun _ _ h => h.rely) h hw) fun e w₁ h₁ => ?_
  cases e with
  | failed error =>
    refine settles_bind After.rely ((settles_retract h₁).imp (fun _ _ h => h) ?_) fun _ w₂ h₂ => ?_
    · rintro _ w₂ ⟨rfl, h₂⟩
      exact h₂
    · exact .throw fun w' hw' => Free.rely h₂ hw'
  | dropped => exact .throw fun w' hw' => h₁.rely hw'
  | panicked => exact .throw fun w' hw' => h₁.rely hw'
  | looping => exact .throw fun w' hw' => h₁.rely hw'

theorem settles_dropPublished (hw : Published i thread w) :
    hosting.Settles i (fun _ => Free i) (fun _ => Free i) (dropPublished thread) w := by
  refine .await fun w₁ hw₁ => ⟨trivial, ?_⟩
  rintro _ _ rfl
  refine .await fun w₂ hw₂ => ⟨trivial, ?_⟩
  rintro _ _ rfl
  exact settles_remove ((hw.rely hw₁).rely hw₂)

/-- **What the guard of a published thread leaves**, where the start stops. -/
theorem settles_guardingPublished {p : HostM ι α}
    (h : hosting.Settles i (fun _ => Published i thread) (After i thread) p w) :
    hosting.Settles i (fun _ => Published i thread) (fun _ => Free i)
      (guardingPublished thread p) w := by
  refine .tryCatch (Rely.refl i) (fun _ _ _ h => h.rely) h fun e w₁ h₁ => ?_
  cases e with
  | failed error => exact .throw fun w' hw' => Free.rely h₁ hw'
  | dropped | panicked | looping =>
    refine settles_bind free_rely (settles_dropPublished h₁) fun _ w₂ h₂ => ?_
    exact .throw fun w' hw' => h₂.rely hw'

theorem settles_announceSubthread (hw : Published i thread w) :
    hosting.Settles i (fun _ => Published i thread) (After i thread) (announceSubthread thread) w := by
  unfold announceSubthread
  split
  · exact .pure fun w' hw' => hw.rely hw'
  · have hsuspend : hosting.Settles i (fun _ => Published i thread) (After i thread) suspend w := by
      refine (settles_suspend (fun _ _ h => h.rely) hw).imp (fun _ _ h => h) ?_
      rintro _ w₁ ⟨rfl, h₁⟩
      exact h₁
    refine settles_bind After.rely hsuspend fun _ w₁ h₁ => ?_
    refine .await fun w₂ hw₂ => ⟨trivial, ?_⟩
    rintro parent _ ⟨-, rfl⟩
    split
    · refine fun w₃ hw₃ => ⟨trivial, ?_⟩
      rintro _ _ rfl w' hw'
      exact ((h₁.rely hw₂).rely hw₃).rely hw'
    · exact .pure fun w' hw' => (h₁.rely hw₂).rely hw'

theorem settles_finishStart (hw : Published i thread w) :
    hosting.Settles i (fun _ => Published i thread) (After i thread)
      (finishStart identity notify thread) w := by
  refine settles_bind After.rely (settles_retracting makes_recordIdentity hw) fun _ w₁ h₁ => ?_
  refine .await fun w₂ hw₂ => ⟨trivial, ?_⟩
  rintro _ _ rfl
  refine settles_bind After.rely
    (settles_retracting makes_notifyLifecycleSink (h₁.rely hw₂)) fun _ w₃ h₃ => ?_
  refine settles_bind After.rely (settles_announceSubthread h₃) fun _ w₄ h₄ => ?_
  exact .pure fun w' hw' => h₄.rely hw'

/-- **A start that holds its reservation** publishes its thread and keeps it, or gives up both. -/
theorem settles_startReservedThread (hw : Reserving i context w) :
    hosting.Settles i (fun _ => NoReservation i) (fun _ => Free i)
      (startReservedThread hosting.config identity notify context) w := by
  refine settles_bind free_rely (settles_reserved makes_prepareRuntime hw) fun _ w₁ h₁ => ?_
  refine .await fun w₂ hw₂ => ⟨h₁.rely hw₂, fun thread w₃ hserves => ?_⟩
  have hpublished := published_publish (h₁.rely hw₂) hserves
  exact (settles_guardingPublished (settles_finishStart hpublished)).imp
    (fun _ _ h => h.reservation) fun _ _ h => h

/-! ### A fork -/

section
omit [DecidableEq ι]

/-- The context is of the child, and counts as the parent's. -/
def Forked (parentThreadId childThreadId : ThreadId) (context : ThreadContext) : Prop :=
  context.coordinates.threadId = childThreadId ∧ context.parentThreadId = some parentThreadId

theorem durableStart_compatible {coordinates : ThreadCoordinates} {parent : ThreadId}
    {events : List EventRecord} (h : durableStart coordinates parent events = some (some context)) :
    context.coordinates = coordinates ∧ context.parentThreadId = some parent := by
  induction events with
  | nil => cases h
  | cons event events ih =>
    rw [durableStart] at h
    split at h
    · obtain ⟨identity, -, h⟩ := Option.bind_eq_some_iff.mp h
      cases identity with
      | none => exact ih h
      | some started =>
        dsimp only at h
        split at h
        · rename_i hcompatible
          obtain rfl := Option.some.inj (Option.some.inj h)
          have hparent := compatibilityParent_of_compatible hcompatible
          exact ⟨rfl, hparent⟩
        · exact ih h
    · exact ih h

theorem clonedContext_ok {entries : List SessionEntry}
    (h : clonedContext checkpoint childThreadId entries = .ok context) :
    Forked checkpoint.coordinates.threadId childThreadId context := by
  unfold clonedContext at h
  split at h
  · cases h
  · split at h
    · cases h
    · obtain rfl := Except.ok.inj h
      exact ⟨rfl, rfl⟩

theorem yields_orFail {Q : α → Prop} {result : Except StartError α} (h : ∀ a, result = .ok a → Q a) :
    Yields Q (orFail result : HostM ι α) := by
  cases result with
  | ok a => exact .pure (h a rfl)
  | error e => exact .throw

theorem yields_orPanic {Q : α → Prop} {value : Option α} (h : ∀ a, value = some a → Q a) :
    Yields Q (orPanic value : HostM ι α) := by
  cases value with
  | some a => exact .pure (h a rfl)
  | none => exact .throw

theorem yields_cloneForked :
    Yields (Forked checkpoint.coordinates.threadId childThreadId)
      (cloneForked checkpoint childThreadId : HostM ι ThreadContext) := by
  refine .after fun _ => .after fun leaf => ?_
  split
  · exact .after fun _ => .after fun _ => yields_orFail fun _ h => clonedContext_ok h
  · exact .after fun _ => .after fun _ => .pure ⟨rfl, rfl⟩

/-- **What a fork recovers is of its child**, and counts as its parent's. -/
theorem yields_recoverFork :
    Yields (fun recovered => Forked checkpoint.coordinates.threadId childThreadId recovered.1)
      (recoverFork checkpoint childThreadId : HostM ι (ThreadContext × StartIdentity)) := by
  refine .after fun _ => .after fun events => .bind (yields_orPanic fun _ h => h) fun durable h => ?_
  cases durable with
  | some context =>
    obtain ⟨hcoordinates, hparent⟩ := durableStart_compatible h
    exact .after fun _ => .after fun _ => .pure ⟨congrArg (·.threadId) hcoordinates, hparent⟩
  | none => exact .bind yields_cloneForked fun _ h => .pure h

end

theorem settles_reserveFork (hw : Free i w) :
    hosting.Settles i (fun reserved w' => if reserved then Reserving i context w' else Free i w')
      (fun _ => Free i) (reserveFork context) w := by
  have hkeeps : ∀ (reserved : Bool) (w w' : HostMaps ι),
      (if reserved then Reserving i context w else Free i w) → Rely i w w' →
        if reserved then Reserving i context w' else Free i w' := by
    intro reserved w w' h hrely
    cases reserved with
    | true => exact Reserving.rely h hrely
    | false => exact Free.rely h hrely
  refine .tryCatch (D := fun _ => Free i) (Rely.refl i) hkeeps ?_ fun e w₁ h₁ => ?_
  · refine settles_bind free_rely (settles_reserveThreadStart hw) fun _ w₁ h₁ => ?_
    exact .pure fun w' hw' => h₁.rely hw'
  · have hthrow : hosting.Settles i
        (fun reserved w' => if reserved then Reserving i context w' else Free i w')
        (fun _ => Free i) (throw e : HostM ι Bool) w₁ := .throw fun w' hw' => h₁.rely hw'
    cases e with
    | failed error =>
      cases error with
      | threadAlreadyExists existing =>
        change hosting.Settles i _ _ (if existing = _ then _ else _) w₁
        split
        · refine settles_bind free_rely
            (settles_aside (fun _ _ h => h.rely) makes_waitForThreadStartReservation h₁)
            fun _ w₂ h₂ => ?_
          exact .pure fun w' hw' => h₂.rely hw'
        · exact hthrow
      | _ => exact hthrow
    | _ => exact hthrow

/-- **A fork holds nothing at the end**, and where it stops it leaves no thread. -/
theorem settles_fork {rounds : Nat} (hw : Free i w) :
    hosting.Settles i (fun _ => NoReservation i) (fun _ => Free i)
      (forkThreadFromCheckpointWithId hosting.config notify checkpoint childThreadId rounds) w := by
  induction rounds generalizing w with
  | zero => exact .throw fun w' hw' => hw.rely hw'
  | succ rounds ih =>
    refine settles_bind free_rely (settles_aside (fun _ _ h => h.rely) makes_suspend hw)
      fun _ w₁ h₁ => ?_
    refine .await fun w₂ hw₂ => ⟨trivial, ?_⟩
    rintro registered w₃ ⟨-, rfl⟩
    have h₃ := h₁.rely hw₂
    cases registered with
    | some handle =>
      dsimp only
      split
      · exact .pure fun w' hw' => (h₃.rely hw').reservation
      · exact .throw fun w' hw' => h₃.rely hw'
    | none =>
      refine settles_bind free_rely (settles_reserveFork h₃) fun reserved w₄ h₄ => ?_
      cases reserved with
      | false => exact ih h₄
      | true =>
        refine settles_bind free_rely ((settles_reserved makes_recoverFork h₄).yields
          (.guarding yields_recoverFork)) fun recovered w₅ h₅ => ?_
        obtain ⟨hheld, hid, hparent⟩ := h₅
        exact settles_startReservedThread (hheld.same hid hparent)

/-! ### The callers of a host -/

theorem settles_startThread {recordStartIdentity : Bool} (hw : Free i w) :
    hosting.Settles i (fun _ => NoReservation i) (fun _ => Free i)
      (startThread hosting.config recordStartIdentity context) w :=
  settles_bind free_rely (settles_reserveThreadStart hw) fun _ _ h => settles_startReservedThread h

theorem settles_resume (hw : Free i w) :
    hosting.Settles i (fun _ => NoReservation i) (fun _ => Free i)
      (resumeThreadFromCheckpoint hosting.config checkpoint) w := by
  refine settles_bind free_rely (settles_aside (fun _ _ h => h.rely) makes_orFail hw)
    fun _ w₁ h₁ => ?_
  refine settles_bind free_rely (settles_reserveThreadStart h₁) fun _ w₂ h₂ => ?_
  refine settles_bind free_rely (settles_reserved makes_selectCheckpoint h₂) fun _ w₃ h₃ => ?_
  exact settles_startReservedThread h₃

theorem settles_shutdown (hw : Free i w) :
    hosting.Settles i (fun _ => Free i) (fun _ => Free i)
      (shutdownThread hosting.config threadId) w := by
  have hkeeps : ∀ w w' : HostMaps ι, Free i w → Rely i w w' → Free i w' := fun _ _ h => h.rely
  refine settles_bind free_rely (settles_aside hkeeps makes_getThread hw) fun thread w₁ h₁ => ?_
  refine settles_bind free_rely (settles_ask hkeeps trivial h₁) fun _ w₂ h₂ => ?_
  refine settles_bind free_rely (settles_aside hkeeps makes_sendShutdown h₂) fun _ w₃ h₃ => ?_
  refine settles_bind free_rely (settles_aside hkeeps makes_waitForShutdown h₃)
    fun timedOut w₄ h₄ => ?_
  refine settles_bind free_rely (settles_aside hkeeps makes_suspend h₄) fun _ w₅ h₅ => ?_
  refine .await fun w₆ hw₆ => ⟨trivial, fun removed w₇ hserves => ?_⟩
  have h₇ : Free i w₇ := by
    have h₆ := h₅.rely hw₆
    rcases removeThreadIfCurrent_cases hserves with rfl | ⟨rfl, -⟩
    · refine ⟨h₆.reservation, fun id found hfound => ?_⟩
      change (w₆.threads.erase thread.threadId).lookup id = _ at hfound
      rw [Map.lookup_erase] at hfound
      split at hfound
      · cases hfound
      · exact h₆.thread id found hfound
    · exact h₆
  cases removed with
  | true => exact settles_aside hkeeps makes_announceFinished h₇
  | false => exact .pure fun w' hw' => h₇.rely hw'

theorem settles_map {β : Type} {f : α → β} {p : HostM ι α}
    (h : hosting.Settles i (fun _ => NoReservation i) (fun _ => Free i) p w) :
    hosting.Settles i (fun _ => NoReservation i) (fun _ => Free i) (f <$> p) w := by
  rw [map_eq_pure_bind]
  exact settles_bind free_rely h fun _ _ h => .pure fun w' hw' => h.rely hw'

/-- **Whatever a caller asks for**, it holds no reservation at the end, and where it stops it leaves
no thread. -/
theorem settles_serveRequest {request : HostRequest} (hw : Free i w) :
    hosting.Settles i (fun _ => NoReservation i) (fun _ => Free i)
      (serveRequest hosting.config request) w := by
  cases request with
  | start recordStartIdentity coordinates topology metadata =>
    exact settles_map (settles_startThread hw)
  | resume checkpoint => exact settles_map (settles_resume hw)
  | fork notify checkpoint childThreadId rounds => exact settles_map (settles_fork hw)
  | shutdown threadId =>
    exact settles_map ((settles_shutdown hw).imp (fun _ _ h => h.reservation) fun _ _ h => h)
  | cancel threadId reason =>
    have hcancel : hosting.Settles i (fun _ => Free i) (fun _ => Free i)
        (cancelThread hosting.config threadId reason) w :=
      settles_aside (fun _ _ h => h.rely) makes_cancelThread hw
    exact settles_map (hcancel.imp (fun _ _ h => h.reservation) fun _ _ h => h)

theorem keeps_serveRequest {request : HostRequest} (hw : Free i w) :
    Meets (Rely i) (asks i) (hosting.serves i) (ends i)
      (serveRequest hosting.config request).run w := by
  have hsettles : hosting.Settles i (fun _ => NoReservation i) (fun _ => Free i)
      (serveRequest hosting.config request) w := settles_serveRequest hw
  refine Meets.imp ?_ hsettles
  intro result w' h
  cases result with
  | ok thread =>
    refine ⟨h, fun stopped hstopped => ?_⟩
    cases hstopped
  | error stopped => exact ⟨h.reservation, fun _ _ => h.thread⟩

def ways (hosting : Hosting ι) :
    Pool.Ways ι (HostCall ι) HostCall.Reply (Except Stopped (Option (RuntimeThread ι)))
      (HostMaps ι) where
  good := Consistent hosting.config.policy.maxChildThreads
  waits := Free
  rely := Rely
  asks := asks
  answers := hosting.serves
  ends := ends

theorem sound (hosting : Hosting ι) :
    hosting.ways.Sound hosting.starts hosting.serves fun w w' => w' = w where
  refl i w _ := Rely.refl i w
  trans _ _ _ _ := Rely.trans
  waits _ _ _ hrely h := Free.rely h hrely
  start i w p _ hw hp := by
    obtain rfl := hp
    exact keeps_serveRequest hw
  call i call w r w' hgood hasks hserves :=
    ⟨hgood.call hasks hserves, hserves, fun _ hj => rely_of_serves hasks hserves hj⟩
  other w _ hgood h := ⟨h ▸ hgood, fun j => h ▸ Rely.refl j w⟩

theorem kept_of_reaches {pool : Callers ι} (h : hosting.Reaches pool) :
    Pool.Kept hosting.ways pool :=
  Pool.Reachable.kept hosting.sound consistent_empty free_empty h

/-- **Starts respect the cap on children and leak nothing.**  In every run, an id is registered or
reserved but not both, no thread has more children registered and reserved than the policy allows, a
caller that did not succeed left neither a thread nor a reservation behind, and every reservation is
that of a caller under way. -/
theorem starts_capped (hosting : Hosting ι) (pool : Callers ι) (h : hosting.Reaches pool) :
    (∀ id, pool.state.threads.lookup id = none ∨ pool.state.reservations.lookup id = none) ∧
    (∀ max, hosting.config.policy.maxChildThreads = some max →
      ∀ parent, pool.state.childCount parent ≤ max) ∧
    (∀ i stopped, pool.procs i = some (.done (.error stopped)) → ∀ id,
      (∀ thread, pool.state.threads.lookup id = some thread → thread.arc ≠ i) ∧
      ∀ start, pool.state.reservations.lookup id = some start → start.settled ≠ i) ∧
    ∀ id start, pool.state.reservations.lookup id = some start →
      ∃ call k, pool.procs start.settled = some (.call call k) := by
  have hkept := kept_of_reaches h
  refine ⟨hkept.good.apart, hkept.good.capped, fun i stopped hproc id => ?_,
    fun id start hstart => ?_⟩
  · have hends : ends i (.error stopped) pool.state := hkept.ends hosting.sound hproc
    exact ⟨hends.2 stopped rfl id, hends.1 id⟩
  · cases hproc : pool.procs start.settled with
    | none =>
      have hfree : Free start.settled pool.state := hkept.waits _ hproc
      exact (hfree.reservation id start hstart rfl).elim
    | some p =>
      cases p with
      | call call k => exact ⟨call, k, rfl⟩
      | done result =>
        have hends : ends start.settled result pool.state := hkept.ends hosting.sound hproc
        exact (hends.1 id start hstart rfl).elim

/-! ### Two starts of one parent -/

def sampleParent : ThreadId := ⟨⟨BitVec.ofNat 128 9⟩⟩

/-- Two starts of children of one parent, which may have one. -/
def sampleHosting : Hosting (Fin 2) where
  config := ⟨⟨some 1, none, none⟩, fun _ => .ok ()⟩
  requests i := .start false ⟨"tenant", "user", "session", ⟨⟨BitVec.ofNat 128 i.val⟩⟩⟩
    (.spawnedFrom sampleParent) []

/-- How the calls of the sample are served: the factory fails on the first start. -/
def sampleServe (i : Fin 2) : (call : HostCall (Fin 2)) → HostMaps (Fin 2) →
    call.Reply × HostMaps (Fin 2)
  | .suspended, w => (.ready (), w)
  | .getThread threadId, w => (w.threads.lookup threadId, w)
  | .reserveStart context, w => w.reserveStart (some 1) i context
  | .releaseStart threadId, w => ((), w.releaseStart threadId)
  | .subscribeStart threadId, w => ((w.reservations.lookup threadId).isSome, w)
  | .buildRuntime _, w => (if i = 0 then .error (.runtimeFactory "build failed") else .ok (), w)
  | .publish context, w => w.publish i context
  | .startRuntime _, w => ((), w)
  | .cancelToken _, w => ((), w)
  | .abort _, w => ((), w)
  | .removeThreadIfCurrent thread, w => w.removeThreadIfCurrent thread
  | .hasLifecycleSink, w => (false, w)
  | .threadStarted _, w => (.ok (), w)
  | .emitRuntime _ _, w => ((), w)
  | .sendShutdown _, w => (.ok (), w)
  | .sendCancel _ _, w => (.ok (), w)
  | .recordSignal _, w => ((), w)
  | .status _, w => (.idle, w)
  | .queuedCommandCount _, w => ((0 : Nat), w)
  | .setStatus _ _, w => ((), w)
  | .cancelledWithin _ _, w => (true, w)
  | .waitTimeoutOrAbort _ _, w => (true, w)
  | .rememberCheckpoint _, w => ((), w)
  | .readEvents _, w => (.error .diverged, w)
  | .activeLeaf _, w => (.error .diverged, w)
  | .buildContext _, w => (.error .diverged, w)
  | .append _ _, w => (.error .diverged, w)
  | .cloneBranch _ _ _, w => (.error .diverged, w)
  | .selectBranch _ _, w => (.error .diverged, w)

theorem serves_sampleServe (i : Fin 2) (call : HostCall (Fin 2)) (w : HostMaps (Fin 2)) :
    sampleHosting.serves i call w (sampleServe i call w).1 (sampleServe i call w).2 := by
  cases call <;> first | rfl | exact ⟨rfl, rfl⟩

/-- The two starts, taken up. -/
def sampleCallers : Callers (Fin 2) :=
  let taken (pool : Callers (Fin 2)) (i : Fin 2) : Callers (Fin 2) :=
    pool.set i (serveRequest sampleHosting.config (sampleHosting.requests i)).run pool.state
  taken (taken (.idle .empty) 0) 1

theorem reaches_sampleCallers : sampleHosting.Reaches sampleCallers := by
  have h₀ : sampleHosting.Reaches (.idle .empty) := .refl
  have h₁ := Pool.Reachable.start (i := 0) h₀ rfl rfl
  exact Pool.Reachable.start (i := 1) h₁ rfl rfl

/-- The first start reserves, the second is rejected, and the first fails. -/
def sampleSchedule : List (Fin 2) := [0, 0, 1, 1, 0, 0, 0]

/-- The starts after the schedule. -/
def sampleEnd : Callers (Fin 2) := sampleSchedule.foldl (Pool.turn sampleServe) sampleCallers

/-- The starts that failed left nothing. -/
theorem starts_capped_sample : sampleEnd.state.childCount sampleParent ≤ 1 ∧
    ∀ i, NoThread i sampleEnd.state ∧ NoReservation i sampleEnd.state := by
  have hreach : sampleHosting.Reaches sampleEnd :=
    Pool.Reachable.turns serves_sampleServe _ reaches_sampleCallers
  obtain ⟨-, hcapped, hstopped, -⟩ := starts_capped sampleHosting sampleEnd hreach
  have hfailed : ∀ i, ∃ stopped, sampleEnd.procs i = some (.done (.error stopped)) := by
    intro i
    match i with
    | 0 => exact ⟨_, rfl⟩
    | 1 => exact ⟨_, rfl⟩
  refine ⟨hcapped 1 rfl sampleParent, fun i => ?_⟩
  obtain ⟨stopped, hproc⟩ := hfailed i
  exact ⟨fun id => (hstopped i stopped hproc id).1, fun id => (hstopped i stopped hproc id).2⟩

end Hosting

end Verlet.Kernel
