import Verlet.Kernel.ThreadSpawnProjector.Projecting

/-!
# Kernel — The thread spawn projector — Children

What `project_claimed` does for a correlation id whose claim its caller appended: it enters once, and
appends a `thread.spawned` after the claim and at most a `loop.denied` after that.

* `settles_projectClaimed`, `settles_appendFailure`: what the stream holds then.
-/

namespace Verlet.Kernel
open Support Io History SpawnM
open Proc (Makes)

variable {call : SpawnCall} {events : List EventRecord} {caller : SpawnContext}
    {witness : SpawnWitness} {input : String} {binding : Option AgentBinding}
    {taskName : Option String} {metadata : Io.Metadata} {request : EventRecord}

namespace Projecting

variable {σ ι : Type} [DecidableEq ι] {projecting : Projecting σ ι} {i j : ι}
  {w w' w'' : SpawnWorld σ ι}

/-! ### What a whole call does -/

variable (projecting)

def answers (i : ι) (call : SpawnCall) (w : SpawnWorld σ ι) (r : call.Reply)
    (w' : SpawnWorld σ ι) : Prop := projecting.Good w ∧ projecting.serves i call w r w'

/-- What a program of a call does. -/
abbrev Settles {α : Type} (i : ι) (A : α → SpawnWorld σ ι → Prop)
    (B : SpawnError → SpawnWorld σ ι → Prop) (p : SpawnM α) (w : SpawnWorld σ ι) : Prop :=
  Proc.Settles (projecting.Rely i) (projecting.asks i) (projecting.answers i) A B p w

/-- What the others leave as it is. -/
def Lasts (i : ι) (P : SpawnWorld σ ι → Prop) : Prop :=
  ∀ w w', P w → projecting.Rely i w w' → P w'

variable {projecting}

section
variable {α β : Type} {A : α → SpawnWorld σ ι → Prop} {C : β → SpawnWorld σ ι → Prop}
  {B : SpawnError → SpawnWorld σ ι → Prop}

theorem settles_bind (hB : ∀ e, projecting.Lasts i (B e)) {p : SpawnM α} {f : α → SpawnM β}
    (h : projecting.Settles i (fun a w' => projecting.Settles i C B (f a) w') B p w) :
    projecting.Settles i C B (p >>= f) w := Proc.Settles.bind (Rely.refl i) hB h

theorem settles_then (hB : ∀ e, projecting.Lasts i (B e)) {p : SpawnM α} {f : α → SpawnM β}
    {D : SpawnError → SpawnWorld σ ι → Prop} (hD : ∀ e w, D e w → B e w)
    (h : projecting.Settles i A D p w)
    (hf : ∀ a w', A a w' → projecting.Settles i C B (f a) w') :
    projecting.Settles i C B (p >>= f) w := settles_bind hB (Proc.Settles.imp hf hD h)

theorem settles_given {result : SpawnResult α} {f : α → SpawnM β}
    (hok : ∀ a, result = .ok a → projecting.Settles i C B (f a) w)
    (herror : ∀ e, result = .error e → ∀ w', projecting.Rely i w w' → B e w') :
    projecting.Settles i C B (SpawnM.given result >>= f) w := Proc.Settles.settle hok herror

theorem settles_result {result : SpawnResult α}
    (hok : ∀ a, result = .ok a → ∀ w', projecting.Rely i w w' → A a w')
    (herror : ∀ e, result = .error e → ∀ w', projecting.Rely i w w' → B e w') :
    projecting.Settles i A B (SpawnM.given result) w := by
  intro w' hrely
  cases result with
  | ok a => exact hok a rfl w' hrely
  | error e => exact herror e rfl w' hrely

theorem settles_ask {f : call.Reply → SpawnM β}
    (h : ∀ w', projecting.Rely i w w' → projecting.asks i call w' ∧
      ∀ r w'', projecting.answers i call w' r w'' → projecting.Settles i C B (f r) w'') :
    projecting.Settles i C B (SpawnM.ask call >>= f) w := h

theorem settles_noting {f : call.Reply → SpawnM β} (hquiet : Quiet call)
    (h : ∀ r w₁ w', projecting.Rely i w w₁ → projecting.Rely i w₁ w' →
      (projecting.mishap i call r w₁ = true → i ∈ w'.mishaps) →
        projecting.Settles i C B (f r) w') : projecting.Settles i C B (SpawnM.ask call >>= f) w :=
  fun w₁ h₁ => ⟨asks_of_quiet hquiet w₁, fun r w₂ hanswers =>
    h r w₁ w₂ h₁ (rely_of_serves hquiet hanswers.2 i) (mem_mishaps_of_serves hanswers.2)⟩

theorem settles_quiet {f : call.Reply → SpawnM β} (hquiet : Quiet call)
    (h : ∀ r w', projecting.Rely i w w' → projecting.Settles i C B (f r) w') :
    projecting.Settles i C B (SpawnM.ask call >>= f) w :=
  settles_noting hquiet fun r _ w' h₁ h₂ _ => h r w' (h₁.trans h₂)

theorem settles_makes {p : SpawnM α} (hquiet : Makes Quiet p) (w : SpawnWorld σ ι) :
    projecting.Settles i (fun _ => projecting.Rely i w) (fun _ => projecting.Rely i w) p w :=
  Makes.settles (fun _ _ _ => Rely.trans)
    (fun _ hcall w => ⟨asks_of_quiet hcall w, fun _ _ hanswers =>
      rely_of_serves hcall hanswers.2 i⟩) hquiet w

end

-- from here on a program is taken apart by its rules alone
attribute [local irreducible] Proc.Settles Makes

/-! ### What a call owns -/

variable (projecting)

/-- The correlation id has its child or its failure. -/
def Concluded (correlationId : String) (w : SpawnWorld σ ι) : Prop :=
  ∃ event ∈ projecting.decided correlationId w,
    event.kind = .threadSpawned ∨ event.kind = .loopDenied

/-- What the call owns is concluded, but for one. -/
def SettledBut (i : ι) (except : Option String) (w : SpawnWorld σ ι) : Prop :=
  ∀ correlationId, except ≠ some correlationId → Owns i correlationId w →
    projecting.Concluded correlationId w ∨ i ∈ w.mishaps

/-- A correlation id that the call owns and has entered, what is decided of it, and the rest. -/
structure Holds (i : ι) (correlationId : String) (events : List EventRecord) (w : SpawnWorld σ ι) :
    Prop where
  owns : Owns i correlationId w
  entered : (i, correlationId) ∈ w.entered
  decided : projecting.decided correlationId w = events
  rest : projecting.SettledBut i (some correlationId) w

variable {projecting}

section
omit [DecidableEq ι]

theorem SettledBut.lasts (except : Option String) :
    projecting.Lasts i (projecting.SettledBut i except) := by
  intro w w' h hrely correlationId hexcept howns
  have hold := hrely.owns.mp howns
  rcases h correlationId hexcept hold with ⟨event, hevent, hkind⟩ | hmishap
  · exact .inl ⟨event, by rwa [hrely.decided correlationId hold], hkind⟩
  · exact .inr (hrely.mishaps hmishap)

theorem Holds.lasts (correlationId : String) (events : List EventRecord) :
    projecting.Lasts i (projecting.Holds i correlationId events) := by
  intro w w' h hrely
  exact ⟨hrely.owns.mpr h.owns, (hrely.entered correlationId).mpr h.entered,
    (hrely.decided correlationId h.owns).trans h.decided, SettledBut.lasts _ w w' h.rest hrely⟩

theorem Holds.settled {correlationId : String} (h : projecting.Holds i correlationId events w)
    (hconcluded : (∃ event ∈ events, event.kind = .threadSpawned ∨ event.kind = .loopDenied) ∨
      i ∈ w.mishaps) : projecting.SettledBut i none w := by
  intro correlationId' _ howns
  by_cases hsame : correlationId' = correlationId
  · subst hsame
    exact hconcluded.imp (fun hevent => by rwa [Concluded, h.decided]) id
  · exact h.rest correlationId' (fun heq => hsame (Option.some.inj heq).symm) howns

theorem Holds.append {correlationId : String} {event : EventRecord}
    (h : projecting.Holds i correlationId events w)
    (happends : projecting.Appends i false event w w')
    (hdecides : decides correlationId event = true) :
    projecting.Holds i correlationId (events ++ [event]) w' := by
  refine ⟨happends.owns h.owns, happends.entered ▸ h.entered, ?_, ?_⟩
  · rw [happends.decided_concat hdecides, h.decided]
  · intro correlationId' hexcept howns
    have hold : Owns i correlationId' w := by
      obtain ⟨claim, hclaim, hraw⟩ := howns
      rcases happends.mem_claims.mp hclaim with ⟨hfalse, -⟩ | hold
      · cases hfalse
      · exact ⟨claim, hold, hraw⟩
    have hnot : decides correlationId' event = false := by
      rw [Bool.eq_false_iff]
      exact fun hother => hexcept (congrArg some (decides_unique hdecides hother))
    rcases h.rest correlationId' hexcept hold with ⟨found, hfound, hkind⟩ | hmishap
    · exact .inl ⟨found, by rwa [happends.decided_eq hnot], hkind⟩
    · exact .inr (happends.mishaps ▸ hmishap)

end

section
variable {β : Type} {C : β → SpawnWorld σ ι → Prop} {B : SpawnError → SpawnWorld σ ι → Prop}

/-- **An append that follows the claim**, taken or not. -/
theorem settles_appendEvents {correlationId : String} {record : NewEventRecord}
    {f : HistoryResult (List EventRecord) → SpawnM β}
    (h : projecting.Holds i correlationId events w)
    (hraw : ∀ sequence,
      rawCorrelation (.fromNew projecting.stream sequence record) = some correlationId)
    (hdecision : ∀ sequence, isSpawnDecision (.fromNew projecting.stream sequence record) = true)
    (hfollows : ∀ sequence before, decisions correlationId before = events →
      Follows correlationId before (.fromNew projecting.stream sequence record))
    (herror : ∀ e w', projecting.Holds i correlationId events w' → i ∈ w'.mishaps →
      projecting.Settles i C B (f (.error e)) w')
    (hok : ∀ sequence w', projecting.Holds i correlationId
        (events ++ [.fromNew projecting.stream sequence record]) w' →
      (i ∈ w.mishaps → i ∈ w'.mishaps) →
      projecting.Settles i C B (f (.ok [.fromNew projecting.stream sequence record])) w') :
    projecting.Settles i C B (SpawnM.ask (.appendEvents projecting.stream [record]) >>= f) w := by
  refine settles_ask fun w₁ h₁ => ?_
  have hholds := Holds.lasts correlationId events w w₁ h h₁
  refine ⟨⟨rfl, record, correlationId, rfl, hholds.entered, fun sequence =>
    ⟨hraw sequence, hfollows sequence _ hholds.decided⟩⟩, ?_⟩
  rintro r w₂ ⟨-, hserves⟩
  rcases serves_appendEvents hserves with
    ⟨e, rfl, hrely, hmishap⟩ | ⟨sequence, w₃, rfl, happends, hrely⟩
  · exact herror e w₂ (Holds.lasts _ _ _ _ hholds hrely) hmishap
  · have hdecides := decides_iff.mpr ⟨hdecision sequence, hraw sequence⟩
    refine hok sequence w₂ (Holds.lasts _ _ _ _ (hholds.append happends hdecides) hrely) fun hi => ?_
    exact hrely.mishaps (happends.mishaps ▸ h₁.mishaps hi)

end

/-! ### Witnessing a child -/

variable (projecting)

/-- The claim is all that is decided. -/
def Fresh (i : ι) (correlationId : String) (w : SpawnWorld σ ι) : Prop :=
  ∃ claim, isSpawnRequestClaim claim = true ∧ projecting.Holds i correlationId [claim] w

def Witnessed (i : ι) (correlationId : String) (child : ThreadId) (w : SpawnWorld σ ι) : Prop :=
  ∃ claim spawned, isSpawnRequestClaim claim = true ∧ spawned.kind = .threadSpawned ∧
    childHandle spawned = some (.thread child) ∧
      projecting.Holds i correlationId [claim, spawned] w

/-- The child failed before it was witnessed; a projection's may have failed later. -/
def Failed (i : ι) (correlationId : String) (w : SpawnWorld σ ι) : Prop :=
  projecting.Fresh i correlationId w ∨ ∃ child, projecting.Witnessed i correlationId child w ∧
    ((projecting.calls i).isDispatch = true → i ∈ w.mishaps)

variable {projecting}

section
omit [DecidableEq ι]

theorem Fresh.lasts (correlationId : String) : projecting.Lasts i (projecting.Fresh i correlationId) := by
  rintro w w' ⟨claim, hclaim, hholds⟩ hrely
  exact ⟨claim, hclaim, Holds.lasts _ _ w w' hholds hrely⟩

theorem Witnessed.lasts (correlationId : String) (child : ThreadId) :
    projecting.Lasts i (projecting.Witnessed i correlationId child) := by
  rintro w w' ⟨claim, spawned, hclaim, hkind, hchild, hholds⟩ hrely
  exact ⟨claim, spawned, hclaim, hkind, hchild, Holds.lasts _ _ w w' hholds hrely⟩

theorem Failed.lasts (correlationId : String) :
    projecting.Lasts i (projecting.Failed i correlationId) := by
  rintro w w' (hfresh | ⟨child, hwitnessed, hmishap⟩) hrely
  · exact .inl (Fresh.lasts _ w w' hfresh hrely)
  · exact .inr ⟨child, Witnessed.lasts _ _ w w' hwitnessed hrely,
      fun hdispatch => hrely.mishaps (hmishap hdispatch)⟩

end

theorem Witnessed.hasSpawned {correlationId : String} {child : ThreadId}
    (h : projecting.Witnessed i correlationId child w) : projecting.hasSpawned i w = true := by
  obtain ⟨claim, spawned, -, hkind, -, hholds⟩ := h
  obtain ⟨claim', hclaim', hraw'⟩ := hholds.owns
  have hspawned : spawned ∈ projecting.decided correlationId w := by
    rw [hholds.decided]
    exact List.mem_cons_of_mem _ List.mem_cons_self
  obtain ⟨hmem, hdecides⟩ := mem_decisions.mp hspawned
  refine List.any_eq_true.mpr ⟨(i, claim'), hclaim', decide_eq_true ⟨rfl, ?_⟩⟩
  refine List.any_eq_true.mpr ⟨spawned, hmem, decide_eq_true ⟨hkind, ?_⟩⟩
  exact (decides_iff.mp hdecides).2.trans hraw'.symm

theorem Witnessed.failed {correlationId : String} {child : ThreadId}
    (h : projecting.Witnessed i correlationId child w) (hrely : projecting.Rely i w w')
    (hnoted : projecting.failsLate i w true = true → i ∈ w'.mishaps) :
    projecting.Failed i correlationId w' :=
  .inr ⟨child, Witnessed.lasts _ _ w w' h hrely, fun hdispatch =>
    hnoted (by simp [failsLate, hdispatch, h.hasSpawned])⟩

section
variable {α : Type} {A : α → SpawnWorld σ ι → Prop} {correlationId : String}

theorem settles_failed {e : SpawnError} (h : projecting.Failed i correlationId w) :
    projecting.Settles i A (fun _ => projecting.Failed i correlationId) (throw e : SpawnM α) w :=
  Proc.Settles.throw fun w' hrely => Failed.lasts correlationId w w' h hrely

theorem settles_witnessed {a : α} {child : ThreadId} {B : SpawnError → SpawnWorld σ ι → Prop}
    (h : projecting.Witnessed i correlationId child w) :
    projecting.Settles i (fun _ => projecting.Witnessed i correlationId child) B
      (pure a : SpawnM α) w :=
  Proc.Settles.pure fun w' hrely => Witnessed.lasts correlationId child w w' h hrely

theorem settles_receipt {receipt : SpawnReceipt} {B : SpawnError → SpawnWorld σ ι → Prop}
    (h : projecting.Witnessed i correlationId receipt.threadId w) :
    projecting.Settles i (fun receipt => projecting.Witnessed i correlationId receipt.threadId) B
      (pure receipt : SpawnM SpawnReceipt) w :=
  Proc.Settles.pure fun w' hrely => Witnessed.lasts correlationId receipt.threadId w w' h hrely

theorem settles_orFailed {β : Type} {C : β → SpawnWorld σ ι → Prop} {p : SpawnM α} {f : α → SpawnM β}
    (h : projecting.Settles i A (fun _ => projecting.Failed i correlationId) p w)
    (hf : ∀ a w', A a w' →
      projecting.Settles i C (fun _ => projecting.Failed i correlationId) (f a) w') :
    projecting.Settles i C (fun _ => projecting.Failed i correlationId) (p >>= f) w :=
  settles_then (fun _ => Failed.lasts correlationId) (fun _ _ hfailed => hfailed) h hf

variable (projecting i correlationId) in
/-- The program ends with a receipt of the child that was witnessed, or with the failure decided. -/
abbrev Receipts (p : SpawnM SpawnReceipt) (w : SpawnWorld σ ι) : Prop :=
  projecting.Settles i (fun receipt => projecting.Witnessed i correlationId receipt.threadId)
    (fun _ => projecting.Failed i correlationId) p w

theorem settles_fresh {p : SpawnM α} (hquiet : Makes Quiet p)
    (h : projecting.Fresh i correlationId w) :
    projecting.Settles i (fun _ => projecting.Fresh i correlationId)
      (fun _ => projecting.Failed i correlationId) p w :=
  Proc.Settles.imp (fun _ w' hrely => Fresh.lasts correlationId w w' h hrely)
    (fun _ w' hrely => .inl (Fresh.lasts correlationId w w' h hrely)) (settles_makes hquiet w)

end

/-- **The witness of a child** follows the claim. -/
theorem settles_appendThreadSpawnedEvent {child : SpawnContext}
    (hcaller : caller.coordinates.threadId = projecting.parent)
    (h : projecting.Fresh i witness.correlationId w) :
    projecting.Settles i
      (fun _ => projecting.Witnessed i witness.correlationId child.coordinates.threadId)
      (fun _ => projecting.Failed i witness.correlationId)
      (appendThreadSpawnedEvent projecting.setup caller child witness) w := by
  have hstream : controlStreamId caller.coordinates = projecting.stream := by
    rw [controlStreamId, hcaller, stream]
  refine settles_given (fun policyHash _ => ?_) (fun e _ w' hrely => .inl (Fresh.lasts _ w w' h hrely))
  refine settles_quiet trivial fun (draw : Draw) w₁ h₁ => ?_
  obtain ⟨claim, hclaim, hholds⟩ := Fresh.lasts _ w w₁ h h₁
  unfold appendControlEvent
  rw [hstream]
  refine settles_appendEvents hholds (fun _ => rawCorrelation_spawnedRecord) (fun _ => rfl)
    (fun _ _ hdecided => .spawned rfl hclaim hdecided) (fun e w₂ hholds₂ _ => ?_)
    (fun sequence w₂ hholds₂ _ => ?_)
  · exact settles_failed (.inl ⟨claim, hclaim, hholds₂⟩)
  · have hwitnessed : projecting.Witnessed i witness.correlationId child.coordinates.threadId w₂ := by
      exact ⟨claim, _, hclaim, rfl, childHandle_spawnedRecord, hholds₂⟩
    refine settles_noting trivial fun coupled w₃ w₄ h₃ h₄ hnoted => ?_
    have hwitnessed₃ := Witnessed.lasts _ _ _ _ hwitnessed h₃
    refine settles_given (fun _ _ => ?_) (fun e he w₅ h₅ => ?_)
    · exact settles_witnessed (Witnessed.lasts _ _ _ _ hwitnessed₃ h₄)
    · subst he
      exact Failed.lasts _ _ _ (hwitnessed₃.failed h₄ hnoted) h₅

/-! ### The child -/

section
variable {α : Type} {A : α → SpawnWorld σ ι → Prop} {correlationId : String} {child : ThreadId}

/-- Where a guarded part fails, shutting down what it left keeps what is true of the failure. -/
theorem settles_guarding {p : SpawnM α} {release : SpawnM Unit} (hA : ∀ a, projecting.Lasts i (A a))
    (hquiet : Makes Quiet release)
    (h : projecting.Settles i A (fun _ => projecting.Failed i correlationId) p w) :
    projecting.Settles i A (fun _ => projecting.Failed i correlationId)
      (Proc.guarding p release) w := by
  refine Proc.Settles.guarding (Rely.refl i) (fun _ => Failed.lasts correlationId) hA ?_
  refine Proc.Settles.imp (fun _ _ ha => ha) (fun _ w₁ hfailed => ?_) h
  exact Proc.Settles.imp (fun _ w₂ hrely => Failed.lasts _ _ _ hfailed hrely)
    (fun _ w₂ hrely => Failed.lasts _ _ _ hfailed hrely) (settles_makes hquiet w₁)

theorem settles_attemptSpawn {result : call.Reply → SpawnResult Unit} (hquiet : Quiet call)
    (hlate : ∀ r e w, result r = .error e →
      projecting.failsLate i w true = true → projecting.mishap i call r w = true)
    (h : projecting.Witnessed i correlationId child w) :
    projecting.Settles i (fun _ => projecting.Witnessed i correlationId child)
      (fun _ => projecting.Failed i correlationId) (attemptSpawn call result) w := by
  refine settles_noting hquiet fun r w₁ w₂ h₁ h₂ hnoted => ?_
  have hwitnessed := Witnessed.lasts _ _ _ _ h h₁
  refine settles_result (fun _ _ w₃ h₃ => ?_) (fun e he w₃ h₃ => ?_)
  · exact Witnessed.lasts _ _ _ _ hwitnessed (h₂.trans h₃)
  · exact Failed.lasts _ _ _ (hwitnessed.failed h₂ fun hlate' => hnoted (hlate r e w₁ he hlate')) h₃

end

/-- **What follows the start of a child**: its witness, and then nothing that is decided. -/
theorem settles_settleChild {child : SpawnContext} {turnId : String}
    (hcaller : caller.coordinates.threadId = projecting.parent)
    (h : projecting.Fresh i witness.correlationId w) :
    projecting.Settles i
      (fun _ => projecting.Witnessed i witness.correlationId child.coordinates.threadId)
      (fun _ => projecting.Failed i witness.correlationId)
      (settleChild projecting.setup caller child input turnId witness binding) w := by
  have hshutdown : Makes Quiet
      (ask (.shutdownThread child.coordinates.threadId) : SpawnM Unit) := .await trivial
  have hsubmit : ∀ w₂, projecting.Witnessed i witness.correlationId child.coordinates.threadId w₂ →
      projecting.Settles i
        (fun _ => projecting.Witnessed i witness.correlationId child.coordinates.threadId)
        (fun _ => projecting.Failed i witness.correlationId)
        (Proc.guarding (attemptSpawn (.submitTurn child.coordinates.threadId turnId input) id)
          (ask (.shutdownThread child.coordinates.threadId))) w₂ := by
    intro w₂ hwitnessed
    refine settles_guarding (fun _ => Witnessed.lasts _ _) hshutdown
      (settles_attemptSpawn trivial (fun r e w hr hlate => ?_) hwitnessed)
    obtain rfl : r = .error e := hr
    exact hlate
  refine settles_orFailed (settles_guarding (fun _ => Witnessed.lasts _ _) hshutdown
      (settles_appendThreadSpawnedEvent hcaller h)) fun _ w₁ hwitnessed => ?_
  cases binding with
  | none => exact hsubmit w₁ hwitnessed
  | some binding =>
    refine settles_orFailed (settles_guarding (fun _ => Witnessed.lasts _ _) hshutdown
        (settles_attemptSpawn trivial (fun r e w hr hlate => ?_) hwitnessed))
      fun _ w₂ hwitnessed₂ => hsubmit w₂ hwitnessed₂
    obtain rfl : r = .error e := hr
    exact hlate

theorem makes_requireHost : Makes Quiet requireHost := by
  refine .bind (.await trivial) fun available => ?_
  cases available with
  | false => exact .throw
  | true => exact .pure

theorem makes_spawnTurnId (witness : SpawnWitness) : Makes Quiet (spawnTurnId witness) := by
  unfold spawnTurnId
  split
  · exact .pure
  · exact .bind (.await trivial) fun _ => .pure

/-- **A local child**, from its start to its first turn. -/
theorem settles_spawnChildInner (hcaller : caller.coordinates.threadId = projecting.parent)
    (h : projecting.Fresh i witness.correlationId w) :
    projecting.Receipts i witness.correlationId
      (spawnChildInner projecting.setup caller taskName input metadata witness binding) w := by
  refine settles_orFailed (settles_fresh makes_requireHost h) fun _ w₁ hfresh => ?_
  refine settles_quiet trivial fun started w₂ h₂ => ?_
  have hfresh₂ := Fresh.lasts _ _ _ hfresh h₂
  refine settles_given (fun child _ => ?_) (fun _ _ w' hrely => .inl (Fresh.lasts _ _ _ hfresh₂ hrely))
  refine settles_quiet trivial fun found w₃ h₃ => ?_
  have hfresh₃ := Fresh.lasts _ _ _ hfresh₂ h₃
  refine settles_given (fun _ _ => ?_) (fun _ _ w' hrely => .inl (Fresh.lasts _ _ _ hfresh₃ hrely))
  refine settles_orFailed (settles_fresh (makes_spawnTurnId witness) hfresh₃) fun turnId w₄ hfresh₄ => ?_
  exact settles_orFailed (settles_settleChild hcaller hfresh₄) fun _ w₅ hwitnessed => settles_receipt hwitnessed

theorem settles_spawnLocalChild (hcaller : caller.coordinates.threadId = projecting.parent)
    (h : projecting.Fresh i witness.correlationId w) :
    projecting.Receipts i witness.correlationId
      (spawnLocalChild projecting.setup caller taskName input metadata witness binding) w := by
  refine Proc.Settles.attempt (Rely.refl i)
    (Proc.Settles.imp (fun receipt w₁ hwitnessed w₂ h₂ => ?_) (fun e w₁ hfailed w₂ h₂ => ?_)
      (settles_spawnChildInner hcaller h))
  · refine settles_noting trivial fun joined w₃ w₄ h₃ h₄ hnoted => ?_
    have hwitnessed₃ := Witnessed.lasts _ _ _ _ hwitnessed (h₂.trans h₃)
    cases joined with
    | some err => exact settles_failed (hwitnessed₃.failed h₄ hnoted)
    | none => exact settles_receipt (Witnessed.lasts _ _ _ _ hwitnessed₃ h₄)
  · refine settles_quiet trivial fun joined w₃ h₃ => ?_
    have hfailed₃ := Failed.lasts _ _ _ hfailed (h₂.trans h₃)
    cases joined with
    | some err => exact settles_failed hfailed₃
    | none => exact settles_failed hfailed₃

/-- **A remote child**, from its witness to its start. -/
theorem settles_spawnRemoteChild (hcaller : caller.coordinates.threadId = projecting.parent)
    (h : projecting.Fresh i witness.correlationId w) :
    projecting.Receipts i witness.correlationId
      (spawnRemoteChild projecting.setup caller taskName input metadata witness binding) w := by
  refine settles_orFailed (settles_fresh makes_requireHost h) fun _ w₁ hfresh => ?_
  refine settles_quiet trivial fun served w₂ h₂ => ?_
  have hfresh₂ := Fresh.lasts _ _ _ hfresh h₂
  cases served with
  | false => exact settles_failed (.inl hfresh₂)
  | true =>
    refine settles_quiet trivial fun childThreadId w₃ h₃ => ?_
    refine settles_quiet trivial fun found w₄ h₄ => ?_
    have hfresh₄ := Fresh.lasts _ _ _ hfresh₂ (h₃.trans h₄)
    refine settles_given (fun _ _ => ?_)
      (fun _ _ w' hrely => .inl (Fresh.lasts _ _ _ hfresh₄ hrely))
    refine settles_orFailed (settles_fresh (makes_spawnTurnId witness) hfresh₄) fun turnId w₅ hfresh₅ => ?_
    refine settles_orFailed (settles_appendThreadSpawnedEvent hcaller hfresh₅) fun spawned w₆ hwitnessed => ?_
    refine settles_noting trivial fun answer w₇ w₈ h₇ h₈ hnoted => ?_
    have hwitnessed₇ := Witnessed.lasts _ _ _ _ hwitnessed h₇
    cases answer with
    | ok _ => exact settles_receipt (Witnessed.lasts _ _ _ _ hwitnessed₇ h₈)
    | error error =>
      have hfailed := hwitnessed₇.failed h₈ hnoted
      exact settles_quiet trivial fun _ w₉ h₉ =>
        settles_failed (Failed.lasts _ _ _ hfailed h₉)

theorem settles_spawnPlaced {payload : ThreadSpawnRequestedPayload} {placement : PlacementTarget}
    {hasWorkspace : Bool} (hcaller : caller.coordinates.threadId = projecting.parent)
    (h : projecting.Fresh i payload.correlationId w) :
    projecting.Settles i
      (fun receipt => projecting.Witnessed i payload.correlationId receipt.threadId)
      (fun _ => projecting.Failed i payload.correlationId)
      (spawnPlaced projecting.setup caller request payload binding metadata placement hasWorkspace)
      w := by
  have hfresh : projecting.Fresh i (SpawnWitness.correlationId ⟨payload.parentTurnId,
      payload.correlationId, request.streamId, request.id, submittedTurnOf request payload⟩) w := h
  unfold spawnPlaced
  dsimp only
  split
  · exact settles_failed (.inl h)
  · cases placement with
    | «local» => exact settles_spawnLocalChild hcaller hfresh
    | remote => exact settles_spawnRemoteChild hcaller hfresh
    | sandbox => exact settles_failed (.inl h)

theorem makes_resolveBinding (setup : SpawnSetup) (caller : SpawnContext) (arguments : Json) :
    Makes Quiet (resolveBinding setup caller arguments) := by
  unfold resolveBinding
  dsimp only
  split
  · exact .pure
  · split
    · exact .throw
    · exact .bind (.await trivial) fun _ => .bind .settle fun _ => .pure

theorem makes_spawnMetadata (setup : SpawnSetup) (caller : SpawnContext) (arguments : Json) :
    Makes Quiet (spawnMetadata setup caller arguments) := by
  refine .bind .settle fun inputsHash => .bind (makes_resolveBinding ..) fun binding => ?_
  cases binding with
  | none => exact .pure
  | some binding =>
    refine .bind .settle fun receipt => ?_
    split
    · exact .pure
    · exact .pure

theorem makes_requireAttachment (setup : SpawnSetup) (caller : SpawnContext) (required : Bool) :
    Makes Quiet (requireAttachment setup caller required) := by
  cases required with
  | false => exact .pure
  | true =>
    refine .bind Makes.settle fun attached => ?_
    cases attached with
    | false => exact .throw
    | true => exact .pure

/-! ### Entering -/

variable (projecting) in
/-- The claim was appended, and `project_claimed` is still to be entered. -/
structure Pending (i : ι) (correlationId : String) (w : SpawnWorld σ ι) : Prop where
  owns : Owns i correlationId w
  entered : (i, correlationId) ∉ w.entered
  rest : projecting.SettledBut i (some correlationId) w

omit [DecidableEq ι] in
theorem Pending.lasts (correlationId : String) :
    projecting.Lasts i (projecting.Pending i correlationId) := by
  intro w w' h hrely
  exact ⟨hrely.owns.mpr h.owns, fun hmem => h.entered ((hrely.entered correlationId).mp hmem),
    SettledBut.lasts _ w w' h.rest hrely⟩

theorem settles_enter {α : Type} {A : α → SpawnWorld σ ι → Prop}
    {B : SpawnError → SpawnWorld σ ι → Prop} {requestEventId : EventRecordId}
    {correlationId : String} {f : Unit → SpawnM α} (h : projecting.Pending i correlationId w)
    (hf : ∀ w', projecting.Fresh i correlationId w' → projecting.Settles i A B (f ()) w') :
    projecting.Settles i A B (ask (.enterProjectClaimed requestEventId correlationId) >>= f) w := by
  refine settles_ask fun w₁ h₁ => ?_
  have hpending := Pending.lasts _ _ _ h h₁
  refine ⟨⟨hpending.owns, hpending.entered⟩, ?_⟩
  rintro r w₂ ⟨hgood, hserves⟩
  obtain ⟨answers, w₃, hact, hsame, hmishaps, -⟩ := serves_cases hserves
  obtain ⟨-, rfl⟩ := Prod.mk.inj hact
  obtain ⟨claim, hmem, hraw⟩ := hpending.owns
  refine hf w₂ (Fresh.lasts _ _ _ ?_ (.of_same hsame (hmishaps i)))
  exact ⟨claim, (hgood.claimed i claim hmem).1, ⟨claim, hmem, hraw⟩, List.mem_cons_self,
    hgood.pending i claim correlationId hmem hraw hpending.entered, hpending.rest⟩

/-- **`project_claimed`** enters once, and witnesses its child at most once. -/
theorem settles_projectClaimed {payload : ThreadSpawnRequestedPayload} {required : Bool}
    (hcaller : caller.coordinates.threadId = projecting.parent)
    (h : projecting.Pending i payload.correlationId w) :
    projecting.Settles i
      (fun projected => projecting.Witnessed i payload.correlationId projected.childThreadId)
      (fun _ => projecting.Failed i payload.correlationId)
      (projectClaimed projecting.setup caller request payload required) w := by
  refine settles_enter h fun w₁ hfresh => ?_
  refine settles_orFailed (settles_fresh (makes_requireAttachment ..) hfresh) fun _ w₂ hfresh₂ => ?_
  refine settles_orFailed (settles_fresh (makes_spawnMetadata ..) hfresh₂) fun resolved w₃ hfresh₃ => ?_
  refine settles_given (fun placed _ => ?_)
    (fun _ _ w' hrely => .inl (Fresh.lasts _ _ _ hfresh₃ hrely))
  refine settles_orFailed (settles_spawnPlaced hcaller hfresh₃) fun receipt w₄ hwitnessed => ?_
  exact Proc.Settles.pure fun w' hrely => Witnessed.lasts _ receipt.threadId _ _ hwitnessed hrely

/-! ### Failures -/

variable (projecting) in
/-- The failure is recorded; what comes before it holds no child, unless something went wrong. -/
def Denied (i : ι) (correlationId : String) (w : SpawnWorld σ ι) : Prop :=
  ∃ events denied, denied.kind = .loopDenied ∧
    projecting.Holds i correlationId (events ++ [denied]) w ∧
    ((projecting.calls i).isDispatch = true → i ∈ w.mishaps ∨
      ∀ event ∈ events, event.kind ≠ .threadSpawned)

section
omit [DecidableEq ι]

theorem Denied.lasts (correlationId : String) :
    projecting.Lasts i (projecting.Denied i correlationId) := by
  rintro w w' ⟨events, denied, hkind, hholds, hnone⟩ hrely
  exact ⟨events, denied, hkind, Holds.lasts _ _ w w' hholds hrely, fun hdispatch =>
    (hnone hdispatch).imp hrely.mishaps id⟩

theorem Failed.holds {correlationId : String} (h : projecting.Failed i correlationId w) :
    ∃ claim rest, isSpawnRequestClaim claim = true ∧
      projecting.Holds i correlationId (claim :: rest) w ∧
      (∀ event ∈ rest, event.kind = .threadSpawned) ∧
      ((projecting.calls i).isDispatch = true → i ∈ w.mishaps ∨ rest = []) := by
  rcases h with ⟨claim, hclaim, hholds⟩ | ⟨child, ⟨claim, spawned, hclaim, hkind, -, hholds⟩, hmishap⟩
  · exact ⟨claim, [], hclaim, hholds, fun event hevent => (List.not_mem_nil hevent).elim,
      fun _ => .inr rfl⟩
  · refine ⟨claim, [spawned], hclaim, hholds, fun event hevent => ?_,
      fun hdispatch => .inl (hmishap hdispatch)⟩
    rw [List.mem_singleton.mp hevent]
    exact hkind

end

theorem checkFailure_fromNew {streamId : EventStreamId} {sequence : EventSequence}
    {failure : NewEventRecord} :
    checkFailure streamId failure [.fromNew streamId sequence failure] =
      .ok (.fromNew streamId sequence failure) := by
  simp [checkFailure, EventRecord.fromNew]

omit [DecidableEq ι] in
theorem Failed.denied {correlationId : String} {claim denied : EventRecord} {rest : List EventRecord}
    (hclaim : isSpawnRequestClaim claim = true) (hdenied : denied.kind = .loopDenied)
    (hholds : projecting.Holds i correlationId (claim :: rest ++ [denied]) w)
    (hnone : (projecting.calls i).isDispatch = true → i ∈ w.mishaps ∨ rest = []) :
    projecting.Denied i correlationId w := by
  refine ⟨claim :: rest, denied, hdenied, hholds, fun hdispatch => (hnone hdispatch).imp id ?_⟩
  rintro rfl event hevent hspawned
  rw [List.mem_singleton.mp hevent] at hspawned
  simp [isSpawnRequestClaim, hspawned] at hclaim

/-- **A failure is recorded** after what was decided. -/
theorem settles_appendFailure {coordinates : ThreadCoordinates} {given : Option String}
    {correlationId reason : String} (hstream : request.streamId = projecting.stream)
    (hcorrelation : given.or (rawCorrelation request) = some correlationId)
    (h : projecting.Failed i correlationId w) :
    projecting.Settles i (fun _ => projecting.Denied i correlationId)
      (fun _ w' => projecting.SettledBut i none w' ∧ i ∈ w'.mishaps)
      (appendFailure coordinates request given reason) w := by
  refine settles_quiet trivial fun (draw : Draw) w₁ h₁ => ?_
  have hfailed := Failed.lasts _ _ _ h h₁
  obtain ⟨claim, rest, hclaim, hholds, hrest, hnone⟩ := hfailed.holds
  rw [hstream]
  refine settles_appendEvents hholds
    (fun _ => rawCorrelation_failureRecord.trans hcorrelation) (fun _ => rfl)
    (fun _ _ hdecided => .denied rfl hclaim hdecided hrest) (fun e w₂ hholds₂ hmishap => ?_)
    (fun sequence w₂ hholds₂ hmishaps => ?_)
  · refine Proc.Settles.throw fun w₃ h₃ => ?_
    exact ⟨SettledBut.lasts _ _ _ (hholds₂.settled (.inr hmishap)) h₃, h₃.mishaps hmishap⟩
  · have hdenied : projecting.Denied i correlationId w₂ :=
      Failed.denied hclaim rfl hholds₂ fun hdispatch => (hnone hdispatch).imp hmishaps id
    refine settles_given (fun appended happended => settles_result (fun _ _ w₃ h₃ => ?_) ?_) ?_
    · exact Denied.lasts _ _ _ hdenied h₃
    · intro e he
      obtain rfl := Except.ok.inj happended
      rw [checkFailure_fromNew] at he
      cases he
    · intro e he
      cases he

end Projecting

end Verlet.Kernel
