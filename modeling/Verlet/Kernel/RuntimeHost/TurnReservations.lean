import Verlet.Kernel.Admission
import Verlet.Support.Pools
import Verlet.Support.Programs

/-!
# Kernel — The runtime host — Turn reservations

`reserve_turn_submission_at_choke_point` and `submit_unchecked`: the turns that enter a live thread's
command channel.  The id of a turn is put into the thread's set of reservations first; a caller that
finds it there has nothing left to do, and one that put it there goes through the steps that may fail
and then sends the command.  Where it fails, or its future is dropped, the id is taken out again.
-/

namespace Verlet.Kernel
open Support
open History (ThreadId)
open RemoteStore (VerletError VerletResult)
open Function (update update_of_ne update_self)
open Proc (Makes)

/-- `VerletError`, with what the runtime host fails with. -/
inductive HostError where
  | kernel (error : VerletError)
  | threadNotFound (threadId : ThreadId)
  | threadClosed (threadId : ThreadId)
  | threadPolicyViolation (threadId : ThreadId) (code message : String)
deriving DecidableEq

/-- `RuntimeExecutionPolicy`, as far as a submission reads it. -/
structure RuntimeExecutionPolicy where
  maxPendingInputs : Option Nat
  turnTimeoutMs : Option Nat

/-- A `TurnInput`: what it holds, and what a submission puts into it. -/
structure TurnInput (I : Type) where
  content : I
  pendingInputPermit : Bool
  turnWatchdog : Option Nat

/-- `set_turn_watchdog`, where there is one. -/
def TurnInput.watched {I : Type} (input : TurnInput I) : Option Nat → TurnInput I
  | some watchdog => { input with turnWatchdog := some watchdog }
  | none          => input

/-- `ThreadCommand::Submit`. -/
structure Submit (I : Type) where
  turnId : String
  input : TurnInput I
  mode : TurnSubmissionMode

inductive TryAcquireError where
  | noPermits
  | closed

/-- What comes of an await: its result, or the caller drops the future there. -/
inductive Awaited (α : Type) where
  | ready (a : α)
  | dropped

/-! ### Calls -/

inductive SubmissionCall (I : Type) where
  | getThread (threadId : ThreadId)
  /-- `turn_reservations.insert`: the id was not there. -/
  | insertReservation (turnId : String)
  /-- `turn_reservations.remove`, of `TurnIdReservation::drop`. -/
  | removeReservation (turnId : String)
  /-- The thread has a semaphore of its pending inputs. -/
  | hasPendingInputSlots
  | tryAcquirePendingInput
  | availablePermits
  | emitPolicyRejected (code message : String)
  /-- `command_tx.reserve_owned()`. -/
  | reserveCommand
  | appendAdmissionDecided (context : AdmissionGateContext)
  | registerTurnWatchdog
  /-- The caller goes on with what it reserved, or drops it. -/
  | goesOn
  /-- `command_permit.send`, and with it `reservation.committed`. -/
  | send (command : Submit I)
  | spawnTurnTimeoutWatchdog (watchdog : Nat)
  | recordSignal (turnId : String) (mode : TurnSubmissionMode)

variable {I : Type}

def SubmissionCall.Reply : SubmissionCall I → Type
  | .getThread _                => Awaited (Except HostError Unit)
  | .insertReservation _        => Bool
  | .removeReservation _        => Unit
  | .hasPendingInputSlots       => Bool
  | .tryAcquirePendingInput     => Except TryAcquireError Unit
  | .availablePermits           => Nat
  | .emitPolicyRejected _ _     => Unit
  | .reserveCommand             => Awaited (Except Unit Unit)
  | .appendAdmissionDecided _   => Awaited (VerletResult Unit)
  | .registerTurnWatchdog       => Nat
  | .goesOn                     => Bool
  | .send _                     => Unit
  | .spawnTurnTimeoutWatchdog _ => Unit
  | .recordSignal _ _           => Awaited Unit

/-- How a submission ends that does not succeed. -/
inductive Abandoned where
  | failed (error : HostError)
  | dropped

abbrev SubmissionM (I α : Type) :=
  ExceptT Abandoned (Proc (SubmissionCall I) SubmissionCall.Reply) α

namespace SubmissionM

def ask (call : SubmissionCall I) : SubmissionM I call.Reply := Proc.await call

def orDropped {α : Type} : Awaited α → SubmissionM I α
  | .ready a => return a
  | .dropped => throw .dropped

def orFail {α : Type} : Except HostError α → SubmissionM I α
  | .ok a        => return a
  | .error error => throw (.failed error)

end SubmissionM

/-! ### Reserving and submitting -/

/-- `ReservedTurnSubmission`: of a duplicate it holds neither reservation nor permit nor input. -/
structure ReservedTurnSubmission (I : Type) where
  reservation : Option String
  commandPermit : Bool
  turnId : String
  input : Option (TurnInput I)
  mode : TurnSubmissionMode
  turnWatchdog : Option Nat

structure TurnSubmission (I : Type) where
  threadId : ThreadId
  turnId : String
  input : TurnInput I
  mode : TurnSubmissionMode
  admission : Option AdmissionGateContext

open SubmissionM

/-- `Semaphore::MAX_PERMITS`. -/
def maxPermits : Nat := (2 ^ 64 - 1) / 8

/-- A queued input takes one of the slots that the policy limits. -/
def acquirePendingInput (maxPendingInputs : Nat) (turn : TurnSubmission I) :
    SubmissionM I (TurnInput I) := do
  let configured : Bool ← ask .hasPendingInputSlots
  if configured then
    match ← ask .tryAcquirePendingInput with
    | .ok () => return { turn.input with pendingInputPermit := true }
    | .error .noPermits => do
      let availablePermits : Nat ← ask .availablePermits
      let queuedCommands := min maxPendingInputs maxPermits - availablePermits
      let message := "thread has " ++ toString queuedCommands ++
        " queued command(s); max pending input count is " ++ toString maxPendingInputs
      ask (.emitPolicyRejected "max_pending_inputs" message)
      throw (.failed (.threadPolicyViolation turn.threadId "max_pending_inputs" message))
    | .error .closed => throw (.failed (.threadClosed turn.threadId))
  else
    throw (.failed (.kernel
      (.runtimeExecution "configured pending-input policy has no slot semaphore")))

def limitedInput (policy : RuntimeExecutionPolicy) (turn : TurnSubmission I) :
    SubmissionM I (TurnInput I) :=
  match turn.mode, policy.maxPendingInputs with
  | .queue, some maxPendingInputs => acquirePendingInput maxPendingInputs turn
  | _, _                          => return turn.input

/-- A permit of the thread's command channel. -/
def reserveCommand (turn : TurnSubmission I) : SubmissionM I Unit := do
  match ← orDropped (← ask .reserveCommand) with
  | .ok ()    => return
  | .error () => throw (.failed (.threadClosed turn.threadId))

def recordAdmission (turn : TurnSubmission I) : SubmissionM I Unit :=
  match turn.admission with
  | some admission => do
    match ← orDropped (← ask (.appendAdmissionDecided admission)) with
    | .ok ()       => return
    | .error error => throw (.failed (.kernel error))
  | none => return

/-- The turn's watchdog, where the policy has turns time out. -/
def registerWatchdog (policy : RuntimeExecutionPolicy) : SubmissionM I (Option Nat) :=
  match policy.turnTimeoutMs with
  | some _ => do
    let watchdog : Nat ← ask .registerTurnWatchdog
    return some watchdog
  | none => return none

/-- What a reservation has to get through: the limit, the channel and the admission record. -/
def passAdmission (policy : RuntimeExecutionPolicy) (turn : TurnSubmission I) :
    SubmissionM I (ReservedTurnSubmission I) := do
  let input ← limitedInput policy turn
  reserveCommand turn
  recordAdmission turn
  let watchdog ← registerWatchdog policy
  return ⟨some turn.turnId, true, turn.turnId, some (input.watched watchdog), turn.mode, watchdog⟩

def reserveTurnSubmissionAtChokePoint (policy : RuntimeExecutionPolicy) (turn : TurnSubmission I) :
    SubmissionM I (ReservedTurnSubmission I) := do
  orFail (← orDropped (← ask (.getThread turn.threadId)))
  let inserted : Bool ← ask (.insertReservation turn.turnId)
  if inserted then
    Proc.guarding (passAdmission policy turn) (ask (.removeReservation turn.turnId))
  else
    return ⟨none, false, turn.turnId, none, turn.mode, none⟩

/-- `spawn_turn_timeout_watchdog`, of a turn that has one. -/
def spawnWatchdog : Option Nat → SubmissionM I Unit
  | some watchdog => ask (.spawnTurnTimeoutWatchdog watchdog)
  | none          => return

/-- What follows the send: the watchdog and the signal. -/
def publish (reserved : ReservedTurnSubmission I) : SubmissionM I Unit := do
  spawnWatchdog reserved.turnWatchdog
  orDropped (← ask (.recordSignal reserved.turnId reserved.mode))

/-- `submit_unchecked`: the command entered the channel. -/
def submitUnchecked (reserved : ReservedTurnSubmission I) : SubmissionM I Bool :=
  match reserved.commandPermit, reserved.input with
  | true, some input => do
    ask (.send ⟨reserved.turnId, input, reserved.mode⟩)
    publish reserved
    return true
  | _, _ => return false

def dropReserved (reserved : ReservedTurnSubmission I) : SubmissionM I Unit :=
  match reserved.reservation with
  | some turnId => ask (.removeReservation turnId)
  | none        => return

/-- A caller that reserves a turn and submits what it reserved, as `submit_turn` does and
`submit_to_thread_with_identities`, or drops it in between.  Either answer is a success to it. -/
def submitTurn (policy : RuntimeExecutionPolicy) (turn : TurnSubmission I) : SubmissionM I Bool := do
  let reserved ← reserveTurnSubmissionAtChokePoint policy turn
  let goesOn : Bool ← ask .goesOn
  if goesOn then
    submitUnchecked reserved
  else do
    dropReserved reserved
    throw .dropped

/-! ### Callers on one thread -/

/-- The thread's reservations and the turns that entered its channel, in order; with the reservation
that each caller holds, and the ids that a caller was turned away with. -/
structure TurnWorld (I ι : Type) where
  turnReservations : List String
  commands : List (Submit I)
  holds : ι → Option String
  duplicates : List String

/-- Callers, each with a turn to submit to the one thread. -/
structure Submitting (I ι : Type) where
  policy : RuntimeExecutionPolicy
  turns : ι → TurnSubmission I

variable {turn : TurnSubmission I} {reserved : ReservedTurnSubmission I} {turnId : String}

namespace Submitting

variable {ι : Type} [DecidableEq ι] (submitting : Submitting I ι)

def start : TurnWorld I ι := ⟨[], [], fun _ => none, []⟩

def Entered (w : TurnWorld I ι) (turnId : String) : Prop :=
  ∃ command ∈ w.commands, command.turnId = turnId

/-- How the calls are served: the reservations and the channel are as they are, and whatever may
fail is answered in any way. -/
def serves (i : ι) : (call : SubmissionCall I) → TurnWorld I ι → call.Reply → TurnWorld I ι → Prop
  | .insertReservation turnId, w, inserted, w' =>
    (turnId ∉ w.turnReservations ∧ inserted = true ∧ w' = { w with
      turnReservations := turnId :: w.turnReservations
      holds := update w.holds i (some turnId) }) ∨
    (turnId ∈ w.turnReservations ∧ inserted = false ∧
      w' = { w with duplicates := turnId :: w.duplicates })
  | .removeReservation turnId, w, _, w' => w' = { w with
      turnReservations := w.turnReservations.filter (· ≠ turnId)
      holds := update w.holds i none }
  | .send command, w, _, w' => w' = { w with
      commands := w.commands ++ [command]
      holds := update w.holds i none }
  | _, w, _, w' => w' = w

/-- No reservation is withdrawn that a caller was turned away with. -/
def Timely : SubmissionCall I → TurnWorld I ι → Prop
  | .removeReservation turnId, w => turnId ∉ w.duplicates
  | _, _ => True

def starts (i : ι) (_ : TurnWorld I ι)
    (p : Proc (SubmissionCall I) SubmissionCall.Reply (Except Abandoned Bool)) : Prop :=
  p = (submitTurn submitting.policy (submitting.turns i)).run

abbrev Reaches (pool : Pool ι (SubmissionCall I) SubmissionCall.Reply (Except Abandoned Bool)
    (TurnWorld I ι)) : Prop :=
  Pool.Reachable submitting.starts serves (fun w w' => w' = w) start pool

/-- The pools that runs lead to in which no reservation is withdrawn that turned a caller away. -/
abbrev ReachesTimely (pool : Pool ι (SubmissionCall I) SubmissionCall.Reply (Except Abandoned Bool)
    (TurnWorld I ι)) : Prop :=
  Pool.Reachable submitting.starts (fun i call w r w' => serves i call w r w' ∧ Timely call w)
    (fun w w' => w' = w) start pool

/-! ### What a caller asks -/

variable {submitting} {i : ι} {w w' w'' : TurnWorld I ι}

/-- What the other callers leave a caller. -/
structure Rely (i : ι) (w w' : TurnWorld I ι) : Prop where
  holds : w'.holds i = w.holds i
  duplicates : ∀ turnId ∈ w.duplicates, turnId ∈ w'.duplicates
  entered : ∀ turnId, Entered w turnId → Entered w' turnId

section
omit [DecidableEq ι]

theorem Rely.refl (i : ι) (w : TurnWorld I ι) : Rely i w w := ⟨rfl, fun _ h => h, fun _ h => h⟩

theorem Rely.trans (h : Rely i w w') (h' : Rely i w' w'') : Rely i w w'' :=
  ⟨h'.holds.trans h.holds, fun t ht => h'.duplicates t (h.duplicates t ht),
    fun t ht => h'.entered t (h.entered t ht)⟩

end

/-- What a caller may ask: an id that it does not hold one besides, and then what it holds. -/
def asks (submitting : Submitting I ι) (i : ι) : SubmissionCall I → TurnWorld I ι → Prop
  | .insertReservation turnId, w => w.holds i = none ∧ turnId = (submitting.turns i).turnId
  | .removeReservation turnId, w => w.holds i = some turnId
  | .send command, w => w.holds i = some command.turnId
  | _, _ => True

/-- What a caller ends with: it holds nothing, and its turn is where it hears that it is. -/
def ends (submitting : Submitting I ι) (i : ι) (result : Except Abandoned Bool) (w : TurnWorld I ι) :
    Prop :=
  w.holds i = none ∧
    (result = .ok false → (submitting.turns i).turnId ∈ w.duplicates) ∧
    (result = .ok true → Entered w (submitting.turns i).turnId)

/-- What a program of a caller does. -/
abbrev Settles {α : Type} (submitting : Submitting I ι) (i : ι) (A : α → TurnWorld I ι → Prop)
    (B : Abandoned → TurnWorld I ι → Prop) (p : SubmissionM I α) (w : TurnWorld I ι) : Prop :=
  Proc.Settles (Rely i) (submitting.asks i) (serves i) A B p w

/-- The caller holds its turn's id. -/
def Holding (submitting : Submitting I ι) (i : ι) (w : TurnWorld I ι) : Prop :=
  w.holds i = some (submitting.turns i).turnId

omit [DecidableEq ι] in
theorem Holding.rely (h : submitting.Holding i w) (hrely : Rely i w w') : submitting.Holding i w' :=
  hrely.holds.trans h

/-- The calls that leave the thread alone. -/
def Aside : SubmissionCall I → Prop
  | .insertReservation _ => False
  | .removeReservation _ => False
  | .send _              => False
  | _                    => True

theorem Aside.serves {call : SubmissionCall I} (h : Aside call) {r : call.Reply}
    (hserves : Submitting.serves i call w r w') : w' = w := by
  cases call <;> first | exact h.elim | exact hserves

omit [DecidableEq ι] in
theorem Aside.quiet {call : SubmissionCall I} (h : Aside call) (w : TurnWorld I ι) :
    submitting.asks i call w := by
  cases call <;> first | exact h.elim | exact trivial

theorem settles_aside {α : Type} {P : TurnWorld I ι → Prop} (hP : ∀ w w', P w → Rely i w w' → P w')
    {p : SubmissionM I α} (h : Makes Aside p) (hw : P w) :
    submitting.Settles i (fun _ => P) (fun _ => P) p w := by
  have hsettles : submitting.Settles i (fun _ => Rely i w) (fun _ => Rely i w) p w := by
    refine Makes.settles (fun _ _ _ => Rely.trans) (fun call hcall w => ?_) h w
    exact ⟨Aside.quiet hcall w, fun r w' hr => Aside.serves hcall hr ▸ Rely.refl i w⟩
  exact hsettles.imp (fun _ w' => hP w w' hw) fun _ w' => hP w w' hw

theorem makes_orDropped {α : Type} {answer : Awaited α} :
    Makes Aside (orDropped answer : SubmissionM I α) := by
  cases answer with
  | ready a => exact .pure
  | dropped => exact .throw

theorem makes_limitedInput {policy : RuntimeExecutionPolicy} :
    Makes Aside (limitedInput policy turn) := by
  unfold limitedInput
  split
  · refine .bind (.await trivial) fun configured => ?_
    split
    · refine .bind (.await trivial) fun acquired => ?_
      split
      · exact .pure
      · exact .bind (.await trivial) fun _ => .bind (.await trivial) fun _ => .throw
      · exact .throw
    · exact .throw
  · exact .pure

theorem makes_reserveCommand : Makes Aside (reserveCommand turn) := by
  refine .bind (.await trivial) fun _ => .bind makes_orDropped fun permit => ?_
  split
  · exact .pure
  · exact .throw

theorem makes_recordAdmission : Makes Aside (recordAdmission turn) := by
  unfold recordAdmission
  split
  · refine .bind (.await trivial) fun _ => .bind makes_orDropped fun appended => ?_
    split
    · exact .pure
    · exact .throw
  · exact .pure

theorem makes_registerWatchdog {policy : RuntimeExecutionPolicy} :
    Makes Aside (registerWatchdog policy : SubmissionM I (Option Nat)) := by
  unfold registerWatchdog
  split
  · exact .bind (.await trivial) fun _ => .pure
  · exact .pure

/-! ### What a caller comes to -/

/-- The caller holds nothing. -/
def Free (i : ι) (w : TurnWorld I ι) : Prop := w.holds i = none

omit [DecidableEq ι] in
theorem Free.rely (h : Free i w) (hrely : Rely i w w') : Free i w' := hrely.holds.trans h

/-- What is reserved: the caller holds it and may send it, or it is a duplicate. -/
inductive Reserved (submitting : Submitting I ι) (i : ι) (reserved : ReservedTurnSubmission I)
    (w : TurnWorld I ι) : Prop
  | fresh (input : TurnInput I) (hholds : submitting.Holding i w)
      (hreservation : reserved.reservation = some (submitting.turns i).turnId)
      (hpermit : reserved.commandPermit = true) (hinput : reserved.input = some input)
      (hturn : reserved.turnId = (submitting.turns i).turnId)
  | duplicate (hfree : Free i w) (hreservation : reserved.reservation = none)
      (hpermit : reserved.commandPermit = false)
      (hturn : (submitting.turns i).turnId ∈ w.duplicates)

omit [DecidableEq ι] in
theorem Reserved.rely (h : submitting.Reserved i reserved w) (hrely : Rely i w w') :
    submitting.Reserved i reserved w' := by
  cases h with
  | fresh input hholds hreservation hpermit hinput hturn =>
    exact .fresh input (hholds.rely hrely) hreservation hpermit hinput hturn
  | duplicate hfree hreservation hpermit hturn =>
    exact .duplicate (hfree.rely hrely) hreservation hpermit (hrely.duplicates _ hturn)

theorem settles_bind {α β : Type} {A : α → TurnWorld I ι → Prop} {C : β → TurnWorld I ι → Prop}
    {B : Abandoned → TurnWorld I ι → Prop} (hB : ∀ e w w', B e w → Rely i w w' → B e w')
    {p : SubmissionM I α} {f : α → SubmissionM I β} (h : submitting.Settles i A B p w)
    (hf : ∀ a w', A a w' → submitting.Settles i C B (f a) w') :
    submitting.Settles i C B (p >>= f) w :=
  Proc.Settles.bind (Rely.refl i) hB (h.imp hf fun _ _ he => he)

/-- **What a held id gets through** it holds at the end, and where it does not get through, too. -/
theorem settles_passAdmission (hw : submitting.Holding i w) :
    submitting.Settles i (submitting.Reserved i) (fun _ => submitting.Holding i)
      (passAdmission submitting.policy (submitting.turns i)) w := by
  have hkeeps : ∀ w w' : TurnWorld I ι, submitting.Holding i w → Rely i w w' →
      submitting.Holding i w' := fun _ _ h => h.rely
  have hheld := fun (_ : Abandoned) => hkeeps
  refine settles_bind hheld (settles_aside hkeeps makes_limitedInput hw) fun input w₁ h₁ => ?_
  refine settles_bind hheld (settles_aside hkeeps makes_reserveCommand h₁) fun _ w₂ h₂ => ?_
  refine settles_bind hheld (settles_aside hkeeps makes_recordAdmission h₂) fun _ w₃ h₃ => ?_
  refine settles_bind hheld (settles_aside hkeeps makes_registerWatchdog h₃) fun watchdog w₄ h₄ => ?_
  exact .pure fun w' hw' => .fresh _ (h₄.rely hw') rfl rfl rfl rfl

theorem settles_removeReservation (hw : submitting.Holding i w) :
    submitting.Settles i (fun _ => Free i) (fun _ => Free i)
      (ask (.removeReservation (submitting.turns i).turnId)) w := by
  intro w' hw'
  refine ⟨hw.rely hw', ?_⟩
  rintro _ _ rfl w₁ hw₁
  have hfree : Free i { w' with
      turnReservations := w'.turnReservations.filter (· ≠ (submitting.turns i).turnId)
      holds := update w'.holds i none } := update_self ..
  exact hfree.rely hw₁

/-- **A reservation is held with its permit, or is a duplicate's.** -/
theorem settles_reserve (hw : Free i w) :
    submitting.Settles i (submitting.Reserved i) (fun _ => Free i)
      (reserveTurnSubmissionAtChokePoint submitting.policy (submitting.turns i)) w := by
  have hkeeps : ∀ (e : Abandoned) (w w' : TurnWorld I ι), Free i w → Rely i w w' → Free i w' :=
    fun _ _ _ h => h.rely
  refine .await fun w₁ hw₁ => ⟨trivial, ?_⟩
  rintro answer _ rfl
  cases answer with
  | dropped => exact .throw fun w' hw' => (hw.rely hw₁).rely hw'
  | ready found =>
    cases found with
    | error e => exact .throw fun w' hw' => (hw.rely hw₁).rely hw'
    | ok _ =>
      refine .await fun w₂ hw₂ => ⟨⟨(hw.rely hw₁).rely hw₂, rfl⟩, ?_⟩
      rintro inserted w₃ (⟨-, rfl, rfl⟩ | ⟨-, rfl, rfl⟩)
      · have hheld : submitting.Holding i { w₂ with
            turnReservations := (submitting.turns i).turnId :: w₂.turnReservations
            holds := update w₂.holds i (some (submitting.turns i).turnId) } :=
          update_self ..
        refine .guarding (Rely.refl i) hkeeps (fun _ _ _ h => h.rely) ?_
        refine (settles_passAdmission hheld).imp (fun _ _ h => h) fun e w' h => ?_
        exact settles_removeReservation h
      · have hfree : Free i { w₂ with
            duplicates := (submitting.turns i).turnId :: w₂.duplicates } :=
          show Free i w₂ from (hw.rely hw₁).rely hw₂
        exact .pure fun w' hw' => .duplicate (hfree.rely hw') rfl rfl
          (hw'.duplicates _ List.mem_cons_self)

/-- What was submitted or was a duplicate, and nothing is held. -/
def Ended (submitting : Submitting I ι) (i : ι) (entered : Bool) (w : TurnWorld I ι) : Prop :=
  submitting.ends i (.ok entered) w

section
omit [DecidableEq ι]

theorem ends_of_free (h : Free i w) (e : Abandoned) : submitting.ends i (.error e) w :=
  ⟨h, nofun, nofun⟩

theorem Ended.rely {entered : Bool} (h : submitting.Ended i entered w) (hrely : Rely i w w') :
    submitting.Ended i entered w' :=
  ⟨Free.rely h.1 hrely, fun he => hrely.duplicates _ (h.2.1 he), fun he => hrely.entered _ (h.2.2 he)⟩

end

theorem makes_spawnWatchdog {watchdog : Option Nat} :
    Makes Aside (spawnWatchdog watchdog : SubmissionM I Unit) := by
  cases watchdog with
  | none => exact .pure
  | some watchdog => exact .await trivial

theorem makes_publish : Makes Aside (publish reserved) :=
  .bind makes_spawnWatchdog fun _ => .bind (.await trivial) fun _ => makes_orDropped

theorem settles_publish (hw : submitting.Ended i true w) :
    submitting.Settles i (fun _ => submitting.Ended i true) (fun _ => Free i) (publish reserved) w :=
  (settles_aside (fun _ _ h => h.rely) makes_publish hw).imp (fun _ _ h => h) fun _ _ h => h.1

theorem settles_submitUnchecked (hw : submitting.Reserved i reserved w) :
    submitting.Settles i (submitting.Ended i) (fun _ => Free i) (submitUnchecked reserved) w := by
  have hkeeps : ∀ (e : Abandoned) (w w' : TurnWorld I ι), Free i w → Rely i w w' → Free i w' :=
    fun _ _ _ h => h.rely
  cases hw with
  | duplicate hfree hreservation hpermit hturn =>
    rw [submitUnchecked, hpermit]
    refine .pure fun w' hw' => ⟨hfree.rely hw', fun _ => hw'.duplicates _ hturn, nofun⟩
  | fresh input hholds hreservation hpermit hinput hturn =>
    rw [submitUnchecked, hpermit, hinput, hturn]
    refine .await fun w₁ hw₁ => ⟨hholds.rely hw₁, ?_⟩
    rintro _ w₂ rfl
    have hended : submitting.Ended i true { w₁ with
        commands := w₁.commands ++ [⟨(submitting.turns i).turnId, input, reserved.mode⟩]
        holds := update w₁.holds i none } :=
      ⟨update_self .., nofun, fun _ =>
        ⟨_, List.mem_append_right _ (List.mem_singleton_self _), rfl⟩⟩
    exact settles_bind (fun _ _ _ h => h.rely) (settles_publish hended) fun _ w₂ h₂ =>
      .pure fun w' hw' => h₂.rely hw'

theorem settles_dropReserved (hw : submitting.Reserved i reserved w) :
    submitting.Settles i (fun _ => Free i) (fun _ => Free i) (dropReserved reserved) w := by
  cases hw with
  | duplicate hfree hreservation hpermit hturn =>
    rw [dropReserved, hreservation]
    exact .pure fun w' hw' => hfree.rely hw'
  | fresh input hholds hreservation hpermit hinput hturn =>
    rw [dropReserved, hreservation]
    exact settles_removeReservation hholds

/-- **A caller ends with nothing held**, its turn submitted or known to be a duplicate if it is told
so. -/
theorem settles_submitTurn (hw : Free i w) :
    (submitTurn submitting.policy (submitting.turns i)).run.Meets (Rely i) (submitting.asks i)
      (serves i) (submitting.ends i) w := by
  have hsettles : submitting.Settles i (submitting.Ended i) (fun _ => Free i)
      (submitTurn submitting.policy (submitting.turns i)) w := by
    refine settles_bind (fun _ _ _ h => h.rely) (settles_reserve hw) fun reserved w₁ h₁ => ?_
    refine .await fun w₂ hw₂ => ⟨trivial, ?_⟩
    rintro goesOn _ rfl
    cases goesOn with
    | true => exact settles_submitUnchecked (h₁.rely hw₂)
    | false =>
      refine settles_bind (fun _ _ _ h => h.rely) (settles_dropReserved (h₁.rely hw₂)) ?_
      exact fun _ w₃ h₃ => .throw fun w' hw' => h₃.rely hw'
  refine Proc.Meets.imp (fun result w' h => ?_) hsettles
  cases result with
  | ok entered => exact h
  | error e => exact ends_of_free h e

/-! ### Runs -/

/-- The reservations are the ids that callers hold and the ids that entered, each in one place. -/
structure Consistent (w : TurnWorld I ι) : Prop where
  reserved : ∀ turnId, turnId ∈ w.turnReservations ↔
    (∃ i, w.holds i = some turnId) ∨ Entered w turnId
  alone : ∀ i j turnId, w.holds i = some turnId → w.holds j = some turnId → i = j
  fresh : ∀ i turnId, w.holds i = some turnId → ¬ Entered w turnId
  once : (w.commands.map (·.turnId)).Nodup

omit [DecidableEq ι] in
theorem consistent_start : Consistent (start : TurnWorld I ι) where
  reserved turnId := by simp [start, Entered]
  alone i j turnId h := nomatch h
  fresh i turnId h := nomatch h
  once := List.nodup_nil

theorem Consistent.insert (h : Consistent w) (hw : Free i w) (hnew : turnId ∉ w.turnReservations) :
    Consistent { w with
      turnReservations := turnId :: w.turnReservations
      holds := update w.holds i (some turnId) } where
  reserved other := by
    rw [List.mem_cons, h.reserved]
    constructor
    · rintro (rfl | ⟨j, hj⟩ | hentered)
      · exact .inl ⟨i, update_self ..⟩
      · have hji : j ≠ i := by
          rintro rfl
          cases hw.symm.trans hj
        exact .inl ⟨j, (update_of_ne hji ..).trans hj⟩
      · exact .inr hentered
    · rintro (⟨j, hj⟩ | hentered)
      · rcases update_eq_some hj with ⟨-, hheld⟩ | ⟨-, hother⟩
        · exact .inl (Option.some.inj hheld).symm
        · exact .inr (.inl ⟨j, hother⟩)
      · exact .inr (.inr hentered)
  alone j k other hj hk := by
    have hheld : ∀ j, w.holds j ≠ some turnId := fun j hj =>
      hnew ((h.reserved turnId).mpr (.inl ⟨j, hj⟩))
    rcases update_eq_some hj with ⟨hji, ho⟩ | ⟨-, hother⟩
    · obtain rfl := Option.some.inj ho
      rcases update_eq_some hk with ⟨hki, -⟩ | ⟨-, hother'⟩
      · exact hji.trans hki.symm
      · exact (hheld k hother').elim
    · rcases update_eq_some hk with ⟨-, ho⟩ | ⟨-, hother'⟩
      · obtain rfl := Option.some.inj ho
        exact (hheld j hother).elim
      · exact h.alone j k other hother hother'
  fresh j other hj hentered := by
    rcases update_eq_some hj with ⟨-, ho⟩ | ⟨-, hother⟩
    · obtain rfl := Option.some.inj ho
      exact hnew ((h.reserved turnId).mpr (.inr hentered))
    · exact h.fresh j other hother hentered
  once := h.once

theorem Consistent.remove (h : Consistent w) (hw : w.holds i = some turnId) :
    Consistent { w with
      turnReservations := w.turnReservations.filter (· ≠ turnId)
      holds := update w.holds i none } where
  reserved other := by
    rw [List.mem_filter, h.reserved, decide_eq_true_iff]
    constructor
    · rintro ⟨⟨j, hj⟩ | hentered, hother⟩
      · have hji : j ≠ i := by
          rintro rfl
          exact hother (Option.some.inj (hj.symm.trans hw))
        exact .inl ⟨j, (update_of_ne hji ..).trans hj⟩
      · exact .inr hentered
    · rintro (⟨j, hj⟩ | hentered)
      · rcases update_eq_some hj with ⟨-, ⟨⟩⟩ | ⟨hji, hother⟩
        refine ⟨.inl ⟨j, hother⟩, ?_⟩
        rintro rfl
        exact hji (h.alone j i other hother hw)
      · refine ⟨.inr hentered, ?_⟩
        rintro rfl
        exact h.fresh i other hw hentered
  alone j k other hj hk := by
    rcases update_eq_some hj with ⟨-, ⟨⟩⟩ | ⟨-, hother⟩
    rcases update_eq_some hk with ⟨-, ⟨⟩⟩ | ⟨-, hother'⟩
    exact h.alone j k other hother hother'
  fresh j other hj := by
    rcases update_eq_some hj with ⟨-, ⟨⟩⟩ | ⟨-, hother⟩
    exact h.fresh j other hother
  once := h.once

omit [DecidableEq ι] in
theorem entered_snoc {command : Submit I} {holds : ι → Option String} :
    Entered { w with commands := w.commands ++ [command], holds := holds } turnId ↔
      Entered w turnId ∨ command.turnId = turnId := by
  simp [Entered, or_and_right, exists_or]

theorem Consistent.send {command : Submit I} (h : Consistent w)
    (hw : w.holds i = some command.turnId) : Consistent { w with
      commands := w.commands ++ [command]
      holds := update w.holds i none } where
  reserved other := by
    rw [h.reserved, entered_snoc]
    constructor
    · rintro (⟨j, hj⟩ | hentered)
      · by_cases hji : j = i
        · exact .inr (.inr (Option.some.inj (hw.symm.trans (hji ▸ hj))))
        · exact .inl ⟨j, (update_of_ne hji ..).trans hj⟩
      · exact .inr (.inl hentered)
    · rintro (⟨j, hj⟩ | hentered | rfl)
      · rcases update_eq_some hj with ⟨-, ⟨⟩⟩ | ⟨-, hother⟩
        exact .inl ⟨j, hother⟩
      · exact .inr hentered
      · exact .inl ⟨i, hw⟩
  alone j k other hj hk := by
    rcases update_eq_some hj with ⟨-, ⟨⟩⟩ | ⟨-, hother⟩
    rcases update_eq_some hk with ⟨-, ⟨⟩⟩ | ⟨-, hother'⟩
    exact h.alone j k other hother hother'
  fresh j other hj := by
    rcases update_eq_some hj with ⟨-, ⟨⟩⟩ | ⟨hji, hother⟩
    rw [entered_snoc]
    rintro (hentered | rfl)
    · exact h.fresh j other hother hentered
    · exact hji (h.alone j i _ hother hw)
  once := by
    rw [List.map_append, List.nodup_append]
    refine ⟨h.once, List.nodup_singleton _, fun turnId hmem other hother => ?_⟩
    obtain rfl := List.mem_singleton.mp hother
    rintro rfl
    obtain ⟨entered, hentered, hsame⟩ := List.mem_map.mp hmem
    exact h.fresh i _ hw ⟨entered, hentered, hsame⟩

/-- A caller holds no id but its turn's. -/
def Owned (submitting : Submitting I ι) (w : TurnWorld I ι) : Prop :=
  ∀ i turnId, w.holds i = some turnId → turnId = (submitting.turns i).turnId

theorem Owned.update {held : Option String} {reservations duplicates : List String}
    {commands : List (Submit I)} (h : submitting.Owned w)
    (hheld : ∀ turnId, held = some turnId → turnId = (submitting.turns i).turnId) :
    submitting.Owned ⟨reservations, commands, update w.holds i held, duplicates⟩ := by
  intro j turnId hj
  rcases update_eq_some hj with ⟨rfl, ho⟩ | ⟨-, hj⟩
  · exact hheld turnId ho
  · exact h j turnId hj

theorem rely_of_serves {call : SubmissionCall I} {r : call.Reply} (h : serves i call w r w') {j : ι}
    (hj : j ≠ i) : Rely j w w' := by
  cases call with
  | insertReservation turnId =>
    rcases h with ⟨-, -, rfl⟩ | ⟨-, -, rfl⟩
    · exact ⟨update_of_ne hj .., fun _ h => h, fun _ h => h⟩
    · exact ⟨rfl, fun _ h => List.mem_cons_of_mem _ h, fun _ h => h⟩
  | removeReservation turnId =>
    obtain rfl := h
    exact ⟨update_of_ne hj .., fun _ h => h, fun _ h => h⟩
  | send command =>
    obtain rfl := h
    exact ⟨update_of_ne hj .., fun _ h => h, fun _ h => entered_snoc.mpr (.inl h)⟩
  | _ =>
    obtain rfl := h
    exact Rely.refl j _

/-- What is true of the thread in every run. -/
structure Tidy (submitting : Submitting I ι) (w : TurnWorld I ι) : Prop where
  consistent : Consistent w
  owned : submitting.Owned w

/-- **A call keeps the thread tidy.** -/
theorem Tidy.call (h : submitting.Tidy w) {call : SubmissionCall I} {r : call.Reply}
    (hasks : submitting.asks i call w) (hserves : serves i call w r w') : submitting.Tidy w' := by
  cases call with
  | insertReservation turnId =>
    rcases hserves with ⟨hnew, -, rfl⟩ | ⟨-, -, rfl⟩
    · refine ⟨h.consistent.insert hasks.1 hnew, h.owned.update fun other ho => ?_⟩
      exact (Option.some.inj ho).symm.trans hasks.2
    · exact ⟨⟨h.consistent.reserved, h.consistent.alone, h.consistent.fresh, h.consistent.once⟩,
        h.owned⟩
  | removeReservation turnId =>
    obtain rfl := hserves
    exact ⟨h.consistent.remove hasks, h.owned.update nofun⟩
  | send command =>
    obtain rfl := hserves
    exact ⟨h.consistent.send hasks, h.owned.update nofun⟩
  | _ =>
    obtain rfl := hserves
    exact h

/-- Every caller that was turned away was turned away by a reservation that stands. -/
def Acknowledged (w : TurnWorld I ι) : Prop :=
  ∀ turnId ∈ w.duplicates, turnId ∈ w.turnReservations

/-- **A call that withdraws no such reservation keeps them standing.** -/
theorem Acknowledged.call (h : Acknowledged w) {call : SubmissionCall I} {r : call.Reply}
    (hserves : serves i call w r w') (htimely : Timely call w) : Acknowledged w' := by
  cases call with
  | insertReservation turnId =>
    rcases hserves with ⟨-, -, rfl⟩ | ⟨hthere, -, rfl⟩
    · exact fun other hother => List.mem_cons_of_mem _ (h other hother)
    · exact List.forall_mem_cons.mpr ⟨hthere, h⟩
  | removeReservation turnId =>
    obtain rfl := hserves
    intro other hother
    refine List.mem_filter.mpr ⟨h other hother, decide_eq_true ?_⟩
    rintro rfl
    exact htimely hother
  | send command =>
    obtain rfl := hserves
    exact h
  | _ =>
    obtain rfl := hserves
    exact h

/-- The ways of the callers, on a thread that is good as it should be. -/
def ways (submitting : Submitting I ι) (good : TurnWorld I ι → Prop) :
    Pool.Ways ι (SubmissionCall I) SubmissionCall.Reply (Except Abandoned Bool) (TurnWorld I ι) where
  good := good
  waits := Free
  rely := Rely
  asks := submitting.asks
  answers := serves
  ends := submitting.ends

theorem sound {good : TurnWorld I ι → Prop} {admits : SubmissionCall I → TurnWorld I ι → Prop}
    (hcall : ∀ i call w r w', good w → submitting.asks i call w → serves i call w r w' →
      admits call w → good w') :
    (submitting.ways good).Sound submitting.starts
      (fun i call w r w' => serves i call w r w' ∧ admits call w) fun w w' => w' = w where
  refl i w _ := Rely.refl i w
  trans _ _ _ _ := Rely.trans
  waits _ _ _ hrely h := Free.rely h hrely
  start _ _ _ _ hw hp := hp ▸ settles_submitTurn hw
  call i call w r w' hgood hasks hserves :=
    ⟨hcall i call w r w' hgood hasks hserves.1 hserves.2, hserves.1,
      fun _ hj => rely_of_serves hserves.1 hj⟩
  other w _ hgood h := ⟨h ▸ hgood, fun j => h ▸ Rely.refl j w⟩

abbrev Callers (I ι : Type) :=
  Pool ι (SubmissionCall I) SubmissionCall.Reply (Except Abandoned Bool) (TurnWorld I ι)

variable {pool : Callers I ι}

omit [DecidableEq ι] in
theorem tidy_start : submitting.Tidy start := ⟨consistent_start, nofun⟩

theorem kept_of_reaches (h : submitting.Reaches pool) :
    Pool.Kept (submitting.ways submitting.Tidy) pool := by
  have hsound : (submitting.ways submitting.Tidy).Sound submitting.starts
      (fun i call w r w' => serves i call w r w' ∧ True) fun w w' => w' = w :=
    sound fun _ _ _ _ _ hw hasks hserves _ => hw.call hasks hserves
  exact Pool.Reachable.kept hsound tidy_start (fun _ => rfl)
    (h.imp fun _ _ _ _ _ hserves => ⟨hserves, trivial⟩)

theorem kept_of_reachesTimely (h : submitting.ReachesTimely pool) :
    Pool.Kept (submitting.ways fun w => submitting.Tidy w ∧ Acknowledged w) pool := by
  refine Pool.Reachable.kept (sound fun i call w r w' hw hasks hserves htimely => ?_)
    ⟨tidy_start, nofun⟩ (fun _ => rfl) h
  exact ⟨hw.1.call hasks hserves, hw.2.call hserves htimely⟩

/-- The caller holds its turn's id, and has a call to make. -/
def UnderWay (submitting : Submitting I ι) (pool : Callers I ι) (i : ι) : Prop :=
  submitting.Holding i pool.state ∧ ∃ call k, pool.procs i = some (.call call k)

/-- The turn of the id has not entered the channel, and no caller is on its way with it. -/
def InVain (w : TurnWorld I ι) (turnId : String) : Prop :=
  turnId ∈ w.duplicates ∧ ¬ Entered w turnId ∧ ∀ i, w.holds i ≠ some turnId

theorem underWay_of_holds {good : TurnWorld I ι → Prop} (h : Pool.Kept (submitting.ways good) pool)
    (howned : submitting.Owned pool.state) {i : ι} (hi : pool.state.holds i = some turnId) :
    submitting.UnderWay pool i ∧ turnId = (submitting.turns i).turnId := by
  have hid := howned i turnId hi
  refine ⟨⟨hi.trans (congrArg some hid), ?_⟩, hid⟩
  cases hproc : pool.procs i with
  | none =>
    have hfree : Free i pool.state := h.waits i hproc
    cases hfree.symm.trans hi
  | some p =>
    cases p with
    | call call k => exact ⟨call, k, rfl⟩
    | done result =>
      have hends : submitting.ends i result pool.state :=
        h.keeps i _ hproc pool.state (Rely.refl i _)
      cases hends.1.symm.trans hi

/-- **A turn id is submitted once**, and, where no reservation is withdrawn that turned a caller
away, an id that was answered as a duplicate has entered the channel or a caller that holds it is
under way.  The withdrawal of one that did leaves its id acknowledged in vain, and of no other. -/
theorem turn_submitted_once (submitting : Submitting I ι) :
    (∀ pool : Callers I ι, submitting.Reaches pool →
      (pool.state.commands.map (·.turnId)).Nodup ∧
      (∀ i, pool.procs i = some (.done (.ok true)) →
        Entered pool.state (submitting.turns i).turnId) ∧
      (∀ i, pool.procs i = some (.done (.ok false)) →
        (submitting.turns i).turnId ∈ pool.state.duplicates)) ∧
    (∀ pool : Callers I ι, submitting.ReachesTimely pool → ∀ turnId ∈ pool.state.duplicates,
      Entered pool.state turnId ∨
        ∃ i, submitting.UnderWay pool i ∧ (submitting.turns i).turnId = turnId) ∧
    ∀ pool : Callers I ι, submitting.Reaches pool → ∀ i turnId k,
      pool.procs i = some (.call (.removeReservation turnId) k) → ∀ r w',
        serves i (.removeReservation turnId) pool.state r w' →
          (InVain w' turnId ↔ turnId ∈ pool.state.duplicates) := by
  refine ⟨fun pool h => ?_, fun pool h turnId hturnId => ?_, ?_⟩
  · have hkept := kept_of_reaches h
    have hends : ∀ i result, pool.procs i = some (.done result) →
        submitting.ends i result pool.state :=
      fun i result hproc => hkept.keeps i _ hproc pool.state (Rely.refl i _)
    exact ⟨hkept.good.consistent.once, fun i hproc => (hends i _ hproc).2.2 rfl,
      fun i hproc => (hends i _ hproc).2.1 rfl⟩
  · have hkept := kept_of_reachesTimely h
    rcases (hkept.good.1.consistent.reserved turnId).mp (hkept.good.2 turnId hturnId) with
      ⟨i, hi⟩ | hentered
    · obtain ⟨hunder, hid⟩ := underWay_of_holds hkept hkept.good.1.owned hi
      exact .inr ⟨i, hunder, hid.symm⟩
    · exact .inl hentered
  · rintro pool h i turnId k hproc r w' rfl
    have hkept := kept_of_reaches h
    have hheld : pool.state.holds i = some turnId :=
      (hkept.keeps i _ hproc pool.state (Rely.refl i _)).1
    refine ⟨fun hvain => hvain.1, fun hduplicate => ⟨hduplicate, ?_, fun j hj => ?_⟩⟩
    · exact hkept.good.consistent.fresh i turnId hheld
    · rcases update_eq_some hj with ⟨-, ⟨⟩⟩ | ⟨hji, hj⟩
      exact hji (hkept.good.consistent.alone j i turnId hj hheld)

/-! ### Two callers of one turn -/

/-- Two callers with one turn, to a thread without limits. -/
def sampleSubmitting : Submitting Unit (Fin 2) where
  policy := ⟨none, none⟩
  turns _ := ⟨⟨⟨BitVec.ofNat 128 1⟩⟩, "turn-1", ⟨(), false, none⟩, .queue,
    some ⟨"surface:host-submit", "hash", .queue, some [.queue], [], "policy", "surface_admission/v1"⟩⟩

/-- How the calls of the sample are served: nothing fails but, if it is to, the admission record. -/
def sampleServe (recorded : VerletResult Unit) (i : Fin 2) :
    (call : SubmissionCall Unit) → TurnWorld Unit (Fin 2) → call.Reply × TurnWorld Unit (Fin 2)
  | .getThread _, w => (.ready (.ok ()), w)
  | .insertReservation turnId, w =>
    if turnId ∈ w.turnReservations then
      (false, { w with duplicates := turnId :: w.duplicates })
    else
      (true, { w with
        turnReservations := turnId :: w.turnReservations
        holds := update w.holds i (some turnId) })
  | .removeReservation turnId, w => ((), { w with
      turnReservations := w.turnReservations.filter (· ≠ turnId)
      holds := update w.holds i none })
  | .hasPendingInputSlots, w => (true, w)
  | .tryAcquirePendingInput, w => (.ok (), w)
  | .availablePermits, w => ((0 : Nat), w)
  | .emitPolicyRejected _ _, w => ((), w)
  | .reserveCommand, w => (.ready (.ok ()), w)
  | .appendAdmissionDecided _, w => (.ready recorded, w)
  | .registerTurnWatchdog, w => ((0 : Nat), w)
  | .goesOn, w => (true, w)
  | .send command, w => ((), { w with
      commands := w.commands ++ [command]
      holds := update w.holds i none })
  | .spawnTurnTimeoutWatchdog _, w => ((), w)
  | .recordSignal _ _, w => (.ready (), w)

theorem serves_sampleServe (recorded : VerletResult Unit) (i : Fin 2) (call : SubmissionCall Unit)
    (w : TurnWorld Unit (Fin 2)) :
    serves i call w (sampleServe recorded i call w).1 (sampleServe recorded i call w).2 := by
  cases call with
  | insertReservation turnId =>
    by_cases h : turnId ∈ w.turnReservations
    · simp only [sampleServe, if_pos h]
      exact .inr ⟨h, rfl, rfl⟩
    · simp only [sampleServe, if_neg h]
      exact .inl ⟨h, rfl, rfl⟩
  | _ => rfl

/-- The two callers, taken up. -/
def sampleCallers : Callers Unit (Fin 2) :=
  ((Pool.idle start).set 0 (submitTurn sampleSubmitting.policy (sampleSubmitting.turns 0)).run
    start).set 1 (submitTurn sampleSubmitting.policy (sampleSubmitting.turns 1)).run start

theorem reaches_sampleCallers {served : Fin 2 → (call : SubmissionCall Unit) →
    TurnWorld Unit (Fin 2) → call.Reply → TurnWorld Unit (Fin 2) → Prop} :
    sampleCallers.Reachable sampleSubmitting.starts served (fun w w' => w' = w) start := by
  have h₀ : Pool.Reachable sampleSubmitting.starts served (fun w w' => w' = w) start (.idle start) :=
    .refl
  have h₁ := Pool.Reachable.start (i := 0) h₀ rfl rfl
  exact Pool.Reachable.start (i := 1) h₁ rfl rfl

/-- The first caller gets to its admission record, the second is turned away and ends, and then the
first goes on. -/
def sampleSchedule : List (Fin 2) := [0, 0, 0, 1, 1, 1, 0, 0, 0, 0]

/-- The callers after the schedule. -/
def sampleEnd (recorded : VerletResult Unit) : Callers Unit (Fin 2) :=
  sampleSchedule.foldl (Pool.turn (sampleServe recorded)) sampleCallers

/-- **A duplicate is acknowledged in vain**: the admission record of the first caller fails, and the
second has been told that the turn is submitted.  No call is left to make. -/
theorem duplicate_acknowledged_in_vain : ∃ pool : Callers Unit (Fin 2),
    sampleSubmitting.Reaches pool ∧ pool.procs 1 = some (.done (.ok false)) ∧
      (∃ error, pool.procs 0 = some (.done (.error error))) ∧ pool.state.commands = [] := by
  refine ⟨sampleEnd (.error (.runtimeExecution "append failed")), ?_, rfl, ⟨_, rfl⟩, rfl⟩
  exact Pool.Reachable.turns (fun i call w => serves_sampleServe _ i call w) _ reaches_sampleCallers

def keepsReservations (_ : Fin 2) : SubmissionCall Unit → TurnWorld Unit (Fin 2) → Bool
  | .removeReservation _, _ => false
  | _,                    _ => true

/-- Where the record is appended, the duplicate is acknowledged of a turn that entered. -/
theorem turn_submitted_once_sample : "turn-1" ∈ (sampleEnd (.ok ())).state.duplicates ∧
    (Entered (sampleEnd (.ok ())).state "turn-1" ∨ ∃ i, sampleSubmitting.UnderWay (sampleEnd (.ok ())) i ∧
      (sampleSubmitting.turns i).turnId = "turn-1") := by
  have hreach : sampleSubmitting.ReachesTimely (sampleEnd (.ok ())) := by
    have hmay : sampleCallers.admits (sampleServe (.ok ())) keepsReservations sampleSchedule = true :=
      rfl
    refine Pool.Reachable.turns_of_admits
      (fun i call w hmay => ⟨serves_sampleServe _ i call w, ?_⟩) reaches_sampleCallers hmay
    cases call with
    | removeReservation turnId => cases hmay
    | _ => trivial
  have hduplicate : "turn-1" ∈ (sampleEnd (.ok ())).state.duplicates := List.mem_singleton_self _
  exact ⟨hduplicate, (turn_submitted_once sampleSubmitting).2.1 _ hreach _ hduplicate⟩

end Submitting

end Verlet.Kernel
