import Verlet.Agent.AgentLoop.Verdict

/-!
# Agent — The agent loop — The verdict of a turn — Its programs

A turn goes on while nothing is noted that ends it otherwise: then it has no verdict and no join.  Once
something is noted it is not completed any more, so it may be joined and may fail.  `Pending` says so, and
every program of a turn keeps it; `completeTurn` alone leaves it.

Once `turn.completed` stands and nothing fails, a join can only be refused by a malformed one before it,
and then it is asked for forever (`Blocked`).
-/

namespace Verlet.Agent
open Support Kernel History
open Proc (Makes Settles)
open LoopM

variable {φ : Type} {setup : LoopSetup φ} {runtime : AgentLoop φ} {turn : AgentTurn}
  {start w w' : LoopWorld} {fuel : Nat} {α β σ γ : Type}

/-! ### What may be asked, and answered -/

/-- A store operation or a coupling run fails; a fence in the way is no failure. -/
def LoopCall.Fails : (call : LoopCall) → call.Reply → Prop
  | .readEvents .., .error _             => True
  | .appendEvents .., .error _           => True
  | .appendEventsFenced .., .error error => isFenceConflict error = false
  | .runBoundCouplings _, .error _       => True
  | _, _                                 => False

/-- No store operation and no coupling run fails once `turn.completed` stands. -/
def LoopWorld.servesSteadily (turn : AgentTurn) (call : LoopCall) (w : LoopWorld) (answer : call.Reply)
    (w' : LoopWorld) : Prop :=
  LoopWorld.serves turn call w answer w' ∧ (Completed turn w' → ¬ call.Fails answer)

/-- What a turn may ask: a batch without a mark, or one mark that may be appended. -/
def asksOneVerdict (turn : AgentTurn) (start : LoopWorld) : LoopCall → LoopWorld → Prop
  | .appendEvents _ records, w | .appendEventsFenced _ _ records, w =>
    (∀ record ∈ records, isMarkKind record.kind = false) ∨
      ∃ record, records = [record] ∧ Admits turn start record w
  | _, _ => True

variable {call : LoopCall}

theorem Unmarked.asks (h : Unmarked call) : asksOneVerdict turn start call w := by
  cases call with
  | appendEvents streamId records => exact .inl h
  | appendEventsFenced streamId expected records => exact .inl h
  | _ => exact trivial

/-- **What is asked so leaves one verdict.** -/
theorem oneVerdict_of_serves {answer : call.Reply} (h : OneVerdict turn start w)
    (hgrown : Grown start w) (hasks : asksOneVerdict turn start call w)
    (hserves : LoopWorld.serves turn call w answer w') :
    OneVerdict turn start w' ∧ Grown start w' := by
  by_cases hunmarked : Unmarked call
  · have hquiet := hunmarked.quiet hserves
    exact ⟨h.quiet hgrown hquiet, hgrown.quiet hquiet⟩
  · cases call with
    | appendEvents streamId records =>
      obtain ⟨record, rfl, hadmits⟩ := hasks.resolve_left hunmarked
      rcases hserves with ⟨-, rfl⟩ | ⟨error, -, rfl | rfl⟩
      · exact ⟨oneVerdict_appended h hgrown hadmits, hgrown.appended⟩
      · exact ⟨h, hgrown⟩
      · exact ⟨oneVerdict_appended h hgrown hadmits, hgrown.appended⟩
    | appendEventsFenced streamId expected records =>
      obtain ⟨record, rfl, hadmits⟩ := hasks.resolve_left hunmarked
      rcases hserves with ⟨rfl, -⟩ | ⟨-, rfl, -⟩
      · exact ⟨h, hgrown⟩
      · exact ⟨oneVerdict_appended h hgrown hadmits, hgrown.appended⟩
    | _ => exact absurd trivial hunmarked

/-! ### Settling -/

/-- What a program of the turn comes to, however the others go on quietly. -/
abbrev SettlesSo (turn : AgentTurn) (start : LoopWorld) (A : α → LoopWorld → Prop)
    (B : LoopStop → LoopWorld → Prop) (p : LoopM α) (w : LoopWorld) : Prop :=
  Settles (Quiet turn) (asksOneVerdict turn start) (LoopWorld.servesSteadily turn) A B p w

def Lasting (turn : AgentTurn) (P : LoopWorld → Prop) : Prop := ∀ w w', P w → Quiet turn w w' → P w'

def whatever {δ : Type} : δ → LoopWorld → Prop := fun _ _ => True

variable {A : α → LoopWorld → Prop} {C : β → LoopWorld → Prop} {B : LoopStop → LoopWorld → Prop}
  {P : LoopWorld → Prop}

variable {p : LoopM α}

theorem SettlesSo.mono {A A' : α → LoopWorld → Prop} {B B' : LoopStop → LoopWorld → Prop}
    (h : SettlesSo turn start A B p w) (hA : ∀ a w, A a w → A' a w) (hB : ∀ e w, B e w → B' e w) :
    SettlesSo turn start A' B' p w := Settles.imp hA hB h

theorem settles_quiet (hp : Makes Unmarked p) (hP : Lasting turn P) (h : P w) :
    SettlesSo turn start (fun _ => P) (fun _ => P) p w := by
  have hquiet : ∀ call, Unmarked call → ∀ w, asksOneVerdict turn start call w ∧
      ∀ answer w', LoopWorld.servesSteadily turn call w answer w' → Quiet turn w w' :=
    fun call hcall w => ⟨hcall.asks, fun answer w' hserves => hcall.quiet hserves.1⟩
  exact Settles.imp (fun _ w' hw' => hP w w' h hw') (fun _ w' hw' => hP w w' h hw')
    (Makes.settles (fun _ _ _ h h' => h.trans h') hquiet hp w)

theorem settles_quiet_bind {f : α → LoopM β} (hp : Makes Unmarked p) (hP : Lasting turn P) (h : P w)
    (hB : ∀ e, Lasting turn (B e)) (hfail : ∀ e w', P w' → B e w')
    (hf : ∀ a w', P w' → SettlesSo turn start C B (f a) w') :
    SettlesSo turn start C B (p >>= f) w :=
  Settles.bind Quiet.refl hB ((settles_quiet hp hP h).mono hf hfail)

theorem SettlesSo.andThen {f : α → LoopM β} (h : SettlesSo turn start A whatever p w)
    (hf : ∀ a w', A a w' → SettlesSo turn start C whatever (f a) w') :
    SettlesSo turn start C whatever (p >>= f) w :=
  Settles.bind Quiet.refl (fun _ _ _ _ _ => trivial) (h.mono hf fun _ _ _ => trivial)

theorem settles_return {a : α} (hP : Lasting turn (A a)) (h : A a w) :
    SettlesSo turn start A B (pure a) w :=
  Settles.pure fun w' hw' => hP w w' h hw'

theorem lasting_whatever {δ : Type} (a : δ) : Lasting turn (whatever a) := fun _ _ _ _ => trivial

theorem settles_whatever {a : α} : SettlesSo turn start whatever B (pure a) w :=
  settles_return (lasting_whatever _) trivial

theorem settles_attempt {D : LoopStop → LoopWorld → Prop} {f : LoopResult α → LoopM β}
    (hA : ∀ a, Lasting turn (A a)) (hD : ∀ e, Lasting turn (D e)) (h : SettlesSo turn start A D p w)
    (hok : ∀ a w', A a w' → SettlesSo turn start C whatever (f (.ok a)) w')
    (herr : ∀ e w', D (.failed e) w' → SettlesSo turn start C whatever (f (.error e)) w') :
    SettlesSo turn start C whatever (attempt p >>= f) w := by
  have hattempt : SettlesSo turn start
      (fun result w' => (∀ a, result = .ok a → A a w') ∧ ∀ e, result = .error e → D (.failed e) w')
      whatever (attempt p) w := by
    refine Proc.Meets.bind Quiet.refl h fun result w' hw' => ?_
    rcases result with (e | _) | a
    · exact fun w'' hw'' => ⟨by simp, by rintro _ ⟨⟩; exact hD _ w' w'' hw' hw''⟩
    · exact fun _ _ => trivial
    · exact fun w'' hw'' => ⟨by rintro _ ⟨⟩; exact hA a w' w'' hw' hw'', by simp⟩
  refine hattempt.andThen fun result w' hw' => ?_
  cases result with
  | ok a => exact hok a w' (hw'.1 a rfl)
  | error e => exact herr e w' (hw'.2 e rfl)

theorem settles_ask {f : call.Reply → LoopM β} (hcall : Unmarked call) (hP : Lasting turn P)
    (h : P w)
    (hf : ∀ answer w₁ w₂, P w₁ → P w₂ → LoopWorld.servesSteadily turn call w₁ answer w₂ →
      SettlesSo turn start C B (f answer) w₂) : SettlesSo turn start C B (ask call >>= f) w := by
  refine Settles.await fun w₁ hw₁ => ⟨hcall.asks, fun answer w₂ hserves => ?_⟩
  have h₁ : P w₁ := hP w w₁ h hw₁
  exact hf answer w₁ w₂ h₁ (hP w₁ w₂ h₁ (hcall.quiet hserves.1)) hserves

theorem settles_fail {e : LoopError} (hB : Lasting turn (B (.failed e))) (h : B (.failed e) w) :
    SettlesSo turn start A B (fail e) w :=
  Settles.throw fun w' hw' => hB w w' h hw'

theorem settles_stillRunning (hB : Lasting turn (B .stillRunning)) (h : B .stillRunning w) :
    SettlesSo turn start A B (throw .stillRunning) w :=
  Settles.throw fun w' hw' => hB w w' h hw'

theorem unmarked (h : Makes QuietCall p) : Makes Unmarked p :=
  Proc.Only.imp (fun _ hcall => hcall.1) h

/-! ### While nothing ends the turn -/

/-- The turn is not completed; and unless something is noted that ends it otherwise, it has not failed and
its thread was not joined. -/
structure Pending (turn : AgentTurn) (start : LoopWorld) (noted : Prop) (w : LoopWorld) : Prop where
  uncompleted : ¬ Completed turn w
  grown : Grown start w
  clean : noted ∨ ¬ Failed turn w ∧ joinsSince turn start w = []

variable {noted noted' : Prop} {streamId : EventStreamId} {record : NewEventRecord}

theorem Pending.lasting : Lasting turn (Pending turn start noted) := by
  intro w w' h hquiet
  refine ⟨fun hcompleted => h.uncompleted (.of_quiet hquiet hcompleted), h.grown.quiet hquiet, ?_⟩
  rcases h.clean with hnoted | ⟨hfailed, hjoins⟩
  · exact .inl hnoted
  · exact .inr ⟨fun hfailed' => hfailed (.of_quiet hquiet hfailed'),
      (joinsSince_quiet h.grown hquiet).trans hjoins⟩

theorem Pending.mono (h : Pending turn start noted w) (himp : noted → noted') :
    Pending turn start noted' w := ⟨h.uncompleted, h.grown, h.clean.imp_left himp⟩

theorem Pending.returns {notes : α → Prop} {a : α} (h : Pending turn start (notes a) w) :
    SettlesSo turn start (fun a => Pending turn start (notes a)) B (pure a) w :=
  settles_return Pending.lasting h

theorem Pending.asks {f : call.Reply → LoopM β} (h : Pending turn start noted w)
    (hcall : Unmarked call)
    (hf : ∀ answer w', Pending turn start noted w' → SettlesSo turn start C B (f answer) w') :
    SettlesSo turn start C B (ask call >>= f) w :=
  settles_ask hcall Pending.lasting h fun answer _ w' _ h' _ => hf answer w' h'

/-- A program without a mark leaves a pending turn, or fails so. -/
theorem Pending.keeps {f : α → LoopM β} (h : Pending turn start noted w) (hp : Makes Unmarked p)
    (hf : ∀ a w', Pending turn start noted w' →
      SettlesSo turn start C (fun _ => Pending turn start noted) (f a) w') :
    SettlesSo turn start C (fun _ => Pending turn start noted) (p >>= f) w :=
  settles_quiet_bind hp Pending.lasting h (fun _ => Pending.lasting) (fun _ _ => id) hf

theorem Pending.goesOn {f : α → LoopM β} (h : Pending turn start noted w) (hp : Makes Unmarked p)
    (hf : ∀ a w', Pending turn start noted w' → SettlesSo turn start C whatever (f a) w') :
    SettlesSo turn start C whatever (p >>= f) w :=
  settles_quiet_bind hp Pending.lasting h (fun _ => lasting_whatever _) (fun _ _ _ => trivial) hf

theorem Pending.attempts {f : LoopResult α → LoopM β} (h : Pending turn start noted w)
    (hp : Makes Unmarked p)
    (hok : ∀ a w', Pending turn start noted w' → SettlesSo turn start C whatever (f (.ok a)) w')
    (herr : ∀ e w', Pending turn start noted w' → SettlesSo turn start C whatever (f (.error e)) w') :
    SettlesSo turn start C whatever (attempt p >>= f) w :=
  settles_attempt (fun _ => Pending.lasting) (fun _ => Pending.lasting)
    (settles_quiet hp Pending.lasting h) hok herr

theorem Pending.appended (h : Pending turn start noted w) (hkind : record.kind ≠ .turnCompleted) :
    Pending turn start True (w.appended streamId [record]) := by
  refine ⟨fun hcompleted => ?_, h.grown.appended, .inl trivial⟩
  rcases hcompleted.of_appended with hbefore | hrecord
  · exact h.uncompleted hbefore
  · exact hkind (kind_of_isTurnRecord hrecord)

theorem appended_of_fenced {expected : EventSequence} {records : List NewEventRecord}
    {answer : HistoryResult (List EventRecord)}
    (h : LoopWorld.serves turn (.appendEventsFenced streamId expected records) w answer w') :
    w' = w ∨ w' = w.appended streamId records := by
  rcases h with ⟨rfl, -⟩ | ⟨-, rfl, -⟩
  · exact .inl rfl
  · exact .inr rfl

theorem settles_markFenced {expected : EventSequence} {f : HistoryResult (List EventRecord) → LoopM β}
    (h : Pending turn start True w) (hkind : record.kind ≠ .turnCompleted)
    (hadmits : ∀ w', Pending turn start True w' → Admits turn start record w')
    (hf : ∀ answer w', Pending turn start True w' → SettlesSo turn start C B (f answer) w') :
    SettlesSo turn start C B (ask (.appendEventsFenced streamId expected [record]) >>= f) w := by
  refine Settles.await fun w₁ hw₁ => ?_
  have h₁ : Pending turn start True w₁ := Pending.lasting w w₁ h hw₁
  refine ⟨.inr ⟨record, rfl, hadmits w₁ h₁⟩, fun answer w₂ hserves => ?_⟩
  refine hf answer w₂ ?_
  rcases appended_of_fenced hserves.1 with rfl | rfl
  · exact h₁
  · exact h₁.appended hkind

/-! ### The join of a turn that was not completed -/

theorem reads_threadTerminalState :
    Wire.Reads Wire.threadTerminalState.toValue Wire.threadTerminalState.fromValue := by
  refine ⟨fun state => ?_, fun state => by cases state <;> simp [Wire.threadTerminalState]⟩
  cases state <;> rfl

theorem decode_joined (payload : ThreadJoinedPayload) : Wire.joined.fromValue
    (Wire.object (Wire.joinedFields payload ++
      [("schema", .str EventKind.threadJoined.payloadSchemaId)])) = .ok payload := by
  refine bind_ok.mpr ⟨_, rfl, Wire.reads_threadId.required ?_ <|
    Wire.reads_eventId.required ?_ <| reads_threadTerminalState.required ?_ <|
    Wire.reads_text.option ?_ rfl⟩
  all_goals simp [Wire.get?_object, Wire.joinedFields]

theorem joinState_threadJoinedRecord (join : ThreadJoin) (draw : Draw) :
    joinState (recordEvent (threadJoinedRecord join draw)) = some join.terminalState := by
  have hdecode : Wire.joined.fromValue (recordEvent (threadJoinedRecord join draw)).payload =
      .ok ⟨join.child.threadId, join.spawnedEventId, join.terminalState, join.resultDigest⟩ :=
    decode_joined _
  rw [joinState, hdecode]
  rfl

variable {join : ThreadJoin} {draw : Draw} {state : ThreadTerminalState}

theorem admits_join (h : join.terminalState = .completed ↔ Completed turn w) :
    Admits turn start (threadJoinedRecord join draw) w where
  completed hrecord := nomatch kind_of_isTurnRecord hrecord
  failed hrecord := nomatch kind_of_isTurnRecord hrecord
  joined _ := by rw [joinState_threadJoinedRecord, Option.some_inj]; exact h

theorem settles_joinedFirstWins (hstate : join.terminalState ≠ .completed)
    (h : Pending turn start True w) :
    SettlesSo turn start (fun _ => Pending turn start True) (fun _ => Pending turn start True)
      (appendThreadJoinedFirstWins join draw fuel) w := by
  induction fuel generalizing w with
  | zero => exact settles_stillRunning Pending.lasting h
  | succ fuel ih =>
    refine h.keeps (unmarked makes_readLoopEvents) fun events w₁ h₁ => ?_
    refine h₁.keeps makes_given fun found w₂ h₂ => ?_
    cases found with
    | some existing => exact h₂.returns
    | none =>
      refine settles_markFenced h₂ (by simp [threadJoinedRecord, NewEventRecord.discharged])
        (fun w' h' => admits_join (iff_of_false hstate h'.uncompleted)) fun answer w₃ h₃ => ?_
      split
      · split
        · exact settles_fail Pending.lasting h₃
        · exact h₃.returns
      · exact ih h₃
      · exact settles_fail Pending.lasting h₃

theorem settles_some {P : LoopWorld → Prop} (hP : Lasting turn P) (hB : ∀ e, Lasting turn (B e))
    (h : SettlesSo turn start (fun _ => P) B p w) :
    SettlesSo turn start (fun _ => P) B (some <$> p) w := by
  rw [map_eq_pure_bind]
  exact Settles.bind Quiet.refl hB (h.mono (fun _ w' hw' => settles_return hP hw') fun _ _ => id)

variable {sourceEventId : Option EventRecordId}

theorem settles_joinedIfSpawned {context : ThreadContext} {reason : Option String}
    (hstate : state ≠ .completed) (h : Pending turn start True w) :
    SettlesSo turn start (fun _ => Pending turn start True) (fun _ => Pending turn start True)
      (appendThreadJoinedEventIfSpawned fuel context state reason sourceEventId) w := by
  rw [appendThreadJoinedEventIfSpawned]
  split
  · exact h.returns
  · refine h.keeps (unmarked makes_readLoopEvents) fun events w₁ h₁ => ?_
    split
    · exact h₁.returns
    · refine h₁.asks trivial fun draw w₂ h₂ => ?_
      exact settles_some Pending.lasting (fun _ => Pending.lasting)
        (settles_joinedFirstWins hstate h₂)

theorem settles_terminalJoin {context : ThreadContext} {reason : Option String}
    (hstate : state ≠ .completed) (h : Pending turn start True w) :
    SettlesSo turn start (fun _ => Pending turn start True) whatever
      (appendTerminalJoinUntilRecorded context state reason sourceEventId fuel) w := by
  induction fuel generalizing w with
  | zero => exact Settles.throw fun _ _ => trivial
  | succ fuel ih =>
    refine settles_attempt (fun _ => Pending.lasting) (fun _ => Pending.lasting)
      (settles_joinedIfSpawned hstate h) (fun _ w' h' => ?_) (fun _ w' h' => ih h')
    exact h'.returns

variable {reason : String}

theorem settles_joinTurn (hstate : state ≠ .completed) (h : Pending turn start noted w) :
    SettlesSo turn start (fun _ => Pending turn start True) whatever
      (joinTurn fuel turn state reason) w :=
  settles_terminalJoin hstate (h.mono fun _ => trivial)

/-! ### The failure of a turn that was not completed -/

variable {failure : TerminalTurnFailure}

theorem admits_failed (h : ¬ Completed turn w) :
    Admits turn start (turnFailedRecord turn failure draw) w where
  completed hrecord := nomatch kind_of_isTurnRecord hrecord
  failed _ := h
  joined hrecord := nomatch kind_of_isChildRecord hrecord

theorem settles_turnFailed (h : Pending turn start True w) :
    SettlesSo turn start (fun _ => Pending turn start True) (fun _ => Pending turn start True)
      (appendTurnFailedEvent turn failure draw fuel) w := by
  induction fuel generalizing w with
  | zero => exact settles_stillRunning Pending.lasting h
  | succ fuel ih =>
    refine h.keeps (unmarked makes_readLoopEvents) fun events w₁ h₁ => ?_
    split
    · exact h₁.returns
    · refine settles_markFenced h₁ (by simp [turnFailedRecord, NewEventRecord.discharged])
        (fun w' h' => admits_failed h'.uncompleted) fun answer w₂ h₂ => ?_
      split
      · refine h₂.asks trivial fun answer w₃ h₃ => ?_
        refine h₃.keeps makes_given fun _ w₄ h₄ => ?_
        exact h₄.returns
      · exact settles_fail Pending.lasting h₂
      · exact ih h₂
      · exact settles_fail Pending.lasting h₂

theorem settles_failTurn (h : Pending turn start noted w) :
    SettlesSo turn start whatever whatever (failTurn fuel turn failure) w := by
  have h : Pending turn start True w := h.mono fun _ => trivial
  refine h.asks trivial fun draw w₁ h₁ => ?_
  refine settles_attempt (fun _ => Pending.lasting) (fun _ => Pending.lasting) (settles_turnFailed h₁)
    (fun _ w' _ => ?_) (fun _ w' _ => ?_)
  all_goals exact settles_whatever

theorem settles_failJoinedTurn {joined : Bool} (h : Pending turn start noted w) :
    SettlesSo turn start whatever whatever (failJoinedTurn fuel turn joined reason failure) w := by
  cases joined with
  | true => exact settles_failTurn h
  | false =>
    exact (settles_joinTurn (by simp) h).andThen fun _ w' h' => settles_failTurn h'

theorem settles_thenReturn {b : β} (h : SettlesSo turn start whatever whatever p w) :
    SettlesSo turn start whatever whatever (p >>= fun _ => pure b) w :=
  h.andThen fun _ _ _ => settles_whatever

theorem settles_leaveTurn {exit : TurnExit} (h : Pending turn start noted w) :
    SettlesSo turn start whatever whatever (leaveTurn fuel turn exit) w := by
  cases exit with
  | left ends => exact settles_whatever
  | failed code reason => exact settles_thenReturn (settles_failTurn h)

/-! ### Commands -/

variable {deferCancelTerminal : Bool}

theorem settles_cancelActiveTurn {alreadyCancelled : Bool} (h : Pending turn start noted w) :
    SettlesSo turn start (fun outcome => Pending turn start (noted ∨ outcome ≠ .continue)) whatever
      (cancelActiveTurn fuel turn alreadyCancelled deferCancelTerminal reason) w := by
  rw [cancelActiveTurn]
  split
  · exact (h.mono .inl).returns
  · split
    · exact (h.mono .inl).returns
    · refine (settles_joinTurn (by simp) h).andThen fun _ w' h' => ?_
      exact (h'.mono fun _ => .inr (by simp)).returns

theorem settles_appendSteer {command : Submit (List CanonicalContent)}
    (h : Pending turn start noted w) :
    SettlesSo turn start (fun outcome => Pending turn start (noted ∨ outcome ≠ .continue)) whatever
      (appendSteer setup fuel turn deferCancelTerminal command) w := by
  refine h.asks trivial fun timestampMs w₁ h₁ => ?_
  refine h₁.asks trivial fun answer w₂ h₂ => ?_
  split
  · exact (h₂.mono .inl).returns
  · refine h₂.asks trivial fun _ w₃ h₃ => ?_
    split
    · exact (h₃.mono .inl).returns
    · refine (settles_joinTurn (by simp) h₃).andThen fun _ w' h' => ?_
      exact (h'.mono fun _ => .inr (by simp)).returns

variable {pendingCommands : List ThreadCommand}

/-- **A command that lets the turn go on leaves it as it was.** -/
theorem settles_handleCommand {alreadyCancelled : Bool} {command : Option ThreadCommand}
    (h : Pending turn start noted w) :
    SettlesSo turn start (fun result => Pending turn start (noted ∨ result.1 ≠ .continue)) whatever
      (handleActiveProviderCommand setup fuel turn alreadyCancelled deferCancelTerminal pendingCommands
        command) w := by
  have hcancel : ∀ (reason : String) (pendingCommands : List ThreadCommand),
      SettlesSo turn start (fun result => Pending turn start (noted ∨ result.1 ≠ .continue)) whatever
        (do
          ask .cancelTurn
          let outcome ← cancelActiveTurn fuel turn alreadyCancelled deferCancelTerminal reason
          return (outcome, pendingCommands)) w := by
    intro reason pendingCommands
    refine h.asks trivial fun _ w₁ h₁ => ?_
    refine (settles_cancelActiveTurn h₁).andThen fun outcome w₂ h₂ => ?_
    exact settles_return Pending.lasting h₂
  have hshutdown : SettlesSo turn start
      (fun result => Pending turn start (noted ∨ result.1 ≠ .continue)) whatever
      (do
        ask .cancelTurn
        return (ActiveProviderCommandOutcome.shutdown, pendingCommands)) w :=
    h.asks trivial fun _ _ h₁ =>
      (h₁.mono .inl).returns
  rcases command with _ | command
  · exact hshutdown
  · cases command with
    | cancel reason => exact hcancel reason _
    | cancelTurn watchdogTokenId reason =>
      rw [handleActiveProviderCommand]
      split
      · exact (h.mono .inl).returns
      · exact hcancel reason _
    | shutdown => exact hshutdown
    | submit command =>
      rw [handleActiveProviderCommand]
      split
      · exact (h.mono .inl).returns
      · refine (settles_appendSteer h).andThen fun outcome w₁ h₁ => ?_
        exact settles_return Pending.lasting h₁
      · exact hcancel _ _
    | compact turnId trigger summary => exact (h.mono .inl).returns
    | resumeToolCall turnId callId => exact (h.mono .inl).returns

/-! ### What comes during an await -/

/-- What the handler of an await keeps: `I` while it waits on, and `J` of what breaks into it. -/
def Handled (I : σ → LoopWorld → Prop) (J : γ → σ → LoopWorld → Prop) :
    Option γ × σ → LoopWorld → Prop
  | (none, state),         w => I state w
  | (some outcome, state), w => J outcome state w

/-- What an await comes to: `I`, or `J` of what broke into it and a rest without a mark. -/
def AttendedIn (I : σ → LoopWorld → Prop) (J : γ → σ → LoopWorld → Prop) :
    Attended α σ γ → LoopWorld → Prop
  | .finished _ state,               w => I state w
  | .interrupted rest outcome state, w => rest.Only Unmarked ∧ J outcome state w

section Attend

variable {I : σ → LoopWorld → Prop} {J : γ → σ → LoopWorld → Prop}
  {handle : σ → Interruption → LoopM (Option γ × σ)}

theorem settles_attendTo (hI : ∀ state, Lasting turn (I state))
    (hJ : ∀ outcome state, Lasting turn (J outcome state))
    (hhandle : ∀ state interruption w, I state w →
      SettlesSo turn start (Handled I J) whatever (handle state interruption) w)
    (interruptions : List Interruption) {state : σ} {w : LoopWorld} (h : I state w) :
    SettlesSo turn start (Handled I J) whatever (attendTo handle interruptions state) w := by
  induction interruptions generalizing state w with
  | nil => exact Settles.pure fun w' hw' => hI state w w' h hw'
  | cons interruption interruptions ih =>
    refine (hhandle state interruption w h).andThen fun result w' h' => ?_
    rcases result with ⟨_ | outcome, state'⟩
    · exact ih h'
    · exact Settles.pure fun w'' hw'' => hJ outcome state' w' w'' h' hw''

/-- **An await of a program without a mark** comes to what its handler keeps. -/
theorem settles_attend (hI : ∀ state, Lasting turn (I state))
    (hJ : ∀ outcome state, Lasting turn (J outcome state))
    (hhandle : ∀ state interruption w, I state w →
      SettlesSo turn start (Handled I J) whatever (handle state interruption) w)
    {p : LoopProc α} (hp : p.Only Unmarked) {state : σ} {w : LoopWorld} (h : I state w) :
    SettlesSo turn start (AttendedIn I J) whatever (attend handle p state) w := by
  induction p generalizing state w with
  | done a =>
    refine settles_ask trivial (hI state) h fun interruptions _ w₁ _ h₁ _ => ?_
    refine (settles_attendTo hI hJ hhandle interruptions h₁).andThen fun result w₂ h₂ => ?_
    rcases result with ⟨_ | outcome, state'⟩
    · exact Settles.pure fun w₃ hw₃ => hI state' w₂ w₃ h₂ hw₃
    · exact Settles.pure fun w₃ hw₃ => ⟨hp, hJ outcome state' w₂ w₃ h₂ hw₃⟩
  | call e k ih =>
    rw [attend]
    refine settles_ask trivial (hI state) h fun interruptions _ w₁ _ h₁ _ => ?_
    refine (settles_attendTo hI hJ hhandle interruptions h₁).andThen fun result w₂ h₂ => ?_
    rcases result with ⟨_ | outcome, state'⟩
    · exact settles_ask hp.1 (hI state') h₂ fun answer _ w₃ _ h₃ _ => ih answer (hp.2 answer) h₃
    · exact Settles.pure fun w₃ hw₃ => ⟨hp, hJ outcome state' w₂ w₃ h₂ hw₃⟩

end Attend

/-! ### A batch, and the commands that come with it -/

/-- What is noted of a batch: that it does not let the turn go on. -/
def ToolBatchAwaitOutcome.Ends (outcome : ToolBatchAwaitOutcome) : Prop :=
  ∀ appended, outcome ≠ .completed (.ok appended)

variable {outcome : ActiveProviderCommandOutcome}

theorem ends_ofBatch {ended : ToolBatchAwaitOutcome} (h : outcome.ofBatch = some ended) :
    ended.Ends := by
  rintro appended rfl
  cases outcome <;> cases h

/-- What a command to a batch leaves: what breaks into it ends it. -/
def BatchHandled (turn : AgentTurn) (start : LoopWorld) (noted : Prop) :
    Option ToolBatchAwaitOutcome × List ThreadCommand → LoopWorld → Prop :=
  Handled (fun _ => Pending turn start noted) fun outcome _ w => outcome.Ends ∧ Pending turn start True w

theorem lasting_batchHandled {result : Option ToolBatchAwaitOutcome × List ThreadCommand} :
    Lasting turn (BatchHandled turn start noted result) := by
  rcases result with ⟨_ | outcome, pendingCommands⟩
  · exact Pending.lasting
  · exact fun w w' h hquiet => ⟨h.1, Pending.lasting w w' h.2 hquiet⟩

theorem settles_handleToolBatchCommand {command : Option ThreadCommand}
    (h : Pending turn start noted w) :
    SettlesSo turn start (BatchHandled turn start noted) whatever
      (handleToolBatchCommand setup fuel turn deferCancelTerminal pendingCommands command) w := by
  refine (settles_handleCommand h).andThen fun result w' h' => ?_
  rcases result with ⟨outcome, pendingCommands'⟩
  refine settles_return lasting_batchHandled ?_
  cases hbatch : outcome.ofBatch with
  | none =>
    refine h'.mono fun hnoted => hnoted.resolve_right fun hne => hne ?_
    cases outcome with
    | «continue» => rfl
    | cancelled reason => cases hbatch
    | shutdown => cases hbatch
    | failed code reason => cases hbatch
  | some ended => exact ⟨ends_ofBatch hbatch, h'.mono fun _ => trivial⟩

/-- What a batch leaves of a turn: where it ends the turn, that may be noted. -/
def BatchEnded (turn : AgentTurn) (start : LoopWorld) (noted : Prop) (outcome : ToolBatchAwaitOutcome) :
    LoopWorld → Prop :=
  Pending turn start (noted ∨ outcome.Ends)

theorem ends_error {error : LoopError} : (ToolBatchAwaitOutcome.completed (.error error)).Ends := by
  intro appended h
  cases h

theorem makes_awaitRest {rest : LoopProc (Except LoopStop α)} (h : rest.Only Unmarked) :
    Makes Unmarked (awaitRest rest) := makes_attempt h

theorem settles_settled {result : Except LoopStop α} (hP : Lasting turn P) (h : P w) :
    SettlesSo turn start (fun _ => P) whatever (settled result) w := by
  rcases result with (e | _) | a
  · exact settles_return hP h
  · exact Settles.throw fun _ _ => trivial
  · exact settles_return hP h

theorem settles_finishBrokenBatch (noted : Prop) {preparation : LoopProc (Except LoopStop PreparedToolBatch)}
    {outcome : ToolBatchAwaitOutcome} (hrest : preparation.Only Unmarked) (hends : outcome.Ends)
    (h : Pending turn start True w) :
    SettlesSo turn start (fun outcome => BatchEnded turn start noted outcome) whatever
      (finishBrokenBatch fuel turn preparation outcome) w := by
  refine h.goesOn (makes_awaitRest hrest) fun result w₁ h₁ => ?_
  cases result with
  | error error => exact (h₁.mono fun _ => .inr ends_error).returns
  | ok batch =>
    refine h₁.goesOn (makes_attempt (unmarked makes_appendToolResults)) fun result w₂ h₂ => ?_
    cases result with
    | error error => exact (h₂.mono fun _ => .inr ends_error).returns
    | ok appended =>
      have hjoined : SettlesSo turn start (fun _ => Pending turn start True) whatever
          (appendDeferredToolBatchTerminal fuel turn outcome) w₂ := by
        cases outcome with
        | cancelled reason => exact settles_joinTurn (by simp) h₂
        | failed code reason => exact settles_joinTurn (by simp) h₂
        | shutdown => exact h₂.returns
        | completed result => exact h₂.returns
      exact hjoined.andThen fun _ w₃ h₃ =>
        (h₃.mono fun _ => .inr hends).returns

/-- What may break into a commit, and what it says of the turn. -/
def CommitBroken (turn : AgentTurn) (start : LoopWorld) (noted : Prop) :
    CommitBreak → List ThreadCommand → LoopWorld → Prop
  | .outcome outcome,              _, w => outcome.Ends ∧ Pending turn start True w
  | .runtimeCancelled, _, w | .mustWait _, _, w => Pending turn start noted w

variable {broken : CommitBreak}

theorem lasting_commitBroken :
    Lasting turn (CommitBroken turn start noted broken pendingCommands) := by
  cases broken with
  | runtimeCancelled => exact Pending.lasting
  | mustWait command => exact Pending.lasting
  | outcome outcome => exact fun w w' h hquiet => ⟨h.1, Pending.lasting w w' h.2 hquiet⟩

theorem CommitBroken.uncompleted (h : CommitBroken turn start noted broken pendingCommands w) :
    Pending turn start True w := by
  cases broken with
  | runtimeCancelled => exact Pending.mono h fun _ => trivial
  | mustWait command => exact Pending.mono h fun _ => trivial
  | outcome outcome => exact h.2

theorem settles_finishBrokenCommit {commit : LoopProc (Except LoopStop ToolAppendOutcome)}
    (hrest : commit.Only Unmarked) (h : CommitBroken turn start noted broken pendingCommands w) :
    SettlesSo turn start (fun result => BatchEnded turn start noted result.1) whatever
      (finishBrokenCommit setup fuel turn commit pendingCommands broken) w := by
  refine settles_quiet_bind (makes_awaitRest hrest) lasting_commitBroken h
    (fun _ => lasting_whatever _) (fun _ _ _ => trivial) fun result w₁ h₁ => ?_
  cases result with
  | error error =>
    exact (h₁.uncompleted.mono fun _ => .inr ends_error).returns
  | ok committed =>
    cases broken with
    | runtimeCancelled =>
      refine h₁.asks trivial fun _ w₂ h₂ => ?_
      refine (settles_joinTurn (by simp) h₂).andThen fun _ w₃ h₃ => ?_
      exact (h₃.mono fun _ => .inr fun _ h => nomatch h).returns
    | mustWait command =>
      refine (settles_handleToolBatchCommand h₁).andThen fun result w₂ h₂ => ?_
      rcases result with ⟨_ | outcome, pendingCommands'⟩
      · exact (Pending.mono h₂ .inl).returns
      · exact (h₂.2.mono fun _ => .inr h₂.1).returns
    | outcome outcome => exact (h₁.2.mono fun _ => .inr h₁.1).returns

theorem settles_commitToolBatch {batch : PreparedToolBatch} (h : Pending turn start noted w) :
    SettlesSo turn start (fun result => BatchEnded turn start noted result.1) whatever
      (commitToolBatch setup fuel turn batch pendingCommands) w := by
  have hhandle : ∀ (pendingCommands : List ThreadCommand) (interruption : Interruption) w,
      Pending turn start noted w → SettlesSo turn start
        (Handled (fun _ => Pending turn start noted) (CommitBroken turn start noted)) whatever
        (handleDuringCommit setup fuel turn pendingCommands interruption) w := by
    intro pendingCommands interruption w h
    cases interruption with
    | runtimeCancelled => exact Settles.pure fun w' hw' => Pending.lasting w w' h hw'
    | command command =>
      rw [handleDuringCommit]
      split
      · exact Settles.pure fun w' hw' => Pending.lasting w w' h hw'
      · refine (settles_handleToolBatchCommand h).andThen fun result w₁ h₁ => ?_
        rcases result with ⟨_ | outcome, pendingCommands'⟩
        · exact Settles.pure fun w' hw' => Pending.lasting w₁ w' h₁ hw'
        · exact Settles.pure fun w' hw' => ⟨h₁.1, Pending.lasting w₁ w' h₁.2 hw'⟩
  refine (settles_attend (fun _ => Pending.lasting) (fun _ _ => lasting_commitBroken) hhandle
    (unmarked makes_appendToolResults) h).andThen fun result w₁ h₁ => ?_
  cases result with
  | finished result pendingCommands' =>
    refine (settles_settled Pending.lasting h₁).andThen fun result w₂ h₂ => ?_
    exact (h₂.mono .inl).returns
  | interrupted commit broken pendingCommands' => exact settles_finishBrokenCommit h₁.1 h₁.2

/-- **A batch that lets the turn go on leaves it as it was.** -/
theorem settles_toolBatch {calls : List ProviderToolCall} {assistantEntryId : SessionEntryId}
    (h : Pending turn start noted w) :
    SettlesSo turn start (fun result => BatchEnded turn start noted result.1) whatever
      (appendToolResultsWhileHandlingCommands setup fuel runtime turn calls assistantEntryId
        pendingCommands) w := by
  have hhandle : ∀ (pendingCommands : List ThreadCommand) (interruption : Interruption) w,
      Pending turn start noted w → SettlesSo turn start (BatchHandled turn start noted) whatever
        (handleDuringPreparation setup fuel turn pendingCommands interruption) w := by
    intro pendingCommands interruption w h
    cases interruption with
    | runtimeCancelled =>
      refine h.asks trivial fun _ w₁ h₁ => ?_
      exact Settles.pure fun w₂ hw₂ =>
        ⟨(fun _ h => nomatch h), (Pending.lasting w₁ w₂ h₁ hw₂).mono fun _ => trivial⟩
    | command command => exact settles_handleToolBatchCommand h
  refine (settles_attend (fun _ => Pending.lasting)
    (fun _ _ w w' h hquiet => ⟨h.1, Pending.lasting w w' h.2 hquiet⟩) hhandle
    (unmarked makes_prepareToolResults) h).andThen fun result w₁ h₁ => ?_
  cases result with
  | finished result pendingCommands' =>
    refine (settles_settled Pending.lasting h₁).andThen fun result w₂ h₂ => ?_
    cases result with
    | error error => exact (h₂.mono .inl).returns
    | ok batch => exact settles_commitToolBatch h₂
  | interrupted preparation outcome pendingCommands' =>
    refine (settles_finishBrokenBatch noted h₁.1 h₁.2.1 h₁.2.2).andThen fun outcome w₂ h₂ => ?_
    exact settles_return Pending.lasting h₂

/-! ### Once the turn is completed -/

theorem Completed.lasting : Lasting turn (Completed turn) := fun _ _ h hquiet => h.quiet hquiet

/-- The turn is completed, and its thread was spawned with the event. -/
def Spawned (turn : AgentTurn) (parent : EventStreamId) (spawned : EventRecord) (w : LoopWorld) : Prop :=
  Completed turn w ∧ spawnedOf turn.coordinates.threadId (w.streams parent) = some spawned

/-- The turn is completed, and a malformed join stands before any of its thread. -/
def BlockedBy (turn : AgentTurn) (parent : EventStreamId) (spawned : EventRecord) (w : LoopWorld) :
    Prop :=
  Spawned turn parent spawned w ∧ ∃ error, findJoined spawned.id (w.streams parent) = .error error

/-- The join of the completed turn is in the way of a malformed one. -/
def Blocked (turn : AgentTurn) (w : LoopWorld) : Prop :=
  ∃ parent spawned, turn.parentStream = some parent ∧ BlockedBy turn parent spawned w

variable {parent : EventStreamId}

theorem spawnedOf_quiet (hparent : turn.parentStream = some parent) (hquiet : Quiet turn w w') :
    spawnedOf turn.coordinates.threadId (w'.streams parent) =
      spawnedOf turn.coordinates.threadId (w.streams parent) := by
  obtain ⟨more, hmore, hmarks⟩ := hquiet.streams parent
  have hnone : more.filter (isChildRecord .threadSpawned turn.coordinates.threadId) = [] := by
    refine List.filter_eq_nil_iff.mpr fun event hevent hspawned => ?_
    exact hmarks event hevent (.inr ⟨hparent, .inr hspawned⟩)
  have hfilter : ∀ events, spawnedOf turn.coordinates.threadId events =
      latestEvent (events.filter (isChildRecord .threadSpawned turn.coordinates.threadId)) :=
    fun _ => rfl
  rw [hfilter, hfilter, hmore, List.filter_append, hnone, List.append_nil]

theorem findJoined_append {spawnedEventId : EventRecordId} {events more : List EventRecord}
    {error : LoopError} (h : findJoined spawnedEventId events = .error error) :
    findJoined spawnedEventId (events ++ more) = .error error := by
  induction events with
  | nil => cases h
  | cons event events ih =>
    simp only [List.cons_append, findJoined] at h ⊢
    split at h
    case isTrue hkind => rw [if_pos hkind]; exact ih h
    case isFalse hkind =>
      rw [if_neg hkind]
      split at h
      · exact h
      · split at h
        · cases h
        · rename_i hother
          rw [if_neg hother]
          exact ih h

variable {spawned : EventRecord}

theorem Spawned.lasting (hparent : turn.parentStream = some parent) :
    Lasting turn (Spawned turn parent spawned) :=
  fun _ _ h hquiet => ⟨h.1.quiet hquiet, (spawnedOf_quiet hparent hquiet).trans h.2⟩

theorem BlockedBy.lasting (hparent : turn.parentStream = some parent) :
    Lasting turn (BlockedBy turn parent spawned) := by
  rintro w w' ⟨hspawned, error, herror⟩ hquiet
  obtain ⟨more, hmore, -⟩ := hquiet.streams parent
  exact ⟨Spawned.lasting hparent w w' hspawned hquiet, error, hmore ▸ findJoined_append herror⟩

theorem Blocked.lasting : Lasting turn (Blocked turn) := by
  rintro w w' ⟨parent, spawned, hparent, h⟩ hquiet
  exact ⟨parent, spawned, hparent, BlockedBy.lasting hparent w w' h hquiet⟩

/-- A failure leaves the turn blocked; a loop may still be running. -/
def FailsBlocked (turn : AgentTurn) (stop : LoopStop) (w : LoopWorld) : Prop :=
  ∀ error, stop = .failed error → Blocked turn w

theorem FailsBlocked.lasting (stop : LoopStop) : Lasting turn (FailsBlocked turn stop) :=
  fun w w' h hquiet error herror => Blocked.lasting w w' (h error herror) hquiet

theorem failsBlocked_stillRunning : FailsBlocked turn .stillRunning w := fun _ h => nomatch h

/-- **A read does not fail once the turn is completed.** -/
theorem settles_readCompleted {f : List EventRecord → LoopM β} (hB : ∀ e, Lasting turn (B e))
    (hP : Lasting turn P) (hcompleted : ∀ w, P w → Completed turn w) (h : P w)
    (hf : ∀ w', P w' → SettlesSo turn start C B (f (w'.streams streamId)) w') :
    SettlesSo turn start C B (readLoopEvents streamId none >>= f) w := by
  refine Settles.bind Quiet.refl hB ?_
  refine settles_ask trivial hP h fun answer w₁ w₂ _ h₂ hserves => ?_
  obtain ⟨⟨rfl, hevents⟩, hsteady⟩ := hserves
  cases answer with
  | error error => exact absurd trivial (hsteady (hcompleted _ h₂))
  | ok events =>
    obtain rfl := hevents events rfl
    intro w₃ hw₃
    have hall : (w₂.streams streamId).filter
        (fun event => (none : Option EventSequence).all (· < event.sequence)) =
        w₂.streams streamId := List.filter_eq_self.mpr fun _ _ => rfl
    refine Proc.Meets.mono (fun _ _ _ h h' => h.trans h') ?_ hw₃
    rw [hall]
    exact hf w₂ h₂

theorem settles_joinedFirstWins_completed
    (hparent : turn.parentStream = some (controlStreamId join.parent))
    (hjoin : join.spawnedEventId = spawned.id) (hstate : join.terminalState = .completed)
    (h : Spawned turn (controlStreamId join.parent) spawned w) :
    SettlesSo turn start whatever (FailsBlocked turn) (appendThreadJoinedFirstWins join draw fuel) w := by
  have hlasting : Lasting turn (Spawned turn (controlStreamId join.parent) spawned) :=
    Spawned.lasting hparent
  induction fuel generalizing w with
  | zero => exact settles_stillRunning (FailsBlocked.lasting _) failsBlocked_stillRunning
  | succ fuel ih =>
    refine settles_readCompleted FailsBlocked.lasting hlasting (fun _ h => h.1) h fun w₁ h₁ => ?_
    refine Settles.settle (fun found hfound => ?_) fun stop hstop w₂ hw₂ => ?_
    · cases found with
      | some existing => exact settles_whatever
      | none =>
        refine Settles.await fun w₂ hw₂ => ?_
        have h₂ := hlasting w₁ w₂ h₁ hw₂
        refine ⟨.inr ⟨_, rfl, admits_join (iff_of_true hstate h₂.1)⟩, fun answer w₃ hserves => ?_⟩
        obtain ⟨⟨rfl, error, rfl⟩ | ⟨hexpected, rfl, rfl | ⟨error, rfl, hconflict⟩⟩, hsteady⟩ :=
          hserves
        · split
          · rename_i herror
            cases herror
          · exact ih h₂
          · rename_i e hother herror
            cases herror
            refine absurd ?_ (hsteady h₂.1)
            cases error with
            | appendFenceConflict => exact absurd rfl (hother _ _ _)
            | _ => rfl
        · dsimp only
          rw [if_neg]
          · exact settles_whatever
          · rw [hexpected]
            exact fun hne => hne rfl
        · exact absurd hconflict (hsteady h₂.1.appended)
    · cases hfound : findJoined join.spawnedEventId (w₁.streams (controlStreamId join.parent)) with
      | ok found =>
        rw [hfound] at hstop
        cases hstop
      | error error =>
        refine FailsBlocked.lasting _ w₁ w₂ (fun _ _ => ⟨_, spawned, hparent, h₁, error, ?_⟩) hw₂
        rw [← hjoin]
        exact hfound

theorem settles_joinedIfSpawned_completed {reason : Option String} (h : Completed turn w) :
    SettlesSo turn start whatever (FailsBlocked turn)
      (appendThreadJoinedEventIfSpawned fuel turn.thread .completed reason sourceEventId) w := by
  rw [appendThreadJoinedEventIfSpawned]
  split
  · exact settles_whatever
  · rename_i parentThreadId hparentThread
    have hparent : turn.parentStream = some (controlStreamId
        (History.coordinatesWithThreadId turn.coordinates parentThreadId)) := by
      rw [AgentTurn.parentStream, hparentThread]
      rfl
    refine settles_readCompleted FailsBlocked.lasting Completed.lasting (fun _ => id) h fun w₁ h₁ => ?_
    split
    · exact settles_whatever
    · rename_i spawned hspawned
      refine settles_ask trivial (Spawned.lasting hparent) ⟨h₁, hspawned⟩ fun draw _ w₂ _ h₂ _ => ?_
      exact settles_some (fun _ _ _ _ => trivial) FailsBlocked.lasting
        (settles_joinedFirstWins_completed hparent rfl rfl h₂)

theorem settles_joinedFirstWins_blocked
    (hparent : turn.parentStream = some (controlStreamId join.parent))
    (hjoin : join.spawnedEventId = spawned.id)
    (h : BlockedBy turn (controlStreamId join.parent) spawned w) :
    SettlesSo turn start (fun _ _ => False) (FailsBlocked turn)
      (appendThreadJoinedFirstWins join draw fuel) w := by
  cases fuel with
  | zero => exact settles_stillRunning (FailsBlocked.lasting _) failsBlocked_stillRunning
  | succ fuel =>
    refine settles_readCompleted FailsBlocked.lasting (BlockedBy.lasting hparent)
      (fun _ h => h.1.1) h fun w₁ h₁ => ?_
    obtain ⟨error, herror⟩ := h₁.2
    rw [hjoin, herror]
    exact settles_fail (FailsBlocked.lasting _) fun _ _ => ⟨_, spawned, hparent, h₁⟩

theorem settles_joinedIfSpawned_blocked {reason : Option String} (h : Blocked turn w) :
    SettlesSo turn start (fun _ _ => False) (FailsBlocked turn)
      (appendThreadJoinedEventIfSpawned fuel turn.thread state reason sourceEventId) w := by
  obtain ⟨parent, spawned, hparent, h⟩ := h
  rw [appendThreadJoinedEventIfSpawned]
  split
  · rename_i hnone
    rw [AgentTurn.parentStream, hnone] at hparent
    cases hparent
  · rename_i parentThreadId hparentThread
    have hstream : parent = controlStreamId
        (History.coordinatesWithThreadId turn.coordinates parentThreadId) := by
      rw [AgentTurn.parentStream, hparentThread] at hparent
      exact (Option.some.inj hparent).symm
    subst hstream
    refine settles_readCompleted FailsBlocked.lasting (BlockedBy.lasting hparent) (fun _ h => h.1.1) h
      fun w₁ h₁ => ?_
    have hspawned : spawnedOf turn.thread.coordinates.threadId (w₁.streams (controlStreamId
      (History.coordinatesWithThreadId turn.thread.coordinates parentThreadId))) = some spawned :=
      h₁.1.2
    rw [hspawned]
    refine settles_ask trivial (BlockedBy.lasting hparent) h₁ fun draw _ w₂ _ h₂ _ => ?_
    exact settles_some (fun _ _ h _ => h) FailsBlocked.lasting
      (settles_joinedFirstWins_blocked hparent rfl h₂)

theorem settles_joinTurn_blocked (h : Blocked turn w) :
    SettlesSo turn start (fun _ _ => False) whatever (joinTurn fuel turn state reason) w := by
  rw [joinTurn]
  induction fuel generalizing w with
  | zero => exact Settles.throw fun _ _ => trivial
  | succ fuel ih =>
    exact settles_attempt (fun _ _ _ h _ => h) FailsBlocked.lasting
      (settles_joinedIfSpawned_blocked h) (fun _ _ h' => h'.elim) fun error w' h' => ih (h' error rfl)

/-! ### The completion of a turn -/

variable {latestSourceId : Option EventRecordId}

theorem admits_completed (h : Pending turn start False w) :
    Admits turn start (turnCompletedRecord turn latestSourceId draw) w where
  completed _ := h.clean.resolve_left id
  failed hrecord := nomatch kind_of_isTurnRecord hrecord
  joined hrecord := nomatch kind_of_isChildRecord hrecord

theorem isTurnRecord_turnCompletedRecord {sequence : EventSequence} :
    isTurnRecord .turnCompleted turn.turnId
      (.fromNew streamId sequence (turnCompletedRecord turn latestSourceId draw)) := by
  have hturn : (turnCompletedRecord turn latestSourceId draw).payload.index "turn_id" =
      .str turn.turnId := by
    rw [turnCompletedRecord, NewEventRecord.discharged, index_object]
    rfl
  simp only [isTurnRecord, EventRecord.fromNew, hturn, decide_eq_true_eq]
  exact ⟨rfl, rfl⟩

/-- Where the turn is not completed it goes on to fail; where it is, it is blocked. -/
def CompletionFails (turn : AgentTurn) (start : LoopWorld) (stop : LoopStop) (w : LoopWorld) : Prop :=
  ∀ error, stop = .failed error → Pending turn start False w ∨ Blocked turn w

theorem CompletionFails.lasting (stop : LoopStop) : Lasting turn (CompletionFails turn start stop) :=
  fun w w' h hquiet error herror => (h error herror).imp (Pending.lasting w w' · hquiet)
    (Blocked.lasting w w' · hquiet)

theorem settles_appendCompleted (h : Pending turn start False w) :
    SettlesSo turn start (fun _ => Completed turn) (CompletionFails turn start)
      (appendLoopEvent turn.stream (turnCompletedRecord turn latestSourceId draw)) w := by
  refine Settles.await fun w₁ hw₁ => ?_
  have h₁ : Pending turn start False w₁ := Pending.lasting w w₁ h hw₁
  refine ⟨.inr ⟨_, rfl, admits_completed h₁⟩, fun answer w₂ hserves => ?_⟩
  have hcompleted : Completed turn
      (w₁.appended turn.stream [turnCompletedRecord turn latestSourceId draw]) :=
    ⟨_, mem_streams_appended _ _ _, isTurnRecord_turnCompletedRecord⟩
  obtain ⟨⟨rfl, rfl⟩ | ⟨error, rfl, rfl | rfl⟩, hsteady⟩ := hserves
  · refine settles_ask trivial Completed.lasting hcompleted fun answer w₃ w₄ _ h₄ hserves => ?_
    cases answer with
    | error error => exact absurd trivial (hserves.2 h₄)
    | ok _ => exact settles_return Completed.lasting h₄
  · exact settles_fail (CompletionFails.lasting _) fun _ _ => .inl h₁
  · exact absurd trivial (hsteady hcompleted)

/-- **A completion that fails** leaves the turn uncompleted, or blocked. -/
theorem settles_turnCompleted (h : Pending turn start False w) :
    SettlesSo turn start whatever (CompletionFails turn start) (appendTurnCompletedEvent fuel turn) w := by
  have hlatest : Makes Unmarked (latestThreadEventId turn) :=
    unmarked (.bind makes_readLoopEvents fun _ => .pure)
  refine settles_quiet_bind hlatest Pending.lasting h CompletionFails.lasting
    (fun _ _ h' _ _ => .inl h') fun latestSourceId w₁ h₁ => ?_
  refine h₁.asks trivial fun draw w₂ h₂ => ?_
  refine Settles.bind Quiet.refl CompletionFails.lasting
    ((settles_appendCompleted h₂).mono (fun completed w₃ h₃ => ?_) fun _ _ => id)
  refine Settles.bind Quiet.refl CompletionFails.lasting
    ((settles_joinedIfSpawned_completed h₃).mono (fun _ w₄ _ => ?_)
      fun _ _ h' error herror => .inr (h' error herror))
  exact settles_whatever

theorem settles_completeTurn {lastAssistantText : Option String} (h : Pending turn start False w) :
    SettlesSo turn start whatever whatever
      (completeTurn setup fuel runtime turn lastAssistantText) w := by
  refine h.attempts (unmarked makes_runStopHooks) (fun _ w₁ h₁ => ?_)
    fun error w₁ h₁ => settles_thenReturn (settles_failJoinedTurn h₁)
  refine settles_attempt lasting_whatever CompletionFails.lasting (settles_turnCompleted h₁)
    (fun _ w₂ _ => settles_whatever) fun error w₂ h₂ => ?_
  rcases h₂ error rfl with h₂ | h₂
  · exact settles_thenReturn (settles_failJoinedTurn h₂)
  · exact settles_thenReturn ((settles_joinTurn_blocked h₂).andThen fun _ _ h' => h'.elim)

/-! ### Rounds -/

/-- The round does not let the turn go on. -/
def RoundEnd.Ends : RoundEnd → Prop
  | .failed _ _ | .exit _ => True
  | .stop _ | .toolsAppended | .suspended => False

variable {toolRounds : Nat}

theorem settles_recordAnswer {message : CanonicalMessage} (h : Pending turn start noted w) :
    SettlesSo turn start (fun result => Pending turn start (noted ∨ result.1.Ends)) whatever
      (recordAnswer setup fuel runtime turn toolRounds message pendingCommands) w := by
  refine h.attempts (unmarked makes_appendAgentLoopSessionEntry)
    (fun entry w₁ h₁ => ?_) fun error w₁ h₁ => (h₁.mono .inl).returns
  dsimp only
  split
  · split
    · exact (h₁.mono .inl).returns
    · refine (settles_toolBatch h₁).andThen fun result w₂ h₂ => ?_
      refine settles_return Pending.lasting (h₂.mono (Or.imp_right fun hends => ?_))
      rcases hbatch : result.1 with (error | appended) | reason | _ | ⟨code, reason⟩
      · trivial
      · exact absurd hbatch (hends appended)
      · trivial
      · trivial
      · trivial
  · exact (h₁.mono .inl).returns

/-- What a round may come to: another round begins as the turn began. -/
def RoundLeaves (turn : AgentTurn) (start : LoopWorld) : RoundStep → LoopWorld → Prop
  | .left _,    _ => True
  | .another _, w => Pending turn start False w

theorem RoundLeaves.lasting (step : RoundStep) : Lasting turn (RoundLeaves turn start step) := by
  cases step with
  | left ends => exact fun _ _ _ _ => trivial
  | another toolRounds => exact Pending.lasting

theorem settles_left {p : LoopM Bool} (h : SettlesSo turn start whatever whatever p w) :
    SettlesSo turn start (RoundLeaves turn start) whatever (RoundStep.left <$> p) w := by
  rw [map_eq_pure_bind]
  exact h.andThen fun ends _ _ => settles_return (RoundLeaves.lasting _) trivial

theorem settles_endRound {shutdownAfterTurn : Bool} {roundEnd : RoundEnd}
    (h : Pending turn start (shutdownAfterTurn = true ∨ roundEnd.Ends) w) :
    SettlesSo turn start (RoundLeaves turn start) whatever
      (endRound setup fuel runtime turn toolRounds shutdownAfterTurn roundEnd) w := by
  have hleft : ∀ ends, SettlesSo turn start (RoundLeaves turn start) whatever
      (pure (RoundStep.left ends)) w := fun ends => settles_return (RoundLeaves.lasting _) trivial
  have hgoes : roundEnd.Ends = False → shutdownAfterTurn ≠ true → Pending turn start False w := by
    intro hends hshutdown
    exact h.mono fun hnoted => hnoted.elim hshutdown (hends ▸ id)
  cases roundEnd with
  | exit exit => exact settles_left (settles_leaveTurn h)
  | stop lastAssistantText =>
    rw [endRound]
    split
    · exact hleft _
    · exact settles_left (settles_completeTurn (hgoes rfl ‹_›))
  | toolsAppended =>
    rw [endRound]
    split
    · exact hleft _
    · exact settles_return (RoundLeaves.lasting _) (hgoes rfl ‹_›)
  | suspended => exact hleft _
  | failed code reason =>
    rw [endRound]
    split
    · exact hleft _
    · exact (settles_failJoinedTurn h).andThen fun _ _ _ =>
      settles_return (RoundLeaves.lasting _) trivial

def RoundState.Notes (state : RoundState) : Prop :=
  state.cancelledReason.isSome ∨ state.failure.isSome ∨ state.shutdownAfterTurn = true

theorem RoundState.notes_note {state : RoundState} (h : state.Notes ∨ outcome ≠ .continue) :
    (state.note outcome pendingCommands).Notes := by
  cases outcome with
  | «continue» => exact h.resolve_right fun hne => hne rfl
  | cancelled reason => exact .inl rfl
  | shutdown => exact .inr (.inr rfl)
  | failed code reason => exact .inr (.inl rfl)

/-- What breaks into a request: nothing. -/
def NeverBroken (_ : Empty) (_ : RoundState) (_ : LoopWorld) : Prop := False

theorem settles_handleDuringRequest {state : RoundState} {interruption : Interruption}
    (h : Pending turn start state.Notes w) :
    SettlesSo turn start (Handled (fun state => Pending turn start state.Notes) NeverBroken) whatever
      (handleDuringRequest setup fuel turn state interruption) w := by
  cases interruption with
  | runtimeCancelled =>
    rw [handleDuringRequest]
    split
    · exact Settles.pure fun w' hw' => Pending.lasting w w' h hw'
    · refine h.asks trivial fun _ w₁ h₁ => ?_
      refine (settles_joinTurn (by simp) h₁).andThen fun _ w₂ h₂ => ?_
      exact Settles.pure fun w' hw' => (Pending.lasting w₂ w' h₂ hw').mono fun _ => .inl rfl
  | command command =>
    refine (settles_handleCommand h).andThen fun result w₁ h₁ => ?_
    exact Settles.pure fun w' hw' => (Pending.lasting w₁ w' h₁ hw').mono RoundState.notes_note

theorem settles_awaitRound (h : Pending turn start False w) :
    SettlesSo turn start (fun result => Pending turn start result.2.Notes) whatever
      (awaitRound setup fuel runtime turn toolRounds pendingCommands) w := by
  have hstart : Pending turn start
      (RoundState.Notes ⟨none, false, none, pendingCommands⟩) w := h.mono False.elim
  refine (settles_attend (J := NeverBroken) (fun _ => Pending.lasting) (fun _ _ _ _ h _ => h.elim)
    (fun _ _ _ h => settles_handleDuringRequest h) makes_runTurn hstart).andThen fun result w₁ h₁ => ?_
  rcases result with ⟨stop | result, state⟩ | ⟨rest, outcome, state⟩
  · exact Settles.throw fun _ _ => trivial
  · exact settles_return Pending.lasting h₁
  · exact outcome.elim

theorem settles_concludeRound {result : Except TerminalTurnFailure CanonicalMessage}
    {state : RoundState} (h : Pending turn start state.Notes w) :
    SettlesSo turn start (fun result => RoundLeaves turn start result.1) whatever
      (concludeRound setup fuel runtime turn toolRounds result state) w := by
  have hleft : ∀ (ends : Bool) (pendingCommands : List ThreadCommand) (w : LoopWorld),
      SettlesSo turn start (fun result => RoundLeaves turn start result.1) whatever
        (pure (RoundStep.left ends, pendingCommands)) w :=
    fun ends pendingCommands w => settles_return (RoundLeaves.lasting _) trivial
  have hfail : ∀ (reason : String) (failure : TerminalTurnFailure) (w : LoopWorld),
      Pending turn start True w →
        SettlesSo turn start (fun result => RoundLeaves turn start result.1) whatever
        (do
          failJoinedTurn fuel turn true reason failure
          return (RoundStep.left true, state.pendingCommands)) w :=
    fun reason failure w h => (settles_failJoinedTurn h).andThen fun _ _ _ => hleft _ _ _
  unfold concludeRound
  split
  · exact hleft _ _ _
  · rename_i hcancelled
    split
    · split
      · exact hleft _ _ _
      · exact hfail _ _ w (h.mono fun _ => trivial)
    · rename_i hfailure
      split
      · refine (settles_joinTurn (by simp) h).andThen fun _ w₁ h₁ => ?_
        split
        · exact hleft _ _ _
        · exact hfail _ _ w₁ h₁
      · have hnoted : Pending turn start (state.shutdownAfterTurn = true) w := by
          refine h.mono fun hnotes => ?_
          rcases hnotes with hnotes | hnotes | hnotes
          · exact absurd hnotes hcancelled
          · rw [hfailure] at hnotes
            cases hnotes
          · exact hnotes
        refine (settles_recordAnswer hnoted).andThen fun result w₁ h₁ => ?_
        refine (settles_endRound h₁).andThen fun step w₂ h₂ => ?_
        exact settles_return (RoundLeaves.lasting _) h₂

theorem atBoundary_none (h : outcome.atBoundary = none) : outcome = .continue := by
  cases outcome with
  | «continue» => rfl
  | cancelled reason => cases h
  | shutdown => cases h
  | failed code reason => cases h

/-- What the commands at a boundary leave: a turn that is not left is as it was. -/
def BoundaryLeaves (turn : AgentTurn) (start : LoopWorld) :
    Option TurnExit × List ThreadCommand → LoopWorld → Prop
  | (none, _),   w => Pending turn start False w
  | (some _, _), w => Pending turn start True w

theorem BoundaryLeaves.lasting (result : Option TurnExit × List ThreadCommand) :
    Lasting turn (BoundaryLeaves turn start result) := by
  rcases result with ⟨_ | exit, pendingCommands⟩ <;> exact Pending.lasting

theorem boundaryLeaves (h : Pending turn start (False ∨ outcome ≠ .continue) w) :
    BoundaryLeaves turn start (outcome.atBoundary, pendingCommands) w := by
  cases houtcome : outcome.atBoundary with
  | none =>
    exact Pending.mono h fun hnoted => hnoted.resolve_right fun hne => hne (atBoundary_none houtcome)
  | some exit => exact Pending.mono h fun _ => trivial

theorem settles_handleReadyCommands {readyCommandCount steps handledReadyCommands : Nat}
    (h : Pending turn start False w) :
    SettlesSo turn start (BoundaryLeaves turn start) whatever
      (handleReadyCommands setup fuel turn readyCommandCount steps handledReadyCommands
        pendingCommands) w := by
  induction steps generalizing handledReadyCommands pendingCommands w with
  | zero => exact Settles.throw fun _ _ => trivial
  | succ steps ih =>
    refine h.goesOn (unmarked makes_readyCommandsHandled) fun enough w₁ h₁ => ?_
    split
    · exact settles_return (BoundaryLeaves.lasting _) h₁
    · refine h₁.asks trivial fun answer w₂ h₂ => ?_
      cases answer with
      | empty => exact settles_return (BoundaryLeaves.lasting _) h₂
      | disconnected =>
        refine (settles_handleCommand h₂).andThen fun result w₃ h₃ => ?_
        exact settles_return (BoundaryLeaves.lasting _) (boundaryLeaves h₃)
      | received command =>
        refine (settles_handleCommand h₂).andThen fun result w₃ h₃ => ?_
        have hleaves : BoundaryLeaves turn start (result.1.atBoundary, result.2) w₃ :=
          boundaryLeaves h₃
        dsimp only
        split
        · rename_i exit hexit
          rw [hexit] at hleaves
          exact settles_return (BoundaryLeaves.lasting _) hleaves
        · rename_i hexit
          rw [hexit] at hleaves
          exact ih hleaves

theorem settles_roundBoundary (h : Pending turn start False w) :
    SettlesSo turn start (BoundaryLeaves turn start) whatever
      (roundBoundary setup fuel turn toolRounds pendingCommands) w := by
  rw [roundBoundary]
  split
  · exact settles_return (BoundaryLeaves.lasting _) h
  · refine h.asks trivial fun readyCommandCount w₁ h₁ => ?_
    exact settles_handleReadyCommands h₁

/-- **A round leaves the turn, or the turn is as it began.** -/
theorem settles_providerRound (h : Pending turn start False w) :
    SettlesSo turn start (fun result => RoundLeaves turn start result.1) whatever
      (providerRound setup fuel runtime turn toolRounds pendingCommands) w := by
  refine (settles_roundBoundary h).andThen fun result w₁ h₁ => ?_
  rcases result with ⟨_ | exit, pendingCommands'⟩
  · refine (settles_awaitRound h₁).andThen fun result w₂ h₂ => ?_
    exact settles_concludeRound h₂
  · refine (settles_leaveTurn h₁).andThen fun ends w₂ _ => ?_
    exact settles_return (RoundLeaves.lasting _) trivial

theorem settles_providerRounds {rounds : Nat} (h : Pending turn start False w) :
    SettlesSo turn start whatever whatever
      (providerRounds setup fuel runtime turn rounds toolRounds pendingCommands) w := by
  induction rounds generalizing toolRounds pendingCommands w with
  | zero => exact Settles.throw fun _ _ => trivial
  | succ rounds ih =>
    refine (settles_providerRound h).andThen fun result w₁ h₁ => ?_
    rcases result with ⟨ends | toolRounds', pendingCommands'⟩
    · exact settles_whatever
    · exact ih h₁

/-! ### The turn -/

theorem settles_orFailTurn {code : String} {next : α → LoopM (Bool × List ThreadCommand)}
    (hp : Makes QuietCall p) (h : Pending turn start False w)
    (hnext : ∀ a w, Pending turn start False w → SettlesSo turn start whatever whatever (next a) w) :
    SettlesSo turn start whatever whatever (orFailTurn setup fuel turn code pendingCommands p next) w :=
  h.attempts (unmarked hp) hnext
    fun _ _ h' => settles_thenReturn (settles_failTurn h')

theorem settles_replayBatch {calls : List ProviderToolCall} {assistantEntryId : SessionEntryId}
    (h : Pending turn start False w) :
    SettlesSo turn start whatever whatever
      (replayBatch setup fuel runtime turn toolRounds pendingCommands calls assistantEntryId) w := by
  refine (settles_toolBatch h).andThen fun result w₁ h₁ => ?_
  rcases result with ⟨(error | appended) | reason | _ | ⟨code, reason⟩, pendingCommands'⟩
  · exact settles_thenReturn (settles_failTurn h₁)
  · have hgoes : Pending turn start False w₁ :=
      Pending.mono h₁ fun hnoted => hnoted.elim id fun hends => hends appended rfl
    cases appended with
    | noTools => exact settles_providerRounds hgoes
    | appendedResults => exact settles_providerRounds hgoes
    | suspended => exact settles_whatever
  · exact settles_whatever
  · exact settles_whatever
  · exact settles_thenReturn (settles_failTurn h₁)

theorem settles_resumeRounds (h : Pending turn start False w) :
    SettlesSo turn start whatever whatever
      (resumeRounds setup fuel runtime turn toolRounds pendingCommands) w := by
  rw [resumeRounds]
  split
  · exact settles_providerRounds h
  · refine settles_orFailTurn makes_loopPendingSuspensions h fun pendingSuspensions w₁ h₁ => ?_
    split
    · exact settles_whatever
    · refine settles_orFailTurn makes_pendingWitnessedToolBatchForTurn h₁ fun pendingBatch w₂ h₂ => ?_
      rcases pendingBatch with _ | ⟨calls, assistantEntryId⟩
      · exact settles_providerRounds h₂
      · exact settles_replayBatch h₂

/-- **A turn asks for a mark only where it leaves one verdict.** -/
theorem settles_runProviderTurn (h : Pending turn start False w) :
    SettlesSo turn start whatever whatever
      (runProviderTurn setup fuel runtime turn pendingCommands) w := by
  refine settles_orFailTurn makes_persistedToolRoundsForTurn h fun toolRounds w₁ h₁ => ?_
  refine settles_orFailTurn makes_activeManifestBindReceipt h₁ fun _ w₂ h₂ => ?_
  refine settles_orFailTurn makes_runPromptHooks h₂ fun stops w₃ h₃ => ?_
  split
  · exact settles_whatever
  · exact settles_resumeRounds h₃

/-- The turn has no verdict yet. -/
def Undecided (turn : AgentTurn) (w : LoopWorld) : Prop := ¬ Completed turn w ∧ ¬ Failed turn w

theorem Undecided.pending (h : Undecided turn w) : Pending turn w False w := by
  refine ⟨h.1, .refl w, .inr ⟨h.2, ?_⟩⟩
  simp [joinsSince, LoopWorld.since]

theorem Undecided.oneVerdict (h : Undecided turn w) : OneVerdict turn w w := by
  have hnone : joinsSince turn w w = [] := by simp [joinsSince, LoopWorld.since]
  refine ⟨fun hboth => h.1 hboth.1, fun event hevent => ?_, fun event hevent => ?_⟩
  all_goals
    rw [hnone] at hevent
    cases hevent

/-- **A turn ends with one verdict**, in every state that a run of it reaches from where it has none,
if no store operation and no coupling run fails once `turn.completed` stands. -/
theorem oneVerdict_of_steady (setup : LoopSetup φ) (fuel : Nat) (runtime : AgentLoop φ)
    (turn : AgentTurn) (pendingCommands : List ThreadCommand) (start w : LoopWorld)
    (result : Option (Except LoopStop (Bool × List ThreadCommand)))
    (hstart : Undecided turn start)
    (hrun : (runProviderTurn setup fuel runtime turn pendingCommands).run.Upto
      (LoopWorld.servesSteadily turn) (Quiet turn) start w result) :
    OneVerdict turn start w := by
  have hsettles : SettlesSo turn start whatever whatever
      (runProviderTurn setup fuel runtime turn pendingCommands) start :=
    settles_runProviderTurn hstart.pending
  have hcall : ∀ (call : LoopCall) (w : LoopWorld) (answer : call.Reply) (w' : LoopWorld),
      OneVerdict turn start w ∧ Grown start w → asksOneVerdict turn start call w →
      LoopWorld.servesSteadily turn call w answer w' →
        (OneVerdict turn start w' ∧ Grown start w') ∧
          LoopWorld.servesSteadily turn call w answer w' :=
    fun call w answer w' h hasks hserves => ⟨oneVerdict_of_serves h.1 h.2 hasks hserves.1, hserves⟩
  exact (Proc.Meets.upto Quiet.refl (fun _ _ _ h h' => h.trans h') hcall
    (fun w w' h hquiet => ⟨⟨h.1.quiet h.2 hquiet, h.2.quiet hquiet⟩, hquiet⟩)
    ⟨hstart.oneVerdict, .refl start⟩ hsettles hrun).1.1

/-! ### A turn whose couplings fail -/

theorem servesSteadily_sampleServe (comes : LoopWorld → List Interruption) (call : LoopCall)
    (w : LoopWorld) : LoopWorld.servesSteadily turn call w
      (sampleServe (fun _ => .ok ()) comes call w).1 (sampleServe (fun _ => .ok ()) comes call w).2 := by
  refine ⟨serves_sampleServe turn _ comes call w, fun _ hfails => ?_⟩
  cases call with
  | appendEventsFenced streamId expected records =>
    simp only [sampleServe] at hfails
    split at hfails
    · exact hfails
    · cases hfails
  | _ => exact hfails

theorem undecided_sampleStart : Undecided sampleTurn sampleStart := by
  constructor <;> decide +kernel

/-- The sample, run to its end by a store that does not fail, is completed, and its thread joined so. -/
theorem oneVerdict_sampleRun :
    OneVerdict sampleTurn sampleStart (sampleRun (fun _ => .ok ()) fun _ => []).2 ∧
      Completed sampleTurn (sampleRun (fun _ => .ok ()) fun _ => []).2 ∧
      (joinsSince sampleTurn sampleStart (sampleRun (fun _ => .ok ()) fun _ => []).2).map joinState =
        [some .completed] :=
  ⟨oneVerdict_of_steady sampleSetup 3 sampleLoop sampleTurn [] sampleStart _ _ undecided_sampleStart
    (Proc.upto_alone (servesSteadily_sampleServe _) _ _), by decide +kernel⟩

/-- The couplings of `turn.completed` fail. -/
def sampleCouplings (appended : List EventRecord) : LoopResult Unit :=
  if appended.any fun event => event.kind = .turnCompleted then .error (.execution "coupling failed")
  else .ok ()

/-- **A turn may have two verdicts**: where a coupling of its `turn.completed` fails, `turn.failed` is
appended too, and its thread is joined as failed. -/
theorem exists_two_verdicts :
    Undecided sampleTurn sampleStart ∧
      (runProviderTurn sampleSetup 3 sampleLoop sampleTurn []).run.Upto (LoopWorld.serves sampleTurn)
        (Quiet sampleTurn) sampleStart (sampleRun sampleCouplings fun _ => []).2
        (some (sampleRun sampleCouplings fun _ => []).1) ∧
      Completed sampleTurn (sampleRun sampleCouplings fun _ => []).2 ∧
      Failed sampleTurn (sampleRun sampleCouplings fun _ => []).2 ∧
      (joinsSince sampleTurn sampleStart (sampleRun sampleCouplings fun _ => []).2).map joinState =
        [some .failed] ∧
      ¬ OneVerdict sampleTurn sampleStart (sampleRun sampleCouplings fun _ => []).2 := by
  have hended : Completed sampleTurn (sampleRun sampleCouplings fun _ => []).2 ∧
      Failed sampleTurn (sampleRun sampleCouplings fun _ => []).2 ∧
      (joinsSince sampleTurn sampleStart (sampleRun sampleCouplings fun _ => []).2).map joinState =
        [some .failed] := by decide +kernel
  obtain ⟨hcompleted, hfailed, hjoins⟩ := hended
  exact ⟨undecided_sampleStart, Proc.upto_alone (serves_sampleServe _ _ _) _ _, hcompleted, hfailed,
    hjoins, fun h => h.verdict ⟨hcompleted, hfailed⟩⟩

end Verlet.Agent
