import Verlet.Agent.AgentLoop.QuietCalls

/-!
# Agent — The agent loop — Steers

A steer is appended to the session of its thread while a turn is under way, and the next request of the
turn is assembled with it.  A request is sent only after the receipt of its assembly stands, so what was
there when the session was read for it is listed there.  A steer that comes later is not: it is left for
the turn after this one.
-/

namespace Verlet.Agent
open Support Kernel History
open Proc (Makes Settles)
open LoopM

variable {φ : Type} {setup : LoopSetup φ} {runtime : AgentLoop φ} {turn : AgentTurn}
  {start w w' w'' : LoopWorld} {fuel : Nat} {α β σ γ : Type} {P : LoopCall → Prop}

/-! ### What is listed -/

def Listed (turn : AgentTurn) (entryId : SessionEntryId) (w : LoopWorld) : Prop :=
  ∃ receipt ∈ w.streams turn.stream, isTurnRecord .contextCompileCompleted turn.turnId receipt ∧
    entryId.uuid.text ∈ receiptEntryIds receipt

instance (turn : AgentTurn) (entryId : SessionEntryId) (w : LoopWorld) :
    Decidable (Listed turn entryId w) :=
  inferInstanceAs (Decidable (∃ receipt ∈ w.streams turn.stream, _))

/-- The steers of the turn are entries of the session; and of those that stood when the session was read
for its last request, each is listed. -/
structure Delivered (turn : AgentTurn) (w : LoopWorld) : Prop where
  standing : ∀ entryId ∈ w.steers, ∃ entry ∈ w.entries, entry.entryId = entryId
  read : w.read <+: w.steers
  assembled : w.assembled <+: w.steers
  listed : ∀ entryId ∈ w.assembled, Listed turn entryId w

/-! ### What goes on during a round -/

/-- The streams and the entries grow, steers may come, and the session is not read. -/
structure GoesOn (w w' : LoopWorld) : Prop where
  streams : ∀ streamId, w.streams streamId <+: w'.streams streamId
  entries : w.entries ⊆ w'.entries
  steers : w.steers <+: w'.steers
  read : w'.read = w.read
  assembled : w'.assembled = w.assembled

theorem GoesOn.refl (w : LoopWorld) : GoesOn w w :=
  ⟨fun _ => List.prefix_refl _, List.Subset.refl _, List.prefix_refl _, rfl, rfl⟩

theorem GoesOn.trans (h : GoesOn w w') (h' : GoesOn w' w'') : GoesOn w w'' :=
  ⟨fun streamId => (h.streams streamId).trans (h'.streams streamId),
    List.Subset.trans h.entries h'.entries, h.steers.trans h'.steers, h'.read.trans h.read,
    h'.assembled.trans h.assembled⟩

theorem Still.goesOn (h : Still turn w w') : GoesOn w w' := by
  refine ⟨fun streamId => ?_, h.entries, h.steers ▸ List.prefix_refl _, h.read, h.assembled⟩
  obtain ⟨more, hmore, -⟩ := h.streams streamId
  exact ⟨more, hmore.symm⟩

variable {streamId : EventStreamId}

theorem GoesOn.appended {records : List NewEventRecord} : GoesOn w (w.appended streamId records) :=
  ⟨fun streamId' => ⟨_, (streams_appended w streamId records streamId').symm⟩, List.Subset.refl _,
    List.prefix_refl _, rfl, rfl⟩

theorem Listed.goesOn {entryId : SessionEntryId} (h : Listed turn entryId w)
    (hgoes : GoesOn w w') : Listed turn entryId w' := by
  obtain ⟨receipt, hreceipt, hlists⟩ := h
  exact ⟨receipt, (hgoes.streams turn.stream).subset hreceipt, hlists⟩

/-- The call neither reads the session nor is a request. -/
def isRoundCall : LoopCall → Bool
  | .buildContext _ | .executeProviderRequest _ => false
  | _ => true

variable {call : LoopCall}

/-- **Such a call only lets things go on.** -/
theorem goesOn_of_serves {answer : call.Reply} (h : isRoundCall call)
    (hserves : LoopWorld.serves turn call w answer w') : GoesOn w w' := by
  cases call with
  | readEvents streamId after =>
    obtain ⟨rfl, -⟩ := hserves
    exact .refl _
  | appendEvents streamId records =>
    rcases hserves with ⟨-, rfl⟩ | ⟨error, -, rfl | rfl⟩
    · exact .appended
    · exact .refl _
    · exact .appended
  | appendEventsFenced streamId expected records =>
    rcases hserves with ⟨rfl, -⟩ | ⟨-, rfl, -⟩
    · exact .refl _
    · exact .appended
  | appendTurnInput coordinates turnId kind =>
    cases answer with
    | ok entry =>
      obtain ⟨w₁, hstill, -, rfl⟩ := hserves
      have hgoes := hstill.goesOn
      exact ⟨hgoes.streams, hgoes.entries, hgoes.steers.trans (List.prefix_append _ _),
        hgoes.read, hgoes.assembled⟩
    | error error => exact Still.goesOn hserves
  | buildContext coordinates => cases h
  | executeProviderRequest request => cases h
  | _ => exact Still.goesOn hserves

/-- What a turn may ask: a request, where the session's last reading is listed. -/
def asksListed (turn : AgentTurn) : LoopCall → LoopWorld → Prop
  | .executeProviderRequest _, w => ∀ entryId ∈ w.read, Listed turn entryId w
  | _, _ => True

/-- What a call is answered, in a world whose steers stand. -/
def servesStanding (turn : AgentTurn) (call : LoopCall) (w : LoopWorld) (answer : call.Reply)
    (w' : LoopWorld) : Prop :=
  LoopWorld.serves turn call w answer w' ∧ Delivered turn w

theorem Delivered.goesOn (h : Delivered turn w) (hgoes : GoesOn w w')
    (hstanding : ∀ entryId ∈ w'.steers, ∃ entry ∈ w'.entries, entry.entryId = entryId) :
    Delivered turn w' := by
  refine ⟨hstanding, hgoes.read ▸ h.read.trans hgoes.steers,
    hgoes.assembled ▸ h.assembled.trans hgoes.steers, fun entryId hentry => ?_⟩
  rw [hgoes.assembled] at hentry
  exact (h.listed entryId hentry).goesOn hgoes

theorem Delivered.still (h : Delivered turn w) (hgoes : GoesOn w w') (hsteers : w'.steers = w.steers) :
    Delivered turn w' := by
  refine h.goesOn hgoes fun entryId hentry => ?_
  obtain ⟨entry, hmem, heq⟩ := h.standing entryId (hsteers ▸ hentry)
  exact ⟨entry, hgoes.entries hmem, heq⟩

theorem asksListed_of_unrequested (h : ∀ request, call ≠ .executeProviderRequest request) :
    asksListed turn call w := by
  cases call with
  | executeProviderRequest request => exact absurd rfl (h request)
  | _ => exact trivial

/-- **What is asked so keeps the steers delivered.** -/
theorem Delivered.serves {answer : call.Reply} (h : Delivered turn w)
    (hasks : asksListed turn call w) (hserves : LoopWorld.serves turn call w answer w') :
    Delivered turn w' := by
  by_cases hround : isRoundCall call
  · have hgoes := goesOn_of_serves hround hserves
    cases call with
    | appendTurnInput coordinates turnId kind =>
      cases answer with
      | error error => exact h.still hgoes (Still.steers hserves)
      | ok entry =>
        obtain ⟨w₁, hstill, hentry, rfl⟩ := hserves
        refine h.goesOn hgoes fun entryId hsteer => ?_
        rcases List.mem_append.mp hsteer with hold | hnew
        · exact (h.still hstill.goesOn hstill.steers).standing entryId hold
        · exact ⟨entry, hentry, (List.mem_singleton.mp hnew).symm⟩
    | readEvents streamId after =>
      obtain ⟨rfl, -⟩ := hserves
      exact h
    | appendEvents streamId records =>
      rcases hserves with ⟨-, rfl⟩ | ⟨error, -, rfl | rfl⟩
      · exact h.still hgoes rfl
      · exact h
      · exact h.still hgoes rfl
    | appendEventsFenced streamId expected records =>
      rcases hserves with ⟨rfl, -⟩ | ⟨-, rfl, -⟩
      · exact h
      · exact h.still hgoes rfl
    | buildContext coordinates => cases hround
    | executeProviderRequest request => cases hround
    | _ => exact h.still hgoes (Still.steers hserves)
  · cases call with
    | buildContext coordinates =>
      cases answer with
      | error error => exact h.still (Still.goesOn hserves) (Still.steers hserves)
      | ok context =>
        obtain ⟨-, rfl⟩ := hserves
        exact ⟨h.standing, List.prefix_refl _, h.assembled, h.listed⟩
    | executeProviderRequest request =>
      refine Delivered.still ?_ (Still.goesOn hserves) (Still.steers hserves)
      exact ⟨h.standing, h.read, h.read, hasks⟩
    | _ => exact absurd rfl hround

/-! ### Settling -/

/-- What a program comes to while the others let things go on. -/
abbrev Sends (turn : AgentTurn) (A : α → LoopWorld → Prop) (p : LoopM α) (w : LoopWorld) : Prop :=
  Settles GoesOn (asksListed turn) (servesStanding turn) A (fun _ _ => True) p w

/-- Whatever it comes to. -/
abbrev Anyhow (turn : AgentTurn) (p : LoopM α) (w : LoopWorld) : Prop :=
  Sends turn (fun _ _ => True) p w

variable {A : α → LoopWorld → Prop} {C : β → LoopWorld → Prop} {Q : LoopWorld → Prop}

def Steady (Q : LoopWorld → Prop) : Prop := ∀ w w', Q w → GoesOn w w' → Q w'

variable {p : LoopM α} {f : α → LoopM β}

theorem Sends.andThen (h : Sends turn A p w) (hf : ∀ a w', A a w' → Sends turn C (f a) w') :
    Sends turn C (p >>= f) w :=
  Settles.bind GoesOn.refl (fun _ _ _ _ _ => trivial) (Settles.imp hf (fun _ _ _ => trivial) h)

theorem sends_return {a : α} (hA : Steady (A a)) (h : A a w) : Sends turn A (pure a) w :=
  Settles.pure fun w' hw' => hA w w' h hw'

def Unrequested (call : LoopCall) : Prop := ∀ request, call ≠ .executeProviderRequest request

theorem unrequested_of_round (h : isRoundCall call) : Unrequested call := by
  rintro request rfl
  cases h

/-- **A program that sends no request** may be run anyhow. -/
theorem anyhow_of_unrequested (hp : Makes Unrequested p) (w : LoopWorld) : Anyhow turn p w := by
  have hmeets : ∀ (q : LoopProc (Except LoopStop α)) (w : LoopWorld), q.Only Unrequested →
      q.Meets GoesOn (asksListed turn) (servesStanding turn)
        (Proc.EndsIn (fun _ _ => True) fun _ _ => True) w := by
    intro q
    induction q with
    | done result =>
      intro w _ w' _
      cases result <;> exact trivial
    | call e k ih =>
      exact fun w h w' _ => ⟨asksListed_of_unrequested h.1, fun r w'' _ => ih r w'' (h.2 r)⟩
  exact hmeets p.run w hp

theorem sends_round (hp : Makes (isRoundCall ·) p) (hQ : Steady Q) (h : Q w) :
    Sends turn (fun _ => Q) p w := by
  have hround : ∀ call, isRoundCall call → ∀ w, asksListed turn call w ∧
      ∀ answer w', servesStanding turn call w answer w' → GoesOn w w' :=
    fun call hcall w => ⟨asksListed_of_unrequested (unrequested_of_round hcall),
      fun answer w' hserves => goesOn_of_serves hcall hserves.1⟩
  exact Settles.imp (fun _ w' hw' => hQ w w' h hw') (fun _ _ _ => trivial)
    (Makes.settles (fun _ _ _ h h' => h.trans h') hround hp w)

/-! ### The assembly of a round -/

/-- Every entry that the session had when it was last read is among these. -/
def ReadIn (entries : List SessionEntry) (w : LoopWorld) : Prop :=
  ∀ entryId ∈ w.read, entryId ∈ entries.map (·.entryId)

/-- Every steer that stood when the session was last read is listed. -/
def ReadListed (turn : AgentTurn) (w : LoopWorld) : Prop := ∀ entryId ∈ w.read, Listed turn entryId w

theorem steady_readIn (entries : List SessionEntry) : Steady (ReadIn entries) :=
  fun _ _ h hgoes entryId hread => h entryId (hgoes.read ▸ hread)

theorem steady_readListed : Steady (ReadListed turn) :=
  fun _ _ h hgoes entryId hread => (h entryId (hgoes.read ▸ hread)).goesOn hgoes

theorem makes_readRound {after : Option EventSequence} :
    Makes (isRoundCall ·) (readLoopEvents streamId after) :=
  .bind (makes_ask rfl) fun _ => makes_given

variable {foldIntraTurnSteers : Bool} {entries : List SessionEntry}

theorem makes_roundSteers :
    Makes (isRoundCall ·) (undeliveredSteers turn foldIntraTurnSteers entries) := by
  rw [undeliveredSteers]
  split
  · exact .bind makes_readRound fun _ => .pure
  · exact .pure

theorem makes_roundTools : Makes (isRoundCall ·) (loopToolDefinitions runtime) := by
  rw [loopToolDefinitions]
  split
  · exact .bind (makes_ask rfl) fun _ => .pure
  · exact .pure

theorem receipt_lists {assembled : AssembledRequest} {segments : List (StaticContextSegment φ)}
    {sourceRanges : List ObservationSourceRange} {sourceStreams : List EventStreamId}
    {event : EventRecord} (hkind : event.kind = .contextCompileCompleted)
    (hpayload : event.payload = contextCompilePayloadV1 setup
      (contextCompileReceiptPayload setup turn.turnId entries assembled segments) streamId sourceRanges
      sourceStreams) :
    isTurnRecord .contextCompileCompleted turn.turnId event ∧
      receiptEntryIds event = entries.map (·.entryId.uuid.text) := by
  have hturn : event.payload.index "turn_id" = .str turn.turnId := by
    rw [hpayload, contextCompilePayloadV1, index_object]
    rfl
  have hentries : event.payload.index "session_entry_ids" =
      .arr (entries.map fun entry => .str entry.entryId.uuid.text) := by
    rw [hpayload, contextCompilePayloadV1, index_object]
    rfl
  refine ⟨?_, ?_⟩
  · simp only [isTurnRecord, hturn, decide_eq_true_eq]
    exact ⟨hkind, rfl⟩
  · rw [receiptEntryIds, hentries]
    simp [List.filterMap_map, Function.comp_def, Json.asStr]

/-- **The receipt of a round** lists what the session had. -/
theorem sends_receipt {sourceCuts : List SessionContextSourceCut}
    {assembled : AssembledRequest} {segments : List (StaticContextSegment φ)} (h : ReadIn entries w) :
    Sends turn (fun _ => ReadListed turn) (recordContextCompileReceipt setup turn.coordinates entries
      sourceCuts (contextCompileReceiptPayload setup turn.turnId entries assembled segments)) w := by
  refine (sends_round (makes_ask rfl) (steady_readIn entries) h).andThen fun answer w₁ h₁ => ?_
  refine (sends_round makes_given (steady_readIn entries) h₁).andThen fun sourceRanges w₂ h₂ => ?_
  refine (sends_round (makes_ask rfl) (steady_readIn entries) h₂).andThen fun draw w₃ h₃ => ?_
  have hpayload : ∀ (sourceStreams : List EventStreamId) (streamId : EventStreamId)
      (sequence : EventSequence), (EventRecord.fromNew turn.stream sequence (contextCompileRecord
        turn.coordinates (contextCompilePayloadV1 setup (contextCompileReceiptPayload setup turn.turnId
          entries assembled segments) streamId sourceRanges sourceStreams) sourceRanges sourceStreams
          draw)).payload = contextCompilePayloadV1 setup (contextCompileReceiptPayload setup turn.turnId
          entries assembled segments) streamId sourceRanges sourceStreams := fun _ _ _ => rfl
  have happend : ∀ streamId' : EventStreamId, streamId' = turn.stream →
      ∀ (sourceStreams : List EventStreamId) (streamId : EventStreamId),
      Sends turn (fun _ => ReadListed turn) (appendLoopEvent streamId' (contextCompileRecord
        turn.coordinates (contextCompilePayloadV1 setup (contextCompileReceiptPayload setup turn.turnId
          entries assembled segments) streamId sourceRanges sourceStreams) sourceRanges sourceStreams
          draw)) w₃ := by
    rintro streamId' rfl sourceStreams streamId
    refine Settles.await fun w₄ hw₄ => ⟨trivial, fun answer w₅ hserves => ?_⟩
    have h₄ := steady_readIn entries w₃ w₄ h₃ hw₄
    obtain ⟨⟨rfl, rfl⟩ | ⟨error, rfl, -⟩, -⟩ := hserves
    · have hlisted : ReadListed turn (w₄.appended turn.stream [contextCompileRecord turn.coordinates
          (contextCompilePayloadV1 setup (contextCompileReceiptPayload setup turn.turnId entries
            assembled segments) streamId sourceRanges sourceStreams) sourceRanges sourceStreams draw]) := by
        intro entryId hread
        refine ⟨_, mem_streams_appended _ _ _,
          (receipt_lists rfl (hpayload sourceStreams streamId _)).imp_right fun hids => ?_⟩
        obtain ⟨entry, hentry, heq⟩ := List.mem_map.mp (h₄ entryId hread)
        rw [hids]
        exact List.mem_map.mpr ⟨entry, hentry, by rw [heq]⟩
      refine (sends_round (makes_ask rfl) steady_readListed hlisted).andThen fun answer w₆ h₆ => ?_
      exact (sends_round makes_given steady_readListed h₆).andThen fun _ w₇ h₇ =>
        sends_return steady_readListed h₇
    · exact Settles.throw fun _ _ => trivial
  refine (happend _ rfl _ _).andThen fun _ w₄ h₄ => ?_
  exact sends_round (.bind (makes_ask rfl) fun _ => makes_given) steady_readListed h₄

theorem sends_step (hp : Makes (isRoundCall ·) p) (h : ReadIn entries w)
    (hf : ∀ a w, ReadIn entries w → Sends turn C (f a) w) : Sends turn C (p >>= f) w :=
  (sends_round hp (steady_readIn entries) h).andThen hf

/-- **A request is assembled only once its receipt stands.** -/
theorem sends_assembleRound :
    Sends turn (fun _ => ReadListed turn) (assembleRound setup runtime turn foldIntraTurnSteers) w := by
  refine Settles.await fun w₁ _ => ⟨trivial, fun answer w₂ hserves => ?_⟩
  refine Settles.settle (fun context hcontext => ?_) fun _ _ _ _ => trivial
  cases answer with
  | error error => cases hcontext
  | ok answered =>
    cases hcontext
    obtain ⟨⟨hentries, rfl⟩, hdelivered⟩ := hserves
    have hread : ReadIn context.entries { w₁ with read := w₁.steers } := by
      intro entryId hsteer
      obtain ⟨entry, hentry, heq⟩ := hdelivered.standing entryId hsteer
      exact List.mem_map.mpr ⟨entry, hentries ▸ hentry, heq⟩
    refine sends_step makes_roundSteers hread fun steeringContexts w₃ h₃ => ?_
    refine sends_step (makes_ask rfl) h₃ fun answer w₄ h₄ => ?_
    refine sends_step makes_given h₄ fun memoryContexts w₅ h₅ => ?_
    refine sends_step (makes_ask rfl) h₅ fun answer w₆ h₆ => ?_
    refine sends_step makes_given h₆ fun instructionContexts w₇ h₇ => ?_
    refine sends_step makes_given h₇ fun skillContextSegments w₈ h₈ => ?_
    refine sends_step makes_given h₈ fun staticContextSegments w₉ h₉ => ?_
    refine sends_step makes_roundTools h₉ fun tools w' h' => ?_
    exact (sends_receipt h').andThen fun _ w'' h'' => sends_return steady_readListed h''

/-- **A request is sent only once its receipt stands.** -/
theorem anyhow_runTurn : Anyhow turn (runTurn setup runtime turn foldIntraTurnSteers) w := by
  have hattempt : Sends turn
      (fun result w' => ∀ request, result = .ok request → ReadListed turn w')
      (attempt (assembleRound setup runtime turn foldIntraTurnSteers)) w := by
    refine Proc.Meets.bind GoesOn.refl sends_assembleRound fun result w' hw' => ?_
    rcases result with (error | _) | request
    · exact fun _ _ _ h => nomatch h
    · exact fun _ _ => trivial
    · exact fun w'' hgoes _ _ => steady_readListed w' w'' hw' hgoes
  refine hattempt.andThen fun result w' hw' => ?_
  cases result with
  | error error => exact sends_return (fun _ _ _ _ => trivial) trivial
  | ok request =>
    exact fun w₁ hgoes => ⟨steady_readListed w' w₁ (hw' request rfl) hgoes, fun _ _ _ _ _ => trivial⟩

/-! ### What comes while a request is under way -/

theorem makes_joinRound {join : ThreadJoin} {draw : Draw} :
    Makes (isRoundCall ·) (appendThreadJoinedFirstWins join draw fuel) := by
  induction fuel with
  | zero => exact .throw
  | succ fuel ih =>
    refine .bind makes_readRound fun events => .bind makes_given fun found => ?_
    split
    · exact .pure
    · refine .bind (makes_ask rfl) fun answer => ?_
      split
      · split
        · exact makes_fail
        · exact .pure
      · exact ih
      · exact makes_fail

theorem makes_joinedIfSpawned {context : ThreadContext} {state : ThreadTerminalState}
    {reason : Option String} {sourceEventId : Option EventRecordId} :
    Makes (isRoundCall ·)
      (appendThreadJoinedEventIfSpawned fuel context state reason sourceEventId) := by
  rw [appendThreadJoinedEventIfSpawned]
  split
  · exact .pure
  · refine .bind makes_readRound fun controlEvents => ?_
    split
    · exact .pure
    · exact .bind (makes_ask rfl) fun _ => makes_map makes_joinRound

theorem makes_terminalJoin {context : ThreadContext} {state : ThreadTerminalState}
    {reason : Option String} {sourceEventId : Option EventRecordId} :
    Makes (isRoundCall ·)
      (appendTerminalJoinUntilRecorded context state reason sourceEventId fuel) := by
  induction fuel with
  | zero => exact .throw
  | succ fuel ih =>
    refine .bind (makes_attempt makes_joinedIfSpawned) fun result => ?_
    cases result with
    | ok joined => exact .pure
    | error error => exact ih

variable {reason : String} {deferCancelTerminal : Bool}

theorem makes_cancelActiveTurn {alreadyCancelled : Bool} :
    Makes (isRoundCall ·)
      (cancelActiveTurn fuel turn alreadyCancelled deferCancelTerminal reason) := by
  rw [cancelActiveTurn]
  split
  · exact .pure
  · split
    · exact .pure
    · exact .bind makes_terminalJoin fun _ => .pure

theorem makes_appendSteer {command : Submit (List CanonicalContent)} :
    Makes (isRoundCall ·) (appendSteer setup fuel turn deferCancelTerminal command) := by
  refine .bind (makes_ask rfl) fun _ => .bind (makes_ask rfl) fun answer => ?_
  split
  · exact .pure
  · refine .bind (makes_ask rfl) fun _ => ?_
    split
    · exact .pure
    · exact .bind makes_terminalJoin fun _ => .pure

variable {pendingCommands : List ThreadCommand}

theorem makes_handleCommand {alreadyCancelled : Bool} {command : Option ThreadCommand} :
    Makes (isRoundCall ·) (handleActiveProviderCommand setup fuel turn alreadyCancelled
      deferCancelTerminal pendingCommands command) := by
  have hcancel : ∀ (reason : String) (pendingCommands : List ThreadCommand),
      Makes (isRoundCall ·) (do
        ask .cancelTurn
        let outcome ← cancelActiveTurn fuel turn alreadyCancelled deferCancelTerminal reason
        return (outcome, pendingCommands)) :=
    fun reason pendingCommands => .bind (makes_ask rfl) fun _ => .bind makes_cancelActiveTurn fun _ =>
      .pure
  rcases command with _ | command
  · exact .bind (makes_ask rfl) fun _ => .pure
  · cases command with
    | cancel reason => exact hcancel reason _
    | cancelTurn watchdogTokenId reason =>
      rw [handleActiveProviderCommand]
      split
      · exact .pure
      · exact hcancel reason _
    | shutdown => exact .bind (makes_ask rfl) fun _ => .pure
    | submit command =>
      rw [handleActiveProviderCommand]
      split
      · exact .pure
      · exact .bind makes_appendSteer fun _ => .pure
      · exact hcancel _ _
    | compact turnId trigger summary => exact .pure
    | resumeToolCall turnId callId => exact .pure

variable {state : σ}

section Attend

variable {handle : σ → Interruption → LoopM (Option γ × σ)}

theorem makes_attendTo (hhandle : ∀ state interruption, Makes P (handle state interruption))
    (interruptions : List Interruption) : Makes P (attendTo handle interruptions state) := by
  induction interruptions generalizing state with
  | nil => exact .pure
  | cons interruption interruptions ih =>
    refine .bind (hhandle state interruption) fun result => ?_
    rcases result with ⟨_ | outcome, state'⟩
    · exact ih
    · exact .pure

theorem makes_attend_bind {f : Attended α σ γ → LoopM β} (hinterruptions : P .interruptions)
    (hhandle : ∀ state interruption, Makes P (handle state interruption))
    (hfinished : ∀ a state, Makes P (f (.finished a state)))
    (hinterrupted : ∀ (rest : LoopProc α) outcome state, rest.Only P →
      Makes P (f (.interrupted rest outcome state))) {p : LoopProc α} (hp : p.Only P) :
    Makes P (attend handle p state >>= f) := by
  induction p generalizing state with
  | done a =>
    rw [attend, bind_assoc]
    refine .bind (makes_ask hinterruptions) fun interruptions => ?_
    rw [bind_assoc]
    refine .bind (makes_attendTo hhandle interruptions) fun result => ?_
    rcases result with ⟨_ | outcome, state'⟩
    · exact hfinished a state'
    · exact hinterrupted _ outcome state' hp
  | call e k ih =>
    rw [attend, bind_assoc]
    refine .bind (makes_ask hinterruptions) fun interruptions => ?_
    rw [bind_assoc]
    refine .bind (makes_attendTo hhandle interruptions) fun result => ?_
    rcases result with ⟨_ | outcome, state'⟩
    · dsimp only
      rw [bind_assoc]
      exact .bind (makes_ask hp.1) fun answer => ih answer (hp.2 answer)
    · exact hinterrupted _ outcome state' hp

/-- **What lets things go on may be taken up during an await.** -/
theorem anyhow_attend
    (hhandle : ∀ state interruption, Makes (isRoundCall ·) (handle state interruption))
    {p : LoopProc α} {Q : α → LoopWorld → Prop}
    (hp : p.Meets GoesOn (asksListed turn) (servesStanding turn) Q w) :
    Anyhow turn (attend handle p state) w := by
  have hsteady : ∀ q : LoopProc α,
      Steady (q.Meets GoesOn (asksListed turn) (servesStanding turn) Q) :=
    fun q _ _ h hgoes => Proc.Meets.mono (fun _ _ _ h h' => h.trans h') h hgoes
  induction p generalizing state w with
  | done a =>
    refine (sends_round (makes_ask rfl) (hsteady _) hp).andThen fun interruptions w₁ h₁ => ?_
    refine (sends_round (makes_attendTo hhandle interruptions) (hsteady _) h₁).andThen
      fun result w₂ _ => ?_
    rcases result with ⟨_ | outcome, state'⟩
    all_goals exact sends_return (fun _ _ _ _ => trivial) trivial
  | call e k ih =>
    rw [attend]
    refine (sends_round (makes_ask rfl) (hsteady _) hp).andThen fun interruptions w₁ h₁ => ?_
    refine (sends_round (makes_attendTo hhandle interruptions) (hsteady _) h₁).andThen
      fun result w₂ h₂ => ?_
    rcases result with ⟨_ | outcome, state'⟩
    · intro w₃ hw₃
      obtain ⟨hask, hrest⟩ := h₂ w₃ hw₃
      exact ⟨hask, fun answer w₄ hanswer => ih answer (hrest answer w₄ hanswer)⟩
    · exact sends_return (fun _ _ _ _ => trivial) trivial

end Attend

/-! ### The turn -/

theorem unrequested_of_quiet (h : Makes QuietCall p) : Makes Unrequested p :=
  Proc.Only.imp (fun _ hcall => hcall.2) h

theorem unrequested_of_rounds (h : Makes (isRoundCall ·) p) : Makes Unrequested p :=
  Proc.Only.imp (fun _ => unrequested_of_round) h

theorem makes_handleToolBatchCommand {command : Option ThreadCommand} :
    Makes Unrequested
      (handleToolBatchCommand setup fuel turn deferCancelTerminal pendingCommands command) :=
  .bind (unrequested_of_rounds makes_handleCommand) fun _ => .pure

theorem makes_joinTurn {state : ThreadTerminalState} :
    Makes Unrequested (joinTurn fuel turn state reason) := unrequested_of_rounds makes_terminalJoin

theorem makes_settled {result : Except LoopStop α} : Makes P (settled result) := by
  rcases result with (error | _) | a
  · exact .pure
  · exact .throw
  · exact .pure

theorem makes_finishBrokenBatch {preparation : LoopProc (Except LoopStop PreparedToolBatch)}
    {outcome : ToolBatchAwaitOutcome} (hrest : preparation.Only Unrequested) :
    Makes Unrequested (finishBrokenBatch fuel turn preparation outcome) := by
  refine .bind (makes_attempt hrest) fun result => ?_
  cases result with
  | error error => exact .pure
  | ok batch =>
    refine .bind (makes_attempt (unrequested_of_quiet makes_appendToolResults)) fun result => ?_
    cases result with
    | error error => exact .pure
    | ok appended =>
      refine .bind ?_ fun _ => .pure
      cases outcome with
      | cancelled reason => exact makes_joinTurn
      | failed code reason => exact makes_joinTurn
      | shutdown => exact .pure
      | completed result => exact .pure

theorem makes_finishBrokenCommit {commit : LoopProc (Except LoopStop ToolAppendOutcome)}
    {broken : CommitBreak} (hrest : commit.Only Unrequested) :
    Makes Unrequested (finishBrokenCommit setup fuel turn commit pendingCommands broken) := by
  refine .bind (makes_attempt hrest) fun result => ?_
  cases result with
  | error error => exact .pure
  | ok committed =>
    cases broken with
    | runtimeCancelled =>
      exact .bind (makes_ask fun _ h => nomatch h) fun _ => .bind makes_joinTurn fun _ => .pure
    | mustWait command => exact .bind makes_handleToolBatchCommand fun _ => .pure
    | outcome outcome => exact .pure

theorem makes_commitToolBatch {batch : PreparedToolBatch} :
    Makes Unrequested (commitToolBatch setup fuel turn batch pendingCommands) := by
  refine makes_attend_bind (fun _ h => nomatch h) (fun state interruption => ?_)
    (fun result state => .bind makes_settled fun _ => .pure)
    (fun rest broken state hrest => makes_finishBrokenCommit hrest)
    (unrequested_of_quiet makes_appendToolResults)
  cases interruption with
  | runtimeCancelled => exact .pure
  | command command =>
    rw [handleDuringCommit]
    split
    · exact .pure
    · exact .bind makes_handleToolBatchCommand fun _ => .pure

theorem makes_toolBatch {calls : List ProviderToolCall} {assistantEntryId : SessionEntryId} :
    Makes Unrequested (appendToolResultsWhileHandlingCommands setup fuel runtime turn calls
      assistantEntryId pendingCommands) := by
  refine makes_attend_bind (fun _ h => nomatch h) (fun state interruption => ?_)
    (fun result state => .bind makes_settled fun result => ?_)
    (fun rest outcome state hrest => .bind (makes_finishBrokenBatch hrest) fun _ => .pure)
    (unrequested_of_quiet makes_prepareToolResults)
  · cases interruption with
    | runtimeCancelled => exact .bind (makes_ask fun _ h => nomatch h) fun _ => .pure
    | command command => exact makes_handleToolBatchCommand
  · cases result with
    | error error => exact .pure
    | ok batch => exact makes_commitToolBatch

variable {failure : TerminalTurnFailure}

theorem makes_turnFailedRound {draw : Draw} :
    Makes (isRoundCall ·) (appendTurnFailedEvent turn failure draw fuel) := by
  induction fuel with
  | zero => exact .throw
  | succ fuel ih =>
    refine .bind makes_readRound fun events => ?_
    split
    · exact .pure
    · refine .bind (makes_ask rfl) fun answer => ?_
      split
      · exact .bind (makes_ask rfl) fun _ => .bind makes_given fun _ => .pure
      · exact makes_fail
      · exact ih
      · exact makes_fail

theorem makes_failTurn : Makes Unrequested (failTurn fuel turn failure) :=
  .bind (makes_ask fun _ h => nomatch h) fun _ =>
    .bind (makes_attempt (unrequested_of_rounds makes_turnFailedRound)) fun _ => .pure

theorem makes_failJoinedTurn {joined : Bool} :
    Makes Unrequested (failJoinedTurn fuel turn joined reason failure) := by
  cases joined with
  | true => exact makes_failTurn
  | false => exact .bind makes_joinTurn fun _ => makes_failTurn

theorem makes_leaveTurn {exit : TurnExit} : Makes Unrequested (leaveTurn fuel turn exit) := by
  cases exit with
  | left ends => exact .pure
  | failed code reason => exact .bind makes_failTurn fun _ => .pure

theorem makes_turnCompleted : Makes Unrequested (appendTurnCompletedEvent fuel turn) := by
  have happend : ∀ record, Makes (isRoundCall ·) (appendLoopEvent turn.stream record) := by
    refine fun record => .bind (makes_ask rfl) fun answer => .bind makes_given fun found => ?_
    cases found with
    | nil => exact makes_fail
    | cons appended rest => exact .bind (makes_ask rfl) fun _ => .bind makes_given fun _ => .pure
  exact unrequested_of_rounds (.bind (.bind makes_readRound fun _ => .pure) fun _ =>
    .bind (makes_ask rfl) fun _ => .bind (happend _) fun _ => .bind makes_joinedIfSpawned fun _ => .pure)

theorem makes_completeTurn {lastAssistantText : Option String} :
    Makes Unrequested (completeTurn setup fuel runtime turn lastAssistantText) := by
  refine .bind (makes_attempt (unrequested_of_quiet makes_runStopHooks)) fun result => ?_
  cases result with
  | error error => exact .bind makes_failJoinedTurn fun _ => .pure
  | ok done =>
    refine .bind (makes_attempt makes_turnCompleted) fun result => ?_
    cases result with
    | error error => exact .bind makes_failJoinedTurn fun _ => .pure
    | ok completed => exact .pure

variable {toolRounds : Nat}

theorem makes_recordAnswer {message : CanonicalMessage} : Makes Unrequested
      (recordAnswer setup fuel runtime turn toolRounds message pendingCommands) := by
  refine .bind (makes_attempt (unrequested_of_quiet makes_appendAgentLoopSessionEntry)) fun result => ?_
  cases result with
  | error error => exact .pure
  | ok entry =>
    dsimp only
    split
    · split
      · exact .pure
      · exact .bind makes_toolBatch fun _ => .pure
    · exact .pure

theorem makes_endRound {shutdownAfterTurn : Bool} {roundEnd : RoundEnd} :
    Makes Unrequested
      (endRound setup fuel runtime turn toolRounds shutdownAfterTurn roundEnd) := by
  cases roundEnd with
  | exit exit => exact makes_map makes_leaveTurn
  | stop lastAssistantText =>
    rw [endRound]
    split
    · exact .pure
    · exact makes_map makes_completeTurn
  | toolsAppended =>
    rw [endRound]
    split <;> exact .pure
  | suspended => exact .pure
  | failed code reason =>
    rw [endRound]
    split
    · exact .pure
    · exact .bind makes_failJoinedTurn fun _ => .pure

theorem makes_concludeRound {result : Except TerminalTurnFailure CanonicalMessage}
    {state : RoundState} : Makes Unrequested
      (concludeRound setup fuel runtime turn toolRounds result state) := by
  unfold concludeRound
  split
  · exact .pure
  · split
    · split
      · exact .pure
      · exact .bind makes_failJoinedTurn fun _ => .pure
    · split
      · refine .bind makes_joinTurn fun _ => ?_
        split
        · exact .pure
        · exact .bind makes_failJoinedTurn fun _ => .pure
      · exact .bind makes_recordAnswer fun _ => .bind makes_endRound fun _ => .pure

theorem makes_handleReadyCommands {readyCommandCount steps handledReadyCommands : Nat} :
    Makes Unrequested
      (handleReadyCommands setup fuel turn readyCommandCount steps handledReadyCommands
        pendingCommands) := by
  induction steps generalizing handledReadyCommands pendingCommands with
  | zero => exact .throw
  | succ steps ih =>
    refine .bind (unrequested_of_quiet makes_readyCommandsHandled) fun enough => ?_
    split
    · exact .pure
    · refine .bind (makes_ask fun _ h => nomatch h) fun answer => ?_
      cases answer with
      | empty => exact .pure
      | disconnected => exact .bind (unrequested_of_rounds makes_handleCommand) fun _ => .pure
      | received command =>
        refine .bind (unrequested_of_rounds makes_handleCommand) fun result => ?_
        dsimp only
        split
        · exact .pure
        · exact ih

theorem makes_roundBoundary :
    Makes Unrequested (roundBoundary setup fuel turn toolRounds pendingCommands) := by
  rw [roundBoundary]
  split
  · exact .pure
  · exact .bind (makes_ask fun _ h => nomatch h) fun _ => makes_handleReadyCommands

theorem makes_handleDuringRequest {state : RoundState} {interruption : Interruption} :
    Makes (isRoundCall ·) (handleDuringRequest setup fuel turn state interruption) := by
  cases interruption with
  | runtimeCancelled =>
    rw [handleDuringRequest]
    split
    · exact .pure
    · exact .bind (makes_ask rfl) fun _ => .bind makes_terminalJoin fun _ => .pure
  | command command => exact .bind makes_handleCommand fun _ => .pure

theorem Anyhow.andThen (h : Anyhow turn p w) (hf : ∀ a w', Anyhow turn (f a) w') :
    Anyhow turn (p >>= f) w :=
  Sends.andThen h fun a w' _ => hf a w'

theorem anyhow_return {a : α} : Anyhow turn (pure a) w := sends_return (fun _ _ _ _ => trivial) trivial

theorem anyhow_providerRounds {rounds : Nat} :
    Anyhow turn (providerRounds setup fuel runtime turn rounds toolRounds pendingCommands) w := by
  induction rounds generalizing toolRounds pendingCommands w with
  | zero => exact Settles.throw fun _ _ => trivial
  | succ rounds ih =>
    have hround : Anyhow turn (providerRound setup fuel runtime turn toolRounds pendingCommands) w := by
      refine (anyhow_of_unrequested makes_roundBoundary w).andThen fun result w₁ => ?_
      rcases result with ⟨_ | exit, pendingCommands'⟩
      · refine Anyhow.andThen ?_ fun result w₂ => anyhow_of_unrequested makes_concludeRound w₂
        refine Anyhow.andThen (anyhow_attend (fun _ _ => makes_handleDuringRequest) anyhow_runTurn)
          fun result w₂ => ?_
        rcases result with ⟨stop | result, state⟩ | ⟨rest, outcome, state⟩
        · exact Settles.throw fun _ _ => trivial
        · exact anyhow_return
        · exact outcome.elim
      · exact (anyhow_of_unrequested makes_leaveTurn w₁).andThen fun _ _ => anyhow_return
    refine hround.andThen fun result w₁ => ?_
    rcases result with ⟨ends | toolRounds', pendingCommands'⟩
    · exact anyhow_return
    · exact ih

theorem anyhow_orFailTurn {code : String} {next : α → LoopM (Bool × List ThreadCommand)}
    (hp : Makes QuietCall p) (hnext : ∀ a w, Anyhow turn (next a) w) :
    Anyhow turn (orFailTurn setup fuel turn code pendingCommands p next) w := by
  refine (anyhow_of_unrequested (makes_attempt (unrequested_of_quiet hp)) w).andThen fun result w₁ => ?_
  cases result with
  | ok a => exact hnext a w₁
  | error error =>
    exact (anyhow_of_unrequested makes_failTurn w₁).andThen fun _ _ => anyhow_return

/-- **A turn sends a request only once its receipt stands.** -/
theorem anyhow_runProviderTurn :
    Anyhow turn (runProviderTurn setup fuel runtime turn pendingCommands) w := by
  refine anyhow_orFailTurn makes_persistedToolRoundsForTurn fun toolRounds w₁ => ?_
  refine anyhow_orFailTurn makes_activeManifestBindReceipt fun _ w₂ => ?_
  refine anyhow_orFailTurn makes_runPromptHooks fun stops w₃ => ?_
  split
  · exact anyhow_return
  · rw [resumeRounds]
    split
    · exact anyhow_providerRounds
    · refine anyhow_orFailTurn makes_loopPendingSuspensions fun pendingSuspensions w₄ => ?_
      split
      · exact anyhow_return
      · refine anyhow_orFailTurn makes_pendingWitnessedToolBatchForTurn fun pendingBatch w₅ => ?_
        rcases pendingBatch with _ | ⟨calls, assistantEntryId⟩
        · exact anyhow_providerRounds
        · refine (anyhow_of_unrequested makes_toolBatch w₅).andThen fun result w₆ => ?_
          rcases result with ⟨(error | appended) | reason | _ | ⟨code, reason⟩, pendingCommands'⟩
          · exact (anyhow_of_unrequested makes_failTurn w₆).andThen fun _ _ => anyhow_return
          · cases appended with
            | noTools => exact anyhow_providerRounds
            | appendedResults => exact anyhow_providerRounds
            | suspended => exact anyhow_return
          · exact anyhow_return
          · exact anyhow_return
          · exact (anyhow_of_unrequested makes_failTurn w₆).andThen fun _ _ => anyhow_return

/-- No steer of the turn has come yet. -/
structure Unsteered (w : LoopWorld) : Prop where
  steers : w.steers = []
  read : w.read = []
  assembled : w.assembled = []

/-- **Every steer that stood when the session was read for the last request of a turn is listed** by a
receipt of that turn, in every state that a run of it reaches; and these are the first ones. -/
theorem steersListed (setup : LoopSetup φ) (fuel : Nat) (runtime : AgentLoop φ) (turn : AgentTurn)
    (pendingCommands : List ThreadCommand) (start w : LoopWorld)
    (result : Option (Except LoopStop (Bool × List ThreadCommand))) (hstart : Unsteered start)
    (hrun : (runProviderTurn setup fuel runtime turn pendingCommands).run.Upto
      (LoopWorld.serves turn) (Still turn) start w result) :
    w.assembled <+: w.steers ∧ ∀ entryId ∈ w.assembled, Listed turn entryId w := by
  have hdelivered : Delivered turn start := by
    refine ⟨fun entryId h => ?_, ?_, ?_, fun entryId h => ?_⟩
    · rw [hstart.steers] at h
      cases h
    · rw [hstart.read]
      exact List.nil_prefix
    · rw [hstart.assembled]
      exact List.nil_prefix
    · rw [hstart.assembled] at h
      cases h
  have hcall : ∀ (call : LoopCall) (w : LoopWorld) (answer : call.Reply) (w' : LoopWorld),
      Delivered turn w → asksListed turn call w → LoopWorld.serves turn call w answer w' →
        Delivered turn w' ∧ servesStanding turn call w answer w' :=
    fun call w answer w' h hasks hserves => ⟨h.serves hasks hserves, hserves, h⟩
  have hkept := (Proc.Meets.upto GoesOn.refl (fun _ _ _ h h' => h.trans h') hcall
    (fun w w' h hstill => ⟨h.still hstill.goesOn hstill.steers, hstill.goesOn⟩)
    hdelivered (anyhow_runProviderTurn (w := start)) hrun).1
  exact ⟨hkept.assembled, hkept.listed⟩

/-! ### A steer that comes late -/

/-- A steer comes once the receipt of a request stands, and before its answer. -/
def sampleSteer (w : LoopWorld) : List Interruption :=
  if w.streams sampleTurn.stream ≠ [] ∧ w.steers = [] then
    [.command (some (.submit ⟨"steer", ⟨[.text "also this" none], false, none⟩, .steer⟩))]
  else []

theorem unsteered_sampleStart : Unsteered sampleStart := ⟨rfl, rfl, rfl⟩

/-- The answer that asks for a call. -/
def sampleAsks : CanonicalMessage :=
  .assistant [.toolCall "call" "look" .null] .openAIResponses "provider" "model" ⟨0, 0, 0, 0⟩ .toolUse
    none 0

def sampleSees (witness : WitnessedToolCall) : PreparedToolCallOutcome :=
  .completed witness.toolCall.id witness.toolCall.name witness.snapshotId witness.argsFingerprint
    witness.requestEventId 0 none
    ⟨toolResultMessage witness.toolCall.id witness.toolCall.name "seen" false 0, [], [], 0⟩

/-- The sample's services, where the provider asks for a call until a steer has been read. -/
def sampleServeTool (call : LoopCall) (w : LoopWorld) : call.Reply × LoopWorld :=
  match call with
  | .executeProviderRequest _ =>
      (.ok (if w.read = [] then sampleAsks else sampleAnswer), { w with assembled := w.read })
  | .executeToolCallBatch calls _ => (calls.map fun witness => .ok (sampleSees witness), w)
  | .append coordinates kind _ =>
      let entry := w.sampleEntry none kind
      let record := .witnessed (sampleDraw (100 + w.entries.length)) coordinates .sessionEntryAppended
        (.obj [("entry_id", .str entry.entryId.uuid.text)])
      (.ok entry, { w.appended sampleTurn.stream [record] with entries := w.entries ++ [entry] })
  | call => sampleServe (fun _ => .ok ()) sampleSteer call w

/-- The sample with a round of tool calls, run to its end. -/
def sampleToolRun : Except LoopStop (Bool × List ThreadCommand) × LoopWorld :=
  (runProviderTurn sampleSetup 3
    { sampleLoop with hasToolRouter := true, strictToolRouterUnknowns := true } sampleTurn
    []).run.alone sampleServeTool sampleStart

theorem serves_sampleServeTool (call : LoopCall) (w : LoopWorld) :
    LoopWorld.serves sampleTurn call w (sampleServeTool call w).1 (sampleServeTool call w).2 := by
  cases call with
  | executeProviderRequest request => exact .refl _
  | executeToolCallBatch calls waitEdges => exact .refl _
  | append coordinates kind provenance =>
    refine ⟨⟨(Quiet.appended fun record hrecord => ?_).streams, List.subset_append_left _ _⟩,
      rfl, rfl, rfl⟩
    rw [List.mem_singleton.mp hrecord]
    rfl
  | _ => exact serves_sampleServe sampleTurn (fun _ => .ok ()) sampleSteer _ w

/-- A steer that comes during the first request is in the second, and listed. -/
theorem steersListed_sampleToolRun :
    sampleToolRun.2.assembled = [⟨sampleUuid 100⟩] ∧
      Listed sampleTurn ⟨sampleUuid 100⟩ sampleToolRun.2 := by
  have hassembled : sampleToolRun.2.assembled = [⟨sampleUuid 100⟩] := by decide +kernel
  refine ⟨hassembled, (steersListed sampleSetup 3 _ sampleTurn [] sampleStart _ _
    unsteered_sampleStart (Proc.upto_alone serves_sampleServeTool _ _)).2 _ ?_⟩
  rw [← sampleToolRun, hassembled]
  exact List.mem_singleton_self _

/-- **A steer that comes while the last request is under way is listed by no receipt**, and the turn is
completed all the same. -/
theorem exists_steer_unlisted :
    Unsteered sampleStart ∧
      (runProviderTurn sampleSetup 3 sampleLoop sampleTurn []).run.Upto (LoopWorld.serves sampleTurn)
        (Still sampleTurn) sampleStart (sampleRun (fun _ => .ok ()) sampleSteer).2
        (some (sampleRun (fun _ => .ok ()) sampleSteer).1) ∧
      ((sampleRun (fun _ => .ok ()) sampleSteer).2.streams sampleTurn.stream).any
        (isTurnRecord .turnCompleted sampleTurn.turnId) ∧
      (sampleRun (fun _ => .ok ()) sampleSteer).2.steers = [⟨sampleUuid 100⟩] ∧
      ¬ Listed sampleTurn ⟨sampleUuid 100⟩ (sampleRun (fun _ => .ok ()) sampleSteer).2 :=
  ⟨unsteered_sampleStart, Proc.upto_alone (serves_sampleServe _ _ _) _ _, by decide +kernel⟩

end Verlet.Agent
