import Verlet.Kernel.ThreadSpawnProjector.Children

/-!
# Kernel — The thread spawn projector — Claims

What dispatches and projections do, from the read of the stream on: a claim is fenced at the end of
what was read, and only where it is taken `project_claimed` is entered.
-/

namespace Verlet.Kernel
open Support Io History SpawnM
open Proc (Settles)

variable {seen : List EventRecord} {event request : EventRecord} {correlationId : String}
    {payload : ThreadSpawnRequestedPayload} {receipt : ThreadSpawnProjectionReceipt}
    {coordinates : ThreadCoordinates} {call : SpawnDispatch}

namespace Projecting

variable {σ ι : Type} [DecidableEq ι] {projecting : Projecting σ ι} {i j : ι}
  {w w' w'' : SpawnWorld σ ι}

/-! ### Reads -/

variable (projecting) in
/-- What was read of the stream, now or earlier. -/
structure Read (seen : List EventRecord) (w : SpawnWorld σ ι) : Prop where
  start : projecting.startEvents <+: seen
  seen : seen <+: projecting.events w

section
omit [DecidableEq ι]

theorem Read.lasts (seen : List EventRecord) : projecting.Lasts i (projecting.Read seen) :=
  fun _ _ h hrely => ⟨h.start, h.seen.trans hrely.grows⟩

theorem Read.nodup (h : projecting.Read seen w) : (seen.map (·.id)).Nodup :=
  (h.seen.sublist.map _).nodup ((projecting.store.journal w.store).nodup projecting.stream)

theorem Read.streamId (h : projecting.Read seen w) (hevent : event ∈ seen) :
    event.streamId = projecting.stream := by
  obtain ⟨n, hn⟩ := List.mem_iff_getElem?.mp (h.seen.subset hevent)
  exact ((projecting.store.journal w.store).placed projecting.stream n event hn).1

theorem Read.mono (h : projecting.Read seen w)
    (hgrows : projecting.events w <+: projecting.events w') : projecting.Read seen w' :=
  ⟨h.start, h.seen.trans hgrows⟩

end

theorem settles_framed {α : Type} {A : α → SpawnWorld σ ι → Prop}
    {B : SpawnError → SpawnWorld σ ι → Prop} {p : SpawnM α} (hread : projecting.Read seen w)
    (h : projecting.Settles i A B p w) :
    projecting.Settles i (fun a w' => A a w' ∧ projecting.Read seen w')
      (fun e w' => B e w' ∧ projecting.Read seen w') p w :=
  Settles.frame (Read.lasts seen)
    (fun _ _ _ _ hold hanswers => hold.mono (grows_of_serves hanswers.2)) hread h

/-- **A read** is of all that stands there. -/
theorem settles_readSpawnEvents (w : SpawnWorld σ ι) :
    projecting.Settles i
      (fun seen w' => projecting.Rely i w w' ∧ projecting.Read seen w' ∧ projecting.events w <+: seen)
      (fun _ w' => projecting.Rely i w w' ∧ i ∈ w'.mishaps)
      (readSpawnEvents projecting.stream) w := by
  refine settles_ask fun w₁ h₁ => ⟨trivial, ?_⟩
  rintro r w₂ ⟨hgood, hserves⟩
  have hquiet : Quiet (.readEvents projecting.stream) := trivial
  have h₂ := rely_of_serves hquiet hserves i
  obtain ⟨answers, w₃, hact, -, -, hnoted⟩ := serves_cases hserves
  obtain ⟨rfl, -⟩ := Prod.mk.inj hact
  refine settles_result (fun seen hseen w₄ h₄ => ?_) (fun e he w₄ h₄ => ?_)
  · obtain rfl := projecting.store.reads (orHistory_ok.mp (orSpawn_ok.mp hseen))
    exact ⟨(h₁.trans h₂).trans h₄, ⟨hgood.started, (h₂.trans h₄).grows⟩, h₁.grows⟩
  · refine ⟨(h₁.trans h₂).trans h₄, h₄.mishaps (hnoted ?_)⟩
    change (!Except.isOk (projecting.store.readEvents projecting.stream w₁.store)) = true
    cases hanswer : projecting.store.readEvents projecting.stream w₁.store with
    | ok found =>
      rw [hanswer] at he
      cases he
    | error e => rfl

/-! ### Fenced decisions -/

variable (projecting) in
/-- What a call that ends early leaves: it went on too long, or something went wrong. -/
def Stopped (i : ι) (e : SpawnError) (w : SpawnWorld σ ι) : Prop :=
  projecting.SettledBut i none w ∧ (e = divergedSpawn ∨ i ∈ w.mishaps)

section
omit [DecidableEq ι]

theorem Stopped.lasts (e : SpawnError) : projecting.Lasts i (projecting.Stopped i e) :=
  fun _ _ h hrely => ⟨SettledBut.lasts none _ _ h.1 hrely, h.2.imp id hrely.mishaps⟩

/-- **A claim that was taken** is still to be entered. -/
theorem pending_of_claim (hgood : projecting.Good w) (hsettled : projecting.SettledBut i none w)
    (hfenced : projecting.Fenced (projecting.events w) event)
    (happends : projecting.Appends i (isSpawnRequestClaim event) event w w')
    (hclaim : isSpawnRequestClaim event = true) (hraw : rawCorrelation event = some correlationId) :
    projecting.Pending i correlationId w' := by
  have hdecides : decides correlationId event = true :=
    decides_iff.mpr ⟨by simp [isSpawnDecision, hclaim], hraw⟩
  refine ⟨⟨event, happends.mem_claims.mpr (.inl ⟨hclaim, rfl, rfl⟩), hraw⟩, fun hmem => ?_, ?_⟩
  · rw [happends.entered] at hmem
    exact hgood.decided_ne_nil (hgood.entered i correlationId hmem) (hfenced.undecided hdecides)
  · rintro correlationId' hexcept ⟨claim, hmem, hraw'⟩
    rcases happends.mem_claims.mp hmem with ⟨-, -, rfl⟩ | hold
    · exact absurd (hraw.symm.trans hraw') hexcept
    · have hnot : decides correlationId' event = false := by
        rw [Bool.eq_false_iff]
        exact fun hother => hexcept (congrArg some (decides_unique hdecides hother))
      rcases hsettled correlationId' (by simp) ⟨claim, hold, hraw'⟩ with ⟨found, hfound, hkind⟩ | hmishap
      · exact .inl ⟨found, by rwa [happends.decided_eq hnot], hkind⟩
      · exact .inr (happends.mishaps ▸ hmishap)

/-- What is appended behind a fence and is no claim leaves what the call owns as it was. -/
theorem settled_of_fenced (hgood : projecting.Good w) (hsettled : projecting.SettledBut i none w)
    (hfenced : projecting.Fenced (projecting.events w) event)
    (happends : projecting.Appends i (isSpawnRequestClaim event) event w w')
    (hclaim : isSpawnRequestClaim event = false) : projecting.SettledBut i none w' := by
  rintro correlationId - ⟨claim, hmem, hraw⟩
  rcases happends.mem_claims.mp hmem with ⟨htrue, -⟩ | hold
  · rw [hclaim] at htrue
    cases htrue
  · have howns : Owns i correlationId w := ⟨claim, hold, hraw⟩
    have hnot : decides correlationId event = false := by
      rw [Bool.eq_false_iff]
      exact fun hdecides => hgood.decided_ne_nil howns (hfenced.undecided hdecides)
    rcases hsettled correlationId (by simp) howns with ⟨found, hfound, hkind⟩ | hmishap
    · exact .inl ⟨found, by rwa [happends.decided_eq hnot], hkind⟩
    · exact .inr (happends.mishaps ▸ hmishap)

end

variable (projecting) in
def Taken (i : ι) (decision : NewEventRecord) (w : SpawnWorld σ ι) : Prop :=
  ∃ sequence,
    (isSpawnRequestClaim (.fromNew projecting.stream sequence decision) = true → ∀ correlationId,
      rawCorrelation (.fromNew projecting.stream sequence decision) = some correlationId →
        projecting.Pending i correlationId w) ∧
    (isSpawnRequestClaim (.fromNew projecting.stream sequence decision) = false →
      projecting.SettledBut i none w)

omit [DecidableEq ι] in
theorem Taken.lasts (decision : NewEventRecord) :
    projecting.Lasts i (projecting.Taken i decision) := by
  rintro w w' ⟨sequence, hpending, hsettled⟩ hrely
  exact ⟨sequence, fun hclaim correlationId hraw =>
    Pending.lasts _ _ _ (hpending hclaim correlationId hraw) hrely,
    fun hclaim => SettledBut.lasts _ _ _ (hsettled hclaim) hrely⟩

variable (projecting) in
/-- What a fenced decision comes to: it was taken, or its request is projected already. -/
def Decision (i : ι) (decision : NewEventRecord) (appended : FencedDecisionAppend)
    (w : SpawnWorld σ ι) : Prop :=
  match appended with
  | some _ => projecting.Taken i decision w
  | none   => projecting.SettledBut i none w

/-- **A fenced append**, taken, in conflict or refused. -/
theorem settles_appendEventsFenced {β : Type} {C : β → SpawnWorld σ ι → Prop}
    {B : SpawnError → SpawnWorld σ ι → Prop} {record : NewEventRecord} {streamId : EventStreamId}
    {f : HistoryResult (List EventRecord) → SpawnM β} (hstream : streamId = projecting.stream)
    (hread : projecting.Read seen w)
    (hfences : ∀ sequence, projecting.Fenced seen (.fromNew projecting.stream sequence record))
    (hsettled : projecting.SettledBut i none w)
    (hconflict : ∀ streamId expected actual w', projecting.Read seen w' →
      projecting.SettledBut i none w' →
        projecting.Settles i C B (f (.error (.appendFenceConflict streamId expected actual))) w')
    (herror : ∀ e w', (∀ streamId expected actual, e ≠ .appendFenceConflict streamId expected actual) →
      projecting.SettledBut i none w' → i ∈ w'.mishaps → projecting.Settles i C B (f (.error e)) w')
    (hok : ∀ w', projecting.Taken i record w' →
      projecting.Settles i C B
        (f (.ok [.fromNew projecting.stream (nextSequence seen) record])) w') :
    projecting.Settles i C B
      (SpawnM.ask (.appendEventsFenced streamId (nextSequence seen) [record]) >>= f) w := by
  subst hstream
  refine settles_ask fun w₁ h₁ => ?_
  have hread₁ := Read.lasts _ _ _ hread h₁
  have hsettled₁ := SettledBut.lasts none _ _ hsettled h₁
  refine ⟨⟨rfl, seen, record, rfl, hread₁.seen, rfl, hfences⟩, ?_⟩
  rintro r w₂ ⟨hgood, hserves⟩
  rcases serves_appendEventsFenced hread₁.seen hserves with
    ⟨e, rfl, h₂, hcause⟩ | ⟨event, w₃, rfl, rfl, rfl, happends, h₂⟩
  · have hsettled₂ := SettledBut.lasts none _ _ hsettled₁ h₂
    by_cases hfenced : ∃ streamId expected actual, e = .appendFenceConflict streamId expected actual
    · obtain ⟨streamId, expected, actual, rfl⟩ := hfenced
      exact hconflict streamId expected actual w₂ (Read.lasts _ _ _ hread₁ h₂) hsettled₂
    · refine herror e w₂ (fun streamId expected actual heq => ?_) hsettled₂
        (hcause.resolve_left hfenced)
      exact hfenced ⟨streamId, expected, actual, heq⟩
  · refine hok w₂ (Taken.lasts record _ _ ⟨nextSequence (projecting.events w₁),
      fun hclaim id hraw => ?_, fun hclaim => ?_⟩ h₂)
    · exact pending_of_claim hgood hsettled₁ (hfences _) happends hclaim hraw
    · exact settled_of_fenced hgood hsettled₁ (hfences _) happends hclaim

theorem checkAppended_same (event : EventRecord) : checkAppended event [event] = .ok event.id := by
  simp [checkAppended]

-- from here on a program is taken apart by its rules alone
attribute [local irreducible] Proc.Settles Proc.Makes

/-- **A fenced decision** is taken where nothing has projected its request, or is none. -/
theorem settles_appendFencedDecision {correlationId : Option String} {decision : NewEventRecord}
    {base : List EventRecord} (hstream : request.streamId = projecting.stream)
    (hfenced : ∀ seen sequence, base <+: seen →
      spawnRequestAlreadyProjected seen request.id correlationId = false →
        projecting.Fenced seen (.fromNew projecting.stream sequence decision)) (fuel : Nat)
    (hbase : base <+: seen) (hread : projecting.Read seen w)
    (hsettled : projecting.SettledBut i none w) :
    projecting.Settles i (projecting.Decision i decision) (projecting.Stopped i)
      (appendFencedDecision request correlationId decision fuel seen) w := by
  induction fuel generalizing seen w with
  | zero =>
    exact Settles.throw fun w' hrely =>
      ⟨SettledBut.lasts none _ _ hsettled hrely, .inl rfl⟩
  | succ fuel ih =>
    unfold appendFencedDecision
    cases hprojected : spawnRequestAlreadyProjected seen request.id correlationId with
    | true =>
      rw [if_pos rfl]
      exact Settles.pure fun w' hrely => SettledBut.lasts none _ _ hsettled hrely
    | false =>
      rw [if_neg Bool.false_ne_true]
      refine settles_appendEventsFenced hstream hread
        (fun sequence => hfenced seen sequence hbase hprojected) hsettled
        (fun streamId expected actual w₁ hread₁ hsettled₁ => ?_)
        (fun e w₁ hother hsettled₁ hmishap => ?_) (fun w₁ htaken => ?_)
      · dsimp only
        rw [hstream]
        refine settles_then (fun e => Stopped.lasts e) (fun e w' herror => ?_)
          (settles_readSpawnEvents w₁) fun later w₂ hlater => ?_
        · exact ⟨SettledBut.lasts none _ _ hsettled₁ herror.1, .inr herror.2⟩
        · obtain ⟨h₂, hread₂, hall⟩ := hlater
          exact ih ((hbase.trans hread₁.seen).trans hall) hread₂
            (SettledBut.lasts none _ _ hsettled₁ h₂)
      · cases e with
        | appendFenceConflict streamId expected actual => exact absurd rfl (hother _ _ _)
        | _ =>
          exact Settles.throw fun w₂ h₂ =>
            ⟨SettledBut.lasts none _ _ hsettled₁ h₂, .inr (h₂.mishaps hmishap)⟩
      · dsimp only
        rw [hstream, checkAppended_same]
        exact Settles.pure fun w₂ h₂ => Taken.lasts decision _ _ htaken h₂

variable (projecting) in
/-- What `claim_request` comes to: the claim was taken, or the request is projected already. -/
def Claimed (i : ι) (correlationId : String) (appended : FencedDecisionAppend)
    (w : SpawnWorld σ ι) : Prop :=
  match appended with
  | some _ => projecting.Pending i correlationId w
  | none   => projecting.SettledBut i none w

theorem settles_claimRequest (fuel : Nat) (hread : projecting.Read seen w) (hmem : request ∈ seen)
    (hrequest : isSpawnRequest request = true)
    (hdecode : Wire.spawnRequested.fromValue request.payload = .ok payload)
    (hsettled : projecting.SettledBut i none w) :
    projecting.Settles i (projecting.Claimed i payload.correlationId) (projecting.Stopped i)
      (claimRequest fuel request payload.correlationId seen) w := by
  refine settles_quiet trivial fun (draw : Draw) w₁ h₁ => ?_
  refine Settles.imp (fun appended w₂ hdecision => ?_) (fun _ _ hstopped => hstopped)
    (settles_appendFencedDecision (hread.streamId hmem)
      (fun later sequence hlater hprojected => .claim (hlater.subset hmem) hrequest hdecode rfl
        (decisions_of_unprojected hprojected))
      fuel (List.prefix_refl seen) (Read.lasts _ _ _ hread h₁) (SettledBut.lasts none _ _ hsettled h₁))
  cases appended with
  | none => exact hdecision
  | some id =>
    obtain ⟨sequence, hpending, -⟩ := hdecision
    exact hpending isSpawnRequestClaim_spawnClaim _ (requested_correlation hdecode)

/-! ### Projections -/

theorem settles_recordPreclaimFailure {correlationId : Option String} {reason : String} (fuel : Nat)
    (hread : projecting.Read seen w) (hmem : request ∈ seen)
    (hraw : correlationId = none → rawCorrelation request = none)
    (hsettled : projecting.SettledBut i none w) :
    projecting.Settles i (fun _ => projecting.SettledBut i none)
      (fun _ => projecting.SettledBut i none)
      (recordPreclaimFailure fuel receipt coordinates request correlationId reason seen) w := by
  refine settles_quiet trivial fun (draw : Draw) w₁ h₁ => ?_
  refine settles_then (fun _ => SettledBut.lasts none) (fun _ _ hstopped => hstopped.1)
    (settles_appendFencedDecision (hread.streamId hmem) (fun later sequence _ hprojected => ?_)
      fuel (List.prefix_refl seen) (Read.lasts _ _ _ hread h₁) (SettledBut.lasts none _ _ hsettled h₁))
    fun appended w₂ hdecision => ?_
  · refine .denied rfl fun correlationId' hraw' => ?_
    rw [rawCorrelation_failureRecord] at hraw'
    cases correlationId with
    | none =>
      rw [hraw rfl] at hraw'
      cases hraw'
    | some correlationId =>
      obtain rfl := Option.some.inj hraw'
      exact decisions_of_unprojected hprojected
  · cases appended with
    | none => exact Settles.pure fun w₃ h₃ => SettledBut.lasts none _ _ hdecision h₃
    | some failureEventId =>
      obtain ⟨sequence, -, hsettled₂⟩ := hdecision
      exact Settles.pure fun w₃ h₃ => SettledBut.lasts none _ _ (hsettled₂ rfl) h₃

section
omit [DecidableEq ι]

theorem Witnessed.settled {child : ThreadId} (h : projecting.Witnessed i correlationId child w) :
    projecting.SettledBut i none w := by
  obtain ⟨claim, spawned, -, hkind, -, hholds⟩ := h
  exact hholds.settled (.inl ⟨spawned, List.mem_cons_of_mem _ List.mem_cons_self, .inl hkind⟩)

theorem Denied.settled (h : projecting.Denied i correlationId w) :
    projecting.SettledBut i none w := by
  obtain ⟨events, denied, hkind, hholds, -⟩ := h
  exact hholds.settled (.inl ⟨denied, List.mem_append_right _ List.mem_cons_self, .inr hkind⟩)

end

theorem settles_projectUnclaimed {parent : LiveThread} (fuel : Nat) (hread : projecting.Read seen w)
    (hmem : request ∈ seen) (hrequest : isSpawnRequest request = true)
    (hdecode : Wire.spawnRequested.fromValue request.payload = .ok payload)
    (hparent : payload.parentThreadId = projecting.parent)
    (hsettled : projecting.SettledBut i none w) :
    projecting.Settles i (fun _ => projecting.SettledBut i none)
      (fun _ => projecting.SettledBut i none)
      (projectUnclaimed projecting.setup fuel coordinates receipt request payload parent seen) w := by
  refine settles_then (fun _ => SettledBut.lasts none) (fun _ _ hstopped => hstopped.1)
    (settles_claimRequest fuel hread hmem hrequest hdecode hsettled) fun appended w₁ hclaimed => ?_
  cases appended with
  | none => exact Settles.pure fun w₂ h₂ => SettledBut.lasts none _ _ hclaimed h₂
  | some id =>
    refine Settles.attempt (Rely.refl i)
      (Settles.imp (fun projected w₂ hwitnessed w₃ h₃ => ?_) (fun e w₂ hfailed w₃ h₃ => ?_)
        (settles_projectClaimed hparent hclaimed))
    · exact Settles.pure fun w₄ h₄ => SettledBut.lasts none _ _ hwitnessed.settled (h₃.trans h₄)
    · refine settles_then (fun _ => SettledBut.lasts none) (fun _ _ hstopped => hstopped.1)
        (settles_appendFailure (hread.streamId hmem) (requested_correlation hdecode)
          (Failed.lasts _ _ _ hfailed h₃)) fun failure w₄ hdenied => ?_
      exact Settles.pure fun w₅ h₅ => SettledBut.lasts none _ _ hdenied.settled h₅

theorem settles_projectPlaced (fuel : Nat) (hread : projecting.Read seen w) (hmem : request ∈ seen)
    (hrequest : isSpawnRequest request = true)
    (hdecode : Wire.spawnRequested.fromValue request.payload = .ok payload)
    (hparent : payload.parentThreadId = projecting.parent)
    (hsettled : projecting.SettledBut i none w) :
    projecting.Settles i (fun _ => projecting.SettledBut i none)
      (fun _ => projecting.SettledBut i none)
      (projectPlaced projecting.setup fuel coordinates receipt request payload seen) w := by
  refine settles_quiet trivial fun found w₁ h₁ => ?_
  have hread₁ := Read.lasts _ _ _ hread h₁
  have hsettled₁ := SettledBut.lasts none _ _ hsettled h₁
  cases found with
  | error error =>
    exact settles_recordPreclaimFailure fuel hread₁ hmem (fun hnone => by cases hnone) hsettled₁
  | ok parent =>
    dsimp only
    split
    · exact settles_recordPreclaimFailure fuel hread₁ hmem (fun hnone => by cases hnone) hsettled₁
    · exact settles_projectUnclaimed fuel hread₁ hmem hrequest hdecode hparent hsettled₁

theorem parent_of_misplacedRequest {setup : SpawnSetup}
    (h : misplacedRequest setup coordinates request payload = none) :
    payload.parentThreadId = coordinates.threadId := by
  unfold misplacedRequest at h
  split at h
  · cases h
  · split at h
    · cases h
    · split at h
      · cases h
      · rename_i hsame
        exact not_not.mp hsame

theorem settles_projectRequest (fuel : Nat)
    (hcoordinates : coordinates.threadId = projecting.parent) (hread : projecting.Read seen w)
    (hmem : request ∈ seen) (hrequest : isSpawnRequest request = true)
    (hsettled : projecting.SettledBut i none w) :
    projecting.Settles i (fun _ => projecting.SettledBut i none)
      (fun _ => projecting.SettledBut i none)
      (projectRequest projecting.setup fuel coordinates receipt request seen) w := by
  unfold projectRequest
  cases hdecode : Wire.spawnRequested.fromValue request.payload with
  | error err => exact settles_recordPreclaimFailure fuel hread hmem id hsettled
  | ok payload =>
    dsimp only
    split
    · exact Settles.pure fun w' hrely => SettledBut.lasts none _ _ hsettled hrely
    · cases hmisplaced : misplacedRequest projecting.setup coordinates request payload with
      | some reason =>
        exact settles_recordPreclaimFailure fuel hread hmem (fun hnone => by cases hnone) hsettled
      | none =>
        have hparent := (parent_of_misplacedRequest hmisplaced).trans hcoordinates
        exact settles_projectPlaced fuel hread hmem hrequest hdecode hparent hsettled

theorem settles_projectRest {requests first : List EventRecord} (fuel : Nat)
    (hcoordinates : coordinates.threadId = projecting.parent) (hfirst : projecting.Read first w)
    (hrequests : ∀ request ∈ requests, request ∈ first ∧ isSpawnRequest request = true)
    (hsettled : projecting.SettledBut i none w) :
    projecting.Settles i (fun _ => projecting.SettledBut i none)
      (fun _ => projecting.SettledBut i none)
      (projectRest projecting.setup fuel coordinates requests receipt) w := by
  have hstream : controlStreamId coordinates = projecting.stream := by
    rw [controlStreamId, hcoordinates, stream]
  induction requests generalizing receipt w with
  | nil => exact Settles.pure fun w' hrely => SettledBut.lasts none _ _ hsettled hrely
  | cons request requests ih =>
    unfold projectRest
    rw [hstream]
    refine settles_then (fun _ => SettledBut.lasts none) (fun _ w' herror => ?_)
      (settles_readSpawnEvents w) fun seen w₁ hseen => ?_
    · exact SettledBut.lasts none _ _ hsettled herror.1
    · obtain ⟨h₁, hread, hall⟩ := hseen
      obtain ⟨hmem, hrequest⟩ := hrequests request List.mem_cons_self
      have hmem₁ := hall.subset (hfirst.seen.subset hmem)
      refine settles_then (fun _ => SettledBut.lasts none) (fun _ _ hframed => hframed.1)
        (settles_framed (hfirst.mono h₁.grows)
          (settles_projectRequest fuel hcoordinates hread hmem₁ hrequest
            (SettledBut.lasts none _ _ hsettled h₁)))
        fun receipt w₂ hframed => ?_
      exact ih hframed.2 (fun later hlater => hrequests later (List.mem_cons_of_mem _ hlater))
        hframed.1

/-- **A projection** leaves what it claimed concluded. -/
theorem settles_project (fuel : Nat) (hcoordinates : coordinates.threadId = projecting.parent)
    (hsettled : projecting.SettledBut i none w) :
    projecting.Settles i (fun _ => projecting.SettledBut i none)
      (fun _ => projecting.SettledBut i none)
      (projectControlStream projecting.setup fuel coordinates) w := by
  have hstream : controlStreamId coordinates = projecting.stream := by
    rw [controlStreamId, hcoordinates, stream]
  unfold projectControlStream
  rw [hstream]
  refine settles_then (fun _ => SettledBut.lasts none) (fun _ w' herror => ?_)
    (settles_readSpawnEvents w) fun seen w₁ hseen => ?_
  · exact SettledBut.lasts none _ _ hsettled herror.1
  · obtain ⟨h₁, hread, -⟩ := hseen
    have hsettled₁ := SettledBut.lasts none _ _ hsettled h₁
    cases hrequests : seen.filter isSpawnRequest with
    | nil => exact Settles.pure fun w' hrely => SettledBut.lasts none _ _ hsettled₁ hrely
    | cons request requests =>
      have hmem : ∀ later ∈ request :: requests, later ∈ seen ∧ isSpawnRequest later = true := by
        intro later hlater
        rw [← hrequests] at hlater
        exact List.mem_filter.mp hlater
      obtain ⟨hfirst, hrequest⟩ := hmem request List.mem_cons_self
      refine settles_then (fun _ => SettledBut.lasts none) (fun _ _ hframed => hframed.1)
        (settles_framed hread
          (settles_projectRequest fuel hcoordinates hread hfirst hrequest hsettled₁))
        fun receipt w₂ hframed => ?_
      exact settles_projectRest fuel hcoordinates hframed.2
        (fun later hlater => hmem later (List.mem_cons_of_mem _ hlater)) hframed.1

/-! ### Dispatches -/

variable (projecting)

structure Answered (call : SpawnDispatch) (handle : HandleId) (w : SpawnWorld σ ι) : Prop where
  parent : call.payload.parentThreadId = call.coordinates.threadId
  request : ∃ seen request payload, projecting.Read seen w ∧
    Requested call seen request payload true
  handle : spawnedHandle call.payload.correlationId (projecting.events w) = some handle

inductive Refused (call : SpawnDispatch) (w : SpawnWorld σ ι) : Prop
  | parent (h : call.payload.parentThreadId ≠ call.coordinates.threadId)
  | name {seen : List EventRecord} {e : SpawnError} (hread : projecting.Read seen w)
      (hfirst : firstRequest call.dispatchId seen = none) (hname : checkTaskName call seen = .error e)
  | scope {seen : List EventRecord} {request : EventRecord} {payload : ThreadSpawnRequestedPayload}
      (hread : projecting.Read seen w) (h : Requested call seen request payload false)
  | denied {seen : List EventRecord} {event : EventRecord} (hread : projecting.Read seen w)
      (hhandle : spawnedHandle call.payload.correlationId seen = none) (hmem : event ∈ seen)
      (hdenied : deniedWith call.payload.correlationId event = true)

def Succeeds (i : ι) (call : SpawnDispatch) (receipt : ThreadSpawnDispatchReceipt)
    (w : SpawnWorld σ ι) : Prop :=
  projecting.SettledBut i none w ∧ projecting.Answered call receipt.handle w

def Fails (i : ι) (call : SpawnDispatch) (e : SpawnError) (w : SpawnWorld σ ι) : Prop :=
  projecting.SettledBut i none w ∧ (e = divergedSpawn ∨ i ∈ w.mishaps ∨ projecting.Refused call w)

variable {projecting}

section
omit [DecidableEq ι]

theorem Succeeds.lasts (call : SpawnDispatch) (receipt : ThreadSpawnDispatchReceipt) :
    projecting.Lasts i (projecting.Succeeds i call receipt) := by
  rintro w w' ⟨hsettled, hparent, ⟨seen, request, payload, hread, hrequested⟩, hhandle⟩ hrely
  exact ⟨SettledBut.lasts none _ _ hsettled hrely, hparent,
    ⟨seen, request, payload, Read.lasts _ _ _ hread hrely, hrequested⟩,
    spawnedHandle_mono hrely.grows hhandle⟩

theorem Fails.lasts (call : SpawnDispatch) (e : SpawnError) :
    projecting.Lasts i (projecting.Fails i call e) := by
  rintro w w' ⟨hsettled, hcause⟩ hrely
  refine ⟨SettledBut.lasts none _ _ hsettled hrely, hcause.imp id (.imp hrely.mishaps fun h => ?_)⟩
  cases h with
  | parent h => exact .parent h
  | name hread hfirst hname => exact .name (Read.lasts _ _ _ hread hrely) hfirst hname
  | scope hread h => exact .scope (Read.lasts _ _ _ hread hrely) h
  | denied hread hhandle hmem hdenied =>
    exact .denied (Read.lasts _ _ _ hread hrely) hhandle hmem hdenied

theorem Stopped.fails {e : SpawnError} (h : projecting.Stopped i e w) :
    projecting.Fails i call e w := ⟨h.1, h.2.imp id .inl⟩

theorem Witnessed.handle {child : ThreadId} (h : projecting.Witnessed i correlationId child w) :
    spawnedHandle correlationId (projecting.events w) = some (.thread child) := by
  obtain ⟨claim, spawned, hclaim, hkind, hchild, hholds⟩ := h
  have hnot : claim.kind ≠ .threadSpawned := by
    intro hspawned
    simp [isSpawnRequestClaim, hspawned] at hclaim
  rw [spawnedHandle, find?_spawnedWith, ← Projecting.decided, hholds.decided]
  simp [hnot, hkind, hchild]

/-- **A failure that a dispatch recorded** is a refusal. -/
theorem Denied.fails {e : SpawnError} (hdispatch : (projecting.calls i).isDispatch = true)
    (hread : projecting.Read seen w) (h : projecting.Denied i call.payload.correlationId w) :
    projecting.Fails i call e w := by
  refine ⟨h.settled, .inr ?_⟩
  obtain ⟨events, denied, hkind, hholds, hnone⟩ := h
  rcases hnone hdispatch with hmishap | hnone
  · exact .inl hmishap
  · have hdenied : denied ∈ projecting.decided call.payload.correlationId w := by
      rw [hholds.decided]
      exact List.mem_append_right _ List.mem_cons_self
    obtain ⟨hmem, hdecides⟩ := mem_decisions.mp hdenied
    refine .inr (.denied ⟨hread.start.trans hread.seen, List.prefix_refl _⟩ ?_ hmem ?_)
    · rw [spawnedHandle, find?_spawnedWith, ← Projecting.decided, hholds.decided,
        List.find?_eq_none.mpr fun event hevent => ?_, Option.bind_none]
      rcases List.mem_append.mp hevent with hold | hlast
      · simpa using hnone event hold
      · rw [List.mem_singleton.mp hlast]
        simp [hkind]
    · exact decide_eq_true ⟨hkind, (decides_iff.mp hdecides).2⟩

theorem settled_of_mishap (hmishap : i ∈ w.mishaps) : projecting.SettledBut i none w :=
  fun _ _ _ => .inr hmishap

end

theorem Pending.hasPending (h : projecting.Pending i correlationId w) : hasPending i w = true := by
  obtain ⟨claim, hclaim, hraw⟩ := h.owns
  refine List.any_eq_true.mpr ⟨(i, claim), hclaim, decide_eq_true ⟨rfl, ?_⟩⟩
  refine List.all_eq_true.mpr fun entry hentry => decide_eq_true ?_
  rintro ⟨hi, hsame⟩
  obtain ⟨j, correlationId'⟩ := entry
  obtain rfl : j = i := hi
  obtain rfl := Option.some.inj (hraw.symm.trans hsame)
  exact h.entered hentry

variable (hcall : projecting.calls i = .dispatch call)

include hcall

/-- **A dispatch whose claim was taken** answers with its child, or records why not. -/
theorem settles_dispatchClaimed (hparent : call.payload.parentThreadId = call.coordinates.threadId)
    (hread : projecting.Read seen w) (hrequested : Requested call seen request payload true)
    (hpending : projecting.Pending i call.payload.correlationId w) :
    projecting.Settles i (projecting.Succeeds i call) (projecting.Fails i call)
      (dispatchClaimed projecting.setup call request) w := by
  obtain ⟨hmem, -, hdecode, hid⟩ := firstRequest_some hrequested.first
  have hid : payload.correlationId = call.payload.correlationId := hid
  have hdispatch : (projecting.calls i).isDispatch = true := by rw [hcall]; rfl
  have hplaced : call.coordinates.threadId = projecting.parent := by
    have hplaced := projecting.placed i
    rw [hcall] at hplaced
    exact hplaced
  refine settles_noting trivial fun found w₁ w₂ h₁ h₂ hnoted => ?_
  have hpending₁ := Pending.lasts _ _ _ hpending h₁
  have hpending₂ := Pending.lasts _ _ _ hpending₁ h₂
  have hread₂ := Read.lasts _ _ _ hread (h₁.trans h₂)
  refine settles_given (fun parent _ => ?_) (fun e he w₃ h₃ => ?_)
  · refine settles_given (fun decoded hdecoded => ?_) (fun e he w₃ h₃ => ?_)
    · obtain rfl := Except.ok.inj (hdecode.symm.trans (decodeOr_ok.mp (orSpawn_ok.mp hdecoded)))
      rw [← hid] at hpending₂
      refine Settles.attempt (Rely.refl i)
        (Settles.imp (fun projected w₃ hdone w₄ h₄ => ?_) (fun e w₃ hdone w₄ h₄ => ?_)
          (settles_framed hread₂ (settles_projectClaimed hplaced hpending₂)))
      · have hwitnessed := Witnessed.lasts _ _ _ _ hdone.1 h₄
        have hread₄ := Read.lasts _ _ _ hdone.2 h₄
        refine Settles.pure fun w₅ h₅ => Succeeds.lasts call _ _ _ ⟨hwitnessed.settled, ?_⟩ h₅
        exact ⟨hparent, ⟨seen, request, payload, hread₄, hrequested⟩, hid ▸ hwitnessed.handle⟩
      · have hfailed := Failed.lasts _ _ _ hdone.1 h₄
        rw [hid] at hfailed
        refine settles_then (fun e => Fails.lasts call e) (fun _ _ hstopped => ?_)
          (settles_framed (Read.lasts _ _ _ hdone.2 h₄)
            (settles_appendFailure (hread.streamId hmem) rfl hfailed)) fun failure w₅ hdenied => ?_
        · exact ⟨hstopped.1.1, .inr (.inl hstopped.1.2)⟩
        · exact Settles.throw fun w₆ h₆ =>
          Fails.lasts call _ _ _ (Denied.fails hdispatch hdenied.2 hdenied.1) h₆
    · rw [decodeSpawnRequest, decodeOr, hdecode] at he
      cases he
  · have hmishap : i ∈ w₂.mishaps := by
      refine hnoted ?_
      obtain rfl : found = .error e := he
      exact hpending₁.hasPending
    exact Fails.lasts call e _ _ ⟨settled_of_mishap hmishap, .inr (.inl hmishap)⟩ h₃

theorem settles_appendSpawnRequest
    (hread : projecting.Read seen w) (hfirst : firstRequest call.dispatchId seen = none)
    (hname : checkTaskName call seen = .ok ()) (hsettled : projecting.SettledBut i none w) :
    projecting.Settles i (fun _ => projecting.SettledBut i none) (projecting.Stopped i)
      (appendSpawnRequest call seen) w := by
  have hstream : controlStreamId call.coordinates = projecting.stream := by
    have hstream := projecting.controlStreamId_eq i
    rw [hcall] at hstream
    exact hstream
  refine settles_quiet trivial fun (draw : Draw) w₁ h₁ => ?_
  have hread₁ := Read.lasts _ _ _ hread h₁
  have hsettled₁ := SettledBut.lasts none _ _ hsettled h₁
  refine settles_appendEventsFenced hstream hread₁ (fun _ => .request hcall rfl hfirst hname) hsettled₁
    (fun streamId expected actual w₂ _ hsettled₂ => ?_) (fun e w₂ hother hsettled₂ hmishap => ?_)
    (fun w₂ htaken => ?_)
  · exact Settles.pure fun w₃ h₃ => SettledBut.lasts none _ _ hsettled₂ h₃
  · cases e with
    | appendFenceConflict streamId expected actual => exact absurd rfl (hother _ _ _)
    | _ =>
      exact Settles.throw fun w₃ h₃ =>
        ⟨SettledBut.lasts none _ _ hsettled₂ h₃, .inr (h₃.mishaps hmishap)⟩
  · obtain ⟨sequence, -, hsettled₂⟩ := htaken
    exact Settles.pure fun w₃ h₃ =>
      SettledBut.lasts none _ _ (hsettled₂ isSpawnRequestClaim_spawnRequest) h₃

/-- **The loop of a dispatch**: it answers what the stream says, or claims. -/
theorem settles_dispatchLoop
    (hparent : call.payload.parentThreadId = call.coordinates.threadId) (fuel : Nat)
    (hsettled : projecting.SettledBut i none w) :
    projecting.Settles i (projecting.Succeeds i call) (projecting.Fails i call)
      (dispatchLoop projecting.setup call fuel) w := by
  have hstream : controlStreamId call.coordinates = projecting.stream := by
    have hstream := projecting.controlStreamId_eq i
    rw [hcall] at hstream
    exact hstream
  induction fuel generalizing w with
  | zero =>
    exact Settles.throw fun w' hrely =>
      ⟨SettledBut.lasts none _ _ hsettled hrely, .inl rfl⟩
  | succ fuel ih =>
    unfold dispatchLoop
    rw [hstream]
    refine settles_then (fun e => Fails.lasts call e) (fun e w' herror => ?_)
      (settles_readSpawnEvents w) fun seen w₁ hseen => ?_
    · exact ⟨SettledBut.lasts none _ _ hsettled herror.1, .inr (.inl herror.2)⟩
    · obtain ⟨h₁, hread, -⟩ := hseen
      have hsettled₁ := SettledBut.lasts none _ _ hsettled h₁
      have hfinds := finds_dispatchNext call hread.nodup
      refine settles_given (fun next hnext => ?_) (fun e hnext w₂ h₂ => ?_)
      · rw [hnext] at hfinds
        cases hfinds with
        | answer hrequested hhandle =>
          refine Settles.pure fun w₂ h₂ => Succeeds.lasts call _ _ _ ⟨hsettled₁, hparent, ?_, ?_⟩ h₂
          · exact ⟨seen, _, _, hread, hrequested⟩
          · exact spawnedHandle_mono hread.seen hhandle
        | await hrequested =>
          refine settles_noting trivial fun waitOver w₂ w₃ h₂ h₃ hnoted => ?_
          have hsettled₃ := SettledBut.lasts none _ _ hsettled₁ (h₂.trans h₃)
          cases waitOver with
          | false => exact ih hsettled₃
          | true =>
            exact Settles.throw fun w₄ h₄ =>
              Fails.lasts call _ _ _ ⟨hsettled₃, .inr (.inl (hnoted rfl))⟩ h₄
        | claim hrequested =>
          obtain ⟨hmem, hrequest, hdecode, hid⟩ := firstRequest_some hrequested.first
          have hclaimed := settles_claimRequest fuel hread hmem hrequest hdecode hsettled₁
          rw [hid] at hclaimed
          refine settles_then (fun e => Fails.lasts call e) (fun _ _ hframed => hframed.1.fails)
            (settles_framed hread hclaimed) fun appended w₂ hframed => ?_
          cases appended with
          | none => exact ih hframed.1
          | some id =>
            exact settles_dispatchClaimed hcall hparent hframed.2 hrequested hframed.1
        | request hfirst hname =>
          exact settles_then (fun e => Fails.lasts call e) (fun _ _ hstopped => hstopped.fails)
            (settles_appendSpawnRequest hcall hread hfirst hname hsettled₁)
            fun _ w₂ hsettled₂ => ih hsettled₂
      · refine Fails.lasts call e _ _ ⟨hsettled₁, .inr (.inr ?_)⟩ h₂
        rw [hnext] at hfinds
        cases hfinds with
        | nameRefused hfirst hname => exact .name hread hfirst hname
        | outOfScope hrequested => exact .scope hread hrequested
        | denied hrequested hhandle hreason =>
          obtain ⟨event, hfind, -⟩ := Option.bind_eq_some_iff.mp hreason
          exact .denied hread hhandle (List.mem_of_find?_eq_some hfind)
            (List.find?_some hfind)

/-- **A dispatch** leaves what it claimed concluded, and what it answers stands on the stream. -/
theorem settles_dispatch (fuel : Nat) (hsettled : projecting.SettledBut i none w) :
    projecting.Settles i (projecting.Succeeds i call) (projecting.Fails i call)
      (dispatchRequestWithAuthority projecting.setup fuel call) w := by
  unfold dispatchRequestWithAuthority
  split
  · rename_i hparent
    exact Settles.throw fun w' hrely =>
      ⟨SettledBut.lasts none _ _ hsettled hrely, .inr (.inr (.parent hparent))⟩
  · rename_i hparent
    exact settles_dispatchLoop hcall (not_not.mp hparent) fuel hsettled

end Projecting

end Verlet.Kernel
