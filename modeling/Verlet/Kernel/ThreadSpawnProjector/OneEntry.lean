import Verlet.Kernel.ThreadSpawnProjector.Claims

/-!
# Kernel — The thread spawn projector — One entry

In every run of dispatches and projections on one parent's control stream `project_claimed` is entered
at most once for a correlation id: a claim is fenced behind all that the stream said when it was
decided to claim, so the claim that is taken is the first decision of its correlation id, and only who
appended it goes on.
-/

namespace Verlet.Kernel
open Support Io
open History (ThreadCoordinates)
open SpawnM

namespace Projecting

variable {σ ι : Type} [DecidableEq ι] {projecting : Projecting σ ι} {i j : ι}
  {w w' : SpawnWorld σ ι}

/-! ### Whole calls -/

variable (projecting)

/-- What a call that succeeds leaves. -/
def Done (i : ι) (outcome : SpawnOutcome) (w : SpawnWorld σ ι) : Prop :=
  projecting.SettledBut i none w ∧ ∀ call, projecting.calls i = .dispatch call →
    ∃ receipt, outcome = .inl receipt ∧ projecting.Answered call receipt.handle w

/-- What a call that fails leaves. -/
def Undone (i : ι) (e : SpawnError) (w : SpawnWorld σ ι) : Prop :=
  projecting.SettledBut i none w ∧ ∀ call, projecting.calls i = .dispatch call →
    e = divergedSpawn ∨ i ∈ w.mishaps ∨ projecting.Refused call w

variable {projecting}

omit [DecidableEq ι] in
theorem Undone.lasts (e : SpawnError) : projecting.Lasts i (projecting.Undone i e) := by
  rintro w w' ⟨hsettled, hcause⟩ hrely
  exact ⟨SettledBut.lasts none _ _ hsettled hrely, fun call hcall =>
    (Fails.lasts call e _ _ ⟨hsettled, hcause call hcall⟩ hrely).2⟩

attribute [local irreducible] Proc.Settles in
/-- **A whole call.** -/
theorem settles_program (hsettled : projecting.SettledBut i none w) :
    projecting.Settles i (projecting.Done i) (projecting.Undone i)
      ((projecting.calls i).program projecting.setup (projecting.fuel i)) w := by
  have hplaced := projecting.placed i
  cases hcall : projecting.calls i with
  | dispatch call =>
    have hsame : ∀ {call'}, projecting.calls i = .dispatch call' → call' = call := by
      intro call' hcall'
      exact (SpawnEntry.dispatch.inj (hcall.symm.trans hcall')).symm
    refine settles_then (fun e => Undone.lasts e) (fun e w' hfails => ⟨hfails.1, ?_⟩)
      (settles_dispatch hcall (projecting.fuel i) hsettled) fun receipt w₁ hdone => ?_
    · intro call' hcall'
      obtain rfl := hsame hcall'
      exact hfails.2
    · refine Proc.Settles.pure fun w₂ h₂ => ?_
      obtain ⟨hsettled₂, hanswered⟩ := Succeeds.lasts call receipt _ _ hdone h₂
      refine ⟨hsettled₂, fun call' hcall' => ⟨receipt, rfl, ?_⟩⟩
      obtain rfl := hsame hcall'
      exact hanswered
  | project coordinates =>
    have hnone : ∀ {call'}, projecting.calls i ≠ .dispatch call' := by
      intro call' hcall'
      cases hcall.symm.trans hcall'
    rw [hcall] at hplaced
    refine settles_then (fun e => Undone.lasts e)
      (fun e w' hsettled' => ⟨hsettled', fun _ hcall' => absurd hcall' hnone⟩)
      (settles_project (projecting.fuel i) hplaced hsettled) fun receipt w₁ hsettled₁ => ?_
    exact Proc.Settles.pure fun w₂ h₂ => ⟨SettledBut.lasts none _ _ hsettled₁ h₂,
      fun _ hcall' => absurd hcall' hnone⟩

/-! ### Every run -/

variable (projecting) in
def ways : Pool.Ways ι SpawnCall SpawnCall.Reply (SpawnResult SpawnOutcome) (SpawnWorld σ ι) where
  good := projecting.Good
  waits i w := ∀ claim, (i, claim) ∉ w.claims
  rely := projecting.Rely
  asks := projecting.asks
  answers := projecting.answers
  ends i := Proc.EndsIn (projecting.Done i) (projecting.Undone i)

theorem sound : projecting.ways.Sound projecting.starts projecting.serves projecting.others where
  refl i w _ := .refl i w
  trans _ _ _ _ := .trans
  waits i w w' hrely hwaits claim hclaim := hwaits claim ((hrely.claims claim).mp hclaim)
  start i w p _ hwaits hstarts := by
    obtain rfl := hstarts
    refine settles_program fun correlationId _ howns => ?_
    obtain ⟨claim, hclaim, -⟩ := howns
    exact absurd hclaim (hwaits claim)
  call i call w r w' hgood hasks hserves :=
    ⟨(hgood.call hasks hserves).1, ⟨hgood, hserves⟩, (hgood.call hasks hserves).2⟩
  other w w' hgood hother := ⟨hgood.other hother, rely_of_others hother⟩

omit [DecidableEq ι] in
theorem good_begin : projecting.Good projecting.begin := by
  refine ⟨List.prefix_refl _, fun before event hstart hbefore => ?_, fun i claim hclaim => ?_, .nil,
    fun i correlationId hmem => ?_, .nil, fun i claim correlationId hclaim => ?_⟩
  · have hlength := (hstart.length_le).trans_lt
      (Nat.lt_of_lt_of_le (by simp) hbefore.length_le)
    exact absurd hlength (Nat.lt_irrefl _)
  · exact (List.not_mem_nil hclaim).elim
  · exact (List.not_mem_nil hmem).elim
  · exact (List.not_mem_nil hclaim).elim

theorem kept_of_reaches {pool : Calls σ ι} (h : projecting.Reaches pool) :
    Pool.Kept projecting.ways pool :=
  h.kept sound good_begin fun _ _ hclaim => List.not_mem_nil hclaim

/-- **A spawn runs its child effect at most once**, in every run: `project_claimed` is entered at most
once for a correlation id, by the caller that appended its claim, the first that was decided of it;
and where it is about to be entered, nothing but that claim is decided. -/
theorem spawn_enters_once (projecting : Projecting σ ι) (pool : Calls σ ι)
    (h : projecting.Reaches pool) :
    pool.state.entered.Pairwise (fun a b => a.2 ≠ b.2) ∧
    (∀ i correlationId, (i, correlationId) ∈ pool.state.entered →
      ∃ claim rest, (i, claim) ∈ pool.state.claims ∧ isSpawnRequestClaim claim = true ∧
        projecting.decided correlationId pool.state = claim :: rest) ∧
    ∀ i requestEventId correlationId k,
      pool.procs i = some (.call (.enterProjectClaimed requestEventId correlationId) k) →
        (∀ j, (j, correlationId) ∉ pool.state.entered) ∧
        ∃ claim, (i, claim) ∈ pool.state.claims ∧ isSpawnRequestClaim claim = true ∧
          projecting.decided correlationId pool.state = [claim] := by
  have hkept := kept_of_reaches h
  have hgood := hkept.good
  refine ⟨hgood.once, ?_, ?_⟩
  · intro i correlationId hmem
    obtain ⟨claim, hclaim, hraw⟩ := hgood.entered i correlationId hmem
    obtain ⟨hkind, correlationId', rest, hraw', hdecided⟩ := hgood.claimed i claim hclaim
    obtain rfl := Option.some.inj (hraw.symm.trans hraw')
    exact ⟨claim, rest, hclaim, hkind, hdecided⟩
  · intro i requestEventId correlationId k hproc
    obtain ⟨howns, hnew⟩ := hkept.asks sound hproc
    refine ⟨fun j hmem => ?_, ?_⟩
    · obtain rfl := hgood.owner (hgood.entered j correlationId hmem) howns
      exact hnew hmem
    · obtain ⟨claim, hclaim, hraw⟩ := howns
      exact ⟨claim, hclaim, (hgood.claimed i claim hclaim).1,
        hgood.pending i claim correlationId hclaim hraw hnew⟩

/-! ### Two dispatches of one id -/

def sampleParent : ThreadCoordinates := .counted "user" 1

def sampleSetup : SpawnSetup where
  storeText _ := "store error"
  canonicalJsonHash _ := .ok "sha256:inputs"
  sha256Hex text := text
  couplingIds _ := .ok []
  couplingSetHash _ := .ok "sha256:couplings"
  bindReceipt _ := .error "no receipt"
  hasAgentResolver := false

def samplePayload : ThreadSpawnRequestedPayload where
  parentThreadId := sampleParent.threadId
  parentTurnId := none
  taskName := none
  submittedTurnId := none
  childAgentRef := unboundChildAgentRef
  initialSubmission := "go"
  correlationId := "dispatch-1"
  blockParent := false

/-- Two calls under one dispatch id, on a new stream. -/
def sampleProjecting : Projecting (InMemoryState 0) (Fin 2) where
  store := inMemoryFenced 0
  setup := sampleSetup
  parent := sampleParent.threadId
  calls _ := .dispatch ⟨sampleParent, samplePayload, false⟩
  fuel _ := 4
  foreign _ := False
  start := .empty
  placed _ := rfl
  undeciding _ h := h.elim

/-- How the calls of the sample are served: each draws ids of its own, and all goes well. -/
def sampleServe (i : Fin 2) (call : SpawnCall) (w : SpawnWorld (InMemoryState 0) (Fin 2)) :
    call.Reply × SpawnWorld (InMemoryState 0) (Fin 2) :=
  sampleProjecting.serve
    { draw := .counted (10 * i + (sampleProjecting.events w).length)
      flag := true
      thread := .ok ⟨sampleParent.scope, []⟩
      binding := .error (.runtimeFactory "no agent")
      started := .ok (⟨⟨200⟩⟩, [])
      threadId := ⟨⟨201⟩⟩
      signalId := ⟨202⟩
      done := .ok ()
      joined := none } i call w

theorem serves_sampleServe (i : Fin 2) (call : SpawnCall)
    (w : SpawnWorld (InMemoryState 0) (Fin 2)) :
    sampleProjecting.serves i call w (sampleServe i call w).1 (sampleServe i call w).2 := ⟨_, rfl⟩

def sampleTake (i : Fin 2) (pool : Calls (InMemoryState 0) (Fin 2)) :
    Calls (InMemoryState 0) (Fin 2) :=
  pool.set i ((sampleProjecting.calls i).program sampleProjecting.setup (sampleProjecting.fuel i)).run
    pool.state

def sampleTaken : Calls (InMemoryState 0) (Fin 2) :=
  sampleTake 1 (sampleTake 0 (.idle sampleProjecting.begin))

/-- The first asks for the child, both read the request, the first claims it and the second does
not. -/
def sampleSchedule : List (Fin 2) := [0, 0, 0, 0, 0, 1, 1, 0, 0, 1, 1, 1, 0]

def sampleRaced : Calls (InMemoryState 0) (Fin 2) :=
  sampleSchedule.foldl (Pool.turn sampleServe) sampleTaken

set_option maxRecDepth 100000 in
theorem entered_sampleRaced : sampleRaced.state.entered = [(0, "dispatch-1")] := by
  decide

theorem reaches_sampleRaced : sampleProjecting.Reaches sampleRaced := by
  have h₀ : sampleProjecting.Reaches (.idle sampleProjecting.begin) := .refl
  have hfirst : sampleProjecting.Reaches (sampleTake 0 (.idle sampleProjecting.begin)) :=
    Pool.Reachable.start h₀ rfl rfl
  have hboth : sampleProjecting.Reaches sampleTaken := Pool.Reachable.start hfirst rfl rfl
  exact Pool.Reachable.turns serves_sampleServe sampleSchedule hboth

/-- The claim of the first is the first decision, and it enters. -/
theorem spawn_enters_once_sample :
    sampleRaced.state.entered = [(0, "dispatch-1")] ∧
    ∃ claim rest, ((0 : Fin 2), claim) ∈ sampleRaced.state.claims ∧
      isSpawnRequestClaim claim = true ∧
        sampleProjecting.decided "dispatch-1" sampleRaced.state = claim :: rest := by
  refine ⟨entered_sampleRaced, ?_⟩
  refine (spawn_enters_once sampleProjecting sampleRaced reaches_sampleRaced).2.1 0 "dispatch-1" ?_
  rw [entered_sampleRaced]
  exact List.mem_singleton_self _

end Projecting

end Verlet.Kernel
