import Verlet.Support.Runs
import Verlet.History.InMemory.Steps

/-!
# History — In-memory store — The lease fence

A handle whose lease epoch is below a stream's recorded minimum is superseded.  Every operation
that journals checks the epoch before its first write; `clone_branch` without a leaf and
`fork_by_reference` write a thread's leaf and base without journaling, and check nothing.

* `minimum_run`: the minimum of a stream is the largest non-zero epoch committed to it.
-/

namespace Verlet.History.InMemory
open Support

def threadStream (thread : ThreadId) : EventStreamId := ⟨"thread:" ++ thread.uuid.text⟩

/-- The operation is a mutation of the thread. -/
def targets (thread : ThreadId) : Op → Prop
  | .append c _ _ _             => c.threadId = thread
  | .appendTurnInput c _ _      => c.threadId = thread
  | .selectBranch c _           => c.threadId = thread
  | .cloneBranch _ _ target     => target.threadId = thread
  | .forkByReference _ target _ => target.threadId = thread
  | .appendEvents streamId _    => streamId = threadStream thread
  | .appendEventsFenced streamId _ _ => streamId = threadStream thread

/-- The thread's events, entries, active leaf and base are what they were. -/
structure Untouched (thread : ThreadId) (s s' : Inner) : Prop where
  events : s'.eventsOf (threadStream thread) = s.eventsOf (threadStream thread)
  entries : ∀ id, s'.entryAt thread id = s.entryAt thread id
  leaf : s'.activeLeaf.lookup thread = s.activeLeaf.lookup thread
  base : s'.bases.lookup thread = s.bases.lookup thread

theorem Untouched.refl (thread : ThreadId) (s : Inner) : Untouched thread s s :=
  ⟨rfl, fun _ => rfl, rfl, rfl⟩

/-! ### The recorded minimum -/

def Inner.journals (s : Inner) : Op → Option EventStreamId
  | .append c _ _ _ => some (.forThread c)
  | .appendTurnInput c turnId _ =>
    if (s.turnEntryAt c.threadId turnId).isSome then none else some (.forThread c)
  | .selectBranch c _                => some (.forThread c)
  | .cloneBranch _ (some _) target   => some (.forThread target)
  | .cloneBranch _ none _            => none
  | .forkByReference _ _ _           => none
  | .appendEvents streamId _         => some streamId
  | .appendEventsFenced streamId _ _ => some streamId

def commits (streamId : EventStreamId) (s : Inner) (call : Call) : Prop :=
  (step call s).1.isOk ∧ s.journals call.op = some streamId

instance (streamId : EventStreamId) (s : Inner) (call : Call) :
    Decidable (commits streamId s call) :=
  inferInstanceAs (Decidable (_ ∧ _))

def committedEpochs (streamId : EventStreamId) : List Call → Inner → List Nat
  | [],            _ => []
  | call :: calls, s =>
    (if commits streamId s call then [call.leaseEpoch] else []) ++
      committedEpochs streamId calls (step call s).2

theorem minimum_step (s : Inner) (call : Call) (streamId : EventStreamId) :
    (step call s).2.leaseEpochMinimums.lookup streamId =
      if commits streamId s call ∧ 0 < call.leaseEpoch then
        some (max ((s.leaseEpochMinimums.lookup streamId).getD 0) call.leaseEpoch)
      else s.leaseEpochMinimums.lookup streamId := by
  have hjournal : ∀ {stream' : EventStreamId} {s₁ : Inner},
      s₁.leaseEpochMinimums = (s.journal call.leaseEpoch stream' []).leaseEpochMinimums →
      s.journals call.op = some stream' →
      s₁.leaseEpochMinimums.lookup streamId =
        if s.journals call.op = some streamId ∧ 0 < call.leaseEpoch then
          some (max ((s.leaseEpochMinimums.lookup streamId).getD 0) call.leaseEpoch)
        else s.leaseEpochMinimums.lookup streamId := by
    intro stream' s₁ hmin hj
    rw [hmin, minimums_journal, hj]
    by_cases hs : streamId = stream'
    · subst hs
      simp
    · have hs' : ¬ stream' = streamId := fun h => hs h.symm
      simp [hs, hs']
  obtain ⟨result, s', h⟩ : ∃ result s', step call s = (result, s') := ⟨_, _, rfl⟩
  have hcommits : commits streamId s call ↔ result.isOk ∧ s.journals call.op = some streamId := by
    rw [commits, h]
  simp only [hcommits, h]
  cases result with
  | error e =>
    obtain rfl := eq_of_step_error h
    simp [Except.isOk, Except.toBool]
  | ok reply =>
    simp only [Except.isOk, Except.toBool, true_and]
    cases step_ok_iff.mp h with
    | append _ hentry _ => subst hentry; exact hjournal rfl rfl
    | turnAgain hturn _ _ => simp [Inner.journals, hturn]
    | turnInput hturn hentry _ =>
      subst hentry
      exact hjournal rfl (by simp [Inner.journals, hturn]; rfl)
    | @selectBranch _ _ _ leaf _ _ _ _ => cases leaf <;> exact hjournal rfl rfl
    | cloneNone => simp [Inner.journals]
    | cloneSome _ _ _ _ => exact hjournal (minimums_insertEntries _ _ _) rfl
    | fork _ _ _ => simp [Inner.journals]
    | events _ => exact hjournal rfl rfl
    | fenced _ _ => exact hjournal rfl rfl

theorem minimum_mono (s : Inner) (call : Call) {streamId : EventStreamId} {m : Nat}
    (h : s.leaseEpochMinimums.lookup streamId = some m) :
    ∃ m', (step call s).2.leaseEpochMinimums.lookup streamId = some m' ∧ m ≤ m' := by
  rw [minimum_step, h]
  split
  · exact ⟨_, rfl, Nat.le_max_left _ _⟩
  · exact ⟨m, rfl, le_rfl⟩

theorem minimum_run (streamId : EventStreamId) (calls : List Call) (s : Inner) :
    (run step calls s).leaseEpochMinimums.lookup streamId =
      ((s.leaseEpochMinimums.lookup streamId).toList ++
        (committedEpochs streamId calls s).filter (0 < ·)).max? := by
  induction calls generalizing s with
  | nil => cases h : s.leaseEpochMinimums.lookup streamId <;> simp [run, committedEpochs, h]
  | cons call calls ih =>
    rw [run, ih, committedEpochs, minimum_step]
    by_cases hc : commits streamId s call
    · by_cases he : 0 < call.leaseEpoch
      · cases s.leaseEpochMinimums.lookup streamId with
        | none => simp [hc, he]
        | some m => simp only [hc, he, and_self, if_true, Option.toList_some, Option.getD_some,
            List.nil_append, List.cons_append, List.filter_cons, decide_true,
            List.max?_cons', List.foldl_cons]
      · simp [hc, he]
    · simp [hc]

/-! ### What a superseded handle can do -/

variable {s : Inner}

theorem not_journaled_of_stale {streamId : EventStreamId} {m epoch : Nat}
    {records : List NewEventRecord} (hmin : s.leaseEpochMinimums.lookup streamId = some m)
    (hstale : epoch < m) : ¬ Journaled s epoch streamId records := by
  intro hj
  have := hj.lease
  simp [checkInMemoryLeaseEpoch, hmin, hstale] at this

/-- `fork_by_reference` accepts the base. -/
def ForkAdmitted (s : Inner) (source target : ThreadCoordinates) (base : ThreadBaseRef) : Prop :=
  validateThreadBaseRef source target base = .ok () ∧
  validateInMemoryBaseCycle s target.threadId source.threadId = .ok () ∧
  ∀ leaf, base.parentLeafEntryId = some leaf →
    ∃ context, buildInMemoryContext s source (some leaf) = .ok context

/-- The call is not one of the two that write a thread unfenced, or it finds nothing to change:
no leaf and no base to remove, no leaf and the very base to put. -/
def Fenced (s : Inner) : Op → Prop
  | .cloneBranch _ none target =>
    s.activeLeaf.lookup target.threadId = none ∧ s.bases.lookup target.threadId = none
  | .forkByReference source target base => ForkAdmitted s source target base →
      s.activeLeaf.lookup target.threadId = none ∧ s.bases.lookup target.threadId = some base
  | _ => True

variable {thread : ThreadId}

theorem untouched_cloneNone :
    Untouched thread s ((s.clearBase thread).clearLeaf thread) ↔
      s.activeLeaf.lookup thread = none ∧ s.bases.lookup thread = none := by
  constructor
  · intro h
    have hl := h.leaf
    have hb := h.base
    simp only [activeLeaf_clearLeaf, activeLeaf_clearBase, bases_clearLeaf, bases_clearBase,
      Map.lookup_erase, if_true] at hl hb
    exact ⟨hl.symm, hb.symm⟩
  · rintro ⟨hl, hb⟩
    exact ⟨rfl, fun _ => rfl, by simp [hl], by simp [hb]⟩

theorem untouched_fork {base : ThreadBaseRef} :
    Untouched thread s ((s.clearLeaf thread).setBase thread base) ↔
      s.activeLeaf.lookup thread = none ∧ s.bases.lookup thread = some base := by
  constructor
  · intro h
    have hl := h.leaf
    have hb := h.base
    simp only [activeLeaf_setBase, activeLeaf_clearLeaf, bases_setBase, bases_clearLeaf,
      Map.lookup_erase, Map.lookup_insert, if_true] at hl hb
    exact ⟨hl.symm, hb.symm⟩
  · rintro ⟨hl, hb⟩
    exact ⟨rfl, fun _ => rfl, by simp [hl], by simp [hb]⟩

/-- **What a superseded handle can change.**  Its call leaves the thread alone exactly when the
call is fenced. -/
theorem untouched_iff_fenced {m : Nat} {call : Call}
    (hmin : s.leaseEpochMinimums.lookup (threadStream thread) = some m)
    (hstale : call.leaseEpoch < m) (htarget : targets thread call.op) :
    Untouched thread s (step call s).2 ↔ Fenced s call.op := by
  obtain ⟨result, s', h⟩ : ∃ result s', step call s = (result, s') := ⟨_, _, rfl⟩
  rw [h]
  cases result with
  | error e =>
    obtain rfl := eq_of_step_error h
    refine iff_of_true (.refl thread s') ?_
    obtain ⟨epoch, draws, op⟩ := call
    cases op with
    | cloneBranch source sourceLeaf target =>
      cases sourceLeaf with
      | none => exact absurd (step_ok_iff.mpr .cloneNone) (by rw [h]; simp)
      | some leaf => trivial
    | forkByReference source target base =>
      rintro ⟨hb, hc, hl⟩
      exact absurd (step_ok_iff.mpr (.fork hb hc hl)) (by rw [h]; simp)
    | _ => trivial
  | ok reply =>
    cases step_ok_iff.mp h with
    | append _ _ hj =>
      obtain rfl := htarget
      exact absurd hj (not_journaled_of_stale hmin hstale)
    | turnAgain _ _ _ => exact iff_of_true (.refl thread s) trivial
    | turnInput _ _ hj =>
      obtain rfl := htarget
      exact absurd hj (not_journaled_of_stale hmin hstale)
    | selectBranch _ _ hj =>
      obtain rfl := htarget
      exact absurd hj (not_journaled_of_stale hmin hstale)
    | cloneNone =>
      obtain rfl := htarget
      exact untouched_cloneNone
    | cloneSome _ _ _ hj =>
      obtain rfl := htarget
      exact absurd hj (not_journaled_of_stale hmin hstale)
    | fork hb hc hl =>
      obtain rfl := htarget
      exact untouched_fork.trans ⟨fun hf _ => hf, fun hf => hf ⟨hb, hc, hl⟩⟩
    | events hj =>
      obtain rfl := htarget
      exact absurd hj (not_journaled_of_stale hmin hstale)
    | fenced hj _ =>
      obtain rfl := htarget
      exact absurd hj (not_journaled_of_stale hmin hstale)

/-- **The lease fence.**  After any calls: a superseded handle's call leaves its thread alone
exactly when the call is fenced; the minimum of every stream is the largest non-zero epoch of the
appends committed to it, and no call lowers it. -/
theorem lease_fence (calls : List Call) :
    let s := run step calls .empty
    (∀ thread m call, s.leaseEpochMinimums.lookup (threadStream thread) = some m →
      call.leaseEpoch < m → targets thread call.op →
        (Untouched thread s (step call s).2 ↔ Fenced s call.op)) ∧
    (∀ streamId, s.leaseEpochMinimums.lookup streamId =
      ((committedEpochs streamId calls .empty).filter (0 < ·)).max?) ∧
    ∀ call streamId m, s.leaseEpochMinimums.lookup streamId = some m →
      ∃ m', (step call s).2.leaseEpochMinimums.lookup streamId = some m' ∧ m ≤ m' := by
  intro s
  exact ⟨fun thread m call hmin hstale htarget => untouched_iff_fenced hmin hstale htarget,
    fun streamId => minimum_run streamId calls .empty,
    fun call streamId m h => minimum_mono s call h⟩

/-- The thread's writer holds epoch 1. -/
def fencedCalls : List Call :=
  [.counted 1 1 (.append (.counted "user" 1) none (.said "first") none)]

/-- A handle of epoch 0 clones nothing into the thread. -/
def staleClone : Call := .counted 0 2 (.cloneBranch (.counted "user" 2) none (.counted "user" 1))

set_option maxRecDepth 100000 in
/-- A superseded handle's `clone_branch` without a leaf takes the thread's active leaf away. -/
theorem stale_clone_touches :
    let s := run step fencedCalls .empty
    s.leaseEpochMinimums.lookup (threadStream ⟨⟨1⟩⟩) = some 1 ∧ staleClone.leaseEpoch < 1 ∧
      targets ⟨⟨1⟩⟩ staleClone.op ∧ ¬ Untouched ⟨⟨1⟩⟩ s (step staleClone s).2 := by
  refine ⟨by decide, by decide, rfl, fun h => ?_⟩
  exact absurd h.leaf (by decide)

set_option maxRecDepth 100000 in
/-- The same handle's append is refused. -/
theorem lease_fence_append :
    let s := run step fencedCalls .empty
    let call := Call.counted 0 2 (.append (.counted "user" 1) none (.said "second") none)
    Untouched ⟨⟨1⟩⟩ s (step call s).2 := by
  intro s call
  exact ((lease_fence fencedCalls).1 ⟨⟨1⟩⟩ 1 call (by decide) (by decide) rfl).mpr trivial

end Verlet.History.InMemory
