import Mathlib.Logic.Function.Basic
import Mathlib.Logic.Relation
import Verlet.Support.Processes

/-!
# Support — Pools

Any number of processes at work on one state.  In a step one of them is taken up, one makes its next
call, or something else moves the state; one that takes no more steps has stopped.

The calls of a process are served by name, so that the state may keep what a process did.  Against
the others a process is reasoned about by what they do, its `rely`: where no call breaks what the
others rely on, every process of a pool goes on to meet what it met when it was taken up.

* `Reachable.kept`: the rule, and `Kept.run` from any pool on; `Kept.asks` and `Kept.ends` are what
  it says of a call and of an end.
* `Reachable.runs`: a process may run from its start to its end while the others rest.
-/

namespace Verlet.Support
open Function (update update_idem update_of_ne update_self)

variable {ι ε : Type} {ρ : ε → Type} {α σ : Type} {i : ι}

theorem update_eq_some [DecidableEq ι] {β : Type} {held : ι → Option β} {j : ι} {o : Option β}
    {b : β} (h : update held i o j = some b) :
    (j = i ∧ o = some b) ∨ (j ≠ i ∧ held j = some b) := by
  by_cases hji : j = i
  · subst hji
    rw [update_self] at h
    exact .inl ⟨rfl, h⟩
  · rw [update_of_ne hji] at h
    exact .inr ⟨hji, h⟩

/-- A state, and the processes that were taken up on it. -/
structure Pool (ι ε : Type) (ρ : ε → Type) (α σ : Type) where
  state : σ
  procs : ι → Option (Proc ε ρ α)

variable {p : Proc ε ρ α} {s s₀ : σ} {serve : ι → (e : ε) → σ → ρ e × σ}

namespace Pool

/-- Nothing is taken up. -/
def idle (s : σ) : Pool ι ε ρ α σ := ⟨s, fun _ => none⟩

variable [DecidableEq ι]

def set (pool : Pool ι ε ρ α σ) (i : ι) (p : Proc ε ρ α) (s : σ) : Pool ι ε ρ α σ :=
  ⟨s, update pool.procs i (some p)⟩

/-- One step: `starts` says what may be taken up, `serves` how a call of a process is served, and
`others` what else may happen. -/
inductive Step (starts : ι → σ → Proc ε ρ α → Prop) (serves : ι → (e : ε) → σ → ρ e → σ → Prop)
    (others : σ → σ → Prop) : Pool ι ε ρ α σ → Pool ι ε ρ α σ → Prop
  | start {pool : Pool ι ε ρ α σ} {i : ι} {p : Proc ε ρ α} (hnew : pool.procs i = none)
      (h : starts i pool.state p) : Step starts serves others pool (pool.set i p pool.state)
  | call {pool : Pool ι ε ρ α σ} {i : ι} {e : ε} {k : ρ e → Proc ε ρ α} {r : ρ e} {s' : σ}
      (hproc : pool.procs i = some (.call e k)) (h : serves i e pool.state r s') :
      Step starts serves others pool (pool.set i (k r) s')
  | other {pool : Pool ι ε ρ α σ} {s' : σ} (h : others pool.state s') :
      Step starts serves others pool ⟨s', pool.procs⟩

/-- The pools that runs from the state lead to. -/
def Reachable (starts : ι → σ → Proc ε ρ α → Prop) (serves : ι → (e : ε) → σ → ρ e → σ → Prop)
    (others : σ → σ → Prop) (s : σ) (pool : Pool ι ε ρ α σ) : Prop :=
  Relation.ReflTransGen (Step starts serves others) (idle s) pool

/-- The ways of a pool: what is true of its state, what is true of it until a process is taken up,
what each process relies on, what it may ask, what it is answered and what it ends with. -/
structure Ways (ι ε : Type) (ρ : ε → Type) (α σ : Type) where
  good : σ → Prop
  waits : ι → σ → Prop
  rely : ι → σ → σ → Prop
  asks : ι → ε → σ → Prop
  answers : ι → (e : ε) → σ → ρ e → σ → Prop
  ends : ι → α → σ → Prop

abbrev Ways.Keeps (ways : Ways ι ε ρ α σ) (i : ι) (p : Proc ε ρ α) (s : σ) : Prop :=
  p.Meets (ways.rely i) (ways.asks i) (ways.answers i) (ways.ends i) s

/-- No step breaks what is true of the state, or what another process relies on. -/
structure Ways.Sound (ways : Ways ι ε ρ α σ) (starts : ι → σ → Proc ε ρ α → Prop)
    (serves : ι → (e : ε) → σ → ρ e → σ → Prop) (others : σ → σ → Prop) : Prop where
  refl : ∀ i s, ways.good s → ways.rely i s s
  trans : ∀ i s s' s'', ways.rely i s s' → ways.rely i s' s'' → ways.rely i s s''
  waits : ∀ i s s', ways.rely i s s' → ways.waits i s → ways.waits i s'
  start : ∀ i s p, ways.good s → ways.waits i s → starts i s p → ways.Keeps i p s
  call : ∀ i e s r s', ways.good s → ways.asks i e s → serves i e s r s' →
    ways.good s' ∧ ways.answers i e s r s' ∧ ∀ j, j ≠ i → ways.rely j s s'
  other : ∀ s s', ways.good s → others s s' → ways.good s' ∧ ∀ j, ways.rely j s s'

variable {ways : Ways ι ε ρ α σ} {pool : Pool ι ε ρ α σ} {starts : ι → σ → Proc ε ρ α → Prop}
  {serves : ι → (e : ε) → σ → ρ e → σ → Prop} {others : σ → σ → Prop}

/-- The state is good and every process keeps to the ways. -/
structure Kept (ways : Ways ι ε ρ α σ) (pool : Pool ι ε ρ α σ) : Prop where
  good : ways.good pool.state
  waits : ∀ i, pool.procs i = none → ways.waits i pool.state
  keeps : ∀ i p, pool.procs i = some p → ways.Keeps i p pool.state

theorem procs_set {j : ι} {q : Proc ε ρ α} (h : (pool.set i p s).procs j = some q) :
    (j = i ∧ q = p) ∨ (j ≠ i ∧ pool.procs j = some q) := by
  rcases update_eq_some h with ⟨hji, hp⟩ | hother
  · exact .inl ⟨hji, (Option.some.inj hp).symm⟩
  · exact .inr hother

theorem procs_set_none {j : ι} (h : (pool.set i p s).procs j = none) :
    j ≠ i ∧ pool.procs j = none := by
  change update pool.procs i (some p) j = none at h
  by_cases hij : j = i
  · rw [hij, update_self] at h
    cases h
  · rw [update_of_ne hij] at h
    exact ⟨hij, h⟩

section
omit [DecidableEq ι]

theorem Kept.asks (h : Kept ways pool) (hsound : ways.Sound starts serves others) {e : ε}
    {k : ρ e → Proc ε ρ α} (hproc : pool.procs i = some (.call e k)) : ways.asks i e pool.state :=
  (h.keeps i _ hproc pool.state (hsound.refl i _ h.good)).1

theorem Kept.ends (h : Kept ways pool) (hsound : ways.Sound starts serves others) {a : α}
    (hproc : pool.procs i = some (.done a)) : ways.ends i a pool.state :=
  h.keeps i _ hproc pool.state (hsound.refl i _ h.good)

end

theorem Kept.step (hsound : ways.Sound starts serves others) {pool' : Pool ι ε ρ α σ}
    (h : Kept ways pool) (hstep : Step starts serves others pool pool') : Kept ways pool' := by
  cases hstep with
  | @start i p hnew hstart =>
    refine ⟨h.good, fun j hj => h.waits j (procs_set_none hj).2, fun j q hq => ?_⟩
    rcases procs_set hq with ⟨rfl, rfl⟩ | ⟨-, hq⟩
    · exact hsound.start j pool.state q h.good (h.waits j hnew) hstart
    · exact h.keeps j q hq
  | @call i e k r s' hproc hserves =>
    obtain ⟨hask, hrest⟩ := h.keeps i _ hproc pool.state (hsound.refl i _ h.good)
    obtain ⟨hgood, hanswer, hrely⟩ := hsound.call i e pool.state r s' h.good hask hserves
    refine ⟨hgood, fun j hj => ?_, fun j q hq => ?_⟩
    · obtain ⟨hji, hj⟩ := procs_set_none hj
      exact hsound.waits j _ _ (hrely j hji) (h.waits j hj)
    · rcases procs_set hq with ⟨rfl, rfl⟩ | ⟨hji, hq⟩
      · exact hrest r s' hanswer
      · exact (h.keeps j q hq).mono (hsound.trans j) (hrely j hji)
  | @other s' hother =>
    obtain ⟨hgood, hrely⟩ := hsound.other pool.state s' h.good hother
    exact ⟨hgood, fun j hj => hsound.waits j _ _ (hrely j) (h.waits j hj),
      fun j q hq => (h.keeps j q hq).mono (hsound.trans j) (hrely j)⟩

theorem Kept.run (hsound : ways.Sound starts serves others) {pool' : Pool ι ε ρ α σ}
    (h : Kept ways pool) (hrun : Relation.ReflTransGen (Step starts serves others) pool pool') :
    Kept ways pool' := by
  induction hrun with
  | refl => exact h
  | tail _ hstep ih => exact ih.step hsound hstep

omit [DecidableEq ι] in
theorem kept_idle (hs : ways.good s) (hwaits : ∀ i, ways.waits i s) : Kept ways (idle s) := by
  refine ⟨hs, fun i _ => hwaits i, ?_⟩
  rintro i p ⟨⟩

/-- **Every process of a pool keeps to sound ways.** -/
theorem Reachable.kept (hsound : ways.Sound starts serves others) (hs : ways.good s)
    (hwaits : ∀ i, ways.waits i s) (h : Reachable starts serves others s pool) : Kept ways pool :=
  (kept_idle hs hwaits).run hsound h

theorem Reachable.imp {serves' : ι → (e : ε) → σ → ρ e → σ → Prop}
    (hserves : ∀ i e s r s', serves i e s r s' → serves' i e s r s')
    (h : Reachable starts serves others s pool) : Reachable starts serves' others s pool := by
  induction h with
  | refl => exact .refl
  | tail _ hstep ih =>
    refine .tail ih ?_
    cases hstep with
    | start hnew h => exact .start hnew h
    | call hproc h => exact .call hproc (hserves _ _ _ _ _ h)
    | other h => exact .other h

/-! ### Schedules -/

/-- Two processes are enough where a schedule shows how their calls meet. -/
instance (priority := 2000) neZero_two : @NeZero Nat Zero.ofOfNat0 2 := ⟨Nat.succ_ne_zero 1⟩

/-- One process makes its next call, if it is at one. -/
def turn (serve : ι → (e : ε) → σ → ρ e × σ) (pool : Pool ι ε ρ α σ) (i : ι) : Pool ι ε ρ α σ :=
  match pool.procs i with
  | some (.call e k) => pool.set i (k (serve i e pool.state).1) (serve i e pool.state).2
  | _                => pool

theorem run_turn {pool : Pool ι ε ρ α σ}
    (hserve : ∀ e (k : ρ e → Proc ε ρ α), pool.procs i = some (.call e k) →
      serves i e pool.state (serve i e pool.state).1 (serve i e pool.state).2) :
    Relation.ReflTransGen (Step starts serves others) pool (pool.turn serve i) := by
  unfold Pool.turn
  cases hproc : pool.procs i with
  | none => exact .refl
  | some p =>
    cases p with
    | done a => exact .refl
    | call e k => exact .single (.call hproc (hserve e k hproc))

theorem Reachable.turn {pool : Pool ι ε ρ α σ} (h : Reachable starts serves others s₀ pool)
    (hserve : ∀ e (k : ρ e → Proc ε ρ α),
      pool.procs i = some (.call e k) →
        serves i e pool.state (serve i e pool.state).1 (serve i e pool.state).2) :
    Reachable starts serves others s₀ (pool.turn serve i) :=
  Relation.ReflTransGen.trans h (run_turn hserve)

theorem Reachable.turns (hserve : ∀ i e s, serves i e s (serve i e s).1 (serve i e s).2)
    (schedule : List ι) {pool : Pool ι ε ρ α σ} (h : Reachable starts serves others s₀ pool) :
    Reachable starts serves others s₀ (schedule.foldl (Pool.turn serve) pool) := by
  induction schedule generalizing pool with
  | nil => exact h
  | cons i rest ih => exact ih (h.turn fun e _ _ => hserve i e pool.state)

/-- Every call that is made along the schedule is one that may be. -/
def admits (serve : ι → (e : ε) → σ → ρ e × σ) (may : ι → (e : ε) → σ → Bool) :
    List ι → Pool ι ε ρ α σ → Bool
  | [],        _    => true
  | i :: rest, pool =>
    (match pool.procs i with
      | some (.call e _) => may i e pool.state
      | _                => true) && admits serve may rest (pool.turn serve i)

theorem run_of_admits {may : ι → (e : ε) → σ → Bool}
    (hserve : ∀ i e s, may i e s = true → serves i e s (serve i e s).1 (serve i e s).2)
    {schedule : List ι} {pool : Pool ι ε ρ α σ} (hmay : pool.admits serve may schedule = true) :
    Relation.ReflTransGen (Step starts serves others) pool
      (schedule.foldl (Pool.turn serve) pool) := by
  induction schedule generalizing pool with
  | nil => exact .refl
  | cons i rest ih =>
    rw [admits, Bool.and_eq_true] at hmay
    refine (run_turn fun e k hproc => hserve i e pool.state ?_).trans (ih hmay.2)
    have hcall := hmay.1
    rw [hproc] at hcall
    exact hcall

theorem Reachable.turns_of_admits {may : ι → (e : ε) → σ → Bool}
    (hserve : ∀ i e s, may i e s = true → serves i e s (serve i e s).1 (serve i e s).2)
    {schedule : List ι} {pool : Pool ι ε ρ α σ} (h : Reachable starts serves others s₀ pool)
    (hmay : pool.admits serve may schedule = true) :
    Reachable starts serves others s₀ (schedule.foldl (Pool.turn serve) pool) :=
  Relation.ReflTransGen.trans h (run_of_admits hserve hmay)

def doneWith (pool : Pool ι ε ρ α σ) (i : ι) : Option α :=
  match pool.procs i with
  | some (.done a) => some a
  | _              => none

omit [DecidableEq ι] in
theorem procs_of_doneWith {a : α} (h : pool.doneWith i = some a) :
    pool.procs i = some (.done a) := by
  unfold doneWith at h
  split at h
  · rename_i heq
    rw [heq, Option.some.inj h]
  · cases h

theorem Reachable.start {pool : Pool ι ε ρ α σ} (h : Reachable starts serves others s₀ pool)
    (hnew : pool.procs i = none) (hstarts : starts i pool.state p) :
    Reachable starts serves others s₀ (pool.set i p pool.state) := .tail h (.start hnew hstarts)

theorem Reachable.call {e : ε} {k : ρ e → Proc ε ρ α} {r : ρ e} {pool : Pool ι ε ρ α σ} {s' : σ}
    (h : Reachable starts serves others s₀ (pool.set i (.call e k) s)) (hserves : serves i e s r s') :
    Reachable starts serves others s₀ (pool.set i (k r) s') := by
  have hproc : (pool.set i (.call e k) s).procs i = some (.call e k) := update_self ..
  have hstep : Step starts serves others (pool.set i (.call e k) s)
      ((pool.set i (.call e k) s).set i (k r) s') := .call hproc hserves
  have hset : (pool.set i (.call e k) s).set i (k r) s' = pool.set i (k r) s' :=
    congrArg (Pool.mk _) (update_idem ..)
  exact hset ▸ .tail h hstep

theorem Reachable.finish (hserve : ∀ i e s, serves i e s (serve i e s).1 (serve i e s).2)
    {pool : Pool ι ε ρ α σ} (h : Reachable starts serves others s₀ (pool.set i p s)) :
    Reachable starts serves others s₀
      (pool.set i (.done (p.alone (serve i) s).1) (p.alone (serve i) s).2) := by
  induction p generalizing s with
  | done a => exact h
  | call e k ih => exact ih _ (h.call (hserve i e s))

theorem Reachable.runs (hserve : ∀ i e s, serves i e s (serve i e s).1 (serve i e s).2)
    {pool : Pool ι ε ρ α σ} (h : Reachable starts serves others s₀ pool)
    (hnew : pool.procs i = none) (hstarts : starts i pool.state p) :
    Reachable starts serves others s₀
      (pool.set i (.done (p.alone (serve i) pool.state).1) (p.alone (serve i) pool.state).2) :=
  .finish hserve (h.start hnew hstarts)

end Pool

end Verlet.Support
