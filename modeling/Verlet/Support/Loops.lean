import Verlet.Support.Fallible

/-!
# Support — Loops

A loop over a fallible step: `loop` takes steps until the state is `done`, or a step fails.  `Heads`
are the states in which the loop comes round.  Where a measure goes down with every step, the loop
ends: at a head that is done, or at one whose step failed.
-/

namespace Verlet.Support

variable {ε σ : Type}

/-- Steps until the state is done; `e` out of fuel. -/
def loop (step : Fallible ε σ Unit) (done : σ → Bool) (e : ε) : Nat → Fallible ε σ Unit
  | 0,        s => (.error e, s)
  | fuel + 1, s =>
    if done s then (.ok (), s)
    else
      match exec step s with
      | (.ok (), s') => loop step done e fuel s'
      | (.error e', s') => (.error e', s')

/-- The states in which the loop comes round. -/
inductive Heads (step : Fallible ε σ Unit) (done : σ → Bool) (s : σ) : σ → Prop
  | start : Heads step done s s
  | next {s₁ s₂ : σ} (h : Heads step done s s₁) (hgoes : done s₁ = false)
      (hstep : exec step s₁ = (.ok (), s₂)) : Heads step done s s₂

variable {step : Fallible ε σ Unit} {done : σ → Bool} {e : ε} {P : σ → Prop} {s s' : σ}

/-- **What every step keeps holds at every head.** -/
theorem Heads.invariant (h : Heads step done s s')
    (hstep : ∀ s₁ s₂, P s₁ → done s₁ = false → exec step s₁ = (.ok (), s₂) → P s₂) (hs : P s) :
    P s' := by
  induction h with
  | start => exact hs
  | next _ hgoes hnext ih => exact hstep _ _ ih hgoes hnext

theorem Heads.of_step {s₁ : σ} (hgoes : done s = false) (hfirst : exec step s = (.ok (), s₁))
    (h : Heads step done s₁ s') : Heads step done s s' := by
  induction h with
  | start => exact .next .start hgoes hfirst
  | next _ hgoes' hnext ih => exact .next ih hgoes' hnext

variable {fuel : Nat}

/-- **The two ways a loop ends**: at a head that is done, or at one whose step fails. -/
theorem loop_cases (measure : σ → Nat)
    (hkeeps : ∀ s s', P s → done s = false → exec step s = (.ok (), s') → P s')
    (hdown : ∀ s s', P s → done s = false → exec step s = (.ok (), s') → measure s' < measure s)
    (hs : P s) (hfuel : measure s < fuel) :
    (∃ s', loop step done e fuel s = (.ok (), s') ∧ Heads step done s s' ∧ done s' = true) ∨
    ∃ s₁ e' s', loop step done e fuel s = (.error e', s') ∧ Heads step done s s₁ ∧
      done s₁ = false ∧ exec step s₁ = (.error e', s') := by
  induction fuel generalizing s with
  | zero => exact absurd hfuel (Nat.not_lt_zero _)
  | succ fuel ih =>
    cases hdone : done s with
    | true =>
      left
      exact ⟨s, by rw [loop, if_pos hdone], .start, hdone⟩
    | false =>
      rcases hstep : exec step s with ⟨e' | ⟨⟩, s₁⟩
      · right
        refine ⟨s, e', s₁, ?_, .start, hdone, hstep⟩
        simp [loop, hdone, hstep]
      · have hloop : loop step done e (fuel + 1) s = loop step done e fuel s₁ := by
          simp [loop, hdone, hstep]
        have hless := hdown s s₁ hs hdone hstep
        rw [hloop]
        rcases ih (hkeeps s s₁ hs hdone hstep) (by omega) with
          ⟨s', hok, hhead, hend⟩ | ⟨s₂, e', s', herror, hhead, hgoes, hfail⟩
        · exact .inl ⟨s', hok, hhead.of_step hdone hstep, hend⟩
        · exact .inr ⟨s₂, e', s', herror, hhead.of_step hdone hstep, hgoes, hfail⟩

theorem Heads.first (h : Heads step done s s') :
    s' = s ∨ done s = false ∧ ∃ s₁, exec step s = (.ok (), s₁) ∧ Heads step done s₁ s' := by
  induction h with
  | start => exact .inl rfl
  | @next s₁ s₂ _ hgoes hstep ih =>
    rcases ih with rfl | ⟨hfirst, s₀, hs₀, hrest⟩
    · exact .inr ⟨hgoes, s₂, hstep, .start⟩
    · exact .inr ⟨hfirst, s₀, hs₀, .next hrest hgoes hstep⟩

theorem step_ok_of_loop_ok {head : σ} (h : loop step done e fuel s = (.ok (), s'))
    (hhead : Heads step done s head) (hgoes : done head = false) :
    ∃ s₁, exec step head = (.ok (), s₁) := by
  induction fuel generalizing s with
  | zero => cases (Prod.mk.inj h).1
  | succ fuel ih =>
    rcases hstep : exec step s with ⟨e' | ⟨⟩, s₁⟩
    · -- the loop that goes on from here fails
      rcases hhead.first with rfl | ⟨-, s₂, hs₂, -⟩
      · rw [loop, if_neg (by rw [hgoes]; exact Bool.false_ne_true), hstep] at h
        cases (Prod.mk.inj h).1
      · rw [hstep] at hs₂
        cases (Prod.mk.inj hs₂).1
    · rcases hhead.first with rfl | ⟨hfirst, s₂, hs₂, hrest⟩
      · exact ⟨s₁, hstep⟩
      · rw [hstep] at hs₂
        obtain rfl : s₁ = s₂ := (Prod.mk.inj hs₂).2
        rw [loop, if_neg (by rw [hfirst]; exact Bool.false_ne_true), hstep] at h
        exact ih h hrest

theorem heads_of_loop_ok (h : loop step done e fuel s = (.ok (), s')) :
    Heads step done s s' ∧ done s' = true := by
  induction fuel generalizing s with
  | zero => cases (Prod.mk.inj h).1
  | succ fuel ih =>
    cases hdone : done s with
    | true =>
      rw [loop, if_pos hdone] at h
      obtain rfl := (Prod.mk.inj h).2
      exact ⟨.start, hdone⟩
    | false =>
      rw [loop, if_neg (by rw [hdone]; exact Bool.false_ne_true)] at h
      rcases hstep : exec step s with ⟨e' | ⟨⟩, s₁⟩
      · rw [hstep] at h
        cases (Prod.mk.inj h).1
      · rw [hstep] at h
        exact ⟨(ih h).1.of_step hdone hstep, (ih h).2⟩

theorem heads_of_head {head : σ} (h : loop step done e fuel s = (.ok (), s'))
    (hhead : Heads step done s head) : Heads step done head s' := by
  induction fuel generalizing s with
  | zero => cases (Prod.mk.inj h).1
  | succ fuel ih =>
    rcases hhead.first with rfl | ⟨hgoes, s₁, hstep, hrest⟩
    · exact (heads_of_loop_ok h).1
    · rw [loop, if_neg (by rw [hgoes]; exact Bool.false_ne_true), hstep] at h
      exact ih h hrest

/-- **A loop succeeds exactly when the step does at every head.** -/
theorem loop_ok_iff (measure : σ → Nat)
    (hkeeps : ∀ s s', P s → done s = false → exec step s = (.ok (), s') → P s')
    (hdown : ∀ s s', P s → done s = false → exec step s = (.ok (), s') → measure s' < measure s)
    (hs : P s) (hfuel : measure s < fuel) :
    (∃ s', loop step done e fuel s = (.ok (), s')) ↔
      ∀ head, Heads step done s head → done head = false → ∃ s', exec step head = (.ok (), s') := by
  constructor
  · rintro ⟨s', h⟩ head hhead hgoes
    exact step_ok_of_loop_ok h hhead hgoes
  · intro h
    rcases loop_cases measure hkeeps hdown hs hfuel (e := e) with ⟨s', hok, -, -⟩ |
      ⟨head, e', s', -, hhead, hgoes, hfail⟩
    · exact ⟨s', hok⟩
    · obtain ⟨s₁, hstep⟩ := h head hhead hgoes
      rw [hfail] at hstep
      cases (Prod.mk.inj hstep).1

end Verlet.Support
