import Mathlib.Logic.Basic

/-!
# Support — Runs

Sequences of calls on a machine `exec : call → state → reply × state`.  `run` is the state a
sequence leaves and `replies` what it answers; `Along` says that every call of the sequence meets
a condition in the state it is made in.
-/

namespace Verlet.Support

variable {σ σ' κ ρ ρ' : Type}

/-- The state after a sequence of calls. -/
def run (exec : κ → σ → ρ × σ) : List κ → σ → σ
  | [],            s => s
  | call :: calls, s => run exec calls (exec call s).2

/-- What a sequence of calls answers, in order. -/
def replies (exec : κ → σ → ρ × σ) : List κ → σ → List ρ
  | [],            _ => []
  | call :: calls, s => (exec call s).1 :: replies exec calls (exec call s).2

/-- Every call of the sequence meets the condition, in the state it is made in. -/
def Along (exec : κ → σ → ρ × σ) (admits : σ → κ → Prop) : List κ → σ → Prop
  | [],            _ => True
  | call :: calls, s => admits s call ∧ Along exec admits calls (exec call s).2

variable {exec : κ → σ → ρ × σ} {admits admits' : σ → κ → Prop}

instance decidableAlong [∀ s call, Decidable (admits s call)] :
    ∀ (calls : List κ) (s : σ), Decidable (Along exec admits calls s)
  | [],            _ => .isTrue trivial
  | call :: calls, s => @instDecidableAnd _ _ _ (decidableAlong calls (exec call s).2)

theorem run_append (calls later : List κ) (s : σ) :
    run exec (calls ++ later) s = run exec later (run exec calls s) := by
  induction calls generalizing s with
  | nil => rfl
  | cons call calls ih => exact ih _

variable {calls : List κ} {s : σ}

theorem along_append {later : List κ} :
    Along exec admits (calls ++ later) s ↔
      Along exec admits calls s ∧ Along exec admits later (run exec calls s) := by
  induction calls generalizing s with
  | nil => simp [Along, run]
  | cons call calls ih => simp only [List.cons_append, Along, run, ih, and_assoc]

theorem Along.mono (himp : ∀ s call, admits s call → admits' s call) (h : Along exec admits calls s) :
    Along exec admits' calls s := by
  induction calls generalizing s with
  | nil => trivial
  | cons call calls ih => exact ⟨himp s call h.1, ih h.2⟩

/-- **What every call preserves, the run preserves.** -/
theorem Along.invariant {P : σ → Prop} (hstep : ∀ s call, P s → admits s call → P (exec call s).2)
    (h : Along exec admits calls s) (hs : P s) : P (run exec calls s) := by
  induction calls generalizing s with
  | nil => exact hs
  | cons call calls ih => exact ih h.2 (hstep s call hs h.1)

theorem run_invariant {P : σ → Prop} (hstep : ∀ s call, P s → P (exec call s).2) (calls : List κ)
    (hs : P s) : P (run exec calls s) := by
  induction calls generalizing s with
  | nil => exact hs
  | cons call calls ih => exact ih (hstep s call hs)

end Verlet.Support
