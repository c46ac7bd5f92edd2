import Mathlib.Logic.Function.Basic
import Mathlib.Tactic.Common

/-!
# Support — Claims

Effects that are to happen once a key.  A caller claims its key in a list before the effect; it settles
once the effect has happened, and releases the key where it has not.  Claim, effect, settlement and release
are single steps, in any order of any callers.

* `Sound.step`: no key has two effects, and every key on the list has had its effect or is held by a caller
  whose effect is to come.
-/

namespace Verlet.Support

/-- What the callers hold, with whether the effect has happened; the keys on the list; and how many effects
each key has had. -/
structure Claims (ι κ : Type) where
  held : ι → Option (κ × Bool)
  listed : κ → Prop
  effects : κ → Nat

namespace Claims

variable {ι κ : Type}

/-- Where nothing has been claimed. -/
def empty : Claims ι κ := ⟨fun _ => none, fun _ => False, fun _ => 0⟩

/-- No key has two effects, and what is on the list is accounted for. -/
structure Sound (c : Claims ι κ) : Prop where
  alone : ∀ {i j k b b'}, c.held i = some (k, b) → c.held j = some (k, b') → i = j
  listed_of_held : ∀ {i k b}, c.held i = some (k, b) → c.listed k
  effects_of_held : ∀ {i k b}, c.held i = some (k, b) → c.effects k = b.toNat
  effects_le : ∀ k, c.effects k ≤ 1
  listed_of_effect : ∀ {k}, c.effects k ≠ 0 → c.listed k
  accounted : ∀ {k}, c.listed k → c.effects k = 0 → ∃ i, c.held i = some (k, false)

theorem sound_empty : Sound (empty : Claims ι κ) where
  alone h := by cases h
  listed_of_held h := by cases h
  effects_of_held h := by cases h
  effects_le _ := Nat.zero_le _
  listed_of_effect h := absurd rfl h
  accounted h := h.elim

variable [DecidableEq ι] {c c' : Claims ι κ}

/-- The claim of `i` becomes `claim`. -/
def hold (c : Claims ι κ) (i : ι) (claim : Option (κ × Bool)) : Claims ι κ :=
  { c with held := Function.update c.held i claim }

inductive Step [DecidableEq κ] (c : Claims ι κ) : Claims ι κ → Prop
  | stay : Step c c
  | claim (i : ι) (k : κ) (hfree : c.held i = none) (hnew : ¬ c.listed k) :
      Step c { c.hold i (some (k, false)) with listed := fun k' => c.listed k' ∨ k' = k }
  | effect (i : ι) (k : κ) (hheld : c.held i = some (k, false)) :
      Step c { c.hold i (some (k, true)) with
        effects := Function.update c.effects k (c.effects k + 1) }
  | settle (i : ι) (k : κ) (hheld : c.held i = some (k, true)) : Step c (c.hold i none)
  | release (i : ι) (k : κ) (hheld : c.held i = some (k, false)) :
      Step c { c.hold i none with listed := fun k' => c.listed k' ∧ k' ≠ k }

theorem held_cases {i j : ι} {claim : Option (κ × Bool)} {k : κ} {b : Bool}
    (h : (c.hold i claim).held j = some (k, b)) :
    j = i ∧ claim = some (k, b) ∨ j ≠ i ∧ c.held j = some (k, b) := by
  by_cases hij : j = i
  · subst hij
    left
    exact ⟨rfl, by simpa [hold] using h⟩
  · right
    exact ⟨hij, by simpa [hold, hij] using h⟩

/-- **Every step keeps it.** -/
theorem Sound.step [DecidableEq κ] (h : Sound c) (hstep : Step c c') : Sound c' := by
  cases hstep with
  | stay => exact h
  | claim i k hfree hnew =>
    -- nobody holds the key, and it has had no effect
    have hheld {j b} : c.held j ≠ some (k, b) := fun hj => hnew (h.listed_of_held hj)
    have hnone : c.effects k = 0 := by
      by_contra hne
      exact hnew (h.listed_of_effect hne)
    constructor
    · intro i₁ j₁ k₁ b b' h₁ h₂
      rcases held_cases h₁ with ⟨rfl, hk⟩ | ⟨-, g₁⟩
      · rcases held_cases h₂ with ⟨rfl, -⟩ | ⟨-, g₂⟩
        · rfl
        · cases hk
          exact absurd g₂ hheld
      · rcases held_cases h₂ with ⟨rfl, hk⟩ | ⟨-, g₂⟩
        · cases hk
          exact absurd g₁ hheld
        · exact h.alone g₁ g₂
    · intro j k₁ b h₁
      rcases held_cases h₁ with ⟨rfl, hk⟩ | ⟨-, g₁⟩
      · cases hk
        exact .inr rfl
      · exact .inl (h.listed_of_held g₁)
    · intro j k₁ b h₁
      rcases held_cases h₁ with ⟨rfl, hk⟩ | ⟨-, g₁⟩
      · cases hk
        exact hnone
      · exact h.effects_of_held g₁
    · exact h.effects_le
    · exact fun hk => .inl (h.listed_of_effect hk)
    · rintro k₁ (hlisted | rfl) hzero
      · obtain ⟨j, hj⟩ := h.accounted hlisted hzero
        have hne : j ≠ i := by
          rintro rfl
          rw [hfree] at hj
          cases hj
        exact ⟨j, by simpa [hold, hne] using hj⟩
      · exact ⟨i, by simp [hold]⟩
  | effect i k hheld =>
    have hzero : c.effects k = 0 := h.effects_of_held hheld
    constructor
    · intro i₁ j₁ k₁ b b' h₁ h₂
      rcases held_cases h₁ with ⟨rfl, hk⟩ | ⟨-, g₁⟩
      · rcases held_cases h₂ with ⟨rfl, -⟩ | ⟨-, g₂⟩
        · rfl
        · cases hk
          exact h.alone hheld g₂
      · rcases held_cases h₂ with ⟨rfl, hk⟩ | ⟨-, g₂⟩
        · cases hk
          exact h.alone g₁ hheld
        · exact h.alone g₁ g₂
    · intro j k₁ b h₁
      rcases held_cases h₁ with ⟨rfl, hk⟩ | ⟨-, g₁⟩
      · cases hk
        exact h.listed_of_held hheld
      · exact h.listed_of_held g₁
    · intro j k₁ b h₁
      rcases held_cases h₁ with ⟨rfl, hk⟩ | ⟨hne, g₁⟩
      · cases hk
        simp [hzero]
      · have hk : k₁ ≠ k := by
          rintro rfl
          exact hne (h.alone g₁ hheld)
        simpa [hk] using h.effects_of_held g₁
    · intro k₁
      by_cases hk : k₁ = k
      · subst hk
        simp [hzero]
      · simpa [hk] using h.effects_le k₁
    · intro k₁ hk₁
      by_cases hk : k₁ = k
      · subst hk
        exact h.listed_of_held hheld
      · exact h.listed_of_effect (by simpa [hk] using hk₁)
    · intro k₁ hlisted hzero₁
      have hk : k₁ ≠ k := by
        rintro rfl
        simp at hzero₁
      obtain ⟨j, hj⟩ := h.accounted hlisted (by simpa [hk] using hzero₁)
      have hne : j ≠ i := by
        rintro rfl
        rw [hheld] at hj
        cases hj
        exact hk rfl
      exact ⟨j, by simpa [hold, hne] using hj⟩
  | settle i k hheld =>
    have hother {j k₁ b} (h₁ : (c.hold i none).held j = some (k₁, b)) : c.held j = some (k₁, b) := by
      rcases held_cases h₁ with ⟨-, hk⟩ | ⟨-, g₁⟩
      · cases hk
      · exact g₁
    refine ⟨fun h₁ h₂ => h.alone (hother h₁) (hother h₂), fun h₁ => h.listed_of_held (hother h₁),
      fun h₁ => h.effects_of_held (hother h₁), h.effects_le, h.listed_of_effect, ?_⟩
    intro k₁ hlisted hzero
    obtain ⟨j, hj⟩ := h.accounted hlisted hzero
    have hne : j ≠ i := by
      rintro rfl
      rw [hheld] at hj
      cases hj
    exact ⟨j, by simpa [hold, hne] using hj⟩
  | release i k hheld =>
    have hzero : c.effects k = 0 := h.effects_of_held hheld
    have hother {j k₁ b} (h₁ : (c.hold i none).held j = some (k₁, b)) :
        c.held j = some (k₁, b) ∧ k₁ ≠ k := by
      rcases held_cases h₁ with ⟨-, hk⟩ | ⟨hne, g₁⟩
      · cases hk
      · refine ⟨g₁, ?_⟩
        rintro rfl
        exact hne (h.alone g₁ hheld)
    refine ⟨fun h₁ h₂ => h.alone (hother h₁).1 (hother h₂).1,
      fun h₁ => ⟨h.listed_of_held (hother h₁).1, (hother h₁).2⟩,
      fun h₁ => h.effects_of_held (hother h₁).1, h.effects_le, ?_, ?_⟩
    · intro k₁ hk₁
      refine ⟨h.listed_of_effect hk₁, ?_⟩
      rintro rfl
      exact hk₁ hzero
    · rintro k₁ ⟨hlisted, hk⟩ hzero₁
      obtain ⟨j, hj⟩ := h.accounted hlisted hzero₁
      have hne : j ≠ i := by
        rintro rfl
        rw [hheld] at hj
        cases hj
        exact hk rfl
      exact ⟨j, by simpa [hold, hne] using hj⟩

end Claims

end Verlet.Support
