import Mathlib.Data.List.Infix
import Mathlib.Tactic.Ring

/-!
# Support — Globs

Patterns in which one letter, the star, stands for any number of letters.  `globMatch` is the matcher
that keeps one place to come back to: the last star it went past, and where in the value it did.
-/

namespace Verlet.Support

variable {α : Type} {star : α}

/-- `pattern` matches `value`, with `star` for any number of letters. -/
inductive Glob (star : α) : List α → List α → Prop
  | nil : Glob star [] []
  | same {pattern value : List α} (c : α) : Glob star pattern value →
      Glob star (c :: pattern) (c :: value)
  | done {pattern value : List α} : Glob star pattern value → Glob star (star :: pattern) value
  | more {pattern value : List α} (c : α) : Glob star (star :: pattern) value →
      Glob star (star :: pattern) (c :: value)

/-! ### What matches -/

variable {pattern : List α}

theorem Glob.nil_iff : Glob star pattern [] ↔ ∀ c ∈ pattern, c = star := by
  constructor
  · intro h
    generalize hvalue : ([] : List α) = value at h
    induction h with
    | nil => simp
    | same => cases hvalue
    | done _ ih => simpa using ih hvalue
    | more => cases hvalue
  · intro h
    induction pattern with
    | nil => exact .nil
    | cons c rest ih =>
      rw [List.forall_mem_cons] at h
      obtain ⟨rfl, hrest⟩ := h
      exact .done (ih hrest)

variable {value : List α}

theorem Glob.of_tail {rest : List α} (h : Glob star (star :: rest) value.tail) :
    Glob star (star :: rest) value := by
  cases value with
  | nil => exact h
  | cons c value => exact .more c h

variable {lit rest : List α}

theorem Glob.star_iff : Glob star (star :: rest) value ↔ ∃ u, u <:+ value ∧ Glob star rest u := by
  constructor
  · intro h
    generalize hpattern : star :: rest = pattern at h
    induction h with
    | nil => cases hpattern
    | same c h =>
      obtain ⟨rfl, rfl⟩ := List.cons.inj hpattern
      exact ⟨_, List.suffix_cons _ _, h⟩
    | done h =>
      obtain rfl := List.tail_eq_of_cons_eq hpattern
      exact ⟨_, List.suffix_refl _, h⟩
    | more c _ ih =>
      obtain ⟨u, hu, h⟩ := ih hpattern
      exact ⟨u, hu.trans (List.suffix_cons _ _), h⟩
  · rintro ⟨u, ⟨front, rfl⟩, h⟩
    induction front with
    | nil => exact .done h
    | cons c front ih => exact .more c ih

theorem Glob.cons_iff {c : α} (hc : c ≠ star) :
    Glob star (c :: rest) value ↔ ∃ later, value = c :: later ∧ Glob star rest later := by
  constructor
  · intro h
    cases h with
    | same _ h => exact ⟨_, rfl, h⟩
    | done | more => exact absurd rfl hc
  · rintro ⟨later, rfl, h⟩
    exact .same c h

theorem Glob.append_iff (hlit : star ∉ lit) :
    Glob star (lit ++ rest) value ↔ ∃ later, value = lit ++ later ∧ Glob star rest later := by
  induction lit generalizing value with
  | nil => simp
  | cons c lit ih =>
    obtain ⟨hc, hlit⟩ := not_or.mp (mt List.mem_cons.mpr hlit)
    rw [List.cons_append, cons_iff (Ne.symm hc)]
    simp only [ih hlit]
    constructor
    · rintro ⟨_, rfl, later, rfl, h⟩
      exact ⟨later, rfl, h⟩
    · rintro ⟨later, rfl, h⟩
      exact ⟨_, rfl, later, rfl, h⟩

theorem Glob.head {c : α} (h : Glob star pattern (c :: value)) :
    pattern.head? = some c ∨ pattern.head? = some star := by
  cases h with
  | same => exact .inl rfl
  | done | more => exact .inr rfl

/-! ### The matcher -/

variable [DecidableEq α]

/-- The matcher: `back` is what followed the last star, in the pattern and in the value. -/
def globLoop (star : α) : Nat → List α → List α → Option (List α × List α) → Bool
  | 0,        _,       _,          _    => false
  | _ + 1,    pattern, [],         _    => pattern.all fun c => c = star
  | fuel + 1, pattern, c :: value, back =>
    if pattern.head? = some c then globLoop star fuel pattern.tail value back
    else if pattern.head? = some star then
      globLoop star fuel pattern.tail (c :: value) (some (pattern.tail, c :: value))
    else
      match back with
      | some (rest, from') => globLoop star fuel rest from'.tail (some (rest, from'.tail))
      | none               => false

omit [DecidableEq α] in
/-- More than the rounds that are left, where no value is longer than `size`. -/
def globRounds (size : Nat) (pattern value : List α) : Option (List α × List α) → Nat
  | some (rest, from') => rest.length * (size + 1) ^ 2 + from'.length * (size + 1) + value.length
  | none               => (pattern.length + 1) * (size + 1) ^ 2 + value.length

/-- Match from the start, with nowhere to come back to. -/
def globMatch (star : α) (pattern value : List α) : Bool :=
  globLoop star (globRounds value.length pattern value none + 1) pattern value none

omit [DecidableEq α] in
theorem head_cons {c : α} (h : pattern.head? = some c) : pattern = c :: pattern.tail := by
  cases pattern with
  | nil => cases h
  | cons d rest => rw [Option.some.inj h]; rfl

variable {back : Option (List α × List α)}

theorem globLoop_sound {fuel : Nat} (h : globLoop star fuel pattern value back = true) :
    Glob star pattern value ∨ ∃ b ∈ back, Glob star (star :: b.1) b.2 := by
  induction fuel generalizing pattern value back with
  | zero => cases h
  | succ fuel ih =>
    cases value with
    | nil =>
      left
      simpa [globLoop, Glob.nil_iff] using h
    | cons c value =>
      simp only [globLoop] at h
      split at h
      · next hhead =>
        rcases ih h with hmatch | hback
        · rw [head_cons hhead]
          exact .inl (.same c hmatch)
        · exact .inr hback
      · split at h
        · next hhead =>
          left
          rw [head_cons hhead]
          rcases ih h with hmatch | ⟨b, hb, hmatch⟩
          · exact .done hmatch
          · cases hb
            exact hmatch
        · cases back with
          | none => cases h
          | some back =>
            right
            refine ⟨back, rfl, .of_tail ?_⟩
            rcases ih h with hmatch | ⟨b, hb, hmatch⟩
            · exact .done hmatch
            · cases hb
              exact hmatch

/-- **What the matcher accepts matches.** -/
theorem globMatch_sound (h : globMatch star pattern value = true) : Glob star pattern value := by
  rcases globLoop_sound h with hmatch | ⟨_, hnone, -⟩
  · exact hmatch
  · cases hnone

/-! ### A value without stars -/

section Aims

omit [DecidableEq α]

/-- What is left to find: the value matches from here; or it matches from the last star on, and since then
letters were passed that are no star. -/
def Aims (star : α) (pattern value : List α) : Option (List α × List α) → Prop
  | none               => Glob star pattern value
  | some (rest, from') => Glob star (star :: rest) from' ∧
      ∃ lit, star ∉ lit ∧ rest = lit ++ pattern ∧ from' = lit ++ value

variable {c : α}

theorem Aims.same (h : Aims star (c :: pattern) (c :: value) back) (hc : c ≠ star) :
    Aims star pattern value back := by
  cases back with
  | none =>
    obtain ⟨_, hvalue, h⟩ := (Glob.cons_iff hc).mp h
    exact (List.cons.inj hvalue).2 ▸ h
  | some back =>
    obtain ⟨h, lit, hlit, hrest, hfrom⟩ := h
    refine ⟨h, lit ++ [c], ?_, by simpa using hrest, by simpa using hfrom⟩
    simpa [hlit] using hc.symm

theorem Aims.pass (h : Aims star (star :: pattern) value back) :
    Aims star pattern value (some (pattern, value)) := by
  refine ⟨?_, [], List.not_mem_nil, rfl, rfl⟩
  cases back with
  | none => exact h
  | some back =>
    obtain ⟨rest, from'⟩ := back
    obtain ⟨h, lit, hlit, rfl, rfl⟩ := h
    obtain ⟨u, hu, h⟩ := Glob.star_iff.mp h
    obtain ⟨later, rfl, hlater⟩ := (Glob.append_iff hlit).mp h
    -- the letters are passed again, so what follows them is no longer than the value
    obtain ⟨found, hfound, h⟩ := Glob.star_iff.mp hlater
    refine Glob.star_iff.mpr ⟨found, ?_, h⟩
    have hsuffix : later <:+ lit ++ value := (List.suffix_append lit later).trans hu
    refine hfound.trans (List.suffix_of_suffix_length_le hsuffix (List.suffix_append lit value) ?_)
    simpa using hu.length_le

theorem Aims.miss {rest from' : List α} (h : Aims star pattern (c :: value) (some (rest, from')))
    (hsame : pattern.head? ≠ some c) (hstar : pattern.head? ≠ some star) :
    Aims star rest from'.tail (some (rest, from'.tail)) := by
  obtain ⟨h, lit, hlit, rfl, rfl⟩ := h
  refine ⟨?_, [], List.not_mem_nil, rfl, rfl⟩
  obtain ⟨u, ⟨front, hu⟩, h⟩ := Glob.star_iff.mp h
  cases front with
  | cons d front =>
    rw [← hu]
    exact Glob.star_iff.mpr ⟨u, List.suffix_append front u, h⟩
  | nil =>
    obtain ⟨later, hlater, h⟩ := (Glob.append_iff hlit).mp h
    obtain rfl : later = c :: value := by simpa [hlater] using hu
    exact absurd h.head (not_or.mpr ⟨hsame, hstar⟩)

theorem Aims.over (h : Aims star pattern [] back) : Glob star pattern [] := by
  cases back with
  | none => exact h
  | some back =>
    obtain ⟨h, lit, hlit, hrest, hfrom⟩ := h
    obtain ⟨u, hu, h⟩ := Glob.star_iff.mp h
    rw [hrest] at h
    obtain ⟨later, rfl, hlater⟩ := (Glob.append_iff hlit).mp h
    have hlength := hu.length_le
    rw [hfrom, List.append_nil, List.length_append] at hlength
    rwa [List.eq_nil_of_length_eq_zero (by omega : later.length = 0)] at hlater

/-- What is left of the pattern and the value is no longer than where there is to come back to. -/
def Behind (size : Nat) (pattern value : List α) : Option (List α × List α) → Prop
  | none               => value.length ≤ size
  | some (rest, from') =>
    pattern.length ≤ rest.length ∧ value.length ≤ from'.length ∧ from'.length ≤ size

variable {size : Nat}

theorem Behind.same (h : Behind size (c :: pattern) (c :: value) back) :
    Behind size pattern value back ∧
      globRounds size pattern value back < globRounds size (c :: pattern) (c :: value) back := by
  cases back with
  | none =>
    refine ⟨Nat.le_of_succ_le h, Nat.add_lt_add_of_le_of_lt (Nat.mul_le_mul_right _ ?_) ?_⟩ <;> simp
  | some back =>
    obtain ⟨hpattern, hvalue, hfrom⟩ := h
    exact ⟨⟨Nat.le_of_succ_le hpattern, Nat.le_of_succ_le hvalue, hfrom⟩, Nat.add_lt_add_left (by simp) _⟩

theorem Behind.pass (h : Behind size (star :: pattern) value back) :
    Behind size pattern value (some (pattern, value)) ∧
      globRounds size pattern value (some (pattern, value)) < globRounds size (star :: pattern) value back := by
  have hvalue : value.length ≤ size := by
    cases back with
    | none => exact h
    | some back => exact h.2.1.trans h.2.2
  have hless : value.length * (size + 1) < (size + 1) ^ 2 := by
    rw [Nat.pow_two]
    exact Nat.mul_lt_mul_of_pos_right (by omega) (by omega)
  refine ⟨⟨Nat.le_refl _, Nat.le_refl _, hvalue⟩, ?_⟩
  cases back with
  | none =>
    simp only [globRounds, List.length_cons, Nat.add_mul]
    omega
  | some back =>
    have hmore := Nat.mul_le_mul_right ((size + 1) ^ 2) h.1
    rw [List.length_cons, Nat.add_mul] at hmore
    simp only [globRounds]
    omega

theorem Behind.miss {from' : List α} (h : Behind size pattern (c :: value) (some (rest, from'))) :
    Behind size rest from'.tail (some (rest, from'.tail)) ∧
      globRounds size rest from'.tail (some (rest, from'.tail)) <
        globRounds size pattern (c :: value) (some (rest, from')) := by
  obtain ⟨-, hvalue, hfrom⟩ := h
  cases from' with
  | nil => cases hvalue
  | cons d from' =>
    simp only [List.length_cons, List.tail_cons] at hvalue hfrom ⊢
    refine ⟨⟨Nat.le_refl _, Nat.le_refl _, Nat.le_of_succ_le hfrom⟩, ?_⟩
    simp only [globRounds, List.length_cons, Nat.add_mul from'.length 1]
    omega

end Aims

variable {size fuel : Nat}

theorem globLoop_complete (hvalue : star ∉ value) (hback : ∀ b ∈ back, star ∉ b.2)
    (hbehind : Behind size pattern value back) (hfuel : globRounds size pattern value back < fuel)
    (h : Aims star pattern value back) : globLoop star fuel pattern value back = true := by
  induction fuel generalizing pattern value back with
  | zero => omega
  | succ fuel ih =>
    cases value with
    | nil => simpa [globLoop, Glob.nil_iff] using h.over
    | cons c value =>
      obtain ⟨hc, hvalue'⟩ := not_or.mp (mt List.mem_cons.mpr hvalue)
      simp only [globLoop]
      split
      · next hhead =>
        rw [head_cons hhead] at h hbehind hfuel
        obtain ⟨hbehind', hless⟩ := hbehind.same
        exact ih hvalue' hback hbehind' (by omega) (h.same (Ne.symm hc))
      · next hsame =>
        split
        · next hstar =>
          rw [head_cons hstar] at h hbehind hfuel
          obtain ⟨hbehind', hless⟩ := hbehind.pass
          exact ih hvalue (by rintro _ ⟨⟩; exact hvalue) hbehind' (by omega) h.pass
        · next hstar =>
          cases back with
          | none => exact absurd (Glob.head h) (not_or.mpr ⟨hsame, hstar⟩)
          | some back =>
            obtain ⟨rest, from'⟩ := back
            obtain ⟨hbehind', hless⟩ := hbehind.miss
            have hback' : star ∉ from'.tail := fun hmem => hback _ rfl (List.mem_of_mem_tail hmem)
            exact ih hback' (by rintro _ ⟨⟩; exact hback') hbehind' (by omega) (h.miss hsame hstar)

/-- **A value without stars is matched exactly if it matches.** -/
theorem globMatch_iff (hvalue : star ∉ value) :
    globMatch star pattern value = true ↔ Glob star pattern value :=
  ⟨globMatch_sound, fun h => globLoop_complete hvalue nofun (Nat.le_refl _) (Nat.lt_succ_self _) h⟩

end Verlet.Support
