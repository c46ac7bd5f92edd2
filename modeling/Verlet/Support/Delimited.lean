import Mathlib.Data.List.Basic

/-!
# Support — Delimited names

Names made of parts with a separator between them, as lists.  `Within sep p q` says that `q` is
`p` or continues it after a separator, so that a name covers its parts' descendants and no name
that only begins alike.
-/

namespace Verlet.Support

variable {α : Type} {sep : α} {p q s : List α}

/-- `q` is `p`, or goes on from `p` with the separator. -/
def Within (sep : α) (p q : List α) : Prop := q = p ∨ p ++ [sep] <+: q

theorem Within.isPrefix (h : Within sep p q) : p <+: q := by
  rcases h with rfl | h
  · exact List.prefix_rfl
  · exact (List.prefix_append p [sep]).trans h

theorem Within.of_isPrefix (h : Within sep p s) (hpq : p <+: q) (hqs : q <+: s) :
    Within sep p q := by
  obtain ⟨t, rfl⟩ := hpq
  cases t with
  | nil => exact .inl (List.append_nil p)
  | cons c t =>
    -- the name goes on where the covered one does, so with the separator
    obtain ⟨u, rfl⟩ := hqs
    right
    rcases h with h | h
    · simp at h
    · rw [List.append_assoc, List.prefix_append_right_inj] at h
      obtain ⟨v, hv⟩ := h
      obtain ⟨rfl, -⟩ := List.cons.inj hv
      rw [List.prefix_append_right_inj]
      exact ⟨t, rfl⟩

/-- **Of two names that cover a third, one covers the other.** -/
theorem Within.comparable (hp : Within sep p s) (hq : Within sep q s) :
    Within sep p q ∨ Within sep q p := by
  rcases List.prefix_or_prefix_of_prefix hp.isPrefix hq.isPrefix with h | h
  · exact .inl (hp.of_isPrefix h hq.isPrefix)
  · exact .inr (hq.of_isPrefix h hp.isPrefix)

theorem within_iff_dropPrefix [BEq α] [LawfulBEq α] :
    Within sep p q ↔ ∃ t, q.dropPrefix? p = some t ∧ (t = [] ∨ t.head? = some sep) := by
  simp only [List.dropPrefix?_eq_some_iff, beq_iff_eq]
  constructor
  · intro h
    rcases h with rfl | ⟨t, rfl⟩
    · exact ⟨[], ⟨q, by simp⟩, .inl rfl⟩
    · exact ⟨sep :: t, ⟨p, by simp⟩, .inr rfl⟩
  · intro h
    obtain ⟨t, ⟨_, rfl, rfl⟩, rfl | hhead⟩ := h
    · exact .inl (List.append_nil _)
    · obtain ⟨t, rfl⟩ := List.head?_eq_some_iff.mp hhead
      exact .inr ⟨t, by simp⟩

/-! ### Joined names -/

/-- **Two names are the same where their parts are**, if no first part has the separator. -/
theorem joined_inj (hp : sep ∉ p) (hq : sep ∉ q) {s t : List α} :
    p ++ sep :: s = q ++ sep :: t ↔ p = q ∧ s = t := by
  constructor
  · intro h
    rcases List.append_eq_append_iff.mp h with ⟨u, rfl, hu⟩ | ⟨u, rfl, hu⟩
    · cases u with
      | nil      => exact ⟨by simp, (List.cons.inj hu).2⟩
      | cons c u =>
        obtain ⟨rfl, -⟩ := List.cons.inj hu
        exact absurd (by simp) hq
    · cases u with
      | nil      => exact ⟨by simp, (List.cons.inj hu).2.symm⟩
      | cons c u =>
        obtain ⟨rfl, -⟩ := List.cons.inj hu
        exact absurd (by simp) hp
  · rintro ⟨rfl, rfl⟩
    rfl

theorem joined_ne (hp : sep ∉ p) (s : List α) : p ≠ q ++ sep :: s := by
  rintro rfl
  exact hp (by simp)

end Verlet.Support
