import Mathlib.Data.List.Basic

/-!
# Support — Lines

A list cut after each occurrence of a separator: lines with their endings, over any alphabet.
-/

namespace Verlet.Support

variable {α : Type} [DecidableEq α] {sep : α}

/-- The lines of a list, each with the separator that ends it; what follows the last separator
is a line where there is anything. -/
def splitAfter (sep : α) : List α → List (List α)
  | []      => []
  | a :: as =>
    if a = sep then [a] :: splitAfter sep as
    else
      match splitAfter sep as with
      | []      => [[a]]
      | l :: ls => (a :: l) :: ls

def Ended (sep : α) (x : List α) : Prop := x = [] ∨ x.getLast? = some sep

@[simp] theorem splitAfter_nil : splitAfter sep [] = [] := rfl

theorem splitAfter_sep (x : List α) : splitAfter sep (sep :: x) = [sep] :: splitAfter sep x :=
  if_pos rfl

variable {x : List α}

theorem splitAfter_ne_nil (h : x ≠ []) : splitAfter sep x ≠ [] := by
  cases x with
  | nil => exact absurd rfl h
  | cons a x =>
    unfold splitAfter
    split
    · exact List.cons_ne_nil _ _
    · split <;> exact List.cons_ne_nil _ _

/-- **The lines are the list.** -/
theorem flatten_splitAfter (x : List α) : (splitAfter sep x).flatten = x := by
  induction x with
  | nil => rfl
  | cons a x ih =>
    unfold splitAfter
    split
    · simp [ih]
    · cases h : splitAfter sep x with
      | nil       => simpa [h] using ih
      | cons l ls => simpa [h] using ih

theorem ne_nil_of_mem_splitAfter {l : List α} (h : l ∈ splitAfter sep x) : l ≠ [] := by
  induction x generalizing l with
  | nil => simp at h
  | cons a x ih =>
    unfold splitAfter at h
    split at h
    · rcases List.mem_cons.1 h with rfl | h
      · exact List.cons_ne_nil _ _
      · exact ih h
    · cases hx : splitAfter sep x with
      | nil =>
        rw [hx] at h
        obtain rfl : l = [a] := by simpa using h
        exact List.cons_ne_nil _ _
      | cons k ks =>
        rw [hx] at h
        rcases List.mem_cons.1 h with rfl | h
        · exact List.cons_ne_nil _ _
        · exact ih (hx ▸ List.mem_cons_of_mem _ h)

theorem splitAfter_append_sep (x y : List α) :
    splitAfter sep (x ++ sep :: y) = splitAfter sep (x ++ [sep]) ++ splitAfter sep y := by
  induction x with
  | nil => simp [splitAfter_sep]
  | cons a x ih =>
    simp only [List.cons_append, splitAfter, ih]
    split
    · rfl
    · cases h : splitAfter sep (x ++ [sep]) with
      | nil       => exact absurd h (splitAfter_ne_nil (by simp))
      | cons l ls => rfl

theorem Ended.splitAfter_append (h : Ended sep x) (y : List α) :
    splitAfter sep (x ++ y) = splitAfter sep x ++ splitAfter sep y := by
  rcases h with rfl | h
  · rfl
  · obtain ⟨x, rfl⟩ := List.getLast?_eq_some_iff.1 h
    rw [List.append_assoc, List.singleton_append, splitAfter_append_sep]

variable {pieces : List (List α)}

omit [DecidableEq α] in
theorem ended_flatten (h : ∀ l ∈ pieces, l.getLast? = some sep) : Ended sep pieces.flatten := by
  induction pieces with
  | nil => exact .inl rfl
  | cons l ls ih =>
    right
    rcases ih fun k hk => h k (List.mem_cons_of_mem _ hk) with hnil | hlast
    · simpa [hnil] using h l (List.mem_cons_self ..)
    · simp [hlast]

theorem ended_of_mem_dropLast {l : List α} (h : l ∈ (splitAfter sep x).dropLast) :
    l.getLast? = some sep := by
  induction x generalizing l with
  | nil => simp at h
  | cons a x ih =>
    unfold splitAfter at h
    split at h
    · rename_i heq
      cases hx : splitAfter sep x with
      | nil => simp [hx] at h
      | cons k ks =>
        rw [hx, List.dropLast_cons_of_ne_nil (List.cons_ne_nil _ _), ← hx] at h
        rcases List.mem_cons.1 h with rfl | h
        · rw [heq]; rfl
        · exact ih h
    · cases hx : splitAfter sep x with
      | nil => simp [hx] at h
      | cons k ks =>
        rw [hx] at h
        cases ks with
        | nil => simp at h
        | cons k' ks =>
          rw [hx] at ih
          rw [List.dropLast_cons_of_ne_nil (List.cons_ne_nil _ _)] at h ih
          rcases List.mem_cons.1 h with rfl | h
          · have hk := ih (List.mem_cons_self ..)
            cases k with
            | nil      => simp at hk
            | cons b k => simpa using hk
          · exact ih (List.mem_cons_of_mem _ h)

/-- **Pieces of which all but the last end a line** are cut one by one. -/
theorem splitAfter_flatten (h : ∀ l ∈ pieces.dropLast, l.getLast? = some sep) :
    splitAfter sep pieces.flatten = pieces.flatMap (splitAfter sep) := by
  induction pieces with
  | nil => rfl
  | cons l ls ih =>
    cases ls with
    | nil => simp
    | cons k ks =>
      rw [List.dropLast_cons_of_ne_nil (List.cons_ne_nil _ _)] at h
      have hl : Ended sep l := .inr (h l (List.mem_cons_self ..))
      rw [List.flatten_cons, hl.splitAfter_append, List.flatMap_cons,
        ih fun l' hl' => h l' (List.mem_cons_of_mem _ hl')]

theorem length_flatMap_splitAfter (hne : ∀ l ∈ pieces, l ≠ []) :
    pieces.length ≤ (pieces.flatMap (splitAfter sep)).length := by
  induction pieces with
  | nil => simp
  | cons l ls ih =>
    have hl : 0 < (splitAfter sep l).length :=
      List.length_pos_of_ne_nil (splitAfter_ne_nil (hne l (List.mem_cons_self ..)))
    have hls := ih fun l' hl' => hne l' (List.mem_cons_of_mem _ hl')
    simp only [List.flatMap_cons, List.length_cons, List.length_append]
    omega

/-- **Pieces that are as many as their lines are the lines.** -/
theorem pieces_eq_lines (hne : ∀ l ∈ pieces, l ≠ [])
    (hlen : (pieces.flatMap (splitAfter sep)).length = pieces.length) :
    pieces.flatMap (splitAfter sep) = pieces := by
  induction pieces with
  | nil => rfl
  | cons l ls ih =>
    have hl : 0 < (splitAfter sep l).length :=
      List.length_pos_of_ne_nil (splitAfter_ne_nil (hne l (List.mem_cons_self ..)))
    have hls : ls.length ≤ (ls.flatMap (splitAfter sep)).length :=
      length_flatMap_splitAfter fun l' hl' => hne l' (List.mem_cons_of_mem _ hl')
    simp only [List.flatMap_cons, List.length_cons, List.length_append] at hlen ⊢
    have hone : (splitAfter sep l).length = 1 := by omega
    obtain ⟨k, hk⟩ := List.length_eq_one_iff.1 hone
    have hlk : (splitAfter sep l).flatten = l := flatten_splitAfter l
    rw [hk] at hlk ⊢
    rw [ih (fun l' hl' => hne l' (List.mem_cons_of_mem _ hl')) (by omega), ← hlk]
    simp

theorem splitAfter_flatten_prefix {p s : List (List α)} (h : splitAfter sep x = p ++ s) :
    splitAfter sep p.flatten = p := by
  have hne : ∀ l ∈ p ++ s, l ≠ [] := fun l hl => ne_nil_of_mem_splitAfter (h ▸ hl)
  have hall : (p ++ s).flatMap (splitAfter sep) = p ++ s := by
    have hended : ∀ l ∈ (p ++ s).dropLast, l.getLast? = some sep :=
      fun l hl => ended_of_mem_dropLast (h ▸ hl)
    rw [← splitAfter_flatten hended, ← h, flatten_splitAfter]
  have hp : ∀ l ∈ p, l ≠ [] := fun l hl => hne l (List.mem_append_left s hl)
  have hs : ∀ l ∈ s, l ≠ [] := fun l hl => hne l (List.mem_append_right p hl)
  have hended : ∀ l ∈ p.dropLast, l.getLast? = some sep := by
    intro l hl
    cases s with
    | nil => exact ended_of_mem_dropLast (by rwa [h, List.append_nil] : l ∈ (splitAfter sep x).dropLast)
    | cons k ks =>
      have hmem : l ∈ (splitAfter sep x).dropLast := by
        rw [h, List.dropLast_append_of_ne_nil (List.cons_ne_nil _ _)]
        exact List.mem_append_left _ (List.dropLast_subset p hl)
      exact ended_of_mem_dropLast hmem
  rw [splitAfter_flatten hended]
  refine pieces_eq_lines hp ?_
  have hlp := @length_flatMap_splitAfter _ _ sep _ hp
  have hls := @length_flatMap_splitAfter _ _ sep _ hs
  have hlen := congrArg List.length hall
  rw [List.flatMap_append, List.length_append, List.length_append] at hlen
  omega

/-- **Pieces of the first lines are these lines**, where all but the last piece end a line and
they are as many. -/
theorem pieces_eq_of_flatten_eq {p s : List (List α)} (h : splitAfter sep x = p ++ s)
    (hne : ∀ l ∈ pieces, l ≠ []) (hended : ∀ l ∈ pieces.dropLast, l.getLast? = some sep)
    (hlen : pieces.length = p.length) (hflat : pieces.flatten = p.flatten) : pieces = p := by
  have hcut : pieces.flatMap (splitAfter sep) = p := by
    rw [← splitAfter_flatten hended, hflat, splitAfter_flatten_prefix h]
  rw [← pieces_eq_lines hne (by rw [hcut, hlen]), hcut]

end Verlet.Support
