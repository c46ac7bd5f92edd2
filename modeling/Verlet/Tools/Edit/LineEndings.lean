import Verlet.Tools.Edit

/-!
# Tools — Line endings

`normalize_to_lf` turns a line break of any kind into a line feed, and `restore_line_endings` back
into the file's own.

* `normalizeToLf_append`: a text is normalized part by part, but where a part ends between the two
  characters of one line break; `normalizeToLf_seam` says what is lost there.
-/

namespace Verlet.Tools.EditTool
open Support
open Support.Utf8 (lossy encode)

/-- The two texts meet within one line break. -/
def Seam (x y : Text) : Prop := x.getLast? = some '\r' ∧ y.head? = some '\n'

theorem normalizeToLf_crLf (rest : Text) :
    normalizeToLf ('\r' :: '\n' :: rest) = '\n' :: normalizeToLf rest := by
  simp [normalizeToLf, replaceCrLf]

theorem normalizeToLf_cons {c : Char} {rest : Text} (h : ¬Seam [c] rest) :
    normalizeToLf (c :: rest) = (if c = '\r' then '\n' else c) :: normalizeToLf rest := by
  rw [normalizeToLf, replaceCrLf]
  · rfl
  · rintro rest' rfl rfl
    exact h ⟨rfl, rfl⟩

variable {x : Text}

theorem normalizeToLf_ne_nil (h : x ≠ []) : normalizeToLf x ≠ [] := by
  cases x with
  | nil => exact absurd rfl h
  | cons c rest =>
    by_cases hseam : Seam [c] rest
    · obtain ⟨hc, hrest⟩ := hseam
      obtain rfl : c = '\r' := by simpa using hc
      obtain ⟨rest, rfl⟩ := List.head?_eq_some_iff.1 hrest
      rw [normalizeToLf_crLf]
      exact List.cons_ne_nil _ _
    · rw [normalizeToLf_cons hseam]
      exact List.cons_ne_nil _ _

/-- **A text is normalized part by part**, where the parts do not meet within a line break. -/
theorem normalizeToLf_append {y : Text} (h : ¬Seam x y) :
    normalizeToLf (x ++ y) = normalizeToLf x ++ normalizeToLf y := by
  -- by the line breaks and characters of the first part
  induction x using replaceCrLf.induct with
  | case1 rest ih =>
    have hrest : ¬Seam rest y := by
      intro hs
      exact h ⟨by simp [List.getLast?_cons, hs.1], hs.2⟩
    simp only [List.cons_append, normalizeToLf_crLf, ih hrest]
  | case2 c rest hnot ih =>
    have hhead : ¬Seam [c] (rest ++ y) := by
      rintro ⟨hc, hnext⟩
      obtain rfl : c = '\r' := by simpa using hc
      cases rest with
      | nil => exact h ⟨rfl, by simpa using hnext⟩
      | cons d rest => exact hnot rest rfl (by simpa using hnext)
    have hself : ¬Seam [c] rest := by
      rintro ⟨hc, hnext⟩
      obtain rfl : c = '\r' := by simpa using hc
      obtain ⟨rest, rfl⟩ := List.head?_eq_some_iff.1 hnext
      exact hnot rest rfl rfl
    have hrest : ¬Seam rest y := by
      intro hs
      exact h ⟨by simp [List.getLast?_cons, hs.1], hs.2⟩
    rw [List.cons_append, normalizeToLf_cons hhead, normalizeToLf_cons hself, ih hrest]
    rfl
  | case3 => rfl

theorem normalizeToLf_append_lf (x y : Text) :
    normalizeToLf (x ++ '\n' :: y) = normalizeToLf (x ++ ['\n']) ++ normalizeToLf y := by
  have hseam : ¬Seam (x ++ ['\n']) y := by
    rintro ⟨hx, -⟩
    simp at hx
  rw [← normalizeToLf_append hseam, List.append_assoc, List.singleton_append]

/-- **A line break that two parts share** is counted in the first. -/
theorem normalizeToLf_seam {y : Text} (h : Seam x y) :
    normalizeToLf (x ++ y) = normalizeToLf x ++ (normalizeToLf y).tail := by
  obtain ⟨hx, hy⟩ := h
  obtain ⟨x, rfl⟩ := List.getLast?_eq_some_iff.1 hx
  obtain ⟨y, rfl⟩ := List.head?_eq_some_iff.1 hy
  have hlast : ∀ z : Text, ¬Seam x ('\r' :: z) := by
    rintro z ⟨-, hz⟩
    simp at hz
  have hlf : ¬Seam ['\n'] y := by
    rintro ⟨hn, -⟩
    simp at hn
  rw [List.append_assoc, List.singleton_append, normalizeToLf_append (hlast _),
    normalizeToLf_append (hlast _), normalizeToLf_crLf, normalizeToLf_cons hlf]
  simp [normalizeToLf, replaceCrLf]

theorem normalizeToLf_of_no_cr (h : '\r' ∉ x) : normalizeToLf x = x := by
  induction x with
  | nil => rfl
  | cons c x ih =>
    have hc : c ≠ '\r' := by rintro rfl; simp at h
    have hseam : ¬Seam [c] x := by
      rintro ⟨hr, -⟩
      exact hc (by simpa using hr)
    rw [normalizeToLf_cons hseam, if_neg hc, ih fun hx => h (List.mem_cons_of_mem _ hx)]

theorem no_cr_normalizeToLf (x : Text) : '\r' ∉ normalizeToLf x := by
  intro h
  obtain ⟨c, -, hc⟩ := List.mem_map.1 h
  by_cases hr : c = '\r'
  · rw [if_pos hr] at hc
    exact absurd hc (by decide)
  · rw [if_neg hr] at hc
    exact hr hc

@[simp] theorem restoreLineEndings_nil (ending : LineEnding) :
    restoreLineEndings [] ending = [] := by cases ending <;> rfl

theorem restoreLineEndings_append (x y : Text) (ending : LineEnding) :
    restoreLineEndings (x ++ y) ending
      = restoreLineEndings x ending ++ restoreLineEndings y ending := by
  cases ending with
  | lf   => rfl
  | crLf => exact List.flatMap_append

theorem restoreLineEndings_ended (h : x.getLast? = some '\n') (ending : LineEnding) :
    (restoreLineEndings x ending).getLast? = some '\n' := by
  obtain ⟨x, rfl⟩ := List.getLast?_eq_some_iff.1 h
  cases ending with
  | lf   => simp [restoreLineEndings]
  | crLf => simp [restoreLineEndings]

/-- **What was restored normalizes to itself.** -/
theorem normalizeToLf_restore (h : '\r' ∉ x) (ending : LineEnding) :
    normalizeToLf (restoreLineEndings x ending) = x := by
  cases ending with
  | lf => exact normalizeToLf_of_no_cr h
  | crLf =>
    induction x with
    | nil => rfl
    | cons c x ih =>
      have hx := ih fun hx => h (List.mem_cons_of_mem _ hx)
      have hc : c ≠ '\r' := by rintro rfl; simp at h
      by_cases hn : c = '\n'
      · subst hn
        simp only [restoreLineEndings, List.flatMap_cons, if_true] at hx ⊢
        rw [List.cons_append, List.singleton_append, normalizeToLf_crLf, hx]
      · have hseam : ∀ z, ¬Seam [c] z := by
          rintro z ⟨hr, -⟩
          exact hc (by simpa using hr)
        simp only [restoreLineEndings, List.flatMap_cons, if_neg hn] at hx ⊢
        rw [List.singleton_append, normalizeToLf_cons (hseam _), if_neg hc, hx]

theorem head_restoreLineEndings {ending : LineEnding} :
    (restoreLineEndings x ending).head? = some '\n' ↔ ending = .lf ∧ x.head? = some '\n' := by
  cases ending with
  | lf => simp [restoreLineEndings]
  | crLf =>
    cases x with
    | nil => simp
    | cons c x =>
      by_cases hn : c = '\n' <;> simp [restoreLineEndings, hn]

/-! ### Lines of bytes -/

def lineText (bytes : Bytes) : Text := normalizeToLf (lossy bytes)

theorem lossy_append_of_ended {x : Bytes} (h : Ended 10 x) (y : Bytes) :
    lossy (x ++ y) = lossy x ++ lossy y := by
  rcases h with rfl | h
  · rfl
  · obtain ⟨x, rfl⟩ := List.getLast?_eq_some_iff.1 h
    have hx : lossy (x ++ [10]) = lossy x ++ ['\n'] := Utf8.lossy_line x []
    rw [List.append_assoc, List.singleton_append, Utf8.lossy_line, hx]
    simp

theorem lineText_append {x : Bytes} (h : x.getLast? = some 10) (y : Bytes) :
    lineText (x ++ y) = lineText x ++ lineText y := by
  obtain ⟨x, rfl⟩ := List.getLast?_eq_some_iff.1 h
  have hx : lossy (x ++ [10]) = lossy x ++ ['\n'] := Utf8.lossy_line x []
  rw [lineText, lineText, lineText, List.append_assoc, List.singleton_append, Utf8.lossy_line,
    normalizeToLf_append_lf, hx]

theorem lineText_ended {x : Bytes} (h : x.getLast? = some 10) :
    (lineText x).getLast? = some '\n' := by
  obtain ⟨x, rfl⟩ := List.getLast?_eq_some_iff.1 h
  have hx : lossy (x ++ [10]) = lossy x ++ ['\n'] := Utf8.lossy_line x []
  rw [lineText, hx]
  by_cases hseam : Seam (lossy x) ['\n']
  · rw [normalizeToLf_seam hseam]
    obtain ⟨y, hy⟩ := List.getLast?_eq_some_iff.1 hseam.1
    have hcr : ¬Seam y ['\r'] := by
      rintro ⟨-, hr⟩
      simp at hr
    rw [hy, normalizeToLf_append hcr]
    simp [normalizeToLf, replaceCrLf]
  · rw [normalizeToLf_append hseam]
    simp [normalizeToLf, replaceCrLf]

theorem lineText_ne_nil {x : Bytes} (h : x ≠ []) : lineText x ≠ [] :=
  normalizeToLf_ne_nil (Utf8.lossy_ne_nil h)

theorem lineText_encode_restore (h : '\r' ∉ x) (ending : LineEnding) :
    lineText (encode (restoreLineEndings x ending)) = x := by
  rw [lineText, Utf8.lossy_encode, normalizeToLf_restore h]

theorem encode_ended (h : x.getLast? = some '\n') : (encode x).getLast? = some 10 := by
  obtain ⟨x, rfl⟩ := List.getLast?_eq_some_iff.1 h
  have hlf : encode ['\n'] = [10] := rfl
  rw [Utf8.encode_append, hlf]
  exact List.getLast?_concat

theorem lineText_flatten {pieces : List Bytes}
    (h : ∀ p ∈ pieces.dropLast, p.getLast? = some 10) :
    lineText pieces.flatten = (pieces.map lineText).flatten := by
  induction pieces with
  | nil => rfl
  | cons p ps ih =>
    cases ps with
    | nil => simp
    | cons p' ps =>
      rw [List.dropLast_cons_of_ne_nil (List.cons_ne_nil _ _)] at h
      rw [List.flatten_cons, lineText_append (h p (List.mem_cons_self ..)),
        ih fun q hq => h q (List.mem_cons_of_mem _ hq)]
      rfl

end Verlet.Tools.EditTool
