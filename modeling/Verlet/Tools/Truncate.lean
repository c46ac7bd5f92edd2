import Verlet.Tools.Edit

/-!
# Tools — Truncation

`truncate_head` of `tool-core`: the longest run of complete lines from the start of a text that fits a
number of lines and of bytes.
-/

namespace Verlet.Tools
open Support.Utf8

inductive TruncatedBy where
  | lines
  | bytes
deriving DecidableEq

structure TruncationResult where
  content : Text
  truncated : Bool
  truncatedBy : Option TruncatedBy
  totalLines : Nat
  totalBytes : Nat
  outputLines : Nat
  outputBytes : Nat
  lastLinePartial : Bool
  firstLineExceedsLimit : Bool
  maxLines : Nat
  maxBytes : Nat
deriving DecidableEq

/-- `split_terminator('\n')`. -/
def lines (content : Text) : List Text :=
  let pieces := content.splitOn '\n'
  if pieces.getLast? = some [] then pieces.dropLast else pieces

def countLines (content : Text) : Nat :=
  if content = [] then 0
  else (content.splitOn '\n').length - if content.getLast? = some '\n' then 1 else 0

def firstLine (content : Text) : Text := (content.splitOn '\n').headD []

/-- The loop over the lines: the output, how many lines and bytes it has, and what ended it. -/
def headLoop (maxBytes : Nat) : List Text → Text → Nat → Nat → Text × Nat × Nat × TruncatedBy
  | [], output, outputLines, outputBytes           => (output, outputLines, outputBytes, .lines)
  | line :: rest, output, outputLines, outputBytes =>
    let lineBytes := size line + if outputLines > 0 then 1 else 0
    if outputBytes + lineBytes > maxBytes then (output, outputLines, outputBytes, .bytes)
    else
      headLoop maxBytes rest ((if outputLines > 0 then output ++ ['\n'] else output) ++ line)
        (outputLines + 1) (outputBytes + lineBytes)

def truncateHead (content : Text) (maxLines maxBytes : Nat) : TruncationResult :=
  let whole : TruncationResult :=
    ⟨content, false, none, countLines content, size content, countLines content, size content, false, false,
      maxLines, maxBytes⟩
  if countLines content ≤ maxLines ∧ size content ≤ maxBytes then whole
  else if content ≠ [] ∧ size (firstLine content) > maxBytes then
    { whole with
      content := [], truncated := true, truncatedBy := some .bytes, outputLines := 0, outputBytes := 0
      firstLineExceedsLimit := true }
  else
    let (output, outputLines, outputBytes, endedBy) :=
      headLoop maxBytes ((lines content).take maxLines) [] 0 0
    let endedBy := if outputLines ≥ maxLines ∧ outputBytes ≤ maxBytes then .lines else endedBy
    { whole with
      content := output, truncated := true, truncatedBy := some endedBy, outputLines
      outputBytes := size output }

/-! ### Lines -/

def joinLines (ls : List Text) : Text := List.intercalate ['\n'] ls

variable {ls : List Text} {line content : Text} {maxLines maxBytes : Nat}

theorem size_lf : size ['\n'] = 1 := by decide

theorem joinLines_concat (ls : List Text) (line : Text) :
    joinLines (ls ++ [line]) = (if ls.length > 0 then joinLines ls ++ ['\n'] else joinLines ls) ++ line := by
  induction ls with
  | nil => simp [joinLines]
  | cons l ls ih =>
    cases ls with
    | nil       => simp [joinLines]
    | cons k ls =>
      simp only [joinLines, List.cons_append, List.intercalate_cons_cons] at ih ⊢
      simp [ih]

theorem size_joinLines_concat (ls : List Text) (line : Text) :
    size (joinLines (ls ++ [line])) = size (joinLines ls) + (size line + if ls.length > 0 then 1 else 0) := by
  rw [joinLines_concat]
  split
  · simp only [size_append, size_lf]
    omega
  · simp

theorem size_take_le {m n : Nat} (h : m ≤ n) : size (joinLines (ls.take m)) ≤ size (joinLines (ls.take n)) := by
  induction n, h using Nat.le_induction with
  | base => exact Nat.le_refl _
  | succ n _ ih =>
    refine ih.trans ?_
    rw [List.take_add_one]
    cases ls[n]? with
    | none      => simp
    | some line => exact (size_joinLines_concat ..).symm ▸ Nat.le_add_right ..

theorem size_take_lt {n : Nat} (hpos : 0 < n) (hn : n < ls.length) :
    size (joinLines (ls.take n)) < size (joinLines (ls.take (n + 1))) := by
  rw [List.take_add_one, List.getElem?_eq_getElem hn]
  rw [Option.toList_some, size_joinLines_concat, if_pos (by simp; omega)]
  omega

theorem lines_cases (content : Text) :
    joinLines ((lines content).take 1) = firstLine content ∧
      countLines content = (lines content).length ∧
      (content.getLast? ≠ some '\n' ∧ content = joinLines (lines content) ∨
        content.getLast? = some '\n' ∧ content = joinLines (lines content) ++ ['\n']) := by
  rcases List.eq_nil_or_concat' content with rfl | ⟨text, c, rfl⟩
  · simp [lines, countLines, joinLines, firstLine]
  · have hne := List.splitOn_ne_nil '\n' (text ++ [c])
    by_cases hc : c = '\n'
    · subst hc
      have hpieces : (text ++ ['\n']).splitOn '\n' = text.splitOn '\n' ++ [[]] := by
        rw [List.splitOn_append_cons_self, List.splitOn_nil]
      have hlines : lines (text ++ ['\n']) = text.splitOn '\n' := by simp [lines, hpieces]
      obtain ⟨l, ls, hfirst⟩ := List.exists_cons_of_ne_nil (List.splitOn_ne_nil '\n' text)
      rw [hlines]
      refine ⟨?_, by simp [countLines, hpieces], .inr ⟨by simp, ?_⟩⟩
      · simp [firstLine, hpieces, hfirst, joinLines]
      · rw [joinLines, List.intercalate_splitOn]
    · have hlast : ((text ++ [c]).splitOn '\n').getLast? ≠ some [] := by
        intro hlast
        obtain ⟨pieces, hpieces⟩ := List.getLast?_eq_some_iff.mp hlast
        have hjoin : List.intercalate ['\n'] ((text ++ [c]).splitOn '\n') = text ++ [c] :=
          List.intercalate_splitOn '\n'
        rw [hpieces, ← joinLines, joinLines_concat] at hjoin
        split at hjoin
        · exact hc (List.append_inj_right' (by simpa using hjoin.symm) rfl |> List.singleton_inj.mp)
        · next hnone =>
          obtain rfl : pieces = [] := by simpa using hnone
          simp [joinLines] at hjoin
      obtain ⟨l, ls, hfirst⟩ := List.exists_cons_of_ne_nil hne
      refine ⟨?_, by simp [countLines, lines, hlast, hc], .inl ⟨by simpa using hc, ?_⟩⟩
      · rw [lines, if_neg hlast, firstLine, hfirst]
        simp [joinLines]
      · rw [lines, if_neg hlast, joinLines, List.intercalate_splitOn]

/-! ### The loop -/

theorem headLoop_spec {done rest : List Text} (hfits : size (joinLines done) ≤ maxBytes) :
    ∃ kept endedBy, headLoop maxBytes rest (joinLines done) done.length (size (joinLines done)) =
        (joinLines (done ++ rest.take kept), done.length + kept, size (joinLines (done ++ rest.take kept)),
          endedBy) ∧
      size (joinLines (done ++ rest.take kept)) ≤ maxBytes ∧
      (endedBy = .lines ∧ kept = rest.length ∨
        endedBy = .bytes ∧ kept < rest.length ∧
          maxBytes < size (joinLines (done ++ rest.take (kept + 1)))) := by
  induction rest generalizing done with
  | nil => exact ⟨0, .lines, by simp [headLoop], by simpa using hfits, .inl ⟨rfl, rfl⟩⟩
  | cons line rest ih =>
    rw [headLoop, ← size_joinLines_concat, ← joinLines_concat]
    split
    · next hlong => exact ⟨0, .bytes, by simp, by simpa using hfits, .inr ⟨rfl, by simp, hlong⟩⟩
    · next hshort =>
      obtain ⟨kept, endedBy, hloop, hkept, hended⟩ := ih (Nat.le_of_not_lt hshort)
      refine ⟨kept + 1, endedBy, ?_, by simpa using hkept, by simpa using hended⟩
      simpa [Nat.add_comm, Nat.add_left_comm] using hloop

theorem headLoop_lines (content : Text) (maxLines maxBytes : Nat) :
    ∃ kept endedBy, headLoop maxBytes ((lines content).take maxLines) [] 0 0 =
        (joinLines ((lines content).take kept), kept, size (joinLines ((lines content).take kept)), endedBy) ∧
      kept ≤ min maxLines (lines content).length ∧ size (joinLines ((lines content).take kept)) ≤ maxBytes ∧
      (endedBy = .lines ∧ kept = min maxLines (lines content).length ∨
        endedBy = .bytes ∧ kept < min maxLines (lines content).length ∧
          maxBytes < size (joinLines ((lines content).take (kept + 1)))) := by
  obtain ⟨kept, endedBy, hloop, hkept, hended⟩ :=
    @headLoop_spec maxBytes [] ((lines content).take maxLines) (Nat.zero_le _)
  have hle : kept ≤ min maxLines (lines content).length := by
    rcases hended with ⟨-, rfl⟩ | ⟨-, hlt, -⟩
    · exact List.length_take.le
    · exact (List.length_take ▸ hlt).le
  simp only [List.nil_append, List.take_take, List.length_take, Nat.min_eq_left (le_min_iff.mp hle).1,
    List.length_nil, Nat.zero_add] at hloop hkept hended
  refine ⟨kept, endedBy, hloop, hle, hkept, hended.imp_right fun ⟨hby, hlt, hlong⟩ => ⟨hby, hlt, ?_⟩⟩
  rwa [Nat.min_eq_left (by omega)] at hlong

/-! ### The head -/

structure HeadOf (content : Text) (maxLines maxBytes : Nat) (result : TruncationResult) : Prop where
  whole : (lines content).length ≤ maxLines → size content ≤ maxBytes →
    result.content = content ∧ result.outputLines = (lines content).length
  longest : ¬((lines content).length ≤ maxLines ∧ size content ≤ maxBytes) →
    result.content = joinLines ((lines content).take result.outputLines) ∧
      result.outputLines ≤ min maxLines (lines content).length ∧ size result.content ≤ maxBytes ∧
      ∀ n ≤ min maxLines (lines content).length,
        size (joinLines ((lines content).take n)) ≤ maxBytes → n ≤ result.outputLines
  truncated : result.truncated = true ↔ result.content ≠ content
  outputBytes : result.outputBytes = size result.content
  firstLine : result.firstLineExceedsLimit = true ↔ maxBytes < size (firstLine content)
  byLines : result.truncatedBy = some .lines → result.outputLines = maxLines
  byBytes : result.truncatedBy = some .bytes →
    maxBytes < size (joinLines ((lines content).take (result.outputLines + 1))) ∨
      result.outputLines = (lines content).length ∧ maxBytes < size (joinLines (lines content) ++ ['\n'])

/-- **The longest head.**  All of it is right, unless the last line feed alone is a byte too many and the
number of lines is not reached. -/
theorem truncateHead_iff (content : Text) (maxLines maxBytes : Nat) :
    HeadOf content maxLines maxBytes (truncateHead content maxLines maxBytes) ↔
      ¬(content.getLast? = some '\n' ∧ (lines content).length < maxLines ∧ size content = maxBytes + 1) := by
  obtain ⟨hfirst, hcount, hcontent⟩ := lines_cases content
  have hempty : content = [] → (lines content).length = 0 := by rintro rfl; rfl
  have hsize : size content =
      size (joinLines (lines content)) + if content.getLast? = some '\n' then 1 else 0 := by
    rcases hcontent with ⟨hlast, heq⟩ | ⟨hlast, heq⟩
    · rw [if_neg hlast, ← heq, Nat.add_zero]
    · rw [if_pos hlast, ← size_lf, ← size_append, ← heq]
  have hprefix (n : Nat) : size (joinLines ((lines content).take n)) ≤ size (joinLines (lines content)) := by
    rcases Nat.le_total n (lines content).length with hle | hle
    · exact (size_take_le hle).trans_eq (by rw [List.take_length])
    · rw [List.take_of_length_le hle]
  rw [truncateHead, hcount]
  split
  · next hwhole =>
    refine iff_of_true ⟨fun _ _ => ⟨rfl, rfl⟩, fun h => absurd hwhole h, by simp, rfl, ?_, by simp, by simp⟩
      (by omega)
    have := hfirst ▸ hprefix 1
    exact iff_of_false (by simp) (by omega)
  · next hwhole =>
    split
    · next hlong =>
      have hone := hlong.2
      rw [← hfirst] at hone
      refine iff_of_true ⟨fun hlines hbytes => absurd ⟨hlines, hbytes⟩ hwhole,
        fun _ => ⟨rfl, Nat.zero_le _, Nat.zero_le _, fun n _ hn => ?_⟩, by simpa using hlong.1.symm, rfl,
        by simpa using hlong.2, by simp, fun _ => .inl hone⟩ ?_
      · by_contra hpos
        have := @size_take_le (lines content) 1 n (by omega)
        omega
      · rintro ⟨hlast, -, hbytes⟩
        rw [if_pos hlast] at hsize
        have := hprefix 1
        omega
    · next hshort =>
      obtain ⟨kept, endedBy, hloop, hle, hkept, hended⟩ := headLoop_lines content maxLines maxBytes
      rw [hloop]
      dsimp only
      constructor
      · rintro h ⟨hlast, hfewer, hbytes⟩
        rw [if_pos hlast] at hsize
        rcases hended with ⟨rfl, hall⟩ | ⟨-, -, hlong⟩
        · have : kept = maxLines := h.byLines (by simp)
          omega
        · have := hprefix (kept + 1)
          omega
      · intro hfine
        refine ⟨fun hlines hbytes => absurd ⟨hlines, hbytes⟩ hwhole, fun _ => ⟨rfl, hle, hkept, ?_⟩, ?_, rfl,
          iff_of_false (by simp) ?_, fun hby => (?_ : kept = maxLines), fun hby => ?_⟩
        · intro n hn hfits
          change n ≤ kept
          rcases hended with ⟨-, rfl⟩ | ⟨-, -, hlong⟩
          · exact hn
          · by_contra hmore
            have := @size_take_le (lines content) (kept + 1) n (by omega)
            omega
        · refine iff_of_true rfl fun heq => hwhole ⟨?_, heq ▸ hkept⟩
          by_contra hmore
          have hlt : kept < (lines content).length := by omega
          rcases Nat.eq_zero_or_pos kept with rfl | hpos
          · have := hempty (heq ▸ rfl)
            omega
          · have := size_take_lt hpos hlt
            have := hprefix (kept + 1)
            have hsame : size content = size (joinLines ((lines content).take kept)) := congrArg size heq.symm
            omega
        · exact fun hlong => hshort ⟨fun hnil => by simp [firstLine, hnil, size] at hlong, hlong⟩
        · by_contra hfewer
          rw [if_neg fun hall => hfewer (by omega)] at hby
          have hby : endedBy = .lines := Option.some.inj hby
          obtain ⟨-, hall⟩ := hended.resolve_right fun hcut => by simp [hby] at hcut
          rw [List.take_of_length_le (by omega)] at hkept
          split at hsize
          · next hlast => exact hfine ⟨hlast, by omega, by omega⟩
          · omega
        · have hby : ¬maxLines ≤ kept ∧ endedBy = .bytes := by
            split at hby
            · cases hby
            · next hfewer => exact ⟨fun hle => hfewer ⟨hle, hkept⟩, Option.some.inj hby⟩
          rcases hended with ⟨hlines, -⟩ | ⟨-, -, hlong⟩
          · cases hby.2.symm.trans hlines
          · exact .inl hlong

/-- **Lines, where bytes cut it off.**  The one line fits, and its line feed does not. -/
theorem last_lf_by_lines : ¬HeadOf ['a', '\n'] 5 1 (truncateHead ['a', '\n'] 5 1) := by
  intro h
  exact absurd (h.byLines (by decide)) (by decide)

end Verlet.Tools
