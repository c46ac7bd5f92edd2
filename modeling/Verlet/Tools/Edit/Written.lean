import Verlet.Tools.Edit.Splice

/-!
# Tools — What the edit tool writes
-/

namespace Verlet.Tools.EditTool
open Support
open Support.Utf8 (lossy)

/-- The text of the file, without byte order mark and with line feeds for line breaks. -/
def baseText (bytes : Bytes) : Text := lineText (splitBom bytes).2

/-- The script between the text and the edited text preserves the lines it keeps. -/
def PreservesLines (libs : EditLibraries) (bytes : Bytes) (edits : List NormalizedEdit) : Prop :=
  Preserves (splitByteLinesWithEndings (splitBom bytes).2)
    (detectLineEnding (lossy (splitBom bytes).2))
    (libs.changes (baseText bytes) (editedText (baseText bytes) edits))

variable {σ : Type} {fs : ToolFs σ} {libs : EditLibraries} {args : EditArgs} {s s' : σ}
  {output : EditOutput} {bytes : Bytes}

theorem readTarget_ok {display path : String} (h : readTarget fs display path s = .ok bytes) :
    fs.readFileBounded path maxFileBytes s = .ok bytes := by
  unfold readTarget at h
  split at h
  · cases h
  · split_ifs at h
    cases hfile : fs.readFileBounded path maxFileBytes s with
    | error e => rw [hfile] at h; cases h
    | ok b    => simpa [hfile, Except.mapError] using h

theorem run_ok (h : run fs libs args s = .ok (output, s')) :
    ∃ bytes written, fs.readFileBounded (normalizeToolPath args.path) maxFileBytes s = .ok bytes ∧
      editBytes libs args.path (args.edits.map normalizeEdit) bytes = .ok (output, written) ∧
      fs.writeFile (normalizeToolPath args.path) written s = .ok s' := by
  unfold run at h
  split at h
  · cases h
  · obtain ⟨bytes, hread, h⟩ := bind_ok.1 h
    obtain ⟨edited, hedited, h⟩ := bind_ok.1 h
    obtain ⟨s₁, hwrite, h⟩ := bind_ok.1 h
    obtain ⟨rfl, rfl⟩ := Prod.mk.inj (pure_ok.1 h)
    refine ⟨bytes, edited.2, readTarget_ok hread, hedited, ?_⟩
    cases hwritten : fs.writeFile (normalizeToolPath args.path) edited.2 s with
    | error e => rw [hwritten] at hwrite; cases hwrite
    | ok s₂   => simpa [hwritten, Except.mapError] using hwrite

theorem editBytes_ok {path : String} {edits : List NormalizedEdit} {written : Bytes}
    (hexact : MatchesExactly (baseText bytes) edits)
    (h : editBytes libs path edits bytes = .ok (output, written)) :
    ∃ body, written = (splitBom bytes).1 ++ body ∧
      spliceFrom (splitByteLinesWithEndings (splitBom bytes).2)
        (detectLineEnding (lossy (splitBom bytes).2)) 0
        (libs.changes (baseText bytes) (editedText (baseText bytes) edits)) = .ok body := by
  unfold editBytes at h
  obtain ⟨_, -, h⟩ := bind_ok.1 h
  obtain ⟨new, hnew, h⟩ := bind_ok.1 h
  obtain rfl := editText_exact hexact hnew
  dsimp only at h
  split at h
  · cases h
  · split at h
    · cases h
    · obtain ⟨body, hbody, h⟩ := bind_ok.1 h
      obtain ⟨-, rfl⟩ := Prod.mk.inj (pure_ok.1 h)
      exact ⟨body, rfl, hbody⟩

/-- **A run writes the edited text exactly where the diff preserves the lines it keeps.** -/
theorem run_writes_editedText
    (hread : fs.readFileBounded (normalizeToolPath args.path) maxFileBytes s = .ok bytes)
    (hexact : MatchesExactly (baseText bytes) (args.edits.map normalizeEdit))
    (hok : run fs libs args s = .ok (output, s')) :
    ∃ body,
      editBytes libs args.path (args.edits.map normalizeEdit) bytes
        = .ok (output, (splitBom bytes).1 ++ body) ∧
      fs.writeFile (normalizeToolPath args.path) ((splitBom bytes).1 ++ body) s = .ok s' ∧
      (lineText body = editedText (baseText bytes) (args.edits.map normalizeEdit) ↔
        PreservesLines libs bytes (args.edits.map normalizeEdit)) := by
  obtain ⟨bytes', written, hread', hedited, hwrite⟩ := run_ok hok
  obtain rfl : bytes = bytes' := Except.ok.inj (hread.symm.trans hread')
  obtain ⟨body, rfl, hsplice⟩ := editBytes_ok hexact hedited
  have hbase : '\r' ∉ baseText bytes := no_cr_normalizeToLf _
  have hnew : '\r' ∉ editedText (baseText bytes) (args.edits.map normalizeEdit) :=
    no_cr_editedText hbase args.edits
  exact ⟨body, hedited, hwrite, splice_iff (libs.new_lines _ _ hbase hnew) hnew hsplice⟩

/-! ### A small library and a file -/

/-- The common first lines are kept; the rest is deleted and inserted. -/
def prefixScript : List Text → List Text → List Change
  | [], news => news.map (⟨.insert, ·⟩)
  | olds, [] => olds.map (⟨.delete, ·⟩)
  | old :: olds, new :: news =>
    if old = new then ⟨.equal, old⟩ :: prefixScript olds news
    else (old :: olds).map (⟨.delete, ·⟩) ++ (new :: news).map (⟨.insert, ·⟩)

theorem linesOf_all (tags : List ChangeTag) (tag : ChangeTag) (lines : List Text) :
    linesOf tags (lines.map (⟨tag, ·⟩)) = if tag ∈ tags then lines else [] := by
  induction lines with
  | nil => simp [linesOf]
  | cons line lines ih => by_cases h : tag ∈ tags <;> simp_all [linesOf_cons]

theorem linesOf_prefixScript (olds news : List Text) :
    linesOf [.equal, .delete] (prefixScript olds news) = olds ∧
      linesOf [.equal, .insert] (prefixScript olds news) = news := by
  fun_induction prefixScript olds news with
  | case1 news => simp [linesOf_all]
  | case2 olds h => simp [linesOf_all]
  | case3 old olds news ih => simp [linesOf_cons, ih.1, ih.2]
  | case4 old olds new news hne => simp [linesOf_append, linesOf_all, linesOf_cons]

/-- A library whose scripts begin with the common lines. -/
def sampleLibraries : EditLibraries where
  nfkc := id
  changes old new := prefixScript (splitLinesWithEndings old) (splitLinesWithEndings new)
  unifiedDiff _ _ _ _ := []
  old_lines _ _ _ _ := (linesOf_prefixScript _ _).1
  new_lines _ _ _ _ := (linesOf_prefixScript _ _).2

def oneFile : ToolFs Bytes where
  stat _ bytes := .ok ⟨false, true, bytes.length⟩
  readFileBounded _ maxBytes bytes :=
    if bytes.length ≤ maxBytes then .ok bytes else .error (.fileTooLarge "" maxBytes)
  writeFile _ content _ := .ok content

/-- A file with a byte order mark and CRLF line endings, of two lines. -/
def crLfFile : Bytes := [0xEF, 0xBB, 0xBF, 97, 13, 10, 98, 13, 10]

/-- A file of three lines, the first of which ends with a lone carriage return. -/
def loneCrFile : Bytes := [97, 13, 98, 10, 99, 10]

def editOnce (oldText newText : Text) : EditArgs where
  path := "notes.txt"
  edits := [⟨oldText, newText⟩]

def writes (file : Bytes) (args : EditArgs) : Option Bytes :=
  (run oneFile sampleLibraries args file).toOption.map Prod.snd

theorem crLfFile_written :
    writes crLfFile (editOnce ['b'] ['c'])
      = some [0xEF, 0xBB, 0xBF, 97, 13, 10, 99, 13, 10] := by decide

theorem loneCrFile_written :
    writes loneCrFile (editOnce ['c'] ['d']) = some [97, 13, 98, 10, 99, 10, 100, 10] := by
  decide

theorem ok_of_writes {file written : Bytes} {args : EditArgs}
    (h : writes file args = some written) :
    ∃ output, run oneFile sampleLibraries args file = .ok (output, written) := by
  unfold writes at h
  cases hrun : run oneFile sampleLibraries args file with
  | error e => rw [hrun] at h; cases h
  | ok r =>
    rw [hrun] at h
    obtain rfl : r.2 = written := by simpa [Except.toOption] using h
    exact ⟨r.1, rfl⟩

/-- The theorem on a CRLF file with a byte order mark. -/
theorem run_writes_editedText_crLf : ∃ output written body,
    run oneFile sampleLibraries (editOnce ['b'] ['c']) crLfFile = .ok (output, written) ∧
      written = byteOrderMark ++ body ∧
      (lineText body = editedText (baseText crLfFile) [⟨['b'], ['c']⟩] ↔
        PreservesLines sampleLibraries crLfFile [⟨['b'], ['c']⟩]) := by
  obtain ⟨output, hrun⟩ := ok_of_writes crLfFile_written
  have hexact : MatchesExactly (baseText crLfFile)
      ((editOnce ['b'] ['c']).edits.map normalizeEdit) := by decide
  obtain ⟨body, -, hwrite, hiff⟩ := run_writes_editedText rfl hexact hrun
  exact ⟨output, _, body, hrun, (Except.ok.inj hwrite).symm, hiff⟩

/-- **A line written twice.**  After a lone carriage return the lines of bytes are behind: the
line that was replaced is taken for the one before it, and stays beside its replacement. -/
theorem lone_cr_corrupts : ∃ output written,
    run oneFile sampleLibraries (editOnce ['c'] ['d']) loneCrFile = .ok (output, written) ∧
      MatchesExactly (baseText loneCrFile) [⟨['c'], ['d']⟩] ∧
      (splitBom loneCrFile).1 = [] ∧
      lineText written = ['a', '\n', 'b', '\n', 'c', '\n', 'd', '\n'] ∧
      lineText written ≠ editedText (baseText loneCrFile) [⟨['c'], ['d']⟩] := by
  obtain ⟨output, hrun⟩ := ok_of_writes loneCrFile_written
  exact ⟨output, _, hrun, by decide, rfl, by decide, by decide⟩

end Verlet.Tools.EditTool
