import Mathlib.Data.List.DropRight
import Mathlib.Data.List.Sort
import Verlet.Support.Lines
import Verlet.Support.Utf8
import Verlet.Support.Fallible

/-!
# Tools — The edit tool

`tool-edit`: one batch of replacements on one file.  Old texts are looked for in the decoded file
with its line endings normalized; the new text is compared with the old one by lines, and the
lines that stay are written back from the bytes of the file.  Text is a list of characters, and an
offset counts characters where the source counts bytes: offsets are only compared and cut at.  A
path is UTF-8.  NFKC and the line diff come from libraries, `EditLibraries`; the tool's filesystem
is a `ToolFs` over any state.
-/

namespace Verlet.Tools
open Support
open Support.Utf8 (lossy encode)

abbrev Text := List Char

abbrev Bytes := List UInt8

def maxResultBytes : Nat := 4 * 1024 * 1024

def maxFileBytes : Nat := 8 * 1024 * 1024

inductive ToolFsError where
  | notFound (path : String)
  | denied (path : String)
  | fileTooLarge (path : String) (maxBytes : Nat)
  | io (message : String)

inductive ToolError where
  | fs (error : ToolFsError)
  | invalidArgs (message : String)
  | failed (message : String)
  | resultTooLarge

structure FileStat where
  isDir : Bool
  isFile : Bool
  size : Nat

/-- What the edit tool uses of `ToolFs`, over the state of the filesystem. -/
structure ToolFs (σ : Type) where
  stat : String → σ → Except ToolFsError FileStat
  readFileBounded : String → Nat → σ → Except ToolFsError Bytes
  writeFile : String → Bytes → σ → Except ToolFsError σ

def isPathSpace (c : Char) : Bool :=
  c.toNat = 0xA0 ∨ 0x2000 ≤ c.toNat ∧ c.toNat ≤ 0x200A ∨ c.toNat = 0x202F ∨ c.toNat = 0x205F ∨
    c.toNat = 0x3000

def normalizeToolPath (path : String) : String :=
  match path.toList.map fun c => if isPathSpace c then ' ' else c with
  | '@' :: rest => String.ofList rest
  | normalized  => String.ofList normalized

namespace EditTool

structure Edit where
  oldText : Text
  newText : Text

structure EditArgs where
  path : String
  edits : List Edit

structure EditDetails where
  diff : Text
  patch : Text
  firstChangedLine : Option Nat

structure EditOutput where
  text : String
  details : EditDetails
  editsApplied : Nat

/-! ### Line endings -/

inductive LineEnding where
  | lf
  | crLf

/-- `str::find`: the first place where the pattern stands. -/
def find (pattern text : Text) : Option Nat := text.tails.findIdx? pattern.isPrefixOf

def detectLineEnding (content : Text) : LineEnding :=
  match find ['\r', '\n'] content, find ['\n'] content with
  | some crlf, some lf => if crlf = lf - 1 then .crLf else .lf
  | _, _               => .lf

/-- `replace("\r\n", "\n")`. -/
def replaceCrLf : Text → Text
  | '\r' :: '\n' :: rest => '\n' :: replaceCrLf rest
  | c :: rest            => c :: replaceCrLf rest
  | []                   => []

def normalizeToLf (text : Text) : Text :=
  (replaceCrLf text).map fun c => if c = '\r' then '\n' else c

def restoreLineEndings (text : Text) : LineEnding → Text
  | .lf   => text
  | .crLf => text.flatMap fun c => if c = '\n' then ['\r', '\n'] else [c]

/-! ### Libraries -/

inductive ChangeTag where
  | equal
  | delete
  | insert
deriving DecidableEq

/-- `similar::Change`: one line, with its ending. -/
structure Change where
  tag : ChangeTag
  value : Text

def splitLinesWithEndings (content : Text) : List Text := splitAfter '\n' content

/-- The lines of one side of a script. -/
def linesOf (tags : List ChangeTag) (changes : List Change) : List Text :=
  (changes.filter fun change => change.tag ∈ tags).map Change.value

/-- What the tool uses of `unicode-normalization` and `similar`.  A script of `from_lines` is
correct: what it keeps and deletes are the old lines, what it keeps and inserts the new ones. -/
structure EditLibraries where
  nfkc : Text → Text
  /-- `TextDiff::from_lines(old, new).iter_all_changes()`. -/
  changes : Text → Text → List Change
  /-- `unified_diff().context_radius(..).header(..)`, as text. -/
  unifiedDiff : Text → Text → Nat → String → Text
  old_lines : ∀ old new : Text, '\r' ∉ old → '\r' ∉ new →
    linesOf [.equal, .delete] (changes old new) = splitLinesWithEndings old
  new_lines : ∀ old new : Text, '\r' ∉ old → '\r' ∉ new →
    linesOf [.equal, .insert] (changes old new) = splitLinesWithEndings new

/-! ### Errors -/

def editAccessError (path : String) (error : ToolFsError) : ToolError :=
  let message := match error with
    | .notFound _ => "Error code: ENOENT"
    | .denied _ => "Error code: EACCES"
    | .fileTooLarge path maxBytes =>
      s!"file exceeds {maxBytes} byte edit limit: {path}; split the file or use bash to apply a bounded change"
    | .io message => message
  .failed s!"Could not edit file: {path}. {message}."

def notFoundError (path : String) (editIndex totalEdits : Nat) : ToolError :=
  if totalEdits = 1 then
    .failed s!"Could not find the exact text in {path}. The old text must match exactly including all whitespace and newlines."
  else
    .failed s!"Could not find edits[{editIndex}] in {path}. The oldText must match exactly including all whitespace and newlines."

def duplicateError (path : String) (editIndex totalEdits occurrences : Nat) : ToolError :=
  if totalEdits = 1 then
    .failed s!"Found {occurrences} occurrences of the text in {path}. The text must be unique. Please provide more context to make it unique."
  else
    .failed s!"Found {occurrences} occurrences of edits[{editIndex}] in {path}. Each oldText must be unique. Please provide more context to make it unique."

def emptyOldTextError (path : String) (editIndex totalEdits : Nat) : ToolError :=
  if totalEdits = 1 then
    .failed s!"oldText must not be empty in {path}."
  else
    .failed s!"edits[{editIndex}].oldText must not be empty in {path}."

def noChangeError (path : String) (totalEdits : Nat) : ToolError :=
  if totalEdits = 1 then
    .failed s!"No changes made to {path}. The replacement produced identical content. This might indicate an issue with special characters or the text not existing as expected."
  else
    .failed s!"No changes made to {path}. The replacements produced identical content."

def lineCountError : ToolError :=
  .failed "Cannot preserve unchanged lines because the base content has a different line count."

def rangeError : ToolError := .failed "Replacement range is outside the base content."

/-! ### Matching -/

structure NormalizedEdit where
  oldText : Text
  newText : Text

def normalizeEdit (edit : Edit) : NormalizedEdit where
  oldText := normalizeToLf edit.oldText
  newText := normalizeToLf edit.newText

structure MatchResult where
  found : Bool
  index : Nat
  matchLength : Nat
  usedNormalizedMatch : Bool

structure MatchedEdit where
  editIndex : Nat
  matchIndex : Nat
  matchLength : Nat
  newText : Text

/-- The ASCII form of a smart quote, a dash or a special space. -/
def asciiForm (c : Char) : Char :=
  let n := c.toNat
  if 0x2018 ≤ n ∧ n ≤ 0x201B then Char.ofNat 39
  else if 0x201C ≤ n ∧ n ≤ 0x201F then Char.ofNat 34
  else if 0x2010 ≤ n ∧ n ≤ 0x2015 ∨ n = 0x2212 then '-'
  else if n = 0xA0 ∨ 0x2002 ≤ n ∧ n ≤ 0x200A ∨ n = 0x202F ∨ n = 0x205F ∨ n = 0x3000 then ' '
  else c

/-- `char::is_whitespace`, Unicode's `White_Space`. -/
def isWhitespace (c : Char) : Bool :=
  let n := c.toNat
  0x9 ≤ n ∧ n ≤ 0xD ∨ n = 0x20 ∨ n = 0x85 ∨ n = 0xA0 ∨ n = 0x1680 ∨ 0x2000 ≤ n ∧ n ≤ 0x200A ∨
    n = 0x2028 ∨ n = 0x2029 ∨ n = 0x202F ∨ n = 0x205F ∨ n = 0x3000

/-- `str::trim_end`. -/
def trimEnd (text : Text) : Text := text.rdropWhile isWhitespace

def normalizeForMatch (libs : EditLibraries) (text : Text) : Text :=
  List.intercalate ['\n'] (((libs.nfkc text).map asciiForm).splitOn '\n' |>.map trimEnd)

def findText (libs : EditLibraries) (content oldText : Text) : MatchResult :=
  match find oldText content with
  | some index => ⟨true, index, oldText.length, false⟩
  | none =>
    let normalizedContent := normalizeForMatch libs content
    let normalizedOldText := normalizeForMatch libs oldText
    if normalizedOldText.isEmpty then ⟨false, 0, 0, false⟩
    else
      match find normalizedOldText normalizedContent with
      | some index => ⟨true, index, normalizedOldText.length, true⟩
      | none       => ⟨false, 0, 0, false⟩

/-- `match_indices(pattern).count()`: the places where the pattern stands, from the left and
without overlaps, `skip` characters being within the last one found. -/
def matchCount (pattern : Text) : Nat → Text → Nat
  | _, []             => 0
  | skip + 1, _ :: cs => matchCount pattern skip cs
  | 0, c :: cs        =>
    if pattern.isPrefixOf (c :: cs) then 1 + matchCount pattern (pattern.length - 1) cs
    else matchCount pattern 0 cs

def countOccurrences (libs : EditLibraries) (content oldText : Text) : Nat :=
  let normalizedContent := normalizeForMatch libs content
  let normalizedOldText := normalizeForMatch libs oldText
  if normalizedOldText.isEmpty then 0
  else matchCount normalizedOldText 0 normalizedContent

/-- The loop over the edits, from `index` on. -/
def matchEdits (libs : EditLibraries) (path : String) (total : Nat) (replacementBase : Text) :
    Nat → List NormalizedEdit → Except ToolError (List MatchedEdit)
  | _, [] => .ok []
  | index, edit :: edits => do
    let matchResult := findText libs replacementBase edit.oldText
    if !matchResult.found then
      throw (notFoundError path index total)
    let occurrences := countOccurrences libs replacementBase edit.oldText
    if occurrences > 1 then
      throw (duplicateError path index total occurrences)
    let rest ← matchEdits libs path total replacementBase (index + 1) edits
    pure (⟨index, matchResult.index, matchResult.matchLength, edit.newText⟩ :: rest)

/-- `sort_by_key(|edit| edit.match_index)`. -/
def sortMatches (matched : List MatchedEdit) : List MatchedEdit :=
  matched.insertionSort fun a b => a.matchIndex ≤ b.matchIndex

/-- The `windows(2)` loop. -/
def checkOverlaps (path : String) : List MatchedEdit → Except ToolError Unit
  | previous :: current :: rest => do
    if previous.matchIndex + previous.matchLength > current.matchIndex then
      throw (.failed s!"edits[{previous.editIndex}] and edits[{current.editIndex}] overlap in {path}. Merge them into one edit or target disjoint regions.")
    checkOverlaps path (current :: rest)
  | _ => .ok ()

/-! ### Replacing -/

/-- `String::replace_range(start..start + length, newText)`. -/
def replaceRange (start length : Nat) (newText content : Text) : Text :=
  content.take start ++ newText ++ content.drop (start + length)

/-- The replacements, the last one first, on a content that begins at `offset`. -/
def applyReplacements (content : Text) (replacements : List MatchedEdit) (offset : Nat) : Text :=
  replacements.foldr
    (fun replacement result =>
      replaceRange (replacement.matchIndex - offset) replacement.matchLength replacement.newText
        result)
    content

structure LineSpan where
  start : Nat
  stop : Nat

def lineSpansFrom : Nat → List Text → List LineSpan
  | _, [] => []
  | offset, line :: lines => ⟨offset, offset + line.length⟩ :: lineSpansFrom (offset + line.length) lines

def lineSpans (content : Text) : List LineSpan := lineSpansFrom 0 (splitLinesWithEndings content)

def replacementLineRange (lines : List LineSpan) (replacement : MatchedEdit) :
    Except ToolError (Nat × Nat) :=
  let start := replacement.matchIndex
  let stop := replacement.matchIndex + replacement.matchLength
  match lines.findIdx? fun line => line.start ≤ start ∧ start < line.stop with
  | none => .error rangeError
  | some startLine =>
    match (lines.drop startLine).findIdx? fun line => stop ≤ line.stop with
    | none         => .error rangeError
    | some further => .ok (startLine, startLine + further + 1)

structure ReplacementGroup where
  startLine : Nat
  endLine : Nat
  replacements : List MatchedEdit

/-- One replacement joins the last group where it starts within it. -/
def addToGroups (groups : List ReplacementGroup) (range : Nat × Nat) (replacement : MatchedEdit) :
    List ReplacementGroup :=
  match groups.getLast? with
  | some group =>
    if range.1 < group.endLine then
      groups.dropLast ++ [{ group with
        endLine := max group.endLine range.2
        replacements := group.replacements ++ [replacement] }]
    else groups ++ [⟨range.1, range.2, [replacement]⟩]
  | none => [⟨range.1, range.2, [replacement]⟩]

def replacementGroups (lines : List LineSpan) (replacements : List MatchedEdit) :
    Except ToolError (List ReplacementGroup) :=
  replacements.foldlM
    (fun groups replacement => do
      let range ← replacementLineRange lines replacement
      pure (addToGroups groups range replacement))
    []

/-- The loop over the groups, from the original line `index` on. -/
def applyGroups (originalLines : List Text) (normalizedContent : Text)
    (normalizedLines : List LineSpan) : Nat → List ReplacementGroup → Text
  | index, [] => (originalLines.drop index).flatten
  | index, group :: groups =>
    let groupStart := (normalizedLines[group.startLine]?.map LineSpan.start).getD 0
    let groupEnd := (normalizedLines[group.endLine - 1]?.map LineSpan.stop).getD 0
    ((originalLines.take group.startLine).drop index).flatten ++
      applyReplacements ((normalizedContent.take groupEnd).drop groupStart) group.replacements
        groupStart ++
      applyGroups originalLines normalizedContent normalizedLines group.endLine groups

def applyReplacementsPreservingUnchangedLines (originalContent normalizedContent : Text)
    (replacements : List MatchedEdit) : Except ToolError Text := do
  let originalLines := splitLinesWithEndings originalContent
  let normalizedLines := lineSpans normalizedContent
  if originalLines.length ≠ normalizedLines.length then
    throw lineCountError
  let groups ← replacementGroups normalizedLines replacements
  pure (applyGroups originalLines normalizedContent normalizedLines 0 groups)

/-! ### The display diff -/

structure Row where
  kind : ChangeTag
  lineNumber : Nat
  text : Text

/-- `strip_suffix('\n')`, or the text. -/
def stripLf (text : Text) : Text := if text.getLast? = some '\n' then text.dropLast else text

def displayRows : Nat → Nat → List Change → List Row
  | _, _, [] => []
  | old, new, change :: changes =>
    let text := stripLf change.value
    match change.tag with
    | .equal  => ⟨.equal, old, text⟩ :: displayRows (old + 1) (new + 1) changes
    | .delete => ⟨.delete, old, text⟩ :: displayRows (old + 1) new changes
    | .insert => ⟨.insert, new, text⟩ :: displayRows old (new + 1) changes

def firstChangedLine : Nat → List Change → Option Nat
  | _, [] => none
  | new, change :: changes =>
    if change.tag = .equal then firstChangedLine (new + 1) changes else some new

def isVisible (rows : List Row) (contextLines index : Nat) : Bool :=
  rows.zipIdx.any fun entry =>
    entry.1.kind ≠ .equal ∧ entry.2 ≤ index + contextLines ∧ index ≤ entry.2 + contextLines

def padLeft (width : Nat) (text : Text) : Text := List.replicate (width - text.length) ' ' ++ text

def rowLine (width : Nat) (row : Row) : Text :=
  let marker := match row.kind with
    | .equal  => ' '
    | .delete => '-'
    | .insert => '+'
  marker :: padLeft width (toString row.lineNumber).toList ++ ' ' :: row.text

/-- The lines shown, a gap standing for rows left out between them or after them. -/
def renderRows (gap : Text) (width total : Nat) : Option Nat → List (Row × Nat) → List Text
  | none, []          => []
  | some previous, [] => if previous + 1 < total then [gap] else []
  | previous, (row, index) :: shown =>
    let skipped : Bool := match previous with
      | none          => index > 0
      | some previous => index > previous + 1
    (if skipped then [gap] else []) ++
      rowLine width row :: renderRows gap width total (some index) shown

def generateDisplayDiff (libs : EditLibraries) (oldContent newContent : Text)
    (contextLines : Nat) : Text × Option Nat :=
  let lineNumberWidth :=
    (toString (max (oldContent.count '\n' + 1) (newContent.count '\n' + 1))).length
  let changes := libs.changes oldContent newContent
  let rows := displayRows 1 1 changes
  let gap := ' ' :: List.replicate lineNumberWidth ' ' ++ [' ', '.', '.', '.']
  let shown := rows.zipIdx.filter fun entry => isVisible rows contextLines entry.2
  (List.intercalate ['\n'] (renderRows gap lineNumberWidth rows.length none shown),
    firstChangedLine 1 changes)

/-! ### Splicing -/

def splitByteLinesWithEndings (content : Bytes) : List Bytes := splitAfter 10 content

/-- The loop over the script, from the old line `oldLineIndex` on. -/
def spliceFrom (originalLines : List Bytes) (lineEnding : LineEnding) :
    Nat → List Change → Except ToolError Bytes
  | _, [] => .ok []
  | oldLineIndex, change :: changes =>
    match change.tag with
    | .equal =>
      match originalLines[oldLineIndex]? with
      | none => .error lineCountError
      | some line => do
        let rest ← spliceFrom originalLines lineEnding (oldLineIndex + 1) changes
        pure (line ++ rest)
    | .delete => spliceFrom originalLines lineEnding (oldLineIndex + 1) changes
    | .insert => do
      let rest ← spliceFrom originalLines lineEnding oldLineIndex changes
      pure (encode (restoreLineEndings change.value lineEnding) ++ rest)

def spliceUnchangedOriginalLines (libs : EditLibraries) (originalBytes : Bytes)
    (oldContent newContent : Text) (lineEnding : LineEnding) : Except ToolError Bytes :=
  spliceFrom (splitByteLinesWithEndings originalBytes) lineEnding 0
    (libs.changes oldContent newContent)

/-! ### The run -/

def byteOrderMark : Bytes := [0xEF, 0xBB, 0xBF]

/-- The byte order mark of the file, where it has one, and the bytes of its text. -/
def splitBom (bytes : Bytes) : Bytes × Bytes :=
  if byteOrderMark.isPrefixOf bytes then (bytes.take 3, bytes.drop 3) else ([], bytes)

/-- The first edit with an empty old text, from `index` on. -/
def checkOldTexts (path : String) (total : Nat) :
    Nat → List NormalizedEdit → Except ToolError Unit
  | _, [] => .ok ()
  | index, edit :: edits =>
    if edit.oldText.isEmpty then .error (emptyOldTextError path index total)
    else checkOldTexts path total (index + 1) edits

/-- The matches in order, and the base they are in. -/
def locateEdits (libs : EditLibraries) (path : String) (edits : List NormalizedEdit)
    (replacementBase : Text) : Except ToolError (List MatchedEdit) := do
  let matched ← matchEdits libs path edits.length replacementBase 0 edits
  let matchedEdits := sortMatches matched
  checkOverlaps path matchedEdits
  pure matchedEdits

def editText (libs : EditLibraries) (path : String) (edits : List NormalizedEdit)
    (baseContent : Text) : Except ToolError Text := do
  let usesNormalizedMatch :=
    edits.any fun edit => (findText libs baseContent edit.oldText).usedNormalizedMatch
  if usesNormalizedMatch then
    let replacementBase := normalizeForMatch libs baseContent
    let matchedEdits ← locateEdits libs path edits replacementBase
    applyReplacementsPreservingUnchangedLines baseContent replacementBase matchedEdits
  else
    let matchedEdits ← locateEdits libs path edits baseContent
    pure (applyReplacements baseContent matchedEdits 0)

/-- `run` between reading the file and writing it: the output, and the bytes to write. -/
def editBytes (libs : EditLibraries) (path : String) (edits : List NormalizedEdit)
    (bytes : Bytes) : Except ToolError (EditOutput × Bytes) := do
  let textBytes := (splitBom bytes).2
  let content := lossy textBytes
  let lineEnding := detectLineEnding content
  let baseContent := normalizeToLf content
  checkOldTexts path edits.length 0 edits
  let newContent ← editText libs path edits baseContent
  if newContent = baseContent then
    throw (noChangeError path edits.length)
  let patch := libs.unifiedDiff baseContent newContent 4 path
  let diff := generateDisplayDiff libs baseContent newContent 4
  let text := s!"Successfully replaced {edits.length} block(s) in {path}."
  if text.utf8ByteSize + (encode diff.1).length + (encode patch).length > maxResultBytes then
    throw .resultTooLarge
  let editedBytes ← spliceUnchangedOriginalLines libs textBytes baseContent newContent lineEnding
  pure (⟨text, ⟨diff.1, patch, diff.2⟩, min edits.length (2 ^ 32 - 1)⟩,
    (splitBom bytes).1 ++ editedBytes)

def readTarget {σ : Type} (fs : ToolFs σ) (pathDisplay path : String) (s : σ) :
    Except ToolError Bytes :=
  match fs.stat path s with
  | .error error => .error (editAccessError pathDisplay error)
  | .ok stat =>
    if !stat.isFile && !stat.isDir then
      .error (editAccessError pathDisplay (.io "path is not a regular file"))
    else if stat.size > maxFileBytes then
      .error (editAccessError pathDisplay (.fileTooLarge path maxFileBytes))
    else (fs.readFileBounded path maxFileBytes s).mapError (editAccessError pathDisplay)

/-- `run`: the output, and the filesystem after the write. -/
def run {σ : Type} (fs : ToolFs σ) (libs : EditLibraries) (args : EditArgs) (s : σ) :
    Except ToolError (EditOutput × σ) := do
  if args.edits.isEmpty then
    throw (.failed "Edit tool input is invalid. edits must contain at least one replacement.")
  let edits := args.edits.map normalizeEdit
  let path := normalizeToolPath args.path
  let bytes ← readTarget fs args.path path s
  let edited ← editBytes libs args.path edits bytes
  let s' ← (fs.writeFile path edited.2 s).mapError ToolError.fs
  pure (edited.1, s')

end EditTool

end Verlet.Tools
