import Verlet.Tools.Edit.Located

/-!
# Tools — An edit that is run twice

The edit tool declares itself idempotent, but it does not know a batch that it has applied: a second run
matches the batch anew, in the text that the first one made.  It leaves the file alone where that text
has no room for the batch, or the batch changes nothing in it.
-/

namespace Verlet.Tools.EditTool
open Support
open Support.Utf8 (lossy encode)

/-- A file is read as it was written, up to the length that is read. -/
def ReadsBack {σ : Type} (fs : ToolFs σ) (path : String) : Prop :=
  ∀ content s s', fs.writeFile path content s = .ok s' → ∀ bytes,
    fs.readFileBounded path maxFileBytes s' = .ok bytes ↔
      bytes = content ∧ content.length ≤ maxFileBytes

/-- The file is there to be edited, and it can be written. -/
def Edits {σ : Type} (fs : ToolFs σ) (args : EditArgs) (s : σ) (bytes : Bytes) : Prop :=
  readTarget fs args.path (normalizeToolPath args.path) s = .ok bytes ∧
    ∀ content, ∃ s', fs.writeFile (normalizeToolPath args.path) content s = .ok s'

def reportLength (libs : EditLibraries) (path : String) (edits : List NormalizedEdit)
    (base new : Text) : Nat :=
  let text := s!"Successfully replaced {edits.length} block(s) in {path}."
  text.utf8ByteSize + (encode (generateDisplayDiff libs base new 4).1).length +
    (encode (libs.unifiedDiff base new 4 path)).length

/-- The first place of what is sought for an old text. -/
def soughtSpan (libs : EditLibraries) (base : Text) (edit : NormalizedEdit) : Span where
  start := (find (sought libs base edit.oldText).1 (sought libs base edit.oldText).2).getD 0
  length := (sought libs base edit.oldText).1.length
  newText := edit.newText

/-- A text has room for a batch: what is sought stands in it, repeats nowhere, and lies apart. -/
structure Fits (libs : EditLibraries) (base : Text) (edits : List NormalizedEdit) : Prop where
  stands : ∀ edit ∈ edits, (sought libs base edit.oldText).1 ≠ [] ∧
    ∃ place, StandsAt (sought libs base edit.oldText).1 (sought libs base edit.oldText).2 place
  once : ∀ edit ∈ edits, ¬RepeatsApart libs base edit.oldText
  apart : List.IsChain (fun span span' => span.start + span.length ≤ span'.start)
    ((edits.map (soughtSpan libs base)).insertionSort fun span span' => span.start ≤ span'.start)

/-- What a batch makes of a text: the edited text where all old texts stand in it as they are, else what
the tool puts for the lines that their normal forms touch. -/
def TurnsInto (libs : EditLibraries) (path : String) (text : Text) (edits : List NormalizedEdit)
    (new : Text) : Prop :=
  if MatchesExactly text edits then new = editedText text edits
  else editText libs path edits text = .ok new

/-- A batch applies to a text: it has room there, and makes another text, with a report that fits. -/
def Applies (libs : EditLibraries) (path : String) (text : Text) (edits : List NormalizedEdit) : Prop :=
  Fits libs (replacementBase libs text edits) edits ∧
    ∃ new, TurnsInto libs path text edits new ∧ new ≠ text ∧
      reportLength libs path edits text new ≤ maxResultBytes

section
variable {libs : EditLibraries} {path : String} {base text oldText : Text}
  {edits : List NormalizedEdit} {matched : List MatchedEdit}

variable {bytes written : Bytes} {new : Text}

end

/-! ### Two runs -/

variable {σ : Type} {fs : ToolFs σ} {libs : EditLibraries} {args : EditArgs} {s s' : σ}
  {output : EditOutput} {bytes left : Bytes} {new : Text}

end Verlet.Tools.EditTool
