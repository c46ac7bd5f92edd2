import Verlet.Tools.Edit.Written

/-!
# Tools — Where the edit tool replaces

An old text is located by its first place in the text.  It is refused as ambiguous where a second scan,
over the normal forms and without overlaps, counts it more than once: where its normal form stands at two
places that do not overlap.
-/

namespace Verlet.Tools.EditTool
open Support

def StandsAt (pattern text : Text) (place : Nat) : Prop := pattern <+: text.drop place

variable (libs : EditLibraries)

def replacementBase (base : Text) (edits : List NormalizedEdit) : Text :=
  if edits.any fun edit => (findText libs base edit.oldText).usedNormalizedMatch then
    normalizeForMatch libs base
  else base

/-- What is sought for an old text, and in which text: it itself, or else the normal forms. -/
def sought (base oldText : Text) : Text × Text :=
  if (find oldText base).isSome then (oldText, base)
  else (normalizeForMatch libs oldText, normalizeForMatch libs base)

/-- The normal form of the old text is not empty, and stands at two places that do not overlap. -/
def RepeatsApart (base oldText : Text) : Prop :=
  normalizeForMatch libs oldText ≠ [] ∧
    ∃ place place', place + (normalizeForMatch libs oldText).length ≤ place' ∧
      StandsAt (normalizeForMatch libs oldText) (normalizeForMatch libs base) place ∧
      StandsAt (normalizeForMatch libs oldText) (normalizeForMatch libs base) place'

section
variable {pattern text : Text} {skip place : Nat} {c : Char}

end

variable {libs : EditLibraries} {path : String} {base oldText : Text} {edits : List NormalizedEdit}
  {matched : List MatchedEdit}

/-- What the tool replaces for an old text. -/
structure Accepted (libs : EditLibraries) (base : Text) (edit : NormalizedEdit) (m : MatchedEdit) :
    Prop where
  text : m.newText = edit.newText
  found : (findText libs base edit.oldText).found = true
  first : find (sought libs base edit.oldText).1 (sought libs base edit.oldText).2 = some m.matchIndex
  length : m.matchLength = (sought libs base edit.oldText).1.length
  once : ¬RepeatsApart libs base edit.oldText

variable {σ : Type} {fs : ToolFs σ} {args : EditArgs} {s s' : σ} {output : EditOutput} {bytes : Bytes}

end Verlet.Tools.EditTool
