import Mathlib.Data.List.Infix
import Verlet.Tools.Edit.LineEndings

/-!
# Tools — What a batch of edits asks for

`editedText`: the text in which the span of each old text, where it stands first, is the new text,
told from the left and without regard to how the tool does it.
-/

namespace Verlet.Tools.EditTool
open Support

/-- A part of a text and what is to stand there. -/
structure Span where
  start : Nat
  length : Nat
  newText : Text

/-- The text from `pos` on, with the spans replaced, the first one first. -/
def replaceSpans : Nat → Text → List Span → Text
  | _, rest, [] => rest
  | pos, rest, span :: spans =>
    rest.take (span.start - pos) ++ span.newText ++
      replaceSpans (span.start + span.length) (rest.drop (span.start + span.length - pos)) spans

/-- Where an old text stands first. -/
def spanOf (base : Text) (edit : NormalizedEdit) : Span where
  start := (find edit.oldText base).getD 0
  length := edit.oldText.length
  newText := edit.newText

/-- The base with every matched span replaced. -/
def editedText (base : Text) (edits : List NormalizedEdit) : Text :=
  replaceSpans 0 base ((edits.map (spanOf base)).insertionSort fun a b => a.start ≤ b.start)

def MatchesExactly (base : Text) (edits : List NormalizedEdit) : Prop :=
  ∀ edit ∈ edits, (find edit.oldText base).isSome

instance (base : Text) (edits : List NormalizedEdit) : Decidable (MatchesExactly base edits) :=
  inferInstanceAs (Decidable (∀ edit ∈ edits, (find edit.oldText base).isSome))

/-! ### Replacing from the right and from the left -/

def MatchedEdit.span (edit : MatchedEdit) : Span where
  start := edit.matchIndex
  length := edit.matchLength
  newText := edit.newText

/-- The spans lie in the text from `pos` on, one after the other. -/
def Disjoint (content : Text) : Nat → List Span → Prop
  | _, [] => True
  | pos, span :: spans =>
    pos ≤ span.start ∧ span.start + span.length ≤ content.length ∧
      Disjoint content (span.start + span.length) spans

variable {matched : List MatchedEdit}

theorem applyReplacements_eq {content : Text} {pos : Nat}
    (h : Disjoint content pos (matched.map MatchedEdit.span)) :
    applyReplacements content matched 0
      = content.take pos ++ replaceSpans pos (content.drop pos) (matched.map MatchedEdit.span) := by
  induction matched generalizing pos with
  | nil => simp [applyReplacements, replaceSpans]
  | cons edit matched ih =>
    obtain ⟨hpos, hin, hrest⟩ := h
    simp only [MatchedEdit.span] at hpos hin hrest
    have hlen : (content.take (edit.matchIndex + edit.matchLength)).length
        = edit.matchIndex + edit.matchLength := by
      simpa using hin
    have htake : (content.take (edit.matchIndex + edit.matchLength)).take edit.matchIndex
        = content.take edit.matchIndex := by
      rw [List.take_take, Nat.min_eq_left (Nat.le_add_right _ _)]
    have hsplit : content.take edit.matchIndex
        = content.take pos ++ (content.drop pos).take (edit.matchIndex - pos) := by
      rw [← List.take_append_drop pos (content.take edit.matchIndex), List.take_take,
        List.drop_take, Nat.min_eq_left hpos]
    have hdrop : (content.drop pos).drop (edit.matchIndex + edit.matchLength - pos)
        = content.drop (edit.matchIndex + edit.matchLength) := by
      rw [List.drop_drop]
      congr 1
      omega
    have hstep : applyReplacements content (edit :: matched) 0
        = replaceRange edit.matchIndex edit.matchLength edit.newText
            (applyReplacements content matched 0) := rfl
    rw [hstep, ih hrest]
    simp only [MatchedEdit.span, List.map_cons, replaceSpans, replaceRange, hdrop]
    rw [List.take_append_of_le_length (by omega), htake, hsplit, List.drop_append_of_le_length
      (by omega), List.drop_eq_nil_of_le hlen.le]
    simp

/-! ### What matching finds -/

theorem find_le {pattern text : Text} {index : Nat} (h : find pattern text = some index) :
    index + pattern.length ≤ text.length := by
  rw [find, List.findIdx?_eq_some_iff_getElem] at h
  obtain ⟨hlt, hp, -⟩ := h
  have hpre : pattern <+: text.drop index := by
    simpa [List.getElem_tails] using hp
  have hlen := hpre.length_le
  simp only [List.length_tails, List.length_drop] at hlt hlen
  omega

variable {libs : EditLibraries} {base : Text}

theorem findText_exact {oldText : Text} (h : (find oldText base).isSome) :
    findText libs base oldText = ⟨true, (find oldText base).getD 0, oldText.length, false⟩ := by
  obtain ⟨index, hindex⟩ := Option.isSome_iff_exists.1 h
  simp only [findText, hindex, Option.getD_some]

variable {path : String}

theorem spans_of_matchEdits {total index : Nat} {edits : List NormalizedEdit}
    (hexact : MatchesExactly base edits)
    (h : matchEdits libs path total base index edits = .ok matched) :
    matched.map MatchedEdit.span = edits.map (spanOf base) := by
  induction edits generalizing index matched with
  | nil =>
    obtain rfl : [] = matched := Except.ok.inj h
    rfl
  | cons edit edits ih =>
    have hfound := @findText_exact libs _ _ (hexact edit (List.mem_cons_self ..))
    simp only [matchEdits, hfound, Bool.not_true, Bool.false_eq_true, if_false] at h
    split at h
    · cases h
    · obtain ⟨rest, hrest, h⟩ := bind_ok.1 h
      obtain rfl := pure_ok.1 h
      rw [List.map_cons, List.map_cons,
        ih (fun e he => hexact e (List.mem_cons_of_mem _ he)) hrest]
      rfl

theorem disjoint_of_checkOverlaps {content : Text} {pos : Nat}
    (h : checkOverlaps path matched = .ok ())
    (hin : ∀ edit ∈ matched, edit.matchIndex + edit.matchLength ≤ content.length)
    (hpos : ∀ edit ∈ matched.head?, pos ≤ edit.matchIndex) :
    Disjoint content pos (matched.map MatchedEdit.span) := by
  induction matched generalizing pos with
  | nil => trivial
  | cons edit rest ih =>
    refine ⟨hpos edit rfl, hin edit (List.mem_cons_self ..), ?_⟩
    have hin' := fun e he => hin e (List.mem_cons_of_mem edit he)
    cases rest with
    | nil => trivial
    | cons next rest =>
      simp only [checkOverlaps] at h
      split at h
      · cases h
      · rename_i hdisjoint
        refine ih h hin' fun e he => ?_
        obtain rfl : next = e := by simpa using he
        exact Nat.not_lt.1 hdisjoint

theorem spans_sortMatches (matched : List MatchedEdit) :
    (sortMatches matched).map MatchedEdit.span
      = (matched.map MatchedEdit.span).insertionSort fun a b => a.start ≤ b.start :=
  List.map_insertionSort _ _ _ _ fun _ _ _ _ => Iff.rfl

/-- **What an exact batch makes of the text.** -/
theorem editText_exact {edits : List NormalizedEdit} {new : Text}
    (hexact : MatchesExactly base edits) (h : editText libs path edits base = .ok new) :
    new = editedText base edits := by
  have hnormalized :
      (edits.any fun edit => (findText libs base edit.oldText).usedNormalizedMatch) = false := by
    rw [List.any_eq_false]
    intro edit hedit
    rw [findText_exact (hexact edit hedit)]
    exact Bool.false_ne_true
  simp only [editText, hnormalized, Bool.false_eq_true, if_false, locateEdits] at h
  obtain ⟨sorted, hsorted, h⟩ := bind_ok.1 h
  obtain rfl := pure_ok.1 h
  obtain ⟨matched, hmatched, hsorted⟩ := bind_ok.1 hsorted
  obtain ⟨_, hoverlaps, hsorted⟩ := bind_ok.1 hsorted
  obtain rfl := pure_ok.1 hsorted
  have hspans := spans_of_matchEdits hexact hmatched
  have hin : ∀ edit ∈ sortMatches matched,
      edit.matchIndex + edit.matchLength ≤ base.length := by
    intro edit hedit
    have hmem : edit ∈ matched := (List.perm_insertionSort _ _).mem_iff.1 hedit
    have hspan : edit.span ∈ edits.map (spanOf base) :=
      hspans ▸ List.mem_map_of_mem hmem
    obtain ⟨e, he, heq⟩ := List.mem_map.1 hspan
    obtain ⟨index, hindex⟩ := Option.isSome_iff_exists.1 (hexact e he)
    have hle := find_le hindex
    simp only [spanOf, MatchedEdit.span, hindex, Option.getD_some, Span.mk.injEq] at heq
    omega
  have hdisjoint := disjoint_of_checkOverlaps hoverlaps hin fun _ _ => Nat.zero_le _
  rw [applyReplacements_eq hdisjoint, spans_sortMatches, hspans]
  rfl

/-! ### No carriage return comes in -/

theorem no_cr_replaceSpans {spans : List Span} (hnew : ∀ span ∈ spans, '\r' ∉ span.newText)
    {pos : Nat} {rest : Text} (hrest : '\r' ∉ rest) : '\r' ∉ replaceSpans pos rest spans := by
  induction spans generalizing pos rest with
  | nil => exact hrest
  | cons span spans ih =>
    have hlater := @ih (fun s hs => hnew s (List.mem_cons_of_mem _ hs))
      (span.start + span.length) (rest.drop (span.start + span.length - pos))
      fun h => hrest (List.mem_of_mem_drop h)
    simp only [replaceSpans, List.mem_append, not_or]
    exact ⟨⟨fun h => hrest (List.mem_of_mem_take h), hnew span (List.mem_cons_self ..)⟩, hlater⟩

theorem no_cr_editedText (hbase : '\r' ∉ base) (edits : List Edit) :
    '\r' ∉ editedText base (edits.map normalizeEdit) := by
  refine no_cr_replaceSpans (fun span hspan => ?_) hbase
  have hmem := (List.perm_insertionSort _ _).mem_iff.1 hspan
  rw [List.map_map] at hmem
  obtain ⟨edit, -, rfl⟩ := List.mem_map.1 hmem
  exact no_cr_normalizeToLf _

end Verlet.Tools.EditTool
