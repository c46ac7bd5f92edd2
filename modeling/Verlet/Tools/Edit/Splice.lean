import Verlet.Tools.Edit.Replacing

/-!
# Tools — Whether an edit writes the edited text

The lines the diff keeps are taken from the bytes of the file by their number.  The diff counts
the lines of the normalized text, in which a lone carriage return ends a line; the bytes are cut
at line feeds only.
-/

namespace Verlet.Tools.EditTool
open Support
open Support.Utf8 (lossy encode)

/-! ### Kept lines -/

/-- The old lines a script keeps, with their numbers, from number `index` on. -/
def keptLines : Nat → List Change → List (Nat × Text)
  | _, [] => []
  | index, change :: changes =>
    match change.tag with
    | .equal  => (index, change.value) :: keptLines (index + 1) changes
    | .delete => keptLines (index + 1) changes
    | .insert => keptLines index changes

/-- What a script makes of the lines of bytes: a kept line as the bytes of its number read, an
inserted one as it is. -/
def readings (lines : List Bytes) : Nat → List Change → List Text
  | _, [] => []
  | index, change :: changes =>
    match change.tag with
    | .equal  => lineText (lines[index]?.getD []) :: readings lines (index + 1) changes
    | .delete => readings lines (index + 1) changes
    | .insert => change.value :: readings lines index changes

def isKept (change : Change) : Bool := change.tag = .equal

def upToLastKept (changes : List Change) : List Change := changes.rdropWhile (!isKept ·)

def afterLastKept (changes : List Change) : List Change := changes.rtakeWhile (!isKept ·)

def insertedLast (changes : List Change) : Text :=
  (linesOf [.insert] (afterLastKept changes)).flatten

/-- Every kept line reads as the line of bytes of its number. -/
def InStep (lines : List Bytes) (changes : List Change) : Prop :=
  ∀ entry ∈ keptLines 0 changes, lineText (lines[entry.1]?.getD []) = entry.2

/-- The last kept line ends with a carriage return, and what is inserted after it makes one line
break with that. -/
def Merges (lines : List Bytes) (ending : LineEnding) (changes : List Change) : Prop :=
  (∃ entry ∈ (keptLines 0 changes).getLast?,
      (lossy (lines[entry.1]?.getD [])).getLast? = some '\r') ∧
    ending = .lf ∧ (insertedLast changes).head? = some '\n'

/-- The kept lines are in step; or, where the last of them merges with what follows, the lines up
to it read with one line feed more than the new ones have, which is the one that gets lost. -/
def Preserves (lines : List Bytes) (ending : LineEnding) (changes : List Change) : Prop :=
  ¬Merges lines ending changes ∧ InStep lines changes ∨
    Merges lines ending changes ∧
      (readings lines 0 (upToLastKept changes)).flatten
        = (linesOf [.equal, .insert] (upToLastKept changes)).flatten ++ ['\n']

/-! ### The pieces written -/

def pieces (lines : List Bytes) (ending : LineEnding) : Nat → List Change → List Bytes
  | _, [] => []
  | index, change :: changes =>
    match change.tag with
    | .equal  => lines[index]?.getD [] :: pieces lines ending (index + 1) changes
    | .delete => pieces lines ending (index + 1) changes
    | .insert =>
      encode (restoreLineEndings change.value ending) :: pieces lines ending index changes

def oldCount (changes : List Change) : Nat := (linesOf [.equal, .delete] changes).length

variable {lines : List Bytes} {ending : LineEnding} {index : Nat} {change : Change}
  {changes later : List Change}

@[simp] theorem linesOf_append (tags : List ChangeTag) (changes later : List Change) :
    linesOf tags (changes ++ later) = linesOf tags changes ++ linesOf tags later := by
  simp [linesOf]

theorem linesOf_cons (tags : List ChangeTag) (change : Change) (changes : List Change) :
    linesOf tags (change :: changes)
      = if change.tag ∈ tags then change.value :: linesOf tags changes
        else linesOf tags changes := by
  by_cases h : change.tag ∈ tags <;> simp [linesOf, h]

theorem mem_linesOf_insert {value : Text} (h : value ∈ linesOf [.insert] changes) :
    value ∈ linesOf [.equal, .insert] changes := by
  simp only [linesOf, List.mem_map, List.mem_filter] at h ⊢
  obtain ⟨c, ⟨hc, htag⟩, rfl⟩ := h
  exact ⟨c, ⟨hc, by simp_all⟩, rfl⟩

theorem no_cr_of_mem_lines {text line : Text} (h : '\r' ∉ text)
    (hline : line ∈ splitLinesWithEndings text) : '\r' ∉ line := by
  intro hr
  have hflat : '\r' ∈ (splitLinesWithEndings text).flatten := List.mem_flatten.2 ⟨line, hline, hr⟩
  rw [splitLinesWithEndings, flatten_splitAfter] at hflat
  exact h hflat

theorem oldCount_cons (change : Change) (changes : List Change) :
    oldCount (change :: changes)
      = (if change.tag = .insert then 0 else 1) + oldCount changes := by
  cases h : change.tag <;> simp [oldCount, linesOf_cons, h, Nat.add_comm]

theorem keptLines_append :
    keptLines index (changes ++ later)
      = keptLines index changes ++ keptLines (index + oldCount changes) later := by
  induction changes generalizing index with
  | nil => rfl
  | cons change changes ih =>
    rw [oldCount_cons]
    cases h : change.tag <;> simp [keptLines, h, ih, Nat.add_assoc]

theorem pieces_append :
    pieces lines ending index (changes ++ later)
      = pieces lines ending index changes
        ++ pieces lines ending (index + oldCount changes) later := by
  induction changes generalizing index with
  | nil => rfl
  | cons change changes ih =>
    rw [oldCount_cons]
    cases h : change.tag <;> simp [pieces, h, ih, Nat.add_assoc]

theorem keptLines_of_not_kept (h : ∀ change ∈ changes, isKept change = false) :
    keptLines index changes = [] := by
  induction changes generalizing index with
  | nil => rfl
  | cons change changes ih =>
    have hc := h change (List.mem_cons_self ..)
    have hcs := fun i => @ih i fun c hm => h c (List.mem_cons_of_mem _ hm)
    cases htag : change.tag with
    | equal  => simp [isKept, htag] at hc
    | delete => simp [keptLines, htag, hcs]
    | insert => simp [keptLines, htag, hcs]

theorem pieces_of_not_kept (h : ∀ change ∈ changes, isKept change = false) :
    (pieces lines ending index changes).flatten
      = encode (restoreLineEndings (linesOf [.insert] changes).flatten ending) := by
  induction changes generalizing index with
  | nil => simp [pieces, linesOf]
  | cons change changes ih =>
    have hc := h change (List.mem_cons_self ..)
    have hcs := fun i => @ih i fun c hm => h c (List.mem_cons_of_mem _ hm)
    cases htag : change.tag with
    | equal  => simp [isKept, htag] at hc
    | delete =>
      simp [pieces, linesOf_cons, htag, hcs]
    | insert =>
      simp [pieces, linesOf_cons, htag, hcs, restoreLineEndings_append]

theorem spliceFrom_ok {out : Bytes} (h : spliceFrom lines ending index changes = .ok out) :
    out = (pieces lines ending index changes).flatten ∧
      ∀ entry ∈ keptLines index changes, entry.1 < lines.length := by
  induction changes generalizing index out with
  | nil =>
    obtain rfl : [] = out := Except.ok.inj h
    exact ⟨rfl, fun entry hentry => (List.not_mem_nil hentry).elim⟩
  | cons change changes ih =>
    cases htag : change.tag with
    | equal =>
      cases hline : lines[index]? with
      | none => simp [spliceFrom, htag, hline] at h
      | some line =>
        simp only [spliceFrom, htag, hline] at h
        obtain ⟨rest, hrest, h⟩ := bind_ok.1 h
        obtain rfl := pure_ok.1 h
        obtain ⟨rfl, hkept⟩ := ih hrest
        refine ⟨by simp [pieces, htag, hline], fun entry hentry => ?_⟩
        simp only [keptLines, htag, List.mem_cons] at hentry
        rcases hentry with rfl | hentry
        · exact (List.getElem?_eq_some_iff.1 hline).1
        · exact hkept entry hentry
    | delete =>
      simp only [spliceFrom, htag] at h
      simpa [pieces, keptLines, htag] using ih h
    | insert =>
      simp only [spliceFrom, htag] at h
      obtain ⟨rest, hrest, h⟩ := bind_ok.1 h
      obtain rfl := pure_ok.1 h
      obtain ⟨rfl, hkept⟩ := ih hrest
      exact ⟨by simp [pieces, htag], by simpa [keptLines, htag] using hkept⟩

theorem readings_eq (h : ∀ value ∈ linesOf [.insert] changes, '\r' ∉ value) :
    (pieces lines ending index changes).map lineText = readings lines index changes := by
  induction changes generalizing index with
  | nil => rfl
  | cons change changes ih =>
    cases htag : change.tag with
    | equal  => simp_all [pieces, readings, linesOf_cons]
    | delete => simp_all [pieces, readings, linesOf_cons]
    | insert =>
      simp only [linesOf_cons, htag, List.mem_singleton, if_true, List.forall_mem_cons] at h
      simp only [pieces, readings, htag, List.map_cons, lineText_encode_restore h.1, ih h.2]

theorem length_readings :
    (readings lines index changes).length = (linesOf [.equal, .insert] changes).length := by
  induction changes generalizing index with
  | nil => rfl
  | cons change changes ih => cases htag : change.tag <;> simp [readings, linesOf_cons, htag, ih]

theorem readings_eq_lines_iff :
    readings lines index changes = linesOf [.equal, .insert] changes ↔
      ∀ entry ∈ keptLines index changes, lineText (lines[entry.1]?.getD []) = entry.2 := by
  induction changes generalizing index with
  | nil => simp [readings, linesOf, keptLines]
  | cons change changes ih =>
    cases htag : change.tag <;> simp [readings, linesOf_cons, keptLines, htag, ih]

/-! ### The last kept line -/

theorem afterLastKept_not_kept (changes : List Change) :
    ∀ change ∈ afterLastKept changes, isKept change = false := by
  intro change hchange
  simpa using List.mem_rtakeWhile_imp hchange

theorem linesOf_not_kept (h : ∀ change ∈ changes, isKept change = false) :
    linesOf [.equal, .insert] changes = linesOf [.insert] changes := by
  induction changes with
  | nil => rfl
  | cons change changes ih =>
    have hcs := ih fun c hm => h c (List.mem_cons_of_mem _ hm)
    cases htag : change.tag <;> simp_all [linesOf_cons, isKept]

theorem last_kept (changes : List Change) :
    upToLastKept changes = [] ∨ ∃ before last, isKept last = true ∧
      upToLastKept changes = before ++ [last] := by
  rcases List.eq_nil_or_concat (upToLastKept changes) with h | ⟨before, last, h⟩
  · exact .inl h
  · refine .inr ⟨before, last, ?_, by simpa using h⟩
    have hne : upToLastKept changes ≠ [] := by simp [h]
    have hlast := List.rdropWhile_last_not (!isKept ·) changes hne
    have heq : (changes.rdropWhile (!isKept ·)).getLast hne = last := by
      simp only [upToLastKept] at h
      simp [h]
    rw [heq] at hlast
    simpa using hlast

theorem forall_pieces {Q : Bytes → Prop}
    (hkept : ∀ n < index + oldCount changes, Q (lines[n]?.getD []))
    (hinserted : ∀ value ∈ linesOf [.insert] changes, Q (encode (restoreLineEndings value ending))) :
    ∀ p ∈ pieces lines ending index changes, Q p := by
  induction changes generalizing index with
  | nil => exact fun p hp => (List.not_mem_nil hp).elim
  | cons change changes ih =>
    intro p hp
    rw [oldCount_cons] at hkept
    cases htag : change.tag with
    | equal =>
      simp only [htag, reduceCtorEq, if_false] at hkept
      simp only [linesOf_cons, htag, List.mem_singleton, reduceCtorEq, if_false] at hinserted
      simp only [pieces, htag, List.mem_cons] at hp
      rcases hp with rfl | hp
      · exact hkept index (by omega)
      · exact ih (fun n hn => hkept n (by omega)) hinserted p hp
    | delete =>
      simp only [htag, reduceCtorEq, if_false] at hkept
      simp only [linesOf_cons, htag, List.mem_singleton, reduceCtorEq, if_false] at hinserted
      simp only [pieces, htag] at hp
      exact ih (fun n hn => hkept n (by omega)) hinserted p hp
    | insert =>
      simp only [htag, if_true, Nat.zero_add] at hkept
      simp only [linesOf_cons, htag, List.mem_singleton, if_true, List.forall_mem_cons]
        at hinserted
      simp only [pieces, htag, List.mem_cons] at hp
      rcases hp with rfl | hp
      · exact hinserted.1
      · exact ih hkept hinserted.2 p hp

theorem pieces_ended {before rest : List Change} {last : Change} {new : Text} {bytes : Bytes}
    (hnew : linesOf [.equal, .insert] (before ++ last :: rest) = splitLinesWithEndings new)
    (hkept : isKept last = true)
    (hin : oldCount before < (splitByteLinesWithEndings bytes).length) (ending : LineEnding) :
    ∀ p ∈ pieces (splitByteLinesWithEndings bytes) ending 0 before, p.getLast? = some 10 := by
  refine forall_pieces (fun n hn => ?_) fun value hvalue => ?_
  · have hlt : n < (splitByteLinesWithEndings bytes).dropLast.length := by
      rw [List.length_dropLast]
      omega
    rw [List.getElem?_eq_getElem (by omega), Option.getD_some]
    exact ended_of_mem_dropLast (by rw [← List.getElem_dropLast]; exact List.getElem_mem hlt)
  · have hlast : linesOf [.equal, .insert] (last :: rest) ≠ [] := by
      have htag : last.tag = .equal := by simpa [isKept] using hkept
      simp [linesOf_cons, htag]
    have hmem : value ∈ (splitLinesWithEndings new).dropLast := by
      rw [← hnew, linesOf_append, List.dropLast_append_of_ne_nil hlast]
      exact List.mem_append_left _ (mem_linesOf_insert hvalue)
    exact encode_ended (restoreLineEndings_ended (ended_of_mem_dropLast hmem) ending)

/-! ### The splice -/

section LastKept

variable {before rest : List Change} {last : Change} {new : Text} {bytes : Bytes}

theorem mem_lines_of_inserted
    (hnew : linesOf [.equal, .insert] (before ++ last :: rest) = splitLinesWithEndings new)
    {value : Text} (h : value ∈ linesOf [.insert] (before ++ [last])) :
    value ∈ splitLinesWithEndings new := by
  rw [← hnew, List.append_cons, linesOf_append]
  exact List.mem_append_left _ (mem_linesOf_insert h)

theorem pieces_upToLastKept (hkept : isKept last = true) (lines : List Bytes)
    (ending : LineEnding) :
    pieces lines ending 0 (before ++ [last])
      = pieces lines ending 0 before ++ [lines[oldCount before]?.getD []] := by
  have htag : last.tag = .equal := by simpa [isKept] using hkept
  simp [pieces_append, pieces, htag]

variable (hnew : linesOf [.equal, .insert] (before ++ last :: rest) = splitLinesWithEndings new)

include hnew

theorem getLast?_upToLastKept (hkept : isKept last = true)
    (hin : oldCount before < (splitByteLinesWithEndings bytes).length) :
    (lossy (pieces (splitByteLinesWithEndings bytes) ending 0 (before ++ [last])).flatten).getLast?
      = (lossy ((splitByteLinesWithEndings bytes)[oldCount before]?.getD [])).getLast? := by
  have hended := ended_flatten (pieces_ended hnew hkept hin ending)
  have hne : lossy ((splitByteLinesWithEndings bytes)[oldCount before]?.getD []) ≠ [] := by
    rw [List.getElem?_eq_getElem hin]
    exact Utf8.lossy_ne_nil (ne_nil_of_mem_splitAfter (List.getElem_mem hin))
  rw [pieces_upToLastKept hkept, List.flatten_append, List.flatten_singleton,
    lossy_append_of_ended hended, List.getLast?_append_of_ne_nil _ hne]

theorem lineText_upToLastKept (hcr : '\r' ∉ new) (hkept : isKept last = true)
    (hin : oldCount before < (splitByteLinesWithEndings bytes).length) :
    lineText (pieces (splitByteLinesWithEndings bytes) ending 0 (before ++ [last])).flatten
      = (readings (splitByteLinesWithEndings bytes) 0 (before ++ [last])).flatten := by
  have hvalues : ∀ value ∈ linesOf [.insert] (before ++ [last]), '\r' ∉ value :=
    fun value h => no_cr_of_mem_lines hcr (mem_lines_of_inserted hnew h)
  have hended := pieces_ended hnew hkept hin ending
  rw [lineText_flatten, readings_eq hvalues]
  rw [pieces_upToLastKept hkept, List.dropLast_concat]
  exact hended

theorem readings_flatten_iff (hcr : '\r' ∉ new) (hkept : isKept last = true)
    (hin : oldCount before < (splitByteLinesWithEndings bytes).length) :
    (readings (splitByteLinesWithEndings bytes) 0 (before ++ [last])).flatten
        = (linesOf [.equal, .insert] (before ++ [last])).flatten ↔
      readings (splitByteLinesWithEndings bytes) 0 (before ++ [last])
        = linesOf [.equal, .insert] (before ++ [last]) := by
  refine ⟨fun hflat => ?_, fun h => by rw [h]⟩
  have hsplit : splitLinesWithEndings new
      = linesOf [.equal, .insert] (before ++ [last]) ++ linesOf [.equal, .insert] rest := by
    rw [← hnew, ← linesOf_append, List.append_assoc, List.singleton_append]
  have hvalues : ∀ value ∈ linesOf [.insert] (before ++ [last]), '\r' ∉ value :=
    fun value h => no_cr_of_mem_lines hcr (mem_lines_of_inserted hnew h)
  -- the readings are those of the pieces, whatever the endings put back
  have hread : readings (splitByteLinesWithEndings bytes) 0 (before ++ [last])
      = (pieces (splitByteLinesWithEndings bytes) .lf 0 (before ++ [last])).map lineText :=
    (readings_eq hvalues).symm
  refine pieces_eq_of_flatten_eq hsplit ?_ ?_ length_readings hflat
  · intro text htext
    rw [hread] at htext
    obtain ⟨p, hp, rfl⟩ := List.mem_map.1 htext
    refine lineText_ne_nil
      (forall_pieces (Q := (· ≠ [])) (fun n hn => ?_) (fun value hvalue hnil => ?_) p hp)
    · have hlt : n < (splitByteLinesWithEndings bytes).length := by
        have hlast : oldCount [last] = 1 := by
          have htag : last.tag = .equal := by simpa [isKept] using hkept
          simp [oldCount, htag, linesOf]
        simp only [oldCount, linesOf_append, List.length_append] at hn hin hlast
        omega
      rw [List.getElem?_eq_getElem hlt, Option.getD_some]
      exact ne_nil_of_mem_splitAfter (List.getElem_mem hlt)
    · have hback := lineText_encode_restore (hvalues value hvalue) .lf
      rw [hnil] at hback
      exact ne_nil_of_mem_splitAfter (mem_lines_of_inserted hnew hvalue) hback.symm
  · intro text htext
    rw [hread, pieces_upToLastKept hkept, List.map_append, List.map_singleton,
      List.dropLast_concat] at htext
    obtain ⟨p, hp, rfl⟩ := List.mem_map.1 htext
    exact lineText_ended (pieces_ended hnew hkept hin .lf p hp)

end LastKept

/-- **The spliced bytes read as the new text exactly where the kept lines are preserved.** -/
theorem splice_iff {new : Text} {bytes out : Bytes}
    (hnew : linesOf [.equal, .insert] changes = splitLinesWithEndings new) (hcr : '\r' ∉ new)
    (h : spliceFrom (splitByteLinesWithEndings bytes) ending 0 changes = .ok out) :
    lineText out = new ↔ Preserves (splitByteLinesWithEndings bytes) ending changes := by
  obtain ⟨rfl, hfound⟩ := spliceFrom_ok h
  have hafter := afterLastKept_not_kept changes
  have hsplit : upToLastKept changes ++ afterLastKept changes = changes :=
    List.rdropWhile_append_rtakeWhile
  -- what is inserted after the last kept line reads back as it is
  have hinserted : '\r' ∉ insertedLast changes := by
    intro hr
    obtain ⟨value, hvalue, hr⟩ := List.mem_flatten.1 hr
    refine no_cr_of_mem_lines hcr ?_ hr
    rw [← hnew, ← hsplit, linesOf_append]
    exact List.mem_append_right _ (mem_linesOf_insert hvalue)
  have htext : new = (linesOf [.equal, .insert] (upToLastKept changes)).flatten
      ++ insertedLast changes := by
    rw [insertedLast, ← linesOf_not_kept hafter, ← List.flatten_append, ← linesOf_append, hsplit,
      hnew, splitLinesWithEndings, flatten_splitAfter]
  have hout : (pieces (splitByteLinesWithEndings bytes) ending 0 changes).flatten
      = (pieces (splitByteLinesWithEndings bytes) ending 0 (upToLastKept changes)).flatten
        ++ encode (restoreLineEndings (insertedLast changes) ending) := by
    conv_lhs => rw [← hsplit]
    rw [pieces_append, List.flatten_append, pieces_of_not_kept hafter, insertedLast]
  have hkeptLines : keptLines 0 changes = keptLines 0 (upToLastKept changes) := by
    conv_lhs => rw [← hsplit]
    rw [keptLines_append, keptLines_of_not_kept hafter, List.append_nil]
  have hread : lossy (pieces (splitByteLinesWithEndings bytes) ending 0 changes).flatten
      = lossy (pieces (splitByteLinesWithEndings bytes) ending 0 (upToLastKept changes)).flatten
        ++ restoreLineEndings (insertedLast changes) ending := by
    rw [hout, Utf8.lossy_append (Utf8.boundary_encode _), Utf8.lossy_encode]
  rw [lineText, hread]
  rcases last_kept changes with hnil | ⟨before, last, hkept, hlast⟩
  · -- nothing is kept: all is inserted
    have hnone : keptLines 0 changes = [] := by rw [hkeptLines, hnil]; rfl
    have hpreserves : Preserves (splitByteLinesWithEndings bytes) ending changes := by
      left
      refine ⟨?_, ?_⟩
      · rintro ⟨⟨entry, hentry, -⟩, -⟩
        rw [hnone] at hentry
        cases hentry
      · intro entry hentry
        rw [hnone] at hentry
        exact (List.not_mem_nil hentry).elim
    rw [iff_true_right hpreserves, htext, hnil]
    exact normalizeToLf_restore hinserted ending
  · have hchanges : changes = before ++ last :: afterLastKept changes := by
      rw [List.append_cons, ← hlast, hsplit]
    have htag : last.tag = .equal := by simpa [isKept] using hkept
    have hlines : keptLines 0 changes
        = keptLines 0 before ++ [(oldCount before, last.value)] := by
      rw [hkeptLines, hlast, keptLines_append]
      simp [keptLines, htag]
    have hin : oldCount before < (splitByteLinesWithEndings bytes).length :=
      hfound (oldCount before, last.value) (by simp [hlines])
    have hnew' := hnew
    rw [hchanges] at hnew'
    have hreads := @lineText_upToLastKept ending _ _ _ _ _ hnew' hcr hkept hin
    have hends := @getLast?_upToLastKept ending _ _ _ _ _ hnew' hkept hin
    have hstep := readings_flatten_iff hnew' hcr hkept hin
    rw [← hlast] at hreads hends hstep
    -- the two parts meet within a line break where the last kept line merges
    have hmerges : Seam
          (lossy (pieces (splitByteLinesWithEndings bytes) ending 0 (upToLastKept changes)).flatten)
          (restoreLineEndings (insertedLast changes) ending) ↔
        Merges (splitByteLinesWithEndings bytes) ending changes := by
      rw [Seam, hends, head_restoreLineEndings, Merges, hlines]
      simp
    have hinStep : readings (splitByteLinesWithEndings bytes) 0 (upToLastKept changes)
          = linesOf [.equal, .insert] (upToLastKept changes) ↔
        InStep (splitByteLinesWithEndings bytes) changes := by
      rw [readings_eq_lines_iff, InStep, hkeptLines]
    by_cases hm : Merges (splitByteLinesWithEndings bytes) ending changes
    · obtain ⟨after, hinsertedLast⟩ := List.head?_eq_some_iff.1 hm.2.2
      rw [normalizeToLf_seam (hmerges.2 hm), normalizeToLf_restore hinserted, ← lineText, hreads,
        htext, hinsertedLast, List.tail_cons, List.append_cons, List.append_left_inj, Preserves]
      simp [hm]
    · rw [normalizeToLf_append fun hseam => hm (hmerges.1 hseam),
        normalizeToLf_restore hinserted, ← lineText, hreads, htext, List.append_left_inj, hstep,
        hinStep, Preserves]
      simp [hm]

end Verlet.Tools.EditTool
