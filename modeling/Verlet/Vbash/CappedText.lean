import Verlet.Process.Live.CappedStream
import Verlet.Support.Utf8

/-!
# Vbash — Text up to a cap

`bytes_to_capped_text`: bytes as a text of at most so many bytes.

* `longestFit_from`: the loop keeps the longest part of the whole lossy text that fits.
-/

namespace Verlet.Vbash
open Support.Utf8 Process

/-- `is_char_boundary`: a character begins at the index, or the text ends. -/
def isCharBoundary : List Char → Nat → Bool
  | [], index      => index = 0
  | c :: cs, index => index = 0 || size [c] ≤ index && isCharBoundary cs (index - size [c])

def backToBoundary (text : List Char) : Nat → Nat
  | 0        => 0
  | stop + 1 => if isCharBoundary text (stop + 1) then stop + 1 else backToBoundary text stop

/-- `&text[..stop]`. -/
def upTo : List Char → Nat → List Char
  | [], _         => []
  | c :: cs, stop => if size [c] ≤ stop then c :: upTo cs (stop - size [c]) else []

/-- The part of a valid text that is pushed, and whether it is all of it. -/
def pushed (valid : List Char) (available : Nat) : List Char × Bool :=
  let stop := backToBoundary valid (min (size valid) available)
  (upTo valid stop, stop = size valid)

theorem length_drop_lt {remaining : List UInt8} {err : Utf8Error} {invalidBytes : Nat}
    (hread : fromUtf8 remaining = .error err) (hlen : err.errorLen = some invalidBytes) :
    (remaining.drop (err.validUpTo + invalidBytes)).length < remaining.length := by
  have hmends := mends_fromUtf8 remaining
  obtain ⟨valid, validUpTo, errorLen⟩ := err
  obtain rfl : errorLen = some invalidBytes := hlen
  rw [hread] at hmends
  obtain ⟨hpos, hle, -⟩ := hmends
  rw [List.length_drop]
  omega

/-- The loop of `bytes_to_capped_text`, after this text. -/
def bytesToCappedTextFrom (maxOutputBytes : Nat) (text : List Char) (remaining : List UInt8) :
    List Char × Bool :=
  if remaining.isEmpty then (text, false)
  else match _ : fromUtf8 remaining with
    | .ok valid =>
      let (kept, all) := pushed valid (maxOutputBytes - size text)
      (text ++ kept, !all)
    | .error err =>
      let (kept, all) := pushed err.valid (maxOutputBytes - size text)
      let text := text ++ kept
      if !all || size text + size [replacement] > maxOutputBytes then (text, true)
      else match _ : err.errorLen with
        | none              => (text ++ [replacement], false)
        | some invalidBytes =>
          bytesToCappedTextFrom maxOutputBytes (text ++ [replacement])
            (remaining.drop (err.validUpTo + invalidBytes))
termination_by remaining.length
decreasing_by exact length_drop_lt ‹_› ‹_›

def bytesToCappedText (bytes : List UInt8) (maxOutputBytes : Nat) : List Char × Bool :=
  bytesToCappedTextFrom maxOutputBytes [] bytes

/-! ### What a text keeps -/

variable {text p : List Char} {limit : Nat}

/-- A part from the start that fits, where no further character does. -/
def LongestFit (limit : Nat) (text p : List Char) : Prop :=
  ∃ rest, text = p ++ rest ∧ size p ≤ limit ∧ ∀ c ∈ rest.head?, limit < size p + size [c]

theorem LongestFit.longest (h : LongestFit limit text p) {q : List Char} (hq : q <+: text)
    (hfits : size q ≤ limit) : q <+: p := by
  obtain ⟨rest, rfl, -, hnext⟩ := h
  rcases List.prefix_or_prefix_of_prefix hq (List.prefix_append p rest) with hshort | ⟨more, rfl⟩
  · exact hshort
  · cases more with
    | nil => simp
    | cons c more =>
      obtain ⟨tail, htail⟩ := hq
      rw [List.append_assoc, List.append_cancel_left_eq] at htail
      have hlong := hnext c (by rw [← htail]; rfl)
      rw [size_append, size_cons] at hfits
      omega

theorem isCharBoundary_size (hp : p <+: text) : isCharBoundary text (size p) = true := by
  induction text generalizing p with
  | nil =>
    obtain rfl := List.prefix_nil.mp hp
    rfl
  | cons c text ih =>
    cases p with
    | nil => rfl
    | cons d p =>
      obtain ⟨rfl, hp'⟩ := List.cons_prefix_cons.mp hp
      rw [isCharBoundary, size_cons, Nat.add_sub_cancel_left, ih hp']
      simp

theorem exists_of_isCharBoundary {index : Nat} (h : isCharBoundary text index = true) :
    ∃ rest, text = upTo text index ++ rest ∧ size (upTo text index) = index := by
  induction text generalizing index with
  | nil =>
    obtain rfl : index = 0 := by simpa [isCharBoundary] using h
    exact ⟨[], rfl, rfl⟩
  | cons c text ih =>
    have hpos := size_singleton_pos c
    simp only [isCharBoundary, Bool.or_eq_true, Bool.and_eq_true, decide_eq_true_eq] at h
    rcases h with rfl | ⟨hle, hrest⟩
    · rw [upTo, if_neg (by omega)]
      exact ⟨c :: text, rfl, rfl⟩
    · obtain ⟨rest, htext, hsize⟩ := ih hrest
      rw [upTo, if_pos hle]
      exact ⟨rest, congrArg (c :: ·) htext, by rw [size_cons, hsize]; omega⟩

theorem backToBoundary_spec (text : List Char) (stop : Nat) :
    isCharBoundary text (backToBoundary text stop) = true ∧ backToBoundary text stop ≤ stop ∧
      ∀ index ≤ stop, isCharBoundary text index = true → index ≤ backToBoundary text stop := by
  induction stop with
  | zero => exact ⟨by cases text <;> rfl, Nat.le_refl 0, fun index hle _ => hle⟩
  | succ stop ih =>
    rw [backToBoundary]
    split
    · next hboundary => exact ⟨hboundary, Nat.le_refl _, fun index hle _ => hle⟩
    · next hboundary =>
      refine ⟨ih.1, ih.2.1.trans (Nat.le_succ stop), fun index hle hindex => ih.2.2 index ?_ hindex⟩
      have : index ≠ stop + 1 := fun heq => hboundary (heq ▸ hindex)
      omega

theorem longestFit_pushed (valid : List Char) (available : Nat) :
    LongestFit available valid (pushed valid available).1 ∧
      ((pushed valid available).2 = true ↔ (pushed valid available).1 = valid) := by
  obtain ⟨hboundary, hle, hgreatest⟩ := backToBoundary_spec valid (min (size valid) available)
  obtain ⟨rest, hvalid, hsize⟩ := exists_of_isCharBoundary hboundary
  simp only [pushed, decide_eq_true_eq]
  generalize backToBoundary valid (min (size valid) available) = stop at *
  have hsum : size valid = size (upTo valid stop) + size rest := by rw [← size_append, ← hvalid]
  generalize upTo valid stop = p at *
  refine ⟨⟨rest, hvalid, by omega, fun c hc => ?_⟩, fun hall => ?_, fun hall => by rw [← hsize, hall]⟩
  · obtain ⟨more, rfl⟩ := List.head?_eq_some_iff.mp hc
    by_contra hfits
    have hpos := size_singleton_pos c
    have hbound : isCharBoundary valid (size (p ++ [c])) = true :=
      isCharBoundary_size ⟨more, by rw [hvalid, List.append_assoc]; rfl⟩
    rw [size_append] at hbound
    rw [size_cons] at hsum
    have := hgreatest _ (by omega) hbound
    omega
  · cases rest with
    | nil => rw [hvalid, List.append_nil]
    | cons c rest =>
      have := size_singleton_pos c
      rw [size_cons] at hsum
      omega

theorem LongestFit.append (h : LongestFit limit text p) (before : List Char) :
    LongestFit (size before + limit) (before ++ text) (before ++ p) := by
  obtain ⟨rest, rfl, hfits, hnext⟩ := h
  refine ⟨rest, (List.append_assoc ..).symm, by rw [size_append]; omega, fun c hc => ?_⟩
  have := hnext c hc
  rw [size_append]
  omega

theorem LongestFit.of_next {c : Char} {more : List Char} (htext : text = p ++ c :: more)
    (hfits : size p ≤ limit) (hnext : limit < size p + size [c]) :
    LongestFit limit text p ∧ (true = true ↔ p ≠ text) := by
  refine ⟨⟨c :: more, htext, hfits, fun d hd => by rwa [← Option.some.inj hd]⟩, iff_of_true rfl ?_⟩
  rw [htext]
  simp

theorem longestFit_from (hfits : size text ≤ limit) (remaining : List UInt8) :
    LongestFit limit (text ++ lossy remaining) (bytesToCappedTextFrom limit text remaining).1 ∧
      ((bytesToCappedTextFrom limit text remaining).2 = true ↔
        (bytesToCappedTextFrom limit text remaining).1 ≠ text ++ lossy remaining) := by
  induction hlength : remaining.length using Nat.strongRecOn generalizing text remaining with
  | ind n ih =>
  subst hlength
  rw [bytesToCappedTextFrom]
  split
  · next hempty =>
    obtain rfl := List.isEmpty_iff.mp hempty
    exact ⟨⟨[], rfl, by simpa using hfits, nofun⟩, by simp⟩
  · have hmends := mends_fromUtf8 remaining
    split
    · next valid hread =>
      rw [hread] at hmends
      have hlossy : lossy remaining = valid := hmends
      obtain ⟨hkept, hall⟩ := longestFit_pushed valid (limit - size text)
      have hkept' := hkept.append text
      rw [Nat.add_sub_cancel' hfits] at hkept'
      rw [hlossy]
      exact ⟨hkept', by simp [← hall]⟩
    · next err hread =>
      rw [hread] at hmends
      obtain ⟨hkept, hall⟩ := longestFit_pushed err.valid (limit - size text)
      have hkept' := hkept.append text
      rw [Nat.add_sub_cancel' hfits] at hkept'
      generalize pushed err.valid (limit - size text) = part at *
      obtain ⟨kept, all⟩ := part
      obtain ⟨valid, validUpTo, errorLen⟩ := err
      dsimp only at hkept hall hkept' ⊢
      -- the text goes on with a replacement character, whatever ended it
      obtain ⟨later, hlossy⟩ : ∃ later, lossy remaining = valid ++ replacement :: later := by
        cases errorLen with
        | none => exact ⟨[], hmends⟩
        | some invalidBytes => exact ⟨_, hmends.2.2⟩
      split
      · next hstop =>
        have hsize := hkept'.choose_spec.2.1
        obtain ⟨rest, hvalid, -, hnext⟩ := hkept
        rw [hlossy, hvalid]
        cases rest with
        | nil =>
          have hwhole : all = true := hall.mpr (by rw [hvalid, List.append_nil])
          rw [hwhole, Bool.not_true, Bool.false_or, decide_eq_true_eq] at hstop
          have hgoes : text ++ (kept ++ [] ++ replacement :: later) =
              text ++ kept ++ replacement :: later := by simp
          exact LongestFit.of_next hgoes hsize hstop
        | cons c rest =>
          have hlong := hnext c rfl
          have hgoes : text ++ (kept ++ c :: rest ++ replacement :: later) =
              text ++ kept ++ c :: (rest ++ replacement :: later) := by simp
          exact LongestFit.of_next hgoes hsize (by rw [size_append]; omega)
      · next hgo =>
        rw [Bool.or_eq_true, not_or, decide_eq_true_eq, ← size_append, Bool.not_eq_true',
          Bool.not_eq_false] at hgo
        obtain rfl := hall.mp hgo.1
        have hroom := Nat.le_of_not_lt hgo.2
        cases errorLen with
        | none =>
          have hend : lossy remaining = kept ++ [replacement] := hmends
          rw [hend, ← List.append_assoc]
          exact ⟨⟨[], by simp, hroom, nofun⟩, by simp⟩
        | some invalidBytes =>
          have hafter := ih _ (length_drop_lt hread rfl) hroom _ rfl
          rw [hmends.2.2]
          simpa using hafter

/-- **Capped output is the same however it arrives.**  Of a stream the bytes up to its cap are recorded,
and once that there were more, whatever pieces it is read in; of a text the longest part of the lossy
decoding that fits is kept, and the flag says whether it is a part. -/
theorem capped_output (stream : ProcessStream) (cap : Nat) {reads : List (List UInt8)}
    (hreads : [] ∉ reads) (bytes : List UInt8) (limit : Nat) :
    Records stream (reads.flatten.take cap) (cap < reads.flatten.length)
        (spawnReader stream cap {} reads) ∧
      ((bytesToCappedText bytes limit).1 <+: lossy bytes ∧ size (bytesToCappedText bytes limit).1 ≤ limit ∧
        ∀ q, q <+: lossy bytes → size q ≤ limit → q <+: (bytesToCappedText bytes limit).1) ∧
      ((bytesToCappedText bytes limit).2 = true ↔ (bytesToCappedText bytes limit).1 ≠ lossy bytes) := by
  obtain ⟨hkept, hflag⟩ := @longestFit_from [] limit (Nat.zero_le _) bytes
  refine ⟨?_, ?_, hflag⟩
  · simpa [StreamCapState.after] using @records_spawnReader stream cap reads hreads 0
  · obtain ⟨rest, hlossy, hfits, -⟩ := id hkept
    exact ⟨⟨rest, hlossy.symm⟩, hfits, fun q hq hsize => hkept.longest hq hsize⟩

theorem capped_output_pieces :
    Records .stdout [97, 98] (2 < 3) (spawnReader .stdout 2 {} [[97], [98, 99]]) ∧
      size (bytesToCappedText [97, 0xFF, 98] 4).1 ≤ 4 :=
  have h := @capped_output .stdout 2 [[97], [98, 99]] (by decide) [97, 0xFF, 98] 4
  ⟨h.1, h.2.1.2.1⟩

end Verlet.Vbash
