import Mathlib.Data.List.Basic
import Mathlib.Data.List.Nodup
import Mathlib.Data.List.Perm.Basic

/-!
# Support — Scans

A loop over facts that collects candidates and ends at once at a fact it cannot accept: what the
loop has then is its answer.

* `scan_ok`: a scan that runs to its end has met no such fact, and has every candidate in order.
* `scan_error`: one that ended early ended at such a fact.
* `candidates_perm`: the candidates of facts in another order are the same ones in another order.
* `filterMap_eq_singleton`: when there is exactly one candidate.
-/

namespace Verlet.Support

variable {ε δ α : Type}

/-- What a scan makes of one fact. -/
inductive Reading (δ α : Type) where
  | skipped
  | candidate (a : α)
  /-- The scan ends here, with this answer. -/
  | answered (d : δ)

def Reading.candidate? : Reading δ α → Option α
  | .candidate a => some a
  | _            => none

/-- The candidates of the facts, or the answer the scan ends with. -/
def scan (read : ε → Reading δ α) : List ε → Except δ (List α)
  | []            => .ok []
  | fact :: facts =>
    match read fact with
    | .skipped     => scan read facts
    | .candidate a => (a :: ·) <$> scan read facts
    | .answered d  => .error d

def candidates (read : ε → Reading δ α) (facts : List ε) : List α :=
  facts.filterMap fun fact => (read fact).candidate?

variable {read : ε → Reading δ α} {facts : List ε}

theorem scan_ok {found : List α} :
    scan read facts = .ok found ↔
      (∀ fact ∈ facts, ∀ d, read fact ≠ .answered d) ∧ found = candidates read facts := by
  induction facts generalizing found with
  | nil => simp [scan, candidates, eq_comm]
  | cons fact facts ih =>
    cases hread : read fact with
    | skipped => simp [scan, hread, ih, candidates, Reading.candidate?]
    | answered d => simp [scan, hread]
    | candidate a =>
      simp only [scan, hread, List.forall_mem_cons, candidates, List.filterMap_cons,
        Reading.candidate?, ne_eq, reduceCtorEq, not_false_eq_true, implies_true, true_and]
      cases hrest : scan read facts with
      | error d =>
        refine ⟨fun h => ?_, fun h => ?_⟩
        · cases h
        · rw [ih.mpr ⟨h.1, rfl⟩] at hrest
          cases hrest
      | ok rest =>
        obtain ⟨hnone, rfl⟩ := ih.mp hrest
        exact ⟨fun h => ⟨hnone, (Except.ok.inj h).symm⟩, fun h => by rw [h.2]; rfl⟩

theorem scan_error {d : δ} (h : scan read facts = .error d) :
    ∃ fact ∈ facts, read fact = .answered d := by
  induction facts with
  | nil => cases h
  | cons fact facts ih =>
    cases hread : read fact with
    | skipped =>
      obtain ⟨f, hf, hd⟩ := ih (by simpa only [scan, hread] using h)
      exact ⟨f, .tail _ hf, hd⟩
    | candidate a =>
      cases hrest : scan read facts with
      | ok rest => simp [scan, hread, hrest] at h
      | error d' =>
        simp only [scan, hread, hrest] at h
        obtain rfl := Except.error.inj h
        obtain ⟨f, hf, hd⟩ := ih hrest
        exact ⟨f, .tail _ hf, hd⟩
    | answered d' =>
      simp only [scan, hread] at h
      obtain rfl := Except.error.inj h
      exact ⟨fact, List.mem_cons_self, hread⟩

theorem candidates_append (facts later : List ε) :
    candidates read (facts ++ later) = candidates read facts ++ candidates read later :=
  List.filterMap_append

theorem candidates_perm {facts' : List ε} (h : facts.Perm facts') :
    (candidates read facts).Perm (candidates read facts') :=
  h.filterMap _

theorem mem_candidates {a : α} :
    a ∈ candidates read facts ↔ ∃ fact ∈ facts, read fact = .candidate a := by
  simp only [candidates, List.mem_filterMap]
  refine exists_congr fun fact => and_congr_right fun _ => ?_
  cases read fact <;> simp [Reading.candidate?]

theorem filterMap_eq_singleton {f : ε → Option α} {l : List ε} {b : α} :
    l.filterMap f = [b] ↔ ∃ (i : Nat) (a : ε), l[i]? = some a ∧ f a = some b ∧
      ∀ (j : Nat) (a' : ε) (b' : α), l[j]? = some a' → f a' = some b' → j = i := by
  induction l with
  | nil => simp
  | cons x l ih =>
    cases hx : f x with
    | none =>
      rw [List.filterMap_cons_none hx, ih]
      constructor
      · rintro ⟨i, a, ha, hb, honly⟩
        refine ⟨i + 1, a, ha, hb, fun j a' b' ha' hb' => ?_⟩
        cases j with
        | zero =>
          obtain rfl := Option.some.inj ha'
          rw [hx] at hb'
          cases hb'
        | succ j => rw [honly j a' b' ha' hb']
      · rintro ⟨i, a, ha, hb, honly⟩
        cases i with
        | zero =>
          obtain rfl := Option.some.inj ha
          rw [hx] at hb
          cases hb
        | succ i =>
          exact ⟨i, a, ha, hb, fun j a' b' ha' hb' => Nat.succ.inj (honly (j + 1) a' b' ha' hb')⟩
    | some b₀ =>
      rw [List.filterMap_cons_some hx, List.cons.injEq, List.filterMap_eq_nil_iff]
      constructor
      · rintro ⟨rfl, hnone⟩
        refine ⟨0, x, rfl, hx, fun j a' b' ha' hb' => ?_⟩
        cases j with
        | zero => rfl
        | succ j =>
          rw [hnone a' (List.mem_of_getElem? ha')] at hb'
          cases hb'
      · rintro ⟨i, a, ha, hb, honly⟩
        obtain rfl := honly 0 x b₀ rfl hx
        obtain rfl := Option.some.inj ha
        refine ⟨Option.some.inj (hx.symm.trans hb), fun a' ha' => ?_⟩
        obtain ⟨j, hj⟩ := List.mem_iff_getElem?.mp ha'
        cases hfa : f a' with
        | none => rfl
        | some b' => exact absurd (honly (j + 1) a' b' hj hfa) (Nat.succ_ne_zero j)

/-! ### Listings by key -/

/-- Two listings whose entries carry the keys of what they come from have the same entries exactly
where they have the same for each key. -/
theorem filterMap_perm_iff {α β κ : Type} {f g : α → Option β} {key : α → κ} {keyOf : β → κ}
    {l : List α} (hf : ∀ a b, f a = some b → keyOf b = key a)
    (hg : ∀ a b, g a = some b → keyOf b = key a) (hkeys : (l.map key).Nodup) :
    (l.filterMap f).Perm (l.filterMap g) ↔ ∀ a ∈ l, f a = g a := by
  constructor
  · intro h a ha
    cases hfa : f a with
    | some b =>
      have hb : b ∈ l.filterMap g := h.mem_iff.mp (List.mem_filterMap.mpr ⟨a, ha, hfa⟩)
      obtain ⟨a', ha', hga'⟩ := List.mem_filterMap.mp hb
      have hkey : key a' = key a := (hg a' b hga').symm.trans (hf a b hfa)
      rw [← List.inj_on_of_nodup_map hkeys ha' ha hkey, hga']
    | none =>
      cases hga : g a with
      | none => rfl
      | some b =>
        have hb : b ∈ l.filterMap f := h.mem_iff.mpr (List.mem_filterMap.mpr ⟨a, ha, hga⟩)
        obtain ⟨a', ha', hfa'⟩ := List.mem_filterMap.mp hb
        have hkey : key a' = key a := (hf a' b hfa').symm.trans (hg a b hga)
        rw [List.inj_on_of_nodup_map hkeys ha' ha hkey, hfa] at hfa'
        cases hfa'
  · intro h
    rw [List.filterMap_congr h]

end Verlet.Support
