import Mathlib.Data.List.Basic
import Mathlib.Data.List.Nodup
import Mathlib.Order.Lattice

/-!
# Support — Keyed

Ordered maps whose values hold their own key, and the listing of named offers in which the first of
a name has it.

* `Keyed.sorted_insertInto`: an insertion keeps the order.
* `Keyed.get?_eq_some`, `Keyed.mem_insert`: what a map has.
* `Keyed.foldl_insert_values`: a map is what its values make.
-/

namespace Verlet.Support

variable {κ α : Type} [LinearOrder κ]

/-- The values of an ordered map whose values hold their key, by key. -/
structure Keyed (key : α → κ) where
  values : List α
  sorted : values.Pairwise fun a b => key a < key b

variable {a b : α} {bs : List α}

namespace Keyed

variable {key : α → κ}

/-- The map with nothing in it. -/
def empty : Keyed key := ⟨[], List.Pairwise.nil⟩

@[simp] theorem values_empty : (empty : Keyed key).values = [] := rfl

def get? (m : Keyed key) (k : κ) : Option α := m.values.find? fun a => key a = k

/-- The listing with the value put in its place, in the stead of one of its key. -/
def insertInto (key : α → κ) (a : α) : List α → List α
  | []      => [a]
  | b :: bs =>
    if key a < key b then a :: b :: bs
    else if key a = key b then a :: bs
    else b :: insertInto key a bs

theorem mem_insertInto (h : b ∈ insertInto key a bs) : b = a ∨ b ∈ bs := by
  induction bs with
  | nil => exact Or.inl (List.mem_singleton.mp h)
  | cons c bs ih =>
    rw [insertInto] at h
    split at h
    · exact List.mem_cons.mp h
    · split at h
      · exact (List.mem_cons.mp h).imp_right (List.mem_cons_of_mem c)
      · rcases List.mem_cons.mp h with rfl | h
        · exact Or.inr List.mem_cons_self
        · exact (ih h).imp_right (List.mem_cons_of_mem c)

theorem sorted_insertInto (h : bs.Pairwise fun a b => key a < key b) :
    (insertInto key a bs).Pairwise fun a b => key a < key b := by
  induction bs with
  | nil => exact List.pairwise_singleton _ _
  | cons b bs ih =>
    obtain ⟨hb, hbs⟩ := List.pairwise_cons.mp h
    rw [insertInto]
    split
    · next hlt =>
      refine List.pairwise_cons.mpr ⟨fun c hc => ?_, h⟩
      rcases List.mem_cons.mp hc with rfl | hc
      · exact hlt
      · exact hlt.trans (hb c hc)
    · next hle =>
      split
      · next heq => exact List.pairwise_cons.mpr ⟨fun c hc => heq ▸ hb c hc, hbs⟩
      · next hne =>
        have hlt : key b < key a := lt_of_le_of_ne (not_lt.mp hle) (Ne.symm hne)
        refine List.pairwise_cons.mpr ⟨fun c hc => ?_, ih hbs⟩
        rcases mem_insertInto hc with rfl | hc
        · exact hlt
        · exact hb c hc

/-- `BTreeMap::insert`, under the value's own key. -/
def insert (m : Keyed key) (a : α) : Keyed key :=
  ⟨insertInto key a m.values, sorted_insertInto m.sorted⟩

variable {m : Keyed key}

theorem key_of_get? {k : κ} (h : m.get? k = some a) : key a = k := by
  simpa using List.find?_some h

theorem nodup_keys (m : Keyed key) : (m.values.map key).Nodup :=
  List.pairwise_map.mpr (m.sorted.imp ne_of_lt)

theorem get?_eq_some {k : κ} : m.get? k = some a ↔ a ∈ m.values ∧ key a = k := by
  constructor
  · exact fun h => ⟨List.mem_of_find?_eq_some h, key_of_get? h⟩
  · rintro ⟨hmem, rfl⟩
    cases hfound : m.get? (key a) with
    | none => simpa using List.find?_eq_none.mp hfound a hmem
    | some b =>
      have hb : b ∈ m.values := List.mem_of_find?_eq_some hfound
      rw [List.inj_on_of_nodup_map m.nodup_keys hb hmem (key_of_get? hfound)]

theorem mem_insertInto_iff (h : bs.Pairwise fun a b => key a < key b) :
    b ∈ insertInto key a bs ↔ b = a ∨ (b ∈ bs ∧ key b ≠ key a) := by
  induction bs with
  | nil => simp [insertInto]
  | cons c bs ih =>
    obtain ⟨hc, hbs⟩ := List.pairwise_cons.mp h
    rw [insertInto]
    split
    · next hlt =>
      -- every key that is there comes after
      have hne : ∀ d ∈ c :: bs, key d ≠ key a := by
        intro d hd
        rcases List.mem_cons.mp hd with rfl | hd
        · exact ne_of_gt hlt
        · exact ne_of_gt (hlt.trans (hc d hd))
      rw [List.mem_cons]
      exact or_congr_right ⟨fun hb => ⟨hb, hne b hb⟩, fun hb => hb.1⟩
    · next hle =>
      split
      · next heq =>
        rw [List.mem_cons, List.mem_cons]
        refine or_congr_right ⟨fun hb => ⟨.inr hb, heq ▸ ne_of_gt (hc b hb)⟩, ?_⟩
        rintro ⟨rfl | hb, hne⟩
        · exact absurd heq.symm hne
        · exact hb
      · next hne =>
        rw [List.mem_cons, List.mem_cons, ih hbs]
        constructor
        · rintro (rfl | rfl | ⟨hb, hkey⟩)
          · exact .inr ⟨.inl rfl, Ne.symm hne⟩
          · exact .inl rfl
          · exact .inr ⟨.inr hb, hkey⟩
        · rintro (rfl | ⟨rfl | hb, hkey⟩)
          · exact .inr (.inl rfl)
          · exact .inl rfl
          · exact .inr (.inr ⟨hb, hkey⟩)

/-- **What is in a map after an insertion.** -/
theorem mem_insert : b ∈ (m.insert a).values ↔ b = a ∨ (b ∈ m.values ∧ key b ≠ key a) :=
  mem_insertInto_iff m.sorted

theorem mem_insert_of_agrees (h : ∀ c, m.get? (key a) = some c → c = a) :
    b ∈ (m.insert a).values ↔ b = a ∨ b ∈ m.values := by
  rw [mem_insert]
  refine or_congr_right' fun hne => ⟨fun hb => hb.1, fun hb => ⟨hb, fun hkey => hne ?_⟩⟩
  exact h b (get?_eq_some.mpr ⟨hb, hkey⟩)

/-- **What is in a map of values whose keys tell them apart.** -/
theorem mem_foldl_insert {as : List α} (hkey : ∀ a ∈ as, ∀ b ∈ as, key a = key b → a = b) :
    b ∈ (as.foldl insert (empty : Keyed key)).values ↔ b ∈ as := by
  have hgen : ∀ (rest done : List α) (m : Keyed key), (∀ b, b ∈ m.values ↔ b ∈ done) →
      done ++ rest = as → ∀ b, b ∈ (rest.foldl insert m).values ↔ b ∈ as := by
    intro rest
    induction rest with
    | nil =>
      rintro done m hm rfl b
      rw [List.append_nil]
      exact hm b
    | cons a rest ih =>
      rintro done m hm rfl b
      refine ih (done ++ [a]) (m.insert a) (fun b => ?_) (by simp) b
      have hagrees (c) (hc : m.get? (key a) = some c) : c = a := by
        obtain ⟨hmem, hck⟩ := get?_eq_some.mp hc
        exact hkey c (by simp [(hm c).mp hmem]) a (by simp) hck
      rw [mem_insert_of_agrees hagrees, hm, List.mem_append, List.mem_singleton, or_comm]
  exact hgen as [] empty (fun b => by simp) rfl b

@[ext] theorem ext {m' : Keyed key} (h : m.values = m'.values) : m = m' := by
  cases m
  cases m'
  cases h
  rfl

instance [DecidableEq α] : DecidableEq (Keyed key) :=
  fun _ _ => decidable_of_iff _ Keyed.ext_iff.symm

theorem insertInto_last (h : ∀ b ∈ bs, key b < key a) : insertInto key a bs = bs ++ [a] := by
  induction bs with
  | nil => rfl
  | cons b bs ih =>
    have hb : key b < key a := h b List.mem_cons_self
    rw [insertInto, if_neg (lt_asymm hb), if_neg (ne_of_gt hb),
      ih fun c hc => h c (List.mem_cons_of_mem b hc)]
    rfl

theorem foldl_insert_values (m : Keyed key) : m.values.foldl insert empty = m := by
  have hgen : ∀ (rest : List α) (done : Keyed key), (done.values ++ rest).Pairwise (key · < key ·) →
      (rest.foldl insert done).values = done.values ++ rest := by
    intro rest
    induction rest with
    | nil => exact fun done _ => (List.append_nil _).symm
    | cons a rest ih =>
      intro done hsorted
      have hinsert : (done.insert a).values = done.values ++ [a] :=
        insertInto_last fun b hb => (List.pairwise_append.mp hsorted).2.2 b hb a List.mem_cons_self
      have happend : done.values ++ a :: rest = (done.insert a).values ++ rest := by
        rw [hinsert, List.append_assoc]
        rfl
      rw [happend] at hsorted ⊢
      exact ih (done.insert a) hsorted
  exact ext (hgen m.values empty m.sorted)

end Keyed

/-! ### Offers -/

section Offers

variable {ι α β : Type} [DecidableEq ι]

/-- Take an offer into the listing, unless its name is taken; a name may be taken for nothing. -/
def offer (listing : List ι × List α) (o : ι × Option α) : List ι × List α :=
  if o.1 ∈ listing.1 then listing else (o.1 :: listing.1, listing.2 ++ o.2.toList)

/-- What the offers come to, one after the other. -/
def granted (offers : List (ι × Option α)) : List α := (offers.foldl offer ([], [])).2

theorem mem_foldl_offer (offers : List (ι × Option α)) (taken : List ι) (held : List α) (a : α) :
    a ∈ (offers.foldl offer (taken, held)).2 ↔
      a ∈ held ∨ ∃ k ∉ taken, offers.find? (fun o => o.1 = k) = some (k, some a) := by
  induction offers generalizing taken held with
  | nil => simp
  | cons o offers ih =>
    obtain ⟨name, value⟩ := o
    rw [List.foldl_cons, offer]
    by_cases hname : name ∈ taken
    · rw [if_pos hname, ih]
      refine or_congr_right (exists_congr fun k => and_congr_right fun hk => ?_)
      have hne : name ≠ k := fun h => hk (h ▸ hname)
      simp [hne]
    · rw [if_neg hname, ih, List.mem_append, or_assoc]
      refine or_congr_right ⟨?_, ?_⟩
      · rintro (ha | ⟨k, hk, hfind⟩)
        · exact ⟨name, hname, by simpa using ha⟩
        · have hne : name ≠ k := fun h => hk (h ▸ List.mem_cons_self)
          exact ⟨k, fun h => hk (List.mem_cons_of_mem _ h), by simpa [hne] using hfind⟩
      · rintro ⟨k, hk, hfind⟩
        by_cases hne : name = k
        · subst hne
          exact Or.inl (by simpa using hfind)
        · refine Or.inr ⟨k, fun h => ?_, by simpa [hne] using hfind⟩
          rcases List.mem_cons.mp h with rfl | h
          · exact hne rfl
          · exact hk h

/-- **An offer is granted** exactly when it is the first of its name. -/
theorem mem_granted (offers : List (ι × Option α)) (a : α) :
    a ∈ granted offers ↔ ∃ k, offers.find? (fun o => o.1 = k) = some (k, some a) := by
  simp [granted, mem_foldl_offer]

theorem nodup_foldl_offer {name : α → ι} {offers : List (ι × Option α)}
    (hnames : ∀ o ∈ offers, ∀ a, o.2 = some a → name a = o.1) {taken : List ι} {held : List α}
    (htaken : ∀ a ∈ held, name a ∈ taken) (hnodup : (held.map name).Nodup) :
    ((offers.foldl offer (taken, held)).2.map name).Nodup := by
  induction offers generalizing taken held with
  | nil => exact hnodup
  | cons o offers ih =>
    obtain ⟨ho, hrest⟩ := List.forall_mem_cons.mp hnames
    rw [List.foldl_cons, offer]
    by_cases hname : o.1 ∈ taken
    · rw [if_pos hname]
      exact ih hrest htaken hnodup
    · rw [if_neg hname]
      refine ih hrest (fun a ha => ?_) ?_
      · rcases List.mem_append.mp ha with ha | ha
        · exact List.mem_cons_of_mem _ (htaken a ha)
        · rw [ho a (by simpa using ha)]
          exact List.mem_cons_self
      · rw [List.map_append]
        cases hvalue : o.2 with
        | none => simpa using hnodup
        | some a =>
          refine List.Nodup.append hnodup (List.nodup_singleton _) ?_
          rw [Option.toList_some, List.map_singleton, List.disjoint_singleton]
          intro hmem
          obtain ⟨b, hb, heq⟩ := List.mem_map.mp hmem
          rw [ho a hvalue] at heq
          exact hname (heq ▸ htaken b hb)

/-- **Every name is granted once**, where an offer is named as what it offers. -/
theorem nodup_granted {name : α → ι} {offers : List (ι × Option α)}
    (hnames : ∀ o ∈ offers, ∀ a, o.2 = some a → name a = o.1) :
    ((granted offers).map name).Nodup :=
  nodup_foldl_offer hnames (by simp) List.nodup_nil

theorem map_foldl_offer (f : α → β) (offers : List (ι × Option α)) (taken : List ι)
    (held : List α) :
    ((offers.map fun o => (o.1, o.2.map f)).foldl offer (taken, held.map f)) =
      ((offers.foldl offer (taken, held)).1, (offers.foldl offer (taken, held)).2.map f) := by
  induction offers generalizing taken held with
  | nil => rfl
  | cons o offers ih =>
    rw [List.map_cons, List.foldl_cons, List.foldl_cons, offer, offer]
    by_cases hname : o.1 ∈ taken
    · rw [if_pos hname, if_pos hname, ih]
    · rw [if_neg hname, if_neg hname, ← ih, List.map_append]
      cases o.2 <;> rfl

theorem map_granted (f : α → β) (offers : List (ι × Option α)) :
    granted (offers.map fun o => (o.1, o.2.map f)) = (granted offers).map f := by
  have h := map_foldl_offer f offers [] []
  rw [List.map_nil] at h
  rw [granted, h, granted]

end Offers

end Verlet.Support
