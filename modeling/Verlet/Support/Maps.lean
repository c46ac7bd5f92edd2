import Mathlib.Data.List.Nodup
import Mathlib.Data.List.AList

/-!
# Support — Maps

Finite maps: Mathlib's association lists, with the lookup of an insertion and of an erasure at
every key, and the values of a map.
-/

namespace Verlet.Support

abbrev Map (κ ν : Type) := AList (fun _ : κ => ν)

namespace Map

variable {κ ν : Type} [DecidableEq κ]

theorem lookup_insert (m : Map κ ν) (k : κ) (v : ν) (k' : κ) :
    (m.insert k v).lookup k' = if k' = k then some v else m.lookup k' := by
  by_cases h : k' = k
  · subst h; simp
  · rw [if_neg h, AList.lookup_insert_ne h]

theorem lookup_erase (m : Map κ ν) (k k' : κ) :
    (m.erase k).lookup k' = if k' = k then none else m.lookup k' := by
  by_cases h : k' = k
  · subst h; simp
  · rw [if_neg h, AList.lookup_erase_ne h]

/-- Bind the key to the value, or to nothing. -/
def assign (m : Map κ ν) (k : κ) : Option ν → Map κ ν
  | some v => m.insert k v
  | none   => m.erase k

theorem lookup_assign (m : Map κ ν) (k : κ) (v : Option ν) (k' : κ) :
    (m.assign k v).lookup k' = if k' = k then v else m.lookup k' := by
  cases v with
  | none => exact lookup_erase m k k'
  | some v => exact lookup_insert m k v k'

def assignAll (m : Map κ ν) (writes : List (κ × Option ν)) : Map κ ν :=
  writes.foldl (fun m w => m.assign w.1 w.2) m

/-- What a sequence of assignments last gives a key, if anything. -/
def lastWrite (k : κ) (writes : List (κ × Option ν)) : Option (Option ν) :=
  (writes.filter fun w => w.1 = k).getLast?.map (·.2)

@[simp] theorem lastWrite_nil (k : κ) : lastWrite k ([] : List (κ × Option ν)) = none := rfl

theorem lastWrite_append (k : κ) (writes later : List (κ × Option ν)) :
    lastWrite k (writes ++ later) = (lastWrite k later).or (lastWrite k writes) := by
  unfold lastWrite
  rw [List.filter_append, List.getLast?_append]
  cases (later.filter fun w => w.1 = k).getLast? <;> rfl

theorem lastWrite_singleton (k : κ) (w : κ × Option ν) :
    lastWrite k [w] = if w.1 = k then some w.2 else none := by
  by_cases h : w.1 = k <;> simp [lastWrite, h]

variable {k : κ}

theorem lastWrite_filter {p : κ → Bool} (hk : p k = true) (writes : List (κ × Option ν)) :
    lastWrite k (writes.filter fun w => p w.1) = lastWrite k writes := by
  unfold lastWrite
  rw [List.filter_filter]
  congr 2
  refine List.filter_congr fun w _ => ?_
  by_cases h : w.1 = k <;> simp [h, hk]

theorem lastWrite_of_notMem {writes : List (κ × Option ν)} (h : ∀ w ∈ writes, w.1 ≠ k) :
    lastWrite k writes = none := by
  unfold lastWrite
  rw [List.filter_eq_nil_iff.mpr (by simpa using h)]
  rfl

/-- **After assignments, a key has what it was last given**, or else what it had. -/
theorem lookup_assignAll (m : Map κ ν) (writes : List (κ × Option ν)) (k : κ) :
    (m.assignAll writes).lookup k = (lastWrite k writes).getD (m.lookup k) := by
  induction writes generalizing m with
  | nil => rfl
  | cons w writes ih =>
    change ((m.assign w.1 w.2).assignAll writes).lookup k = _
    rw [ih, ← List.singleton_append, lastWrite_append, lastWrite_singleton,
      lookup_assign]
    cases lastWrite k writes with
    | some v => rfl
    | none =>
      by_cases h : w.1 = k
      · simp [h]
      · simp [h, Ne.symm h]

theorem lookup_foldl_erase (keys : List κ) (m : Map κ ν) (k : κ) :
    (keys.foldl (fun m key => m.erase key) m).lookup k =
      if k ∈ keys then none else m.lookup k := by
  induction keys generalizing m with
  | nil => rfl
  | cons key keys ih =>
    rw [List.foldl_cons, ih, lookup_erase]
    by_cases hk : k = key
    · simp [hk]
    · simp [hk]

def values (m : Map κ ν) : List ν := m.entries.map (·.2)

variable {m : Map κ ν} {v : ν}

theorem mem_values : v ∈ m.values ↔ ∃ k, m.lookup k = some v := by
  simp only [values, List.mem_map]
  constructor
  · rintro ⟨⟨k, v'⟩, h, rfl⟩
    exact ⟨k, AList.mem_lookup_iff.mpr h⟩
  · rintro ⟨k, h⟩
    exact ⟨⟨k, v⟩, AList.mem_lookup_iff.mp h, rfl⟩

/-- The number of keys. -/
def size (m : Map κ ν) : Nat := m.entries.length

theorem size_insert_of_fresh (h : m.lookup k = none) : size (m.insert k v) = size m + 1 := by
  have hk : k ∉ m := fun hm => by
    have := AList.lookup_isSome.mpr hm
    rw [h] at this
    exact absurd this (by simp)
  rw [size, AList.entries_insert_of_notMem hk, List.length_cons, size]

theorem size_insert_of_lookup {v' : ν} (h : m.lookup k = some v) :
    size (m.insert k v') = size m := by
  have hk : k ∈ m.keys := AList.mem_keys.mp (AList.lookup_isSome.mp (by rw [h]; rfl))
  have hkeys (m : Map κ ν) : size m = m.keys.length := by simp [size, AList.keys, List.keys]
  rw [hkeys, hkeys, AList.keys_insert, List.length_cons, List.length_erase_of_mem hk]
  exact Nat.succ_pred_eq_of_pos (List.length_pos_of_mem hk)

theorem length_le_size {keys : List κ} (hnodup : keys.Nodup)
    (h : ∀ k ∈ keys, (m.lookup k).isSome) : keys.length ≤ size m := by
  have hsub : keys ⊆ m.keys := fun k hk => AList.mem_keys.mp (AList.lookup_isSome.mp (h k hk))
  have hlen := (List.subperm_of_subset hnodup hsub).length_le
  simpa [AList.keys, List.keys, size] using hlen

theorem size_le_of_lookup {m' : Map κ ν} (h : ∀ k v, m.lookup k = some v → m'.lookup k = some v) :
    size m ≤ size m' := by
  have hsome : ∀ k ∈ m.keys, (m'.lookup k).isSome := fun k hk => by
    obtain ⟨v, hv⟩ := Option.isSome_iff_exists.mp (AList.lookup_isSome.mpr (AList.mem_keys.mpr hk))
    rw [h k v hv]
    rfl
  simpa [AList.keys, List.keys, size] using length_le_size m.keys_nodup hsome

/-! ### Counting values -/

/-- `values().filter(p).count()`. -/
def countValues (m : Map κ ν) (p : ν → Bool) : Nat := m.values.countP p

omit [DecidableEq κ] in
@[simp] theorem countValues_empty (p : ν → Bool) : countValues (∅ : Map κ ν) p = 0 := rfl

theorem countValues_insert_of_fresh (p : ν → Bool) (h : m.lookup k = none) :
    countValues (m.insert k v) p = countValues m p + if p v then 1 else 0 := by
  have hk : k ∉ m := AList.lookup_eq_none.mp h
  rw [countValues, values, AList.entries_insert_of_notMem hk, List.map_cons, List.countP_cons]
  rfl

theorem countValues_erase (p : ν → Bool) (h : m.lookup k = some v) :
    countValues (m.erase k) p + (if p v then 1 else 0) = countValues m p := by
  have hk : k ∈ m.entries.keys := AList.mem_keys.mpr (AList.lookup_isSome.mp (by rw [h]; rfl))
  obtain ⟨v', before, after, -, hentries, herased⟩ := List.exists_of_kerase hk
  have hmem : ⟨k, v'⟩ ∈ m.entries := by
    rw [hentries]
    exact List.mem_append_right _ List.mem_cons_self
  obtain rfl : v' = v := Option.some.inj ((AList.mem_lookup_iff.mpr hmem).symm.trans h)
  have herase : (m.erase k).entries = before ++ after := herased
  rw [countValues, countValues, values, values, herase, hentries]
  simp only [List.map_append, List.map_cons, List.countP_append, List.countP_cons]
  omega

theorem countValues_erase_le (m : Map κ ν) (k : κ) (p : ν → Bool) :
    countValues (m.erase k) p ≤ countValues m p := by
  cases h : m.lookup k with
  | none =>
    have hk : k ∉ m := AList.lookup_eq_none.mp h
    have hsame : m.erase k = m := AList.ext (List.kerase_of_notMem_keys hk)
    rw [hsame]
  | some v => exact Nat.le.intro (countValues_erase p h)

end Map

end Verlet.Support
