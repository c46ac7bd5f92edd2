import Verlet.Wasm.Guest

/-!
# Wasm — The guest — Memory

Slices of a module's memory, read and written.
-/

namespace Verlet.Wasm

variable {memory : Memory} {ptr ptr' len : Nat} {bytes data found : Bytes}

theorem sliceAt_eq_some :
    sliceAt memory ptr len = some bytes ↔
      ∃ data, memory = some data ∧ ptr + len ≤ data.length ∧ bytes = (data.drop ptr).take len := by
  cases memory with
  | none => simp [sliceAt]
  | some data =>
    by_cases hfits : ptr + len > data.length
    · have hnot : ¬ ptr + len ≤ data.length := Nat.not_le_of_gt hfits
      simp [sliceAt, hfits, hnot]
    · have hle : ptr + len ≤ data.length := Nat.le_of_not_gt hfits
      simp [sliceAt, hle, eq_comm]

theorem copyAt_eq_some :
    copyAt memory ptr bytes = some data ↔ ∃ before, memory = some before ∧
      ptr + bytes.length ≤ before.length ∧
        data = before.take ptr ++ bytes ++ before.drop (ptr + bytes.length) := by
  cases memory with
  | none => simp [copyAt]
  | some before =>
    by_cases hfits : ptr + bytes.length > before.length
    · have hnot : ¬ ptr + bytes.length ≤ before.length := Nat.not_le_of_gt hfits
      simp [copyAt, hfits, hnot]
    · have hle : ptr + bytes.length ≤ before.length := Nat.le_of_not_gt hfits
      simp [copyAt, hle, eq_comm]

theorem exists_copyAt (h : sliceAt memory ptr bytes.length = some found) :
    ∃ data, copyAt memory ptr bytes = some data := by
  obtain ⟨before, rfl, hfits, -⟩ := sliceAt_eq_some.mp h
  exact ⟨_, copyAt_eq_some.mpr ⟨before, rfl, hfits, rfl⟩⟩

theorem exists_sliceAt_copyAt (hread : sliceAt memory ptr' len = some found)
    (h : copyAt memory ptr bytes = some data) : ∃ found', sliceAt (some data) ptr' len = some found' := by
  obtain ⟨before, rfl, hfits, rfl⟩ := copyAt_eq_some.mp h
  obtain ⟨before', hsame, hfits', -⟩ := sliceAt_eq_some.mp hread
  obtain rfl := Option.some.inj hsame
  refine ⟨_, sliceAt_eq_some.mpr ⟨_, rfl, ?_, rfl⟩⟩
  simp only [List.length_append, List.length_take, List.length_drop]
  omega

/-- **What was copied is there.** -/
theorem sliceAt_copyAt (h : copyAt memory ptr bytes = some data) :
    sliceAt (some data) ptr bytes.length = some bytes := by
  obtain ⟨before, -, hfits, rfl⟩ := copyAt_eq_some.mp h
  have htake : (before.take ptr).length = ptr := List.length_take_of_le (by omega)
  refine sliceAt_eq_some.mpr ⟨_, rfl, ?_, ?_⟩
  · simp only [List.length_append, htake]
    omega
  · rw [List.append_assoc, List.drop_append_of_le_length (by omega), List.drop_of_length_le (by omega),
      List.nil_append, List.take_append_of_le_length (Nat.le_refl _), List.take_length]

/-- **What lies beside it stays.** -/
theorem sliceAt_copyAt_beside (h : copyAt memory ptr bytes = some data)
    (hfound : sliceAt memory ptr' len = some found)
    (hbeside : ptr' + len ≤ ptr ∨ ptr + bytes.length ≤ ptr') : sliceAt (some data) ptr' len = some found := by
  obtain ⟨before, rfl, hfits, rfl⟩ := copyAt_eq_some.mp h
  obtain ⟨before', hsame, hfits', rfl⟩ := sliceAt_eq_some.mp hfound
  obtain rfl := Option.some.inj hsame
  have htake : (before.take ptr).length = ptr := List.length_take_of_le (by omega)
  refine sliceAt_eq_some.mpr ⟨_, rfl, ?_, List.ext_getElem? fun n => ?_⟩
  · simp only [List.length_append, List.length_take, List.length_drop]
    omega
  by_cases hn : n < len
  · simp only [List.getElem?_take, hn, if_true, List.getElem?_drop]
    rcases hbeside with hbefore | hafter
    · rw [List.append_assoc, List.getElem?_append_left (by omega), List.getElem?_take, if_pos (by omega)]
    · have hlength : (before.take ptr ++ bytes).length = ptr + bytes.length := by rw [List.length_append, htake]
      rw [List.getElem?_append_right (by omega), List.getElem?_drop, hlength]
      congr 1
      omega
  · simp only [List.getElem?_take, hn, if_false]

variable {value : Nat}

theorem fromLeBytes_toLeBytes (h : value < 2 ^ 32) : fromLeBytes (toLeBytes value) = value := by
  simp only [fromLeBytes, toLeBytes, List.foldr_cons, List.foldr_nil, UInt8.toNat_ofNat']
  omega

theorem fromLeBytes_lt (bytes : Bytes) : fromLeBytes bytes < 2 ^ (8 * bytes.length) := by
  induction bytes with
  | nil => decide
  | cons byte bytes ih =>
    have hbyte : byte.toNat < 2 ^ 8 := byte.toNat_lt
    have hcons : fromLeBytes (byte :: bytes) = byte.toNat + 2 ^ 8 * fromLeBytes bytes := rfl
    rw [hcons, List.length_cons, Nat.mul_add, Nat.pow_add, Nat.mul_comm (2 ^ (8 * bytes.length))]
    omega

theorem readGuestU32At_lt (h : readGuestU32At memory ptr = some value) : value < 2 ^ 32 := by
  obtain ⟨bytes, hslice, rfl⟩ := Option.map_eq_some_iff.mp h
  obtain ⟨data, -, hfits, rfl⟩ := sliceAt_eq_some.mp hslice
  have hlt := fromLeBytes_lt ((data.drop ptr).take 4)
  rwa [List.length_take_of_le (by rw [List.length_drop]; omega)] at hlt

theorem exists_writeGuestU32At (h : readGuestU32At memory ptr = some value) (value' : Nat) :
    ∃ data, writeGuestU32At memory ptr value' = some data := by
  obtain ⟨bytes, hslice, -⟩ := Option.map_eq_some_iff.mp h
  exact exists_copyAt hslice

/-- **An integer that was written is read.** -/
theorem readGuestU32At_write (hvalue : value < 2 ^ 32)
    (h : writeGuestU32At memory ptr value = some data) :
    readGuestU32At (some data) ptr = some value := by
  have hslice : sliceAt (some data) ptr 4 = some (toLeBytes value) := sliceAt_copyAt h
  rw [readGuestU32At, hslice, Option.map_some, fromLeBytes_toLeBytes hvalue]

theorem exists_readGuestU32At_copyAt (hread : readGuestU32At memory ptr' = some value)
    (h : copyAt memory ptr bytes = some data) :
    ∃ value', readGuestU32At (some data) ptr' = some value' := by
  obtain ⟨slice, hslice, -⟩ := Option.map_eq_some_iff.mp hread
  obtain ⟨slice', hslice'⟩ := exists_sliceAt_copyAt hslice h
  exact ⟨fromLeBytes slice', by rw [readGuestU32At, hslice']; rfl⟩

end Verlet.Wasm
