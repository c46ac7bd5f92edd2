import Mathlib.Order.Basic
import Mathlib.Tactic.Basic

/-!
# Support — Chains

Following links from a key: each key loads a node, each node names the next key or none.  The
loop is given fuel, and `none` says it ran out; along links that descend in some rank, enough
fuel never does (`follow_ne_none`), and more fuel changes nothing (`follow_mono`).
-/

namespace Verlet.Support

variable {κ ν ε : Type}

/-- Follow the links from `cursor`, gathering what each key loads in front of `path`. -/
def follow (load : κ → Except ε ν) (next : ν → Option κ) :
    Nat → Option κ → List ν → Option (Except ε (List ν))
  | _,        none,     path => some (.ok path)
  | 0,        some _,   _    => none
  | fuel + 1, some key, path =>
    match load key with
    | .error e => some (.error e)
    | .ok node => follow load next fuel (next node) (node :: path)

variable {load load' : κ → Except ε ν} {next : ν → Option κ}

@[simp] theorem follow_none (fuel : Nat) (path : List ν) :
    follow load next fuel none path = some (.ok path) := by
  cases fuel <;> rfl

theorem follow_some (fuel : Nat) (key : κ) (path : List ν) :
    follow load next (fuel + 1) (some key) path =
      match load key with
      | .error e => some (.error e)
      | .ok node => follow load next fuel (next node) (node :: path) := rfl

variable {n : Nat} {cursor : Option κ} {path path' : List ν}

theorem follow_gathers (h : follow load next n cursor path = some (.ok path')) :
    ∃ chain, path' = chain ++ path ∧ (cursor.isSome → chain ≠ []) := by
  induction n generalizing cursor path with
  | zero =>
    cases cursor with
    | none => exact ⟨[], by simpa using h.symm, by simp⟩
    | some key => cases h
  | succ n ih =>
    cases cursor with
    | none => exact ⟨[], by simpa using h.symm, by simp⟩
    | some key =>
      rw [follow_some] at h
      cases hl : load key with
      | error e => rw [hl] at h; cases h
      | ok node =>
        rw [hl] at h
        obtain ⟨chain, rfl, -⟩ := ih h
        exact ⟨chain ++ [node], by simp, by simp⟩

theorem follow_first {key : κ} (h : follow load next n (some key) path = some (.ok path')) :
    ∃ node, load key = .ok node := by
  cases n with
  | zero => cases h
  | succ n =>
    rw [follow_some] at h
    cases hl : load key with
    | error e => rw [hl] at h; cases h
    | ok node => exact ⟨node, rfl⟩

theorem follow_last {key : κ} (h : follow load next n (some key) [] = some (.ok path)) :
    ∃ node, load key = .ok node ∧ path.getLast? = some node := by
  cases n with
  | zero => cases h
  | succ n =>
    rw [follow_some] at h
    cases hl : load key with
    | error e => rw [hl] at h; cases h
    | ok node =>
      rw [hl] at h
      obtain ⟨chain, rfl, -⟩ := follow_gathers h
      exact ⟨node, rfl, List.getLast?_concat⟩

theorem follow_mem (h : follow load next n cursor path = some (.ok path')) {node : ν}
    (hn : node ∈ path') : node ∈ path ∨ ∃ key, load key = .ok node := by
  induction n generalizing cursor path with
  | zero =>
    cases cursor with
    | none => cases h; exact .inl hn
    | some key => cases h
  | succ n ih =>
    cases cursor with
    | none => cases h; exact .inl hn
    | some key =>
      rw [follow_some] at h
      cases hl : load key with
      | error e => rw [hl] at h; cases h
      | ok first =>
        rw [hl] at h
        rcases ih h with hm | hk
        · rcases List.mem_cons.mp hm with rfl | hm
          · exact .inr ⟨key, hl⟩
          · exact .inl hm
        · exact .inr hk

theorem follow_error {e : ε} (h : follow load next n cursor path = some (.error e)) :
    ∃ key, load key = .error e := by
  induction n generalizing cursor path with
  | zero => cases cursor <;> cases h
  | succ n ih =>
    cases cursor with
    | none => cases h
    | some key =>
      rw [follow_some] at h
      cases hl : load key with
      | error e' => rw [hl] at h; cases h; exact ⟨key, hl⟩
      | ok node => rw [hl] at h; exact ih h

theorem follow_mono {m : Nat} (hnm : n ≤ m) {r : Except ε (List ν)}
    (h : follow load next n cursor path = some r) : follow load next m cursor path = some r := by
  induction n generalizing m cursor path with
  | zero =>
    cases cursor with
    | none => simpa using h
    | some key => cases h
  | succ n ih =>
    cases cursor with
    | none => simpa using h
    | some key =>
      obtain ⟨m, rfl⟩ : ∃ k, m = k + 1 := ⟨m - 1, by omega⟩
      rw [follow_some] at h ⊢
      cases hl : load key with
      | error e => rw [hl] at h; exact h
      | ok node => rw [hl] at h; exact ih (by omega) h

/-- **A chain that descends ends.**  Where every link goes to a key of smaller rank, fuel above
the rank of the first key is enough. -/
theorem follow_ne_none (rank : κ → Nat)
    (hrank : ∀ k v k', load k = .ok v → next v = some k' → rank k' < rank k) {k : κ}
    (hn : rank k < n) (path : List ν) : follow load next n (some k) path ≠ none := by
  induction n generalizing k path with
  | zero => omega
  | succ n ih =>
    rw [follow_some]
    cases hl : load k with
    | error e => simp
    | ok node =>
      cases hx : next node with
      | none => simp [hx]
      | some k' =>
        have hlt := hrank k node k' hl hx
        simpa only [hx] using ih (k := k') (by omega) (node :: path)

/-- **A finished chain stays.**  A loader that still loads what `load` loaded follows a finished
chain to the same end. -/
theorem follow_of_le (hle : ∀ k v, load k = .ok v → load' k = .ok v)
    (h : follow load next n cursor path = some (.ok path')) :
    follow load' next n cursor path = some (.ok path') := by
  induction n generalizing cursor path with
  | zero =>
    cases cursor with
    | none => simpa using h
    | some key => cases h
  | succ n ih =>
    cases cursor with
    | none => simpa using h
    | some key =>
      rw [follow_some] at h ⊢
      cases hl : load key with
      | error e => rw [hl] at h; cases h
      | ok node => rw [hl] at h; rw [hle key node hl]; exact ih h

/-! ### Chains that are known -/

/-- The nodes hang together: `cursor` loads the first, each names the key of the one after it, and the
last names none. -/
def Links (load : κ → Except ε ν) (next : ν → Option κ) : Option κ → List ν → Prop
  | cursor, []            => cursor = none
  | cursor, node :: nodes =>
    ∃ key, cursor = some key ∧ load key = .ok node ∧ Links load next (next node) nodes

/-- **Following nodes that hang together gathers them.** -/
theorem Links.follow {nodes : List ν} (h : Links load next cursor nodes) (hn : nodes.length ≤ n)
    (path : List ν) : follow load next n cursor path = some (.ok (nodes.reverse ++ path)) := by
  induction nodes generalizing cursor n path with
  | nil =>
    obtain rfl : cursor = none := h
    simp
  | cons node nodes ih =>
    obtain ⟨key, rfl, hload, hrest⟩ := h
    cases n with
    | zero => simp at hn
    | succ n =>
      rw [follow_some, hload]
      simpa using ih hrest (Nat.le_of_succ_le_succ hn) (node :: path)

end Verlet.Support
