import Mathlib.Logic.Basic

/-!
# Support — Fallible computations

Computations over a state that may fail.  In `Fallible ε σ` a failure keeps the writes made
before it, as a lock-guarded mutation does; in `Tx ε σ` a failure loses them, as a rolled-back
transaction does.  `transaction` runs the second as one step of the first.

* `exec_bind` and its companions evaluate a `do` block one statement at a time; the `_ok` forms
  say when it succeeds, `bind_ok` the same of a plain `Except`.
* `Atomic`: a failure leaves the state as it was.  Reading first and writing last is atomic
  (`Atomic.bind_of_readOnly`, `Atomic.bind_of_total`), and so is every transaction
  (`atomic_transaction`).
-/

namespace Verlet.Support

/-- A failure keeps the writes made before it. -/
abbrev Fallible (ε σ : Type) := ExceptT ε (StateM σ)

/-- A failure loses the writes made before it. -/
abbrev Tx (ε σ : Type) := StateT σ (Except ε)

variable {ε σ α β : Type}

/-- The result of `m` from `s`, and the state it leaves. -/
def exec (m : Fallible ε σ α) (s : σ) : Except ε α × σ := m s

/-- Run `m` as one transaction: commit what it wrote, or roll back. -/
def transaction (m : Tx ε σ α) : Fallible ε σ α := fun s =>
  match m s with
  | .ok (a, s') => (.ok a, s')
  | .error e    => (.error e, s)

/-- A read of the state that writes nothing. -/
def reading (f : σ → Except ε α) : Fallible ε σ α := fun s => (f s, s)

/-- A write of the state that cannot fail. -/
def writing (f : σ → σ) : Fallible ε σ Unit := fun s => (.ok (), f s)

@[simp] theorem exec_pure (a : α) (s : σ) : exec (pure a : Fallible ε σ α) s = (.ok a, s) := rfl

@[simp] theorem exec_reading (f : σ → Except ε α) (s : σ) : exec (reading f) s = (f s, s) := rfl

@[simp] theorem exec_writing (f : σ → σ) (s : σ) :
    exec (writing f : Fallible ε σ Unit) s = (.ok (), f s) := rfl

@[simp] theorem exec_throw (e : ε) (s : σ) :
    exec (throw e : Fallible ε σ α) s = (.error e, s) := rfl

theorem exec_bind (m : Fallible ε σ α) (f : α → Fallible ε σ β) (s : σ) :
    exec (m >>= f) s =
      match exec m s with
      | (.ok a, s')    => exec (f a) s'
      | (.error e, s') => (.error e, s') := by
  change (ExceptT.bindCont f (m s).1 (m s).2) = _
  rcases h : m s with ⟨_ | a, s'⟩ <;> simp only [exec, h] <;> rfl

theorem exec_reading_bind (f : σ → Except ε α) (k : α → Fallible ε σ β) (s : σ) :
    exec (reading f >>= k) s =
      match f s with
      | .ok a    => exec (k a) s
      | .error e => (.error e, s) := by
  rw [exec_bind, exec_reading]
  cases f s <;> rfl

@[simp] theorem exec_writing_bind (f : σ → σ) (k : Unit → Fallible ε σ β) (s : σ) :
    exec (writing f >>= k) s = exec (k ()) (f s) := by
  rw [exec_bind, exec_writing]

theorem exec_transaction (m : Tx ε σ α) (s : σ) :
    exec (transaction m) s =
      match m s with
      | .ok (a, s') => (.ok a, s')
      | .error e    => (.error e, s) := rfl

/-! ### Successes -/

/-- Fail with `e` unless `p`. -/
def require (p : Prop) [Decidable p] (e : ε) : Except ε Unit := if p then .ok () else .error e

theorem require_ok {p : Prop} [Decidable p] {e : ε} : require p e = .ok () ↔ p := by
  unfold require
  split <;> simp [*]

variable {f : α → Except ε β} {b : β}

theorem bind_ok {x : Except ε α} : (x >>= f) = .ok b ↔ ∃ a, x = .ok a ∧ f a = .ok b := by
  cases x with
  | error e =>
    constructor
    · intro h
      cases h
    · rintro ⟨_, h, -⟩
      cases h
  | ok a =>
    refine ⟨fun h => ⟨a, rfl, h⟩, ?_⟩
    rintro ⟨_, h, hf⟩
    cases h
    exact hf

theorem bind_error {x : Except ε α} {e : ε} :
    (x >>= f) = .error e ↔ x = .error e ∨ ∃ a, x = .ok a ∧ f a = .error e := by
  cases x with
  | error e' =>
    refine ⟨fun h => .inl (by cases h; rfl), ?_⟩
    rintro (h | ⟨_, h, -⟩)
    · cases h; rfl
    · cases h
  | ok a =>
    refine ⟨fun h => .inr ⟨a, rfl, h⟩, ?_⟩
    rintro (h | ⟨_, h, hf⟩)
    · cases h
    · cases h; exact hf

variable {a : α}

theorem pure_ok {b : α} : (pure a : Except ε α) = .ok b ↔ a = b :=
  ⟨fun h => Except.ok.inj h, fun h => congrArg Except.ok h⟩

variable {l : List α}

theorem mapM_cons_ok {found : List β} :
    (a :: l).mapM f = .ok found ↔ ∃ b rest, f a = .ok b ∧ l.mapM f = .ok rest ∧ found = b :: rest := by
  rw [List.mapM_cons, bind_ok]
  refine exists_congr fun b => ?_
  rw [bind_ok]
  constructor
  · rintro ⟨hb, rest, hrest, hfound⟩
    exact ⟨rest, hb, hrest, (Except.ok.inj hfound).symm⟩
  · rintro ⟨rest, hb, hrest, rfl⟩
    exact ⟨hb, rest, hrest, rfl⟩

theorem exists_mapM_ok : (∃ found, l.mapM f = .ok found) ↔ ∀ a ∈ l, ∃ b, f a = .ok b := by
  induction l with
  | nil =>
    refine ⟨fun _ a ha => ?_, fun _ => ⟨[], rfl⟩⟩
    cases ha
  | cons a l ih =>
    rw [List.forall_mem_cons, ← ih]
    constructor
    · rintro ⟨found, h⟩
      obtain ⟨b, rest, hb, hrest, -⟩ := mapM_cons_ok.mp h
      exact ⟨⟨b, hb⟩, rest, hrest⟩
    · rintro ⟨⟨b, hb⟩, rest, hrest⟩
      exact ⟨b :: rest, mapM_cons_ok.mpr ⟨b, rest, hb, hrest, rfl⟩⟩

theorem mem_of_mapM_ok {found : List β} (h : l.mapM f = .ok found) :
    b ∈ found ↔ ∃ a ∈ l, f a = .ok b := by
  induction l generalizing found with
  | nil =>
    obtain rfl : [] = found := Except.ok.inj h
    simp
  | cons a l ih =>
    obtain ⟨b', rest, hb', hrest, rfl⟩ := mapM_cons_ok.mp h
    simp only [List.mem_cons, ih hrest, exists_eq_or_imp, hb', Except.ok.injEq, @eq_comm _ b']

theorem mapM_ok_map {g : α → β} (h : ∀ a ∈ l, f a = .ok (g a)) : l.mapM f = .ok (l.map g) := by
  induction l with
  | nil => rfl
  | cons a l ih =>
    obtain ⟨ha, hl⟩ := List.forall_mem_cons.mp h
    exact mapM_cons_ok.mpr ⟨g a, l.map g, ha, ih hl, rfl⟩

/-- Nothing more is what reads as no more. -/
theorem mapM_append_ok_iff {more : List α} {found : List β} (h : l.mapM f = .ok found) :
    (l ++ more).mapM f = .ok found ↔ more = [] := by
  rw [List.mapM_append, h]
  constructor
  · intro hall
    obtain ⟨rest, hrest, hsame⟩ := bind_ok (f := fun rest => .ok (found ++ rest)).mp hall
    obtain rfl : rest = [] := by simpa using Except.ok.inj hsame
    cases more with
    | nil => rfl
    | cons a more =>
      obtain ⟨b, rest, -, -, heq⟩ := mapM_cons_ok.mp hrest
      cases heq
  · rintro rfl
    exact congrArg Except.ok (List.append_nil found)

theorem throw_ok {e : ε} : (throw e : Except ε α) = .ok a ↔ False :=
  ⟨fun h => (nomatch h), False.elim⟩

theorem exists_unit_ok {x : Except ε Unit} {p : Prop} : (∃ u : Unit, x = .ok u ∧ p) ↔ x = .ok () ∧ p :=
  ⟨fun ⟨_, h⟩ => h, fun h => ⟨(), h⟩⟩

theorem forM_ok {f : α → Except ε Unit} : l.forM f = .ok () ↔ ∀ a ∈ l, f a = .ok () := by
  induction l with
  | nil => exact ⟨fun _ _ h => (List.not_mem_nil h).elim, fun _ => rfl⟩
  | cons a l ih =>
    rw [List.forall_mem_cons, ← ih]
    exact bind_ok.trans exists_unit_ok

variable {m : Fallible ε σ α} {s s' : σ}

theorem exec_bind_ok {f : α → Fallible ε σ β} :
    exec (m >>= f) s = (.ok b, s') ↔
      ∃ a s₁, exec m s = (.ok a, s₁) ∧ exec (f a) s₁ = (.ok b, s') := by
  rw [exec_bind]
  rcases exec m s with ⟨_ | a, s₁⟩
  · simp
  · refine ⟨fun h => ⟨a, s₁, rfl, h⟩, ?_⟩
    rintro ⟨a', s₂, h, hk⟩
    cases h
    exact hk

variable {f : σ → Except ε α}

theorem exec_reading_bind_ok {k : α → Fallible ε σ β} :
    exec (reading f >>= k) s = (.ok b, s') ↔ ∃ a, f s = .ok a ∧ exec (k a) s = (.ok b, s') := by
  rw [exec_reading_bind]
  cases f s <;> simp

theorem exec_map_ok {f : α → β} :
    exec (f <$> m) s = (.ok b, s') ↔ ∃ a, exec m s = (.ok a, s') ∧ f a = b := by
  rw [map_eq_pure_bind, exec_bind_ok]
  simp only [exec_pure, Prod.mk.injEq, Except.ok.injEq]
  constructor
  · rintro ⟨a, s₁, h, rfl, rfl⟩
    exact ⟨a, h, rfl⟩
  · rintro ⟨a, h, rfl⟩
    exact ⟨a, s', h, rfl, rfl⟩

theorem exec_discard_bind_ok {k : Unit → Fallible ε σ β} :
    exec (discard m >>= k) s = (.ok b, s') ↔
      ∃ a s₁, exec m s = (.ok a, s₁) ∧ exec (k ()) s₁ = (.ok b, s') := by
  rw [exec_bind_ok]
  constructor
  · rintro ⟨_, s₁, h, hk⟩
    obtain ⟨a, ha, -⟩ := exec_map_ok.mp h
    exact ⟨a, s₁, ha, hk⟩
  · rintro ⟨a, s₁, h, hk⟩
    exact ⟨(), s₁, exec_map_ok.mpr ⟨a, h, rfl⟩, hk⟩

/-! ### Transactions -/

/-- A query of a transaction: it reads, and may fail. -/
def query (f : σ → Except ε α) : Tx ε σ α := fun s => (f s).map fun a => (a, s)

/-- A statement of a transaction: it writes, and may fail. -/
def execute (f : σ → Except ε σ) : Tx ε σ Unit := fun s => (f s).map fun s' => ((), s')

theorem transaction_ok {m : Tx ε σ α} :
    exec (transaction m) s = (.ok a, s') ↔ m s = .ok (a, s') := by
  rw [exec_transaction]
  cases m s with
  | error e => simp
  | ok r => simp [Prod.ext_iff]

theorem tx_pure_ok {b : α} : (pure a : Tx ε σ α) s = .ok (b, s') ↔ a = b ∧ s = s' := by
  change Except.ok (a, s) = _ ↔ _
  rw [Except.ok.injEq, Prod.mk.injEq]

variable {k : α → Tx ε σ β}

theorem tx_bind_ok {m : Tx ε σ α} :
    (m >>= k) s = .ok (b, s') ↔ ∃ a s₁, m s = .ok (a, s₁) ∧ k a s₁ = .ok (b, s') := by
  change (m s >>= fun r => k r.1 r.2) = _ ↔ _
  rw [bind_ok]
  exact Prod.exists

theorem query_ok : query f s = .ok (a, s') ↔ f s = .ok a ∧ s = s' := by
  unfold query
  cases f s <;> simp [Except.map]

theorem execute_ok {f : σ → Except ε σ} {u : Unit} : execute f s = .ok (u, s') ↔ f s = .ok s' := by
  unfold execute
  cases f s <;> simp [Except.map]

theorem query_bind_ok :
    (query f >>= k) s = .ok (b, s') ↔ ∃ a, f s = .ok a ∧ k a s = .ok (b, s') := by
  rw [tx_bind_ok]
  refine exists_congr fun a => ⟨fun ⟨s₁, h, hk⟩ => ?_, fun ⟨h, hk⟩ => ⟨s, query_ok.mpr ⟨h, rfl⟩, hk⟩⟩
  obtain ⟨hf, rfl⟩ := query_ok.mp h
  exact ⟨hf, hk⟩

theorem execute_bind_ok {f : σ → Except ε σ} {k : Unit → Tx ε σ β} :
    (execute f >>= k) s = .ok (b, s') ↔ ∃ s₁, f s = .ok s₁ ∧ k () s₁ = .ok (b, s') := by
  rw [tx_bind_ok]
  refine ⟨fun ⟨_, s₁, h, hk⟩ => ⟨s₁, execute_ok.mp h, hk⟩, fun ⟨s₁, h, hk⟩ => ?_⟩
  exact ⟨(), s₁, execute_ok.mpr h, hk⟩

theorem discard_ok {m : Tx ε σ α} {u : Unit} :
    (discard m : Tx ε σ Unit) s = .ok (u, s') ↔ ∃ a, m s = .ok (a, s') := by
  change (m s >>= fun r => Except.ok ((), r.2)) = _ ↔ _
  cases m s with
  | error e => simp [bind, Except.bind]
  | ok r => simp [bind, Except.bind, Prod.ext_iff]

theorem discard_bind_ok {m : Tx ε σ α} {k : Unit → Tx ε σ β} :
    (discard m >>= k) s = .ok (b, s') ↔ ∃ a s₁, m s = .ok (a, s₁) ∧ k () s₁ = .ok (b, s') := by
  change ((m s >>= fun r => Except.ok ((), r.2)) >>= fun r => k r.1 r.2) = _ ↔ _
  cases m s with
  | error e => simp [bind, Except.bind]
  | ok r =>
    change k () r.2 = _ ↔ _
    refine ⟨fun h => ⟨r.1, r.2, rfl, h⟩, ?_⟩
    rintro ⟨a, s₁, h, hk⟩
    cases h
    exact hk

/-! ### What a transaction fails with -/

/-- Every error of the transaction is one of `P`. -/
def FailsWith (P : ε → Prop) (m : Tx ε σ α) : Prop := ∀ s e, m s = .error e → P e

variable {P : ε → Prop}

theorem FailsWith.pure (a : α) : FailsWith P (Pure.pure a : Tx ε σ α) := by
  rintro s e ⟨⟩

theorem FailsWith.bind {m : Tx ε σ α} (hm : FailsWith P m) (hk : ∀ a, FailsWith P (k a)) :
    FailsWith P (m >>= k) := by
  intro s e h
  have h' : (m s >>= fun r => k r.1 r.2) = .error e := h
  rcases bind_error.mp h' with hfirst | ⟨r, -, hrest⟩
  · exact hm s e hfirst
  · exact hk r.1 r.2 e hrest

theorem FailsWith.query (h : ∀ s e, f s = .error e → P e) : FailsWith P (Support.query f) := by
  intro s e he
  unfold Support.query at he
  cases hf : f s with
  | error e' =>
    rw [hf] at he
    cases he
    exact h s e hf
  | ok a =>
    rw [hf] at he
    cases he

theorem FailsWith.execute {f : σ → Except ε σ} (h : ∀ s e, f s = .error e → P e) :
    FailsWith P (Support.execute f) := by
  intro s e he
  unfold Support.execute at he
  cases hf : f s with
  | error e' =>
    rw [hf] at he
    cases he
    exact h s e hf
  | ok a =>
    rw [hf] at he
    cases he

/-! ### Failures that change nothing -/

/-- A failure leaves the state as it was. -/
def Atomic (m : Fallible ε σ α) : Prop := ∀ s e s', exec m s = (.error e, s') → s' = s

theorem atomic_transaction (m : Tx ε σ α) : Atomic (transaction m) := by
  intro s e s' h
  rw [exec_transaction] at h
  cases hm : m s with
  | error e => rw [hm] at h; exact (Prod.mk.inj h).2.symm
  | ok p => rw [hm] at h; exact absurd (Prod.mk.inj h).1 (by simp)

theorem Atomic.pure (a : α) : Atomic (Pure.pure a : Fallible ε σ α) := by
  intro s e s' h
  simp at h

/-- The computation writes nothing. -/
def ReadOnly (m : Fallible ε σ α) : Prop := ∀ s, (exec m s).2 = s

theorem ReadOnly.pure (a : α) : ReadOnly (Pure.pure a : Fallible ε σ α) := fun _ => rfl

theorem ReadOnly.reading (f : σ → Except ε α) : ReadOnly (Support.reading f) := fun _ => rfl

theorem ReadOnly.map (f : α → β) (hm : ReadOnly m) : ReadOnly (f <$> m) := by
  intro s
  have hs := hm s
  rw [map_eq_pure_bind, exec_bind]
  rcases hr : exec m s with ⟨_ | a, s₁⟩
  · rw [hr] at hs; exact hs
  · rw [hr] at hs; exact hs

theorem Atomic.bind_of_readOnly {k : α → Fallible ε σ β} (hm : ReadOnly m) (hk : ∀ a, Atomic (k a)) :
    Atomic (m >>= k) := by
  intro s e s' h
  have hs := hm s
  rw [exec_bind] at h
  rcases hr : exec m s with ⟨_ | a, s₁⟩
  · rw [hr] at h hs
    exact (Prod.mk.inj h).2.symm.trans hs
  · rw [hr] at h hs
    obtain rfl : s₁ = s := hs
    exact hk a s₁ e s' h

theorem Atomic.throw (e : ε) : Atomic (throw e : Fallible ε σ α) := by
  intro s e' s' h
  rw [exec_throw] at h
  exact (Prod.mk.inj h).2.symm

theorem Atomic.map (f : α → β) (hm : Atomic m) : Atomic (f <$> m) := by
  intro s e s' h
  rw [map_eq_pure_bind, exec_bind] at h
  rcases hr : exec m s with ⟨_ | a, s₁⟩
  · rw [hr] at h
    obtain rfl := hm s _ s₁ hr
    exact (Prod.mk.inj h).2.symm
  · rw [hr] at h
    exact absurd (Prod.mk.inj h).1 (by simp)

theorem Atomic.bind_of_total {k : α → Fallible ε σ β} (hm : Atomic m)
    (hk : ∀ a s, ∃ b s', exec (k a) s = (.ok b, s')) : Atomic (m >>= k) := by
  intro s e s' h
  rw [exec_bind] at h
  rcases hr : exec m s with ⟨_ | a, s₁⟩
  · rw [hr] at h
    obtain rfl := hm s _ s₁ hr
    exact (Prod.mk.inj h).2.symm
  · rw [hr] at h
    obtain ⟨b, s₂, hb⟩ := hk a s₁
    change exec (k a) s₁ = _ at h
    rw [hb] at h
    exact absurd (Prod.mk.inj h).1 (by simp)

end Verlet.Support
