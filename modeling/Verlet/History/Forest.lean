import Verlet.History.Messages

/-!
# History — Forest

The entries of a store as a forest in each thread: an entry's parent is an entry of the same
thread, older than it, so that every chain of parents ends at a root.

* `Forest.insert`: a new entry with a stored parent, or none, keeps the forest.
-/

namespace Verlet.History

/-- The stored entries of each thread, how many there are, and its active leaf. -/
structure Forest (entryAt : ThreadId → SessionEntryId → Option SessionEntry)
    (count : ThreadId → Nat) (leaf : ThreadId → Option SessionEntryId) : Prop where
  /-- An entry is stored under its own id and thread. -/
  keyed : ∀ thread id entry, entryAt thread id = some entry →
    entry.entryId = id ∧ entry.coordinates.threadId = thread
  /-- An active leaf is an entry of its thread. -/
  leaves : ∀ thread id, leaf thread = some id → ∃ entry, entryAt thread id = some entry
  /-- Parents are entries of the same thread, and older: `age` counts from the root up. -/
  aged : ∃ age : ThreadId → SessionEntryId → Nat, ∀ thread id entry,
    entryAt thread id = some entry → age thread id < count thread ∧
      ∀ parent, entry.parentEntryId = some parent →
        (∃ entry', entryAt thread parent = some entry') ∧ age thread parent < age thread id

/-- The chain of parents from an entry ends at a root. -/
inductive Rooted (entryAt : ThreadId → SessionEntryId → Option SessionEntry) (thread : ThreadId) :
    SessionEntryId → Prop
  | root {id : SessionEntryId} {entry : SessionEntry} (h : entryAt thread id = some entry)
      (hp : entry.parentEntryId = none) : Rooted entryAt thread id
  | child {id parent : SessionEntryId} {entry : SessionEntry} (h : entryAt thread id = some entry)
      (hp : entry.parentEntryId = some parent) (hr : Rooted entryAt thread parent) :
      Rooted entryAt thread id

variable {entryAt : ThreadId → SessionEntryId → Option SessionEntry} {count : ThreadId → Nat}
  {leaf leaf' : ThreadId → Option SessionEntryId}

theorem Forest.empty : Forest (fun _ _ => none) (fun _ => 0) (fun _ => none) where
  keyed := by simp
  leaves := by simp
  aged := ⟨fun _ _ => 0, by simp⟩

variable {thread : ThreadId} {entry : SessionEntry}

theorem Forest.parent (h : Forest entryAt count leaf) {id parent : SessionEntryId}
    (he : entryAt thread id = some entry) (hp : entry.parentEntryId = some parent) :
    ∃ entry', entryAt thread parent = some entry' := by
  obtain ⟨age, hage⟩ := h.aged
  exact ((hage thread id entry he).2 parent hp).1

/-- **Every chain of parents ends at a root.** -/
theorem Forest.rooted (h : Forest entryAt count leaf) {id : SessionEntryId}
    (he : entryAt thread id = some entry) : Rooted entryAt thread id := by
  obtain ⟨age, hage⟩ := h.aged
  induction hn : age thread id using Nat.strong_induction_on generalizing id entry with
  | _ n ih =>
    cases hp : entry.parentEntryId with
    | none => exact .root he hp
    | some parent =>
      obtain ⟨⟨entry', he'⟩, hlt⟩ := (hage thread id entry he).2 parent hp
      exact .child he hp (ih _ (hn ▸ hlt) he' rfl)

theorem Forest.insert (h : Forest entryAt count leaf) (hfresh : entryAt thread entry.entryId = none)
    (hthread : entry.coordinates.threadId = thread)
    (hparent : ∀ parent, entry.parentEntryId = some parent → ∃ e, entryAt thread parent = some e) :
    Forest (fun thread' id =>
        if thread' = thread ∧ id = entry.entryId then some entry else entryAt thread' id)
      (fun thread' => if thread' = thread then count thread + 1 else count thread') leaf where
  keyed thread' id e he := by
    split at he
    · rename_i hc
      obtain ⟨rfl, rfl⟩ := hc
      cases he
      exact ⟨rfl, hthread⟩
    · exact h.keyed thread' id e he
  leaves thread' id hl := by
    split
    · exact ⟨entry, rfl⟩
    · exact h.leaves thread' id hl
  aged := by
    obtain ⟨age, hage⟩ := h.aged
    -- the new entry is the youngest of its thread; a parent is stored, so it is not the new entry
    refine ⟨fun thread' id => if thread' = thread ∧ id = entry.entryId then count thread
      else age thread' id, fun thread' id e he => ?_⟩
    by_cases hc : thread' = thread ∧ id = entry.entryId
    · obtain ⟨rfl, rfl⟩ := hc
      simp only [true_and, if_true, Option.some.injEq] at he ⊢
      subst he
      refine ⟨Nat.lt_succ_self _, fun parent hp => ?_⟩
      obtain ⟨e', he'⟩ := hparent parent hp
      have hne : parent ≠ entry.entryId := by
        rintro rfl
        rw [hfresh] at he'
        cases he'
      simp only [hne, if_false]
      exact ⟨⟨e', he'⟩, (hage thread' parent e' he').1⟩
    · rw [if_neg hc] at he
      simp only [if_neg hc]
      refine ⟨?_, fun parent hp => ?_⟩
      · have := (hage thread' id e he).1
        split
        · rename_i ht; subst ht; omega
        · exact this
      · obtain ⟨⟨e', he'⟩, hlt⟩ := (hage thread' id e he).2 parent hp
        have hne : ¬ (thread' = thread ∧ parent = entry.entryId) := by
          rintro ⟨rfl, rfl⟩
          rw [hfresh] at he'
          cases he'
        simp only [if_neg hne]
        exact ⟨⟨e', he'⟩, hlt⟩

theorem Forest.withLeaves (h : Forest entryAt count leaf)
    (hl : ∀ thread id, leaf' thread = some id → ∃ entry, entryAt thread id = some entry) :
    Forest entryAt count leaf' :=
  ⟨h.keyed, hl, h.aged⟩

end Verlet.History
