import Verlet.History.InMemory.Journal

/-!
# History — In-memory store — Scopes

State is kept by thread id; ownership is the thread's coordinates.  A parent that is asked for is
checked against the coordinates of the call, the active leaf that stands in for it is not: an
append of another scope then hangs its entry below it and moves the leaf away from its owner.

`Scoped` is the condition under which this does not happen: a call that adds an entry to a thread
presents the scope of every entry of the thread, and of every thread that reads its live branch.
-/

namespace Verlet.History.InMemory
open Support

/-- Whoever reads the live branch of the thread has entries of its scope only. -/
def ReadersShare (s : Inner) (c : ThreadCoordinates) : Prop :=
  ∀ thread, thread = c.threadId ∨ s.source.ReadsLive thread c.threadId →
    ∀ id entry, s.entryAt thread id = some entry → entry.coordinates.scope = c.scope

/-- Where the call adds an entry to a thread, it presents the scope of the thread's readers. -/
def Scoped (s : Inner) (call : Call) : Prop :=
  match call.op with
  | .append c parentArg _ _ => (∃ parent, resolveParent s c parentArg = .ok parent) → ReadersShare s c
  | .appendTurnInput c turnId _ => s.turnEntryAt c.threadId turnId = none → ReadersShare s c
  | _ => True

/-- An entry and its parent have the same coordinates. -/
def OneScope (s : Inner) : Prop :=
  ∀ thread id parent entry entry', s.entryAt thread id = some entry →
    entry.parentEntryId = some parent → s.entryAt thread parent = some entry' →
      entry'.coordinates = entry.coordinates

variable {c : ThreadCoordinates}

theorem coordinates_ext {c' : ThreadCoordinates} (hscope : c.scope = c'.scope)
    (hthread : c.threadId = c'.threadId) : c = c' := by
  obtain ⟨tenant, user, session, thread⟩ := c
  obtain ⟨tenant', user', session', thread'⟩ := c'
  simp only [ThreadCoordinates.scope, ThreadScope.mk.injEq] at hscope hthread
  obtain ⟨rfl, rfl, rfl⟩ := hscope
  rw [hthread]

theorem Sound.coordinates_of_share {s : Inner} (h : Sound s) (hshare : ReadersShare s c)
    {id : SessionEntryId} {entry : SessionEntry} (he : s.entryAt c.threadId id = some entry) :
    entry.coordinates = c :=
  coordinates_ext (hshare c.threadId (.inl rfl) id entry he) (h.forest.keyed c.threadId id entry he).2

/-! ### One call -/

theorem OneScope.insertEntry {s : Inner} (h : OneScope s) (hs : Sound s) {thread : ThreadId}
    {new : SessionEntry} (hfresh : s.entryAt thread new.entryId = none)
    (hparent : ∀ parent, new.parentEntryId = some parent →
      ∃ entry, s.entryAt thread parent = some entry ∧ entry.coordinates = new.coordinates) :
    OneScope (s.insertEntry thread new) := by
  intro thread' id parent entry entry' he hp he'
  rw [entryAt_insertEntry] at he
  split at he
  · rename_i hc
    obtain ⟨rfl, rfl⟩ := hc
    cases he
    obtain ⟨e, hstored, hcoord⟩ := hparent parent hp
    rw [entryAt_insertEntry_of_fresh hfresh hstored] at he'
    cases he'
    exact hcoord
  · obtain ⟨e, hstored⟩ := hs.forest.parent he hp
    rw [entryAt_insertEntry_of_fresh hfresh hstored] at he'
    cases he'
    exact h thread' id parent entry entry' he hp hstored

/-- **One scoped call keeps parents and children in one scope.** -/
theorem OneScope.step {s : Inner} (h : OneScope s) (hs : Sound s) {call : Call}
    (hfresh : Fresh s call) (hscoped : Scoped s call) : OneScope (step call s).2 := by
  have hentry : ∀ {new : SessionEntry}, ¬ s.holds new.entryId → ReadersShare s new.coordinates →
      (∀ parent, new.parentEntryId = some parent →
        ∃ e, s.entryAt new.coordinates.threadId parent = some e) →
      OneScope (s.insertEntry new.coordinates.threadId new) := by
    intro new hnew hshare hparent
    refine h.insertEntry hs (entryAt_of_not_holds hnew _) fun parent hp => ?_
    obtain ⟨e, he⟩ := hparent parent hp
    exact ⟨e, he, hs.coordinates_of_share hshare he⟩
  rcases step_cases s call with heq | ⟨reply, hok⟩
  · rwa [heq]
  · generalize (InMemory.step call s).2 = s' at hok
    cases hok with
    | append hparent hnew _ =>
      subst hnew
      refine hentry (hfresh 0 Nat.zero_lt_one).1 (hscoped ⟨_, hparent⟩) fun p hp => ?_
      cases hp
      exact hs.resolveParent hparent
    | turnAgain _ _ _ => exact h
    | turnInput hturn hnew _ =>
      subst hnew
      exact hentry (hfresh 0 Nat.zero_lt_one).1 (hscoped hturn) fun p hp =>
        hs.forest.leaves _ p hp
    | @selectBranch _ _ _ leaf _ _ _ _ => cases leaf <;> exact h
    | cloneNone => exact h
    | @cloneSome _ _ _ _ target _ _ _ hpath hcloned _ hj =>
      subst hcloned
      refine (takeClone_rule (P := fun s => Sound s ∧ OneScope s)
        (fun s entry ⟨hs, h⟩ hnew hc hp => ⟨hs.insertEntry hnew (congrArg _ hc) fun p hpp => ?_,
          h.insertEntry hs hnew fun p hpp => ?_⟩)
        hfresh hpath (by rfl) ⟨(hs.journaled hj).clearBase target.threadId, h⟩).2
      · obtain ⟨e, he, -⟩ := hp p hpp
        exact ⟨e, he⟩
      · obtain ⟨e, he, hec⟩ := hp p hpp
        exact ⟨e, he, hec.trans hc.symm⟩
    | fork _ _ _ => exact h
    | events _ => exact h
    | fenced _ _ => exact h

/-! ### What the owners read -/

/-- The entries of the thread are there and all of the coordinates `c`. -/
structure OwnedBy (s : Inner) (c : ThreadCoordinates) : Prop where
  stored : ∃ id entry, s.entryAt c.threadId id = some entry
  all : ∀ id entry, s.entryAt c.threadId id = some entry → entry.coordinates = c

/-- The failure of a read by a scope the entries are not of. -/
def Mismatch (e : HistoryError) : Prop := ∃ requested actual, e = .threadScopeMismatch requested actual

variable {e : HistoryError}

theorem branchPath_not_mismatch {s : Inner} {leaf : SessionEntryId}
    (hall : ∀ id entry, s.entryAt c.threadId id = some entry → entry.coordinates = c)
    (h : s.branchPath c leaf = .error e) : ¬ Mismatch e := by
  rintro ⟨requested, actual, rfl⟩
  rcases Inner.branchPath_error h with hdiverged | hmissing | ⟨entriesById, id, hl, hload⟩
  · cases hdiverged
  · cases hmissing
  · cases hk : entriesById.lookup id with
    | none => simp [loadEntry, hk, bind, Except.bind] at hload
    | some entry =>
      have hc := hall id entry (by simp [Inner.entryAt, hl, hk])
      rw [loadEntry_ok.mpr ⟨hk, hc⟩] at hload
      cases hload

section Owners

variable {s : Inner} {epoch : Nat} {event : NewEventRecord} {new : SessionEntry}
  {a : ThreadCoordinates}

theorem lookup_takeEntry (thread : ThreadId) :
    (s.takeEntry epoch event new).activeLeaf.lookup thread =
      if thread = new.coordinates.threadId then some new.entryId
      else s.activeLeaf.lookup thread := by
  rw [Inner.takeEntry, activeLeaf_setLeaf, Map.lookup_insert]
  rfl

theorem entryAt_takeEntry (thread : ThreadId) (id : SessionEntryId) :
    (s.takeEntry epoch event new).entryAt thread id =
      if thread = new.coordinates.threadId ∧ id = new.entryId then some new
      else s.entryAt thread id :=
  entryAt_insertEntry (s.journal epoch (.forThread new.coordinates) [event]) _ _ _ _

theorem OwnedBy.eq_of_share (ha : OwnedBy s a) (hshare : ReadersShare s c)
    (hread : a.threadId = c.threadId ∨ s.source.ReadsLive a.threadId c.threadId) :
    a.scope = c.scope := by
  obtain ⟨id, entry, he⟩ := ha.stored
  rw [← ha.all id entry he]
  exact hshare a.threadId hread id entry he

theorem activeLeaf_takeEntry (hshare : ReadersShare s new.coordinates) (ha : OwnedBy s a)
    {leaf : Option SessionEntryId} (hok : activeLeaf s a = .ok leaf)
    (he : activeLeaf (s.takeEntry epoch event new) a = .error e) : ¬ Mismatch e := by
  by_cases ht : a.threadId = new.coordinates.threadId
  · have hac : new.coordinates = a :=
      coordinates_ext (ha.eq_of_share hshare (.inl ht)).symm ht.symm
    have hleaf : activeLeaf (s.takeEntry epoch event new) a = .ok (some new.entryId) := by
      simp only [activeLeaf, lookup_takeEntry, entryAt_takeEntry, ht, if_true, true_and, okOr_some]
      rw [bind_ok]
      simp only [bind_ok, exists_unit_ok, validateEntryCoordinates_ok]
      exact ⟨new, rfl, hac, rfl⟩
    rw [hleaf] at he
    cases he
  · have hsame : activeLeaf (s.takeEntry epoch event new) a = activeLeaf s a := by
      simp only [activeLeaf, lookup_takeEntry, entryAt_takeEntry, ht, if_false, false_and]
    rw [hsame, hok] at he
    cases he

theorem buildContext_takeEntry (hs : Sound s) (hnew : ¬ s.holds new.entryId)
    (hshare : ReadersShare s new.coordinates) (ha : OwnedBy s a) {context : SessionContext}
    (hok : buildContext s a = .ok context)
    (he : buildContext (s.takeEntry epoch event new) a = .error e) : ¬ Mismatch e := by
  have hkept : ∀ thread id entry, s.entryAt thread id = some entry →
      (s.takeEntry epoch event new).entryAt thread id = some entry := fun thread id entry h =>
    entryAt_insertEntry_of_fresh (entryAt_of_not_holds hnew _) h
  have hpath : ∀ c leaf path, s.source.branchPath c leaf = .ok path →
      (s.takeEntry epoch event new).source.branchPath c leaf = .ok path :=
    fun c leaf path => branchPath_of_entries hkept
  -- a live branch that the owner reads is untouched, or is the one appended to, in its own scope
  have hlocal : ∀ c path e, c.scope = a.scope →
      (a.threadId = c.threadId ∨ s.source.ReadsLive a.threadId c.threadId) →
      localPathFrom s.source c none = .ok path →
      localPathFrom (s.takeEntry epoch event new).source c none = .error e → ¬ Mismatch e := by
    intro c path e hscope hread hl hl'
    by_cases ht : c.threadId = new.coordinates.threadId
    · have hcn : new.coordinates = c :=
        coordinates_ext ((ha.eq_of_share hshare (ht ▸ hread)).symm.trans hscope.symm) ht.symm
      rcases localPathFrom_none_error hl' with hx | ⟨leaf, -, hb⟩
      · cases hx
      · refine branchPath_not_mismatch (fun id entry hid => ?_) hb
        rw [entryAt_takeEntry] at hid
        split at hid
        · cases hid
          exact hcn
        · rw [← hcn] at hid ⊢
          exact hs.coordinates_of_share hshare hid
    · have hleaf : (s.takeEntry epoch event new).source.activeLeaf c.threadId =
          s.source.activeLeaf c.threadId := by
        change Except.ok _ = Except.ok _
        rw [lookup_takeEntry, if_neg ht]
      have hsame : localPathFrom (s.takeEntry epoch event new).source c none = .ok path := by
        rw [localPathFrom_none_ok] at hl ⊢
        rw [hleaf]
        exact hl.imp_right fun ⟨leaf, hx, hb⟩ => ⟨leaf, hx, hpath c leaf path hb⟩
      rw [hsame] at hl'
      cases hl'
  refine buildContextFrom_not_bad (B := Mismatch) (by rintro _ _ ⟨_, _, h⟩; cases h)
    (by rintro _ ⟨_, _, h⟩; cases h) (by rfl) hpath
    (fun c path e hscope hread => hlocal c path e hscope (.inr hread)) rfl .refl
    (fun path e _ => hlocal a path e rfl (.inl rfl)) hok he

end Owners

/-! ### Whole runs -/

/-- The call is `append`, `append_with_provenance` or `append_turn_input`. -/
def appendsEntry : Op → Bool
  | .append _ _ _ _ | .appendTurnInput _ _ _ => true
  | _                                        => false

/-- **Scope isolation.**  After any scoped calls an entry and its parent have the same coordinates,
and a further scoped append or turn input that succeeds does not make the `active_leaf` or the
`build_context` of a thread's owner fail with a scope mismatch. -/
theorem scope_isolation (calls : List Call)
    (h : Along step (fun s call => Fresh s call ∧ Scoped s call) calls .empty) :
    let s := run step calls .empty
    OneScope s ∧ ∀ call reply, Fresh s call → Scoped s call → appendsEntry call.op →
      (step call s).1 = .ok reply → ∀ a, OwnedBy s a →
        (∀ leaf e, activeLeaf s a = .ok leaf →
          activeLeaf (step call s).2 a = .error e → ¬ Mismatch e) ∧
        (∀ context e, buildContext s a = .ok context →
          buildContext (step call s).2 a = .error e → ¬ Mismatch e) := by
  intro s
  have hinv : Sound s ∧ OneScope s :=
    h.invariant (P := fun s => Sound s ∧ OneScope s)
      (fun s call ⟨hs, ho⟩ ⟨hf, hc⟩ => ⟨hs.step hf, ho.step hs hf hc⟩)
      ⟨sound_empty, by intro _ _ _ _ _ he; cases he⟩
  refine ⟨hinv.2, fun call reply hfresh hscoped hop hreply a ha => ?_⟩
  have hok : Succeeds s call reply (step call s).2 := step_ok_iff.mp (Prod.ext hreply rfl)
  generalize (step call s).2 = s' at hok
  cases hok with
  | append hparent hnew hj =>
    subst hnew
    have hshare := hscoped ⟨_, hparent⟩
    exact ⟨fun leaf e h₁ h₂ => activeLeaf_takeEntry hshare ha h₁ h₂,
      fun context e h₁ h₂ => buildContext_takeEntry hinv.1 (hfresh 0 Nat.zero_lt_one).1 hshare ha
        h₁ h₂⟩
  | turnAgain _ _ _ =>
    refine ⟨fun leaf e h₁ h₂ => ?_, fun context e h₁ h₂ => ?_⟩ <;> rw [h₁] at h₂ <;> cases h₂
  | turnInput hturn hnew hj =>
    subst hnew
    have hshare := hscoped hturn
    exact ⟨fun leaf e h₁ h₂ => activeLeaf_takeEntry hshare ha h₁ h₂,
      fun context e h₁ h₂ => buildContext_takeEntry hinv.1 (hfresh 0 Nat.zero_lt_one).1 hshare ha
        h₁ h₂⟩
  | selectBranch | cloneNone | cloneSome | fork | events | fenced => cases hop

theorem readersShare_of_all {s : Inner}
    (h : ∀ entries ∈ Map.values s.entries, ∀ entry ∈ Map.values entries,
      entry.coordinates.scope = c.scope) : ReadersShare s c := by
  intro thread _ id entry he
  obtain ⟨entries, hl, hk⟩ := Option.bind_eq_some_iff.mp he
  exact h entries (Map.mem_values.mpr ⟨thread, hl⟩) entry (Map.mem_values.mpr ⟨id, hk⟩)

/-- Two appends of one owner. -/
def ownedCalls : List Call :=
  [.counted 0 1 (.append (.counted "alice" 1) none (.said "first") none),
   .counted 0 2 (.appendTurnInput (.counted "alice" 1) "turn" (.said "second"))]

set_option maxRecDepth 100000 in
theorem scope_isolation_owned : OneScope (run step ownedCalls .empty) :=
  (scope_isolation ownedCalls
    ⟨⟨by decide, fun _ => readersShare_of_all (by decide)⟩,
      ⟨by decide, fun _ => readersShare_of_all (by decide)⟩, trivial⟩).1

/-- An append of one owner, and one to the same thread by another. -/
def intrudingCalls : List Call :=
  [.counted 0 1 (.append (.counted "alice" 1) none (.said "first") none),
   .counted 0 2 (.append (.counted "bob" 1) none (.said "second") none)]

set_option maxRecDepth 100000 in
/-- The second append succeeds: its entry hangs below one of other coordinates, and the first
owner's reads, good before it, then mismatch. -/
theorem intruding_append :
    let alice := ThreadCoordinates.counted "alice" 1
    let bob := ThreadCoordinates.counted "bob" 1
    let before := run step (intrudingCalls.take 1) .empty
    let s := run step intrudingCalls .empty
    ¬ OneScope s ∧ activeLeaf before alice = .ok (some (.counted 1)) ∧
      activeLeaf s alice = .error (.threadScopeMismatch alice bob) ∧
      (buildContext before alice).isOk ∧
      buildContext s alice = .error (.threadScopeMismatch alice bob) := by
  intro alice bob before s
  refine ⟨fun h => ?_, by decide⟩
  have hentries : s.entryAt ⟨⟨1⟩⟩ (.counted 2) =
      some (.new (.counted 2) bob (some (.counted 1)) (.said "second")) ∧
      s.entryAt ⟨⟨1⟩⟩ (.counted 1) = some (.new (.counted 1) alice none (.said "first")) := by
    decide
  exact absurd (h _ _ _ _ _ hentries.1 rfl hentries.2) (by decide)

end Verlet.History.InMemory
