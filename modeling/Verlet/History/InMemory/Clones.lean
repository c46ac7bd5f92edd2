import Verlet.History.Forks
import Verlet.History.InMemory.Frames

/-!
# History — In-memory store — Clones

What a cloned thread says.  A clone copies the branch that ends at a leaf of its source and stands on
its own, so its context is that branch, entry by entry; what the source inherits through its base is
not part of the branch.
-/

namespace Verlet.History
open Support

/-! ### Conversations -/

/-- The message without its time. -/
def CanonicalMessage.untimed : CanonicalMessage → CanonicalMessage
  | .user content _ => .user content 0
  | .assistant content api provider model usage stopReason errorMessage _ =>
    .assistant content api provider model usage stopReason errorMessage 0
  | .toolResult toolCallId toolName content isError cacheControl _ =>
    .toolResult toolCallId toolName content isError cacheControl 0

/-- The same messages in the same order, whatever their times. -/
def SameConversation (messages messages' : List CanonicalMessage) : Prop :=
  messages.map (·.untimed) = messages'.map (·.untimed)

instance (messages messages' : List CanonicalMessage) :
    Decidable (SameConversation messages messages') :=
  inferInstanceAs (Decidable (_ = _))

/-- The entry puts a summary in the place of everything before it. -/
def SessionEntry.isCompaction (entry : SessionEntry) : Bool :=
  match entry.kind with
  | .compaction _ => true
  | .message _ | .modelChange _ _ _ | .branchSummary _ | .runtime _ _ | .customContextMessage _ => false

def visibleStep (messages : List CanonicalMessage) (entry : SessionEntry) : List CanonicalMessage :=
  appendModelVisibleMessages [entry] messages

theorem visible_cons (entry : SessionEntry) (entries : List SessionEntry)
    (messages : List CanonicalMessage) :
    appendModelVisibleMessages (entry :: entries) messages =
      appendModelVisibleMessages entries (visibleStep messages entry) := rfl

theorem visible_append (entries entries' : List SessionEntry) (messages : List CanonicalMessage) :
    appendModelVisibleMessages (entries ++ entries') messages =
      appendModelVisibleMessages entries' (appendModelVisibleMessages entries messages) :=
  List.foldl_append

variable {entry : SessionEntry}

theorem visibleStep_identity (h : sessionEntryIsThreadStartIdentity entry = true)
    (messages : List CanonicalMessage) : visibleStep messages entry = messages := by
  obtain ⟨id, parent, turnId, coordinates, createdAt, kind⟩ := entry
  cases kind with
  | runtime kind payload => rfl
  | message | modelChange | compaction | branchSummary | customContextMessage => cases h

theorem visibleStep_same {entry' : SessionEntry} {messages messages' : List CanonicalMessage}
    (hkind : entry.kind = entry'.kind) (h : SameConversation messages messages') :
    SameConversation (visibleStep messages entry) (visibleStep messages' entry') := by
  obtain ⟨id, parent, turnId, coordinates, createdAt, kind⟩ := entry
  obtain ⟨id', parent', turnId', coordinates', createdAt', kind'⟩ := entry'
  obtain rfl : kind = kind' := hkind
  cases kind with
  | message message | customContextMessage message =>
    change (messages ++ [message]).map _ = (messages' ++ [message]).map _
    rw [List.map_append, List.map_append, h]
  | compaction summary => rfl
  | modelChange | branchSummary | runtime => exact h

theorem visibleStep_append (h : entry.isCompaction = false)
    (messages messages' : List CanonicalMessage) :
    visibleStep (messages ++ messages') entry = messages ++ visibleStep messages' entry := by
  obtain ⟨id, parent, turnId, coordinates, createdAt, kind⟩ := entry
  cases kind with
  | message message | customContextMessage message =>
    exact List.append_assoc messages messages' [message]
  | compaction summary => cases h
  | modelChange | branchSummary | runtime => rfl

theorem visibleStep_compaction (h : entry.isCompaction = true)
    (messages messages' : List CanonicalMessage) :
    visibleStep messages entry = visibleStep messages' entry := by
  obtain ⟨id, parent, turnId, coordinates, createdAt, kind⟩ := entry
  cases kind with
  | compaction summary => rfl
  | message | modelChange | branchSummary | runtime | customContextMessage => cases h

variable {entries : List SessionEntry}

theorem visible_of_no_compaction (h : ∀ entry ∈ entries, entry.isCompaction = false)
    (messages messages' : List CanonicalMessage) :
    appendModelVisibleMessages entries (messages ++ messages') =
      messages ++ appendModelVisibleMessages entries messages' := by
  induction entries generalizing messages' with
  | nil => rfl
  | cons entry entries ih =>
    obtain ⟨hentry, hentries⟩ := List.forall_mem_cons.mp h
    rw [visible_cons, visible_cons, visibleStep_append hentry]
    exact ih hentries _

theorem visible_of_compaction (h : ∃ entry ∈ entries, entry.isCompaction = true)
    (messages messages' : List CanonicalMessage) :
    appendModelVisibleMessages entries messages = appendModelVisibleMessages entries messages' := by
  induction entries generalizing messages messages' with
  | nil => simp at h
  | cons entry entries ih =>
    rw [visible_cons, visible_cons]
    by_cases hentry : entry.isCompaction = true
    · rw [visibleStep_compaction hentry messages messages']
    · refine ih ?_ _ _
      obtain ⟨found, hfound, hcompaction⟩ := h
      rcases List.mem_cons.mp hfound with rfl | hfound
      · exact absurd hcompaction hentry
      · exact ⟨found, hfound, hcompaction⟩

/-- What was there before makes no difference to a conversation exactly when a compaction follows or
there was nothing. -/
theorem sameConversation_visible_iff (entries : List SessionEntry) (before : List CanonicalMessage) :
    SameConversation (appendModelVisibleMessages entries [])
        (appendModelVisibleMessages entries before) ↔
      (∃ entry ∈ entries, entry.isCompaction = true) ∨ before = [] := by
  by_cases h : ∃ entry ∈ entries, entry.isCompaction = true
  · simp only [h, true_or, iff_true]
    rw [visible_of_compaction h [] before]
    exact rfl
  · have hnone : ∀ entry ∈ entries, entry.isCompaction = false := by
      intro entry hentry
      by_contra hcompaction
      exact h ⟨entry, hentry, Bool.not_eq_false _ ▸ hcompaction⟩
    have hsplit := visible_of_no_compaction hnone before []
    rw [List.append_nil] at hsplit
    rw [hsplit, or_iff_right h]
    constructor
    · intro hsame
      have hlength := congrArg List.length hsame
      simp only [List.length_map, List.length_append] at hlength
      exact List.length_eq_zero_iff.mp (by omega)
    · rintro rfl
      rfl

theorem visible_stripEntries
    (h : ∀ entry ∈ entries, ∀ identity ∈ entries, sessionEntryIsThreadStartIdentity identity = true →
      entry.entryId = identity.entryId → entry = identity) (messages : List CanonicalMessage) :
    appendModelVisibleMessages (stripEntries entries) messages =
      appendModelVisibleMessages entries messages := by
  have hdropped : ∀ entry ∈ entries,
      entry.entryId ∈ (entries.filter sessionEntryIsThreadStartIdentity).map (·.entryId) →
        sessionEntryIsThreadStartIdentity entry = true := by
    intro entry hentry hid
    obtain ⟨identity, hidentity, hsame⟩ := List.mem_map.mp hid
    obtain ⟨hmem, hstart⟩ := List.mem_filter.mp hidentity
    rwa [h entry hentry identity hmem hstart hsame.symm]
  rw [stripEntries]
  -- the ids stay fixed while the induction walks the entries
  generalize (entries.filter sessionEntryIsThreadStartIdentity).map (·.entryId) = ids at hdropped
  clear h
  induction entries generalizing messages with
  | nil => rfl
  | cons entry entries ih =>
    obtain ⟨hentry, hentries⟩ := List.forall_mem_cons.mp hdropped
    by_cases hid : entry.entryId ∈ ids
    · rw [List.filter_cons_of_neg (by simpa using hid), visible_cons,
        visibleStep_identity (hentry hid)]
      exact ih messages hentries
    · rw [List.filter_cons_of_pos (by simpa using hid), visible_cons, visible_cons]
      exact ih _ hentries

variable {thread : ThreadId} {context : SessionContext}

namespace InMemory

/-! ### Ids -/

/-- No two threads hold an entry of one id. -/
def Filed (s : Inner) : Prop :=
  ∀ thread thread' id entry entry', s.entryAt thread id = some entry →
    s.entryAt thread' id = some entry' → thread = thread'

theorem filed_empty : Filed .empty := by
  intro thread thread' id entry entry' h
  cases h

theorem entryAt_insertEntries_new {s : Inner} {thread' : ThreadId} {id : SessionEntryId}
    (h : (s.insertEntries thread entries).entryAt thread' id = some entry) :
    s.entryAt thread' id = some entry ∨
      (thread' = thread ∧ entry ∈ entries ∧ entry.entryId = id) := by
  induction entries generalizing s with
  | nil => exact .inl h
  | cons first entries ih =>
    rcases ih (s := s.insertEntry thread first) h with hthere | ⟨hthread, hentry, hid⟩
    · rw [entryAt_insertEntry] at hthere
      by_cases hfirst : thread' = thread ∧ id = first.entryId
      · rw [if_pos hfirst] at hthere
        obtain rfl := Option.some.inj hthere
        exact .inr ⟨hfirst.1, List.mem_cons_self, hfirst.2.symm⟩
      · rw [if_neg hfirst] at hthere
        exact .inl hthere
    · exact .inr ⟨hthread, List.mem_cons_of_mem _ hentry, hid⟩

theorem entryIds_cloneEntries (draws : Nat → Draw) (target : ThreadCoordinates)
    (path : List SessionEntry) (index : Nat) (parent : Option SessionEntryId) :
    (cloneEntries draws target path index parent).map (·.entryId) =
      (List.range' index path.length).map fun i => (draws i).entryId := by
  induction path generalizing index parent with
  | nil => rfl
  | cons source path ih =>
    rw [cloneEntries, List.map_cons, ih, List.length_cons, List.range'_succ, List.map_cons]
    rfl

section Clone

variable {s : Inner} {epoch : Nat} {draws : Nat → Draw} {source target : ThreadCoordinates}
  {sourceLeaf : SessionEntryId} {path : List SessionEntry}

theorem created_clone (hpath : s.branchPath source sourceLeaf = .ok path) :
    s.created (.cloneBranch source (some sourceLeaf) target) = path.length := by
  simp only [Inner.created, hpath]

variable (hfresh : Fresh s ⟨epoch, draws, .cloneBranch source (some sourceLeaf) target⟩)

include hfresh

theorem not_holds_of_clone (hpath : s.branchPath source sourceLeaf = .ok path)
    (hentry : entry ∈ cloneEntries draws target path 0 none) : ¬ s.holds entry.entryId := by
  have hid := List.mem_map_of_mem (f := (·.entryId)) hentry
  rw [entryIds_cloneEntries] at hid
  obtain ⟨i, hi, hdrawn⟩ := List.mem_map.mp hid
  rw [← hdrawn]
  refine (hfresh i ?_).1
  rw [created_clone hpath]
  simpa using hi

theorem nodup_clone (hpath : s.branchPath source sourceLeaf = .ok path) :
    ((cloneEntries draws target path 0 none).map (·.entryId)).Nodup := by
  rw [entryIds_cloneEntries]
  refine List.Nodup.map_on (fun i hi j hj hsame => ?_) List.nodup_range'
  have hlt : ∀ k ∈ List.range' 0 path.length,
      k < s.created (.cloneBranch source (some sourceLeaf) target) := by
    intro k hk
    rw [created_clone hpath]
    simpa using hk
  rcases Nat.lt_trichotomy i j with hij | hij | hij
  · exact absurd hsame.symm ((hfresh j (hlt j hj)).2 i hij)
  · exact hij
  · exact absurd hsame ((hfresh i (hlt i hi)).2 j hij)

theorem entryAt_clone (hpath : s.branchPath source sourceLeaf = .ok path)
    (hentry : entry ∈ cloneEntries draws target path 0 none) {s₁ : Inner}
    (hs₁ : s₁.entries = s.entries) :
    (s₁.insertEntries target.threadId (cloneEntries draws target path 0 none)).entryAt
      target.threadId entry.entryId = some entry := by
  have hstored : ∃ found, (s₁.insertEntries target.threadId (cloneEntries draws target path 0
      none)).entryAt target.threadId entry.entryId = some found :=
    entryAt_insertEntries_of_mem (.inl hentry)
  obtain ⟨found, hfound⟩ := hstored
  rcases entryAt_insertEntries_new hfound with hold | ⟨-, hmem, hid⟩
  · rw [Inner.entryAt, hs₁] at hold
    exact absurd (holds_of_entryAt hold) (not_holds_of_clone hfresh hpath hentry)
  · rwa [List.inj_on_of_nodup_map (nodup_clone hfresh hpath) hmem hentry hid] at hfound

omit hfresh

theorem links_cloneEntries {load : SessionEntryId → HistoryResult SessionEntry} {index : Nat}
    {parent : Option SessionEntryId} {above : List SessionEntry}
    (hload : ∀ entry ∈ cloneEntries draws target path index parent, load entry.entryId = .ok entry)
    (habove : Links load (·.parentEntryId) parent above) :
    Links load (·.parentEntryId)
      (((cloneEntries draws target path index parent).getLast?.map (·.entryId)).or parent)
      ((cloneEntries draws target path index parent).reverse ++ above) := by
  induction path generalizing index parent above with
  | nil => exact habove
  | cons first path ih =>
    let entry := SessionEntry.new (draws index) target parent first.kind
    obtain ⟨hentry, hrest⟩ := List.forall_mem_cons.mp hload
    have hbelow : Links load (·.parentEntryId) (some entry.entryId) (entry :: above) :=
      ⟨entry.entryId, rfl, hentry, habove⟩
    have hlinked := ih hrest hbelow
    rw [cloneEntries, List.getLast?_cons, List.reverse_cons, List.append_assoc]
    convert hlinked using 1
    · cases (cloneEntries draws target path (index + 1) (some entry.entryId)).getLast? <;> rfl
    · rfl

end Clone

theorem entryAt_step_new {s : Inner} {call : Call} (hfresh : Fresh s call) {id : SessionEntryId}
    (h : (step call s).2.entryAt thread id = some entry) :
    s.entryAt thread id = some entry ∨ (¬ s.holds id ∧ targets thread call.op) := by
  by_cases htargets : targets thread call.op
  · rcases step_cases s call with heq | ⟨reply, hok⟩
    · rw [heq] at h
      exact .inl h
    · generalize (InMemory.step call s).2 = s' at hok h
      have htaken : ∀ {leaseEpoch event created}, ¬ s.holds created.entryId →
          (s.takeEntry leaseEpoch event created).entryAt thread id = some entry →
            s.entryAt thread id = some entry ∨ (¬ s.holds id ∧ targets thread call.op) := by
        intro leaseEpoch event created hnew hfound
        have hinserted : ((s.journal leaseEpoch (.forThread created.coordinates)
            [event]).insertEntries created.coordinates.threadId [created]).entryAt thread id =
              some entry := hfound
        rcases entryAt_insertEntries_new hinserted with hold | ⟨-, hmem, hid⟩
        · exact .inl hold
        · obtain rfl := List.mem_singleton.mp hmem
          exact .inr ⟨hid ▸ hnew, htargets⟩
      cases hok with
      | append hparent hentry hj =>
        subst hentry
        exact htaken (hfresh 0 Nat.zero_lt_one).1 h
      | turnAgain => exact .inl h
      | turnInput hturn hentry hj =>
        subst hentry
        exact htaken (hfresh 0 Nat.zero_lt_one).1 h
      | @selectBranch _ _ _ leaf => cases leaf <;> exact .inl h
      | cloneNone => exact .inl h
      | @cloneSome epoch draws _ _ target _ _ _ hpath hcloned hlast hj =>
        subst hcloned
        rcases entryAt_insertEntries_new (s := (s.journal epoch (.forThread target)
          (cloneEvents draws _)).clearBase target.threadId) h with hold | ⟨-, hmem, hid⟩
        · exact .inl hold
        · exact .inr ⟨hid ▸ not_holds_of_clone hfresh hpath hmem, htargets⟩
      | fork => exact .inl h
      | events => exact .inl h
      | fenced => exact .inl h
  · rw [(untouched_step htargets).entries] at h
    exact .inl h

theorem targets_unique {op : Op} {thread' : ThreadId} (h : targets thread op)
    (h' : targets thread' op) : thread = thread' := by
  cases op with
  | append | appendTurnInput | selectBranch | cloneBranch | forkByReference => exact h.symm.trans h'
  | appendEvents streamId records | appendEventsFenced streamId expected records =>
    have hstream : EventStreamId.forThread ⟨"", "", "", thread⟩ =
        .forThread ⟨"", "", "", thread'⟩ := h.symm.trans h'
    exact EventStreamId.forThread_inj.mp hstream

theorem Filed.step {s : Inner} (h : Filed s) {call : Call} (hfresh : Fresh s call) :
    Filed (step call s).2 := by
  intro thread thread' id entry entry' hentry hentry'
  rcases entryAt_step_new hfresh hentry with hold | ⟨hnew, hin⟩
  · rcases entryAt_step_new hfresh hentry' with hold' | ⟨hnew', -⟩
    · exact h thread thread' id entry entry' hold hold'
    · exact absurd (holds_of_entryAt hold) hnew'
  · rcases entryAt_step_new hfresh hentry' with hold' | ⟨-, hin'⟩
    · exact absurd (holds_of_entryAt hold') hnew
    · exact targets_unique hin hin'

/-! ### Contexts -/

theorem stored_of_context {s : Inner} (hs : Sound s) {fuel : Nat} {c : ThreadCoordinates}
    {leafOverride : Option SessionEntryId} {inherited : Bool} {visiting : List ThreadId}
    (h : buildContextFrom s.source fuel c leafOverride inherited visiting = .ok context)
    (hentry : entry ∈ context.entries) : ∃ thread, s.entryAt thread entry.entryId = some entry := by
  induction fuel generalizing c leafOverride inherited visiting context with
  | zero => cases h
  | succ fuel ih =>
    obtain ⟨-, fromParent, localPath, hp, hl, rfl⟩ := buildContextFrom_ok.mp h
    rcases List.mem_append.mp (List.mem_of_mem_filter hentry) with hparent | hlocal
    · rcases inheritedWith_ok.mp hp with ⟨-, rfl⟩ | ⟨base, parent, -, -, hx, rfl⟩
      · cases hparent
      · exact ih hx hparent
    · have hpath : ∃ leaf, s.branchPath c leaf = .ok localPath := by
        cases leafOverride with
        | some leaf => exact ⟨leaf, hl⟩
        | none =>
          rcases localPathFrom_none_ok.mp hl with ⟨-, rfl⟩ | ⟨leaf, -, hleaf⟩
          · cases hlocal
          · exact ⟨leaf, hleaf⟩
      obtain ⟨leaf, hpath⟩ := hpath
      obtain ⟨id, hid⟩ := Inner.branchPath_mem hpath hlocal
      refine ⟨c.threadId, ?_⟩
      rw [(hs.forest.keyed _ _ _ hid).1]
      exact hid

theorem Filed.unique {s : Inner} (h : Filed s) {entry' : SessionEntry}
    (hentry : ∃ thread, s.entryAt thread entry.entryId = some entry)
    (hentry' : ∃ thread, s.entryAt thread entry'.entryId = some entry')
    (hid : entry.entryId = entry'.entryId) : entry = entry' := by
  obtain ⟨thread, hfound⟩ := hentry
  obtain ⟨thread', hfound'⟩ := hentry'
  rw [← hid] at hfound'
  obtain rfl := h thread thread' _ _ _ hfound hfound'
  exact Option.some.inj (hfound.symm.trans hfound')

theorem messages_of_context {s : Inner} (hs : Sound s) (hfiled : Filed s) {c : ThreadCoordinates}
    {leaf : SessionEntryId} (hx : buildContext s c = .ok context)
    (hleaf : s.activeLeaf.lookup c.threadId = some leaf) :
    ∃ part path, inheritedPart s.source (Map.size s.bases) c = .ok part ∧
      s.branchPath c leaf = .ok path ∧
      context.messages = appendModelVisibleMessages path part.2 := by
  rw [buildContext, buildInMemoryContext, buildContextFrom_ok] at hx
  obtain ⟨-, fromParent, path, hp, hl, rfl⟩ := hx
  have hpath : s.branchPath c leaf = .ok path := by
    rcases localPathFrom_none_ok.mp hl with ⟨hnone, -⟩ | ⟨leaf', hsome, hpath⟩
    · exact absurd (hleaf.symm.trans (Except.ok.inj hnone)) (by simp)
    · rwa [Option.some.inj (hleaf.symm.trans (Except.ok.inj hsome))]
  have hstored : ∀ entry ∈ fromParent.1 ++ path,
      ∃ thread, s.entryAt thread entry.entryId = some entry := by
    intro entry hentry
    rcases List.mem_append.mp hentry with hparent | hlocal
    · rcases inheritedWith_ok.mp hp with ⟨-, rfl⟩ | ⟨base, parent, -, -, hparentContext, rfl⟩
      · cases hparent
      · exact stored_of_context hs hparentContext hparent
    · obtain ⟨id, hid⟩ := Inner.branchPath_mem hpath hlocal
      exact ⟨c.threadId, (hs.forest.keyed _ _ _ hid).1 ▸ hid⟩
  refine ⟨_, path, inheritedPart_ok.mpr ⟨fromParent, hp, rfl⟩, hpath, ?_⟩
  change appendModelVisibleMessages (stripEntries (fromParent.1 ++ path)) [] = _
  rw [visible_stripEntries (fun entry hentry identity hidentity _ hid =>
    hfiled.unique (hstored entry hentry) (hstored identity hidentity) hid), visible_append]

theorem sameConversation_cloneEntries {draws : Nat → Draw} {target : ThreadCoordinates}
    {path : List SessionEntry} {index : Nat} {parent : Option SessionEntryId}
    {messages messages' : List CanonicalMessage} (h : SameConversation messages messages') :
    SameConversation
      (appendModelVisibleMessages (cloneEntries draws target path index parent) messages)
      (appendModelVisibleMessages path messages') := by
  induction path generalizing index parent messages messages' with
  | nil => exact h
  | cons source path ih => exact ih (visibleStep_same rfl h)

section Cloned

variable {s s' : Inner} {epoch : Nat} {draws : Nat → Draw} {source target : ThreadCoordinates}
  {sourceLeaf : SessionEntryId} {reply : Reply}

theorem branchPath_clone (hs : Sound s) {path : List SessionEntry} {last : SessionEntry}
    (hlast : (cloneEntries draws target path 0 none).getLast? = some last)
    (hfound : ∀ entry ∈ cloneEntries draws target path 0 none,
      s.entryAt target.threadId entry.entryId = some entry) :
    s.branchPath target last.entryId = .ok (cloneEntries draws target path 0 none) := by
  cases hentries : s.entries.lookup target.threadId with
  | none =>
    have := hfound last (List.mem_of_getLast? hlast)
    simp [Inner.entryAt, hentries] at this
  | some entriesById =>
    have hload : ∀ entry ∈ cloneEntries draws target path 0 none,
        loadEntry entriesById target entry.entryId = .ok entry := by
      intro entry hentry
      have hlookup := hfound entry hentry
      simp only [Inner.entryAt, hentries, Option.bind_some] at hlookup
      exact loadEntry_ok.mpr ⟨hlookup, Sqlite.coordinates_cloneEntries hentry⟩
    have hroot : Links (loadEntry entriesById target) (·.parentEntryId) none [] := rfl
    have hlinks := links_cloneEntries hload hroot
    simp only [hlast, Option.map_some, Option.some_or, List.append_nil] at hlinks
    have hgathered := hlinks.follow (n := Map.size entriesById + 1 +
      (cloneEntries draws target path 0 none).length) (by simp) []
    rw [List.reverse_reverse, List.append_nil] at hgathered
    refine Inner.branchPath_ok.mpr ⟨entriesById, hentries, ?_⟩
    -- the loop has fuel enough of its own, since it ends in a sound store
    cases hfollow : follow (loadEntry entriesById target) (·.parentEntryId)
        (Map.size entriesById + 1) (some last.entryId) [] with
    | none =>
      have hdiverged : s.branchPath target last.entryId = .error .diverged := by
        simp only [Inner.branchPath, hentries, okOr_some]
        exact congrArg (Option.getD · _) hfollow
      exact absurd hdiverged (hs.branchPath_ne_diverged _ _)
    | some found => rw [← hgathered, follow_mono (Nat.le_add_right _ _) hfollow]

theorem buildContext_clone (hs : Sound s)
    (hfresh : Fresh s ⟨epoch, draws, .cloneBranch source (some sourceLeaf) target⟩)
    (hstep : step ⟨epoch, draws, .cloneBranch source (some sourceLeaf) target⟩ s = (.ok reply, s')) :
    ∃ path context, s.branchPath source sourceLeaf = .ok path ∧
      buildContext s' target = .ok context ∧
      context.messages = appendModelVisibleMessages
        (stripEntries (cloneEntries draws target path 0 none)) [] := by
  have hs' : Sound s' := by
    have := hs.step hfresh
    rwa [hstep] at this
  cases step_ok_iff.mp hstep with
  | @cloneSome _ _ _ _ _ path cloned last hpath hcloned hlast hj =>
    subst hcloned
    have hfound : ∀ entry ∈ cloneEntries draws target path 0 none,
        (s.takeClone epoch draws target (cloneEntries draws target path 0 none) last).entryAt
          target.threadId entry.entryId = some entry :=
      fun entry hentry => entryAt_clone hfresh hpath hentry (by rfl)
    have hbranch : (s.takeClone epoch draws target (cloneEntries draws target path 0 none)
        last).branchPath target last.entryId = .ok (cloneEntries draws target path 0 none) :=
      branchPath_clone hs' hlast hfound
    refine ⟨path, _, hpath, buildContextFrom_ok.mpr ⟨List.not_mem_nil, ([], []), _, ?_, ?_, rfl⟩,
      rfl⟩
    · exact inheritedWith_ok.mpr (.inl ⟨congrArg Except.ok bases_takeClone, rfl⟩)
    · exact localPathFrom_none_ok.mpr (.inr ⟨_, congrArg Except.ok activeLeaf_takeClone, hbranch⟩)

/-! ### What a clone says -/

/-- The branch starts over in a compaction, or the thread inherits no messages. -/
def StandsAlone (s : Inner) (c : ThreadCoordinates) (leaf : SessionEntryId) : Prop :=
  (∃ path, s.branchPath c leaf = .ok path ∧ ∃ entry ∈ path, entry.isCompaction = true) ∨
  ∃ part, inheritedPart s.source (Map.size s.bases) c = .ok part ∧ part.2 = []

/-- The target's context is built, and says what the source's said. -/
def SaysTheSame (s' : Inner) (target : ThreadCoordinates) (context : SessionContext) : Prop :=
  ∃ context', buildContext s' target = .ok context' ∧
    SameConversation context'.messages context.messages

theorem saysTheSame_clone_iff (hs : Sound s) (hfiled : Filed s)
    (hx : buildContext s source = .ok context)
    (hleaf : s.activeLeaf.lookup source.threadId = some sourceLeaf)
    (hfresh : Fresh s ⟨epoch, draws, .cloneBranch source (some sourceLeaf) target⟩)
    (hstep : step ⟨epoch, draws, .cloneBranch source (some sourceLeaf) target⟩ s = (.ok reply, s')) :
    SaysTheSame s' target context ↔ StandsAlone s source sourceLeaf := by
  obtain ⟨part, path, hpart, hpath, hmessages⟩ := messages_of_context hs hfiled hx hleaf
  obtain ⟨path', cloned, hpath', hcontext, hcloned⟩ := buildContext_clone hs hfresh hstep
  obtain rfl : path = path' := Except.ok.inj (hpath.symm.trans hpath')
  have hdistinct := nodup_clone hfresh hpath
  rw [visible_stripEntries fun entry hentry identity hidentity _ hid =>
    List.inj_on_of_nodup_map hdistinct hentry hidentity hid] at hcloned
  have hsame : SameConversation cloned.messages (appendModelVisibleMessages path []) := by
    rw [hcloned]
    exact sameConversation_cloneEntries rfl
  calc SaysTheSame s' target context
      ↔ SameConversation cloned.messages context.messages := by
        constructor
        · rintro ⟨context', hcontext', h⟩
          rwa [Except.ok.inj (hcontext.symm.trans hcontext')]
        · exact fun h => ⟨cloned, hcontext, h⟩
    _ ↔ SameConversation (appendModelVisibleMessages path [])
          (appendModelVisibleMessages path part.2) := by
        rw [hmessages]
        exact ⟨fun h => hsame.symm.trans h, fun h => hsame.trans h⟩
    _ ↔ (∃ entry ∈ path, entry.isCompaction = true) ∨ part.2 = [] :=
        sameConversation_visible_iff path part.2
    _ ↔ StandsAlone s source sourceLeaf := by
        unfold StandsAlone
        rw [hpath, hpart]
        simp only [Except.ok.injEq, exists_eq_left']

end Cloned

/-- **What a clone keeps.**  In every state that calls lead to, with whatever forks and clones before,
a clone of the whole live branch of a thread says what the thread says exactly when the branch starts
over in a compaction or the thread inherits no messages. -/
theorem clone_preserves_iff (calls : List Call) (hcalls : Along step Fresh calls .empty) (epoch : Nat)
    (draws : Nat → Draw) (source target : ThreadCoordinates) (leaf : SessionEntryId)
    (context : SessionContext) (reply : Reply) (s' : Inner)
    (hx : buildContext (run step calls .empty) source = .ok context)
    (hleaf : (run step calls .empty).activeLeaf.lookup source.threadId = some leaf)
    (hfresh : Fresh (run step calls .empty) ⟨epoch, draws, .cloneBranch source (some leaf) target⟩)
    (hstep : step ⟨epoch, draws, .cloneBranch source (some leaf) target⟩ (run step calls .empty) =
      (.ok reply, s')) :
    SaysTheSame s' target context ↔ StandsAlone (run step calls .empty) source leaf := by
  have hkept : Sound (run step calls .empty) ∧ Filed (run step calls .empty) :=
    hcalls.invariant (P := fun s => Sound s ∧ Filed s)
      (fun s call h hfresh => ⟨h.1.step hfresh, h.2.step hfresh⟩) ⟨sound_empty, filed_empty⟩
  exact saysTheSame_clone_iff hkept.1 hkept.2 hx hleaf hfresh hstep

/-! ### Samples -/

/-- A fork of the sample thread, with an entry of its own. -/
def sampleForked : List Call :=
  sampleEarlier ++ [sampleFork (some (.counted 1)),
    .counted 0 4 (.append (.counted "user" 2) none (.said "second") none)]

/-- Clone the fork into thread 3. -/
def sampleClone : Call :=
  .counted 0 5 (.cloneBranch (.counted "user" 2) (some (.counted 4)) (.counted "user" 3))

/-- Clone thread 1 into thread 3. -/
def sampleCloneFirst : Call :=
  .counted 0 5 (.cloneBranch (.counted "user" 1) (some (.counted 1)) (.counted "user" 3))

def sampleContext : SessionContext where
  entries := samplePart.1
  messages := samplePart.2
  sourceCuts := [⟨.counted "user" 1, .forThread (.counted "user" 1), false, [.counted 1]⟩]

def messagesOf (context : HistoryResult SessionContext) : HistoryResult (List CanonicalMessage) :=
  context.map (·.messages)

set_option maxRecDepth 100000 in
theorem clone_preserves_first :
    SaysTheSame (step sampleCloneFirst (run step sampleEarlier .empty)).2 (.counted "user" 3)
        sampleContext ↔
      StandsAlone (run step sampleEarlier .empty) (.counted "user" 1) (.counted 1) :=
  clone_preserves_iff sampleEarlier (by decide) 0 (fun i => .counted (5 + i))
    (.counted "user" 1) (.counted "user" 3) (.counted 1) sampleContext (.leaf (some (.counted 5))) _
    (by decide) (by decide) (by decide) (Prod.ext (by decide) rfl)

set_option maxRecDepth 100000 in
/-- **A clone of a fork forgets what the fork inherits.** -/
theorem clone_forgets_inherited :
    Along step Fresh sampleForked .empty ∧ Fresh (run step sampleForked .empty) sampleClone ∧
    (run step sampleForked .empty).activeLeaf.lookup (ThreadCoordinates.counted "user" 2).threadId =
      some (.counted 4) ∧
    messagesOf (buildContext (run step sampleForked .empty) (.counted "user" 2)) =
      .ok [.userTextAt "first" 0, .userTextAt "second" 0] ∧
    (step sampleClone (run step sampleForked .empty)).1 = .ok (.leaf (some (.counted 5))) ∧
    messagesOf (buildContext (step sampleClone (run step sampleForked .empty)).2
      (.counted "user" 3)) = .ok [.userTextAt "second" 0] ∧
    ¬ SameConversation [.userTextAt "second" 0] [.userTextAt "first" 0, .userTextAt "second" 0] := by
  decide

end InMemory

end Verlet.History
