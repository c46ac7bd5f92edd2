import Verlet.Provider.Transform.FixedPoint

/-!
# Provider — What normalizing counts

A run of `normalize_history_for_target` as a list of edits, each with the counter that is for it.  There
is no counter for one thing that a run deletes: a user's message before the last message that is left
with no block is dropped.
-/

namespace Verlet.Provider
open History

/-! ### Counts -/

def ReplayTransformCounts.messages (counts : ReplayTransformCounts) : Nat :=
  counts.unpairedToolResultsDropped + counts.duplicateToolResultsDropped +
    counts.erroredAssistantsDropped + counts.emptyAssistantsDropped

variable {counts : ReplayTransformCounts}

theorem messages_add (counts later : ReplayTransformCounts) :
    (counts + later).messages = counts.messages + later.messages := by
  show (counts.add later).messages = _
  simp only [ReplayTransformCounts.messages, ReplayTransformCounts.add]
  omega

theorem add_eq_empty {later : ReplayTransformCounts} (h : counts + later = {}) :
    counts = {} ∧ later = {} := by
  change counts.add later = {} at h
  cases counts
  cases later
  simp only [ReplayTransformCounts.add, ReplayTransformCounts.mk.injEq] at h ⊢
  omega

/-! ### Edits -/

/-- A list gone through in its order: each edit keeps an element, changes it or deletes it, and counts
what it did. -/
inductive Edits {α : Type} (edit : α → Option α → ReplayTransformCounts → Prop) :
    List α → List α → ReplayTransformCounts → Prop
  | nil : Edits edit [] [] {}
  | cons {first : α} {kept : Option α} {rest rest' : List α} {counts later : ReplayTransformCounts}
      (h : edit first kept counts) (hrest : Edits edit rest rest' later) :
      Edits edit (first :: rest) (kept.toList ++ rest') (counts + later)

section Edits

variable {α : Type} {edit : α → Option α → ReplayTransformCounts → Prop} {list list' : List α}

theorem Edits.unchanged (hone : ∀ {first kept}, edit first kept {} → kept = some first)
    (h : Edits edit list list' counts) (hcounts : counts = {}) : list' = list := by
  induction h with
  | nil => rfl
  | cons h hrest ih =>
    obtain ⟨rfl, rfl⟩ := add_eq_empty hcounts
    rw [hone h, ih rfl]
    rfl

theorem Edits.length_le (h : Edits edit list list' counts) : list'.length ≤ list.length := by
  induction h with
  | nil => exact Nat.le_refl 0
  | @cons first kept rest rest' counts later h hrest ih => cases kept <;> simp <;> omega

theorem Edits.uncounted (hone : ∀ {first counts}, edit first (some first) counts → counts = {})
    (h : Edits edit list list' counts) (hsame : list' = list) : counts = {} := by
  induction h with
  | nil => rfl
  | @cons first kept rest rest' counts later h hrest ih =>
    cases kept with
    | none =>
      -- what comes later would be longer than it was
      have hlength := hrest.length_le
      rw [show rest' = first :: rest from hsame, List.length_cons] at hlength
      omega
    | some kept =>
      obtain ⟨rfl, hrest'⟩ := List.cons.inj hsame
      rw [hone h, ih hrest']
      rfl

theorem Edits.counted {each : Nat} (hone : ∀ {first kept counts}, edit first kept counts →
      each * kept.toList.length + counts.messages = each)
    (h : Edits edit list list' counts) :
    each * list'.length + counts.messages = each * list.length := by
  induction h with
  | nil => rfl
  | cons h hrest ih =>
    have hfirst := hone h
    rw [messages_add, List.length_append, List.length_cons, Nat.mul_add, Nat.mul_add]
    omega

end Edits

/-- An edit of a block: a cache control is taken from a text, the thinking of a foreign model is put in
tags or deleted, an image or a call is deleted. -/
inductive BlockEdit (foreign : Prop) :
    CanonicalContent → Option CanonicalContent → ReplayTransformCounts → Prop
  | kept (block) : BlockEdit foreign block (some block) {}
  | stripped (text cacheControl) :
      BlockEdit foreign (.text text (some cacheControl)) (some (.text text none))
        { cacheControlsStripped := 1 }
  | quoted (h : foreign) (text provider metadata) :
      BlockEdit foreign (.thinking text provider metadata)
        (some (.text ("<thinking>\n" ++ text ++ "\n</thinking>") none)) { thinkingConverted := 1 }
  | silent (h : foreign) (text provider metadata) :
      BlockEdit foreign (.thinking text provider metadata) none { thinkingDropped := 1 }
  | image (data mimeType) : BlockEdit foreign (.image data mimeType) none { imagesDropped := 1 }
  | call (id name arguments) :
      BlockEdit foreign (.toolCall id name arguments) none { danglingToolCallsDropped := 1 }

/-- An assistant's message of another model than the target. -/
def Foreign (targetApi : ProviderApi) (targetProvider : String) : CanonicalMessage → Prop
  | .assistant _ api provider _ _ _ _ _ => ¬(api = targetApi ∧ provider = targetProvider)
  | .user _ _ | .toolResult _ _ _ _ _ _ => False

def deletions : CanonicalMessage → List ReplayTransformCounts
  | .user _ _ => []
  | .assistant _ _ _ _ _ _ _ _ => [{ erroredAssistantsDropped := 1 }]
  | .toolResult _ _ _ _ _ _ =>
    [{ unpairedToolResultsDropped := 1 }, { duplicateToolResultsDropped := 1 }]

/-- An edit of a message: its blocks are edited, and the cache control of a result is taken; or it is
deleted, as it is or when no block is left. -/
inductive MessageEdit (targetApi : ProviderApi) (targetProvider : String) :
    CanonicalMessage → Option CanonicalMessage → ReplayTransformCounts → Prop
  | edited {message content counts}
      (h : Edits (BlockEdit (Foreign targetApi targetProvider message)) (contentOf message) content counts) :
      MessageEdit targetApi targetProvider message (some (withContent content message)) counts
  | stripped {toolCallId toolName content content' isError cacheControl timestampMs counts}
      (h : Edits (BlockEdit False) content content' counts) :
      MessageEdit targetApi targetProvider
        (.toolResult toolCallId toolName content isError (some cacheControl) timestampMs)
        (some (.toolResult toolCallId toolName content' isError none timestampMs))
        ({ cacheControlsStripped := 1 } + counts)
  | emptied {message counts}
      (h : Edits (BlockEdit (Foreign targetApi targetProvider message)) (contentOf message) [] counts) :
      MessageEdit targetApi targetProvider message none (counts + { emptyAssistantsDropped := 1 })
  | deleted {message counts} (h : counts ∈ deletions message) :
      MessageEdit targetApi targetProvider message none counts

variable {foreign : Prop} {block : CanonicalContent} {kept : Option CanonicalContent}
  {content content' : List CanonicalContent} {targetApi : ProviderApi} {targetProvider : String}
  {message : CanonicalMessage} {keptMessage : Option CanonicalMessage}

theorem BlockEdit.unchanged (h : BlockEdit foreign block kept {}) : kept = some block := by
  cases h
  rfl

theorem BlockEdit.uncounted (h : BlockEdit foreign block (some block) counts) : counts = {} := by
  cases h
  rfl

theorem Edits.blocks_messages (h : Edits (BlockEdit foreign) content content' counts) :
    counts.messages = 0 := by
  have hnone : ∀ {block kept counts}, BlockEdit foreign block kept counts →
      0 * kept.toList.length + counts.messages = 0 := by
    intro block kept counts hone
    cases hone <;> rfl
  simpa using h.counted hnone

theorem messages_deletions (h : counts ∈ deletions message) : counts.messages = 1 := by
  cases message <;> simp only [deletions, List.not_mem_nil, List.mem_cons, or_false] at h
  · rw [h]
    rfl
  · rcases h with rfl | rfl <;> rfl

theorem MessageEdit.unchanged (h : MessageEdit targetApi targetProvider message keptMessage counts)
    (hcounts : counts = {}) : keptMessage = some message := by
  cases h with
  | edited h =>
    rw [h.unchanged BlockEdit.unchanged hcounts]
    cases message <;> rfl
  | stripped h => cases (add_eq_empty hcounts).1
  | emptied h => cases (add_eq_empty hcounts).2
  | deleted h =>
    have hone := messages_deletions h
    rw [hcounts] at hone
    cases hone

theorem MessageEdit.uncounted
    (h : MessageEdit targetApi targetProvider message (some message) counts) : counts = {} := by
  generalize hkept : some message = keptMessage at h
  cases h with
  | edited h =>
    refine h.uncounted BlockEdit.uncounted ?_
    cases message <;> cases hkept <;> rfl
  | stripped | emptied | deleted => cases hkept

theorem MessageEdit.counted (h : MessageEdit targetApi targetProvider message keptMessage counts) :
    1 * keptMessage.toList.length + counts.messages = 1 := by
  cases h with
  | edited h => simp [h.blocks_messages]
  | stripped h | emptied h =>
    rw [messages_add, h.blocks_messages]
    rfl
  | deleted h => simp [messages_deletions h]

/-! ### A run as edits -/

variable {replay : Replay} {emitted : List String} {index : Nat}

theorem edits_keepBlocks {read : CanonicalContent → Option CanonicalContent × ReplayTransformCounts}
    (h : ∀ block, BlockEdit foreign block (read block).1 (read block).2)
    (blocks : List CanonicalContent) :
    Edits (BlockEdit foreign) blocks (keepBlocks read blocks).1 (keepBlocks read blocks).2 := by
  induction blocks with
  | nil => exact .nil
  | cons block blocks ih => exact .cons (h block) ih

theorem edit_keptBlock (capabilities : ReplayCapabilities) (block : CanonicalContent) :
    BlockEdit foreign block (keptBlock capabilities block).1 (keptBlock capabilities block).2 := by
  unfold keptBlock stripTextCacheControl
  split
  · split
    · exact .kept _
    · exact .stripped _ _
  · exact .kept _

theorem edit_userBlock (isLatestUser : Bool) (block : CanonicalContent) :
    BlockEdit foreign block (userBlock replay isLatestUser block).1
      (userBlock replay isLatestUser block).2 := by
  unfold userBlock
  split
  · split
    · exact .image _ _
    · exact edit_keptBlock _ _
  · exact edit_keptBlock _ _

theorem edit_assistantBlock (replay : Replay) {native : Bool} (hforeign : native = false → foreign)
    (block : CanonicalContent) :
    BlockEdit foreign block (assistantBlock replay native block).1
      (assistantBlock replay native block).2 := by
  unfold assistantBlock
  split
  · split
    · exact .kept _
    · next hnative =>
      have hother := hforeign (by simpa using hnative)
      split
      · exact .silent hother _ _ _
      · exact .quoted hother _ _ _
  · exact .image _ _
  · split
    · exact .kept _
    · exact .call _ _ _
  · exact edit_keptBlock _ _

def dropsUser (replay : Replay) : CanonicalMessage × Nat → Bool
  | (.user content _, index) =>
    !decide (some index = replay.latestUserIndex) &&
      (keepBlocks (userBlock replay false) content).1.isEmpty
  | (.assistant _ _ _ _ _ _ _ _, _) | (.toolResult _ _ _ _ _ _, _) => false

theorem edit_normalizeMessage (emitted : List String) (h : dropsUser replay (message, index) = false) :
    MessageEdit replay.targetApi replay.targetProvider message
      (normalizeMessage replay emitted message index).1
      (normalizeMessage replay emitted message index).2 := by
  cases message with
  | user content timestampMs =>
    simp only [normalizeMessage]
    split
    · next hdropped =>
      simp only [Bool.and_eq_true, Bool.not_eq_true'] at hdropped
      simp [dropsUser, hdropped.2] at h
      rw [hdropped.2] at hdropped
      simp [h] at hdropped
    · exact .edited (edits_keepBlocks (edit_userBlock _) content)
  | assistant content api provider model usage stopReason errorMessage timestampMs =>
    have hforeign : (decide (api = replay.targetApi) && decide (provider = replay.targetProvider)) =
        false → ¬(api = replay.targetApi ∧ provider = replay.targetProvider) := by
      simp
    have hblocks := edits_keepBlocks (edit_assistantBlock replay hforeign) content
    simp only [normalizeMessage]
    split
    · exact .deleted (.head _)
    · split
      · next hempty =>
        rw [List.isEmpty_iff] at hempty
        rw [hempty] at hblocks
        exact .emptied hblocks
      · exact .edited hblocks
  | toolResult toolCallId toolName content isError cacheControl timestampMs =>
    have hblocks := edits_keepBlocks (@edit_keptBlock False replay.capabilities) content
    simp only [normalizeMessage]
    split
    · exact .deleted (.head _)
    · split
      · exact .deleted (.tail _ (.head _))
      · split
        · next hstripped =>
          cases cacheControl with
          | none => simp at hstripped
          | some cacheControl => exact .stripped hblocks
        · exact .edited hblocks

theorem dropped_normalizeMessage (emitted : List String) (h : dropsUser replay (message, index) = true) :
    (normalizeMessage replay emitted message index).1 = none ∧
      (normalizeMessage replay emitted message index).2.messages = 0 := by
  cases message with
  | user content timestampMs =>
    simp only [dropsUser, Bool.and_eq_true, Bool.not_eq_true', decide_eq_false_iff_not] at h
    simp only [normalizeMessage, h.1, decide_false, h.2, Bool.not_false, Bool.and_self, if_true]
    exact ⟨trivial, (edits_keepBlocks (@edit_userBlock False replay false) content).blocks_messages⟩
  | assistant | toolResult => cases h

theorem counted_normalizeFrom (numbered : List (CanonicalMessage × Nat)) :
    (normalizeFrom replay emitted numbered).messages.length +
        (normalizeFrom replay emitted numbered).counts.messages +
        numbered.countP (dropsUser replay) = numbered.length := by
  induction numbered generalizing emitted with
  | nil => rfl
  | cons first rest ih =>
    obtain ⟨message, index⟩ := first
    have hlater := @ih (((normalizeMessage replay emitted message index).1.bind answeredId).toList ++
      emitted)
    simp only [normalizeFrom, List.length_append, messages_add, List.length_cons]
    cases hdrops : dropsUser replay (message, index) with
    | false =>
      have hone := (edit_normalizeMessage emitted hdrops).counted
      rw [List.countP_cons_of_neg (by simp [hdrops])]
      omega
    | true =>
      obtain ⟨hnone, hmessages⟩ := dropped_normalizeMessage emitted hdrops
      rw [List.countP_cons_of_pos hdrops, hmessages]
      rw [hnone] at hlater ⊢
      rw [Option.toList_none, List.length_nil]
      omega

theorem edits_normalizeFrom {numbered : List (CanonicalMessage × Nat)}
    (h : ∀ entry ∈ numbered, dropsUser replay entry = false) :
    Edits (MessageEdit replay.targetApi replay.targetProvider) (numbered.map (·.1))
      (normalizeFrom replay emitted numbered).messages
      (normalizeFrom replay emitted numbered).counts := by
  induction numbered generalizing emitted with
  | nil => exact .nil
  | cons first rest ih =>
    obtain ⟨hfirst, hrest⟩ := List.forall_mem_cons.mp h
    exact .cons (edit_normalizeMessage _ hfirst) (ih hrest)

/-! ### Whole histories -/

/-- A user's message before the last message has a block that the target is shown. -/
def UsersShown (targetApi : ProviderApi) (messages : List CanonicalMessage) : Prop :=
  ∀ index content timestampMs, messages[index]? = some (.user content timestampMs) →
    index + 1 ≠ messages.length → ∃ block ∈ content,
      isImage block = true → (ReplayCapabilities.forApi targetApi).supportsImages = true

/-- What is said of an outcome: a second run finds nothing to do, it is the history where nothing is
counted, and it is made by counted edits. -/
structure Accounted (messages : List CanonicalMessage) (targetApi : ProviderApi)
    (targetProvider : String) (outcome : ReplayTransform) : Prop where
  again : normalizeHistoryForTarget outcome.messages targetApi targetProvider = ⟨outcome.messages, {}⟩
  same : outcome.counts = {} → outcome.messages = messages
  edits : Edits (MessageEdit targetApi targetProvider) messages outcome.messages outcome.counts

variable {messages : List CanonicalMessage}

theorem dropsUser_replayOf {timestampMs : Int}
    (hplace : messages[index]? = some (.user content timestampMs)) :
    dropsUser (replayOf messages targetApi targetProvider) (.user content timestampMs, index) = false ↔
      (index + 1 ≠ messages.length → ∃ block ∈ content,
        isImage block = true → (ReplayCapabilities.forApi targetApi).supportsImages = true) := by
  have hblock : ∀ block, (userBlock (replayOf messages targetApi targetProvider) false block).1 = none ↔
      ¬(isImage block = true → (ReplayCapabilities.forApi targetApi).supportsImages = true) := by
    intro block
    have hcapabilities : (replayOf messages targetApi targetProvider).capabilities =
      ReplayCapabilities.forApi targetApi := rfl
    cases block with
    | image data mimeType =>
      rw [userBlock, hcapabilities]
      split <;> simp_all [keptBlock, isImage]
    | text | thinking | toolCall => simp [userBlock, keptBlock, isImage]
  simp only [dropsUser, latest_iff_last targetApi targetProvider hplace, keepBlocks_eq_filterMap,
    Bool.and_eq_false_iff,
    List.isEmpty_eq_false_iff, List.filterMap_eq_nil_iff, ne_eq, hblock]
  by_cases hlast : index + 1 = messages.length <;> simp [hlast]

/-- **When all that a run deletes is counted.** -/
theorem edits_normalize_iff (messages : List CanonicalMessage) (targetApi : ProviderApi)
    (targetProvider : String) :
    Edits (MessageEdit targetApi targetProvider) messages
        (normalizeHistoryForTarget messages targetApi targetProvider).messages
        (normalizeHistoryForTarget messages targetApi targetProvider).counts ↔
      UsersShown targetApi messages := by
  have hcounted := @counted_normalizeFrom (replayOf messages targetApi targetProvider) [] messages.zipIdx
  have hrun := @edits_normalizeFrom (replayOf messages targetApi targetProvider) [] messages.zipIdx
  rw [List.zipIdx_map_fst] at hrun
  rw [List.length_zipIdx] at hcounted
  constructor
  · intro hedits index content timestampMs hplace
    have hlength := hedits.counted MessageEdit.counted
    have hnone : messages.zipIdx.countP (dropsUser (replayOf messages targetApi targetProvider)) = 0 := by
      rw [normalize_eq] at hlength
      omega
    rw [← dropsUser_replayOf hplace]
    have hentry := List.countP_eq_zero.mp hnone (.user content timestampMs, index)
      (List.mem_zipIdx_iff_getElem?.mpr hplace)
    simpa using hentry
  · intro hshown
    refine hrun fun entry hentry => ?_
    obtain ⟨message, index⟩ := entry
    cases message with
    | user content timestampMs =>
      have hplace := List.mem_zipIdx_iff_getElem?.mp hentry
      exact (dropsUser_replayOf hplace).mpr (hshown index content timestampMs hplace)
    | assistant | toolResult => rfl

theorem normalize_again (messages : List CanonicalMessage) (targetApi : ProviderApi)
    (targetProvider : String) :
    normalizeHistoryForTarget (normalizeHistoryForTarget messages targetApi targetProvider).messages
        targetApi targetProvider =
      ⟨(normalizeHistoryForTarget messages targetApi targetProvider).messages, {}⟩ := by
  have hclean := clean_normalize messages targetApi targetProvider
  have hfits := fits_normalize messages targetApi targetProvider
  have hsame := normalize_idempotent messages targetApi targetProvider
  generalize (normalizeHistoryForTarget messages targetApi targetProvider).messages = outcome at *
  have hshown : UsersShown targetApi outcome := by
    intro index content timestampMs hplace hlast
    cases content with
    | nil => exact absurd (hclean.blank index timestampMs hplace) hlast
    | cons block content =>
      exact ⟨block, .head _, fun himage =>
        ((hfits index _ hplace).1 block (.head _) himage).resolve_right hlast⟩
  have hedits := (edits_normalize_iff outcome targetApi targetProvider).mpr hshown
  have hcounts := hedits.uncounted MessageEdit.uncounted hsame
  calc normalizeHistoryForTarget outcome targetApi targetProvider
      = ⟨(normalizeHistoryForTarget outcome targetApi targetProvider).messages,
          (normalizeHistoryForTarget outcome targetApi targetProvider).counts⟩ := rfl
    _ = ⟨outcome, {}⟩ := by rw [hsame, hcounts]

/-- **The accounting of a run**: it is complete exactly if no user's message before the last message is
left with no block. -/
theorem normalize_accounted_iff (messages : List CanonicalMessage) (targetApi : ProviderApi)
    (targetProvider : String) :
    Accounted messages targetApi targetProvider
        (normalizeHistoryForTarget messages targetApi targetProvider) ↔
      UsersShown targetApi messages := by
  rw [← edits_normalize_iff messages targetApi targetProvider]
  exact ⟨Accounted.edits, fun hedits => ⟨normalize_again messages targetApi targetProvider,
    hedits.unchanged fun h => h.unchanged rfl, hedits⟩⟩

/-- **A message that nothing counts.**  The first message of the user has no block. -/
theorem blank_user_uncounted :
    ¬Accounted [.user [] 0, .user [.text "hi" none] 1] .openAIResponses "openai"
      (normalizeHistoryForTarget [.user [] 0, .user [.text "hi" none] 1] .openAIResponses "openai") := by
  intro h
  have hlength := congrArg List.length (h.same rfl)
  exact absurd hlength (by decide)

end Verlet.Provider
