import Verlet.Agent.ContextCompiler

/-!
# Agent — The context compiler — Budgets

What a policy leaves of the text and the messages of a request, and what is told of the rest.

* `compile_within_budget`: no more text than the policy admits, and no more messages.
* `compile_accounts`: every byte of text and every message is kept or told to be dropped.
-/

namespace Verlet.Agent
open History Provider

/-! ### Texts -/

theorem textBytes_recentSuffix (remaining : Nat) (text : List Char) :
    textBytes (recentSuffix remaining text) ≤ remaining ∧
      textBytes (recentSuffix remaining text) ≤ textBytes text := by
  induction text with
  | nil => exact ⟨Nat.zero_le _, Nat.le_refl _⟩
  | cons c text ih =>
    rw [recentSuffix]
    split
    · next hfits => exact ⟨hfits, Nat.le_refl _⟩
    · exact ⟨ih.1, ih.2.trans (by simp [textBytes])⟩

theorem textBytes_boundedPrefix (maxBytes : Nat) (text : List Char) :
    textBytes (boundedPrefix maxBytes text) ≤ maxBytes ∧
      textBytes (boundedPrefix maxBytes text) ≤ textBytes text := by
  induction text generalizing maxBytes with
  | nil => exact ⟨Nat.zero_le _, Nat.le_refl _⟩
  | cons c text ih =>
    rw [boundedPrefix]
    split
    · have hrest := ih (maxBytes - c.utf8Size)
      simp only [textBytes, List.map_cons, List.sum_cons] at hrest ⊢
      omega
    · exact ⟨Nat.zero_le _, Nat.zero_le _⟩

/-! ### Messages -/

/-- What a cut with a budget leaves: what it retains is taken from the budget, and is no more than there was. -/
structure Spends (remaining before remaining' after : Nat) : Prop where
  budget : remaining' + after = remaining
  le : after ≤ before

theorem Spends.none (remaining : Nat) : Spends remaining 0 remaining 0 := ⟨rfl, Nat.le_refl 0⟩

theorem spends_text (text : String) (remaining : Nat) :
    Spends remaining (textBytes text.toList) (truncateStringToRecentBytes text remaining).1
      (textBytes (truncateStringToRecentBytes text remaining).2.toList) := by
  unfold truncateStringToRecentBytes
  split
  · next hfits => exact ⟨Nat.sub_add_cancel hfits, Nat.le_refl _⟩
  · split
    · next hnone => exact hnone ▸ ⟨rfl, Nat.zero_le _⟩
    · have hsuffix := textBytes_recentSuffix remaining text.toList
      simp only [String.toList_ofList]
      exact ⟨Nat.sub_add_cancel hsuffix.1, hsuffix.2⟩

/-- **A loop over a budget, from the newest**, spends what its steps spend. -/
theorem spends_mapAccumr {α : Type} {cut : α → Nat → Nat × α} {bytes : α → Nat}
    (hcut : ∀ a remaining, Spends remaining (bytes a) (cut a remaining).1 (bytes (cut a remaining).2))
    (as : List α) (remaining : Nat) :
    Spends remaining (as.map bytes).sum (List.mapAccumr cut as remaining).1
      ((List.mapAccumr cut as remaining).2.map bytes).sum := by
  induction as with
  | nil => exact .none remaining
  | cons a as ih =>
    have hhead := hcut a (List.mapAccumr cut as remaining).1
    simp only [List.mapAccumr, List.map_cons, List.sum_cons]
    exact ⟨by rw [← Nat.add_assoc, hhead.budget, ih.budget], Nat.add_le_add hhead.le ih.le⟩

def blockBytes : CanonicalContent → Nat
  | .text text _ | .thinking text _ _ => textBytes text.toList
  | .image _ _ | .toolCall _ _ _      => 0

theorem contentTextBytes_eq (content : List CanonicalContent) :
    contentTextBytes content = (content.map blockBytes).sum := by
  refine congrArg List.sum (List.map_congr_left fun block _ => ?_)
  cases block <;> rfl

theorem spends_block (block : CanonicalContent) (remaining : Nat) :
    Spends remaining (blockBytes block) (truncateBlock block remaining).1
      (blockBytes (truncateBlock block remaining).2) := by
  cases block with
  | text text | thinking text => exact spends_text text remaining
  | image | toolCall => exact .none remaining

theorem contentTextBytes_filter_solid (content : List CanonicalContent) :
    contentTextBytes (content.filter isSolid) = contentTextBytes content := by
  simp only [contentTextBytes_eq]
  induction content with
  | nil => rfl
  | cons block content ih =>
    rw [List.filter_cons]
    split
    · rw [List.map_cons, List.map_cons, List.sum_cons, List.sum_cons, ih]
    · next hempty =>
      have hbytes : blockBytes block = 0 := by
        cases block <;> simp_all [isSolid, blockBytes, textBytes]
      rw [ih, List.map_cons, List.sum_cons, hbytes, Nat.zero_add]

def messageBytes (message : CanonicalMessage) : Nat := contentTextBytes (contentOf message)

theorem spends_message (message : CanonicalMessage) (remaining : Nat) :
    Spends remaining (messageBytes message) (truncateMessage message remaining).1
      (messageBytes (truncateMessage message remaining).2) := by
  have hcontent (content : List CanonicalContent) : contentOf (withContent content message) = content := by
    cases message <;> rfl
  have hspends := spends_mapAccumr spends_block (contentOf message) remaining
  rw [← contentTextBytes_eq, ← contentTextBytes_eq, ← contentTextBytes_filter_solid (List.mapAccumr _ _ _).2]
    at hspends
  simpa only [messageBytes, truncateMessage, truncateContentToRecentTextBytes, hcontent] using hspends

theorem spends_tracked (messages : List TrackedMessage) (remaining : Nat) :
    ∃ remaining', Spends remaining (messagesTextBytes (untracked messages)) remaining'
      (messagesTextBytes (untracked (truncateTracked messages remaining))) := by
  have hspends := @spends_mapAccumr TrackedMessage (fun tracked remaining =>
      ((truncateMessage tracked.message remaining).1,
        { tracked with message := (truncateMessage tracked.message remaining).2 }))
    (fun tracked => messageBytes tracked.message)
    (fun tracked remaining => spends_message tracked.message remaining) messages remaining
  simp only [messagesTextBytes, untracked, truncateTracked, List.map_map]
  exact ⟨_, hspends⟩

/-! ### Static sources -/

variable {φ : Type} (fractionalBudgetLimit : Nat → φ → Nat)

/-- The bytes of the static sources that are pinned, or of those that are not; one that is blank has none. -/
def sourceBytes (pinned : Bool) (sources : List (StaticContextSegment φ)) : Nat :=
  ((sources.filter fun source => trim source.content ≠ "" ∧ source.pinned = pinned).map fun source =>
    textBytes source.content.toList).sum

def systemBytes (blocks : List SystemBlock) : Nat := (blocks.map fun block => textBytes block.text.toList).sum

/-- What the loop over the static sources has spent. -/
structure SystemSpent (maxTextBytes : Option Nat) (sources : List (StaticContextSegment φ))
    (budget : SystemBudget) : Prop where
  remaining : ∀ n, maxTextBytes = some n →
    ∃ remaining, budget.remainingBudget = some remaining ∧ remaining + budget.compiled.budgetedTextBytes = n
  told : budget.compiled.budgetedTextBytes + budget.compiled.truncatedTextBytes = sourceBytes false sources
  blocks : systemBytes budget.compiled.blocks = budget.compiled.budgetedTextBytes + sourceBytes true sources

theorem sourceBytes_concat (pinned : Bool) (sources : List (StaticContextSegment φ))
    (source : StaticContextSegment φ) :
    sourceBytes pinned (sources ++ [source]) = sourceBytes pinned sources +
      if trim source.content ≠ "" ∧ source.pinned = pinned then textBytes source.content.toList else 0 := by
  unfold sourceBytes
  rw [List.filter_append, List.map_append, List.sum_append]
  split <;> simp_all

theorem systemBytes_concat (blocks : List SystemBlock) (block : SystemBlock) :
    systemBytes (blocks ++ [block]) = systemBytes blocks + textBytes block.text.toList := by
  simp [systemBytes]

theorem SystemSpent.step {maxTextBytes : Option Nat} {sources : List (StaticContextSegment φ)}
    {budget : SystemBudget} (h : SystemSpent maxTextBytes sources budget) (source : StaticContextSegment φ) :
    SystemSpent maxTextBytes (sources ++ [source])
      (compileStaticSource fractionalBudgetLimit maxTextBytes budget source) := by
  obtain ⟨hremaining, htold, hblocks⟩ := h
  unfold compileStaticSource
  split
  · next hblank =>
    exact ⟨hremaining, by simp [sourceBytes_concat, hblank, htold], by simp [sourceBytes_concat, hblank, hblocks]⟩
  · next hblank =>
    split
    · next hpinned =>
      refine ⟨hremaining, by simp [sourceBytes_concat, hpinned, htold], ?_⟩
      simp only [systemBytes_concat, hblocks, sourceBytes_concat, if_pos (And.intro hblank hpinned)]
      omega
    · next hpinned =>
      have hpinned : source.pinned = false := Bool.eq_false_of_not_eq_true hpinned
      extract_lets original content retained
      have hle : retained ≤ original ∧
          ∀ n, maxTextBytes = some n → ∀ remaining, budget.remainingBudget = some remaining →
            retained ≤ remaining := by
        simp only [retained, content, staticSourceBudgetLimit]
        cases maxTextBytes with
        | none => exact ⟨Nat.le_refl _, fun n hn => nomatch hn⟩
        | some n =>
          have hcut (limit : Nat) :
              textBytes (if limit < original then prefixTextBytes source.content limit
                else source.content).toList ≤ min limit original := by
            split
            · have := textBytes_boundedPrefix limit source.content.toList
              rw [prefixTextBytes, String.toList_ofList]
              exact le_min this.1 this.2
            · exact le_min (Nat.not_lt.mp ‹_›) (Nat.le_refl _)
          refine ⟨(hcut _).trans (Nat.min_le_right _ _), fun _ _ remaining hleft => ?_⟩
          refine ((hcut _).trans (Nat.min_le_left _ _)).trans ?_
          rw [hleft]
          exact Nat.min_le_right _ _
      have hfalse : sourceBytes false (sources ++ [source]) = sourceBytes false sources + original := by
        rw [sourceBytes_concat, if_pos ⟨hblank, hpinned⟩]
      have htrue : sourceBytes true (sources ++ [source]) = sourceBytes true sources := by
        rw [sourceBytes_concat, if_neg (by simp [hpinned]), Nat.add_zero]
      split
      · exact ⟨hremaining, by rw [hfalse, ← htold, Nat.add_assoc], by rw [htrue, hblocks]⟩
      · refine ⟨fun n hn => ?_, ?_, ?_⟩
        · obtain ⟨remaining, hleft, hsum⟩ := hremaining n hn
          have := hle.2 n hn remaining hleft
          exact ⟨remaining - retained, by rw [hleft]; rfl, by simp only; omega⟩
        · have := hle.1
          simp only [hfalse]
          omega
        · simp only [systemBytes_concat, hblocks, htrue]
          change _ + retained = _
          omega

theorem systemSpent_compile (maxTextBytes : Option Nat) (sources : List (StaticContextSegment φ)) :
    SystemSpent maxTextBytes sources
      (sources.foldl (compileStaticSource fractionalBudgetLimit maxTextBytes) ⟨maxTextBytes, ⟨[], 0, 0⟩⟩) := by
  induction sources using List.reverseRecOn with
  | nil => exact ⟨fun n hn => ⟨n, hn, rfl⟩, rfl, rfl⟩
  | append_singleton sources source ih =>
    rw [List.foldl_append]
    exact ih.step fractionalBudgetLimit source

/-! ### What a request is made of -/

def entryMessages (entry : SessionEntry) : List TrackedMessage :=
  match entry.kind with
  | .message message => [⟨message, .history, some entry.entryId⟩]
  | .customContextMessage message => [⟨message, .hookContext, some entry.entryId⟩]
  | .compaction summary =>
    [⟨compactionSummaryMessage summary entry.createdAtMs, .compactionSummary, some entry.entryId⟩]
  | .modelChange _ _ _ | .branchSummary _ | .runtime _ _ => []

/-- All messages there are for a request, in order. -/
def candidates (input : AgentContextCompileInput φ) : List TrackedMessage :=
  let synthetic := syntheticMessage input.turnAnchorTimestampMs
  (renderEnvironmentContexts input.turnContext input.environmentContexts).map (synthetic .environment) ++
    input.sessionEntries.flatMap entryMessages ++
    (input.hookContexts.filter fun context => trim context ≠ "").map (synthetic .hookContext) ++
    (input.turnContext.modelVisibleContext.filter fun context => trim context ≠ "").map
      (synthetic .turnContext) ++
    (renderAttachmentContext input.attachments).toList.map (synthetic .attachment)

def droppedAs (reason : String) (message : TrackedMessage) : AgentContextDroppedEntry :=
  ⟨message.entryId, message.source, reason⟩

/-- **The loop over the entries**: a compaction drops what is before it, and tells so. -/
theorem foldl_trackEntry (entries : List SessionEntry) (messages : List TrackedMessage)
    (dropped : List AgentContextDroppedEntry) :
    ∃ cleared, messages ++ entries.flatMap entryMessages =
        cleared ++ (entries.foldl trackEntry (messages, dropped)).1 ∧
      (entries.foldl trackEntry (messages, dropped)).2 =
        dropped ++ cleared.map (droppedAs "cleared_by_compaction") := by
  induction entries generalizing messages dropped with
  | nil => exact ⟨[], by simp, by simp⟩
  | cons entry entries ih =>
    rw [List.foldl_cons, List.flatMap_cons, ← List.append_assoc]
    cases hkind : entry.kind with
    | message | customContextMessage =>
      simp only [trackEntry, entryMessages, hkind]
      exact ih _ _
    | modelChange | branchSummary | runtime =>
      simp only [trackEntry, entryMessages, hkind, List.append_nil]
      exact ih _ _
    | compaction summary =>
      simp only [trackEntry, entryMessages, hkind, List.append_assoc]
      obtain ⟨cleared, hmessages, hdropped⟩ := ih _ _
      exact ⟨messages ++ cleared, by rw [hmessages, List.append_assoc],
        hdropped.trans (by rw [List.map_append, List.append_assoc]; rfl)⟩

theorem trackedMessages_candidates (input : AgentContextCompileInput φ) :
    ∃ cleared, candidates input = cleared ++ (trackedMessages input).1 ∧
      (trackedMessages input).2 = cleared.map (droppedAs "cleared_by_compaction") := by
  obtain ⟨cleared, hmessages, hdropped⟩ := foldl_trackEntry input.sessionEntries
    ((renderEnvironmentContexts input.turnContext input.environmentContexts).map
      (syntheticMessage input.turnAnchorTimestampMs .environment)) []
  refine ⟨cleared, ?_, hdropped⟩
  simp only [candidates, trackedMessages, hmessages, List.append_assoc]

/-- How many of the messages a policy leaves over. -/
def overCount (messages : List TrackedMessage) : Option Nat → Nat
  | some maxMessages => messages.length - maxMessages
  | none             => 0

/-- How a message is kept: as it is, or cut to its newest text. -/
def KeptAs (tracked : TrackedMessage) (message : CanonicalMessage) : Prop :=
  message = tracked.message ∨ ∃ remaining, message = (truncateMessage tracked.message remaining).2

theorem keptAs_truncateTracked (messages : List TrackedMessage) (remaining : Nat) :
    List.Forall₂ KeptAs messages (untracked (truncateTracked messages remaining)) := by
  rw [untracked, List.forall₂_map_right_iff]
  induction messages with
  | nil => exact .nil
  | cons tracked messages ih => exact .cons (.inr ⟨_, rfl⟩) ih

theorem budgeted_spends (messages : List TrackedMessage) (policy : AgentContextCompilePolicy) :
    List.Forall₂ KeptAs (messages.drop (overCount messages policy.maxMessages))
        (untracked (budgeted messages policy)) ∧
      messagesTextBytes (untracked (budgeted messages policy)) ≤
        messagesTextBytes (untracked (messages.drop (overCount messages policy.maxMessages))) ∧
      ∀ n, policy.maxTextBytes = some n → messagesTextBytes (untracked (budgeted messages policy)) ≤ n := by
  have heq : budgeted messages policy =
      match policy.maxTextBytes with
      | some n => truncateTracked (messages.drop (overCount messages policy.maxMessages)) n
      | none   => messages.drop (overCount messages policy.maxMessages) := by
    unfold budgeted
    cases policy.maxMessages <;> rfl
  rw [heq]
  cases policy.maxTextBytes with
  | none =>
    exact ⟨List.forall₂_map_right_iff.mpr (List.forall₂_same.mpr fun _ _ => .inl rfl), Nat.le_refl _,
      fun n hn => nomatch hn⟩
  | some n =>
    obtain ⟨remaining, hbudget, hle⟩ :=
      spends_tracked (messages.drop (overCount messages policy.maxMessages)) n
    refine ⟨keptAs_truncateTracked _ n, hle, fun m hm => ?_⟩
    cases hm
    exact (Nat.le_add_left _ _).trans_eq hbudget

theorem budgetDropped_eq (messages : List TrackedMessage) (policy : AgentContextCompilePolicy) :
    budgetDropped messages policy =
      (messages.take (overCount messages policy.maxMessages)).map (droppedAs "max_messages") := by
  unfold budgetDropped
  cases policy.maxMessages <;> rfl

/-- The policy of the messages, once the static sources have spent theirs. -/
def messagePolicy (input : AgentContextCompileInput φ) : AgentContextCompilePolicy :=
  { input.policy with
    maxTextBytes := input.policy.maxTextBytes.map (· - (compileSystemBlocks fractionalBudgetLimit
      input.staticSystemSources input.system input.policy.maxTextBytes).budgetedTextBytes) }

/-- **Nothing vanishes untold.**  All messages there are for a request are cleared by a compaction and told so, left
over by the policy and told so, or kept, in this order; and the bytes that are told as retained and as truncated
are those of the kept messages, before they are cut, and of the static sources that are not pinned. -/
theorem compile_accounts (input : AgentContextCompileInput φ) :
    ∃ cleared surplus kept, candidates input = cleared ++ surplus ++ kept ∧
      (compile fractionalBudgetLimit input).diagnostics.droppedEntries =
        cleared.map (droppedAs "cleared_by_compaction") ++ surplus.map (droppedAs "max_messages") ∧
      List.Forall₂ KeptAs kept (compile fractionalBudgetLimit input).messages ∧
      (compile fractionalBudgetLimit input).diagnostics.retainedTextBytes +
          (compile fractionalBudgetLimit input).diagnostics.truncatedTextBytes =
        messagesTextBytes (untracked kept) + sourceBytes false input.staticSystemSources := by
  obtain ⟨cleared, hcandidates, hcleared⟩ := trackedMessages_candidates input
  have htold := (systemSpent_compile fractionalBudgetLimit input.policy.maxTextBytes
    input.staticSystemSources).told
  obtain ⟨hkept, hle, -⟩ :=
    budgeted_spends (trackedMessages input).1 (messagePolicy fractionalBudgetLimit input)
  refine ⟨cleared, (trackedMessages input).1.take (overCount (trackedMessages input).1
      (messagePolicy fractionalBudgetLimit input).maxMessages),
    (trackedMessages input).1.drop (overCount (trackedMessages input).1
      (messagePolicy fractionalBudgetLimit input).maxMessages), ?_, ?_, hkept, ?_⟩
  · rw [List.append_assoc, List.take_append_drop, hcandidates]
  · simp only [compile, hcleared, budgetDropped_eq]
    rfl
  · have hretained : (compile fractionalBudgetLimit input).diagnostics.retainedTextBytes =
        messagesTextBytes (compile fractionalBudgetLimit input).messages +
          (compileSystemBlocks fractionalBudgetLimit input.staticSystemSources input.system
            input.policy.maxTextBytes).budgetedTextBytes := rfl
    have htruncated : (compile fractionalBudgetLimit input).diagnostics.truncatedTextBytes =
        (compileSystemBlocks fractionalBudgetLimit input.staticSystemSources input.system
            input.policy.maxTextBytes).truncatedTextBytes +
          (messagesTextBytes (untracked ((trackedMessages input).1.drop (overCount (trackedMessages input).1
            (messagePolicy fractionalBudgetLimit input).maxMessages))) -
          messagesTextBytes (compile fractionalBudgetLimit input).messages) := rfl
    change messagesTextBytes (compile fractionalBudgetLimit input).messages ≤ _ at hle
    simp only [compileSystemBlocks] at hretained htruncated
    omega

/-- **A request keeps to its policy.**  It has no more messages than the policy admits; and its messages and its
system blocks together have no more bytes of text, but for those of the blocks that are pinned or configured. -/
theorem compile_within_budget (input : AgentContextCompileInput φ) :
    (∀ m, input.policy.maxMessages = some m → (compile fractionalBudgetLimit input).messages.length ≤ m) ∧
    ∀ n, input.policy.maxTextBytes = some n →
      messagesTextBytes (compile fractionalBudgetLimit input).messages +
          systemBytes (compile fractionalBudgetLimit input).system ≤
        n + sourceBytes true input.staticSystemSources + systemBytes input.system := by
  have hspent := systemSpent_compile fractionalBudgetLimit input.policy.maxTextBytes input.staticSystemSources
  obtain ⟨hkept, -, hbudget⟩ :=
    budgeted_spends (trackedMessages input).1 (messagePolicy fractionalBudgetLimit input)
  refine ⟨fun m hm => ?_, fun n hn => ?_⟩
  · have hcount : (compile fractionalBudgetLimit input).messages.length =
        ((trackedMessages input).1.drop (overCount (trackedMessages input).1 input.policy.maxMessages)).length :=
      hkept.length_eq.symm
    rw [hcount, hm, List.length_drop, overCount]
    omega
  · have hmessages : messagesTextBytes (compile fractionalBudgetLimit input).messages ≤
        n - (compileSystemBlocks fractionalBudgetLimit input.staticSystemSources input.system
          input.policy.maxTextBytes).budgetedTextBytes :=
      hbudget _ (by simp only [messagePolicy, hn, Option.map_some])
    obtain ⟨remaining, -, hsum⟩ := hspent.remaining n hn
    have hblocks := hspent.blocks
    have hsystem : systemBytes (compile fractionalBudgetLimit input).system =
        systemBytes (input.staticSystemSources.foldl
          (compileStaticSource fractionalBudgetLimit input.policy.maxTextBytes)
          ⟨input.policy.maxTextBytes, ⟨[], 0, 0⟩⟩).compiled.blocks + systemBytes input.system := by
      simp [compile, compileSystemBlocks, systemBytes]
    simp only [compileSystemBlocks] at hmessages
    omega

end Verlet.Agent
