import Verlet.Provider.Capabilities.Normalized

/-!
# Provider — Histories that a target is shown as they are

When `normalize_history_for_target` changes nothing.  A history that was normalized for some target is
`Clean`: of each call it has one issue and one answer or none, no failed and no empty message, and no
image of an assistant.  Such a history is shown to another target as it is exactly if it `Fits` it.
-/

namespace Verlet.Provider
open Support History

/-! ### Messages that are all kept -/

theorem filterMap_eq_self {α : Type} {f : α → Option α} {l : List α} :
    l.filterMap f = l ↔ ∀ a ∈ l, f a = some a := by
  induction l with
  | nil => simp
  | cons a l ih =>
    rw [List.forall_mem_cons, ← ih]
    cases h : f a with
    | none =>
      rw [List.filterMap_cons_none h]
      have hlength := List.length_filterMap_le f l
      constructor
      · intro hsame
        rw [hsame, List.length_cons] at hlength
        omega
      · rintro ⟨hsome, -⟩
        cases hsome
    | some b =>
      rw [List.filterMap_cons_some h, List.cons.injEq, Option.some.injEq]

theorem keepBlocks_eq_filterMap
    (read : CanonicalContent → Option CanonicalContent × ReplayTransformCounts)
    (blocks : List CanonicalContent) :
    (keepBlocks read blocks).1 = blocks.filterMap fun block => (read block).1 := by
  induction blocks with
  | nil => rfl
  | cons block blocks ih =>
    rw [keepBlocks, ih, List.filterMap_cons]
    cases (read block).1 <;> rfl

theorem keepBlocks_eq_self {read : CanonicalContent → Option CanonicalContent × ReplayTransformCounts}
    {blocks : List CanonicalContent} :
    (keepBlocks read blocks).1 = blocks ↔ ∀ block ∈ blocks, (read block).1 = some block := by
  rw [keepBlocks_eq_filterMap, filterMap_eq_self]

theorem normalizeFrom_cons (replay : Replay) (emitted : List String) (message : CanonicalMessage)
    (index : Nat) (rest : List (CanonicalMessage × Nat)) :
    (normalizeFrom replay emitted ((message, index) :: rest)).messages =
      (normalizeMessage replay emitted message index).1.toList ++
        (normalizeFrom replay (emittedAfter replay emitted message) rest).messages := by
  have hlater : (((normalizeMessage replay emitted message index).1.bind answeredId).toList ++
      emitted) = emittedAfter replay emitted message := by
    rw [answeredId_normalizeMessage]
    rfl
  simp only [normalizeFrom, hlater]

theorem normalizeFrom_append (replay : Replay) (emitted : List String)
    (before after : List (CanonicalMessage × Nat)) :
    (normalizeFrom replay emitted (before ++ after)).messages =
      (normalizeFrom replay emitted before).messages ++
        (normalizeFrom replay (emittedThrough replay emitted before) after).messages := by
  induction before generalizing emitted with
  | nil => rfl
  | cons first before ih =>
    rw [List.cons_append, normalizeFrom_cons, normalizeFrom_cons, ih, List.append_assoc]
    rfl

theorem length_normalizeFrom_le (replay : Replay) (emitted : List String)
    (numbered : List (CanonicalMessage × Nat)) :
    (normalizeFrom replay emitted numbered).messages.length ≤ numbered.length := by
  induction numbered generalizing emitted with
  | nil => exact Nat.le_refl _
  | cons first rest ih =>
    have hlater := ih (emittedAfter replay emitted first.1)
    rw [normalizeFrom_cons, List.length_append, List.length_cons]
    cases (normalizeMessage replay emitted first.1 first.2).1 with
    | none =>
      simp only [Option.toList_none, List.length_nil]
      omega
    | some kept =>
      simp only [Option.toList_some, List.length_singleton]
      omega

variable {replay : Replay} {emitted : List String}

theorem normalizeFrom_eq_self {numbered : List (CanonicalMessage × Nat)} :
    (normalizeFrom replay emitted numbered).messages = numbered.map (·.1) ↔
      ∀ before message index after, numbered = before ++ (message, index) :: after →
        (normalizeMessage replay (emittedThrough replay emitted before) message index).1 =
          some message := by
  induction numbered generalizing emitted with
  | nil => simp [normalizeFrom]
  | cons first rest ih =>
    obtain ⟨message, index⟩ := first
    have hlength := length_normalizeFrom_le replay (emittedAfter replay emitted message) rest
    rw [normalizeFrom_cons, List.map_cons]
    constructor
    · intro hsame before message' index' after heq
      cases hkept : (normalizeMessage replay emitted message index).1 with
      | none =>
        rw [hkept, Option.toList_none, List.nil_append] at hsame
        rw [hsame, List.length_cons, List.length_map] at hlength
        omega
      | some kept =>
        rw [hkept, Option.toList_some, List.singleton_append, List.cons.injEq] at hsame
        obtain ⟨rfl, hrest⟩ := hsame
        cases before with
        | nil =>
          obtain ⟨hfirst, -⟩ := List.cons.inj heq
          obtain ⟨rfl, rfl⟩ := Prod.mk.inj hfirst
          exact hkept
        | cons first before =>
          obtain ⟨rfl, hrest'⟩ := List.cons.inj heq
          exact ih.mp hrest before message' index' after hrest'
    · intro heach
      rw [show (normalizeMessage replay emitted message index).1 = some message from
        heach [] message index rest rfl, ih.mpr fun before message' index' after heq =>
          heach ((message, index) :: before) message' index' after (by rw [heq]; rfl)]
      rfl

theorem normalize_eq_self {messages : List CanonicalMessage} {targetApi : ProviderApi}
    {targetProvider : String} :
    (normalizeHistoryForTarget messages targetApi targetProvider).messages = messages ↔
      ∀ index message, messages[index]? = some message →
        (normalizeMessage (replayOf messages targetApi targetProvider)
          (emittedThrough (replayOf messages targetApi targetProvider) []
            (messages.take index).zipIdx) message index).1 = some message := by
  have hself : (normalizeFrom (replayOf messages targetApi targetProvider) []
      messages.zipIdx).messages = messages.zipIdx.map (·.1) ↔ _ := normalizeFrom_eq_self
  rw [List.zipIdx_map_fst] at hself
  rw [normalize_eq, hself]
  constructor
  · intro h index message hplace
    obtain ⟨after, heq⟩ := split_zipIdx.mp hplace
    exact h _ message index after heq
  · intro h before message index after heq
    obtain ⟨hplace, hbefore⟩ := place_of_split heq
    rw [hbefore]
    exact h index message hplace

/-! ### Clean histories -/

/-- What any target leaves of a history: messages that did not fail and are not empty, with no image of
an assistant, and of each call one issue and one answer, or neither. -/
structure Clean (messages : List CanonicalMessage) : Prop where
  healthy : ∀ message ∈ messages, isErrored message = false
  blank : ∀ index timestampMs, messages[index]? = some (.user [] timestampMs) →
    index + 1 = messages.length
  said : ∀ content api provider model usage stopReason errorMessage timestampMs,
    .assistant content api provider model usage stopReason errorMessage timestampMs ∈ messages →
      content ≠ [] ∧ content.any isImage = false
  paired : ∀ id, (messages.flatMap callIds).count id = (messages.filterMap answeredId).count id ∧
    (messages.flatMap callIds).count id ≤ 1

theorem count_call_firstAnswer (answered : Bool) (id : String) (t : List Mark) :
    (firstAnswer answered t).count (.call id) = t.count (.call id) := by
  induction t generalizing answered with
  | nil => rfl
  | cons mark t ih =>
    cases mark with
    | call other => rw [firstAnswer, List.count_cons, List.count_cons, ih]
    | result other =>
      rw [firstAnswer, List.count_append, ih]
      cases answered <;> simp

variable {id : String}

theorem count_result_firstAnswer {t : List Mark} (h : ∀ mark ∈ t, mark.id = id) (answered : Bool) :
    (firstAnswer answered t).count (.result id) =
      if answered = false ∧ .result id ∈ t then 1 else 0 := by
  induction t generalizing answered with
  | nil => simp [firstAnswer]
  | cons mark t ih =>
    obtain ⟨hmark, hrest⟩ := List.forall_mem_cons.mp h
    cases mark with
    | call other => simp [firstAnswer, ih hrest]
    | result other =>
      obtain rfl : other = id := hmark
      cases answered <;> simp [firstAnswer, ih hrest]

theorem count_about_call (id : String) (t : List Mark) :
    (about id t).count (.call id) = t.count (.call id) :=
  List.count_filter (by simp [Mark.id])

theorem count_about_result (id : String) (t : List Mark) :
    (about id t).count (.result id) = t.count (.result id) :=
  List.count_filter (by simp [Mark.id])

theorem count_result (messages : List CanonicalMessage) (id : String) :
    (traffic messages).count (.result id) = (messages.filterMap answeredId).count id := by
  induction messages with
  | nil => rfl
  | cons message messages ih =>
    have hnone : ((callIds message).map Mark.call).count (.result id) = 0 :=
      List.count_eq_zero.mpr (by simp)
    rw [traffic_cons, List.count_append, ih, marks, List.count_append, hnone, Nat.zero_add]
    cases hanswer : answeredId message with
    | none => simp [hanswer]
    | some other =>
      rw [List.filterMap_cons_some hanswer, List.count_cons]
      simp [List.count_cons, Nat.add_comm]

variable {message : CanonicalMessage} {index : Nat}

section Outcome

variable {messages : List CanonicalMessage} {targetApi : ProviderApi} {targetProvider : String}

theorem paired_normalize (id : String) :
    ((normalizeHistoryForTarget messages targetApi targetProvider).messages.flatMap callIds).count id =
        ((normalizeHistoryForTarget messages targetApi targetProvider).messages.filterMap
          answeredId).count id ∧
      ((normalizeHistoryForTarget messages targetApi targetProvider).messages.flatMap
        callIds).count id ≤ 1 := by
  rw [← count_call, ← count_result, ← count_about_call, ← count_about_result]
  rcases about_normalize messages targetApi targetProvider id with hnone | ⟨hfirst, hone, hmem⟩
  · simp [hnone]
  · have habout : ∀ mark ∈ about id (traffic messages), mark.id = id := fun mark hmark => by
      simpa using (List.mem_filter.mp hmark).2
    rw [hfirst, count_call_firstAnswer, count_about_call, hone, count_result_firstAnswer habout]
    simp [hmem]

theorem kept_blank {timestampMs : Int}
    (hkept : (normalizeMessage replay emitted message index).1 = some (.user [] timestampMs)) :
    some index = replay.latestUserIndex := by
  generalize hblank : CanonicalMessage.user [] timestampMs = kept at hkept
  cases Keeps.of_normalizeMessage hkept with
  | user hlatest hsolid => exact hlatest.mp (hsolid (CanonicalMessage.user.inj hblank).1.symm)
  | assistant | toolResult => cases hblank

theorem last_of_latest {kept : CanonicalMessage}
    (hlatest : ∀ emitted message place,
      (normalizeMessage (replayOf messages targetApi targetProvider) emitted message place).1 =
        some kept → some place = (replayOf messages targetApi targetProvider).latestUserIndex)
    (hplace : (normalizeHistoryForTarget messages targetApi targetProvider).messages[index]? =
      some kept) :
    index + 1 = (normalizeHistoryForTarget messages targetApi targetProvider).messages.length := by
  -- the last message of the history, and what stands before it
  rcases List.eq_nil_or_concat' messages with rfl | ⟨before, last, rfl⟩
  · simp [normalizeHistoryForTarget, normalizeFrom] at hplace
  · rw [normalize_eq, List.zipIdx_append, normalizeFrom_append] at hplace ⊢
    generalize hreplay : replayOf (before ++ [last]) targetApi targetProvider = replay
      at hplace hlatest ⊢
    have hearlier : (normalizeFrom replay [] before.zipIdx).messages[index]? ≠ some kept := by
      intro hfound
      obtain ⟨done, message, place, after, heq, hkept⟩ :=
        mem_normalizeFrom.mp (List.mem_of_getElem? hfound)
      obtain ⟨hmessage, -⟩ := place_of_split heq
      have hsame := hlatest _ _ _ hkept
      have hlt := (List.getElem?_eq_some_iff.mp hmessage).1
      rw [← hreplay, replayOf, latestUserIndex, List.getLast?_concat] at hsame
      split at hsame
      · simp only [Option.some.injEq, List.length_append, List.length_singleton] at hsame
        omega
      · cases hsame
    have hone := length_normalizeFrom_le replay (emittedThrough replay [] before.zipIdx)
      ([last].zipIdx (0 + before.length))
    rw [List.length_zipIdx, List.length_singleton] at hone
    by_cases hindex : index < (normalizeFrom replay [] before.zipIdx).messages.length
    · rw [List.getElem?_append_left hindex] at hplace
      exact absurd hplace hearlier
    · have hlt := (List.getElem?_eq_some_iff.mp hplace).1
      rw [List.length_append] at hlt ⊢
      omega

/-- **The outcome is clean.** -/
theorem clean_normalize (messages : List CanonicalMessage) (targetApi : ProviderApi)
    (targetProvider : String) :
    Clean (normalizeHistoryForTarget messages targetApi targetProvider).messages where
  healthy kept hmem := by
    obtain ⟨message, index, hplace, hkept⟩ := mem_normalize.mp hmem
    cases Keeps.of_normalizeMessage hkept with
    | user | toolResult => rfl
    | assistant _ hhealthy => exact (errored_replayOf hplace).symm.trans hhealthy
  blank index timestampMs hplace :=
    last_of_latest (fun emitted message place hkept => kept_blank hkept) hplace
  said content api provider model usage stopReason errorMessage timestampMs hmem := by
    obtain ⟨message, index, -, hkept⟩ := mem_normalize.mp hmem
    cases Keeps.of_normalizeMessage hkept with
    | assistant _ _ hsolid =>
      exact ⟨hsolid, any_keepBlocks (fun block kept => assistantBlock_isImage) _⟩
  paired id := paired_normalize id

end Outcome

/-! ### Histories that fit -/

def isThinking : CanonicalContent → Bool
  | .thinking _ _ _ => true
  | .text _ _ | .image _ _ | .toolCall _ _ _ => false

/-- What the target can be shown of a message as it is: no cache control that it lacks, of a user no
image that it lacks, unless the message is the last, and of an assistant no thinking but its own. -/
def MessageFits (targetApi : ProviderApi) (targetProvider : String) (isLast : Prop) :
    CanonicalMessage → Prop
  | .user content _ =>
    (∀ block ∈ content, isImage block = true →
      (ReplayCapabilities.forApi targetApi).supportsImages = true ∨ isLast) ∧
    ((ReplayCapabilities.forApi targetApi).supportsCacheControl = true ∨
      content.any contentUsesCacheControl = false)
  | .assistant content api provider _ _ _ _ _ =>
    (content.any isThinking = true → api = targetApi ∧ provider = targetProvider) ∧
    ((ReplayCapabilities.forApi targetApi).supportsCacheControl = true ∨
      content.any contentUsesCacheControl = false)
  | .toolResult toolCallId toolName content isError cacheControl timestampMs =>
    (ReplayCapabilities.forApi targetApi).supportsCacheControl = true ∨
      messageUsesCacheControl
        (.toolResult toolCallId toolName content isError cacheControl timestampMs) = false

def Fits (targetApi : ProviderApi) (targetProvider : String) (messages : List CanonicalMessage) : Prop :=
  ∀ index message, messages[index]? = some message →
    MessageFits targetApi targetProvider (index + 1 = messages.length) message

variable {block : CanonicalContent}

theorem strip_eq_self {capabilities : ReplayCapabilities} :
    (stripTextCacheControl capabilities block).1 = block ↔
      capabilities.supportsCacheControl = true ∨ contentUsesCacheControl block = false := by
  cases block with
  | text text cacheControl =>
    cases cacheControl with
    | none => simp [stripTextCacheControl, contentUsesCacheControl]
    | some cacheControl =>
      cases hsupports : capabilities.supportsCacheControl <;>
        simp [stripTextCacheControl, contentUsesCacheControl, hsupports]
  | image | thinking | toolCall => simp [stripTextCacheControl, contentUsesCacheControl]

theorem keptBlock_eq_self {capabilities : ReplayCapabilities} :
    (keptBlock capabilities block).1 = some block ↔
      capabilities.supportsCacheControl = true ∨ contentUsesCacheControl block = false := by
  rw [keptBlock, Option.some.injEq, strip_eq_self]

theorem userBlock_eq_self {isLatestUser : Bool} :
    (userBlock replay isLatestUser block).1 = some block ↔
      (isImage block = true → replay.capabilities.supportsImages = true ∨ isLatestUser = true) ∧
      (replay.capabilities.supportsCacheControl = true ∨ contentUsesCacheControl block = false) := by
  cases block with
  | image data mimeType =>
    cases himages : replay.capabilities.supportsImages <;> cases isLatestUser <;>
      simp [userBlock, himages, isImage, keptBlock, stripTextCacheControl, contentUsesCacheControl]
  | text | thinking | toolCall =>
    rw [userBlock, keptBlock_eq_self]
    · simp [isImage]
    · simp

theorem assistantBlock_eq_self {native : Bool} (himage : isImage block = false)
    (hcall : ∀ id, calledId block = some id → replay.survey.keepsCall id = true) :
    (assistantBlock replay native block).1 = some block ↔
      (isThinking block = true → native = true) ∧
      (replay.capabilities.supportsCacheControl = true ∨ contentUsesCacheControl block = false) := by
  cases block with
  | text text cacheControl =>
    rw [assistantBlock, keptBlock_eq_self]
    · simp [isThinking]
    all_goals simp
  | image data mimeType => cases himage
  | thinking text provider metadata =>
    cases native with
    | true => simp [assistantBlock, contentUsesCacheControl]
    | false =>
      rw [assistantBlock, if_neg Bool.false_ne_true]
      split <;> simp [isThinking]
  | toolCall id name arguments =>
    simp [assistantBlock, hcall id rfl, isThinking, contentUsesCacheControl]

theorem forall_and_or {α : Type} {l : List α} {p q : α → Prop} {c : Prop} :
    (∀ a ∈ l, p a ∧ (c ∨ q a)) ↔ (∀ a ∈ l, p a) ∧ (c ∨ ∀ a ∈ l, q a) := by
  by_cases hc : c
  · simp [hc]
  · simp [hc, forall_and]

section Fixed

variable {messages : List CanonicalMessage} {targetApi : ProviderApi} {targetProvider : String}

theorem Clean.keepsCall (h : Clean messages) (hcall : id ∈ messages.flatMap callIds) :
    (Survey.of messages).keepsCall id = true := by
  have hsurvey := Survey.describes_of messages
  have hduplicate := hsurvey.duplicate id
  rw [map_issues] at hduplicate
  obtain ⟨hsame, hfew⟩ := h.paired id
  have hpos := List.count_pos_iff.mpr hcall
  have hanswer : id ∈ messages.filterMap answeredId := List.count_pos_iff.mp (by omega)
  have hanswered : id ∈ (Survey.of messages).resultCallIds := by
    obtain ⟨message, hmem, hid⟩ := List.mem_filterMap.mp hanswer
    exact (hsurvey.answered id).mpr (List.mem_flatMap.mpr ⟨message, hmem, by simp [hid]⟩)
  have hnew : id ∉ (Survey.of messages).duplicateCallIds := fun hdup => by
    have := hduplicate.mp hdup
    omega
  simp [Survey.keepsCall, hnew, hanswered]

theorem Clean.keepsResult (h : Clean messages) (hplace : messages[index]? = some message)
    (hid : answeredId message = some id) :
    (replayOf messages targetApi targetProvider).issuerAlive id = true ∧
      id ∉ emittedThrough (replayOf messages targetApi targetProvider) []
        (messages.take index).zipIdx := by
  obtain ⟨hsame, hfew⟩ := h.paired id
  have hmem : id ∈ messages.filterMap answeredId :=
    List.mem_filterMap.mpr ⟨message, List.mem_of_getElem? hplace, hid⟩
  have hpos := List.count_pos_iff.mpr hmem
  refine ⟨(issuerAlive_replayOf id).mpr ⟨by omega, fun message hmem _ => h.healthy message hmem⟩, ?_⟩
  rw [mem_emittedThrough]
  rintro (hnil | ⟨-, ⟨earlier, place⟩, hearlier, hsame'⟩)
  · cases hnil
  · -- the call would be answered twice
    obtain ⟨hlt, hget⟩ := List.getElem?_eq_some_iff.mp hplace
    have hsplit : messages = messages.take index ++ message :: messages.drop (index + 1) := by
      rw [← hget, ← List.drop_eq_getElem_cons hlt, List.take_append_drop]
    have htaken : 0 < ((messages.take index).filterMap answeredId).count id :=
      List.count_pos_iff.mpr (List.mem_filterMap.mpr
        ⟨earlier, List.fst_mem_of_mem_zipIdx hearlier, hsame'⟩)
    have hcount : (messages.filterMap answeredId).count id =
        ((messages.take index).filterMap answeredId).count id +
          (1 + ((messages.drop (index + 1)).filterMap answeredId).count id) := by
      conv_lhs => rw [hsplit, List.filterMap_append, List.count_append,
        List.filterMap_cons_some hid, List.count_cons_self, Nat.add_comm (List.count _ _) 1]
    omega

theorem latest_iff_last (targetApi : ProviderApi) (targetProvider : String) {timestampMs : Int}
    (hplace : messages[index]? = some (.user content timestampMs)) :
    some index = (replayOf messages targetApi targetProvider).latestUserIndex ↔
      index + 1 = messages.length := by
  have hlt := (List.getElem?_eq_some_iff.mp hplace).1
  constructor
  · intro hsame
    rw [replayOf, latestUserIndex] at hsame
    split at hsame
    · have := Option.some.inj hsame
      omega
    · cases hsame
  · intro hlast
    have hget : messages.getLast? = some (.user content timestampMs) := by
      rw [List.getLast?_eq_getElem?, ← hplace]
      congr
      omega
    rw [replayOf, latestUserIndex, hget, ← hlast]
    rfl

theorem Clean.normalizeMessage_eq_self (h : Clean messages)
    (hplace : messages[index]? = some message) :
    (normalizeMessage (replayOf messages targetApi targetProvider)
        (emittedThrough (replayOf messages targetApi targetProvider) []
          (messages.take index).zipIdx) message index).1 = some message ↔
      MessageFits targetApi targetProvider (index + 1 = messages.length) message := by
  have hmem := List.mem_of_getElem? hplace
  have hlt := (List.getElem?_eq_some_iff.mp hplace).1
  cases message with
  | user content timestampMs =>
    have hlatest := latest_iff_last targetApi targetProvider hplace
    have hblank : content = [] → index + 1 = messages.length := by
      rintro rfl
      exact h.blank index timestampMs hplace
    have hsame : (normalizeMessage (replayOf messages targetApi targetProvider)
        (emittedThrough (replayOf messages targetApi targetProvider) []
          (messages.take index).zipIdx) (.user content timestampMs) index).1 =
          some (.user content timestampMs) ↔
        (keepBlocks (userBlock (replayOf messages targetApi targetProvider)
          (decide (some index = (replayOf messages targetApi targetProvider).latestUserIndex)))
          content).1 = content := by
      simp only [normalizeMessage]
      constructor
      · intro hkept
        split at hkept
        · cases hkept
        · exact (CanonicalMessage.user.inj (Option.some.inj hkept)).1
      · intro hkept
        rw [hkept]
        split
        · next hdropped =>
          simp only [Bool.and_eq_true, List.isEmpty_iff, Bool.not_eq_true',
            decide_eq_false_iff_not] at hdropped
          exact absurd (hlatest.mpr (hblank hdropped.1)) hdropped.2
        · rfl
    rw [hsame, keepBlocks_eq_self]
    simp only [userBlock_eq_self, decide_eq_true_eq, hlatest, forall_and_or, MessageFits,
      List.any_eq_false, Bool.not_eq_true]
    exact Iff.rfl
  | assistant content api provider model usage stopReason errorMessage timestampMs =>
    obtain ⟨hsolid, himages⟩ := h.said _ _ _ _ _ _ _ _ hmem
    have hsame : (normalizeMessage (replayOf messages targetApi targetProvider)
        (emittedThrough (replayOf messages targetApi targetProvider) []
          (messages.take index).zipIdx)
        (.assistant content api provider model usage stopReason errorMessage timestampMs) index).1 =
          some (.assistant content api provider model usage stopReason errorMessage timestampMs) ↔
        (keepBlocks (assistantBlock (replayOf messages targetApi targetProvider)
          (decide (api = targetApi) && decide (provider = targetProvider))) content).1 = content := by
      simp only [normalizeMessage, errored_replayOf hplace, h.healthy _ hmem, Bool.false_eq_true,
        if_false]
      constructor
      · intro hkept
        split at hkept
        · cases hkept
        · exact (CanonicalMessage.assistant.inj (Option.some.inj hkept)).1
      · intro hkept
        have hkept' : (keepBlocks (assistantBlock (replayOf messages targetApi targetProvider)
            (decide (api = (replayOf messages targetApi targetProvider).targetApi) &&
              decide (provider = (replayOf messages targetApi targetProvider).targetProvider)))
            content).1 = content := hkept
        rw [hkept', if_neg (by simpa using hsolid)]
    have hblocks : ∀ block ∈ content,
        (assistantBlock (replayOf messages targetApi targetProvider)
          (decide (api = targetApi) && decide (provider = targetProvider)) block).1 = some block ↔
        (isThinking block = true → api = targetApi ∧ provider = targetProvider) ∧
        ((ReplayCapabilities.forApi targetApi).supportsCacheControl = true ∨
          contentUsesCacheControl block = false) := by
      intro block hblock
      rw [assistantBlock_eq_self (by simpa using List.any_eq_false.mp himages block hblock)
        fun id hid => h.keepsCall (List.mem_flatMap.mpr
          ⟨_, hmem, List.mem_filterMap.mpr ⟨block, hblock, hid⟩⟩)]
      simp only [Bool.and_eq_true, decide_eq_true_eq]
      exact Iff.rfl
    rw [hsame, keepBlocks_eq_self, forall₂_congr hblocks, forall_and_or]
    simp only [MessageFits, List.any_eq_false, List.any_eq_true, Bool.not_eq_true]
    refine and_congr_left fun _ => ⟨fun hall hany => ?_, fun hall block hblock hthinking => ?_⟩
    · obtain ⟨block, hblock, hthinking⟩ := hany
      exact hall block hblock hthinking
    · exact hall ⟨block, hblock, hthinking⟩
  | toolResult toolCallId toolName content isError cacheControl timestampMs =>
    have hkeeps : (replayOf messages targetApi targetProvider).issuerAlive toolCallId = true ∧ _ :=
      h.keepsResult hplace rfl
    obtain ⟨halive, hemitted⟩ := hkeeps
    simp only [normalizeMessage, halive, hemitted, Bool.not_true, Bool.false_eq_true, if_false]
    have hcapabilities : (replayOf messages targetApi targetProvider).capabilities =
        ReplayCapabilities.forApi targetApi := rfl
    rw [hcapabilities]
    cases hsupports : (ReplayCapabilities.forApi targetApi).supportsCacheControl with
    | true =>
      have hkept : (keepBlocks (keptBlock (ReplayCapabilities.forApi targetApi)) content).1 =
          content := keepBlocks_same fun block _ => keptBlock_eq_self.mpr (.inl hsupports)
      simp [hkept, MessageFits, hsupports]
    | false =>
      have hblocks : (keepBlocks (keptBlock (ReplayCapabilities.forApi targetApi)) content).1 =
          content ↔ content.any contentUsesCacheControl = false := by
        rw [keepBlocks_eq_self, List.any_eq_false]
        simp only [keptBlock_eq_self, hsupports, Bool.false_eq_true, false_or, Bool.not_eq_true]
      cases cacheControl with
      | none => simp [MessageFits, hsupports, messageUsesCacheControl, hblocks]
      | some cacheControl => simp [MessageFits, hsupports, messageUsesCacheControl]

/-- **When a clean history is shown as it is**: exactly if it fits the target. -/
theorem normalize_eq_self_iff (h : Clean messages) :
    (normalizeHistoryForTarget messages targetApi targetProvider).messages = messages ↔
      Fits targetApi targetProvider messages := by
  rw [normalize_eq_self]
  exact forall₃_congr fun index message hplace => h.normalizeMessage_eq_self hplace

end Fixed

/-! ### The target itself -/

theorem assistantBlock_isThinking {kept : CanonicalContent}
    (hkept : (assistantBlock replay false block).1 = some kept) : isThinking kept = false := by
  cases block with
  | text text cacheControl =>
    obtain rfl := Option.some.inj hkept
    cases cacheControl with
    | none => rfl
    | some cacheControl =>
      simp only [stripTextCacheControl]
      split <;> rfl
  | image data mimeType => cases hkept
  | thinking text provider metadata =>
    rw [assistantBlock, if_neg Bool.false_ne_true] at hkept
    split at hkept
    · cases hkept
    · cases hkept
      rfl
  | toolCall id name arguments =>
    rw [assistantBlock] at hkept
    split at hkept
    · cases hkept
      rfl
    · cases hkept

/-- **The outcome fits the target that it was made for.** -/
theorem fits_normalize (messages : List CanonicalMessage) (targetApi : ProviderApi)
    (targetProvider : String) :
    Fits targetApi targetProvider
      (normalizeHistoryForTarget messages targetApi targetProvider).messages := by
  intro index kept hplace
  obtain ⟨message, place, -, hkept⟩ := mem_normalize.mp (List.mem_of_getElem? hplace)
  have hcache : (ReplayCapabilities.forApi targetApi).supportsCacheControl = true ∨
      messageUsesCacheControl kept = false := by
    cases hsupports : (ReplayCapabilities.forApi targetApi).supportsCacheControl with
    | true => exact .inl rfl
    | false =>
      have hlacks : (replayOf messages targetApi
          targetProvider).capabilities.supportsCacheControl = false := hsupports
      exact .inr (message_usesCacheControl hlacks hkept)
  cases kept with
  | user content timestampMs =>
    refine ⟨fun block hblock himage => ?_, hcache⟩
    cases hsupports : (ReplayCapabilities.forApi targetApi).supportsImages with
    | true => exact .inl rfl
    | false =>
      have hlacks : (replayOf messages targetApi
          targetProvider).capabilities.supportsImages = false := hsupports
      right
      refine last_of_latest (fun emitted message place hmade => ?_) hplace
      have hshows : showsImage (.user content timestampMs) = true :=
        List.any_eq_true.mpr ⟨block, hblock, himage⟩
      obtain ⟨-, hanswer | ⟨-, hlatest⟩⟩ :=
        (showsImage_normalizeMessage hlacks hmade).mp hshows
      · generalize hshown : CanonicalMessage.user content timestampMs = kept at hmade
        cases Keeps.of_normalizeMessage hmade with
        | user | assistant => cases hanswer
        | toolResult => cases hshown
      · exact hlatest
  | assistant content api provider model usage stopReason errorMessage timestampMs =>
    refine ⟨fun hthinking => ?_, hcache⟩
    cases Keeps.of_normalizeMessage hkept with
    | @assistant source _ _ _ _ _ _ _ native hnative =>
      cases native with
      | true => exact hnative.mp rfl
      | false =>
        have hnone : (keepBlocks (assistantBlock (replayOf messages targetApi targetProvider)
            false) source).1.any isThinking = false :=
          any_keepBlocks (fun block kept => assistantBlock_isThinking) source
        cases hthinking.symm.trans hnone
  | toolResult => exact hcache

theorem normalize_idempotent (messages : List CanonicalMessage) (targetApi : ProviderApi)
    (targetProvider : String) :
    (normalizeHistoryForTarget (normalizeHistoryForTarget messages targetApi targetProvider).messages
      targetApi targetProvider).messages =
      (normalizeHistoryForTarget messages targetApi targetProvider).messages :=
  (normalize_eq_self_iff (clean_normalize messages targetApi targetProvider)).mpr
    (fits_normalize messages targetApi targetProvider)

end Verlet.Provider
