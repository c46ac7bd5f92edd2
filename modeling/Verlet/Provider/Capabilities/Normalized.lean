import Verlet.Provider.Capabilities
import Verlet.Provider.Transform.Kept

/-!
# Provider — What a normalized history asks of a provider

* `usesCacheControl_normalize`: no cache control is left for an API without.
-/

namespace Verlet.Provider
open Support History
open Agent (ProviderRequest)
open ProviderCapabilityRecord (forApi)

variable {capabilities : ReplayCapabilities} {block : CanonicalContent}

section Message

variable {replay : Replay} {emitted : List String} {message kept : CanonicalMessage} {index : Nat}

/-! ### Cache controls -/

theorem strip_usesCacheControl (h : capabilities.supportsCacheControl = false)
    (block : CanonicalContent) :
    contentUsesCacheControl (stripTextCacheControl capabilities block).1 = false := by
  cases block with
  | text text cacheControl =>
    cases cacheControl with
    | none => rfl
    | some cacheControl =>
      rw [stripTextCacheControl, if_neg (by simp [h])]
      rfl
  | image | thinking | toolCall => rfl

theorem keptBlock_usesCacheControl (h : capabilities.supportsCacheControl = false)
    {kept : CanonicalContent} (hkept : (keptBlock capabilities block).1 = some kept) :
    contentUsesCacheControl kept = false := by
  obtain rfl := Option.some.inj hkept
  exact strip_usesCacheControl h block

theorem userBlock_usesCacheControl (h : replay.capabilities.supportsCacheControl = false)
    {isLatestUser : Bool} {kept : CanonicalContent}
    (hkept : (userBlock replay isLatestUser block).1 = some kept) :
    contentUsesCacheControl kept = false := by
  cases block with
  | image data mimeType =>
    rw [userBlock] at hkept
    split at hkept
    · cases hkept
    · exact keptBlock_usesCacheControl h hkept
  | text | thinking | toolCall => exact keptBlock_usesCacheControl h hkept

theorem assistantBlock_usesCacheControl (h : replay.capabilities.supportsCacheControl = false)
    {native : Bool} {kept : CanonicalContent}
    (hkept : (assistantBlock replay native block).1 = some kept) :
    contentUsesCacheControl kept = false := by
  cases block with
  | text text cacheControl => exact keptBlock_usesCacheControl h hkept
  | image data mimeType => cases hkept
  | thinking text provider metadata =>
    rw [assistantBlock] at hkept
    split at hkept
    · cases hkept
      rfl
    · split at hkept
      · cases hkept
      · cases hkept
        rfl
  | toolCall id name arguments =>
    rw [assistantBlock] at hkept
    split at hkept
    · cases hkept
      rfl
    · cases hkept

theorem any_keepBlocks {read : CanonicalContent → Option CanonicalContent × ReplayTransformCounts}
    {p : CanonicalContent → Bool} (h : ∀ block kept, (read block).1 = some kept → p kept = false)
    (blocks : List CanonicalContent) : (keepBlocks read blocks).1.any p = false := by
  rw [List.any_eq_false]
  intro kept hkept
  obtain ⟨block, -, hread⟩ := mem_keepBlocks.mp hkept
  simp [h block kept hread]

/-- **No cache control is left** for an API that has none. -/
theorem message_usesCacheControl (h : replay.capabilities.supportsCacheControl = false)
    (hkept : (normalizeMessage replay emitted message index).1 = some kept) :
    messageUsesCacheControl kept = false := by
  cases Keeps.of_normalizeMessage hkept with
  | user => exact any_keepBlocks (fun block kept => userBlock_usesCacheControl h) _
  | assistant => exact any_keepBlocks (fun block kept => assistantBlock_usesCacheControl h) _
  | @toolResult _ _ content _ _ _ _ _ _ hcache =>
    have hcontent : (keepBlocks (keptBlock replay.capabilities) content).1.any
        contentUsesCacheControl = false :=
      any_keepBlocks (fun block kept => keptBlock_usesCacheControl h) content
    simp [messageUsesCacheControl, hcontent, hcache h]

/-! ### Images -/

@[simp] theorem isImage_strip (capabilities : ReplayCapabilities) (block : CanonicalContent) :
    isImage (stripTextCacheControl capabilities block).1 = isImage block := by
  cases block with
  | text text cacheControl =>
    cases cacheControl with
    | none => rfl
    | some cacheControl =>
      rw [stripTextCacheControl]
      split <;> rfl
  | image | thinking | toolCall => rfl

theorem keptBlock_isImage {kept : CanonicalContent}
    (hkept : (keptBlock capabilities block).1 = some kept) : isImage kept = isImage block := by
  obtain rfl := Option.some.inj hkept
  exact isImage_strip capabilities block

theorem userBlock_isImage (h : replay.capabilities.supportsImages = false) {kept : CanonicalContent}
    (hkept : (userBlock replay false block).1 = some kept) : isImage kept = false := by
  cases block with
  | image data mimeType =>
    rw [userBlock, h] at hkept
    cases hkept
  | text | thinking | toolCall => exact (keptBlock_isImage hkept).trans rfl

theorem latestUserBlock_isImage {kept : CanonicalContent}
    (hkept : (userBlock replay true block).1 = some kept) : isImage kept = isImage block := by
  cases block with
  | image data mimeType =>
    rw [userBlock, Bool.not_true, Bool.and_false, if_neg Bool.false_ne_true] at hkept
    exact keptBlock_isImage hkept
  | text | thinking | toolCall => exact keptBlock_isImage hkept

theorem assistantBlock_isImage {native : Bool} {kept : CanonicalContent}
    (hkept : (assistantBlock replay native block).1 = some kept) : isImage kept = false := by
  cases block with
  | text text cacheControl => exact (keptBlock_isImage hkept).trans rfl
  | image data mimeType => cases hkept
  | thinking text provider metadata =>
    rw [assistantBlock] at hkept
    split at hkept
    · cases hkept
      rfl
    · split at hkept
      · cases hkept
      · cases hkept
        rfl
  | toolCall id name arguments =>
    rw [assistantBlock] at hkept
    split at hkept
    · cases hkept
      rfl
    · cases hkept

theorem any_isImage_keptBlocks (capabilities : ReplayCapabilities) (content : List CanonicalContent) :
    (keepBlocks (keptBlock capabilities) content).1.any isImage = content.any isImage := by
  induction content with
  | nil => rfl
  | cons block content ih => simp [keepBlocks, keptBlock, ih]

/-- The images of a message that are left for an API that takes none: those of a tool result, and those
of the last message, where it is a user's. -/
theorem showsImage_normalizeMessage (h : replay.capabilities.supportsImages = false)
    (hkept : (normalizeMessage replay emitted message index).1 = some kept) :
    showsImage kept = true ↔ showsImage message = true ∧
      ((answeredId message).isSome ∨
        (∃ content timestampMs, message = .user content timestampMs) ∧
          some index = replay.latestUserIndex) := by
  cases Keeps.of_normalizeMessage hkept with
  | @user content timestampMs isLatestUser hlatest =>
    simp only [showsImage, contentOf, List.any_eq_true, mem_keepBlocks, ← hlatest]
    cases isLatestUser with
    | true =>
      constructor
      · rintro ⟨block, ⟨source, hsource, hread⟩, himage⟩
        exact ⟨⟨source, hsource, (latestUserBlock_isImage hread).symm.trans himage⟩,
          .inr ⟨⟨content, timestampMs, rfl⟩, rfl⟩⟩
      · rintro ⟨⟨source, hsource, himage⟩, -⟩
        cases hread : (userBlock replay true source).1 with
        | some block =>
          exact ⟨block, ⟨source, hsource, hread⟩, (latestUserBlock_isImage hread).trans himage⟩
        | none => cases source <;> simp [userBlock, keptBlock] at hread
    | false =>
      constructor
      · rintro ⟨block, ⟨source, -, hread⟩, himage⟩
        cases himage.symm.trans (userBlock_isImage h hread)
      · rintro ⟨-, hanswer | ⟨-, hfalse⟩⟩
        · cases hanswer
        · cases hfalse
  | @assistant content _ _ _ _ _ _ _ native =>
    have hnone : (keepBlocks (assistantBlock replay native) content).1.any isImage = false :=
      any_keepBlocks (fun block kept => assistantBlock_isImage) content
    simp [showsImage, contentOf, hnone, answeredId]
  | @toolResult _ _ content =>
    have hsame := any_isImage_keptBlocks replay.capabilities content
    simp only [showsImage, contentOf, hsame, answeredId, Option.isSome_some, true_or, and_true]

theorem isSome_normalizeMessage_result {id : String} (hanswer : answeredId message = some id) :
    (normalizeMessage replay emitted message index).1.isSome = true ↔
      replay.issuerAlive id = true ∧ id ∉ emitted := by
  have hkept := answeredId_normalizeMessage replay emitted message index
  rw [hanswer, Option.filter_some] at hkept
  constructor
  · intro hsome
    obtain ⟨kept, hkept'⟩ := Option.isSome_iff_exists.mp hsome
    cases Keeps.of_normalizeMessage hkept' with
    | user | assistant => cases hanswer
    | toolResult halive hnew =>
      obtain rfl := Option.some.inj hanswer
      exact ⟨halive, hnew⟩
  · rintro ⟨halive, hemitted⟩
    simp only [halive, hemitted, not_false_eq_true, decide_true, Bool.and_self, if_true] at hkept
    cases hmade : (normalizeMessage replay emitted message index).1 with
    | none =>
      rw [hmade] at hkept
      cases hkept
    | some kept => rfl

end Message

/-! ### Requests -/

section History

variable {history : List CanonicalMessage} {api : ProviderApi} {provider : String}

/-- At this place stands a tool result that a target is shown: the first answer to a call that one
message issued alone, which did not fail. -/
def Stays (history : List CanonicalMessage) (index : Nat) (message : CanonicalMessage) : Prop :=
  history[index]? = some message ∧ ∃ id, answeredId message = some id ∧ IssuedOnce history id ∧
    ∀ earlier ∈ history.take index, answeredId earlier ≠ some id

theorem usesCacheControl_normalize (h : (ReplayCapabilities.forApi api).supportsCacheControl = false) :
    (normalizeHistoryForTarget history api provider).messages.any messageUsesCacheControl = false := by
  rw [List.any_eq_false]
  intro kept hmem
  obtain ⟨message, index, -, hkept⟩ := mem_normalize.mp hmem
  have hnone := message_usesCacheControl
    (show (replayOf history api provider).capabilities.supportsCacheControl = false from h) hkept
  simp [hnone]

/-- **Which images are left** for an API that takes none, where the last message is no user's with an
image: those of the tool results. -/
theorem showsImage_normalize_iff (h : (ReplayCapabilities.forApi api).supportsImages = false)
    (hlast : ∀ content timestampMs, history.getLast? = some (.user content timestampMs) →
      content.any isImage = false) :
    (normalizeHistoryForTarget history api provider).messages.any showsImage = true ↔
      ∃ index message, Stays history index message ∧ showsImage message = true := by
  have himages : (replayOf history api provider).capabilities.supportsImages = false := h
  rw [List.any_eq_true]
  constructor
  · rintro ⟨kept, hmem, hshows⟩
    obtain ⟨message, index, hplace, hkept⟩ := mem_normalize.mp hmem
    obtain ⟨hshown, hanswer | ⟨⟨content, timestampMs, rfl⟩, hlatest⟩⟩ :=
      (showsImage_normalizeMessage himages hkept).mp hshows
    · obtain ⟨id, hid⟩ := Option.isSome_iff_exists.mp hanswer
      obtain ⟨halive, hemitted⟩ :=
        (isSome_normalizeMessage_result hid).mp (Option.isSome_iff_exists.mpr ⟨kept, hkept⟩)
      refine ⟨index, message, ⟨hplace, id, hid, (issuerAlive_replayOf id).mp halive, ?_⟩, hshown⟩
      intro earlier hearlier hsame
      refine hemitted (mem_emittedThrough.mpr (.inr ⟨halive, ?_⟩))
      obtain ⟨place, hfound⟩ := List.mem_iff_getElem?.mp hearlier
      exact ⟨(earlier, place), List.mem_zipIdx_iff_getElem?.mpr hfound, hsame⟩
    · -- the place is the last, and the last message has no image
      rw [replayOf, latestUserIndex] at hlatest
      split at hlatest
      · next content' timestampMs' hgetLast =>
        obtain rfl := Option.some.inj hlatest
        rw [List.getLast?_eq_getElem?] at hgetLast
        obtain ⟨rfl, rfl⟩ := CanonicalMessage.user.inj
          (Option.some.inj (hplace.symm.trans hgetLast))
        have hnone := hlast content timestampMs (List.getLast?_eq_getElem? ▸ hgetLast)
        rw [showsImage, contentOf, hnone] at hshown
        cases hshown
      · cases hlatest
  · rintro ⟨index, message, ⟨hplace, id, hid, hissued, hfirst⟩, hshown⟩
    have halive : (replayOf history api provider).issuerAlive id = true :=
      (issuerAlive_replayOf id).mpr hissued
    have hemitted : id ∉ emittedThrough (replayOf history api provider) []
        (history.take index).zipIdx := by
      rw [mem_emittedThrough]
      rintro (hnil | ⟨-, ⟨earlier, place⟩, hmem, hsame⟩)
      · cases hnil
      · exact hfirst earlier (List.fst_mem_of_mem_zipIdx hmem) hsame
    have hsome : (normalizeMessage (replayOf history api provider) _ message index).1.isSome = true :=
      (isSome_normalizeMessage_result hid).mpr ⟨halive, hemitted⟩
    obtain ⟨kept, hkept⟩ := Option.isSome_iff_exists.mp hsome
    exact ⟨kept, mem_normalize.mpr ⟨message, index, hplace, hkept⟩,
      (showsImage_normalizeMessage himages hkept).mpr
        ⟨hshown, .inl (Option.isSome_iff_exists.mpr ⟨id, hid⟩)⟩⟩

end History

/-- One of the three APIs with capabilities of their own. -/
def BuiltIn (api : ProviderApi) : Prop :=
  api = .openAIResponses ∨ api = .openAIChatCompletions ∨ api = .anthropicMessages

/-- The system blocks and the tools of the request carry no cache control. -/
def Unmarked (request : ProviderRequest) : Prop :=
  (∀ block ∈ request.system, block.cacheControl = none) ∧
    ∀ tool ∈ request.tools, tool.cacheControl = none

theorem builtIn_validates_iff {api : ProviderApi} (hbuiltIn : BuiltIn api) {request : ProviderRequest}
    (hapi : request.api = api) (thinking : Option ThinkingConfig) :
    (∀ mode, (forApi api).validateRequest request thinking mode = .ok ()) ↔
      ((forApi api).supportsCacheControl = true ∨
        requestUsesCacheControl request = false) ∧
      ((forApi api).supportsImages = true ∨
        requestUsesImages request = false) := by
  have : Nonempty ProviderRequestMode := ⟨.complete⟩
  simp only [validateRequest_ok]
  rcases hbuiltIn with rfl | rfl | rfl <;>
    simp [forApi, hapi]

/-- **When a normalized history is taken.**  A request to a built-in API whose messages are a history
normalized for it is taken in both modes exactly if the API takes images or no tool result that the
API is shown has one. -/
theorem normalized_validates_iff (api : ProviderApi) (hbuiltIn : BuiltIn api)
    (history : List CanonicalMessage) (provider : String) (request : ProviderRequest)
    (thinking : Option ThinkingConfig) (hapi : request.api = api)
    (hmessages : request.messages = (normalizeHistoryForTarget history api provider).messages)
    (hunmarked : (forApi api).supportsCacheControl = false →
      Unmarked request)
    (hlast : (forApi api).supportsImages = false →
      ∀ content timestampMs, history.getLast? = some (.user content timestampMs) →
        content.any isImage = false) :
    (∀ mode, (forApi api).validateRequest request thinking mode = .ok ()) ↔
      (forApi api).supportsImages = true ∨
        ∀ index message, Stays history index message → showsImage message = false := by
  have hcapabilities := forApi_capabilities api
  have hcache : (forApi api).supportsCacheControl = true ∨
      requestUsesCacheControl request = false := by
    cases hsupports : (forApi api).supportsCacheControl with
    | true => exact .inl rfl
    | false =>
      right
      obtain ⟨hsystem, htools⟩ := hunmarked hsupports
      have hnone : (normalizeHistoryForTarget history api provider).messages.any
          messageUsesCacheControl = false :=
        usesCacheControl_normalize (by rw [hcapabilities, hsupports])
      rw [requestUsesCacheControl, hmessages, hnone, Bool.or_false, Bool.or_eq_false_iff,
        List.any_eq_false, List.any_eq_false]
      exact ⟨fun block hblock => by simp [hsystem block hblock],
        fun tool htool => by simp [htools tool htool]⟩
  rw [builtIn_validates_iff hbuiltIn hapi, and_iff_right hcache]
  cases hsupports : (forApi api).supportsImages with
  | true => simp
  | false =>
    have hiff : (normalizeHistoryForTarget history api provider).messages.any showsImage = true ↔
        ∃ index message, Stays history index message ∧ showsImage message = true :=
      showsImage_normalize_iff (by rw [hcapabilities, hsupports]) (hlast hsupports)
    rw [requestUsesImages, hmessages, ← Bool.not_eq_true, hiff]
    simp only [Bool.false_eq_true, false_or, not_exists, not_and, Bool.not_eq_true]

/-! ### Samples -/

/-- A call of the assistant and its result. -/
def sampleHistory (content : List CanonicalContent) : List CanonicalMessage :=
  [.userTextAt "look" 1,
    .assistant [.toolCall "call" "screenshot" (.obj [])] .openAIChatCompletions "provider" "model"
      ⟨0, 0, 0, 0⟩ .toolUse none 2,
    .toolResult "call" "screenshot" content false none 3]

def sampleRequest (content : List CanonicalContent) : ProviderRequest where
  api := .openAIChatCompletions
  provider := "provider"
  model := "model"
  system := []
  messages := (normalizeHistoryForTarget (sampleHistory content) .openAIChatCompletions
    "provider").messages
  tools := []
  maxTokens := 1024

theorem normalized_validates_text :
    (∀ mode, (forApi .openAIChatCompletions).validateRequest
        (sampleRequest [.text "seen" none]) none mode = .ok ()) ↔
      (forApi .openAIChatCompletions).supportsImages = true ∨
        ∀ index message, Stays (sampleHistory [.text "seen" none]) index message →
          showsImage message = false :=
  normalized_validates_iff .openAIChatCompletions (.inr (.inl rfl)) (sampleHistory [.text "seen" none])
    "provider" _ none rfl rfl (fun _ => ⟨nofun, nofun⟩) (fun _ _ _ h => by simp [sampleHistory] at h)

/-- **A tool result with an image is never taken** by an API without images. -/
theorem imageResult_refused :
    (sampleHistory [.image "data" "image/png"]).getLast? =
      some (.toolResult "call" "screenshot" [.image "data" "image/png"] false none 3) ∧
    (forApi .openAIChatCompletions).validateRequest
      (sampleRequest [.image "data" "image/png"]) none .complete =
      .error (.unsupportedCapability "openai_chat_completions" .openAIChatCompletions "images"
        "image content was provided") := by
  decide

end Verlet.Provider
