import Verlet.Support.Maps
import Verlet.Provider.Context

/-!
# Provider — History for a target

`normalize_history_for_target`: what of a history can be replayed to a target API.  A first pass finds
who issued each call, which calls were issued twice and which were answered; the second one selects
and arranges, and counts what it changed.
-/

namespace Verlet.Provider
open Support History

/-- `supports_images` and `supports_cache_control` of `ProviderCapabilityRecord::for_api`. -/
structure ReplayCapabilities where
  supportsImages : Bool
  supportsCacheControl : Bool

/-- `ProviderCapabilityRecord::for_api`. -/
def ReplayCapabilities.forApi : ProviderApi → ReplayCapabilities
  | .openAIResponses       => ⟨true, false⟩
  | .openAIChatCompletions => ⟨false, false⟩
  | .anthropicMessages     => ⟨true, true⟩
  | .other _               => ⟨false, false⟩

structure ReplayTransformCounts where
  thinkingConverted : Nat := 0
  thinkingDropped : Nat := 0
  imagesDropped : Nat := 0
  cacheControlsStripped : Nat := 0
  danglingToolCallsDropped : Nat := 0
  unpairedToolResultsDropped : Nat := 0
  duplicateToolResultsDropped : Nat := 0
  erroredAssistantsDropped : Nat := 0
  emptyAssistantsDropped : Nat := 0
deriving DecidableEq

/-- `add_assign`. -/
def ReplayTransformCounts.add (a b : ReplayTransformCounts) : ReplayTransformCounts where
  thinkingConverted := a.thinkingConverted + b.thinkingConverted
  thinkingDropped := a.thinkingDropped + b.thinkingDropped
  imagesDropped := a.imagesDropped + b.imagesDropped
  cacheControlsStripped := a.cacheControlsStripped + b.cacheControlsStripped
  danglingToolCallsDropped := a.danglingToolCallsDropped + b.danglingToolCallsDropped
  unpairedToolResultsDropped := a.unpairedToolResultsDropped + b.unpairedToolResultsDropped
  duplicateToolResultsDropped := a.duplicateToolResultsDropped + b.duplicateToolResultsDropped
  erroredAssistantsDropped := a.erroredAssistantsDropped + b.erroredAssistantsDropped
  emptyAssistantsDropped := a.emptyAssistantsDropped + b.emptyAssistantsDropped

instance : Add ReplayTransformCounts := ⟨ReplayTransformCounts.add⟩

structure ReplayTransform where
  messages : List CanonicalMessage
  counts : ReplayTransformCounts

/-! ### The first pass -/

/-- The assistant's turn ended in an error or was cancelled. -/
def isErrored : CanonicalMessage → Bool
  | .assistant _ _ _ _ _ stopReason _ _ => stopReason = .error || stopReason = .cancelled
  | .user _ _ | .toolResult _ _ _ _ _ _ => false

/-- What the first pass collects. -/
structure Survey where
  issuerByCallId : Map String Nat
  duplicateCallIds : List String
  resultCallIds : List String

/-- One call of the message at this place. -/
def Survey.call (index : Nat) (survey : Survey) (id : String) : Survey :=
  { survey with
    issuerByCallId := survey.issuerByCallId.insert id index
    duplicateCallIds := if (survey.issuerByCallId.lookup id).isSome then
      id :: survey.duplicateCallIds else survey.duplicateCallIds }

def Survey.message (survey : Survey) (message : CanonicalMessage) (index : Nat) : Survey :=
  let called := (callIds message).foldl (Survey.call index) survey
  { called with resultCallIds := (answeredId message).toList ++ called.resultCallIds }

/-- The first pass. -/
def Survey.of (messages : List CanonicalMessage) : Survey :=
  messages.zipIdx.foldl (fun survey (message, index) => survey.message message index) ⟨∅, [], []⟩

/-! ### The second pass -/

/-- The target of a replay, and what the first pass found. -/
structure Replay where
  targetApi : ProviderApi
  targetProvider : String
  survey : Survey
  errored : List Bool
  latestUserIndex : Option Nat

def Replay.capabilities (replay : Replay) : ReplayCapabilities := .forApi replay.targetApi

def stripTextCacheControl (capabilities : ReplayCapabilities) (block : CanonicalContent) :
    CanonicalContent × ReplayTransformCounts :=
  match block with
  | .text text (some cacheControl) =>
    if capabilities.supportsCacheControl then (.text text (some cacheControl), {})
    else (.text text none, { cacheControlsStripped := 1 })
  | block => (block, {})

def keepBlocks (read : CanonicalContent → Option CanonicalContent × ReplayTransformCounts) :
    List CanonicalContent → List CanonicalContent × ReplayTransformCounts
  | []              => ([], {})
  | block :: blocks =>
    ((read block).1.toList ++ (keepBlocks read blocks).1, (read block).2 + (keepBlocks read blocks).2)

def keptBlock (capabilities : ReplayCapabilities) (block : CanonicalContent) :
    Option CanonicalContent × ReplayTransformCounts :=
  (some (stripTextCacheControl capabilities block).1, (stripTextCacheControl capabilities block).2)

def userBlock (replay : Replay) (isLatestUser : Bool) (block : CanonicalContent) :
    Option CanonicalContent × ReplayTransformCounts :=
  match block with
  | .image data mimeType =>
    if !replay.capabilities.supportsImages && !isLatestUser then (none, { imagesDropped := 1 })
    else keptBlock replay.capabilities (.image data mimeType)
  | block => keptBlock replay.capabilities block

/-- A call is kept that was issued once and answered. -/
def Survey.keepsCall (survey : Survey) (id : String) : Bool :=
  id ∉ survey.duplicateCallIds && id ∈ survey.resultCallIds

def assistantBlock (replay : Replay) (native : Bool) (block : CanonicalContent) :
    Option CanonicalContent × ReplayTransformCounts :=
  match block with
  | .thinking text provider metadata =>
    if native then (some (.thinking text provider metadata), {})
    else if trim text = "" then (none, { thinkingDropped := 1 })
    else (some (.text ("<thinking>\n" ++ text ++ "\n</thinking>") none), { thinkingConverted := 1 })
  | .image _ _ => (none, { imagesDropped := 1 })
  | .toolCall id name arguments =>
    if replay.survey.keepsCall id then (some (.toolCall id name arguments), {})
    else (none, { danglingToolCallsDropped := 1 })
  | block => keptBlock replay.capabilities block

def Replay.issuerAlive (replay : Replay) (id : String) : Bool :=
  match replay.survey.issuerByCallId.lookup id with
  | some issuer => id ∉ replay.survey.duplicateCallIds && !(replay.errored[issuer]?.getD false)
  | none        => false

/-- One message of the second pass, after these results were kept. -/
def normalizeMessage (replay : Replay) (emitted : List String) (message : CanonicalMessage)
    (index : Nat) : Option CanonicalMessage × ReplayTransformCounts :=
  match message with
  | .user content timestampMs =>
    let isLatestUser := some index = replay.latestUserIndex
    let (kept, counts) := keepBlocks (userBlock replay isLatestUser) content
    if kept.isEmpty && !isLatestUser then (none, counts)
    else (some (.user kept timestampMs), counts)
  | .assistant content api provider model usage stopReason errorMessage timestampMs =>
    if replay.errored[index]?.getD false then (none, { erroredAssistantsDropped := 1 })
    else
      let native := api = replay.targetApi && provider = replay.targetProvider
      let (kept, counts) := keepBlocks (assistantBlock replay native) content
      if kept.isEmpty then (none, counts + { emptyAssistantsDropped := 1 })
      else (some (.assistant kept api provider model usage stopReason errorMessage timestampMs),
        counts)
  | .toolResult toolCallId toolName content isError cacheControl timestampMs =>
    if !replay.issuerAlive toolCallId then (none, { unpairedToolResultsDropped := 1 })
    else if toolCallId ∈ emitted then (none, { duplicateToolResultsDropped := 1 })
    else
      let (kept, counts) := keepBlocks (keptBlock replay.capabilities) content
      if cacheControl.isSome && !replay.capabilities.supportsCacheControl then
        (some (.toolResult toolCallId toolName kept isError none timestampMs),
          { cacheControlsStripped := 1 } + counts)
      else (some (.toolResult toolCallId toolName kept isError cacheControl timestampMs), counts)

/-- The second pass from a place on. -/
def normalizeFrom (replay : Replay) (emitted : List String) :
    List (CanonicalMessage × Nat) → ReplayTransform
  | [] => ⟨[], {}⟩
  | (message, index) :: rest =>
    let (kept, counts) := normalizeMessage replay emitted message index
    let later := normalizeFrom replay ((kept.bind answeredId).toList ++ emitted) rest
    ⟨kept.toList ++ later.messages, counts + later.counts⟩

/-- `latest_user_index`: the last message, where it is a user's. -/
def latestUserIndex (messages : List CanonicalMessage) : Option Nat :=
  match messages.getLast? with
  | some (.user _ _) => some (messages.length - 1)
  | _                => none

def normalizeHistoryForTarget (messages : List CanonicalMessage) (targetApi : ProviderApi)
    (targetProvider : String) : ReplayTransform :=
  normalizeFrom
    { targetApi, targetProvider, survey := .of messages, errored := messages.map isErrored,
      latestUserIndex := latestUserIndex messages }
    [] messages.zipIdx

end Verlet.Provider
