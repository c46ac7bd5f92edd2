import Verlet.Contracts.Values

/-!
# History — Messages

The canonical conversation messages and the session entries that carry them, with what a read of
the history makes visible to the model: messages in order, a compaction replacing everything
before it by its summary.
-/

namespace Verlet.History

/-! ### Identities -/

structure ThreadId where
  uuid : Uuid
deriving DecidableEq

structure SessionEntryId where
  uuid : Uuid
deriving DecidableEq

structure EventRecordId where
  uuid : Uuid
deriving DecidableEq

structure ThreadCheckpointId where
  uuid : Uuid
deriving DecidableEq

/-- `EventStreamId`, a string. -/
structure EventStreamId where
  text : String
deriving DecidableEq

/-- `EventSequence`, 1-based. -/
abbrev EventSequence := Int

structure ThreadScope where
  tenantId : String
  userId : String
  sessionId : String
deriving DecidableEq

structure ThreadCoordinates where
  tenantId : String
  userId : String
  sessionId : String
  threadId : ThreadId
deriving DecidableEq

def ThreadCoordinates.scope (c : ThreadCoordinates) : ThreadScope :=
  ⟨c.tenantId, c.userId, c.sessionId⟩

def coordinatesWithThreadId (coordinates : ThreadCoordinates) (threadId : ThreadId) :
    ThreadCoordinates :=
  { coordinates with threadId }

/-- `EventStreamId::for_thread`: `thread:` and the thread's UUID. -/
def EventStreamId.forThread (coordinates : ThreadCoordinates) : EventStreamId :=
  ⟨"thread:" ++ coordinates.threadId.uuid.text⟩

theorem EventStreamId.forThread_inj {c c' : ThreadCoordinates} :
    forThread c = forThread c' ↔ c.threadId = c'.threadId := by
  refine ⟨fun h => ?_, fun h => by simp only [forThread, h]⟩
  simp only [forThread, EventStreamId.mk.injEq, String.append_right_inj] at h
  have hu : c.threadId.uuid = c'.threadId.uuid := Uuid.text_injective h
  calc c.threadId = ⟨c.threadId.uuid⟩ := rfl
    _ = ⟨c'.threadId.uuid⟩ := by rw [hu]

/-! ### Messages -/

inductive ProviderApi where
  | openAIResponses
  | openAIChatCompletions
  | anthropicMessages
  | other (name : String)
deriving DecidableEq

inductive ThinkingProvider where
  | anthropic
  | openAIResponses
  | openAICompatible
  | other (name : String)
deriving DecidableEq

inductive ThinkingMetadata where
  | none
  | anthropic (signature : Option String)
  | anthropicRedacted (data : String)
  | openAIResponses (itemId : Option String) (outputIndex : Option Nat) (summaryIndex : Nat)
      (encryptedContent : Option String)
  | opaqueValue (provider : String) (value : Json)
deriving DecidableEq

inductive CacheTtl where
  | fiveMinutes
  | oneHour
deriving DecidableEq

inductive CacheControl where
  | ephemeral (ttl : Option CacheTtl)
deriving DecidableEq

inductive CanonicalContent where
  | text (text : String) (cacheControl : Option CacheControl)
  | image (data mimeType : String)
  | thinking (text : String) (provider : ThinkingProvider) (metadata : ThinkingMetadata)
  | toolCall (id name : String) (arguments : Json)
deriving DecidableEq

structure CanonicalUsage where
  inputTokens : Nat
  outputTokens : Nat
  cacheCreationInputTokens : Nat
  cacheReadInputTokens : Nat
deriving DecidableEq

inductive CanonicalStopReason where
  | endTurn
  | toolUse
  | maxTokens
  | stopSequence
  | pauseTurn
  | cancelled
  | error
deriving DecidableEq

inductive CanonicalMessage where
  | user (content : List CanonicalContent) (timestampMs : Int)
  | assistant (content : List CanonicalContent) (api : ProviderApi) (provider model : String)
      (usage : CanonicalUsage) (stopReason : CanonicalStopReason) (errorMessage : Option String)
      (timestampMs : Int)
  | toolResult (toolCallId toolName : String) (content : List CanonicalContent) (isError : Bool)
      (cacheControl : Option CacheControl) (timestampMs : Int)
deriving DecidableEq

def CanonicalMessage.userTextAt (text : String) (timestampMs : Int) : CanonicalMessage :=
  .user [.text text none] timestampMs

/-! ### Session entries -/

inductive SessionEntryKind where
  | message (message : CanonicalMessage)
  | modelChange (provider : String) (api : ProviderApi) (model : String)
  | compaction (summary : String)
  | branchSummary (summary : String)
  | runtime (kind : String) (payload : Json)
  | customContextMessage (message : CanonicalMessage)
deriving DecidableEq

/-- `strum::AsRefStr`. -/
def SessionEntryKind.asRef : SessionEntryKind → String
  | .message _              => "message"
  | .modelChange _ _ _      => "model_change"
  | .compaction _           => "compaction"
  | .branchSummary _        => "branch_summary"
  | .runtime _ _            => "runtime"
  | .customContextMessage _ => "custom_context_message"

structure SessionEntry where
  entryId : SessionEntryId
  parentEntryId : Option SessionEntryId
  turnId : Option String
  coordinates : ThreadCoordinates
  createdAtMs : Int
  kind : SessionEntryKind
deriving DecidableEq

def sessionEntryIsUserAuthored : SessionEntryKind → Bool
  | .message (.user _ _) | .customContextMessage (.user _ _) => true
  | _ => false

/-- `turn_input_kinds_match`: two user messages match by content, whatever their time stamps;
everything else must be equal. -/
def turnInputKindsMatch : SessionEntryKind → SessionEntryKind → Bool
  | .message (.user left _), .message (.user right _) => left = right
  | left, right => left = right

def sessionEntryIsThreadStartIdentity (entry : SessionEntry) : Bool :=
  match entry.kind with
  | .runtime kind _ => kind = "thread_started"
  | _ => false

/-! ### Compaction -/

/-- `char::is_whitespace`: the Unicode property `White_Space`. -/
def isWhitespace (c : Char) : Bool :=
  let n := c.toNat
  (9 ≤ n && n ≤ 13) || n = 0x20 || n = 0x85 || n = 0xA0 || n = 0x1680 ||
    (0x2000 ≤ n && n ≤ 0x200A) || n = 0x2028 || n = 0x2029 || n = 0x202F || n = 0x205F ||
    n = 0x3000

/-- `str::trim`. -/
def trim (s : String) : String :=
  String.ofList (((s.toList.dropWhile isWhitespace).reverse.dropWhile isWhitespace).reverse)

def compactionSummaryPrefix : String := "Compacted conversation summary:"

def renderCompactionSummary (summary : String) : String :=
  let summary := trim summary
  if summary = "" then compactionSummaryPrefix ++ "\n(no summary available)"
  else if compactionSummaryPrefix.toList.isPrefixOf summary.toList then summary
  else compactionSummaryPrefix ++ "\n" ++ summary

def compactionSummaryMessage (summary : String) (timestampMs : Int) : CanonicalMessage :=
  .userTextAt (renderCompactionSummary summary) timestampMs

/-- `append_model_visible_messages`, on the messages gathered so far. -/
def appendModelVisibleMessages (entries : List SessionEntry) (messages : List CanonicalMessage) :
    List CanonicalMessage :=
  entries.foldl (fun messages entry =>
    match entry.kind with
    | .message message | .customContextMessage message => messages ++ [message]
    | .compaction summary => [compactionSummaryMessage summary entry.createdAtMs]
    | .modelChange _ _ _ | .branchSummary _ | .runtime _ _ => messages) messages

end Verlet.History
