import Mathlib.Data.List.Basic
import Verlet.History.Messages

/-!
# Provider — Context budgets

`compile_provider_context`: the messages a provider's context policy leaves of a request.  The newest
messages stay, with the issuers of the tool results among them, and of their texts the newest bytes.

The byte budgets of the kernel's context compiler are the same functions, written out there again.
-/

namespace Verlet.Provider
open History

/-! ### Bytes -/

def textBytes (text : List Char) : Nat := (text.map Char.utf8Size).sum

def contentTextBytes (content : List CanonicalContent) : Nat :=
  (content.map fun block => match block with
    | .text text _ | .thinking text _ _ => textBytes text.toList
    | .image _ _ | .toolCall _ _ _      => 0).sum

def contentOf : CanonicalMessage → List CanonicalContent
  | .user content _ | .assistant content _ _ _ _ _ _ _ | .toolResult _ _ content _ _ _ => content

def withContent (content : List CanonicalContent) : CanonicalMessage → CanonicalMessage
  | .user _ timestampMs => .user content timestampMs
  | .assistant _ api provider model usage stopReason errorMessage timestampMs =>
    .assistant content api provider model usage stopReason errorMessage timestampMs
  | .toolResult toolCallId toolName _ isError cacheControl timestampMs =>
    .toolResult toolCallId toolName content isError cacheControl timestampMs

def messagesTextBytes (messages : List CanonicalMessage) : Nat :=
  (messages.map fun message => contentTextBytes (contentOf message)).sum

/-! ### Truncation -/

/-- The longest suffix, cut between characters, of at most so many bytes. -/
def recentSuffix (remaining : Nat) : List Char → List Char
  | []      => []
  | c :: cs => if textBytes (c :: cs) ≤ remaining then c :: cs else recentSuffix remaining cs

/-- `truncate_string_to_recent_bytes`: what remains of the budget, and of the text. -/
def truncateStringToRecentBytes (text : String) (remaining : Nat) : Nat × String :=
  if textBytes text.toList ≤ remaining then (remaining - textBytes text.toList, text)
  else if remaining = 0 then (0, "")
  else
    let suffix := recentSuffix remaining text.toList
    (remaining - textBytes suffix, String.ofList suffix)

/-- One block of a message, from the newest. -/
def truncateBlock (block : CanonicalContent) (remaining : Nat) : Nat × CanonicalContent :=
  match block with
  | .text text cacheControl =>
    ((truncateStringToRecentBytes text remaining).1,
      .text (truncateStringToRecentBytes text remaining).2 cacheControl)
  | .thinking text provider metadata =>
    ((truncateStringToRecentBytes text remaining).1,
      .thinking (truncateStringToRecentBytes text remaining).2 provider metadata)
  | .image data mimeType => (remaining, .image data mimeType)
  | .toolCall id name arguments => (remaining, .toolCall id name arguments)

/-- The block is not a text or a thought that is empty. -/
def isSolid : CanonicalContent → Bool
  | .text text _ | .thinking text _ _ => text ≠ ""
  | .image _ _ | .toolCall _ _ _      => true

def truncateContentToRecentTextBytes (content : List CanonicalContent) (remaining : Nat) :
    Nat × List CanonicalContent :=
  let (remaining, blocks) := List.mapAccumr truncateBlock content remaining
  (remaining, blocks.filter isSolid)

def truncateMessage (message : CanonicalMessage) (remaining : Nat) : Nat × CanonicalMessage :=
  let (remaining, content) := truncateContentToRecentTextBytes (contentOf message) remaining
  (remaining, withContent content message)

def truncateMessagesToRecentTextBytes (messages : List CanonicalMessage) (maxBytes : Nat) :
    List CanonicalMessage :=
  (List.mapAccumr truncateMessage messages maxBytes).2

/-! ### The policy -/

def calledId : CanonicalContent → Option String
  | .toolCall id _ _ => some id
  | .text _ _ | .image _ _ | .thinking _ _ _ => none

def callIds : CanonicalMessage → List String
  | .assistant content _ _ _ _ _ _ _ => content.filterMap calledId
  | .user _ _ | .toolResult _ _ _ _ _ _ => []

/-- The call a tool result answers. -/
def answeredId : CanonicalMessage → Option String
  | .toolResult toolCallId _ _ _ _ _ => some toolCallId
  | .user _ _ | .assistant _ _ _ _ _ _ _ _ => none

structure ProviderContextPolicy where
  maxMessages : Option Nat
  maxTextBytes : Option Nat

structure ProviderContextCompilation where
  messages : List CanonicalMessage
  droppedMessages : Nat
  truncatedTextBytes : Nat
  retainedTextBytes : Nat

/-- The last message that issues the call: what a map of issuers by call holds in the end. -/
def lastIssuer (messages : List CanonicalMessage) (id : String) : Option Nat :=
  (messages.zipIdx.filter fun (message, _) => id ∈ callIds message).getLast?.map (·.2)

def recentMessagesPreservingToolResultIssuers (messages : List CanonicalMessage)
    (maxMessages : Nat) : List CanonicalMessage :=
  if messages.length ≤ maxMessages then messages
  else
    let cutoff := messages.length - maxMessages
    let issuers := (messages.drop cutoff).filterMap fun message =>
      (answeredId message).bind (lastIssuer messages)
    (messages.zipIdx.filter fun (_, index) => cutoff ≤ index || index ∈ issuers).map (·.1)

def compileProviderContext (messages : List CanonicalMessage) (policy : ProviderContextPolicy) :
    ProviderContextCompilation :=
  let recent := match policy.maxMessages with
    | some maxMessages => recentMessagesPreservingToolResultIssuers messages maxMessages
    | none             => messages
  let truncated := match policy.maxTextBytes with
    | some maxTextBytes => truncateMessagesToRecentTextBytes recent maxTextBytes
    | none              => recent
  { messages := truncated
    droppedMessages := messages.length - recent.length
    truncatedTextBytes := messagesTextBytes recent - messagesTextBytes truncated
    retainedTextBytes := messagesTextBytes truncated }

end Verlet.Provider
