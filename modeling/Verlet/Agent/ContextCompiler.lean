import Verlet.Provider.Traffic
import Verlet.Agent.ToolRouter

/-!
# Agent — The context compiler

`AgentContextCompiler::compile`: the system blocks and the messages of a request, from the session
entries of a thread and what stands around them, within the budget of a policy.

The share of a static source in the budget is a product of floating point and a parameter; of a static
source and of a turn's snapshot what the compiler reads is kept.
-/

namespace Verlet.Agent
open History Provider

/-! ### Inputs -/

structure AgentContextCompilePolicy where
  maxMessages : Option Nat
  maxTextBytes : Option Nat

/-- `SystemBlock` of the provider crate. -/
structure SystemBlock where
  text : String
  cacheControl : Option CacheControl

/-- `AgentManifestStaticContextSegment`; the share is of some floating point type. -/
structure StaticContextSegment (φ : Type) where
  pinned : Bool
  budgetShare : Option φ
  content : String

/-- `AgentContextAttachment`, its path as it is displayed. -/
structure AgentContextAttachment where
  path : String
  mimeType : Option String
  sizeBytes : Option Nat
  sha256 : Option String
  metadata : List (String × String)

/-- `TurnContextSnapshot`, its paths as they are displayed. -/
structure TurnContextSnapshot where
  cwd : Option String
  workspaceRoots : List String
  environment : List (String × String)
  metadata : List (String × String)
  modelVisibleContext : List String

inductive AgentContextSource where
  | environment
  | attachment
  | history
  | compactionSummary
  | hookContext
  | turnContext

structure AgentContextDroppedEntry where
  entryId : Option SessionEntryId
  source : AgentContextSource
  reason : String

structure AgentContextCompilationDiagnostics where
  inputEntryCount : Nat
  outputMessageCount : Nat
  systemBlockCount : Nat
  toolCount : Nat
  attachmentCount : Nat
  retainedTextBytes : Nat
  truncatedTextBytes : Nat
  droppedEntries : List AgentContextDroppedEntry

structure AgentContextCompileInput (φ : Type) where
  system : List SystemBlock
  staticSystemSources : List (StaticContextSegment φ)
  sessionEntries : List SessionEntry
  turnAnchorTimestampMs : Int
  turnContext : TurnContextSnapshot
  hookContexts : List String
  environmentContexts : List String
  attachments : List AgentContextAttachment
  tools : List ToolDefinition
  policy : AgentContextCompilePolicy

structure CompiledAgentContext where
  system : List SystemBlock
  messages : List CanonicalMessage
  tools : List ToolDefinition
  diagnostics : AgentContextCompilationDiagnostics

structure TrackedMessage where
  message : CanonicalMessage
  source : AgentContextSource
  entryId : Option SessionEntryId

/-! ### System blocks -/

structure CompiledSystemBlocks where
  blocks : List SystemBlock
  budgetedTextBytes : Nat
  truncatedTextBytes : Nat

/-- The longest prefix, cut between characters, of at most so many bytes. -/
def boundedPrefix : Nat → List Char → List Char
  | _,        []      => []
  | maxBytes, c :: cs =>
    if c.utf8Size ≤ maxBytes then c :: boundedPrefix (maxBytes - c.utf8Size) cs else []

def prefixTextBytes (text : String) (maxBytes : Nat) : String :=
  String.ofList (boundedPrefix maxBytes text.toList)

variable {φ : Type} (fractionalBudgetLimit : Nat → φ → Nat)

def staticSourceBudgetLimit (maxTextBytes : Option Nat) (budgetShare : Option φ)
    (remainingBudget : Option Nat) : Option Nat :=
  maxTextBytes.map fun maxTextBytes =>
    let remaining := remainingBudget.getD maxTextBytes
    let shareLimit := match budgetShare with
      | some share => fractionalBudgetLimit maxTextBytes share
      | none       => remaining
    min shareLimit remaining

/-- What the loop over the static sources has so far. -/
structure SystemBudget where
  remainingBudget : Option Nat
  compiled : CompiledSystemBlocks

def compileStaticSource (maxTextBytes : Option Nat) (budget : SystemBudget)
    (source : StaticContextSegment φ) : SystemBudget :=
  if trim source.content = "" then budget
  else if source.pinned then
    { budget with compiled := { budget.compiled with
        blocks := budget.compiled.blocks ++ [⟨source.content, none⟩] } }
  else
    let originalLen := textBytes source.content.toList
    let content := match staticSourceBudgetLimit fractionalBudgetLimit maxTextBytes
        source.budgetShare budget.remainingBudget with
      | some limit => if limit < originalLen then prefixTextBytes source.content limit
          else source.content
      | none => source.content
    let retainedLen := textBytes content.toList
    if trim content = "" then
      { budget with compiled := { budget.compiled with
          truncatedTextBytes := budget.compiled.truncatedTextBytes + originalLen } }
    else
      { remainingBudget := budget.remainingBudget.map (· - retainedLen)
        compiled :=
          { blocks := budget.compiled.blocks ++ [⟨content, none⟩]
            budgetedTextBytes := budget.compiled.budgetedTextBytes + retainedLen
            truncatedTextBytes := budget.compiled.truncatedTextBytes + (originalLen - retainedLen) } }

def compileSystemBlocks (staticSources : List (StaticContextSegment φ))
    (configured : List SystemBlock) (maxTextBytes : Option Nat) : CompiledSystemBlocks :=
  let budget := staticSources.foldl (compileStaticSource fractionalBudgetLimit maxTextBytes)
    ⟨maxTextBytes, ⟨[], 0, 0⟩⟩
  { budget.compiled with blocks := budget.compiled.blocks ++ configured }

/-! ### Contexts that are not of the session -/

def renderTurnEnvironmentContext (turnContext : TurnContextSnapshot) : Option String :=
  if turnContext.cwd.isSome || !turnContext.workspaceRoots.isEmpty ||
      !turnContext.environment.isEmpty || !turnContext.metadata.isEmpty then
    some ("\n".intercalate (["<environment_context>"] ++
      turnContext.cwd.toList.map ("cwd=" ++ ·) ++
      turnContext.workspaceRoots.map ("workspace_root=" ++ ·) ++
      turnContext.environment.map (fun (key, value) => "env." ++ key ++ "=" ++ value) ++
      turnContext.metadata.map (fun (key, value) => "metadata." ++ key ++ "=" ++ value) ++
      ["</environment_context>"]))
  else none

def renderEnvironmentContexts (turnContext : TurnContextSnapshot) (explicitContexts : List String) :
    List String :=
  explicitContexts.filter (fun context => trim context ≠ "") ++
    (renderTurnEnvironmentContext turnContext).toList

def attachmentLine (attachment : AgentContextAttachment) : String :=
  " ".intercalate (["path=" ++ attachment.path] ++
    attachment.mimeType.toList.map ("mime_type=" ++ ·) ++
    attachment.sizeBytes.toList.map (fun sizeBytes => "size_bytes=" ++ toString sizeBytes) ++
    attachment.sha256.toList.map ("sha256=" ++ ·) ++
    attachment.metadata.map fun (key, value) => "metadata." ++ key ++ "=" ++ value)

def renderAttachmentContext (attachments : List AgentContextAttachment) : Option String :=
  if attachments.isEmpty then none
  else some ("\n".intercalate (["<attachments>"] ++ attachments.map attachmentLine ++
    ["</attachments>"]))

def syntheticMessage (timestampMs : Int) (source : AgentContextSource) (context : String) :
    TrackedMessage :=
  { message := .userTextAt context timestampMs, source, entryId := none }

/-! ### Messages -/

abbrev Tracking := List TrackedMessage × List AgentContextDroppedEntry

/-- One session entry: a compaction clears what is before it. -/
def trackEntry (tracking : Tracking) (entry : SessionEntry) : Tracking :=
  match entry.kind with
  | .message message => (tracking.1 ++ [⟨message, .history, some entry.entryId⟩], tracking.2)
  | .customContextMessage message =>
    (tracking.1 ++ [⟨message, .hookContext, some entry.entryId⟩], tracking.2)
  | .compaction summary =>
    ([⟨compactionSummaryMessage summary entry.createdAtMs, .compactionSummary,
        some entry.entryId⟩],
      tracking.2 ++ tracking.1.map fun message =>
        ⟨message.entryId, message.source, "cleared_by_compaction"⟩)
  | .modelChange _ _ _ | .branchSummary _ | .runtime _ _ => tracking

variable (messages : List TrackedMessage)

/-- `truncate_messages_to_recent_text_bytes`, on tracked messages. -/
def truncateTracked (maxBytes : Nat) : List TrackedMessage :=
  (List.mapAccumr (fun tracked remaining =>
    ((truncateMessage tracked.message remaining).1,
      { tracked with message := (truncateMessage tracked.message remaining).2 }))
    messages maxBytes).2

def untracked : List CanonicalMessage := messages.map (·.message)

/-- What `apply_message_budget` leaves of the messages. -/
def budgeted (policy : AgentContextCompilePolicy) : List TrackedMessage :=
  let recent := match policy.maxMessages with
    | some maxMessages => messages.drop (messages.length - maxMessages)
    | none             => messages
  match policy.maxTextBytes with
  | some maxTextBytes => truncateTracked recent maxTextBytes
  | none              => recent

/-- What `apply_message_budget` drops. -/
def budgetDropped (policy : AgentContextCompilePolicy) : List AgentContextDroppedEntry :=
  match policy.maxMessages with
  | some maxMessages => (messages.take (messages.length - maxMessages)).map fun message =>
    ⟨message.entryId, message.source, "max_messages"⟩
  | none => []

def trackedMessages (input : AgentContextCompileInput φ) : Tracking :=
  let synthetic := syntheticMessage input.turnAnchorTimestampMs
  let environment := (renderEnvironmentContexts input.turnContext input.environmentContexts).map
    (synthetic .environment)
  let tracking := input.sessionEntries.foldl trackEntry (environment, [])
  let hooks := (input.hookContexts.filter fun context => trim context ≠ "").map
    (synthetic .hookContext)
  let turn := (input.turnContext.modelVisibleContext.filter fun context => trim context ≠ "").map
    (synthetic .turnContext)
  let attachments := (renderAttachmentContext input.attachments).toList.map (synthetic .attachment)
  (tracking.1 ++ hooks ++ turn ++ attachments, tracking.2)

/-- `AgentContextCompiler::compile`. -/
def compile (input : AgentContextCompileInput φ) : CompiledAgentContext :=
  let system := compileSystemBlocks fractionalBudgetLimit input.staticSystemSources input.system
    input.policy.maxTextBytes
  let messagePolicy := { input.policy with
    maxTextBytes := input.policy.maxTextBytes.map (· - system.budgetedTextBytes) }
  let (tracked, cleared) := trackedMessages input
  let recent := tracked.drop (match messagePolicy.maxMessages with
    | some maxMessages => tracked.length - maxMessages
    | none             => 0)
  let messages := untracked (budgeted tracked messagePolicy)
  { system := system.blocks
    messages
    tools := input.tools
    diagnostics :=
      { inputEntryCount := input.sessionEntries.length
        outputMessageCount := messages.length
        systemBlockCount := system.blocks.length
        toolCount := input.tools.length
        attachmentCount := input.attachments.length
        retainedTextBytes := messagesTextBytes messages + system.budgetedTextBytes
        truncatedTextBytes := system.truncatedTextBytes +
          (messagesTextBytes (untracked recent) - messagesTextBytes messages)
        droppedEntries := cleared ++ budgetDropped tracked messagePolicy } }

end Verlet.Agent
