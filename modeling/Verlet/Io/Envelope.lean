import Verlet.Contracts.Values

/-!
# Io — Ingress envelopes

The envelope of one external delivery, as `verlet-io-core` holds it.  Metadata is a `BTreeMap` of
texts, a list of pairs in the order of their keys.
-/

namespace Verlet.Io

abbrev Metadata := List (String × String)

structure IoSource where
  protocol : String
  instanceId : String
  metadata : Metadata
deriving DecidableEq

inductive ConversationKind where
  | direct
  | group
  | channel
  | thread
  | system
deriving DecidableEq

structure IoConversation where
  externalConversationId : String
  kind : ConversationKind
  title : Option String
  externalThreadId : Option String
  metadata : Metadata
deriving DecidableEq

structure IoActor where
  externalActorId : String
  displayName : Option String
  isBot : Bool
  metadata : Metadata
deriving DecidableEq

structure IoDedupeKey where
  scope : String
  key : String
deriving DecidableEq

/-- The external system's own identity for one delivery. -/
structure IoDelivery where
  deliveryId : String
  attempt : Option Nat
  metadata : Metadata
deriving DecidableEq

/-- The principal an envelope acts for. -/
structure IoPrincipal where
  tenantId : String
  principalId : String
  via : String
deriving DecidableEq

inductive IngressContent where
  | text (text : String)
  | command (name : String) (args : Option String)
  | event (kind : String) (payload : Json)
deriving DecidableEq

structure IoAttachment where
  id : String
  mediaType : String
  name : Option String
  uri : Option String
  sizeBytes : Option Nat
  metadata : Metadata
deriving DecidableEq

structure IngressEnvelope where
  id : String
  source : IoSource
  conversation : IoConversation
  actor : Option IoActor
  content : IngressContent
  attachments : List IoAttachment
  dedupeKey : Option IoDedupeKey
  delivery : Option IoDelivery
  principal : Option IoPrincipal
  receivedAtMs : Nat
  metadata : Metadata
deriving DecidableEq

end Verlet.Io
