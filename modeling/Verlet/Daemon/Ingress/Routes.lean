import Verlet.Daemon.ClockTicks
import Verlet.Kernel.Handles

/-!
# Daemon — Ingress — Routes

What an envelope's metadata says of the route it came by: its name and its threading.
-/

namespace Verlet.Daemon
open Support Kernel Io

/-! ### Names -/

def routeIdForEnvelope (envelope : IngressEnvelope) : String :=
  (envelope.metadata.get? "cooldis_route_id").getD envelope.source.stableScope

def routeThreading (envelope : IngressEnvelope) : String :=
  (envelope.metadata.get? "cooldis_route_threading").getD "per_conversation"

def externalMessageId (envelope : IngressEnvelope) : Option String :=
  (envelope.metadata.get? "external_message_id").or (envelope.metadata.get? "telegram_message_id")

end Verlet.Daemon
