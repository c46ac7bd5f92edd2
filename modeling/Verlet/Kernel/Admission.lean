import Verlet.Kernel.ControlDecision.Wire

/-!
# Kernel — Admission

What is decided at a boundary that turns pass, by which policy, and over which ingress witnesses.
-/

namespace Verlet.History

/-- What a route policy decides of an ingress batch. -/
inductive AdmissionDecision where
  | queue
  | steer
  | interrupt
  | fork
  | observe
  | reject
  | coalesce

end Verlet.History

namespace Verlet.Kernel
open History (EventRecordId)

inductive TurnSubmissionMode where
  | queue
  | steer
  | interrupt
deriving DecidableEq

structure AdmissionGateContext where
  routeId : String
  policyHash : String
  decision : History.AdmissionDecision
  admissible : Option (List History.AdmissionDecision)
  sourceIngressEventIds : List EventRecordId
  dischargedBy : String
  function : String

end Verlet.Kernel
