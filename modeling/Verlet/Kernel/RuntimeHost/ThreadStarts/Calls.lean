import Verlet.Kernel.RuntimeHost.ThreadStarts

/-!
# Kernel — The runtime host — Thread starts — Calls

What the small programs of a start ask of their host.  A call is plain that moves none of the host's
maps and writes nothing to the store; whoever cares for some of the calls takes the plain ones as they
come (`TakesPlain`).
-/

namespace Verlet.Kernel
open Support
open History (ThreadId)
open Proc (Makes)

/-- The call moves none of the host's maps, and writes nothing to the store. -/
def HostCall.Plain {ι : Type} : HostCall ι → Prop
  | .reserveStart _          => False
  | .releaseStart _          => False
  | .publish _               => False
  | .removeThreadIfCurrent _ => False
  | .append _ _              => False
  | .cloneBranch _ _ _       => False
  | .selectBranch _ _        => False
  | _                        => True

namespace Hosting
open HostM

class TakesPlain {ι : Type} (P : HostCall ι → Prop) : Prop where
  plain : ∀ {call}, HostCall.Plain call → P call

variable {ι : Type} {P : HostCall ι → Prop} [TakesPlain P]

theorem makes_ask {call : HostCall ι} (h : call.Plain) : Makes P (ask call) :=
  .await (TakesPlain.plain h)

theorem makes_suspend : Makes P (suspend : HostM ι Unit) := by
  refine .bind (makes_ask trivial) fun answer => ?_
  cases answer with
  | ready _ => exact .pure
  | dropped => exact .throw

omit [TakesPlain P] in
theorem makes_orFail {α : Type} {result : Except StartError α} :
    Makes P (orFail result : HostM ι α) := by
  cases result with
  | ok a => exact .pure
  | error e => exact .throw

omit [TakesPlain P] in
theorem makes_orKernel {α : Type} {result : RemoteStore.VerletResult α} :
    Makes P (orKernel result : HostM ι α) := by
  cases result with
  | ok a => exact .pure
  | error e => exact .throw

omit [TakesPlain P] in
theorem makes_orPanic {α : Type} {value : Option α} :
    Makes P (orPanic value : HostM ι α) := by
  cases value with
  | some a => exact .pure
  | none => exact .throw

theorem makes_storeCall {call : HostCall ι} (h : P call) : Makes P (storeCall call) :=
  .bind makes_suspend fun _ => .bind (.await h) fun _ => .bind makes_suspend fun _ => .pure

theorem makes_read {call : HostCall ι} (h : call.Plain) : Makes P (storeCall call) :=
  makes_storeCall (TakesPlain.plain h)

theorem makes_rejectChild {parent : Option (RuntimeThread ι)} {message : String} :
    Makes P (rejectChild parent message) := by
  cases parent with
  | none => exact .pure
  | some parent => exact makes_ask trivial

theorem makes_waitForThreadStartReservation {threadId : ThreadId} :
    Makes P (waitForThreadStartReservation threadId : HostM ι Unit) := by
  refine .bind (makes_ask trivial) fun waiting => ?_
  split
  · exact makes_suspend
  · exact .pure

theorem makes_prepareRuntime {config : HostConfig} {context : ThreadContext} :
    Makes P (prepareRuntime config context : HostM ι Unit) :=
  .bind makes_suspend fun _ => .bind (makes_ask trivial) fun _ => .bind makes_orFail fun _ =>
    .bind makes_suspend fun _ => .bind makes_suspend fun _ => .bind makes_orFail fun _ =>
      makes_suspend

theorem makes_notifyLifecycleSink {notify : Bool} {thread : RuntimeThread ι} :
    Makes P (notifyLifecycleSink notify thread) := by
  unfold notifyLifecycleSink
  split
  · refine .bind makes_suspend fun _ => .bind (makes_ask trivial) fun sink => ?_
    split
    · exact .bind makes_suspend fun _ => .bind (makes_ask trivial) fun _ => makes_orFail
    · exact .pure
  · exact .pure

theorem makes_announceSubthread {thread : RuntimeThread ι} :
    Makes P (announceSubthread thread) := by
  unfold announceSubthread
  split
  · exact .pure
  · refine .bind makes_suspend fun _ => .bind (makes_ask trivial) fun parent => ?_
    cases parent with
    | some parent => exact makes_ask trivial
    | none => exact .pure

end Hosting

end Verlet.Kernel
