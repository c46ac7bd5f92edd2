import Verlet.Contracts.Schema.Preflight
import Verlet.History.InMemory.Scopes
import Verlet.History.InMemory.Replay
import Verlet.History.Agreement.Lockstep
import Verlet.RemoteStore.Delivery
import Verlet.RemoteStore.Witnessed
import Verlet.Daemon.ClockRoute.Selection
import Verlet.Daemon.Revocation
import Verlet.Kernel.CouplingScheduler.Quotas
import Verlet.Kernel.CouplingScheduler.Suspensions
import Verlet.Kernel.CouplingScheduler.Budgets
import Verlet.Daemon.Ingress.Claims.Uniqueness
import Verlet.Tools.Edit.Twice
import Verlet.Tools.Truncate
import Verlet.Daemon.RecoverySweep
import Verlet.Daemon.ProcessOutcomes
import Verlet.Kernel.RuntimeHost.LoopContinuation.OneTurn
import Verlet.Kernel.ProcessHandleDispatch.OneStart
import Verlet.Kernel.ThreadSpawnProjector.Orphans
import Verlet.Agent.ToolRouter.Advertised
import Verlet.Kernel.RuntimeHost.ForkRecovery.OneFork
import Verlet.Agent.AgentLoop.Steers
import Verlet.Agent.AgentLoop.BatchSchedule
import Verlet.Agent.ContextCompiler.Budget
import Verlet.History.InMemory.Bases
import Verlet.Agent.ProviderRequests
import Verlet.Provider.Transform.Accounting
import Verlet.Wasm.Http.Reach
import Verlet.Wasm.Http.Grants
import Verlet.Wasm.Guest.Exact
import Verlet.Process.Live.Kept
import Verlet.Vbash.CappedText
import Verlet.Daemon.HandleIngress.Reported
import Verlet.Kernel.BindingProjector.Reconciled
import Verlet.Vfs.Guests
import Verlet.Vfs.Journal
import Verlet.Vfs.Namespace
