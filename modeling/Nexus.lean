import Nexus.Workflow.DependencyGate
import Nexus.Workflow.RunProgress
import Nexus.Workflow.DryRun
import Nexus.Auth.SingleUseTokens
import Nexus.Auth.InvitationEnds
import Nexus.Auth.PermissionInheritance
import Nexus.Await.ResumeOnce
import Nexus.Tools.DenyLayers
import Nexus.Execution.EndedExecutions
import Nexus.Events.OutboxDelivery
import Nexus.Kanban.ConflictKeys
import Nexus.Kanban.LeaseExclusion
import Nexus.Kanban.LaneCapacity
import Nexus.Kanban.DispatchLimits
import Nexus.Kanban.FileContention
import Nexus.Kanban.RunLinks
import Nexus.Budget.HardLimits
import Nexus.Gitops.InboundPlan
import Nexus.Gitops.ScopeAddresses
import Nexus.Gitops.AtomicApply
import Nexus.Kanban.HierarchyRuns
import Nexus.Tools.ApprovalFinality
import Nexus.Kanban.ChargedOnce
import Nexus.Kanban.StaleEvents
import Nexus.Gitops.DesiredRoundTrip
import Nexus.Plugins.NamespaceOwnership
import Nexus.Tools.OfferedTools
import Nexus.Plugins.BoundedDeliveries
import Nexus.Kanban.IntentFinality
import Nexus.Kanban.OverlappingPasses
import Nexus.Workflow.QueueIdentities
import Nexus.Workflow.FlagAddresses
import Nexus.Workflow.StepLoops
import Nexus.Workflow.StepVisits
import Nexus.Execution.CheckpointMarkers
import Nexus.Workflow.ConcurrencyScopes
import Nexus.Budget.MonotoneDecisions
import Nexus.Workflow.ParallelLayers
import Nexus.Workflow.CancellationCascade
import Nexus.Scope.EnsureNode
import Nexus.Tools.EvaluablePolicies
import Nexus.Tools.GlobMatching
import Nexus.Tools.RuleSelection
import Nexus.Execution.ContainerLoss
import Nexus.Execution.OwnerLeases
import Nexus.Tools.AllowedRoots
import Nexus.Kanban.WakeupWindows
import Nexus.Automation.DueTimes
import Nexus.Gitops.PlanOrder
import Nexus.Plugins.PluginGrants
import Nexus.Plugins.RuntimeManager
import Nexus.Execution.SessionFile
import Nexus.Automation.CatchUp
import Nexus.Memory.Eviction
import Nexus.Workflow.InProcessLocks
