import TitanRunner.Tools.CallsOnce
import TitanRunner.Policy.ApprovalKeys
import TitanRunner.Control.CommandsOnce
import TitanRunner.Orchestrator.SynthesisTree
import TitanRunner.Orchestrator.TopoOrder
import TitanRunner.Orchestrator.Router
import TitanRunner.Orchestrator.RetryTask
import TitanRunner.Verify.Checks
import TitanRunner.Engine.Metered
import TitanRunner.Engine.WakeTime
import TitanRunner.Engine.VerifiedDelivery
import TitanRunner.Engine.ResumeEquivalence
import TitanRunner.Engine.ClaimOnce
import TitanRunner.Engine.Proposal
import TitanRunner.Engine.Suppression
import TitanRunner.Engine.Delivery
import TitanRunner.Engine.Remediation
import TitanRunner.Engine.IntakeOnce
import TitanRunner.Engine.WayForward
import TitanRunner.Reliability.GateAgreement
import TitanRunner.Providers.QuotaBound
import TitanRunner.Providers.Failover
import TitanRunner.Providers.Health
import TitanRunner.Ops.LessonCounts
import TitanRunner.Denylist
import TitanRunner.Tools.ReadJail
import TitanRunner.Observability.EventOrder
import TitanRunner.State.ArchiveKept
import TitanRunner.Worker.TaskDispatch
import TitanRunner.Worker.Schedules
import TitanRunner.Worker.Vault
import TitanRunner.Worker.LoginGuard
import TitanRunner.Worker.Hooks
import TitanRunner.Worker.OAuth
import TitanRunner.Worker.McpOauth
import TitanRunner.Reviewer.GithubGatePolicy
import TitanRunner.Worker.Callback
import TitanRunner.Worker.RemoteCall
import TitanRunner.Worker.NotifyRouter
import TitanRunner.Worker.TelegramHook
import TitanRunner.Worker.Keeper
import TitanRunner.Ops.UsageReporter
import TitanRunner.Ops.Doorbell
import TitanRunner.Worker.RestUrl
import TitanRunner.Worker.OpenUrl
import TitanRunner.Validate.Soundness
import TitanRunner.Research.StrictState
import TitanRunner.Orchestrator.TaskGraph
import TitanRunner.Worker.InstantChat
import TitanRunner.Worker.SaveKey
import TitanRunner.Worker.ProviderProof
import TitanRunner.Worker.CreateTask
import TitanRunner.Worker.Sessions
import TitanRunner.Worker.ActionResult
import TitanRunner.State.Strictify
import TitanRunner.Worker.Connect
import TitanRunner.Semaphore
