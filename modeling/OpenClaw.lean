import OpenClaw.AutoReply.FollowupDraining
import OpenClaw.AutoReply.FollowupSummaries
import OpenClaw.Logic.Run
import OpenClaw.Logic.Fallible
import OpenClaw.Data.Table
import OpenClaw.Data.JsPrim
import OpenClaw.Data.JsStrings
import OpenClaw.WorkerEnvironments.EnvironmentCredentials
import OpenClaw.WorkerEnvironments.TranscriptCommitLedger
import OpenClaw.OcPaths.JsonlEditTarget
import OpenClaw.OcPaths.JsonlReparse
import OpenClaw.Outbound.SendEvidenceRuns
import OpenClaw.Infra.GatewaySuspendEnds
import OpenClaw.Infra.BootstrapBinding
import OpenClaw.Infra.HeartbeatDispatch
import OpenClaw.Process.GatewayRootWork
import OpenClaw.Cron.StoreLoad
import OpenClaw.Harness.SessionRuns
import OpenClaw.Reef.InboxConnection
import OpenClaw.Reef.ReplayProtection
import OpenClaw.Reef.DurableStores
import OpenClaw.Worker.LiveEventCursor
import OpenClaw.WorkerEnvironments.LiveEventOrdering
import OpenClaw.WorkerEnvironments.PlacementFencing
import OpenClaw.WorkerEnvironments.TurnClaimWaiters
import OpenClaw.Sandbox.HttpHost
import OpenClaw.WorkerEnvironments.InferenceLedger
import OpenClaw.Reef.Envelope
import OpenClaw.TeeVault.VaultIntegrity
import OpenClaw.Cron.Store.StorageCodec
import OpenClaw.Shared.StoreWriterPromises
import OpenClaw.ToolCallRepair.Strip
import OpenClaw.Harness.Uuid
import OpenClaw.Reef.Ulid
import OpenClaw.Reef.EncodingInverse
import OpenClaw.Reef.CanonicalForm
import OpenClaw.Reef.AuditRedaction
import OpenClaw.Reef.SealedOpens
import OpenClaw.Harness.CompactionCalls
import OpenClaw.Cron.StaggeredSlots
import OpenClaw.Cron.NoHotLoop
import OpenClaw.Cron.EveryInterval
import OpenClaw.NetPolicy.CidrMembership
import OpenClaw.Infra.ExecArgPatterns
import OpenClaw.Infra.AuthorizedCommands
import OpenClaw.Infra.SafeBinOptions
import OpenClaw.Infra.ShellPayload
import OpenClaw.Infra.JsonUtf8Bytes
import OpenClaw.Infra.HeartbeatPacing
import OpenClaw.Infra.WindowsShellCommand
import OpenClaw.Shared.TextChunking
import OpenClaw.Infra.AllowlistGlobs
import OpenClaw.Harness.Truncation
import OpenClaw.MarkdownCore.RenderNesting
import OpenClaw.MarkdownCore.CodeSpanPieces
import OpenClaw.Process.CommandQueueSlots
import OpenClaw.Reef.PipelineRuns
import OpenClaw.Reef.ApprovalDigest
