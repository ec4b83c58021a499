import StonePlus.Auth.RefreshFairness
import StonePlus.Backup.Portability
import StonePlus.Backup.ReplaceSafety
import StonePlus.Browser.ImportBudget
import StonePlus.ClientConfig.Reversal
import StonePlus.Codex.Exclusion
import StonePlus.Codex.IndexCleanup
import StonePlus.Compact.Shrinking
import StonePlus.Conversion.GeminiIds
import StonePlus.Conversion.GeminiPairing
import StonePlus.Conversion.GeminiRequest
import StonePlus.Conversion.Usage
import StonePlus.Credentials.RotationSafety
import StonePlus.Dsml.Agreement
import StonePlus.FrameGuard.Agreement
import StonePlus.Grok.Bijection
import StonePlus.Hedge.RaceSafety
import StonePlus.Js.Object
import StonePlus.Kiro.Output
import StonePlus.Kiro.SchemaVerdict
import StonePlus.Kiro.ToolHistory
import StonePlus.Kiro.ToolSafety
import StonePlus.Kiro.VisibleText
import StonePlus.Lib.FirstMatch
import StonePlus.Providers.CodexQuota
import StonePlus.Proxy.FailClosed
import StonePlus.Proxy.ForeignCalls
import StonePlus.Proxy.GroupMembers
import StonePlus.Proxy.LeaseSafety
import StonePlus.Proxy.MandatoryDomains
import StonePlus.Proxy.RebuildFlight
import StonePlus.Proxy.RetirementSafety
import StonePlus.Replay.BudgetWalk
import StonePlus.Replay.Secrecy
import StonePlus.Replay.ValidatorVerdict
import StonePlus.RequestLogs.Mirror
import StonePlus.Responses.ForwardChunking
import StonePlus.Responses.TurnQueue
import StonePlus.Scheduler.Backoff
import StonePlus.Scheduler.Outcomes
import StonePlus.Scheduler.SmoothWeighted
import StonePlus.Scheduler.StickyRuns
import StonePlus.Scheduler.Wakeup
import StonePlus.Store.ReplacementSafety
import StonePlus.Store.TopologyMigration
import StonePlus.Streaming.AnthropicBlocks
import StonePlus.Streaming.AnthropicCalls
import StonePlus.Streaming.AnthropicClosing
import StonePlus.Streaming.AnthropicEncoding
import StonePlus.Streaming.AnthropicUsage
import StonePlus.Streaming.Items
import StonePlus.Streaming.GeminiCalls
import StonePlus.Streaming.ResponsesTermination
import StonePlus.Streaming.SecretRedactor
import StonePlus.Streaming.SseReading
import StonePlus.Streaming.Truncation
import StonePlus.Tasks.Outcomes
