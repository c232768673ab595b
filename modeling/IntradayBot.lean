import IntradayBot.Node.Transition
import IntradayBot.Node.Intake
import IntradayBot.Node.SlotsOwned
import IntradayBot.Node.PartsClosed
import IntradayBot.Node.StopsTighten
import IntradayBot.Node.Target
import IntradayBot.Node.PartSizes
import IntradayBot.Node.SizedPlan
import IntradayBot.Node.FinalAnswers
import IntradayBot.Node.Drift
import IntradayBot.Node.OneEntry
import IntradayBot.Node.Protection
import IntradayBot.Setup.Handoff
import IntradayBot.Node.Adoption
import IntradayBot.Replay.StrategyRisk
import IntradayBot.Replay.SimulatedExecution
import IntradayBot.Replay.StepRepository
import IntradayBot.Replay.Engine
import IntradayBot.Data.Except
import IntradayBot.Replay.ExactlyOnce
import IntradayBot.Replay.Reset
import IntradayBot.Replay.Visualization
import IntradayBot.Replay.Partition
import IntradayBot.Replay.Completion
import IntradayBot.Replay.NoLookAhead
import IntradayBot.Ledger.Composition
import IntradayBot.Ledger.Anchored
import IntradayBot.Leader.OneLeader
import IntradayBot.Handoff.OneOrder
import IntradayBot.Handoff.ActiveClaim
import IntradayBot.Fill.PendingEntry
import IntradayBot.Fill.PartialGate
import IntradayBot.Fill.Management
import IntradayBot.Risk.DailyLoss
import IntradayBot.Entry.Contract
import IntradayBot.Entry.Batches
import IntradayBot.Accuracy.NoLookAhead
import IntradayBot.Replay.EquityCurve
import IntradayBot.Replay.RiskCap
import IntradayBot.Replay.TradeMetrics
import IntradayBot.Data.Base64
import IntradayBot.Data.Pages
import IntradayBot.Data.PyJson
import IntradayBot.Ledger.Listing
import IntradayBot.Replay.Journal
import IntradayBot.Data.Numeral
import IntradayBot.Node.Decimals
import IntradayBot.Outbox.CommandOutbox
import IntradayBot.Outbox.Stop
import IntradayBot.Pagination
import IntradayBot.Replay.Collection
import IntradayBot.Risk.KillSwitch
import IntradayBot.Runtime.Orchestrator
import IntradayBot.Sizing.KeptRules
import IntradayBot.Strategy.Queue
import IntradayBot.Strategy.Scale
import IntradayBot.Node.OpenPositions
import IntradayBot.Node.AcceptedOnce
