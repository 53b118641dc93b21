/-
# `StageGraph` — flows of stages, and the completers that run them
-/
import StageGraph.Assertion
import StageGraph.Client.Address
import StageGraph.Client.Basic
import StageGraph.Client.Remote
import StageGraph.Client.Scripted
import StageGraph.Client.Status
import StageGraph.Completer.Graph
import StageGraph.Completer.Schedule
import StageGraph.Completer.Step
import StageGraph.Completer.Thread
import StageGraph.Completer.World
import StageGraph.Config
import StageGraph.Continuation.Basic
import StageGraph.Continuation.Catalog
import StageGraph.Error.FlowError
import StageGraph.Error.Report
import StageGraph.Flow.FunctionRun
import StageGraph.Flow.Handle
import StageGraph.Hooks.Action
import StageGraph.Hooks.Drain
import StageGraph.Hooks.Registry
import StageGraph.Hooks.Trial
import StageGraph.Json.Fault
import StageGraph.Json.Printer
import StageGraph.Json.Reader
import StageGraph.Json.Skip
import StageGraph.Json.Token
import StageGraph.Json.Value
import StageGraph.LogFilter
import StageGraph.LogFilter.Pattern
import StageGraph.Model.Closure
import StageGraph.Model.Datum
import StageGraph.Model.Id
import StageGraph.Model.Message
import StageGraph.Model.Operation
import StageGraph.Model.Outcome
import StageGraph.Model.Shown
import StageGraph.Number.Binary64
import StageGraph.Number.Shortest
import StageGraph.Program.Basic
import StageGraph.Program.Flow
import StageGraph.Program.Request
import StageGraph.Program.Session
import StageGraph.Resolution
import StageGraph.Sample.Bodies
import StageGraph.Sample.Description
import StageGraph.Scenario.Basic
import StageGraph.Scenario.Environment
import StageGraph.Scenario.Run
import StageGraph.Text.Alphanumeric
import StageGraph.Text.Base64
import StageGraph.Text.Blank
import StageGraph.Text.Integer
import StageGraph.Text.Printable
import StageGraph.Text.Quoted
import StageGraph.Text.Utf8
import StageGraph.Time.Duration
import StageGraph.Wire.Choice
import StageGraph.Wire.Codec
import StageGraph.Wire.Record
import StageGraph.Wire.ValueType
import StageGraph.Proofs.Lists
import StageGraph.Proofs.Run
import StageGraph.Proofs.Change
import StageGraph.Proofs.GraphRun
import StageGraph.Proofs.Lifecycle
import StageGraph.Proofs.HookOrder
import StageGraph.Proofs.HookIsolation
import StageGraph.Proofs.Termination
import StageGraph.Proofs.Provenance
import StageGraph.Proofs.Evaluator
import StageGraph.Proofs.ScheduleRun
import StageGraph.Proofs.StageRun
import StageGraph.Proofs.ResolutionRules
import StageGraph.Proofs.Causality
import StageGraph.Proofs.WaitCycle
import StageGraph.Proofs.TextRoundTrip
import StageGraph.Proofs.JsonRoundTrip
import StageGraph.Proofs.WireRoundTrip
import StageGraph.Proofs.ValueRoundTrip
import StageGraph.Proofs.Admission
import StageGraph.Proofs.Invocation
import StageGraph.Proofs.BodyArguments
import StageGraph.Proofs.FailureRelay
import StageGraph.Proofs.Refusal
import StageGraph.Proofs.Conduct
import StageGraph.Proofs.FlowIsolation
import StageGraph.Proofs.DocumentInvocation
import StageGraph.Proofs.MessageRoundTrip
import StageGraph.Proofs.DatumRoundTrip
import StageGraph.Proofs.Conversation
import StageGraph.Proofs.FunctionRun
import StageGraph.Proofs.BodyRun
import StageGraph.Proofs.CurrentFlow
import StageGraph.Proofs.OtherFlows
import StageGraph.Proofs.Relocation
import StageGraph.Proofs.FlowProjection
import StageGraph.Proofs.Collection
import StageGraph.Proofs.StageNames
import StageGraph.Proofs.Construction
import StageGraph.Proofs.RemoteRetrieval
import StageGraph.Proofs.Clockwork
import StageGraph.Proofs.PunctualRun
import StageGraph.Proofs.CompletionTimes
import StageGraph.Proofs.HookTimes
import StageGraph.Proofs.TrialTimes
import StageGraph.Proofs.FlowHooks
import StageGraph.Proofs.FlowHookTimes
import StageGraph.Proofs.Recording
import StageGraph.Proofs.Dispatch
import StageGraph.Proofs.Adoption
import StageGraph.Proofs.Observers
import StageGraph.Proofs.Coherence
import StageGraph.Proofs.RequestIdentity
import StageGraph.Proofs.JsonSkipping
import StageGraph.Proofs.JsonGrammar
import StageGraph.Proofs.JsonReading
import StageGraph.Proofs.SpacedReading
import StageGraph.Proofs.WholeReading
import StageGraph.Proofs.TolerantReading
import StageGraph.Proofs.FaultyReading
import StageGraph.Proofs.WireTolerance
import StageGraph.Proofs.Rounding
import StageGraph.Proofs.Expectation
import StageGraph.Proofs.ResolutionPolicy
