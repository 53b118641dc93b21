/-
# `StageGraph.Scenario.Environment` — where scenarios are run

A scenario runs over an in-process completer with the sample bodies, over a
client with prepared answers, or over the client of a completer service.
-/
import StageGraph.Client.Remote
import StageGraph.Client.Scripted
import StageGraph.Completer.Schedule
import StageGraph.Sample.Bodies
import StageGraph.Scenario.Run

namespace StageGraph.Scenario

/-- A number in so many hexadecimal digits. -/
def paddedHex (width n : Nat) : String :=
  let digits := Nat.toDigits 16 n
  String.ofList (List.replicate (width - digits.length) '0' ++ digits)

/-- The name of the flow that is created after `n` others.  All flows of a scenario are of one
series, which keeps their names apart from all texts that the scenario brings along. -/
def flowName (series : UInt32) (n : Nat) : FlowId :=
  ⟨s!"{paddedHex 8 series.toNat}-0000-4000-8000-{paddedHex 12 n}"⟩

/-- An in-process completer with the sample bodies. -/
def completer (series : UInt32) (hookLimit : Duration) : Completer :=
  ⟨Sample.catalog, hookLimit, flowName series⟩

/-- How many rounds a scenario may take that was written down in so many characters.  A sample body
does a few things and is named in the text, and so is every input of a stage. -/
def roundsFor (size : Nat) : Nat := 1000 + 200 * size

/-- Runs a scenario over an in-process completer. -/
def runInProcess (series : UInt32) (hookLimit : Duration) (size : Nat) (steps : List Step) :
    Option (Schedule.Result Trace) :=
  Schedule.run (completer series hookLimit) (roundsFor size) (.start (session steps) .empty)

/-- Runs a scenario over prepared answers. -/
def runScripted (replies : List ScriptedReply) (steps : List Step) :
    Except Panic Trace × Visit Script :=
  Script.client.run (session steps) (.ofReplies replies)

/-- Runs a scenario over a completer service. -/
def runRemote (base : String) (service : Remote.Service) (steps : List Step) :
    Except Panic Trace × Visit Remote.Service :=
  (Remote.client base).run (session steps) service

end StageGraph.Scenario
