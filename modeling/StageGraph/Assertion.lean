/-
# `StageGraph.Assertion` — expectations about results and errors

What a test may expect of an outcome or of an error, whether it holds, and what
is said when it does not.
-/
import StageGraph.Error.FlowError
import StageGraph.Model.Shown

namespace StageGraph

/-- An expectation. -/
inductive Assertion where
  | success (o : Outcome)
  | failure (o : Outcome)
  | failureType (o : Outcome) (expected : ErrorType)
  | stageFailure (e : FlowError) (expected : Datum)
  | failureMessage (e : FlowError) (needle : String)
deriving DecidableEq, Repr

namespace Assertion

/-- Whether `needle` stands somewhere in `text`. -/
def occursIn (needle text : List Char) : Bool :=
  match text with
  | [] => needle.isEmpty
  | c :: rest => needle.isPrefixOf (c :: rest) || occursIn needle rest

/-- The message of an equality that does not hold, with what is on either side. -/
def unequal (text left right : String) : String :=
  "assertion `left == right` failed: " ++ text ++ "\n  left: " ++ left ++ "\n right: " ++ right

/-- What is said of a failure in place of a success, before what it holds. -/
def gotFailure : String := "Expected success, got failure"

/-- What is said of a success in place of a failure, before what it holds. -/
def gotSuccess : String := "Expected failure, got success"

/-- The category of the error record of an outcome. -/
def typeOf (o : Outcome) : Option ErrorType := o.datum.record?.map ErrorRecord.type

/-- How a category that may be missing is shown. -/
def shownType (t : Option ErrorType) : String := Shown.option (t.map ErrorType.shown)

/-- The message of the error record of a stage failure, or nothing. -/
def messageOf (e : FlowError) : String :=
  match e.failureDatum?.bind Datum.record? with
  | some r => r.message
  | none => ""

/-- Holds an expectation against what is there; says what is wrong if it does not hold. -/
def check : Assertion → Except String Unit
  | success o => if o.isSuccess then .ok () else .error (gotFailure ++ ": " ++ o.datum.shown)
  | failure o => if o.isFailure then .ok () else .error (gotSuccess ++ ": " ++ o.datum.shown)
  | failureType o expected =>
    if o.isSuccess then .error (gotSuccess ++ ": " ++ o.datum.shown)
    else if typeOf o = some expected then .ok ()
    else .error (unequal s!"Expected error type {expected.tag}, got {shownType (typeOf o)}"
      (shownType (typeOf o)) (shownType (some expected)))
  | stageFailure e expected =>
    match e.failureDatum? with
    | some d =>
      if d = expected then .ok ()
      else .error (unequal "Stage failure carries a different datum" d.shown expected.shown)
    | none => .error s!"Expected a stage failure, got: {e.message}"
  | failureMessage e needle =>
    if occursIn needle.toList (messageOf e).toList then .ok ()
    else .error s!"Expected stage failure message containing '{needle}', got: {e.message}"

/-- The first line of a message.  A carriage return before the line feed belongs to the line's end.
Of an outcome of the other kind only this is told, and not what it holds. -/
def firstLine (message : String) : String :=
  match [gotFailure, gotSuccess].find? fun text => text.toList.isPrefixOf message.toList with
  | some text => text
  | none =>
    let line := message.toList.takeWhile (· ≠ '\n')
    let ended := message.toList.contains '\n'
    String.ofList (if ended ∧ line.getLast? = some '\r' then line.dropLast else line)

end Assertion

end StageGraph
