/-
# `StageGraph.Model.Shown` — data as they are shown in reports

A report that something is not as it was expected shows what is there instead, in one line: every
form by its name together with all that it holds, texts in quotation marks and bytes as numbers.
-/
import StageGraph.Model.Datum
import StageGraph.Text.Quoted

namespace StageGraph

namespace Shown

/-- A name with one thing in parentheses. -/
def holding (name what : String) : String := name ++ "(" ++ what ++ ")"

/-- A name with things that have names of their own. -/
def record (name : String) (fields : List (String × String)) : String :=
  name ++ " \x7b " ++ ", ".intercalate (fields.map fun f => f.1 ++ ": " ++ f.2) ++ " \x7d"

/-- Things in their order. -/
def list (items : List String) : String := "[" ++ ", ".intercalate items ++ "]"

/-- Something that may be missing. -/
def option : Option String → String
  | none => "None"
  | some s => holding "Some" s

end Shown

/-- The name by which a category is shown. -/
def ErrorType.shown : ErrorType → String
  | .stageTimeout => "StageTimeout"
  | .stageFailed => "StageFailed"
  | .functionTimeout => "FunctionTimeout"
  | .functionInvokeFailed => "FunctionInvokeFailed"
  | .stageLost => "StageLost"
  | .invalidStageResponse => "InvalidStageResponse"
  | .userError => "UserError"
  | .unknownError => "UnknownError"

/-- The name by which a state is shown. -/
def FlowState.shown : FlowState → String
  | .unknown => "Unknown"
  | .succeeded => "Succeeded"
  | .failed => "Failed"
  | .cancelled => "Cancelled"
  | .killed => "Killed"

def StageId.shown (s : StageId) : String := Shown.holding "StageId" (Quoted.render s.text)

def Blob.shown (b : Blob) : String :=
  Shown.record "BlobDatum"
    [("content_type", Quoted.render b.contentType),
      ("data", Shown.list (b.data.map fun byte => toString byte.toNat))]

def ErrorRecord.shown (e : ErrorRecord) : String :=
  Shown.record "ErrorDatum"
    [("error_type", e.type.shown), ("message", Quoted.render e.message),
      ("trace", Shown.option (e.trace.map Quoted.render))]

/-- A datum with all that it holds. -/
def Datum.shown : Datum → String
  | .empty => "Empty"
  | .blob b => Shown.holding "Blob" b.shown
  | .error e => Shown.holding "Error" e.shown
  | .stageRef s =>
    Shown.holding "StageRef" (Shown.record "StageRefDatum" [("stage_id", s.shown)])
  | .state s => Shown.holding "State" s.shown

end StageGraph
