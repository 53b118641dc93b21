/-
# `StageGraph.Sample.Description` — errors and panics described as data

Sample bodies are told by their captured data how to fail.  A description is an
object whose fields say which error is meant; what is not said is empty, and
what is no description at all means a plain error without a text.
-/
import StageGraph.Error.Report

namespace StageGraph.Sample

open StageGraph.Json (Value)

/-- The text of a field; a missing one is empty. -/
def textOf (v : Value) (name : String) : String :=
  match v.field? name with
  | some (.string s) => s
  | _ => ""

/-- The datum of a field in its wire form; a missing one is empty. -/
def datumOf (v : Value) : Datum := (Datum.codec.ofValue v).toOption.getD .empty

/-- A flow error: its kind, and the text or the names that the kind asks for. -/
def flowError (v : Value) : FlowError :=
  let message := textOf v "message"
  let flow : FlowId := ⟨textOf v "flow"⟩
  let stage : StageId := ⟨textOf v "stage"⟩
  match textOf v "kind" with
  | "no_active_flow" => .noActiveFlow
  | "stage_failure" => .stageFailure (datumOf ((v.field? "datum").getD .null))
  | "invalid_argument" => .invalidArgument (.stated message)
  | "codec" => .codec (.stated message)
  | "unknown_flow" => .unknownFlow flow
  | "unknown_stage" => .unknownStage flow stage
  | "flow_terminated" => .flowTerminated flow
  | "timeout" => .timeout stage
  | "completer" => .completer (.stated message)
  | _ => .platform (.stated message)

/-- An error of a chain that is not plain text. -/
def cause? (v : Value) : Option Cause :=
  match v.field? "flow", v.field? "failure" with
  | some e, _ => some (.flow (flowError e))
  | none, some d => some (.failure (datumOf d))
  | none, none => none

/-- A plain text as an error of a chain. -/
def plain : Value → Cause
  | .string s => .text s
  | _ => .text ""

/-- The errors of a chain, outermost first: plain texts, then the tail if there is one. -/
def chain (v : Value) : List Cause :=
  match v.field? "chain" with
  | some (.array texts) => texts.map plain ++ ((v.field? "tail").bind cause?).toList
  | _ => []

/-- A context around an error. -/
def context (v : Value) : Context :=
  match v, v.field? "flow" with
  | .string s, _ => .text s
  | _, some e => .flow (flowError e)
  | _, none => .text ""

/-- The contexts around an error, innermost first. -/
def contexts (v : Value) : List Context :=
  match v.field? "context" with
  | some (.array cs) => cs.map context
  | _ => []

/-- The error without its contexts. -/
def base (v : Value) : Report :=
  match cause? v, chain v with
  | some c, _ => ⟨[], c, []⟩
  | none, c :: rest => ⟨[], c, rest⟩
  | none, [] => .ofText (textOf v "message")

/-- The error of a description. -/
def report (v : Value) : Report := (contexts v).foldl Report.wrap (base v)

/-- The panic of a description: a text, or anything else. -/
def panic (v : Value) : Panic :=
  match v.field? "str", v.field? "string" with
  | some (.string s), _ => .text s
  | _, some (.string s) => .text s
  | _, _ => .other

end StageGraph.Sample
