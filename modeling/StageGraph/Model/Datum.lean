/-
# `StageGraph.Model.Datum` — what a stage holds

A datum is what crosses between a function and the completer: nothing, bytes
with a content type, an error record, a reference to another stage, or the
final state of a flow.  On the wire it is a choice of these five.

Values of a program travel as blobs of JSON; null travels as the empty datum.
-/
import StageGraph.Model.Id
import StageGraph.Wire.Record
import StageGraph.Wire.Choice

namespace StageGraph

open StageGraph.Wire (Codec HasCodec)

/-- The category of an error record. -/
inductive ErrorType where
  | stageTimeout
  | stageFailed
  | functionTimeout
  | functionInvokeFailed
  | stageLost
  | invalidStageResponse
  | userError
  | unknownError
deriving DecidableEq, Repr, Inhabited

namespace ErrorType

/-- All categories, in the order of their declaration. -/
def all : List ErrorType :=
  [stageTimeout, stageFailed, functionTimeout, functionInvokeFailed, stageLost,
    invalidStageResponse, userError, unknownError]

/-- The tag of a category. -/
def tag : ErrorType → String
  | stageTimeout => "stage_timeout"
  | stageFailed => "stage_failed"
  | functionTimeout => "function_timeout"
  | functionInvokeFailed => "function_invoke_failed"
  | stageLost => "stage_lost"
  | invalidStageResponse => "invalid_stage_response"
  | userError => "user_error"
  | unknownError => "unknown_error"

/-- Tags that name no category are read as an unknown error. -/
def codec : Codec ErrorType := Codec.names all tag (some unknownError)

end ErrorType

/-- The final state of a flow. -/
inductive FlowState where
  | unknown
  | succeeded
  | failed
  | cancelled
  | killed
deriving DecidableEq, Repr, Inhabited

namespace FlowState

/-- All states, in the order of their declaration. -/
def all : List FlowState := [unknown, succeeded, failed, cancelled, killed]

/-- The tag of a state. -/
def tag : FlowState → String
  | unknown => "unknown"
  | succeeded => "succeeded"
  | failed => "failed"
  | cancelled => "cancelled"
  | killed => "killed"

def codec : Codec FlowState := Codec.names all tag none

end FlowState

instance : HasCodec FlowState := ⟨FlowState.codec⟩

/-- Bytes with a content type. -/
structure Blob where
  contentType : String
  data : Bytes
deriving DecidableEq, Repr

/-- A structured error. -/
structure ErrorRecord where
  type : ErrorType
  message : String
  trace : Option String
deriving DecidableEq, Repr

/-- An error record in one line. -/
def ErrorRecord.render (e : ErrorRecord) : String := s!"{e.type.tag}: {e.message}"

/-- A value that crosses between a function and the completer. -/
inductive Datum where
  | empty
  | blob (b : Blob)
  | error (e : ErrorRecord)
  | stageRef (stage : StageId)
  | state (s : FlowState)
deriving DecidableEq, Repr, Inhabited

/-! ## On the wire -/

namespace Blob

def fields : Wire.Fields Blob :=
  (((Wire.Fields.none (fun t d => ⟨t, d⟩)).required "content_type" Codec.string).required
    "data" Codec.base64)

def codec : Codec Blob :=
  .record "BlobDatum" fields fun b =>
    [("content_type", .string b.contentType), ("data", Codec.base64.toValue b.data)]

end Blob

namespace ErrorRecord

def fields : Wire.Fields ErrorRecord :=
  ((((Wire.Fields.none (fun t m r => ⟨t, m, r⟩)).required "type" ErrorType.codec).required
    "message" Codec.string).optional "trace" Codec.string.option none)

/-- An absent trace is left out. -/
def codec : Codec ErrorRecord :=
  .record "ErrorDatum" fields fun e =>
    [("type", .string e.type.tag), ("message", .string e.message)]
      ++ e.trace.toList.map fun t => ("trace", .string t)

end ErrorRecord

namespace Datum

/-- The codec of a reference to a stage. -/
def stageRefCodec : Codec StageId :=
  .record "StageRefDatum" ((Wire.Fields.none id).required "stage_id" Codec.stageId)
    fun s => [("stage_id", .string s.text)]

/-- The tag of a datum. -/
def kind : Datum → String
  | empty => "empty"
  | blob _ => "blob"
  | error _ => "error"
  | stageRef _ => "stage_ref"
  | state _ => "state"

/-- A datum as a value: its tag, with what it holds. -/
def toValue (d : Datum) : Json.Value :=
  match d with
  | empty => .string d.kind
  | blob b => .object [(d.kind, Blob.codec.toValue b)]
  | error e => .object [(d.kind, ErrorRecord.codec.toValue e)]
  | stageRef s => .object [(d.kind, stageRefCodec.toValue s)]
  | state s => .object [(d.kind, FlowState.codec.toValue s)]

def codec : Codec Datum :=
  .choice
    [.bare "empty" empty, .holding "blob" Blob.codec blob, .holding "error" ErrorRecord.codec error,
      .holding "stage_ref" stageRefCodec stageRef, .holding "state" FlowState.codec state]
    none toValue

/-! ## Making data -/

/-- The content type of values. -/
def jsonType : String := "application/json"

/-- A datum that carries a value; null is the empty datum. -/
def ofValue (v : Json.Value) : Datum :=
  if v.isNull then .empty else .blob ⟨jsonType, v.encode⟩

/-- A datum that carries a typed value. -/
def ofTyped {α : Type} [HasCodec α] (a : α) : Datum := ofValue ((HasCodec.codec (α := α)).toValue a)

/-- An error datum without a trace. -/
def failure (type : ErrorType) (message : String) : Datum := .error ⟨type, message, none⟩

/-- An error datum with a trace. -/
def traced (type : ErrorType) (message trace : String) : Datum :=
  .error ⟨type, message, some trace⟩

/-- The error record of a datum. -/
def record? : Datum → Option ErrorRecord
  | error e => some e
  | _ => none

end Datum

instance : HasCodec Datum := ⟨Datum.codec⟩

end StageGraph
