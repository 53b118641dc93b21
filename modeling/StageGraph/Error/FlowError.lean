/-
# `StageGraph.Error.FlowError` — what a flow operation can fail with

Failures of stages travel through a graph as data.  They become an error only
where a result is retrieved, and then carry the datum untouched.  All other
errors say what was wrong with a call: an argument, a value that cannot be
read, a flow or stage that is not there, a completer that does not answer.

Each cause is a constructor; `message` holds the wording.  An error that was
reported by another party is known by its text only (`stated`).
-/
import StageGraph.Model.Outcome
import StageGraph.Model.Operation

namespace StageGraph

/-- What is wrong with the arguments of a call. -/
inductive Misuse where
  | needsTwoInputs (op : Operation) (count : Nat)
  | needsOneInput (op : Operation) (count : Nat)
  | needsNoInputs (op : Operation) (count : Nat)
  | needsSomeInput
  | needsCompletedInput (op : Operation)
  | needsBody (op : Operation)
  | hasOwnCall (op : Operation)
  | foreignStage (stage : StageId) (owner here : FlowId)
  | alreadyCommitted (flow : FlowId)
  | notTerminated (flow : FlowId)
  | missingInput
  | recoveryShape
  | handlerShape
  | hookShape
  | stated (text : String)
deriving DecidableEq, Repr

/-- The wording of a misuse. -/
def Misuse.message : Misuse → String
  | .needsTwoInputs op n => s!"{op.tag} takes exactly two inputs, got {n}"
  | .needsOneInput op n => s!"{op.tag} takes exactly one input, got {n}"
  | .needsNoInputs op n => s!"{op.tag} takes no inputs, got {n}"
  | .needsSomeInput => "at least one future must be specified"
  | .needsCompletedInput op => s!"{op.tag} needs a completed input"
  | .needsBody op => s!"{op.tag} stages need a body"
  | .hasOwnCall op => s!"{op.tag} stages have their own endpoint"
  | .foreignStage s owner here => s!"stage {s} belongs to flow {owner}, not {here}"
  | .alreadyCommitted f => s!"flow {f} has already been committed"
  | .notTerminated f => s!"flow {f} has not terminated"
  | .missingInput => "missing stage input"
  | .recoveryShape => "recovery bodies take exactly one failed input"
  | .handlerShape => "handler bodies take a value slot and an error slot"
  | .hookShape => "hook bodies take the flow state as their only input"
  | .stated text => text

/-- What cannot be read. -/
inductive Unreadable where
  | datum (refusal : Json.Refusal)
  | outcome (refusal : Json.Refusal)
  | invocation (refusal : Json.Refusal)
  /-- The empty datum is no value of the type. -/
  | emptyDatum (fault : Json.Fault)
  | blob (refusal : Json.Refusal)
  | contentType (type : String)
  | notValue (kind : String)
  | captured (entry : String) (fault : Json.Fault)
  /-- The answer of a completer service. -/
  | response
  | stated (text : String)
deriving DecidableEq, Repr

/-- The wording of what cannot be read. -/
def Unreadable.message : Unreadable → String
  | .datum r => s!"failed to decode datum: {r.message}"
  | .outcome r => s!"failed to decode completion result: {r.message}"
  | .invocation r => s!"invalid stage invocation: {r.message}"
  | .emptyDatum f => s!"empty datum does not decode as requested type: {f.message}"
  | .blob r => s!"failed to decode JSON blob: {r.message}"
  | .contentType t => s!"cannot decode blob with content type '{t}' as a value"
  | .notValue k => s!"cannot decode {k} datum as a value"
  | .captured e f => s!"captured data of '{e}' does not match the handler: {f.message}"
  | .response => "failed to parse completer response: error decoding response body"
  | .stated text => text

/-- How a completer service failed. -/
inductive ServiceError where
  /-- The text that was to be the address of a request is none. -/
  | badAddress (url : String)
  /-- The request could not be sent; the address as it was asked for and as it was sent. -/
  | unreachable (url sentTo : String)
  /-- The service answered with a status that is no success. -/
  | returned (status body : String)
  | stated (text : String)
deriving DecidableEq, Repr

/-- The wording of a service error. -/
def ServiceError.message : ServiceError → String
  | .badAddress url => s!"request to {url} failed: builder error"
  | .unreachable url sent =>
    s!"request to {url} failed: error sending request for url ({sent})"
  | .returned status body => s!"completer returned {status}: {body}"
  | .stated text => text

/-- A condition that is nobody's mistake at run time. -/
inductive PlatformError where
  | notResolvedFromInputs (op : Operation)
  | badLogFilter (filter reason : String)
  | stated (text : String)
deriving DecidableEq, Repr

/-- The wording of a platform error. -/
def PlatformError.message : PlatformError → String
  | .notResolvedFromInputs op => s!"{op.tag} stages are not resolved from inputs"
  | .badLogFilter filter reason => s!"invalid log filter '{filter}': {reason}"
  | .stated text => text

/-- What a flow operation can fail with. -/
inductive FlowError where
  | noActiveFlow
  /-- A stage ended with failure; the datum is the one it ended with. -/
  | stageFailure (d : Datum)
  | invalidArgument (m : Misuse)
  | codec (u : Unreadable)
  | unknownFlow (flow : FlowId)
  | unknownStage (flow : FlowId) (stage : StageId)
  | flowTerminated (flow : FlowId)
  | timeout (stage : StageId)
  | completer (e : ServiceError)
  | platform (e : PlatformError)
deriving DecidableEq, Repr

/-- The wording of a stage failure, by what its datum is. -/
def Datum.failureMessage : Datum → String
  | .error e => s!"Stage failed: {e.render}"
  | .blob b => s!"Stage failed with a {b.contentType} payload"
  | d => s!"Stage failed with a {d.kind} datum"

namespace FlowError

/-- The wording of an error. -/
def message : FlowError → String
  | noActiveFlow =>
    "No active flow: flow operations are only available while a flow invocation is running"
  | stageFailure d => d.failureMessage
  | invalidArgument m => s!"Invalid argument: {m.message}"
  | codec u => s!"Codec error: {u.message}"
  | unknownFlow f => s!"Unknown flow: {f}"
  | unknownStage f s => s!"Unknown stage {s} in flow {f}"
  | flowTerminated f => s!"Flow {f} has already terminated"
  | timeout s => s!"Timed out waiting for stage {s}"
  | completer e => s!"Completer error: {e.message}"
  | platform e => s!"Platform error: {e.message}"

/-- The category under which an error is recorded as the result of a stage. -/
def errorType : FlowError → ErrorType
  | stageFailure d => (d.record?.map ErrorRecord.type).getD .userError
  | timeout _ => .stageTimeout
  | codec _ => .invalidStageResponse
  | unknownStage _ _ => .stageLost
  | invalidArgument _ => .userError
  | noActiveFlow | unknownFlow _ | flowTerminated _ | completer _ | platform _ => .unknownError

/-- The name of an error's kind. -/
def kind : FlowError → String
  | noActiveFlow => "no_active_flow"
  | stageFailure _ => "stage_failure"
  | invalidArgument _ => "invalid_argument"
  | codec _ => "codec"
  | unknownFlow _ => "unknown_flow"
  | unknownStage _ _ => "unknown_stage"
  | flowTerminated _ => "flow_terminated"
  | timeout _ => "timeout"
  | completer _ => "completer"
  | platform _ => "platform"

/-- The datum of a stage failure. -/
def failureDatum? : FlowError → Option Datum
  | stageFailure d => some d
  | _ => none

end FlowError

/-! ## Reading values out of data -/

namespace Datum

open StageGraph.Wire (Codec HasCodec)

/-- The value that a datum carries, read by a codec. -/
def decodeWith {α : Type} (c : Codec α) : Datum → Except FlowError α
  | .empty => (c.ofValue .null).mapError fun f => .codec (.emptyDatum f)
  | .blob b =>
    if b.contentType = jsonType then (c.decode b.data).mapError fun r => .codec (.blob r)
    else .error (.codec (.contentType b.contentType))
  | d => .error (.codec (.notValue d.kind))

/-- The value of a type that a datum carries. -/
def decode (α : Type) [HasCodec α] (d : Datum) : Except FlowError α := d.decodeWith HasCodec.codec

/-- The bytes of a datum. -/
def toBytes (d : Datum) : Bytes := codec.encode d

/-- The datum of some bytes. -/
def ofBytes (bytes : Bytes) : Except FlowError Datum :=
  (codec.decode bytes).mapError fun r => .codec (.datum r)

end Datum

namespace Outcome

/-- The bytes of an outcome. -/
def toBytes (o : Outcome) : Bytes := codec.encode o

/-- The outcome of some bytes. -/
def ofBytes (bytes : Bytes) : Except FlowError Outcome :=
  (codec.decode bytes).mapError fun r => .codec (.outcome r)

/-- What retrieving a terminal stage gives: its value, or its failure as an error. -/
def retrieve {α : Type} (c : StageGraph.Wire.Codec α) : Outcome → Except FlowError α
  | success d => d.decodeWith c
  | failure d => .error (.stageFailure d)

end Outcome

end StageGraph
