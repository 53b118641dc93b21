/-
# `StageGraph.Model.Id` — names of flows and stages

A flow is one graph of stages; a stage is named within its flow only.  Both
names are plain strings that the completer chose, and are written as such.
-/
import StageGraph.Wire.Codec

namespace StageGraph

/-- Names a flow. -/
structure FlowId where
  text : String
deriving DecidableEq, Repr, Inhabited

/-- Names a stage of a flow. -/
structure StageId where
  text : String
deriving DecidableEq, Repr, Inhabited

instance : ToString FlowId := ⟨FlowId.text⟩
instance : ToString StageId := ⟨StageId.text⟩

namespace Wire.Codec

def flowId : Codec FlowId := string.map (fun s => .ok ⟨s⟩) FlowId.text

def stageId : Codec StageId := string.map (fun s => .ok ⟨s⟩) StageId.text

end Wire.Codec

instance : Wire.HasCodec FlowId := ⟨.flowId⟩
instance : Wire.HasCodec StageId := ⟨.stageId⟩

namespace Id

/-- Puts a text among texts in ascending order. -/
def insertSorted (s : String) : List String → List String
  | [] => [s]
  | t :: rest => if t < s then t :: insertSorted s rest else s :: t :: rest

/-- Texts in ascending order. -/
def sort (texts : List String) : List String := texts.foldr insertSorted []

/-- Drops all but the first of equal neighbours. -/
def dropRepeats : List String → List String
  | [] => []
  | [s] => [s]
  | s :: t :: rest => if s = t then dropRepeats (t :: rest) else s :: dropRepeats (t :: rest)

/-- Texts in ascending order, each once. -/
def sortUnique (texts : List String) : List String := dropRepeats (sort texts)

end Id

end StageGraph
