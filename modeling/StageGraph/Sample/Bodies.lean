/-
# `StageGraph.Sample.Bodies` — a catalog of bodies to try graphs out with

Small bodies of every kind: some give back what they captured, some compute,
wait, fail or panic, and some build further stages.  The first letters of a
name say the kind: `s` suppliers, `f` functions, `c` composers, `r` recoveries,
`rc` recovery composers, `b` combiners, `h` handlers and `k` hooks.

Every body first notes that it runs.
-/
import StageGraph.Continuation.Catalog
import StageGraph.Sample.Description
import StageGraph.Text.Blank
import StageGraph.Text.Integer

namespace StageGraph.Sample

open StageGraph.Json (Value)
open StageGraph.Wire (Codec HasCodec)
open StageGraph.Continuation (Body)

/-- The current flow. -/
def currentFlow : Body FlowId := (FlowM.currentFlow : FlowM bodySignature FlowId)

/-- A call on the current flow. -/
def onFlow {α : Type} (p : FlowId → FlowM bodySignature α) : Body α := do
  let flow ← currentFlow
  p flow

/-- Waits for so many milliseconds. -/
def pause (ms : UInt64) : Body Unit := BodyM.sleep (.ofMillis ms.toNat)

def fails {α : Type} (description : Value) : Body α := BodyM.fail (report description)

def failsWith {α : Type} (e : FlowError) : Body α := BodyM.fail (.ofFlow e)

/-- Notes that the body of an entry runs. -/
def note (name : String) : Body Unit := BodyM.question (.ran name)

/-! ## Suppliers -/

/-- The integer that a text denotes, blanks around it aside. -/
def parse (text : String) : Body Int64 :=
  match Integer.readSigned64 (Blank.trim text.toList) with
  | .ok n => return .ofInt n
  | .error f => BodyM.fail (.ofText f.message)

/-- Panics as described; nothing described is no panic. -/
def panicsUnlessNull (description : Value) : Body Int64 :=
  if description.isNull then return 0 else BodyM.panic (panic description)

def suppliers : List (String × Continuation) :=
  [("s.value", .supplier fun (c : Value) => do note "s.value"; return c),
    ("s.parse", .supplier fun (c : String) => do note "s.parse"; parse c),
    ("s.fail", .supplier fun (c : Value) => do note "s.fail"; (fails c : Body Value)),
    ("s.panic", .supplier fun (c : Value) => do note "s.panic"; panicsUnlessNull c),
    ("s.sleep", .supplier fun (c : UInt64 × Value) => do
      note "s.sleep"
      pause c.1
      return c.2),
    ("s.whoami", .supplier fun (_ : Unit) => do note "s.whoami"; currentFlow),
    ("s.nested", .supplier fun (c : Closure) => do
      note "s.nested"
      onFlow fun flow => do (← flow.supply c).get Codec.value)]

/-! ## Functions -/

/-- A sum that has to fit. -/
def addChecked (a c : Int64) : Body Int64 :=
  let sum := a.toInt + c.toInt
  if -Int.pow 2 63 ≤ sum ∧ sum < Int.pow 2 63 then return .ofInt sum
  else BodyM.fail (.ofText "overflow")

def functions : List (String × Continuation) :=
  [("f.id", .function fun (_ a : Value) => do note "f.id"; return a),
    ("f.add", .function fun (c a : Int64) => do note "f.add"; addChecked a c),
    ("f.len", .function fun (_ : Unit) (a : String) => do
      note "f.len"
      return UInt64.ofNat a.utf8ByteSize),
    ("f.concat", .function fun (c a : String) => do note "f.concat"; return a ++ c),
    ("f.count", .function fun (_ : Unit) (a : List Int64) => do
      note "f.count"
      return UInt64.ofNat a.length),
    ("f.answer", .function fun (_ _ : Unit) => do note "f.answer"; return (42 : Int64)),
    ("f.opt", .function fun (c a : Option Int64) => do note "f.opt"; return a.or c),
    ("f.u8", .function fun (c a : UInt8) => do note "f.u8"; return a ^^^ c),
    ("f.pair", .function fun (_ : Unit) (a : String × Int64) => do
      note "f.pair"
      return (a.2, a.1)),
    ("f.fail", .function fun (c _ : Value) => do note "f.fail"; (fails c : Body Value)),
    ("f.sleep", .function fun (c : UInt64) (a : Value) => do
      note "f.sleep"
      pause c
      return a)]

/-! ## Composers -/

def composers : List (String × Continuation) :=
  [("c.value", .composer fun (c a : Value) => do
      note "c.value"
      onFlow fun flow => flow.completed (.array [c, a])),
    ("c.failed", .composer fun (c : Datum) (_ : Value) => do
      note "c.failed"
      onFlow fun flow => flow.failed c),
    ("c.stage", .composer fun (c : String) (_ : Value) => do
      note "c.stage"
      return ⟨← currentFlow, ⟨c⟩⟩),
    ("c.foreign", .composer fun (c : String × String) (_ : Value) => do
      note "c.foreign"
      return ⟨⟨c.1⟩, ⟨c.2⟩⟩),
    ("c.delay", .composer fun (c : UInt64) (_ : Value) => do
      note "c.delay"
      onFlow fun flow => flow.delay (.ofMillis c.toNat)),
    ("c.fail", .composer fun (c _ : Value) => do note "c.fail"; fails c),
    ("c.supply", .composer fun (c : Closure) (_ : Value) => do
      note "c.supply"
      onFlow fun flow => flow.supply c),
    ("c.apply", .composer fun (c : Closure) (a : Value) => do
      note "c.apply"
      onFlow fun flow => do (← flow.completed a).thenApply c)]

/-! ## Recoveries -/

/-- The message of the error record that a failure carries. -/
def recordMessage (e : FlowError) : Option String :=
  (e.failureDatum?.bind Datum.record?).map ErrorRecord.message

/-- The failure of a stage read as a value. -/
def decoded (e : FlowError) : Body Value :=
  match e.failureDatum? with
  | some d => BodyM.ofExcept (d.decode Value)
  | none => failsWith e

def recoveries : List (String × Continuation) :=
  [("r.value", .recovery fun (c : Value) _ => do note "r.value"; return c),
    ("r.describe", .recovery fun (_ : Unit) e => do
      note "r.describe"
      return s!"{e.errorType.tag} / {e.message}"),
    ("r.message", .recovery fun (_ : Unit) e => do note "r.message"; return recordMessage e),
    ("r.rethrow", .recovery fun (_ : Unit) e => do
      note "r.rethrow"
      (failsWith e : Body Value)),
    ("r.context", .recovery fun (c : String) e => do
      note "r.context"
      (BodyM.fail ((Report.ofFlow e).wrap (.text c)) : Body Value)),
    ("r.decode", .recovery fun (_ : Unit) e => do note "r.decode"; decoded e)]

def recoveryComposers : List (String × Continuation) :=
  [("rc.value", .recoveryComposer fun (c : Value) _ => do
      note "rc.value"
      onFlow fun flow => flow.completed c),
    ("rc.supply", .recoveryComposer fun (c : Closure) _ => do
      note "rc.supply"
      onFlow fun flow => flow.supply c),
    ("rc.stage", .recoveryComposer fun (c : String) _ => do
      note "rc.stage"
      return ⟨← currentFlow, ⟨c⟩⟩),
    ("rc.rethrow", .recoveryComposer fun (_ : Unit) e => do note "rc.rethrow"; failsWith e)]

/-! ## Combiners and handlers -/

def combiners : List (String × Continuation) :=
  [("b.list", .combiner fun (c a b : Value) => do
      note "b.list"
      return Value.array [c, a, b]),
    ("b.label", .combiner fun (c : String) (a : Int64) (b : String) => do
      note "b.label"
      return s!"{b}{c}{a.toInt}"),
    ("b.fail", .combiner fun (c _ _ : Value) => do note "b.fail"; (fails c : Body Value))]

/-- Either outcome with what was captured. -/
def labelled (captured : Value) : Except FlowError Value → Value
  | .ok v => .object [("captured", captured), ("ok", v)]
  | .error e => .object [("captured", captured), ("err", .string e.message)]

/-- Either outcome in words. -/
def described : Except FlowError Int64 → String
  | .ok v => s!"value {v.toInt}"
  | .error e => s!"error {e.errorType.tag}: {e.message}"

def handlers : List (String × Continuation) :=
  [("h.describe", .handler fun (_ : Unit) (o : Except FlowError Int64) => do
      note "h.describe"
      return described o),
    ("h.value", .handler fun (c : Value) (o : Except FlowError Value) => do
      note "h.value"
      return labelled c o),
    ("h.rethrow", .handler fun (_ : Unit) (o : Except FlowError Value) => do
      note "h.rethrow"
      BodyM.ofExcept o),
    ("h.fail", .handler fun (c : Value) (_ : Except FlowError Value) => do
      note "h.fail"
      (fails c : Body Value)),
    ("h.sleep", .handler fun (c : UInt64) (o : Except FlowError Value) => do
      note "h.sleep"
      pause c
      return o.isOk)]

/-! ## Hooks -/

/-- A line of the hook log. -/
def logs (what : String) (s : FlowState) : Body Unit := BodyM.log s!"{what}:{s.tag}"

/-- Adds stages to a flow that is over, in two ways. -/
def addsStages (v : Value) : Body Unit := do
  let flow ← currentFlow
  match ← ExceptT.lift (flow.completed v : FlowM bodySignature Handle).run with
  | .ok h => BodyM.log s!"stage {h.stage}"
  | .error e => BodyM.log e.message
  let _ ← (flow.supply (.bare "s.value") : FlowM bodySignature Handle)
  return ()

def hooks : List (String × Continuation) :=
  [("k.log", .hook fun (c : String) s => do note "k.log"; logs c s),
    ("k.fail", .hook fun (c : Value) s => do
      note "k.fail"
      logs "k.fail" s
      fails c),
    ("k.panic", .hook fun (c : Value) _ => do note "k.panic"; BodyM.panic (panic c)),
    ("k.sleep", .hook fun (c : UInt64 × String) s => do
      note "k.sleep"
      pause c.1
      logs c.2 s),
    ("k.expect", .hook fun (c : FlowState) s => do
      note "k.expect"
      if s = c then return () else BodyM.fail (.ofText s!"unexpected state {s.tag}")),
    ("k.stage", .hook fun (c : Value) _ => do note "k.stage"; addsStages c),
    ("k.hook", .hook fun (c : Closure) s => do
      note "k.hook"
      onFlow fun flow => flow.addHook c
      logs "k.hook" s)]

/-- The catalog of all sample bodies. -/
def catalog : Catalog :=
  .ofList (suppliers ++ functions ++ composers ++ recoveries ++ recoveryComposers ++ combiners
    ++ handlers ++ hooks)

end StageGraph.Sample
