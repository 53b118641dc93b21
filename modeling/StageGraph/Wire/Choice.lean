/-
# `StageGraph.Wire.Choice` — one of several named cases

A case without content is written as its name, a case with content as an object
with the name as its only field.  A bare name may also be read from such an
object with null as content.
-/
import StageGraph.Wire.Codec

namespace StageGraph.Wire

open StageGraph.Json (Fault Stop Found Expected Value Reader stop stopLoose)

/-- A named case of a choice. -/
inductive Case (α : Type) : Type 1 where
  /-- A name that stands for a value. -/
  | bare (name : String) (a : α)
  /-- A name with content. -/
  | holding {β : Type} (name : String) (codec : Codec β) (wrap : β → α)

namespace Case

variable {α : Type}

/-- The name of a case. -/
def name : Case α → String
  | .bare n _ => n
  | .holding n _ _ => n

/-- The value of a case that was given by its name alone. -/
def alone : Case α → Except Fault α
  | .bare _ a => .ok a
  | .holding .. => .error (.invalidType .bareName .content)

/-- Reads the content of a case. -/
def readContent (room : Nat) : Case α → Reader α
  | .bare _ a, s => do
    let (_, rest) ← Codec.unit.read room s
    .ok (a, rest)
  | .holding _ codec wrap, s => do
    let (b, rest) ← codec.read room s
    .ok (wrap b, rest)

/-- Takes the content of a case from a value. -/
def takeContent : Case α → Value → Except Fault α
  | .bare _ a, v => do
    let _ ← Codec.unit.ofValue v
    .ok a
  | .holding _ codec wrap, v => (codec.ofValue v).map wrap

/-- The case of a name; `other`, if there is one, stands for all unknown names. -/
def named? (cases : List (Case α)) (other : Option (Case α)) (name : String) : Option (Case α) :=
  (cases.find? fun c => c.name = name) <|> other

/-- A name that no case has. -/
def unknown (cases : List (Case α)) (name : String) : Fault :=
  .unknownVariant name (cases.map Case.name)

/-- Reads a case from its name, whose opening mark has been taken. -/
def readAlone (cases : List (Case α)) (other : Option (Case α)) : Reader α := fun s => do
  let (name, rest) ← Json.readString s
  match named? cases other name with
  | none => stop (unknown cases name) rest
  | some c =>
    match c.alone with
    | .ok a => .ok (a, rest)
    | .error f => stopLoose f rest

/-- Reads a case with content from the inside of its object, up to the brace. -/
def readHolding (cases : List (Case α)) (other : Option (Case α)) (room : Nat) : Reader α :=
  fun s =>
    match Json.skipBlanks s with
    | [] => stop .endOfObject []
    | b :: rest =>
      if b = Json.byte '"' then do
        let (name, rest) ← Json.readString rest
        match named? cases other name with
        | none => stop (unknown cases name) rest
        | some c =>
          let rest ← Json.readColon rest
          c.readContent room rest
      else if b = Json.byte '\x7d' then stop .expectedValue rest
      else stop .keyNotString rest

/-- After the content of a case the object has to end; a byte that stands there instead is not
taken. -/
def endHolding (s : Bytes) : Except Stop Bytes :=
  match Json.skipBlanks s with
  | [] => stop .endOfObject []
  | b :: rest => if b = Json.byte '\x7d' then .ok rest else stop .expectedValue (b :: rest)

/-- Takes a case from its name. -/
def takeAlone (cases : List (Case α)) (other : Option (Case α)) (name : String) : Except Fault α :=
  match named? cases other name with
  | none => .error (unknown cases name)
  | some c => c.alone

/-- Takes a case from its name and its content. -/
def takeHolding (cases : List (Case α)) (other : Option (Case α)) (name : String) (v : Value) :
    Except Fault α :=
  match named? cases other name with
  | none => .error (unknown cases name)
  | some c => c.takeContent v

end Case

/-- The codec of a choice. -/
def Codec.choice {α : Type} (cases : List (Case α)) (other : Option (Case α))
    (toValue : α → Value) : Codec α where
  read room s :=
    match Json.skipBlanks s with
    | [] => stop .endOfValue []
    | b :: rest =>
      if b = Json.byte '"' then Case.readAlone cases other rest
      else if b = Json.byte '\x7b' then
        Codec.inside room rest fun room s => do
          let (a, s) ← Case.readHolding cases other room s
          let s ← Case.endHolding s
          .ok (a, s)
      else stop .expectedValue rest
  ofValue v :=
    match v with
    | .string name => Case.takeAlone cases other name
    | .object [(name, v)] => Case.takeHolding cases other name v
    | .object _ => .error (.invalidValue .map .singleKeyMap)
    | v => .error (.invalidType (Found.of v) .stringOrMap)
  toValue := toValue

/-- The codec of a choice among names alone. -/
def Codec.names {α : Type} (all : List α) (name : α → String) (other : Option α) : Codec α :=
  .choice (all.map fun a => .bare (name a) a) (other.map fun a => .bare (name a) a)
    fun a => .string (name a)

end StageGraph.Wire
