/-
# `StageGraph.Wire.Codec` — typed values as JSON

A codec says how values of a type are written and how they are read, in two
ways: from the text of a document, where the first fault from the left decides,
and from a value that has been read before.  The two agree except in how they
word some faults, since a text still has its brackets and a value does not.
-/
import StageGraph.Json.Reader
import StageGraph.Json.Printer

namespace StageGraph.Wire

open StageGraph.Json (Fault Refusal Stop Found Expected Value Reader stop stopLoose)

/-- How values of a type are written and read. -/
structure Codec (α : Type) where
  /-- Reads from a text, with room for so many open brackets. -/
  read : Nat → Reader α
  /-- Reads from a value. -/
  ofValue : Value → Except Fault α
  /-- Writes as a value, whose fields stand in the order of their declaration. -/
  toValue : α → Value

/-- Types with a codec of their own. -/
class HasCodec (α : Type) where
  codec : Codec α

namespace Codec

variable {α β : Type}

/-- The value that a document holds. -/
def decode (c : Codec α) (document : Bytes) : Except Refusal α :=
  Json.readDocument (c.read Json.maxDepth) document

/-- The document that holds a value. -/
def encode (c : Codec α) (a : α) : Bytes := (c.toValue a).encode

/-- A codec for values that need no brackets: `accept` judges what was found. -/
def scalar (accept : Found → Except Fault α) (toValue : α → Value) : Codec α where
  read _ s := do
    let (found, rest) ← Json.readFound s
    match accept found with
    | .ok a => .ok (a, rest)
    | .error f => stop f (found.place s rest)
  ofValue v := accept (Found.of v)
  toValue := toValue

/-- A codec for a type that is written as another one. -/
def map (c : Codec α) (f : α → Except Fault β) (g : β → α) : Codec β where
  read room s := do
    let (a, rest) ← c.read room s
    match f a with
    | .ok b => .ok (b, rest)
    | .error f => stopLoose f rest
  ofValue v := c.ofValue v >>= f
  toValue b := c.toValue (g b)

/-- Any value at all. -/
def value : Codec Value where
  read := Json.readValue
  ofValue v := .ok v
  toValue v := v

/-- No information: null. -/
def unit : Codec Unit :=
  scalar (fun | .null => .ok () | f => .error (.invalidType f .unit)) fun _ => .null

def bool : Codec Bool :=
  scalar (fun | .bool b => .ok b | f => .error (.invalidType f .boolean)) .bool

def string : Codec String :=
  scalar (fun | .string s => .ok s | f => .error (.invalidType f .string)) .string

/-- Integers from `least` to `greatest`. -/
def intBetween (least greatest : Int) (expected : Expected) : Codec Int :=
  scalar
    (fun
      | .int n =>
        if least ≤ n ∧ n ≤ greatest then .ok n else .error (.invalidValue (.int n) expected)
      | f => .error (.invalidType f expected))
    .int

def int64 : Codec Int64 :=
  (intBetween (-Int.pow 2 63) (Int.pow 2 63 - 1) .i64).map (fun n => .ok (Int64.ofInt n)) Int64.toInt

def uint8 : Codec UInt8 :=
  (intBetween 0 (Int.pow 2 8 - 1) .u8).map (fun n => .ok (UInt8.ofNat n.toNat)) fun n => n.toNat

def uint64 : Codec UInt64 :=
  (intBetween 0 (Int.pow 2 64 - 1) .u64).map (fun n => .ok (UInt64.ofNat n.toNat)) fun n => n.toNat

/-- Numbers of any form, as floating point numbers. -/
def float : Codec Binary64 :=
  scalar
    (fun
      | .int n => .ok (Binary64.ofInt n)
      | .float x => .ok x
      | f => .error (.invalidType f .f64))
    fun x => if x.isFinite then .float x else .null

/-- Null, or a value of another type. -/
def option (c : Codec α) : Codec (Option α) where
  read room s :=
    match Json.skipBlanks s with
    | b :: rest =>
      if b = Json.byte 'n' then do
        let rest ← Json.readWord ("ull".toList.map Json.byte) rest
        .ok (none, rest)
      else do
        let (a, rest) ← c.read room (b :: rest)
        .ok (some a, rest)
    | [] => do
      let (a, rest) ← c.read room []
      .ok (some a, rest)
  ofValue v :=
    match v with
    | .null => .ok none
    | v => (c.ofValue v).map some
  toValue
    | none => .null
    | some a => c.toValue a

/-- Goes into an array or object, whose parts are `rest`: what is allowed inside has one bracket
less. -/
def inside (room : Nat) (rest : Bytes) (body : Nat → Reader α) : Except Stop (α × Bytes) :=
  match room with
  | 0 => stop .tooDeep rest
  | room + 1 => body room rest

/-- Goes into an array, to the place where its last part has been read. -/
def insideArray (room : Nat) (rest : Bytes) (body : Nat → Reader α) : Except Stop (α × Bytes) :=
  Json.settle Json.leaveItems (inside room rest body)

/-- Goes into an object, to the place where it has ended. -/
def insideObject (room : Nat) (rest : Bytes) (body : Nat → Reader α) : Except Stop (α × Bytes) :=
  Json.settle Json.leaveFields (inside room rest body)

/-- An array of values of one type. -/
def list (c : Codec α) : Codec (List α) where
  read room s := do
    let (found, rest) ← Json.readFound s
    match found with
    | .sequence =>
      insideArray room rest fun room s => Json.readItems (c.read room) (s.length + 1) true s
    | found => stop (.invalidType found .sequence) (found.place s rest)
  ofValue v :=
    match v with
    | .array items => items.mapM c.ofValue
    | v => .error (.invalidType (Found.of v) .sequence)
  toValue as := .array (as.map c.toValue)

/-- The next part of a tuple, if the array goes on. -/
def nextPart (c : Codec α) (room : Nat) (first : Bool) (position : Nat) (expected : Expected)
    (s : Bytes) : Except Stop (α × Bytes) := do
  let (more, s) ← Json.nextItem first s
  if more then c.read room s else stopLoose (.invalidLength position expected) s

/-- An array of two values. -/
def pair (c : Codec α) (d : Codec β) : Codec (α × β) where
  read room s := do
    let (found, rest) ← Json.readFound s
    match found with
    | .sequence =>
      insideArray room rest fun room s => do
        let (a, s) ← nextPart c room true 0 (.tuple 2) s
        let (b, s) ← nextPart d room false 1 (.tuple 2) s
        let s ← Json.endItems s
        .ok ((a, b), s)
    | found => stop (.invalidType found (.tuple 2)) (found.place s rest)
  ofValue v :=
    match v with
    | .array [] => .error (.invalidLength 0 (.tuple 2))
    | .array (v :: rest) => do
      let a ← c.ofValue v
      match rest with
      | [] => .error (.invalidLength 1 (.tuple 2))
      | w :: more =>
        let b ← d.ofValue w
        if more.isEmpty then .ok (a, b)
        else .error (.invalidLength (more.length + 2) .fewerElements)
    | v => .error (.invalidType (Found.of v) (.tuple 2))
  toValue p := .array [c.toValue p.1, d.toValue p.2]

/-- Bytes as a base64 string. -/
def base64 : Codec Bytes :=
  string.map (fun s => (Base64.decode (Utf8.ofString s)).mapError .base64)
    fun b => String.ofList (Base64.encode b)

end Codec

instance : HasCodec Value := ⟨Codec.value⟩
instance : HasCodec Unit := ⟨Codec.unit⟩
instance : HasCodec Bool := ⟨Codec.bool⟩
instance : HasCodec String := ⟨Codec.string⟩
instance : HasCodec Int64 := ⟨Codec.int64⟩
instance : HasCodec UInt8 := ⟨Codec.uint8⟩
instance : HasCodec UInt64 := ⟨Codec.uint64⟩
instance : HasCodec Binary64 := ⟨Codec.float⟩
instance {α : Type} [HasCodec α] : HasCodec (Option α) := ⟨Codec.option HasCodec.codec⟩
instance {α : Type} [HasCodec α] : HasCodec (List α) := ⟨Codec.list HasCodec.codec⟩
instance {α β : Type} [HasCodec α] [HasCodec β] : HasCodec (α × β) :=
  ⟨Codec.pair HasCodec.codec HasCodec.codec⟩

end StageGraph.Wire
