/-
# `StageGraph.Wire.Record` — records as objects

A record is described once, by its name and its fields in order; the
description reads it from the fields of an object in any order, or from an
array of the fields in their own order.  Unknown names are skipped, a field
given twice is a fault, and a field that is not given must have a fallback.
-/
import StageGraph.Wire.Codec

namespace StageGraph.Wire

open StageGraph.Json (Fault Stop Found Expected Value Reader stop stopLoose)

/-- The fields of a record of type `α`, the last one outermost. -/
inductive Fields : Type → Type 1 where
  /-- No fields: the record is there. -/
  | none {α : Type} (a : α) : Fields α
  /-- A field after the earlier ones; what the fallback gives is used when it is absent. -/
  | field {α β : Type} (earlier : Fields (β → α)) (name : String) (codec : Codec β)
      (fallback : Option β) : Fields α

namespace Fields

/-- A field that has to be given. -/
def required {α β : Type} (earlier : Fields (β → α)) (name : String) (codec : Codec β) : Fields α :=
  .field earlier name codec Option.none

/-- A field that may be left out. -/
def optional {α β : Type} (earlier : Fields (β → α)) (name : String) (codec : Codec β)
    (fallback : β) : Fields α :=
  .field earlier name codec (some fallback)

/-- What has been read so far, for each field. -/
def Slots : {α : Type} → Fields α → Type
  | _, .none _ => Unit
  | _, .field (β := β) earlier _ _ _ => Slots earlier × Option β

/-- Nothing read yet. -/
def start : {α : Type} → (fs : Fields α) → fs.Slots
  | _, .none _ => ()
  | _, .field earlier _ _ _ => (start earlier, Option.none)

/-- How many fields there are. -/
def size : {α : Type} → Fields α → Nat
  | _, .none _ => 0
  | _, .field earlier _ _ _ => size earlier + 1

/-- The record, once nothing more follows: a field that was not read takes its fallback. -/
def finish : {α : Type} → (fs : Fields α) → fs.Slots → Except Fault α
  | _, .none a, _ => .ok a
  | _, .field (β := β) earlier name _ fallback, slots => do
    let read : earlier.Slots × Option β := slots
    let f ← finish earlier read.1
    match read.2, fallback with
    | some b, _ => .ok (f b)
    | Option.none, some b => .ok (f b)
    | Option.none, Option.none => .error (.missingField name)

/-! ## From an object -/

/-- What a name means to a record. -/
inductive Step (σ : Type) where
  | unknown
  | duplicate
  | take (read : Nat → Reader σ) (ofValue : Value → Except Fault σ)

/-- A step on the earlier fields as a step on all. -/
def Step.widen {σ τ : Type} (f : σ → τ) : Step σ → Step τ
  | .unknown => .unknown
  | .duplicate => .duplicate
  | .take read ofValue =>
    .take (fun room s => do let (a, rest) ← read room s; .ok (f a, rest))
      fun v => (ofValue v).map f

/-- What to do with a field of the given name. -/
def step : {α : Type} → (fs : Fields α) → String → fs.Slots → Step fs.Slots
  | _, .none _, _, _ => .unknown
  | _, .field (β := β) earlier n codec _, name, slots =>
    let read : earlier.Slots × Option β := slots
    if name = n then
      if read.2.isSome then .duplicate
      else .take
        (fun room s => do let (b, rest) ← codec.read room s; .ok ((read.1, some b), rest))
        fun v => (codec.ofValue v).map fun b => (read.1, some b)
    else (step earlier name read.1).widen fun earlierRead => (earlierRead, read.2)

/-- Reads the fields of an object after its brace.  Every round takes a byte. -/
def readObject {α : Type} (fs : Fields α) (room : Nat) :
    Nat → Bool → fs.Slots → Bytes → Except Stop (α × Bytes)
  | 0, _, _, s => stop .endOfObject s
  | fuel + 1, first, slots, s => do
    let (name, s) ← Json.nextName first s
    match name with
    | Option.none =>
      match fs.finish slots with
      | .ok a => .ok (a, s)
      | .error f => stop f s
    | some name =>
      match fs.step name slots with
      | .duplicate => stopLoose (.duplicateField name) s
      | .unknown => do
        let s ← Json.readColon s
        let s ← Json.skipValue s
        readObject fs room fuel false slots s
      | .take read _ => do
        let s ← Json.readColon s
        let (slots, s) ← read room s
        readObject fs room fuel false slots s

/-- Takes the fields of an object that has been read. -/
def takeObject {α : Type} (fs : Fields α) (slots : fs.Slots) :
    List (String × Value) → Except Fault fs.Slots
  | [] => .ok slots
  | (name, v) :: rest =>
    match fs.step name slots with
    | .duplicate => .error (.duplicateField name)
    | .unknown => takeObject fs slots rest
    | .take _ ofValue => do
      let slots ← ofValue v
      takeObject fs slots rest

/-! ## From an array -/

/-- Reads the fields in their order, as far as the array goes. -/
def readArray (record : String) (total room : Nat) :
    {α : Type} → Fields α → Reader α
  | _, .none a, s => .ok (a, s)
  | _, .field earlier _ codec fallback, s => do
    let (f, s) ← readArray record total room earlier s
    let (more, s) ← Json.nextItem (earlier.size = 0) s
    if more then
      let (b, s) ← codec.read room s
      .ok (f b, s)
    else
      match fallback with
      | some b => .ok (f b, s)
      | Option.none => stopLoose (.invalidLength earlier.size (.recordOf record total)) s

/-- Takes the fields in their order from an array that has been read; gives what is left of it. -/
def takeArray (record : String) (total : Nat) :
    {α : Type} → Fields α → List Value → Except Fault (α × List Value)
  | _, .none a, vs => .ok (a, vs)
  | _, .field earlier _ codec fallback, vs => do
    let (f, vs) ← takeArray record total earlier vs
    match vs, fallback with
    | v :: vs, _ => do
      let b ← codec.ofValue v
      .ok (f b, vs)
    | [], some b => .ok (f b, [])
    | [], Option.none => .error (.invalidLength earlier.size (.recordOf record total))

end Fields

/-- The codec of a record. -/
def Codec.record {α : Type} (name : String) (fs : Fields α) (toFields : α → List (String × Value)) :
    Codec α where
  read room s := do
    let (found, rest) ← Json.readFound s
    match found with
    | .map =>
      Codec.insideObject room rest fun room s =>
        fs.readObject room (s.length + 1) true fs.start s
    | .sequence =>
      Codec.insideArray room rest fun room s => do
        let (a, s) ← fs.readArray name fs.size room s
        let s ← Json.endItems s
        .ok (a, s)
    | found => stop (.invalidType found (.record name)) (found.place s rest)
  ofValue v :=
    match v with
    | .object fields => fs.takeObject fs.start fields >>= fs.finish
    | .array items => do
      let (a, rest) ← fs.takeArray name fs.size items
      if rest.isEmpty then .ok a else .error (.invalidLength items.length .fewerElements)
    | v => .error (.invalidType (Found.of v) (.record name))
  toValue a := .object (toFields a)

end StageGraph.Wire
