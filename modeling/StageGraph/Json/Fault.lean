/-
# `StageGraph.Json.Fault` — why a document is refused

A document can fail as text (`endOfValue`, `expectedComma…`), as a value of the
wrong type, or as a record or choice whose parts are wrong.  Each cause is one
constructor; the wording is in `Fault.message`.  A `Refusal` says in addition
where in the document the fault was met.
-/
import StageGraph.Json.Value
import StageGraph.Text.Base64
import StageGraph.Text.Quoted

namespace StageGraph.Json

/-- What was found where something else was expected. -/
inductive Found where
  | null
  | bool (b : Bool)
  | int (n : Int)
  | float (x : Binary64)
  | string (s : String)
  | sequence
  | map
  /-- A choice named without content. -/
  | bareName
deriving DecidableEq, Repr

/-- What a reader expected. -/
inductive Expected where
  | i64
  | u8
  | u64
  | f64
  | boolean
  | string
  | unit
  | sequence
  | tuple (size : Nat)
  | record (name : String)
  | recordOf (name : String) (fields : Nat)
  /-- The two forms of a choice inside a value. -/
  | stringOrMap
  | singleKeyMap
  /-- Content of a choice. -/
  | content
  /-- An array that ends where its last part was read. -/
  | fewerElements
deriving DecidableEq, Repr

/-- Why a document is refused. -/
inductive Fault where
  | endOfValue
  | endOfString
  | endOfObject
  | endOfList
  | expectedValue
  | expectedIdent
  | expectedColon
  | expectedCommaOrBrace
  | expectedCommaOrBracket
  | trailingComma
  | trailingCharacters
  | keyNotString
  | invalidNumber
  | numberOutOfRange
  | invalidEscape
  | invalidCodePoint
  | controlCharacter
  | loneSurrogate
  | endOfHexEscape
  | tooDeep
  | missingField (name : String)
  | duplicateField (name : String)
  | unknownVariant (name : String) (known : List String)
  | invalidLength (length : Nat) (expected : Expected)
  | invalidType (found : Found) (expected : Expected)
  | invalidValue (found : Found) (expected : Expected)
  | base64 (fault : Base64.Fault)
deriving DecidableEq, Repr

/-- Numbers with a point are written plainly from `0.00001` to below `1e16`; otherwise with an
exponent, whose sign is always written. -/
def numberNotation : Shortest.Notation := ⟨-5, 15, "e+", "e-"⟩

/-- The wording of what was found. -/
def Found.message : Found → String
  | .null => "null"
  | .bool b => s!"boolean `{b}`"
  | .int n => s!"integer `{n}`"
  | .float x => s!"floating point `{numberNotation.render x}`"
  | .string s => s!"string {Quoted.render s}"
  | .sequence => "sequence"
  | .map => "map"
  | .bareName => "unit variant"

/-- The wording of what was expected. -/
def Expected.message : Expected → String
  | .i64 => "i64"
  | .u8 => "u8"
  | .u64 => "u64"
  | .f64 => "f64"
  | .boolean => "a boolean"
  | .string => "a string"
  | .unit => "unit"
  | .sequence => "a sequence"
  | .tuple n => s!"a tuple of size {n}"
  | .record name => s!"struct {name}"
  | .recordOf name 1 => s!"struct {name} with 1 element"
  | .recordOf name n => s!"struct {name} with {n} elements"
  | .stringOrMap => "string or map"
  | .singleKeyMap => "map with a single key"
  | .content => "newtype variant"
  | .fewerElements => "fewer elements in array"

/-- A list of names between backticks. -/
def quotedNames (names : List String) : String :=
  ", ".intercalate (names.map fun n => s!"`{n}`")

/-- The wording of a fault. -/
def Fault.message : Fault → String
  | .endOfValue => "EOF while parsing a value"
  | .endOfString => "EOF while parsing a string"
  | .endOfObject => "EOF while parsing an object"
  | .endOfList => "EOF while parsing a list"
  | .expectedValue => "expected value"
  | .expectedIdent => "expected ident"
  | .expectedColon => "expected `:`"
  | .expectedCommaOrBrace => "expected `,` or `\x7d`"
  | .expectedCommaOrBracket => "expected `,` or `]`"
  | .trailingComma => "trailing comma"
  | .trailingCharacters => "trailing characters"
  | .keyNotString => "key must be a string"
  | .invalidNumber => "invalid number"
  | .numberOutOfRange => "number out of range"
  | .invalidEscape => "invalid escape"
  | .invalidCodePoint => "invalid unicode code point"
  | .controlCharacter =>
    "control character (\\u0000-\\u001F) found while parsing a string"
  | .loneSurrogate => "lone leading surrogate in hex escape"
  | .endOfHexEscape => "unexpected end of hex escape"
  | .tooDeep => "recursion limit exceeded"
  | .missingField n => s!"missing field `{n}`"
  | .duplicateField n => s!"duplicate field `{n}`"
  | .unknownVariant n known => s!"unknown variant `{n}`, expected one of {quotedNames known}"
  | .invalidLength n e => s!"invalid length {n}, expected {e.message}"
  | .invalidType f e => s!"invalid type: {f.message}, expected {e.message}"
  | .invalidValue f e => s!"invalid value: {f.message}, expected {e.message}"
  | .base64 f => f.message

/-! ## Places -/

/-- A place in a document: its line, counted from one, and how many bytes of the line come
before it. -/
structure Position where
  line : Nat
  column : Nat
deriving DecidableEq, Repr

/-- The place one byte further. -/
def Position.next (p : Position) (b : UInt8) : Position :=
  if b = 10 then ⟨p.line + 1, 0⟩ else ⟨p.line, p.column + 1⟩

/-- The place after some bytes from the start of a document. -/
def Position.after (bytes : Bytes) : Position := bytes.foldl Position.next ⟨1, 0⟩

/-- Why a document is refused and where; a value that stands in no document has no places. -/
structure Refusal where
  fault : Fault
  position : Option Position
deriving DecidableEq, Repr

/-- The wording of a refusal. -/
def Refusal.message (r : Refusal) : String :=
  match r.position with
  | some p => s!"{r.fault.message} at line {p.line} column {p.column}"
  | none => r.fault.message

/-- What a value is, as a message names it. -/
def Found.of : Value → Found
  | .null => .null
  | .bool b => .bool b
  | .int n => .int n
  | .float x => .float x
  | .string s => .string s
  | .array _ => .sequence
  | .object _ => .map

end StageGraph.Json
