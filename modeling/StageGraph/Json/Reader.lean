/-
# `StageGraph.Json.Reader` — parts, sequences and free values

The steps that all readers share (the next item, the next name, the end of an
array), and the reader of free values, for which the fields of an object are
sorted and the last of two fields of one name wins.

Arrays and objects may be nested `maxDepth` deep.  A reader is told how many
more may be opened.
-/
import StageGraph.Json.Skip

namespace StageGraph.Json

/-- How deep arrays and objects may be nested. -/
def maxDepth : Nat := 127

/-! ## Steps -/

/-- Looks for the next item of an array, before the first item or after an earlier one; false at
the closing bracket, which is left in place. -/
def nextItem (first : Bool) (s : Bytes) : Except Stop (Bool × Bytes) :=
  match skipBlanks s with
  | [] => stop .endOfList []
  | b :: rest =>
    if b = byte ']' then .ok (false, b :: rest)
    else if first then .ok (true, b :: rest)
    else if b = byte ',' then
      match skipBlanks rest with
      | [] => stop .endOfValue []
      | c :: rest => if c = byte ']' then stop .trailingComma rest else .ok (true, c :: rest)
    else stop .expectedCommaOrBracket rest

/-- The end of an array after the last item that was wanted. -/
def endItems (s : Bytes) : Except Stop Bytes :=
  match skipBlanks s with
  | [] => stop .endOfList []
  | b :: rest =>
    if b = byte ']' then .ok rest
    else if b = byte ',' then
      match skipBlanks rest with
      | c :: rest => stop (if c = byte ']' then .trailingComma else .trailingCharacters) rest
      | [] => stop .trailingCharacters []
    else stop .trailingCharacters rest

/-- Looks for the next name of an object; none at the closing brace, which is consumed. -/
def nextName (first : Bool) (s : Bytes) : Except Stop (Option String × Bytes) :=
  let name (rest : Bytes) : Except Stop (Option String × Bytes) := do
    let (k, rest) ← readString rest
    .ok (some k, rest)
  match skipBlanks s with
  | [] => stop .endOfObject []
  | b :: rest =>
    if b = byte '\x7d' then .ok (none, rest)
    else if first then if b = byte '"' then name rest else stop .keyNotString rest
    else if b = byte ',' then
      match skipBlanks rest with
      | [] => stop .endOfValue []
      | c :: rest =>
        if c = byte '"' then name rest
        else if c = byte '\x7d' then stop .trailingComma rest
        else stop .keyNotString rest
    else stop .expectedCommaOrBrace rest

/-- The colon after a name. -/
def readColon (s : Bytes) : Except Stop Bytes :=
  match skipBlanks s with
  | [] => stop .endOfObject []
  | b :: rest => if b = byte ':' then .ok rest else stop .expectedColon rest

/-- What is left of an array once a fault inside makes the rest of it unwanted: its end is taken
if it comes next, and so is a comma. -/
def leaveItems (s : Bytes) : Bytes :=
  match skipBlanks s with
  | [] => []
  | b :: rest =>
    if b = byte ']' then rest else if b = byte ',' then skipBlanks rest else b :: rest

/-- What is left of an object once a fault inside makes the rest of it unwanted: its end is taken
if it comes next. -/
def leaveFields (s : Bytes) : Bytes :=
  match skipBlanks s with
  | [] => []
  | b :: rest => if b = byte '\x7d' then rest else b :: rest

/-- Gives a loose fault its place: where the bracket around it has been left. -/
def settle {α : Type} (leave : Bytes → Bytes) : Except Stop α → Except Stop α
  | .ok a => .ok a
  | .error e => .error (if e.loose then ⟨e.fault, leave e.rest, false⟩ else e)

/-- The items of an array after its bracket.  Every round takes a byte. -/
def readItems {α : Type} (item : Reader α) : Nat → Bool → Bytes → Except Stop (List α × Bytes)
  | 0, _, s => stop .endOfList s
  | fuel + 1, first, s => do
    let (more, s) ← nextItem first s
    if more then
      let (a, s) ← item s
      let (rest, s) ← readItems item fuel false s
      .ok (a :: rest, s)
    else
      .ok ([], s.drop 1)

/-- The fields of an object after its brace. -/
def readFields {α : Type} (value : Reader α) :
    Nat → Bool → Bytes → Except Stop (List (String × α) × Bytes)
  | 0, _, s => stop .endOfObject s
  | fuel + 1, first, s => do
    let (name, s) ← nextName first s
    match name with
    | none => .ok ([], s)
    | some name =>
      let s ← readColon s
      let (a, s) ← value s
      let (rest, s) ← readFields value fuel false s
      .ok ((name, a) :: rest, s)

/-! ## What stands next -/

/-- A value that is no array and no object, or the news that one begins. -/
def readFound : Reader Found := fun s =>
  match skipBlanks s with
  | [] => stop .endOfValue []
  | b :: rest =>
    if b = byte 'n' then (readWord ("ull".toList.map byte) rest).map (.null, ·)
    else if b = byte 't' then (readWord ("rue".toList.map byte) rest).map (.bool true, ·)
    else if b = byte 'f' then (readWord ("alse".toList.map byte) rest).map (.bool false, ·)
    else if b = byte '-' ∨ isDigit b then do
      let (n, rest) ← readNumber (b :: rest)
      match n with
      | .int n => .ok (.int n, rest)
      | .float x => .ok (.float x, rest)
    else if b = byte '"' then (readString rest).map fun p => (.string p.1, p.2)
    else if b = byte '[' then .ok (.sequence, rest)
    else if b = byte '\x7b' then .ok (.map, rest)
    else stop .expectedValue rest

/-- The place of a fault about what was found at the start of `s`, with `rest` behind it: an array
or object is faulted before its bracket, anything else behind its last byte. -/
def Found.place (found : Found) (s rest : Bytes) : Bytes :=
  match found with
  | .sequence | .map => skipBlanks s
  | _ => rest

/-- The value that was found, unless it is an array or an object yet to be read. -/
def Found.scalar? : Found → Option Value
  | .null => some .null
  | .bool b => some (.bool b)
  | .int n => some (.int n)
  | .float x => some (.float x)
  | .string s => some (.string s)
  | .sequence | .map | .bareName => none

/-- Reads a free value with room for so many open brackets. -/
def readValue : Nat → Reader Value
  | 0, s => do
    let (found, rest) ← readFound s
    match found.scalar? with
    | some v => .ok (v, rest)
    | none => stop .tooDeep rest
  | room + 1, s => do
    let (found, rest) ← readFound s
    match found.scalar?, found with
    | some v, _ => .ok (v, rest)
    | none, .sequence => do
      let (items, rest) ← readItems (readValue room) (rest.length + 1) true rest
      .ok (.array items, rest)
    | none, _ => do
      let (fields, rest) ← readFields (readValue room) (rest.length + 1) true rest
      .ok (ofFields fields, rest)

/-- Nothing but blanks may follow a document. -/
def endDocument (s : Bytes) : Except Stop Unit :=
  match skipBlanks s with
  | [] => .ok ()
  | _ :: rest => stop .trailingCharacters rest

/-- Where in a document a reading stopped; a loose fault of no bracket has no place. -/
def Stop.refusal (document : Bytes) (e : Stop) : Refusal :=
  ⟨e.fault, if e.loose then none
    else some (.after (document.take (document.length - e.rest.length)))⟩

/-- Reads a whole document. -/
def readDocument {α : Type} (reader : Reader α) (s : Bytes) : Except Refusal α :=
  let read : Except Stop α := do
    let (a, rest) ← reader s
    endDocument rest
    .ok a
  read.mapError (Stop.refusal s)

/-- The free value of a document. -/
def parse (s : Bytes) : Except Refusal Value := readDocument (readValue maxDepth) s

end StageGraph.Json
