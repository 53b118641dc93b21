/-
# `StageGraph.LogFilter` — filters for log output

A filter is a list of directives between commas.  A directive is a level, or a
target with an optional span in brackets and an optional level after an equals
sign.  A span may name fields in braces, which may be bound to values.  Only the
question whether a filter can be read is of interest here.

A directive is walked through without the blanks around it, but its parts are
cut out of the text with them: at the end a blank belongs to the level, and at
the start it moves every cut to the left.
-/
import StageGraph.Error.Report
import StageGraph.LogFilter.Pattern
import StageGraph.Text.Integer
import StageGraph.Text.Quoted

namespace StageGraph.LogFilter

/-- Why a directive cannot be read. -/
inductive Fault where
  | directive
  | level
  | field (fault : Pattern.Fault)
deriving DecidableEq, Repr

def Fault.message : Fault → String
  | .directive => "invalid filter directive"
  | .level =>
    "error parsing level filter: expected one of \"off\", \"error\", \"warn\", \"info\", " ++
      "\"debug\", \"trace\", or a number 0-5"
  | .field f => s!"invalid field filter: {f.message}"

/-- How the reading of a filter ends early: with a fault, or with a cut through a character. -/
inductive Stop where
  | fault (f : Fault)
  | cut (p : Panic)

/-! ## Levels and values -/

/-- Whether a text names a level: a name in any case, or a number up to five. -/
def isLevel (cs : List Char) : Bool :=
  match Integer.readIndex? cs with
  | some n => n ≤ 5
  | none =>
    let lower := String.ofList (cs.map Char.toLower)
    ["", "off", "error", "warn", "info", "debug", "trace"].contains lower

/-- Whether a text is digits with at most one point among them. -/
def isPlainDecimal (cs : List Char) : Bool :=
  let whole := cs.takeWhile Char.isDigit
  match cs.dropWhile Char.isDigit with
  | [] => !whole.isEmpty
  | c :: fraction =>
    c == '.' && fraction.all Char.isDigit && !(whole.isEmpty && fraction.isEmpty)

/-- Whether a text is a number: a sign if any, then an infinity, no number at all, or digits with
a point and an exponent if any. -/
def isNumber (cs : List Char) : Bool :=
  let unsigned (cs : List Char) : List Char :=
    match cs with
    | '+' :: rest => rest
    | '-' :: rest => rest
    | cs => cs
  let lower := (unsigned cs).map Char.toLower
  let exponent := lower.dropWhile (· != 'e')
  ["inf", "infinity", "nan"].contains (String.ofList lower)
    || (isPlainDecimal (lower.takeWhile (· != 'e'))
      && (exponent.isEmpty
        || (let digits := unsigned (exponent.drop 1)
            !digits.isEmpty && digits.all Char.isDigit)))

/-- Reads a field: a name, and after an equals sign a number or a pattern. -/
def readField (cs : List Char) : Except Fault Unit :=
  match cs.dropWhile (· != '=') with
  | [] => .ok ()
  | _ :: rest =>
    let value := rest.takeWhile (· != '=')
    if isNumber value then .ok () else (Pattern.check value).mapError .field

/-! ## Cutting -/

/-- A character in single quotation marks. -/
def quotedChar (c : Char) : String := String.ofList ('\'' :: Quoted.showChar c ++ ['\''])

/-- The character that has a byte inside, not as its first, and where it begins. -/
def around? (i : Nat) : Nat → List Char → Option (Nat × Char)
  | _, [] => none
  | place, c :: rest =>
    if place < i ∧ i < place + c.utf8Size then some (place, c)
    else around? i (place + c.utf8Size) rest

/-- Refuses to cut a text at a byte inside a character. -/
def checkCut (text : List Char) (side : String) (i : Nat) : Except Stop Unit :=
  match around? i 0 text with
  | none => .ok ()
  | some (start, c) =>
    .error (.cut (.text (s!"{side} byte index {i} is not a char boundary; it is inside " ++
      s!"{quotedChar c} (bytes {start}..{start + c.utf8Size} of string)")))

/-- The bytes of a text from one place to another, as characters. -/
def cut (text : List Char) (start stop : Nat) : Except Stop (List Char) := do
  checkCut text "start" start
  checkCut text "end" stop
  let bytes := (Utf8.ofString (String.ofList text)).drop start
  .ok ((Utf8.toString? (bytes.take (stop - start))).getD "").toList

/-! ## Directives -/

/-- Where a directive may go on; a part that may be cut out is known by its first byte. -/
inductive Place where
  | start
  | target
  | span (start : Nat)
  | field (start : Nat)
  | afterFields
  | afterSpan
  | level (start : Nat)
deriving DecidableEq, Repr

/-- Whether a directive may begin with a character. -/
def startsDirective (c : Char) : Bool :=
  c == '-' || c == ':' || c == '_' || Alphanumeric.isAlphanumeric c

/-- One character of a directive, at the byte `i` of the text. -/
def step (text : List Char) (i : Nat) : Place → Char → Except Stop Place
  | .start, c =>
    if c = '[' then .ok (.span (i + 1))
    else if startsDirective c then .ok .target
    else .error (.fault .directive)
  | .target, c =>
    if c = '=' ∨ c = '[' then do
      let _ ← cut text 0 i
      .ok (if c = '=' then .level (i + 1) else .span (i + 1))
    else .ok .target
  | .span start, c =>
    if c = ']' ∨ c = '\x7b' then do
      let _ ← cut text start i
      .ok (if c = ']' then .afterSpan else .field (i + 1))
    else .ok (.span start)
  | .field start, c =>
    if c ≠ '\x7d' then .ok (.field start)
    else do
      let field ← cut text start i
      if start = i then .error (.fault .directive)
      else
        (readField field).mapError .fault
        .ok .afterFields
  | .afterFields, c => if c = ']' then .ok .afterSpan else .error (.fault .directive)
  | .afterSpan, c => if c = '=' then .ok (.level (i + 1)) else .error (.fault .directive)
  | .level start, _ => .ok (.level start)

/-- Whether a directive may end at a place. -/
def finish (text : List Char) : Place → Except Stop Unit
  | .target | .afterSpan => .ok ()
  | .level start => do
    let level ← cut text start (Utf8.ofString (String.ofList text)).length
    if isLevel level then .ok () else .error (.fault .level)
  | .start | .span _ | .field _ | .afterFields => .error (.fault .directive)

/-- Walks through characters from the byte `i` on. -/
def walk (text : List Char) : Nat → Place → List Char → Except Stop Place
  | _, p, [] => .ok p
  | i, p, c :: rest => do
    let p ← step text i p c
    walk text (i + c.utf8Size) p rest

/-- Reads a directive. -/
def readDirective (text : List Char) : Except Stop Unit :=
  walk text 0 .start (Blank.trim text) >>= finish text

/-- Reads a filter; empty directives are passed over. -/
def read (filter : String) : Except Stop Unit :=
  ((filter.splitOn ",").filter fun d => !d.isEmpty).forM fun d => readDirective d.toList

/-- The error of a filter that cannot be read; a cut through a character is a panic. -/
def check (filter : String) : Except Panic (Except FlowError Unit) :=
  match read filter with
  | .ok () => .ok (.ok ())
  | .error (.fault f) => .ok (.error (.platform (.badLogFilter filter f.message)))
  | .error (.cut p) => .error p

end StageGraph.LogFilter
