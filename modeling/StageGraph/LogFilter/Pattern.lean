/-
# `StageGraph.LogFilter.Pattern` — patterns for the values of fields

A field of a filter may be bound to a value that matches a regular expression.
Only the question whether a pattern can be used is of interest here.  An
ill-formed one cannot, nor one that has to know more of the characters beyond
ASCII than their numbers (sets of digits or blanks, letters without case), nor
one that may match half of a character.

A pattern is read once from left to right.  Groups nest, so the settings to go
back to are kept in a list; counted repetitions do not occur, because the brace
that would close one ends the field.
-/
import StageGraph.Text.Alphanumeric
import StageGraph.Text.Blank

namespace StageGraph.LogFilter.Pattern

open StageGraph.Alphanumeric (isLetter isAlphanumeric)

/-- Why a pattern cannot be used. -/
inductive Fault where
  | unreadable
  /-- It asks for the edge of a word among all characters. -/
  | wordEdge
deriving DecidableEq, Repr

def Fault.message : Fault → String
  | .unreadable => "error building NFA"
  | .wordEdge => "unsupported regex feature for DFAs"

/-- The settings under which a part of a pattern is read. -/
structure Mode where
  ignoreCase : Bool
  /-- All characters are meant, and not only those of ASCII. -/
  unicode : Bool
  /-- Blanks and comments mean nothing. -/
  spaced : Bool
deriving DecidableEq, Repr

/-- The settings at the start of a pattern. -/
def Mode.initial : Mode := ⟨false, true, false⟩

/-- Whether letters would have to be known in both cases. -/
def Mode.folds (m : Mode) : Bool := m.ignoreCase && m.unicode

/-- Passes over blanks and comments, the first part of which may have been passed over. -/
def skipBlanks (inComment : Bool) : List Char → List Char
  | [] => []
  | c :: rest =>
    if inComment then skipBlanks (c != '\n') rest
    else if Blank.isBlank c then skipBlanks false rest
    else if c = '#' then skipBlanks true rest
    else c :: rest

/-- Passes over what means nothing. -/
def Mode.skip (m : Mode) (cs : List Char) : List Char := if m.spaced then skipBlanks false cs else cs

/-! ## Single characters and sets -/

/-- What one character, or a backslash with what belongs to it, stands for. -/
inductive Atom where
  /-- A character by its number; `short` if it was given by two hexadecimal digits. -/
  | literal (n : Nat) (short : Bool)
  /-- Digits, blanks or letters, or everything else. -/
  | set (negated : Bool)
  /-- A place; `word` if it is the edge of a word. -/
  | edge (word : Bool)
deriving DecidableEq, Repr

/-- The value of a hexadecimal digit. -/
def hexValue? (c : Char) : Option Nat :=
  if c.isDigit then some (c.toNat - 48)
  else if 'a' ≤ c ∧ c ≤ 'f' then some (c.toNat - 87)
  else if 'A' ≤ c ∧ c ≤ 'F' then some (c.toNat - 55)
  else none

/-- Reads so many hexadecimal digits of a number that begins with `n`. -/
def readHex (m : Mode) (n : Nat) : Nat → List Char → Option (Nat × List Char)
  | 0, cs => some (n, cs)
  | k + 1, cs =>
    match m.skip cs with
    | [] => none
    | c :: rest => do readHex m (16 * n + (← hexValue? c)) k rest

/-- Reads a character that is given by its number in so many digits. -/
def readNumbered (m : Mode) (width : Nat) (cs : List Char) : Option (Atom × List Char) := do
  let (n, rest) ← readHex m 0 width cs
  if n.isValidChar then some (.literal n (width = 2), rest) else none

/-- The control character that a letter after a backslash stands for. -/
def control? (c : Char) : Option Nat :=
  [('a', 7), ('t', 9), ('n', 10), ('v', 11), ('f', 12), ('r', 13)].lookup c

/-- Reads what belongs to a backslash. -/
def readEscape (m : Mode) : List Char → Option (Atom × List Char)
  | [] => none
  | c :: rest =>
    if c = 'x' then readNumbered m 2 rest
    else if c = 'u' then readNumbered m 4 rest
    else if c = 'U' then readNumbered m 8 rest
    else if "dsw".toList.contains c then some (.set false, rest)
    else if "DSW".toList.contains c then some (.set true, rest)
    else if "Az".toList.contains c then some (.edge false, rest)
    else if "bB<>".toList.contains c then some (.edge true, rest)
    else
      match control? c with
      | some n => some (.literal n false, rest)
      | none =>
        if c.isAlphanum ∨ 0x80 ≤ c.toNat then none else some (.literal c.toNat false, rest)

/-- Whether something may stand in a pattern by itself. -/
def Mode.admits (m : Mode) : Atom → Bool
  | .literal n short => !m.folds && (m.unicode || !short || n < 0x80)
  | .set negated => !m.unicode && !negated
  | .edge _ => true

/-- Whether something may stand in a class. -/
def Mode.admitsInClass (m : Mode) : Atom → Bool
  | .literal n _ => m.unicode || n < 0x80
  | .set negated => !m.unicode && !negated
  | .edge _ => false

/-! ## Classes -/

/-- Reads one character of a class, or what belongs to a backslash. -/
def readAtom (m : Mode) : List Char → Option (Atom × List Char)
  | [] => none
  | c :: rest => if c = '\\' then readEscape m rest else some (.literal c.toNat false, rest)

/-- Reads a part of a class: one character or set, or all characters from one to another. -/
def readPart (m : Mode) (cs : List Char) : Option (List Char) := do
  let (first, rest) ← readAtom m cs
  let rest := m.skip rest
  let alone : Option (List Char) := if m.admitsInClass first then some rest else none
  match rest with
  | '-' :: after =>
    match m.skip after with
    | ']' :: _ => alone
    | '-' :: _ => alone
    | after => do
      let (last, rest) ← readAtom m after
      match first, last with
      | .literal x _, .literal y _ =>
        if x ≤ y ∧ m.admitsInClass first ∧ m.admitsInClass last then some rest else none
      | _, _ => none
  | _ => alone

/-- The names of the sets that a class may hold in colons. -/
def namedSets : List String :=
  ["alnum", "alpha", "ascii", "blank", "cntrl", "digit", "graph", "lower", "print", "punct",
    "space", "upper", "word", "xdigit"]

/-- A named set after its bracket: whether everything else is meant, and what follows. -/
def namedSet? : List Char → Option (Bool × List Char)
  | ':' :: cs =>
    let negated := cs.head? = some '^'
    let cs := if negated then cs.drop 1 else cs
    match cs.dropWhile (· != ':') with
    | ':' :: ']' :: rest =>
      if namedSets.contains (String.ofList (cs.takeWhile (· != ':'))) then some (negated, rest)
      else none
    | _ => none
  | _ => none

/-- Opens a class after its bracket: whether everything else is meant, and what follows.  Hyphens
at the start stand for themselves, and so does a closing bracket that comes first. -/
def openClass (m : Mode) (cs : List Char) : Bool × List Char :=
  let (negated, cs) :=
    match m.skip cs with
    | '^' :: rest => (true, m.skip rest)
    | cs => (false, cs)
  match cs with
  | ']' :: rest => (negated, rest)
  | '-' :: _ => (negated, cs.dropWhile fun c => c == '-' || (m.spaced && Blank.isBlank c))
  | _ => (negated, cs)

/-- Reads the rest of a class inside so many others, up to the bracket that closes the outermost
one.  Every round takes a character. -/
def readClass (m : Mode) : Nat → Nat → List Char → Option (List Char)
  | 0, _, _ => none
  | fuel + 1, outer, cs =>
    match m.skip cs with
    | [] => none
    | '[' :: rest =>
      let (negated, rest, outer) :=
        match namedSet? rest with
        | some (negated, rest) => (negated, rest, outer)
        | none =>
          let (negated, rest) := openClass m rest
          (negated, rest, outer + 1)
      if negated ∧ !m.unicode then none else readClass m fuel outer rest
    | ']' :: rest =>
      match outer with
      | 0 => some rest
      | outer + 1 => readClass m fuel outer rest
    | '&' :: '&' :: rest => readClass m fuel outer rest
    | '-' :: '-' :: rest => readClass m fuel outer rest
    | '~' :: '~' :: rest => readClass m fuel outer rest
    | cs => readPart m cs >>= readClass m fuel outer

/-! ## Groups -/

/-- What a parenthesis opens. -/
inductive Opening where
  /-- A group with its settings, perhaps with a name. -/
  | group (m : Mode) (name : Option (List Char))
  /-- No group, but other settings for the rest of the group around it. -/
  | settings (m : Mode)
deriving DecidableEq, Repr

/-- Reads the name of a group up to its closing bracket. -/
def readName (cs : List Char) : Option (List Char × List Char) :=
  let name := cs.takeWhile (· != '>')
  let isPart (c : Char) : Bool := c == '_' || c == '.' || c == '[' || c == ']' || isAlphanumeric c
  match name, cs.dropWhile (· != '>') with
  | first :: more, _ :: rest =>
    if (first = '_' ∨ isLetter first) ∧ more.all isPart then some (name, rest) else none
  | _, _ => none

/-- A mode with one setting switched on or off. -/
def Mode.set (m : Mode) (flag : Char) (on : Bool) : Mode :=
  if flag = 'i' then { m with ignoreCase := on }
  else if flag = 'u' then { m with unicode := on }
  else if flag = 'x' then { m with spaced := on }
  else m

/-- Reads settings up to the end of the group or the colon before its content; each may be given
once, and a hyphen has to come before at least one. -/
def readSettings (m : Mode) (seen : List Char) : List Char → Option (Opening × List Char)
  | [] => none
  | c :: rest =>
    if c = ':' ∨ c = ')' then
      if seen.head? = some '-' then none
      else if c = ':' then some (.group m none, rest)
      else if seen.isEmpty then none
      else some (.settings m, rest)
    else if "imsUuxR-".toList.contains c ∧ c ∉ seen then
      readSettings (m.set c (!seen.contains '-')) (c :: seen) rest
    else none

/-- Reads what a parenthesis opens. -/
def readOpening (m : Mode) (cs : List Char) : Option (Opening × List Char) :=
  let named (cs : List Char) : Option (Opening × List Char) := do
    let (name, rest) ← readName cs
    some (.group m (some name), rest)
  match m.skip cs with
  | '?' :: 'P' :: '<' :: rest => named rest
  | '?' :: '<' :: rest => named rest
  | '?' :: rest => readSettings m [] rest
  | cs => some (.group m none, cs)

/-! ## Whole patterns -/

/-- How far a pattern has been read. -/
structure Progress where
  mode : Mode
  /-- The settings to go back to, those of the innermost group first. -/
  outer : List Mode
  /-- Whether something stands here that can be repeated. -/
  repeatable : Bool
  names : List (List Char)
  wordEdge : Bool
deriving DecidableEq, Repr

/-- Nothing has been read. -/
def Progress.initial : Progress := ⟨.initial, [], false, [], false⟩

/-- One part of a pattern, and what follows it. -/
def Progress.step (p : Progress) (c : Char) (rest : List Char) : Option (Progress × List Char) :=
  let after (ok : Bool) (rest : List Char) : Option (Progress × List Char) :=
    if ok then some ({ p with repeatable := true }, rest) else none
  if c = '(' then
    match readOpening p.mode rest with
    | none => none
    | some (.settings m, rest) => some ({ p with mode := m, repeatable := false }, rest)
    | some (.group m name, rest) =>
      if name.any fun n => p.names.contains n then none
      else
        some ({ p with
          mode := m
          outer := p.mode :: p.outer
          repeatable := false
          names := name.toList ++ p.names }, rest)
  else if c = ')' then
    match p.outer with
    | [] => none
    | m :: outer => some ({ p with mode := m, outer := outer, repeatable := true }, rest)
  else if c = '|' then some ({ p with repeatable := false }, rest)
  else if c = '[' then
    let (negated, rest) := openClass p.mode rest
    if p.mode.folds ∨ (negated ∧ !p.mode.unicode) then none
    else readClass p.mode (rest.length + 1) 0 rest >>= after true
  else if c = '?' ∨ c = '*' ∨ c = '+' then
    after p.repeatable (if rest.head? = some '?' then rest.drop 1 else rest)
  else if c = '\x7b' then none
  else if c = '\\' then do
    let (atom, rest) ← readEscape p.mode rest
    let edge := p.mode.unicode && atom == .edge true
    if p.mode.admits atom then
      some ({ p with repeatable := true, wordEdge := p.wordEdge || edge }, rest)
    else none
  else if c = '.' then after p.mode.unicode rest
  else if c = '^' ∨ c = '$' then after true rest
  else after (!p.mode.folds) rest

/-- Reads a pattern to its end.  Every round takes a character. -/
def readFrom : Nat → Progress → List Char → Option Progress
  | 0, _, _ => none
  | fuel + 1, p, cs =>
    match p.mode.skip cs with
    | [] => if p.outer.isEmpty then some p else none
    | c :: rest => do
      let (p, rest) ← p.step c rest
      readFrom fuel p rest

/-- Whether a pattern can be used. -/
def check (pattern : List Char) : Except Fault Unit :=
  match readFrom (pattern.length + 1) .initial pattern with
  | none => .error .unreadable
  | some p => if p.wordEdge then .error .wordEdge else .ok ()

end StageGraph.LogFilter.Pattern
