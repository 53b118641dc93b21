/-
# `StageGraph.Client.Address` — addresses as they are sent

The text of an address is taken apart before anything is sent: tabs and line ends
in it mean nothing, what follows the host is a path, a query after `?` and a
fragment after `#`.  In the path a backslash is a slash, and segments of dots are
resolved.  Unusual characters of each part are percent-encoded: blanks, control
characters, some brackets and quotes, and every byte of a character outside ASCII.
-/
import StageGraph.Text.Utf8

namespace StageGraph

/-- An address, taken apart. -/
structure Address where
  host : String
  /-- The segments of the path; a path that ends with a slash has an empty one at its end. -/
  segments : List String
  query : Option String
  fragment : Option String
deriving DecidableEq, Repr

namespace Address

/-! ## Percent-encoding -/

/-- The hexadecimal digit of a number below sixteen. -/
def hexDigit (n : Nat) : Char := ("0123456789ABCDEF".toList[n]?).getD '0'

/-- A byte as a percent sign and two digits. -/
def percent (b : UInt8) : List Char := ['%', hexDigit (b.toNat / 16), hexDigit (b.toNat % 16)]

/-- Characters that are sent as they are, those of `special` aside. -/
def isPlain (special : List Char) (c : Char) : Bool :=
  0x20 < c.toNat && c.toNat < 0x7F && !special.contains c

/-- A text in which all characters but the plain ones are encoded. -/
def encode (special : List Char) (cs : List Char) : List Char :=
  cs.flatMap fun c =>
    if isPlain special c then [c] else (Utf8.ofString (String.singleton c)).flatMap percent

/-- Characters that are encoded in a path. -/
def pathSpecial : List Char := ['"', '<', '>', '`', '\x7b', '\x7d']

/-- Characters that are encoded in a query. -/
def querySpecial : List Char := ['"', '<', '>', '\'']

/-- Characters that are encoded in a fragment. -/
def fragmentSpecial : List Char := ['"', '<', '>', '`']

/-! ## Paths -/

/-- The parts of a text between its slashes. -/
def splitAtSlashes : List Char → List (List Char)
  | [] => [[]]
  | c :: rest =>
    if c = '/' ∨ c = '\\' then [] :: splitAtSlashes rest
    else
      match splitAtSlashes rest with
      | [] => [[c]]
      | part :: parts => (c :: part) :: parts

/-- A segment with its encoded dots written plainly. -/
def plainDots : List Char → List Char
  | '%' :: '2' :: 'e' :: rest => '.' :: plainDots rest
  | '%' :: '2' :: 'E' :: rest => '.' :: plainDots rest
  | c :: rest => c :: plainDots rest
  | [] => []

/-- Whether a segment is a letter with a colon or a bar, as a drive is written. -/
def isDrive (segment : List Char) : Bool :=
  match segment with
  | [letter, mark] => letter.isAlpha && (mark == ':' || mark == '|')
  | _ => false

/-- Takes the last segment away.  A drive stays. -/
def dropLast : List (List Char) → List (List Char)
  | [] => []
  | last :: before => if isDrive last then last :: before else before

/-- Resolves segments after those that are there already, the latest first: one dot stands for
nothing, two dots take the segment before them away.  After dots at the end the path ends with a
slash. -/
def resolve (before : List (List Char)) : List (List Char) → List (List Char)
  | [] => before
  | segment :: rest =>
    let close (path : List (List Char)) : List (List Char) :=
      if rest.isEmpty then [] :: path else path
    match plainDots segment with
    | ['.'] => resolve (close before) rest
    | ['.', '.'] => resolve (close (dropLast before)) rest
    | _ => resolve (segment :: before) rest

/-- The segments of a path that is given with its first slash; without any it is the root. -/
def segmentsOf (path : List Char) : List (List Char) :=
  (resolve [] (splitAtSlashes (encode pathSpecial (path.drop 1)))).reverse

/-! ## Hosts -/

/-- The name of the service that addresses are built on.  It stands for all that leads to the
service, so that nothing can be added to it. -/
def service : List Char := "server".toList

/-- Whether a host is a name, written in ASCII: what is behind its last inner dot is no number. -/
def isHostName (host : List Char) : Bool :=
  let forbidden := "%#/:<>?@[\\]^|".toList
  let backwards := if host.getLast? = some '.' then host.dropLast.reverse else host.reverse
  let last := backwards.takeWhile (· != '.')
  (host.all fun c => 0x20 < c.toNat && c.toNat < 0x7F && !forbidden.contains c)
    && last.any fun c => !c.isDigit

/-- The host of an address, from what stands before its path.  What comes before an at sign names
a user, which is not part of the address. -/
def hostOf? (authority : List Char) : Option (List Char) :=
  if authority.contains '@' then
    let host := (authority.reverse.takeWhile (· != '@')).reverse
    if isHostName host then some (host.map Char.toLower) else none
  else if authority = service then some service
  else none

/-! ## Whole addresses -/

/-- Characters that mean nothing in an address. -/
def isIgnored (c : Char) : Bool := c == '\t' || c == '\n' || c == '\r'

/-- Takes the text of an address apart. -/
def ofText? (text : String) : Option Address := do
  let cs := text.toList.filter fun c => !isIgnored c
  let scheme := "http://".toList
  let rest := cs.drop scheme.length
  if cs.take scheme.length ≠ scheme then none
  let isHostEnd (c : Char) : Bool := c == '/' || c == '\\' || c == '?' || c == '#'
  let host ← hostOf? (rest.takeWhile fun c => !isHostEnd c)
  let rest := rest.dropWhile fun c => !isHostEnd c
  let beforeFragment := rest.takeWhile (· != '#')
  let part (mark : Char) (special cs : List Char) : Option String :=
    match cs.dropWhile (· != mark) with
    | [] => none
    | _ :: after => some (String.ofList (encode special after))
  some
    { host := String.ofList host
      segments := (segmentsOf (beforeFragment.takeWhile (· != '?'))).map String.ofList
      query := part '?' querySpecial beforeFragment
      fragment := part '#' fragmentSpecial rest }

/-- The address with one more pair in its query. -/
def withPair (a : Address) (name value : String) : Address :=
  let pair := s!"{name}={value}"
  match a.query with
  | none | some "" => { a with query := some pair }
  | some q => { a with query := some s!"{q}&{pair}" }

/-- The path and the query, which are what a service is asked for. -/
def target (a : Address) : String :=
  let path := "/" ++ "/".intercalate a.segments
  match a.query with
  | none => path
  | some q => s!"{path}?{q}"

/-- The whole address. -/
def render (a : Address) : String :=
  let start := s!"http://{a.host}{a.target}"
  match a.fragment with
  | none => start
  | some f => s!"{start}#{f}"

end Address

end StageGraph
