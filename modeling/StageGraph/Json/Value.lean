/-
# `StageGraph.Json.Value` — JSON values

The values of documents.  Numbers without point and exponent that fit 64 bits
stay integers; all others are floating point numbers.  The fields of an object
are kept as a list: `insert` keeps the list sorted by name and lets the later
of two fields of one name win, which is how free values are read; records are
written with their fields in the order of their declaration.
-/
import StageGraph.Number.Shortest

namespace StageGraph.Json

/-- A JSON value. -/
inductive Value where
  | null
  | bool (b : Bool)
  | int (n : Int)
  | float (x : Binary64)
  | string (s : String)
  | array (items : List Value)
  | object (fields : List (String × Value))
deriving Repr, Inhabited, BEq

/-- The range of numbers that stay integers: from `-2 ^ 63` to `2 ^ 64 - 1`. -/
def isWord (n : Int) : Bool := -Int.pow 2 63 ≤ n && n < Int.pow 2 64

/-- Puts a field among fields sorted by name; a field of that name is replaced. -/
def insert (name : String) (v : Value) : List (String × Value) → List (String × Value)
  | [] => [(name, v)]
  | (n, w) :: rest =>
    if name < n then (name, v) :: (n, w) :: rest
    else if name = n then (name, v) :: rest
    else (n, w) :: insert name v rest

/-- Fields sorted by name, the last of each name. -/
def ofFields (fields : List (String × Value)) : Value :=
  .object (fields.foldl (fun sorted f => insert f.1 f.2 sorted) [])

namespace Value

/-- Whether a value is null. -/
def isNull : Value → Bool
  | .null => true
  | _ => false

/-- The field of a name, if the value is an object that has one. -/
def field? (v : Value) (name : String) : Option Value :=
  match v with
  | .object fields => fields.lookup name
  | _ => none

end Value

end StageGraph.Json
