/-
# `StageGraph.Error.Report` — errors of bodies, and how they are recorded

A body may fail with any error.  A report is such an error with its chain: the
contexts that were wrapped around it, outermost first, the error itself, and
the sources below it.

What is recorded for a report is decided by the error and its sources alone: the
datum of a stage failure among them is recorded again as it is; otherwise an
error record is made, in the category of the first flow error among them.
Contexts are text, whatever they are made from.
-/
import StageGraph.Error.FlowError

namespace StageGraph

/-- One error of a chain. -/
inductive Cause where
  | text (message : String)
  | flow (e : FlowError)
  /-- The failure of a stage on its own. -/
  | failure (d : Datum)
deriving DecidableEq, Repr

namespace Cause

def message : Cause → String
  | text m => m
  | flow e => e.message
  | failure d => d.failureMessage

/-- The datum of a stage failure. -/
def failureDatum? : Cause → Option Datum
  | text _ => none
  | flow e => e.failureDatum?
  | failure d => some d

/-- The flow error that a cause is. -/
def flowError? : Cause → Option FlowError
  | flow e => some e
  | _ => none

end Cause

/-- What can be wrapped around an error. -/
inductive Context where
  | text (message : String)
  | flow (e : FlowError)
deriving DecidableEq, Repr

def Context.message : Context → String
  | .text m => m
  | .flow e => e.message

/-- An error of a body with its chain. -/
structure Report where
  /-- Outermost first. -/
  contexts : List Context
  base : Cause
  /-- Each the source of the one before. -/
  sources : List Cause
deriving DecidableEq, Repr

namespace Report

/-- A plain message. -/
def ofText (message : String) : Report := ⟨[], .text message, []⟩

/-- A flow error. -/
def ofFlow (e : FlowError) : Report := ⟨[], .flow e, []⟩

/-- The report with one more context around it. -/
def wrap (r : Report) (c : Context) : Report := { r with contexts := c :: r.contexts }

/-- The error and its sources. -/
def causes (r : Report) : List Cause := r.base :: r.sources

/-- The texts of the chain, outermost first. -/
def texts (r : Report) : List String :=
  r.contexts.map Context.message ++ r.causes.map Cause.message

/-- The chain in one line. -/
def message (r : Report) : String := ": ".intercalate r.texts

/-! ## The trace -/

/-- A text with everything after a line break moved in. -/
def indent (blanks : String) (text : String) : String :=
  String.ofList (text.toList.flatMap fun c => if c = '\n' then '\n' :: blanks.toList else [c])

/-- A number filled up with blanks to five places. -/
def numberColumn (n : Nat) : String :=
  let digits := toString n
  String.ofList (List.replicate (5 - digits.length) ' ') ++ digits

/-- The texts below the first, numbered from `n`. -/
def numberedLines : Nat → List String → List String
  | _, [] => []
  | n, t :: rest => (numberColumn n ++ ": " ++ indent "       " t) :: numberedLines (n + 1) rest

/-- The lines below the first text; a single one has no number. -/
def causeLines : List String → List String
  | [t] => ["    " ++ indent "    " t]
  | ts => numberedLines 0 ts

/-- The chain in several lines: the first text, then what caused it. -/
def trace (r : Report) : String :=
  match r.texts with
  | [] => ""
  | [t] => t
  | t :: rest => t ++ "\n\nCaused by:\n" ++ "\n".intercalate (causeLines rest)

/-! ## Recording -/

/-- The category of an error record made for a report. -/
def errorType (r : Report) : ErrorType :=
  match r.causes.findSome? Cause.flowError? with
  | some e => e.errorType
  | none => .userError

/-- The datum recorded for a report. -/
def toDatum (r : Report) : Datum :=
  match r.causes.findSome? Cause.failureDatum? with
  | some d => d
  | none => .traced r.errorType r.message r.trace

/-- The result recorded for a report. -/
def toOutcome (r : Report) : Outcome := .failure r.toDatum

/-- The flow error that a caller finds first: among the contexts, from the outermost, or the error
itself. -/
def flowError? (r : Report) : Option FlowError :=
  let ofContext : Context → Option FlowError
    | .text _ => none
    | .flow e => some e
  (r.contexts.findSome? ofContext).or r.base.flowError?

end Report

/-- What a body that panicked left behind: a text, or something without one. -/
inductive Panic where
  | text (message : String)
  | other
deriving DecidableEq, Repr

namespace Panic

def message : Panic → String
  | text m => m
  | other => "unknown panic payload"

/-- The result recorded for a body that panicked. -/
def toOutcome (p : Panic) : Outcome :=
  .failure (.failure .stageFailed s!"stage body panicked: {p.message}")

end Panic

/-- A hook that did not end well: its position and what went wrong. -/
structure HookFailure where
  index : Nat
  message : String
deriving DecidableEq, Repr

def HookFailure.render (f : HookFailure) : String :=
  s!"Termination hook #{f.index} failed: {f.message}"

end StageGraph
