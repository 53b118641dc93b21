/-
# `StageGraph.Program.Basic` — programs as trees of questions

A body, a hook or an invocation is a program that asks its surroundings
questions and goes on with the answers: call the completer, wait a while, which
flow is current.  A program is kept as data, a tree that is either finished, or
panicked, or asks a question and has a subtree for every answer.

Whoever runs a program decides what the answers are and when they come.  So the
same program runs over any completer, under any schedule, and a statement about
all of them is an induction over the tree.
-/
import StageGraph.Error.Report

namespace StageGraph

/-- The questions that programs of some kind may ask, and the type of each answer. -/
structure Signature where
  Question : Type
  Answer : Question → Type

/-- A program that ends with a value of type `α`, or panics. -/
inductive Program (S : Signature) (α : Type) : Type where
  | done (a : α)
  | panic (p : Panic)
  | ask (q : S.Question) (next : S.Answer q → Program S α)

namespace Program

variable {S : Signature} {α β : Type}

/-- Goes on with a second program where the first one ends. -/
def bind : Program S α → (α → Program S β) → Program S β
  | .done a, f => f a
  | .panic p, _ => .panic p
  | .ask q next, f => .ask q fun x => (next x).bind f

instance : Monad (Program S) where
  pure := .done
  bind := bind

/-- Asks one question. -/
def question (q : S.Question) : Program S (S.Answer q) := .ask q .done

/-- Ends where the program panics, too, and tells which of the two it was. -/
def attempt : Program S α → Program S (Except Panic α)
  | .done a => .done (.ok a)
  | .panic p => .done (.error p)
  | .ask q next => .ask q fun x => (next x).attempt

/-- Answers some of the questions on the spot. -/
def answering (known : (q : S.Question) → Option (S.Answer q)) : Program S α → Program S α
  | .done a => .done a
  | .panic p => .panic p
  | .ask q next =>
    match known q with
    | some x => (next x).answering known
    | none => .ask q fun x => (next x).answering known

/-- Runs a program in surroundings that keep a state and answer every question at once. -/
def runIn {σ : Type} (answer : (q : S.Question) → σ → S.Answer q × σ) :
    Program S α → σ → Except Panic α × σ
  | .done a, s => (.ok a, s)
  | .panic p, s => (.error p, s)
  | .ask q next, s => (next (answer q s).1).runIn answer (answer q s).2

/-! ## The laws of sequencing -/

theorem done_bind (a : α) (f : α → Program S β) : (Program.done a).bind f = f a := rfl

theorem bind_done (p : Program S α) : p.bind .done = p := by
  induction p with
  | done a => rfl
  | panic m => rfl
  | ask q next ih => simp only [bind]; congr 1; funext x; exact ih x

theorem bind_assoc {γ : Type} (p : Program S α) (f : α → Program S β) (g : β → Program S γ) :
    (p.bind f).bind g = p.bind fun a => (f a).bind g := by
  induction p with
  | done a => rfl
  | panic m => rfl
  | ask q next ih => simp only [bind]; congr 1; funext x; exact ih x

/-! ## Programs in their surroundings -/

section Surroundings

variable {σ : Type} {answer : (q : S.Question) → σ → S.Answer q × σ}

theorem runIn_bind (p : Program S α) (f : α → Program S β) (s : σ) :
    (p.bind f).runIn answer s =
      match p.runIn answer s with
      | (.ok a, s) => (f a).runIn answer s
      | (.error m, s) => (.error m, s) := by
  induction p generalizing s with
  | done a => rfl
  | panic m => rfl
  | ask q next ih => exact ih (answer q s).1 (answer q s).2

theorem runIn_attempt (p : Program S α) (s : σ) :
    p.attempt.runIn answer s = (.ok (p.runIn answer s).1, (p.runIn answer s).2) := by
  induction p generalizing s with
  | done a => rfl
  | panic m => rfl
  | ask q next ih => exact ih (answer q s).1 (answer q s).2

end Surroundings

end Program

end StageGraph
