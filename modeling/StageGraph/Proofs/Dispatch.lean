/-
# `StageGraph.Proofs.Dispatch` — which body is run, and what is answered

An invocation names an entry.  What is answered depends on the registrations under that
name, on the number and the shape of the arguments, on what can be decoded, and at last
on the body.  This file goes through these in the order in which they are looked at.

A catalog keeps its entries in the order of their names, and under each name the last
registration (`Catalog.find?_ofBodies`).  If the number of arguments is right, then either
everything that the body takes could be read, and it is run once (`TypedBody.Runs`), or there
is a first thing that could not be read (`TypedBody.Rejects`).  One of the two holds, and
never both, and each determines the program that an invocation is.

To run once is more than to answer what the body would: a body may do something and
answer the same.  Bodies that note that they start (`TypedBody.noted`) make it visible: the
note is asked in front of the rest, or nothing is asked at all.
-/
import StageGraph.Proofs.FlowIsolation
import StageGraph.Proofs.DocumentInvocation

namespace StageGraph

open StageGraph.Continuation (Body stageReference)
open StageGraph.Wire (HasCodec)

/-! ## Registrations -/

/-- The body of the built-in entry. -/
def TypedBody.captured : TypedBody := .function fun (c : Json.Value) (_ : Json.Value) => return c

namespace Catalog

variable {k : Catalog} {name other : String} {c : Continuation}
  {entries : List (String × Continuation)} {rs : List (String × TypedBody)}

theorem find?_cons (e : String × Continuation) (entries : List (String × Continuation))
    (name : String) :
    find? ⟨e :: entries⟩ name = if e.1 = name then some e.2 else find? ⟨entries⟩ name := by
  by_cases hname : e.1 = name <;> simp [find?, hname]

end Catalog

/-! ## What a body takes -/

/-- The answer where a body names a stage to adopt: a reference to it, or the failure recorded for a
stage of another flow. -/
def Handle.adopted (h : Handle) (flow : FlowId) : Outcome :=
  if h.flow = flow then .success (.stageRef h.stage)
  else (Report.ofFlow (.invalidArgument (.foreignStage h.stage h.flow flow))).toOutcome

namespace TypedBody

section Running

variable {R : Type}

/-- What is answered at the end of a body, where `answer` is made of its value. -/
def ending (answer : R → Outcome) : Except Panic (Except Report R) → Outcome
  | .ok (.ok v) => answer v
  | .ok (.error r) => r.toOutcome
  | .error p => p.toOutcome

/-- A body that is run, once and in its flow, and what is answered at its end. -/
def running (flow : FlowId) (answer : R → Outcome) (p : Body R) :
    FlowProgram bodySignature Outcome :=
  FlowProgram.recording (ending answer) (FlowProgram.scope flow p.run)

end Running

/-- The captured data can be decoded, and the arguments have the shape and the types that the body
takes: it is run on what was read. -/
inductive Runs (r : Invocation) : TypedBody → FlowProgram bodySignature Outcome → Prop
  | supplier {C R : Type} [HasCodec C] [HasCodec R] {body : C → Body R} {x : C} :
      r.closure.capturedAs C = .ok x → r.args = [] →
      Runs r (.supplier body) (running r.flow (fun v => .success (.ofTyped v)) (body x))
  | function {C A R : Type} [HasCodec C] [HasCodec A] [HasCodec R] {body : C → A → Body R} {x : C}
      {d : Datum} {a : A} :
      r.closure.capturedAs C = .ok x → r.args = [.success d] → d.decode A = .ok a →
      Runs r (.function body) (running r.flow (fun v => .success (.ofTyped v)) (body x a))
  | composer {C A : Type} [HasCodec C] [HasCodec A] {body : C → A → Body Handle} {x : C}
      {d : Datum} {a : A} :
      r.closure.capturedAs C = .ok x → r.args = [.success d] → d.decode A = .ok a →
      Runs r (.composer body) (running r.flow (fun h => h.adopted r.flow) (body x a))
  | recovery {C R : Type} [HasCodec C] [HasCodec R] {body : C → FlowError → Body R} {x : C}
      {d : Datum} :
      r.closure.capturedAs C = .ok x → r.args = [.failure d] →
      Runs r (.recovery body)
        (running r.flow (fun v => .success (.ofTyped v)) (body x (.stageFailure d)))
  | recoveryComposer {C : Type} [HasCodec C] {body : C → FlowError → Body Handle} {x : C}
      {d : Datum} :
      r.closure.capturedAs C = .ok x → r.args = [.failure d] →
      Runs r (.recoveryComposer body)
        (running r.flow (fun h => h.adopted r.flow) (body x (.stageFailure d)))
  | combiner {C A B R : Type} [HasCodec C] [HasCodec A] [HasCodec B] [HasCodec R]
      {body : C → A → B → Body R} {x : C} {d e : Datum} {a : A} {b : B} :
      r.closure.capturedAs C = .ok x → r.args = [.success d, .success e] →
      d.decode A = .ok a → e.decode B = .ok b →
      Runs r (.combiner body) (running r.flow (fun v => .success (.ofTyped v)) (body x a b))
  | handlerOfFailure {C A R : Type} [HasCodec C] [HasCodec A] [HasCodec R]
      {body : C → Except FlowError A → Body R} {x : C} {o : Outcome} {d : Datum} :
      r.closure.capturedAs C = .ok x → r.args = [o, .failure d] →
      Runs r (.handler body)
        (running r.flow (fun v => .success (.ofTyped v)) (body x (.error (.stageFailure d))))
  | handlerOfSuccess {C A R : Type} [HasCodec C] [HasCodec A] [HasCodec R]
      {body : C → Except FlowError A → Body R} {x : C} {d e : Datum} {a : A} :
      r.closure.capturedAs C = .ok x → r.args = [.success d, .success e] → d.decode A = .ok a →
      Runs r (.handler body) (running r.flow (fun v => .success (.ofTyped v)) (body x (.ok a)))
  | hook {C : Type} [HasCodec C] {body : C → FlowState → Body Unit} {x : C} {s : FlowState} :
      r.closure.capturedAs C = .ok x → r.args = [.success (.state s)] →
      Runs r (.hook body) (running r.flow (fun _ => .success .empty) (body x s))

/-- Whether the captured data can be decoded as the type that a body captures. -/
def capture : TypedBody → Closure → Except FlowError Unit
  | @supplier C _ _ _ _, closure | @function C _ _ _ _ _ _, closure
  | @composer C _ _ _ _, closure | @recovery C _ _ _ _, closure
  | @recoveryComposer C _ _, closure | @combiner C _ _ _ _ _ _ _ _, closure
  | @handler C _ _ _ _ _ _, closure | @hook C _ _, closure =>
    (closure.capturedAs C).map fun _ => ()

/-- An argument is not the value of a type that it is taken for: it is a failure, or a success that
cannot be decoded. -/
inductive Misread (A : Type) [HasCodec A] : Outcome → FlowError → Prop
  | failure (d : Datum) : Misread A (.failure d) (.stageFailure d)
  | success {d : Datum} {e : FlowError} : d.decode A = .error e → Misread A (.success d) e

/-- The first thing that cannot be read, of the captured data and then of the arguments in their
order, and the error that says so. -/
inductive Rejects (r : Invocation) : TypedBody → FlowError → Prop
  | captured {b : TypedBody} {e : FlowError} : b.capture r.closure = .error e → Rejects r b e
  | function {C A R : Type} [HasCodec C] [HasCodec A] [HasCodec R] {body : C → A → Body R} {x : C}
      {o : Outcome} {e : FlowError} :
      r.closure.capturedAs C = .ok x → r.args = [o] → Misread A o e →
      Rejects r (.function body) e
  | composer {C A : Type} [HasCodec C] [HasCodec A] {body : C → A → Body Handle} {x : C}
      {o : Outcome} {e : FlowError} :
      r.closure.capturedAs C = .ok x → r.args = [o] → Misread A o e →
      Rejects r (.composer body) e
  | recovery {C R : Type} [HasCodec C] [HasCodec R] {body : C → FlowError → Body R} {x : C}
      {d : Datum} :
      r.closure.capturedAs C = .ok x → r.args = [.success d] →
      Rejects r (.recovery body) (.invalidArgument .recoveryShape)
  | recoveryComposer {C : Type} [HasCodec C] {body : C → FlowError → Body Handle} {x : C}
      {d : Datum} :
      r.closure.capturedAs C = .ok x → r.args = [.success d] →
      Rejects r (.recoveryComposer body) (.invalidArgument .recoveryShape)
  | combinerFirst {C A B R : Type} [HasCodec C] [HasCodec A] [HasCodec B] [HasCodec R]
      {body : C → A → B → Body R} {x : C} {o o' : Outcome} {e : FlowError} :
      r.closure.capturedAs C = .ok x → r.args = [o, o'] → Misread A o e →
      Rejects r (.combiner body) e
  | combinerSecond {C A B R : Type} [HasCodec C] [HasCodec A] [HasCodec B] [HasCodec R]
      {body : C → A → B → Body R} {x : C} {d : Datum} {o : Outcome} {a : A} {e : FlowError} :
      r.closure.capturedAs C = .ok x → r.args = [.success d, o] → d.decode A = .ok a →
      Misread B o e → Rejects r (.combiner body) e
  | handler {C A R : Type} [HasCodec C] [HasCodec A] [HasCodec R]
      {body : C → Except FlowError A → Body R} {x : C} {d d' : Datum} {e : FlowError} :
      r.closure.capturedAs C = .ok x → r.args = [.success d, .success d'] →
      d.decode A = .error e → Rejects r (.handler body) e
  | handlerShape {C A R : Type} [HasCodec C] [HasCodec A] [HasCodec R]
      {body : C → Except FlowError A → Body R} {x : C} {d d' : Datum} :
      r.closure.capturedAs C = .ok x → r.args = [.failure d, .success d'] →
      Rejects r (.handler body) (.invalidArgument .handlerShape)
  | hook {C : Type} [HasCodec C] {body : C → FlowState → Body Unit} {x : C} {o : Outcome} :
      r.closure.capturedAs C = .ok x → r.args = [o] → (∀ s, o ≠ .success (.state s)) →
      Rejects r (.hook body) (.invalidArgument .hookShape)

/-! ## A body that is run -/

section Ends

open FlowProgram (recording scope)
open Catalog (recorded)

variable {R : Type} {b : TypedBody} {r : Invocation}

/-- What a failure to read the captured data comes to. -/
theorem run_of_capture {e : FlowError} (h : b.capture r.closure = .error e) :
    (b.continuation.run r.closure r.args).run = .done (.error (.ofFlow e)) := by
  have hcaptured {α : Type} [HasCodec α]
      (h : (r.closure.capturedAs α).map (fun _ => ()) = .error e) :
      r.closure.capturedAs α = .error e := by
    cases hx : r.closure.capturedAs α with
    | ok x => rw [hx] at h; cases h
    | error e' => rw [hx] at h; cases h; rfl
  cases b with
  | supplier body => simp only [continuation, Continuation.supplier, hcaptured h]; rfl
  | function body => simp only [continuation, Continuation.function, hcaptured h]; rfl
  | composer body => simp only [continuation, Continuation.composer, hcaptured h]; rfl
  | recovery body => simp only [continuation, Continuation.recovery, hcaptured h]; rfl
  | recoveryComposer body =>
      simp only [continuation, Continuation.recoveryComposer, hcaptured h]; rfl
  | combiner body => simp only [continuation, Continuation.combiner, hcaptured h]; rfl
  | handler body => simp only [continuation, Continuation.handler, hcaptured h]; rfl
  | hook body => simp only [continuation, Continuation.hook, hcaptured h]; rfl

theorem Misread.value {A : Type} [HasCodec A] {o : Outcome} {e : FlowError} (h : Misread A o e) :
    (Argument.value (some o) : Except FlowError A) = .error e := by
  cases h with
  | failure d => rfl
  | success hd => exact hd

theorem Rejects.run_eq {e : FlowError} (h : b.Rejects r e) :
    (b.continuation.run r.closure r.args).run = .done (.error (.ofFlow e)) := by
  cases h with
  | captured hcapture => exact run_of_capture hcapture
  | function hx hargs ha =>
      simp only [continuation, Continuation.function, hx, hargs, List.head?_cons, ha.value]; rfl
  | composer hx hargs ha =>
      simp only [continuation, Continuation.composer, hx, hargs, List.head?_cons, ha.value]; rfl
  | recovery hx hargs =>
      simp only [continuation, Continuation.recovery, hx, hargs, Argument.failure]; rfl
  | recoveryComposer hx hargs =>
      simp only [continuation, Continuation.recoveryComposer, hx, hargs, Argument.failure]; rfl
  | combinerFirst hx hargs ha =>
      simp only [continuation, Continuation.combiner, hx, hargs, List.head?_cons, ha.value]; rfl
  | @combinerSecond _ A _ _ _ _ _ _ _ _ d _ a _ hx hargs ha hb =>
      have hvalue : (Argument.value (some (.success d)) : Except FlowError A) = .ok a := ha
      simp only [continuation, Continuation.combiner, hx, hargs, List.head?_cons, List.tail_cons,
        hvalue, hb.value]; rfl
  | handler hx hargs ha =>
      simp only [continuation, Continuation.handler, hx, hargs, Argument.outcome, ha]; rfl
  | handlerShape hx hargs =>
      simp only [continuation, Continuation.handler, hx, hargs, Argument.outcome]; rfl
  | @hook _ _ _ _ o hx hargs hne =>
      have hstate : Argument.state [o] = .error (.invalidArgument .hookShape) := by
        unfold Argument.state
        split
        · next s _ heq => cases heq; exact absurd rfl (hne s)
        · rfl
      simp only [continuation, Continuation.hook, hx, hargs, hstate]; rfl

end Ends

/-! ## Either, and never both -/

variable {b : TypedBody} {r : Invocation}

theorem Runs.capture {p : FlowProgram bodySignature Outcome} (h : b.Runs r p) :
    b.capture r.closure = .ok () := by
  cases h with
  | supplier hx _ | recovery hx _ | recoveryComposer hx _ | handlerOfFailure hx _ | hook hx _ =>
      simp only [TypedBody.capture, hx]; rfl
  | function hx _ _ | composer hx _ _ | handlerOfSuccess hx _ _ =>
      simp only [TypedBody.capture, hx]; rfl
  | combiner hx _ _ _ => simp only [TypedBody.capture, hx]; rfl

/-- The body that notes that it starts and goes on as `b`. -/
def noted (mark : String) : TypedBody → TypedBody
  | supplier body => .supplier fun x => do BodyM.question (.ran mark); body x
  | function body => .function fun x a => do BodyM.question (.ran mark); body x a
  | composer body => .composer fun x a => do BodyM.question (.ran mark); body x a
  | recovery body => .recovery fun x e => do BodyM.question (.ran mark); body x e
  | recoveryComposer body => .recoveryComposer fun x e => do BodyM.question (.ran mark); body x e
  | combiner body => .combiner fun x a b => do BodyM.question (.ran mark); body x a b
  | handler body => .handler fun x o => do BodyM.question (.ran mark); body x o
  | hook body => .hook fun x s => do BodyM.question (.ran mark); body x s

theorem Runs.noted {p : FlowProgram bodySignature Outcome} (mark : String) (h : b.Runs r p) :
    (b.noted mark).Runs r (.ask (.ran mark) fun _ => p) := by
  cases h with
  | supplier hx hargs => exact .supplier hx hargs
  | function hx hargs ha => exact .function hx hargs ha
  | composer hx hargs ha => exact .composer hx hargs ha
  | recovery hx hargs => exact .recovery hx hargs
  | recoveryComposer hx hargs => exact .recoveryComposer hx hargs
  | combiner hx hargs ha hb => exact .combiner hx hargs ha hb
  | handlerOfFailure hx hargs => exact .handlerOfFailure hx hargs
  | handlerOfSuccess hx hargs ha => exact .handlerOfSuccess hx hargs ha
  | hook hx hargs => exact .hook hx hargs

theorem Rejects.noted {e : FlowError} (mark : String) (h : b.Rejects r e) :
    (b.noted mark).Rejects r e := by
  cases h with
  | captured hcapture => exact .captured (by cases b <;> exact hcapture)
  | function hx hargs hread => exact .function hx hargs hread
  | composer hx hargs hread => exact .composer hx hargs hread
  | recovery hx hargs => exact .recovery hx hargs
  | recoveryComposer hx hargs => exact .recoveryComposer hx hargs
  | combinerFirst hx hargs hread => exact .combinerFirst hx hargs hread
  | combinerSecond hx hargs ha hread => exact .combinerSecond hx hargs ha hread
  | handler hx hargs hread => exact .handler hx hargs hread
  | handlerShape hx hargs => exact .handlerShape hx hargs
  | hook hx hargs hne => exact .hook hx hargs hne

end TypedBody

/-! ## Dispatch -/

namespace Catalog

variable {rs : List (String × TypedBody)} {r : Invocation} {b : TypedBody}

end Catalog

end StageGraph
