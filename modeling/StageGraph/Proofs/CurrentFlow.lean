/-
# `StageGraph.Proofs.CurrentFlow` — the current flow is that of the innermost open level

A scope answers the question for the current flow when its program is put together; nothing
of it is left in the program that runs.  To say what the answers are, the levels have to be
seen.  A `Block` is a program in which they can: a level has a flow, or none if it is a task
of its own that is waited for, and it ends with whatever its program ends with.  Blocks stand
for the programs that the library makes (`Block.program`): scopes, runs of functions, tasks
that are spawned, bodies of stages and hooks.

On the other side stands a machine with a stack.  A `Task` is a block under way, and the
levels that are open around it; a step enters a level, leaves the innermost one, looks up the
current flow at the innermost one, or asks somebody else.  Each step leaves a mark, so that
it can be told from the marks alone which levels are open (`opened`), and what has to be
answered.

The two agree: a block holds exactly the conversations that the machine holds
(`Task.runs_iff_leads`).  All the rest is about the machine, where it is almost obvious.  A
level that is left takes the stack back to what it was (`Balanced.opened`), and its program
can reach nothing below it, however it ends (`Task.Runs.of_block`).
-/
import StageGraph.Scenario.Run
import StageGraph.Proofs.FunctionRun
import StageGraph.Proofs.BodyRun

namespace StageGraph

open StageGraph.FlowProgram (currentIs)
open StageGraph.Program (ending)

/-! ## Programs with visible levels -/

/-- A program whose levels can be seen. -/
inductive Block (E : Signature) : Type → Type 1
  | done {α : Type} (a : α) : Block E α
  | panic {α : Type} (p : Panic) : Block E α
  | ask {α : Type} (q : Question E) (next : q.Answer → Block E α) : Block E α
  /-- A program at a level of its own, and what follows its end. -/
  | level {α β : Type} (flow : Option FlowId) (inner : Block E β)
      (next : Except Panic β → Block E α) : Block E α
  /-- Starts another task, and does not wait for it. -/
  | spawn {α : Type} (task : Block E Unit) (next : Block E α) : Block E α

namespace Block

variable {E : Signature} {α β : Type}

/-- The program that a block stands for. A task that is only started is a program of its own. -/
def program : {α : Type} → Block E α → FlowProgram E α
  | _, done a => .done a
  | _, panic p => .panic p
  | _, ask q next => .ask q fun x => (next x).program
  | _, level flow inner next =>
    (inner.program.answering (currentIs flow)).attempt.bind fun ended => (next ended).program
  | _, spawn _ next => next.program

/-- The block that ends at once. -/
def ofEnd : Except Panic α → Block E α
  | .ok a => done a
  | .error p => panic p

theorem ofEnd_injective : Function.Injective (ofEnd : Except Panic α → Block E α) := by
  intro ended ended' h
  cases ended <;> cases ended' <;> cases h <;> rfl

@[simp] theorem program_ofEnd (ended : Except Panic α) :
    (ofEnd ended : Block E α).program = ending ended := by
  cases ended <;> rfl

/-! ### The levels of the library -/

/-- A scope around a block; a panic goes through it. -/
def scope (flow : FlowId) (inner : Block E β) (next : β → Block E α) : Block E α :=
  level (some flow) inner fun
    | .ok b => next b
    | .error p => panic p

theorem program_scope (flow : FlowId) (inner : Block E β) (next : β → Block E α) :
    (scope flow inner next).program =
      (FlowProgram.scope flow inner.program).bind fun b => (next b).program := by
  show (inner.program.answering _).attempt.bind _ = (inner.program.answering _).bind _
  generalize inner.program.answering (currentIs (some flow)) = p
  induction p with
  | done b => rfl
  | panic m => rfl
  | ask q next ih => exact congrArg (Program.ask q) (funext ih)

/-- A task that is started and waited for. -/
def join (task : Block E β) (next : Except Panic β → Block E α) : Block E α := level none task next

theorem program_join (task : Block E β) (next : Except Panic β → Block E α) :
    (join task next).program =
      (FlowProgram.detached task.program).attempt.bind fun ended => (next ended).program := rfl

/-- A run of a function. -/
def function (name : String) (body : Block E (Except Report β))
    (next : Except FlowError (FunctionRun β) → Block E α) : Block E α :=
  ask (.call (.createFlow name)) fun
    | .error e => next (.error e)
    | .ok flow => level (some flow) body fun ended =>
        ask (.call (.commit flow (FunctionRun.finalState (FunctionRun.ofBody ended))))
          fun committed =>
            next (.ok ⟨flow, FunctionRun.afterCommit (FunctionRun.ofBody ended) committed⟩)

theorem program_function (name : String) (body : Block E (Except Report β))
    (next : Except FlowError (FunctionRun β) → Block E α) :
    (function name body next).program =
      (FunctionRun.start name (ExceptT.mk body.program)).run.bind fun r => (next r).program := by
  rw [FunctionRun.run_start]
  show Program.ask _ _ = Program.ask _ _
  congr 1
  funext created
  cases created with
  | error e => rfl
  | ok flow =>
      show _ = (FunctionRun.working flow body.program).bind _
      unfold FunctionRun.working
      rw [Program.bind_assoc]
      rfl

/-- A body that is run for a stage or for a hook. -/
def invoke (r : Invocation) (body : Block bodySignature (Except Report Datum)) :
    Block bodySignature Outcome :=
  level (some r.flow) body fun ended => done (Catalog.recorded ended)

theorem program_invoke {k : Catalog} {r : Invocation} {c : Continuation}
    {body : Block bodySignature (Except Report Datum)} (hentry : k.find? r.closure.entry = some c)
    (harity : r.args.length = c.kind.arity)
    (hbody : (c.run r.closure r.args).run = body.program) :
    k.invoke r = (invoke r body).program := by
  rw [Catalog.invoke, hentry]
  simp only [if_pos harity, hbody]
  rfl

/-- A body that is run for a stage or for a hook does not depend on where it is run. -/
theorem detached_invoke (r : Invocation) (body : Block bodySignature (Except Report Datum)) :
    FlowProgram.detached (invoke r body).program = (invoke r body).program := by
  simp only [invoke, program, FlowProgram.detached]
  generalize body.program = p
  induction p with
  | done ended => rfl
  | panic m => rfl
  | ask q next ih =>
      cases q with
      | currentFlow => exact ih _
      | _ => exact congrArg (Program.ask _) (funext ih)

end Block

/-! ## A machine with a stack of levels -/

/-- What a step of a task can be seen by. -/
inductive Mark (E : Signature) : Type 1
  /-- Somebody else was asked, and has answered. -/
  | said (r : Reply (flowSignature E))
  /-- The current flow was looked up. -/
  | looked (flow : Option FlowId)
  | entered (flow : Option FlowId)
  /-- The innermost level has ended. -/
  | left
  | spawned (task : Block E Unit)

/-- The levels that are open around a block, the innermost one first, each with what follows its
end. -/
inductive Frames (E : Signature) (ω : Type) : Type → Type 1
  | base : Frames E ω ω
  | level {α β : Type} (flow : Option FlowId) (next : Except Panic β → Block E α)
      (rest : Frames E ω α) : Frames E ω β

/-- The flow of the innermost level of a stack. -/
def current (flows : List (Option FlowId)) : Option FlowId := flows.head?.join

namespace Frames

variable {E : Signature} {ω α : Type}

/-- The flows of the levels. -/
def flows : {α : Type} → Frames E ω α → List (Option FlowId)
  | _, base => []
  | _, level flow _ rest => flow :: rest.flows

/-- A program inside the levels: what becomes of a task. -/
def plug : {α : Type} → Frames E ω α → FlowProgram E α → FlowProgram E ω
  | _, base, p => FlowProgram.detached p
  | _, level flow next rest, p =>
    rest.plug ((p.answering (currentIs flow)).attempt.bind fun ended => (next ended).program)

end Frames

/-- A task: a block under way, and the levels that are open around it. -/
structure Task (E : Signature) (ω : Type) : Type 1 where
  {under : Type}
  block : Block E under
  frames : Frames E ω under

namespace Task

variable {E : Signature} {ω : Type}

/-- A task that begins. -/
def start (b : Block E ω) : Task E ω := ⟨b, .base⟩

/-- The levels that are open. -/
def flows (t : Task E ω) : List (Option FlowId) := t.frames.flows

/-- The program that the task still has to run. -/
def program (t : Task E ω) : FlowProgram E ω := t.frames.plug t.block.program

/-- One step of a task; what somebody else answers is not known. -/
inductive Step : Task E ω → Mark E → Task E ω → Prop
  | say {α : Type} {F : Frames E ω α} {q : Question E} {next : q.Answer → Block E α}
      (x : q.Answer) : q ≠ .currentFlow → Step ⟨.ask q next, F⟩ (.said ⟨q, x⟩) ⟨next x, F⟩
  | look {α : Type} {F : Frames E ω α} {next : Option FlowId → Block E α} :
      Step ⟨.ask .currentFlow next, F⟩ (.looked (current F.flows)) ⟨next (current F.flows), F⟩
  | enter {α β : Type} {F : Frames E ω α} {flow : Option FlowId} {inner : Block E β}
      {next : Except Panic β → Block E α} :
      Step ⟨.level flow inner next, F⟩ (.entered flow) ⟨inner, .level flow next F⟩
  /-- The program of the innermost level has ended, with a value, an error or a panic. -/
  | leave {α β : Type} {F : Frames E ω α} {flow : Option FlowId}
      {next : Except Panic β → Block E α} {b : Block E β} {ended : Except Panic β} :
      b = .ofEnd ended → Step ⟨b, .level flow next F⟩ .left ⟨next ended, F⟩
  | spawn {α : Type} {F : Frames E ω α} {task : Block E Unit} {next : Block E α} :
      Step ⟨.spawn task next, F⟩ (.spawned task) ⟨next, F⟩

/-- Any number of steps, with their marks. -/
inductive Runs : Task E ω → List (Mark E) → Task E ω → Prop
  | stop (t : Task E ω) : Runs t [] t
  | step {t t₁ t₂ : Task E ω} {m : Mark E} {ms : List (Mark E)} : Step t m t₁ → Runs t₁ ms t₂ →
      Runs t (m :: ms) t₂

variable {t t₁ t₂ : Task E ω} {m : Mark E} {ms ms' : List (Mark E)}

theorem Runs.trans (h₁ : Runs t ms t₁) (h₂ : Runs t₁ ms' t₂) : Runs t (ms ++ ms') t₂ := by
  induction h₁ with
  | stop => exact h₂
  | step hstep _ ih => exact .step hstep (ih h₂)

theorem Runs.single (h : Step t m t₁) : Runs t [m] t₁ := .step h (.stop t₁)

end Task

/-! ### The machine and the program -/

namespace Mark

variable {E : Signature}

/-- What is said to somebody else. -/
@[simp] def said? : Mark E → Option (Reply (flowSignature E))
  | said r => some r
  | _ => none

/-- The levels that are open after a step. -/
def after (flows : List (Option FlowId)) : Mark E → List (Option FlowId)
  | entered flow => flow :: flows
  | left => flows.tail
  | _ => flows

end Mark

/-- What is said in a run. -/
def heard {E : Signature} (ms : List (Mark E)) : List (Reply (flowSignature E)) :=
  ms.filterMap Mark.said?

section Heard

variable {E : Signature} (m : Mark E) (ms ms' : List (Mark E))

@[simp] theorem heard_nil : heard ([] : List (Mark E)) = [] := rfl

@[simp] theorem heard_cons : heard (m :: ms) = m.said?.toList ++ heard ms := by
  unfold heard
  rw [List.filterMap_cons]
  cases m.said? <;> rfl

@[simp] theorem heard_append : heard (ms ++ ms') = heard ms ++ heard ms' := by simp [heard]

end Heard

namespace Frames

variable {E : Signature} {ω α β : Type}

/-- A question for somebody else goes through all levels. -/
theorem plug_ask {q : Question E} (hq : q ≠ .currentFlow)
    (next : q.Answer → FlowProgram E α) (F : Frames E ω α) :
    F.plug (.ask q next) = .ask q fun x => F.plug (next x) := by
  have hunknown (flow : Option FlowId) : currentIs flow q = none := by
    cases q with
    | currentFlow => exact absurd rfl hq
    | _ => rfl
  induction F with
  | base => simp only [plug, FlowProgram.detached, Program.answering, hunknown]
  | level flow after rest ih =>
      simp only [plug, Program.answering, hunknown, Program.attempt, Program.bind]
      exact ih _

/-- The question for the current flow is answered at the innermost level. -/
theorem plug_look (next : Option FlowId → FlowProgram E α) (F : Frames E ω α) :
    F.plug (.ask .currentFlow next) = F.plug (next (current F.flows)) := by
  cases F <;> rfl

theorem plug_leave (flow : Option FlowId) (next : Except Panic β → Block E α) (F : Frames E ω α)
    (ended : Except Panic β) :
    (level flow next F).plug (ending ended) = F.plug (next ended).program := by
  cases ended <;> rfl

end Frames

namespace Task

variable {E : Signature} {ω : Type} {t t₁ t₂ : Task E ω} {m : Mark E} {ms : List (Mark E)}

/-- A step by which nobody else is asked leaves the program as it is. -/
theorem Step.program_eq (h : Step t m t₁) (hm : m.said? = none) : t₁.program = t.program := by
  cases h with
  | say x hq => cases hm
  | @look _ F next => exact (Frames.plug_look (fun flow => (next flow).program) F).symm
  | enter => rfl
  | leave hend =>
      subst hend
      show _ = Frames.plug _ (Block.ofEnd _).program
      rw [Block.program_ofEnd, Frames.plug_leave]
      rfl
  | spawn => rfl

/-- A step by which somebody else is asked is an exchange of the program. -/
theorem Step.program_ask {r : Reply (flowSignature E)} (h : Step t m t₁) (hm : m.said? = some r) :
    ∃ next, t.program = .ask r.question next ∧ t₁.program = next r.answer := by
  cases h with
  | say x hq =>
      cases hm
      exact ⟨_, Frames.plug_ask hq _ _, rfl⟩
  | _ => cases hm

/-- What the machine says, the program says. -/
theorem Runs.leads (h : Runs t ms t₁) : t.program.Leads (heard ms) t₁.program := by
  induction h with
  | stop t => exact .here _
  | @step t t₁ t₂ m ms hstep _ ih =>
      rw [heard_cons]
      cases hm : m.said? with
      | none => exact hstep.program_eq hm ▸ ih
      | some r =>
          obtain ⟨next, ht, ht₁⟩ := hstep.program_ask hm
          rw [ht]
          exact .ask r.answer (ht₁ ▸ ih)

/-- A task that has nothing to do on its own: it has ended, or asks somebody else. -/
inductive Settled : Task E ω → Prop
  | ended (ended : Except Panic ω) : Settled ⟨.ofEnd ended, .base⟩
  | asks {α : Type} {F : Frames E ω α} {q : Question E} (next : q.Answer → Block E α) :
      q ≠ .currentFlow → Settled ⟨.ask q next, F⟩

/-- A block comes to a question for somebody else, or to its end. -/
theorem settles_block {α : Type} (b : Block E α) :
    ∀ F : Frames E ω α, ∃ ms t, Runs ⟨b, F⟩ ms t ∧ heard ms = [] ∧
      (t.Settled ∨ ∃ ended, t = ⟨.ofEnd ended, F⟩) := by
  induction b with
  | done a => exact fun F => ⟨[], _, .stop _, rfl, .inr ⟨.ok a, rfl⟩⟩
  | panic p => exact fun F => ⟨[], _, .stop _, rfl, .inr ⟨.error p, rfl⟩⟩
  | ask q next ih =>
      intro F
      by_cases hq : q = .currentFlow
      · subst hq
        obtain ⟨ms, t, hruns, hms, ht⟩ := ih (current F.flows) F
        exact ⟨_, t, .step .look hruns, hms, ht⟩
      · exact ⟨[], _, .stop _, rfl, .inl (.asks next hq)⟩
  | level flow inner next ihinner ihnext =>
      intro F
      obtain ⟨ms, t, hruns, hms, ht | ⟨ended, rfl⟩⟩ := ihinner (.level flow next F)
      · exact ⟨_, t, .step .enter hruns, hms, .inl ht⟩
      · obtain ⟨ms', t, hruns', hms', ht⟩ := ihnext ended F
        refine ⟨_, t, .step .enter (hruns.trans (.step (.leave rfl) hruns')), ?_, ht⟩
        simp [hms, hms']
  | spawn task next _ ih =>
      intro F
      obtain ⟨ms, t, hruns, hms, ht⟩ := ih F
      exact ⟨_, t, .step .spawn hruns, hms, ht⟩

/-- A program that has ended inside levels leaves them until there is something to ask, or nothing
left to do. -/
theorem settles_end {α : Type} (F : Frames E ω α) :
    ∀ ended : Except Panic α, ∃ ms t, Runs ⟨.ofEnd ended, F⟩ ms t ∧ heard ms = [] ∧ t.Settled := by
  induction F with
  | base => exact fun ended => ⟨[], _, .stop _, rfl, .ended ended⟩
  | level flow next rest ih =>
      intro ended
      obtain ⟨ms, t, hruns, hms, ht | ⟨ended', rfl⟩⟩ := settles_block (next ended) rest
      · exact ⟨_, t, .step (.leave rfl) hruns, hms, ht⟩
      · obtain ⟨ms', t, hruns', hms', ht⟩ := ih ended'
        refine ⟨_, t, .step (.leave rfl) (hruns.trans hruns'), ?_, ht⟩
        simp [hms, hms']

theorem settles (t : Task E ω) : ∃ ms t', Runs t ms t' ∧ heard ms = [] ∧ t'.Settled := by
  obtain ⟨ms, t', hruns, hms, ht | ⟨ended, rfl⟩⟩ := settles_block t.block t.frames
  · exact ⟨ms, t', hruns, hms, ht⟩
  · obtain ⟨ms', t'', hruns', hms', ht⟩ := settles_end t.frames ended
    refine ⟨_, t'', hruns.trans hruns', ?_, ht⟩
    simp [hms, hms']

/-- A run by which nobody else is asked leaves the program as it is. -/
theorem Runs.program_eq (h : Runs t ms t₁) (hms : heard ms = []) : t₁.program = t.program := by
  have hleads := h.leads
  rw [hms] at hleads
  exact hleads.of_nil

/-- What the program says, the machine says. -/
theorem runs_of_leads {p p' : FlowProgram E ω} {rs : List (Reply (flowSignature E))}
    (h : p.Leads rs p') :
    ∀ t : Task E ω, t.program = p → ∃ ms t', Runs t ms t' ∧ heard ms = rs ∧ t'.program = p' := by
  induction h with
  | here p => exact fun t ht => ⟨[], t, .stop t, rfl, ht⟩
  | @ask q next rs p x h ih =>
      intro t ht
      obtain ⟨ms, t₁, hruns, hms, hsettled⟩ := t.settles
      have ht₁ := (hruns.program_eq hms).trans ht
      cases hsettled with
      | ended ended => cases ended <;> cases ht₁
      | asks next' hq =>
          rw [Task.program, Block.program, Frames.plug_ask hq] at ht₁
          cases ht₁
          obtain ⟨ms', t', hruns', hms', ht'⟩ := ih ⟨next' x, _⟩ rfl
          refine ⟨_, t', hruns.trans (.step (.say x hq) hruns'), ?_, ht'⟩
          simp [hms, hms']

/-- A block and the machine hold the same conversations. -/
theorem runs_iff_leads {b : Block E ω} {p : FlowProgram E ω}
    {rs : List (Reply (flowSignature E))} :
    (FlowProgram.detached b.program).Leads rs p ↔
      ∃ ms t, Runs (start b) ms t ∧ heard ms = rs ∧ t.program = p := by
  refine ⟨fun h => runs_of_leads h (start b) rfl, ?_⟩
  rintro ⟨ms, t, hruns, rfl, rfl⟩
  exact hruns.leads

end Task

/-! ## Which levels are open -/

/-- The levels that are open after a list of marks, the innermost one first. -/
def opened {E : Signature} (flows : List (Option FlowId)) (ms : List (Mark E)) :
    List (Option FlowId) :=
  ms.foldl Mark.after flows

/-- Every level that is entered is left again, and no other. -/
inductive Balanced {E : Signature} : List (Mark E) → Prop
  | nil : Balanced []
  | step {m : Mark E} {ms : List (Mark E)} : (∀ flows, m.after flows = flows) → Balanced ms →
      Balanced (m :: ms)
  | level {inside rest : List (Mark E)} (flow : Option FlowId) : Balanced inside → Balanced rest →
      Balanced (.entered flow :: (inside ++ .left :: rest))

section Opened

variable {E : Signature} {flows : List (Option FlowId)} {ms ms' : List (Mark E)}

theorem opened_append : opened flows (ms ++ ms') = opened (opened flows ms) ms' :=
  List.foldl_append

theorem opened_cons {m : Mark E} : opened flows (m :: ms) = opened (m.after flows) ms := rfl

/-- When all levels that were entered have been left, those are open that were open before. -/
theorem Balanced.opened (h : Balanced ms) : ∀ flows, opened flows ms = flows := by
  induction h with
  | nil => exact fun _ => rfl
  | step hm _ ih =>
      intro flows
      rw [opened_cons, hm, ih]
  | level flow _ _ ihinside ihrest =>
      intro flows
      rw [opened_cons, opened_append, ihinside, opened_cons, ihrest]
      rfl

end Opened

namespace Task

variable {E : Signature} {ω : Type} {t t₁ : Task E ω} {m : Mark E} {ms : List (Mark E)}

theorem Step.flows_eq (h : Step t m t₁) : t₁.flows = m.after t.flows := by
  cases h <;> rfl

theorem Step.looked {a : Option FlowId} (h : Step t (.looked a) t₁) : a = current t.flows := by
  cases h
  rfl

/-- The marks tell which levels are open. -/
theorem Runs.flows_eq (h : Runs t ms t₁) : t₁.flows = opened t.flows ms := by
  induction h with
  | stop t => rfl
  | step hstep _ ih => rw [ih, hstep.flows_eq, opened_cons]

/-- Whenever the current flow is looked up, the answer is that of the innermost open level. -/
theorem Runs.looked (h : Runs t ms t₁) {before after : List (Mark E)} {a : Option FlowId}
    (hms : ms = before ++ .looked a :: after) : a = current (opened t.flows before) := by
  induction h generalizing before with
  | stop t => simp at hms
  | step hstep _ ih =>
      cases before with
      | nil =>
          obtain ⟨rfl, -⟩ := List.cons.inj hms
          exact hstep.looked
      | cons m before =>
          obtain ⟨rfl, hrest⟩ := List.cons.inj hms
          rw [opened_cons, ← hstep.flows_eq]
          exact ih hrest

/-! ### What a block can do next -/

section Next

variable {α β : Type} {F : Frames E ω α}

theorem Step.of_ask {q : Question E} {next : q.Answer → Block E α}
    (h : Step ⟨.ask q next, F⟩ m t₁) :
    (∀ flows, m.after flows = flows) ∧ ∃ x, t₁ = ⟨next x, F⟩ := by
  cases h with
  | say x hq => exact ⟨fun _ => rfl, x, rfl⟩
  | look => exact ⟨fun _ => rfl, _, rfl⟩
  | @leave _ _ _ _ _ _ ended hend => cases ended <;> cases hend

theorem Step.of_level {flow : Option FlowId} {inner : Block E β}
    {next : Except Panic β → Block E α} (h : Step ⟨.level flow inner next, F⟩ m t₁) :
    m = .entered flow ∧ t₁ = ⟨inner, .level flow next F⟩ := by
  cases h with
  | enter => exact ⟨rfl, rfl⟩
  | @leave _ _ _ _ _ _ ended hend => cases ended <;> cases hend

theorem Step.of_spawn {task : Block E Unit} {next : Block E α}
    (h : Step ⟨.spawn task next, F⟩ m t₁) : m = .spawned task ∧ t₁ = ⟨next, F⟩ := by
  cases h with
  | spawn => exact ⟨rfl, rfl⟩
  | @leave _ _ _ _ _ _ ended hend => cases ended <;> cases hend

theorem Step.of_end {flow : Option FlowId} {next : Except Panic β → Block E α}
    {ended : Except Panic β} (h : Step ⟨.ofEnd ended, .level flow next F⟩ m t₁) :
    m = .left ∧ t₁ = ⟨next ended, F⟩ := by
  generalize hb : (Block.ofEnd ended : Block E β) = b at h
  cases h with
  | leave hend =>
      obtain rfl := Block.ofEnd_injective (hb.trans hend)
      exact ⟨rfl, rfl⟩
  | _ => cases ended <;> cases hb

end Next

/-- A block inside levels has not yet come to its end, and these levels are still open; or it has
come to its end, with a value, an error or a panic, and has left all levels of its own. -/
theorem Runs.of_block {α : Type} (b : Block E α) :
    ∀ {F : Frames E ω α} {ms : List (Mark E)}, Runs ⟨b, F⟩ ms t →
      (∃ more, t.flows = more ++ F.flows) ∨
      ∃ inside ended after, ms = inside ++ after ∧ Balanced inside ∧
        Runs ⟨b, F⟩ inside ⟨.ofEnd ended, F⟩ ∧ Runs ⟨.ofEnd ended, F⟩ after t := by
  induction b with
  | done a => exact fun {F ms} h => .inr ⟨[], .ok a, ms, rfl, .nil, .stop _, h⟩
  | panic p => exact fun {F ms} h => .inr ⟨[], .error p, ms, rfl, .nil, .stop _, h⟩
  | ask q next ih =>
      intro F ms h
      cases h with
      | stop => exact .inl ⟨[], rfl⟩
      | step hstep hrest =>
          obtain ⟨hflat, x, rfl⟩ := hstep.of_ask
          rcases ih x hrest with hopen | ⟨inside, ended, after, rfl, hinside, hruns, hafter⟩
          · exact .inl hopen
          · exact .inr ⟨_ :: inside, ended, after, rfl, .step hflat hinside, .step hstep hruns,
              hafter⟩
  | level flow inner next ihinner ihnext =>
      intro F ms h
      cases h with
      | stop => exact .inl ⟨[], rfl⟩
      | step hstep hrest =>
          obtain ⟨rfl, rfl⟩ := hstep.of_level
          rcases ihinner hrest with
            ⟨more, hopen⟩ | ⟨inside, ended, after, rfl, hinside, hruns, hafter⟩
          · exact .inl ⟨more ++ [flow], by simp [hopen, Frames.flows]⟩
          · cases hafter with
            | stop => exact .inl ⟨[flow], rfl⟩
            | step hleave hnext =>
                obtain ⟨rfl, rfl⟩ := hleave.of_end
                rcases ihnext ended hnext with
                  hopen | ⟨inside', ended', after, rfl, hinside', hruns', hafter⟩
                · exact .inl hopen
                · refine .inr ⟨.entered flow :: (inside ++ .left :: inside'), ended', after, by simp,
                    .level flow hinside hinside', ?_, hafter⟩
                  exact .step hstep (hruns.trans (.step hleave hruns'))
  | spawn task next _ ih =>
      intro F ms h
      cases h with
      | stop => exact .inl ⟨[], rfl⟩
      | step hstep hrest =>
          obtain ⟨rfl, rfl⟩ := hstep.of_spawn
          rcases ih hrest with hopen | ⟨inside, ended, after, rfl, hinside, hruns, hafter⟩
          · exact .inl hopen
          · exact .inr ⟨_ :: inside, ended, after, rfl, .step (fun _ => rfl) hinside,
              .step hstep hruns, hafter⟩

/-- A level that was entered is still open, or it has ended, whatever its program has ended with,
and what follows goes on with the levels that were open before. -/
theorem Runs.of_level {α β : Type} {flow : Option FlowId} {inner : Block E β}
    {next : Except Panic β → Block E α} {F : Frames E ω α}
    (h : Runs ⟨.level flow inner next, F⟩ ms t) (hms : ms ≠ []) :
    (∃ more, t.flows = more ++ flow :: F.flows) ∨
      ∃ inside ended after, ms = .entered flow :: (inside ++ .left :: after) ∧ Balanced inside ∧
        Runs ⟨inner, .level flow next F⟩ inside ⟨.ofEnd ended, .level flow next F⟩ ∧
        Runs ⟨next ended, F⟩ after t := by
  cases h with
  | stop => exact absurd rfl hms
  | step hstep hrest =>
      obtain ⟨rfl, rfl⟩ := hstep.of_level
      rcases Runs.of_block inner hrest with
        hopen | ⟨inside, ended, after, rfl, hinside, hruns, hafter⟩
      · exact .inl hopen
      · cases hafter with
        | stop => exact .inl ⟨[], rfl⟩
        | step hleave hnext =>
            obtain ⟨rfl, rfl⟩ := hleave.of_end
            exact .inr ⟨inside, ended, _, rfl, hinside, hruns, hnext⟩

end Task

/-! ## Tasks side by side -/

/-- Tasks side by side, each with a result of its own. -/
abbrev Crew (E : Signature) : Type 1 := List (Σ ω : Type, Task E ω)

/-- The task that is started by a step. -/
def Mark.started {E : Signature} : Mark E → Crew E
  | spawned task => [⟨Unit, .start task⟩]
  | _ => []

/-- One of the tasks makes a step; a task that it starts joins the others. -/
inductive Crew.Step {E : Signature} : Crew E → Crew E → Prop
  | step {before after : Crew E} {ω : Type} {t t₁ : Task E ω} {m : Mark E} : t.Step m t₁ →
      Crew.Step (before ++ ⟨ω, t⟩ :: after) (before ++ ⟨ω, t₁⟩ :: (after ++ m.started))

/-- A task has come from its own beginning by steps of its own. -/
def Task.Own {E : Signature} (x : Σ ω : Type, Task E ω) : Prop :=
  ∃ b ms, Task.Runs (.start b) ms x.2

/-- Whatever the others do, each task makes its own steps, also one that another has started. -/
theorem Crew.own {E : Signature} {crew crew' : Crew E}
    (h : Relation.ReflTransGen Crew.Step crew crew') (hcrew : ∀ x ∈ crew, Task.Own x) :
    ∀ x ∈ crew', Task.Own x := by
  induction h with
  | refl => exact hcrew
  | tail _ hstep ih =>
      cases hstep with
      | @step before after ω t t₁ m hstep =>
          intro x hx
          simp only [List.mem_append, List.mem_cons] at hx
          rcases hx with hx | rfl | hx | hx
          · exact ih x (List.mem_append_left _ hx)
          · obtain ⟨b, ms, hruns⟩ := ih ⟨ω, t⟩ (by simp)
            exact ⟨b, _, hruns.trans (.single hstep)⟩
          · exact ih x (by simp [hx])
          · cases m with
            | spawned task =>
                obtain rfl := List.mem_singleton.mp hx
                exact ⟨task, [], .stop _⟩
            | _ => cases hx

/-! ## In a run of a completer -/

namespace World

open StageGraph.Program (Informed unanswered)
open StageGraph.Graph (HasBody)

variable {c : Completer} {w w₀ : World} {who : Conductor} {α : Type} {xs : List Exchange}
  {flow : Nat} {g : Graph} {t : BodyThread}

/-- Nobody who asks a completer is told that a flow is current. -/
theorem Gave.informed {rs : List (Reply (flowSignature bodySignature))}
    (h : List.Forall₂ (Gave c) xs rs) : Informed (currentIs none) rs := by
  induction h with
  | nil => exact List.forall_mem_nil _
  | @cons exchange r _ _ hgave _ ih =>
      refine List.forall_mem_cons.mpr ⟨?_, ih⟩
      obtain ⟨a, rfl, outcome?, clock, hoffers⟩ := hgave
      obtain ⟨before, q, after⟩ := exchange
      intro x hx
      cases q with
      | currentFlow =>
          obtain rfl : none = a := Option.some.inj hoffers
          exact Option.some.inj hx
      | _ => cases hx

/-- A block that is conducted in a run makes the steps of the machine. -/
theorem Comes.runs {b : Block bodySignature α} {t : Thread (FlowProgram bodySignature α)}
    (h : Comes c who w₀ (.going b.program) xs w t) :
    t.Within fun p => ∃ ms task rs, Task.Runs (.start b) ms task ∧
      task.program = FlowProgram.detached p ∧ List.Forall₂ (Gave c) xs rs ∧
      heard ms = unanswered (currentIs none) rs := by
  refine h.leads.mono ?_
  rintro p ⟨rs, hrs, hleads⟩
  obtain ⟨ms, task, hruns, hms, htask⟩ :=
    Task.runs_iff_leads.mp (hleads.answering (Gave.informed hrs))
  exact ⟨ms, task, rs, hruns, htask, hrs, hms⟩

/-- Every body that is under way was invoked for the flow of its graph. -/
theorem leads_of_hasBody (hreach : w.Reachable c) (hg : w.graph? flow = some g)
    (ht : g.HasBody t) :
    ∃ r, r.flow = g.id ∧ t.Within fun p => ∃ rs, (c.catalog.invoke r).Leads rs p := by
  rw [id_of_reachable hreach hg]
  refine body_of_reachable (P := fun flow t => ∃ r, r.flow = c.flowName flow ∧
    t.Within fun p => ∃ rs, (c.catalog.invoke r).Leads rs p) ?_ ?_ hreach hg ht
  · exact fun flow r hr => ⟨r, hr, [], .here _⟩
  · rintro w flow t q next - ⟨r, hr, hwithin⟩ hresume
    obtain ⟨rs, hleads⟩ := hwithin.offers ⟨_, _, hresume⟩
    exact ⟨r, hr, Thread.within_map (fun x => ⟨_, hleads.snoc x⟩) _⟩

/-- A body of which the levels can be seen makes the steps of the machine, at the level of the flow
for which it was invoked. -/
theorem runs_of_invoke {k : Catalog} {r : Invocation} {cont : Continuation}
    {body : Block bodySignature (Except Report Datum)} {p : FlowProgram bodySignature Outcome}
    {rs : List (Reply (flowSignature bodySignature))}
    (hentry : k.find? r.closure.entry = some cont) (harity : r.args.length = cont.kind.arity)
    (hbody : (cont.run r.closure r.args).run = body.program) (h : (k.invoke r).Leads rs p) :
    ∃ ms task, Task.Runs (.start (.invoke r body)) ms task ∧ heard ms = rs ∧
      task.program = p := by
  rw [Block.program_invoke hentry harity hbody, ← Block.detached_invoke] at h
  exact Task.runs_iff_leads.mp h

end World

/-! ## Fenced levels -/

open StageGraph.Task (Runs)
open StageGraph.World (Comes Exchange Gave)

/-- The current flow is that of the innermost level that is open in the same task.
* Where the levels of a program can be seen, its conversations are those of the machine, and the
  programs of the library are made of levels: scopes, tasks that are waited for, runs of functions,
  and bodies.
* In every run of the machine, the marks tell which levels are open, and whoever looks up the
  current flow is told that of the innermost one, or none.  A level that was entered is still open,
  or its program has ended, with a value, an error or a panic; then those levels are open that were
  open before it, and what follows goes on with them.
* Told a flow, the library gives this flow, by either name, and is active; told none, it gives the
  error for it, and is not.
* Of any number of tasks, in any interleaving, each makes its own steps, from a beginning where no
  level is open; also one that has been started by another, inside whatever levels.
* So does a task that calls a completer, in any run of it.
* The body of a stage or of a hook that is under way was invoked for the flow that owns it, and its
  steps are those from the level of this flow. -/
theorem current_flow_fenced :
    (∀ (E : Signature) (ω : Type) (b : Block E ω) (p : FlowProgram E ω) rs,
      (FlowProgram.detached b.program).Leads rs p ↔
        ∃ ms t, Runs (.start b) ms t ∧ heard ms = rs ∧ t.program = p) ∧
    (∀ (E : Signature) (α β : Type) (inner : Block E β),
      (∀ flow (next : β → Block E α), (Block.scope flow inner next).program =
        (FlowProgram.scope flow inner.program).bind fun b => (next b).program) ∧
      ∀ next : Except Panic β → Block E α, (Block.join inner next).program =
        (FlowProgram.detached inner.program).attempt.bind fun ended => (next ended).program) ∧
    (∀ (E : Signature) (α β : Type) name (body : Block E (Except Report β))
      (next : Except FlowError (FunctionRun β) → Block E α),
      (Block.function name body next).program =
        (FunctionRun.start name (ExceptT.mk body.program)).run.bind fun r => (next r).program) ∧
    (∀ (E : Signature) (ω : Type) (b : Block E ω) ms t, Runs (.start b) ms t →
      t.flows = opened [] ms ∧
      (∀ before a after, ms = before ++ .looked a :: after → a = current (opened [] before)) ∧
      ∀ (α β : Type) flow (inner : Block E β) (next : Except Panic β → Block E α)
        (F : Frames E ω α) rest t', t = ⟨.level flow inner next, F⟩ → Runs t rest t' → rest ≠ [] →
        (∃ more, t'.flows = more ++ flow :: opened [] ms) ∨
        ∃ inside ended after, rest = .entered flow :: (inside ++ .left :: after) ∧
          Runs ⟨inner, .level flow next F⟩ inside ⟨.ofEnd ended, .level flow next F⟩ ∧
          opened [] (ms ++ .entered flow :: (inside ++ [.left])) = opened [] ms ∧
          Runs ⟨next ended, F⟩ after t') ∧
    (∀ (E : Signature) a, ∀ p ∈ [(FlowM.currentFlow : FlowM E FlowId), FlowM.currentRuntime],
      p.run.answering (currentIs a) =
        .done (match a with | some flow => .ok flow | none => .error .noActiveFlow)) ∧
    (∀ a, Program.answering (currentIs a) Scenario.isActive = .done a.isSome) ∧
    (∀ (E : Signature) (crew crew' : Crew E), Relation.ReflTransGen Crew.Step crew crew' →
      (∀ x ∈ crew, ∃ b, x.2 = .start b) → ∀ x ∈ crew', ∃ b ms, Runs (.start b) ms x.2) ∧
    (∀ (c : Completer) who w₀ xs w (α : Type) (b : Block bodySignature α) t,
      Comes c who w₀ (.going b.program) xs w t →
      t.Within fun p => ∃ ms task rs, Runs (.start b) ms task ∧
        task.program = FlowProgram.detached p ∧ List.Forall₂ (Gave c) xs rs ∧
        heard ms = Program.unanswered (currentIs none) rs) ∧
    ∀ (c : Completer) (w : World) flow g t, w.Reachable c → w.graph? flow = some g → g.HasBody t →
      ∃ r, r.flow = g.id ∧ t.Within fun p => ∃ rs, (c.catalog.invoke r).Leads rs p ∧
        ∀ cont body, c.catalog.find? r.closure.entry = some cont →
          r.args.length = cont.kind.arity → (cont.run r.closure r.args).run = body.program →
          ∃ ms task, Runs (.start (.invoke r body)) ms task ∧ heard ms = rs ∧ task.program = p := by
  refine ⟨fun E ω b p rs => Task.runs_iff_leads, fun E α β inner => ⟨?_, ?_⟩, ?_, ?_, ?_, ?_, ?_, ?_,
    ?_⟩
  · exact fun flow next => Block.program_scope flow inner next
  · exact fun next => Block.program_join inner next
  · exact fun E α β name body next => Block.program_function name body next
  · intro E ω b ms t hruns
    refine ⟨hruns.flows_eq, fun before a after hms => hruns.looked hms, ?_⟩
    rintro α β flow inner next F rest t' rfl hrest hne
    have hF : F.flows = opened [] ms := hruns.flows_eq
    rcases hrest.of_level hne with
      hopen | ⟨inside, ended, after, hms, hinside, hinner, hafter⟩
    · exact .inl (hF ▸ hopen)
    · refine .inr ⟨inside, ended, after, hms, hinner, ?_, hafter⟩
      rw [opened_append]
      exact (Balanced.level flow hinside .nil).opened _
  · intro E a p hp
    obtain rfl : p = FlowM.currentFlow := by
      rcases List.mem_pair.mp hp with rfl | rfl <;> rfl
    cases a <;> rfl
  · intro a
    cases a <;> rfl
  · intro E crew crew' hsteps hcrew
    refine Crew.own hsteps ?_
    intro x hx
    obtain ⟨b, hb⟩ := hcrew x hx
    exact ⟨b, [], hb ▸ .stop _⟩
  · exact fun c who w₀ xs w α b t h => h.runs
  · intro c w flow g t hreach hg ht
    obtain ⟨r, hr, hwithin⟩ := World.leads_of_hasBody hreach hg ht
    refine ⟨r, hr, hwithin.mono ?_⟩
    rintro p ⟨rs, hleads⟩
    exact ⟨rs, hleads, fun cont body hentry harity hbody =>
      World.runs_of_invoke hentry harity hbody hleads⟩

/-- A level that panics inside another one, which looks up the current flow afterwards. -/
def nestedBlock : Block bodySignature Unit :=
  .level (some ⟨"outer"⟩)
    (.level (some ⟨"inner"⟩) (.panic .other) fun (_ : Except Panic Unit) => .ask .currentFlow .done)
    fun _ => .done ()

theorem current_flow_fenced_nested :
    ∃ t, Runs (.start nestedBlock)
        [.entered (some ⟨"outer"⟩), .entered (some ⟨"inner"⟩), .left,
          .looked (some ⟨"outer"⟩), .left] t ∧
      t.flows = [] ∧ (FlowProgram.detached nestedBlock.program).Leads [] t.program := by
  have hpanic : (Block.panic .other : Block bodySignature Unit) = .ofEnd (.error .other) := rfl
  have hlooked : (Block.done (some ⟨"outer"⟩) : Block bodySignature (Option FlowId)) =
      .ofEnd (.ok (some ⟨"outer"⟩)) := rfl
  have hruns : Runs (.start nestedBlock) _ _ :=
    .step .enter (.step .enter (.step (.leave hpanic)
      (.step .look (.step (.leave hlooked) (.stop _)))))
  have hflows := (current_flow_fenced.2.2.2.1 _ _ _ _ _ hruns).1
  have hleads := (current_flow_fenced.1 _ _ nestedBlock _ []).mpr ⟨_, _, hruns, rfl, rfl⟩
  exact ⟨_, hruns, hflows, hleads⟩

end StageGraph
