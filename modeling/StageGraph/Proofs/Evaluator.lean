/-
# `StageGraph.Proofs.Evaluator` — a graph read as an expression

A graph can be read as an expression.  A stage that was terminal from the start
is its value, a delay is nothing, and any other stage applies the rules of its
operation to the values of its inputs, in their order, and the function that its
body is; where the body names a stage, that stage's value is taken.
`Plan.evaluate` is this reading.  It knows nothing of tasks, timers or phases.

Inputs and adopted stages are earlier stages, so the reading is a recursion on
positions.  Only a stage that takes the first of several inputs depends on the
order in which things happen.  A stage that draws on no such stage has the
result that the evaluator gives, whatever happened on the way
(`Graph.outcome_eq_evaluate`).
-/
import StageGraph.Proofs.Provenance
import Mathlib.Logic.Relation

namespace StageGraph

/-! ## Plans -/

/-- What a stage was made as. -/
inductive Node where
  /-- Terminal from the start. -/
  | value (o : Outcome)
  | delay
  | resolved (k : Recipe)

/-- What a stage was made as. -/
def Stage.node (s : Stage) : Node :=
  match s.operation with
  | .completedValue => .value (s.phase.outcome?.getD .empty)
  | .delay => .delay
  | _ => .resolved s.recipe

/-- What a graph was made as. -/
structure Plan where
  flow : FlowId
  nodes : List Node

/-- What the graph was made as. -/
def Graph.plan (g : Graph) : Plan := ⟨g.id, g.stages.map Stage.node⟩

namespace Plan

/-- What is asked of a catalog for the body of the `n`th stage. -/
def invocation (p : Plan) (n : Nat) (closure : Closure) (args : List Outcome) : Invocation :=
  ⟨p.flow, Graph.stageName n, closure, args⟩

/-- What follows from the result of a body, if `value` tells the results of earlier stages. -/
def follow (op : Operation) (r : Outcome) (value : Nat → Outcome) : Outcome :=
  if op.adopts then
    match r.compose with
    | .complete o => o
    | .adopt stage => ((Integer.readIndex? stage.text.toList).map value).getD .empty
  else r

/-- The result of the `n`th stage from the results of its inputs, if `body` tells what bodies give
and `value` the results of earlier stages. -/
def conclude (body : Invocation → Outcome) (flow : FlowId) (n : Nat) (k : Recipe)
    (inputs : List Outcome) (value : Nat → Outcome) : Outcome :=
  match k.operation.resolve inputs, k.closure with
  | .error e, _ => (Report.ofFlow e).toOutcome
  | .ok (.complete o), _ => o
  | .ok _, none => Stage.bodyless k.operation
  | .ok (.observe _ o), some _ => o
  | .ok (.invoke args), some closure =>
    follow k.operation (body ⟨flow, Graph.stageName n, closure, args⟩) value

section Conclude

variable {body : Invocation → Outcome} {flow : FlowId} {n : Nat} {k : Recipe}
  {inputs : List Outcome} {value : Nat → Outcome} {op : Operation} {r o : Outcome}

theorem follow_of_keeps (ha : op.adopts = false) : follow op r value = r := by
  rw [follow, ha]
  rfl

theorem follow_of_complete (ha : op.adopts = true) (hc : r.compose = .complete o) :
    follow op r value = o := by
  rw [follow, if_pos ha, hc]

theorem follow_of_adopt {stage : StageId} {target : Nat} (ha : op.adopts = true)
    (hc : r.compose = .adopt stage) (ht : Integer.readIndex? stage.text.toList = some target) :
    follow op r value = value target := by
  rw [follow, if_pos ha, hc]
  simp only [ht, Option.map_some, Option.getD_some]

/-- Where the rules ask for a body, everything follows from its result. -/
theorem conclude_of_invoke {args : List Outcome} {closure : Closure}
    (hr : k.operation.resolve inputs = .ok (.invoke args)) (hclosure : k.closure = some closure) :
    conclude body flow n k inputs value =
      follow k.operation (body ⟨flow, Graph.stageName n, closure, args⟩) value := by
  rw [conclude, hr, hclosure]

end Conclude

/-- The result of a stage. -/
def evaluate (body : Invocation → Outcome) (p : Plan) (n : Nat) : Outcome :=
  match p.nodes[n]? with
  | some (.value o) => o
  | some .delay | none => .empty
  | some (.resolved k) =>
    let value (d : Nat) : Outcome := if d < n then evaluate body p d else .empty
    conclude body p.flow n k (k.deps.map value) value

/-- Whether a stage takes the first of several inputs. -/
def isFirst (p : Plan) (n : Nat) : Bool :=
  match p.nodes[n]? with
  | some (.resolved k) => k.operation.readiness = .firstInput
  | _ => false

/-- The stage that the body of a stage names, where it is run on the evaluated inputs. -/
def adopted? (body : Invocation → Outcome) (p : Plan) (n : Nat) : Option Nat :=
  match p.nodes[n]? with
  | some (.resolved k) =>
    match k.operation.resolve (k.deps.map (p.evaluate body)), k.closure with
    | .ok (.invoke args), some closure =>
      if k.operation.adopts then
        match (body ⟨p.flow, Graph.stageName n, closure, args⟩).compose with
        | .adopt stage => Integer.readIndex? stage.text.toList
        | .complete _ => none
      else none
    | _, _ => none
  | _ => none

/-- A stage waits for another one, or adopts it. -/
def Draws (body : Invocation → Outcome) (p : Plan) (n d : Nat) : Prop :=
  (∃ k, p.nodes[n]? = some (.resolved k) ∧ d ∈ k.deps) ∨ p.adopted? body n = some d

/-- The stage draws on no stage that takes the first of several inputs. -/
def Steady (body : Invocation → Outcome) (p : Plan) (n : Nat) : Prop :=
  ∀ d, Relation.TransGen (p.Draws body) n d → p.isFirst d = false

/-- Whatever the bodies of the stages ask, they give what a function of their invocation gives. -/
def Functional (c : Completer) (body : Invocation → Outcome) (p : Plan) : Prop :=
  ∀ n k closure args o, p.nodes[n]? = some (.resolved k) → k.closure = some closure →
    CanGive (c.catalog.invoke (p.invocation n closure args)) o →
    o = body (p.invocation n closure args)

/-- The stages that bodies name for adoption were made before the stages that adopt them. -/
def AdoptsEarlier (body : Invocation → Outcome) (p : Plan) : Prop :=
  ∀ n k closure args stage, p.nodes[n]? = some (.resolved k) → k.operation.adopts = true →
    k.closure = some closure →
    (body (p.invocation n closure args)).compose = .adopt stage →
    ∃ target, Integer.readIndex? stage.text.toList = some target ∧ target < n

/-- What the plan says of a result of its `n`th stage, if `results` are those of all its stages. -/
structure Yields (body : Invocation → Outcome) (p : Plan) (results : Nat → Option Outcome)
    (n : Nat) (o : Outcome) : Prop where
  /-- The result is the evaluated one. -/
  evaluated : p.isFirst n = false → o = p.evaluate body n
  /-- The first of several inputs is one that has ended with its evaluated result, and the result
  follows from this one. -/
  first : p.isFirst n = true → ∃ k, p.nodes[n]? = some (.resolved k) ∧ ∃ d ∈ k.deps,
    results d = some (p.evaluate body d) ∧
      o = conclude body p.flow n k [p.evaluate body d] (p.evaluate body)

theorem Steady.of_draws {body : Invocation → Outcome} {p : Plan} {n d : Nat} (h : p.Steady body n)
    (hd : p.Draws body n d) : p.Steady body d ∧ p.isFirst d = false :=
  ⟨fun e he => h e (.head hd he), h d (.single hd)⟩

theorem evaluate_resolved {body : Invocation → Outcome} {p : Plan} {n : Nat} {k : Recipe}
    (hk : p.nodes[n]? = some (.resolved k)) :
    p.evaluate body n =
      conclude body p.flow n k (k.deps.map fun d => if d < n then p.evaluate body d else .empty)
        fun d => if d < n then p.evaluate body d else .empty := by
  rw [evaluate, hk]

end Plan

/-! ## Bodies that ask nothing -/

namespace Program

variable {S : Signature} {α β : Type}

/-- The program asks nothing. -/
def Quiet : Program S α → Prop
  | ask _ _ => False
  | _ => True

theorem Quiet.bind {p : Program S α} {f : α → Program S β} (hp : p.Quiet)
    (hf : ∀ a, (f a).Quiet) : (p.bind f).Quiet := by
  cases p with
  | done a => exact hf a
  | panic m => trivial
  | ask q next => cases hp

theorem Quiet.attempt {p : Program S α} (hp : p.Quiet) : p.attempt.Quiet := by
  cases p with
  | ask q next => cases hp
  | _ => trivial

end Program

namespace Catalog

/-- What a body gives that asks nothing. -/
def given (k : Catalog) (r : Invocation) : Outcome :=
  match k.invoke r with
  | .done o => o
  | .panic p => p.toOutcome
  | .ask _ _ => .empty

theorem eq_given {k : Catalog} {r : Invocation} {o : Outcome} (hq : (k.invoke r).Quiet)
    (h : CanGive (k.invoke r) o) : o = k.given r := by
  unfold given
  cases hp : k.invoke r with
  | ask q next => rw [hp] at hq; cases hq
  | done o' => rw [hp] at h; cases h; rfl
  | panic p => rw [hp] at h; cases h; rfl

/-- A body that asks nothing but which flow is current is quiet in its scope. -/
theorem quiet_invoke {k : Catalog} {r : Invocation}
    (h : ∀ c, k.find? r.closure.entry = some c →
      (FlowProgram.scope r.flow (c.run r.closure r.args).run).Quiet) : (k.invoke r).Quiet := by
  unfold invoke
  cases hc : k.find? r.closure.entry with
  | none => trivial
  | some c =>
      by_cases ha : r.args.length = c.kind.arity
      · simp only [if_pos ha]
        exact (h c hc).attempt.bind fun _ => trivial
      · simp only [if_neg ha]
        trivial

theorem quiet_captured (flow : FlowId) (closure : Closure) (args : List Outcome) :
    (FlowProgram.scope flow (Continuation.captured.run closure args).run).Quiet := by
  simp only [Continuation.captured, Continuation.function]
  cases closure.capturedAs Json.Value with
  | error e => trivial
  | ok c =>
      cases (Argument.value args.head? : Except FlowError Json.Value) with
      | error e => trivial
      | ok a => trivial

/-- Bodies that ask nothing are functions of their invocations. -/
theorem functional_of_quiet {c : Completer} (p : Plan) (h : ∀ r, (c.catalog.invoke r).Quiet) :
    p.Functional c c.catalog.given :=
  fun _ _ _ _ _ _ _ ho => eq_given (h _) ho

end Catalog

/-! ## Graphs and their plans -/

namespace Graph

variable {c : Completer} {body : Invocation → Outcome} {g : Graph} {n : Nat} {s : Stage}

theorem plan_node (hs : g.stages[n]? = some s) : g.plan.nodes[n]? = some s.node := by
  simp [plan, hs]

theorem node_resolved (h : s.operation.hasOwnCall = false) : s.node = .resolved s.recipe := by
  unfold Stage.node
  cases hop : s.operation <;> simp_all [Operation.hasOwnCall]

theorem plan_resolved (hs : g.stages[n]? = some s) (hown : s.operation.hasOwnCall = false) :
    g.plan.nodes[n]? = some (.resolved s.recipe) := by
  rw [plan_node hs, node_resolved hown]

theorem isFirst_iff (hs : g.stages[n]? = some s) (hown : s.operation.hasOwnCall = false) :
    g.plan.isFirst n = true ↔ s.operation.readiness = .firstInput := by
  rw [Plan.isFirst, plan_resolved hs hown]
  exact decide_eq_true_iff

/-- What follows from the inputs of a stage is what the evaluator concludes from them. -/
theorem conclude_of_follows {k : Recipe} {inputs : List Outcome} {o : Outcome}
    {value : Nat → Outcome} (hbody : g.plan.Functional c body)
    (hearlier : g.plan.AdoptsEarlier body) (hk : g.plan.nodes[n]? = some (.resolved k))
    (hf : Follows c g n k inputs o)
    (hvalue : ∀ args closure stage target, k.operation.resolve inputs = .ok (.invoke args) →
      k.closure = some closure → k.operation.adopts = true →
      (body (g.invocation n closure args)).compose = .adopt stage →
      Integer.readIndex? stage.text.toList = some target → g.outcome? target = some o →
      value target = o) :
    o = Plan.conclude body g.id n k inputs value := by
  cases hf with
  | error hr | complete hr => simp only [Plan.conclude, hr]
  | @bodyless r hr hnot hclosure =>
      cases r with
      | complete o => exact absurd rfl (hnot o)
      | invoke args | observe args o => simp only [Plan.conclude, hr, hclosure]
  | observed hr hgives =>
      obtain ⟨closure, hclosure, -⟩ := hgives
      simp only [Plan.conclude, hr, hclosure]
  | @invoked args _ hr ha hgives =>
      obtain ⟨closure, hclosure, hgive⟩ := hgives
      obtain rfl := hbody n k closure args o hk hclosure hgive
      exact ((Plan.conclude_of_invoke hr hclosure).trans (Plan.follow_of_keeps ha)).symm
  | @composed args r _ hr ha hgives hc =>
      obtain ⟨closure, hclosure, hgive⟩ := hgives
      obtain rfl := hbody n k closure args r hk hclosure hgive
      exact ((Plan.conclude_of_invoke hr hclosure).trans (Plan.follow_of_complete ha hc)).symm
  | @adopted args r _ stage target hr ha hgives hc ht ho =>
      obtain ⟨closure, hclosure, hgive⟩ := hgives
      obtain rfl := hbody n k closure args r hk hclosure hgive
      rw [Plan.conclude_of_invoke hr hclosure]
      have hvalue := hvalue args closure stage target hr hclosure ha hc ht ho
      exact ((Plan.follow_of_adopt ha hc ht).trans hvalue).symm
  | @lost args r stage hr ha hgives hc hlost =>
      -- The stage was there, for it is an earlier one.
      obtain ⟨closure, hclosure, hgive⟩ := hgives
      obtain rfl := hbody n k closure args r hk hclosure hgive
      obtain ⟨target, ht, hlt⟩ := hearlier n k closure args stage hk ha hclosure hc
      have := hlost target ht
      omega

theorem draws_dep (hs : g.stages[n]? = some s) (hown : s.operation.hasOwnCall = false) {d : Nat}
    (hd : d ∈ s.deps) : g.plan.Draws body n d :=
  .inl ⟨s.recipe, plan_resolved hs hown, hd⟩

theorem draws_adopted {args : List Outcome} {closure : Closure} {stage : StageId} {target : Nat}
    (hs : g.stages[n]? = some s) (hown : s.operation.hasOwnCall = false)
    (hr : s.operation.resolve (s.deps.map (g.plan.evaluate body)) = .ok (.invoke args))
    (hclosure : s.closure = some closure) (ha : s.operation.adopts = true)
    (hc : (body (g.invocation n closure args)).compose = .adopt stage)
    (ht : Integer.readIndex? stage.text.toList = some target) : g.plan.Draws body n target := by
  right
  rw [Plan.adopted?, plan_resolved hs hown]
  simp only [Stage.recipe, hr, hclosure, ha, if_true]
  show (match (body (g.invocation n closure args)).compose with
    | .adopt stage => Integer.readIndex? stage.text.toList
    | .complete _ => none) = some target
  rw [hc]
  exact ht

/-- Stages with values that an evaluator gives have just these. -/
theorem results_evaluate {ns : List Nat} {os : List Outcome} (h : ns.map g.outcome? = os.map some)
    (hvalue : ∀ d ∈ ns, ∀ o, g.outcome? d = some o → o = g.plan.evaluate body d) :
    os = ns.map (g.plan.evaluate body) := by
  induction ns generalizing os with
  | nil => simpa using h
  | cons n ns ih =>
      cases os with
      | nil => cases h
      | cons o os =>
          simp only [List.map_cons, List.cons.injEq] at h ⊢
          exact ⟨hvalue n List.mem_cons_self o h.1,
            ih h.2 fun d hd => hvalue d (List.mem_cons_of_mem n hd)⟩

/-- A stage that waits for all its inputs, and draws on no first input, has the evaluated result, if
this is so of the earlier stages. -/
theorem outcome_of_all (htraced : g.Traced c) (hbody : g.plan.Functional c body)
    (hearlier : g.plan.AdoptsEarlier body) {o : Outcome} {inputs : List Outcome}
    (hs : g.stages[n]? = some s) (hown : s.operation.hasOwnCall = false)
    (hinputs : s.deps.map g.outcome? = inputs.map some) (hf : Follows c g n s.recipe inputs o)
    (hsteady : g.plan.Steady body n)
    (ih : ∀ d < n, ∀ o, g.plan.Steady body d → g.plan.isFirst d = false → g.outcome? d = some o →
      o = g.plan.evaluate body d) : o = g.plan.evaluate body n := by
  have hdeps := (htraced n s hs).1
  obtain rfl : inputs = s.deps.map (g.plan.evaluate body) := by
    refine results_evaluate hinputs ?_
    intro d hd o ho
    obtain ⟨hsteady', hfirst'⟩ := hsteady.of_draws (draws_dep hs hown hd)
    exact ih d (hdeps d hd) o hsteady' hfirst' ho
  have hvalues : s.deps.map (g.plan.evaluate body) =
      s.deps.map fun d => if d < n then g.plan.evaluate body d else .empty :=
    List.map_congr_left fun d hd => (if_pos (hdeps d hd)).symm
  have hk := plan_resolved hs hown
  rw [Plan.evaluate_resolved hk]
  show o = Plan.conclude body g.id n s.recipe _ _
  rw [show s.recipe.deps = s.deps from rfl, ← hvalues]
  refine conclude_of_follows hbody hearlier hk hf ?_
  intro args closure stage target hr hclosure ha hc ht ho
  obtain ⟨target', ht', hlt⟩ := hearlier n _ closure args stage hk ha hclosure hc
  obtain rfl : target' = target := Option.some.inj (ht'.symm.trans ht)
  obtain ⟨hsteady', hfirst'⟩ := hsteady.of_draws (draws_adopted hs hown hr hclosure ha hc ht)
  rw [if_pos hlt]
  exact (ih target' hlt _ hsteady' hfirst' ho).symm

/-- A stage that has ended and draws on no first input, and is none itself, has the evaluated
result.  The induction is on the position: inputs and adopted stages are earlier. -/
theorem outcome_eq_evaluate (htraced : g.Traced c) (hbody : g.plan.Functional c body)
    (hearlier : g.plan.AdoptsEarlier body) (n : Nat) :
    ∀ o, g.plan.Steady body n → g.plan.isFirst n = false → g.outcome? n = some o →
      o = g.plan.evaluate body n := by
  induction n using Nat.strongRecOn with
  | ind n ih =>
    intro o hsteady hfirst ho
    obtain ⟨s, hs, hphase⟩ := Option.bind_eq_some_iff.mp ho
    cases htraced.settled hs ho with
    | value _ hop =>
        have hop : s.operation = .completedValue := hop
        rw [Plan.evaluate, plan_node hs]
        simp [Stage.node, hop, hphase]
    | delay hop =>
        have hop : s.operation = .delay := hop
        rw [Plan.evaluate, plan_node hs]
        simp [Stage.node, hop]
    | resolved hown hready hfollows =>
        cases hready with
        | first h _ _ =>
            rw [(isFirst_iff hs hown).mpr h] at hfirst
            cases hfirst
        | all _ hinputs =>
            exact outcome_of_all htraced hbody hearlier hs hown hinputs hfollows hsteady ih

/-- A stage that takes the first of several inputs, all of them steady, goes by the evaluated result
of one of them. -/
theorem outcome_of_first (htraced : g.Traced c) (hbody : g.plan.Functional c body)
    (hearlier : g.plan.AdoptsEarlier body) {o : Outcome} (hsteady : g.plan.Steady body n)
    (hfirst : g.plan.isFirst n = true) (ho : g.outcome? n = some o) :
    ∃ k, g.plan.nodes[n]? = some (.resolved k) ∧ ∃ d ∈ k.deps,
      g.outcome? d = some (g.plan.evaluate body d) ∧
        o = Plan.conclude body g.id n k [g.plan.evaluate body d] (g.plan.evaluate body) := by
  obtain ⟨s, hs, -⟩ := Option.bind_eq_some_iff.mp ho
  have hown : s.operation.hasOwnCall = false := by
    rw [Plan.isFirst, plan_node hs] at hfirst
    cases hop : s.operation <;> simp_all [Stage.node, Operation.hasOwnCall]
    simp [Stage.recipe, hop, Operation.readiness] at hfirst
  have hfirst := (isFirst_iff hs hown).mp hfirst
  obtain ⟨inputs, hready, hfollows⟩ := htraced.resolved hs hown ho
  cases hready with
  | all hall _ => exact absurd hfirst hall
  | @first d r _ hd hr =>
      obtain ⟨hsteady', hfirst'⟩ := hsteady.of_draws (draws_dep hs hown hd)
      obtain rfl := outcome_eq_evaluate htraced hbody hearlier d r hsteady' hfirst' hr
      have hk := plan_resolved hs hown
      refine ⟨s.recipe, hk, d, hd, hr, ?_⟩
      refine conclude_of_follows hbody hearlier hk hfollows ?_
      intro args closure stage target _ _ ha
      rw [show s.recipe.operation.adopts = false from (Operation.of_firstInput hfirst).2] at ha
      cases ha

/-- A stage that draws on no first input ends with what the plan of its graph says. -/
theorem yields_of_traced (htraced : g.Traced c) (hbody : g.plan.Functional c body)
    (hearlier : g.plan.AdoptsEarlier body) (hsteady : g.plan.Steady body n) {o : Outcome}
    (ho : g.outcome? n = some o) : g.plan.Yields body g.outcome? n o where
  evaluated hfirst := outcome_eq_evaluate htraced hbody hearlier n o hsteady hfirst ho
  first hfirst := outcome_of_first htraced hbody hearlier hsteady hfirst ho

end Graph

end StageGraph
