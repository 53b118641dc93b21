/-
# `StageGraph.Proofs.Construction` — results do not depend on the schedule

The calls of a run say what the stages of a flow are to be: this value, a delay, or an operation
with a body and the names of its inputs.  In their order they are a plan (`Completer.plan`).  It is
made up of nothing but what the calls have brought along, and no state of a stage occurs in it.

What the stages of the flow have become is this plan (`World.plan_of_run`).  So what the evaluator
reads from the calls is what the stages end with, in whatever order tasks have taken their steps and
timers have gone off (`World.outcome_evaluate`).
-/
import StageGraph.Proofs.StageNames

namespace StageGraph

/-! ## The plan of the calls -/

/-- What a call wants a stage to be made as.  Its inputs are the stages whose numbers are read from
the names. -/
def Request.node? : Request → Option Node
  | .addStage _ r =>
    some (.resolved
      ⟨r.operation, r.closure, r.deps.filterMap fun d => Integer.readIndex? d.text.toList⟩)
  | .addCompleted _ o => some (.value o)
  | .addDelay _ _ => some .delay
  | _ => none

/-- The call of an event that returns a name for a new stage of the flow at a position. -/
def World.granted? (w : World) (flow : Nat) (e : Event) : Option Request :=
  if (w.grants flow e).isEmpty then none else w.request? e

/-- The calls of a run that return names for new stages of the flow at a position, in order. -/
def World.script (c : Completer) (flow : Nat) (w : World) : List Event → List Request
  | [] => []
  | e :: es =>
    (w.granted? flow e).toList ++
      match w.fire c e with
      | some w' => w'.script c flow es
      | none => []

/-- What the calls of a run want the flow at a position to be made as. -/
def Completer.plan (c : Completer) (flow : Nat) (es : List Event) : Plan :=
  ⟨c.flowName flow, (World.empty.script c flow es).filterMap Request.node?⟩

/-! ## Stages remain what they were made as -/

/-- The names of the inputs are read as the positions that they stand for. -/
theorem Graph.filterMap_of_slots {g : Graph} {ids : List StageId} {deps : List Nat}
    (h : List.Forall₂ (fun d n => g.slot? d = .ok n) ids deps) :
    ids.filterMap (fun d => Integer.readIndex? d.text.toList) = deps := by
  induction h with
  | nil => rfl
  | cons hslot _ ih => rw [List.filterMap_cons, (Graph.slot?_eq_ok hslot).1, ih]

namespace World

variable {c : Completer} {w w' : World} {flow n : Nat} {g : Graph} {s : Stage} {e : Event}
  {es : List Event} {r : Request}

theorem node_of_fire (hreach : w.Reachable c) (h : w.fire c e = some w')
    (hs : w.stage? flow n = some s) :
    ∃ s', w'.stage? flow n = some s' ∧ s'.node = s.node := by
  rcases stage_of_fire h hs with hsame | ⟨-, g, m, hsteps⟩
  · exact ⟨s, hsame, rfl⟩
  · refine ⟨_, hsteps.landing, ?_⟩
    -- What has a value from the start has ended, and takes no step.
    have hop : s.operation ≠ .completedValue := by
      intro hop
      obtain ⟨o, ho⟩ :=
        (traced_of_reachable hreach hsteps.graph).ended_of_value hsteps.stage hop
      exact absurd (ho ▸ .nothing o) hsteps.not_waits
    unfold Stage.node
    split <;> simp_all [Stage.recipe]

/-- A call makes a stage as it wants it. -/
theorem Wants.node (hwants : w.Wants g r s) {g' : Graph} (htraced : g'.Traced c)
    (hs : g'.stages[n]? = some s) : r.node? = some s.node := by
  cases hwants with
  | completed flow o => rfl
  | delay flow d => rfl
  | resolved hdeps =>
      rw [Graph.node_resolved (htraced.own_of_initial hs rfl), Request.node?,
        Graph.filterMap_of_slots hdeps]
      rfl

/-! ## Along a run -/

/-- What the stages of the flow at a position were made as. -/
def nodes (w : World) (flow : Nat) : List Node :=
  ((w.graph? flow).map fun g => g.plan.nodes).getD []

theorem nodes_of_graph (hg : w.graph? flow = some g) : w.nodes flow = g.plan.nodes := by
  rw [nodes, hg]
  rfl

theorem getElem?_nodes : (w.nodes flow)[n]? = (w.stage? flow n).map Stage.node := by
  rw [nodes, stage?]
  cases w.graph? flow with
  | none => rfl
  | some g => simp [Graph.plan]

theorem length_nodes : (w.nodes flow).length = w.total flow := by
  rw [nodes, total, size]
  cases w.graph? flow with
  | none => rfl
  | some g => simp [Graph.plan]

theorem nodes_prefix (hreach : w.Reachable c) (h : w.fire c e = some w') (flow : Nat) :
    w.nodes flow <+: w'.nodes flow := by
  refine List.prefix_iff_getElem?.mpr ?_
  intro n hn
  have hnode := List.getElem?_eq_getElem hn
  rw [getElem?_nodes] at hnode
  obtain ⟨s, hs, hmade⟩ := Option.map_eq_some_iff.mp hnode
  obtain ⟨s', hs', hsame⟩ := node_of_fire hreach h hs
  rw [getElem?_nodes, hs', Option.map_some, hsame, hmade]

/-- An event adds to a flow what the call that is made in it wants. -/
theorem nodes_of_fire (hreach : w.Reachable c) (h : w.fire c e = some w') (flow : Nat) :
    w'.nodes flow = w.nodes flow ++ (w.granted? flow e).toList.filterMap Request.node? := by
  obtain ⟨more, hmore⟩ := nodes_prefix hreach h flow
  have hlength : w.total flow + more.length = w'.total flow := by
    rw [← length_nodes, ← length_nodes, ← hmore, List.length_append]
  rw [← hmore]
  congr 1
  rcases grants_of_fire h flow with ⟨hgrants, htotal⟩ | ⟨hgrants, htotal⟩
  · have hnone : more.length = 0 := by omega
    simp [List.length_eq_zero_iff.mp hnone, granted?, hgrants]
  · obtain ⟨node, rfl⟩ := List.length_eq_one_iff.mp (show more.length = 1 by omega)
    obtain ⟨g, r, s, hg, hr, hwants, -, hadds⟩ :=
      made_of_grants h (hgrants ▸ List.mem_singleton_self _)
    obtain ⟨g', hg', hs⟩ := stage?_eq_some.mp hadds.stage
    have hnode := hwants.node (traced_of_reachable (hreach.run (run_fire h)) hg') hs
    have hlast : (w'.nodes flow)[g.stages.length]? = some node := by
      rw [← hmore, ← total_of_graph hg, ← length_nodes, List.getElem?_concat_length]
    rw [getElem?_nodes, hadds.stage] at hlast
    simp [granted?, hgrants, hr, hnode, Option.some.inj hlast]

theorem nodes_of_run (hreach : w.Reachable c) (h : w.run c es = some w') (flow : Nat) :
    w'.nodes flow = w.nodes flow ++ (w.script c flow es).filterMap Request.node? := by
  induction es generalizing w with
  | nil =>
      obtain rfl := Option.some.inj h
      exact (List.append_nil _).symm
  | cons e es ih =>
      obtain ⟨w₁, hfire, hrun⟩ := Option.bind_eq_some_iff.mp h
      rw [ih (hreach.run (run_fire hfire)) hrun, nodes_of_fire hreach hfire, script, hfire,
        List.filterMap_append, List.append_assoc]

/-- After a run from the beginning, the stages of a flow are what its calls have wanted. -/
theorem plan_of_run (h : World.empty.run c es = some w) (hg : w.graph? flow = some g) :
    g.plan = c.plan flow es := by
  have hnodes := nodes_of_run ⟨[], rfl⟩ h flow
  rw [nodes_of_graph hg, show World.empty.nodes flow = [] from rfl, List.nil_append] at hnodes
  rw [Completer.plan, ← hnodes, ← id_of_reachable ⟨es, h⟩ hg]
  rfl

/-- In every state of every run: if the bodies of the stages that its calls have made are functions
of their invocations, and the stages that they name for adoption were made before the stages that
adopt them, then the results of the stages are those that the evaluator reads from the calls. -/
theorem outcome_evaluate {body : Invocation → Outcome} {o : Outcome}
    (hrun : World.empty.run c es = some w) (hbody : (c.plan flow es).Functional c body)
    (hearlier : (c.plan flow es).AdoptsEarlier body) (hsteady : (c.plan flow es).Steady body n)
    (ho : w.outcome? flow n = some o) :
    (c.plan flow es).Yields body (w.outcome? flow) n o := by
  obtain ⟨g, hg, ho⟩ := Option.bind_eq_some_iff.mp ho
  have hplan := plan_of_run hrun hg
  have hresults : w.outcome? flow = g.outcome? := funext fun _ => outcome?_of_graph hg
  rw [← hplan] at hbody hearlier hsteady ⊢
  rw [hresults]
  exact Graph.yields_of_traced (traced_of_reachable ⟨es, hrun⟩ hg) hbody hearlier hsteady ho

/-- A stage that adopts a failure when a delay is over. -/
def adoptingRun : List Event :=
  [.call (.createFlow "f"), .call (.addCompleted ⟨"0"⟩ (.failure (.failure .userError "no"))),
    .call (.addDelay ⟨"0"⟩ (.ofMillis 5)),
    .call (.addStage ⟨"0"⟩ ⟨.thenCompose, some (.bare "name"), [⟨"1"⟩]⟩), .clock 5,
    .task (.stage 0 1), .task (.stage 0 2), .task (.stage 0 2), .task (.stage 0 2),
    .task (.stage 0 2)]

/-- The state after `adoptingRun`. -/
def adoptingEnd : World := (World.empty.run (.naming ⟨"0"⟩) adoptingRun).getD .empty

theorem outcome_evaluate_adopting :
    World.empty.run (.naming ⟨"0"⟩) adoptingRun = some adoptingEnd ∧
      ((Completer.naming ⟨"0"⟩).plan 0 adoptingRun).nodes =
        [.value (.failure (.failure .userError "no")), .delay,
          .resolved ⟨.thenCompose, some (.bare "name"), [1]⟩] ∧
      ((Completer.naming ⟨"0"⟩).plan 0 adoptingRun).evaluate
          (Completer.naming ⟨"0"⟩).catalog.given 2 = .failure (.failure .userError "no") := by
  have hrun : World.empty.run (.naming ⟨"0"⟩) adoptingRun = some adoptingEnd := rfl
  have hquiet (r : Invocation) : ((Completer.naming ⟨"0"⟩).catalog.invoke r).Quiet := by
    obtain ⟨o, ho, -⟩ := Completer.invoke_naming ⟨"0"⟩ r
    rw [ho]
    trivial
  have hsteady : ((Completer.naming ⟨"0"⟩).plan 0 adoptingRun).Steady
      (Completer.naming ⟨"0"⟩).catalog.given 2 := fun d _ =>
    match d with
    | 0 | 1 | 2 => rfl
    | _ + 3 => rfl
  have hearlier : ((Completer.naming ⟨"0"⟩).plan 0 adoptingRun).AdoptsEarlier
      (Completer.naming ⟨"0"⟩).catalog.given := by
    intro n k closure args stage hk _ _ hc
    obtain ⟨o, ho, hstage⟩ := Completer.invoke_naming ⟨"0"⟩
      (((Completer.naming ⟨"0"⟩).plan 0 adoptingRun).invocation n closure args)
    rw [Catalog.given, ho] at hc
    obtain rfl := hstage stage hc
    refine ⟨0, rfl, ?_⟩
    rcases n with _ | n
    · cases hk
    · exact Nat.succ_pos n
  have ho : adoptingEnd.outcome? 0 2 = some (.failure (.failure .userError "no")) := rfl
  have hevaluated := (outcome_evaluate hrun (Catalog.functional_of_quiet _ hquiet) hearlier hsteady
    ho).evaluated rfl
  exact ⟨hrun, rfl, hevaluated.symm⟩

end World

end StageGraph
