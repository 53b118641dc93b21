/-
# `StageGraph.Proofs.Admission` — what is let in can be resolved

A request for a stage is checked when it comes in, and resolved much later, by
rules that are written down elsewhere.  The two fit each other.  A request is let
in exactly if it is admissible (`StageRequest.Admissible`): its operation is made by
requests, has as many inputs as it takes, and has its body.  A stage that has been
let in waits for as many results as its operation is resolved from
(`Operation.Supplies`), and on these the rules always say something that can be done:
end, or run a body that is there (`Stage.resolve_cases_of_takes`).

Nothing else is ever sent by the programs that build graphs (`Builder`): where the
number of handles does not fit, they fail before they send anything.
-/
import StageGraph.Proofs.Causality
import StageGraph.Proofs.ResolutionRules
import StageGraph.Proofs.WaitCycle

namespace StageGraph

namespace Operation

/-- The results from which a stage with `count` inputs is resolved: none, those of all inputs, or
that of the first one. -/
def Supplies (op : Operation) (count : Nat) (inputs : List Outcome) : Prop :=
  match op.readiness with
  | .immediate => inputs = []
  | .allInputs => inputs.length = count
  | .firstInput => inputs.length = 1

variable {op : Operation} {count : Nat} {inputs : List Outcome}

theorem ne_zero_of_first (htakes : op.Takes count) (hfirst : op.readiness = .firstInput) :
    count ≠ 0 := by
  rintro rfl
  cases op <;> cases hfirst <;> simp [Takes] at htakes

/-- What a stage waits for is a number of results that its operation is resolved from. -/
theorem resolvesFrom_of_supplies (hown : op.hasOwnCall = false) (htakes : op.Takes count)
    (h : op.Supplies count inputs) : op.ResolvesFrom inputs.length := by
  cases op with
  | supply | allOf => trivial
  | thenApply | thenCompose | exceptionally | exceptionallyCompose | handle | whenComplete
  | thenCombine => exact h.trans htakes
  | applyToEither | anyOf => exact ne_of_eq_of_ne h Nat.one_ne_zero
  | delay | completedValue | terminationHook => cases hown

/-- An operation that is made by requests can be resolved from what its stages wait for, and only
one with a body asks for a body. -/
theorem resolve_ok (hown : op.hasOwnCall = false) (htakes : op.Takes count)
    (h : op.Supplies count inputs) :
    ∃ r, op.resolve inputs = .ok r ∧ ((∃ o, r = .complete o) ∨ op.hasBody) := by
  obtain ⟨r, hr⟩ := exists_rule_iff.mpr (resolvesFrom_of_supplies hown htakes h)
  exact ⟨r, hr.resolve_eq, hr.ends_or_hasBody⟩

end Operation

/-! ## Requests -/

/-- A request that a completer lets in. -/
structure StageRequest.Admissible (r : StageRequest) : Prop where
  operation : r.operation ∉ [.delay, .completedValue, .terminationHook]
  inputs : r.operation.Takes r.deps.length
  body : r.operation.hasBody → r.closure.isSome

theorem Operation.hasOwnCall_iff (op : Operation) :
    op.hasOwnCall ↔ op ∈ [.delay, .completedValue, .terminationHook] := by
  cases op <;> decide

namespace World

open StageGraph.Graph (Ready)

variable {c : Completer} {w : World} {flow n : Nat} {g : Graph} {s : Stage} {r : StageRequest}

theorem checkRequest_ok_iff (r : StageRequest) : checkRequest r = .ok () ↔ r.Admissible := by
  have hown := r.operation.hasOwnCall_iff
  unfold checkRequest
  cases hinputs : r.operation.checkInputs r.deps.length with
  | error e =>
      have hnot : ¬r.operation.Takes r.deps.length := by
        rw [← Operation.checkInputs_ok_iff, hinputs]
        simp
      exact ⟨fun h => (by cases h), fun h => absurd h.inputs hnot⟩
  | ok u =>
      have htakes := (Operation.checkInputs_ok_iff _ _).mp hinputs
      simp only [bind, Except.bind]
      split
      · next hbody =>
          simp only [Bool.and_eq_true, Option.isNone_iff_eq_none] at hbody
          refine ⟨fun h => (by cases h), fun h => ?_⟩
          have hclosure := h.body hbody.1
          rw [hbody.2] at hclosure
          cases hclosure
      · next hbody =>
          have hbody : r.operation.hasBody → r.closure.isSome := by
            intro h
            simpa [h, Option.isSome_iff_ne_none] using hbody
          split
          · next h => exact ⟨fun h => (by cases h), fun hr => absurd (hown.mp h) hr.operation⟩
          · next h => exact ⟨fun _ => ⟨fun hmem => h (hown.mpr hmem), htakes, hbody⟩, fun _ => rfl⟩

theorem mapM_slot?_ok {deps : List StageId} (h : ∀ d ∈ deps, ∃ k, g.slot? d = .ok k) :
    ∃ ks, deps.mapM g.slot? = .ok ks := by
  induction deps with
  | nil => exact ⟨[], rfl⟩
  | cons d deps ih =>
      obtain ⟨k, hk⟩ := h d List.mem_cons_self
      obtain ⟨ks, hks⟩ := ih fun d hd => h d (List.mem_cons_of_mem _ hd)
      exact ⟨k :: ks, by simp [hk, hks, bind, Except.bind, pure, Except.pure]⟩

/-- A flow whose end has not begun lets in what is admissible. -/
theorem addStage_ok_iff {id : FlowId} (hfind : w.find id = .ok (n, g))
    (hopen : g.terminating = false) (hdeps : ∀ d ∈ r.deps, ∃ k, g.slot? d = .ok k) :
    (∃ stage, (w.addStage id r).2 = .ok stage) ↔ r.Admissible := by
  rw [← checkRequest_ok_iff]
  unfold addStage
  cases hr : checkRequest r with
  | error e => simp
  | ok u =>
      obtain ⟨ks, hks⟩ := mapM_slot?_ok hdeps
      have hallocate : ∃ g', allocateResolved r g = .ok (g', Graph.stageName g.stages.length) := by
        simp [allocateResolved, hks, Graph.allocate, hopen, bind, Except.bind]
      obtain ⟨g', hg'⟩ := hallocate
      refine ⟨fun _ => rfl, fun _ => ⟨Graph.stageName g.stages.length, ?_⟩⟩
      simp only [change, hfind, hg']

end World

/-! ## Stages -/

/-- The stage `s` of the graph `g` has what it waits for. -/
inductive Graph.Supplied (g : Graph) (s : Stage) : List Outcome → Prop
  | all {got : List Outcome} : s.phase = .gathering got [] → Supplied g s got
  | first {o : Outcome} : s.phase = .choosing → s.deps.findSome? g.outcome? = some o →
      Supplied g s [o]

/-- Where the results are as many as the operation is resolved from, the stage ends by its rules or
runs its body. -/
theorem Stage.resolve_cases_of_takes {s : Stage} {inputs : List Outcome}
    (hown : s.operation.hasOwnCall = false) (htakes : s.operation.Takes s.deps.length)
    (hbody : s.operation.hasBody → s.closure.isSome)
    (h : s.operation.Supplies s.deps.length inputs) :
    (∃ o, s.operation.resolve inputs = .ok (.complete o) ∧ s.resolve inputs = .finish o) ∨
      ∃ closure args forward, s.resolve inputs = .launch closure args forward := by
  obtain ⟨r, hr, hasked⟩ := Operation.resolve_ok hown htakes h
  unfold Stage.resolve
  rw [hr]
  rcases hasked with ⟨o, rfl⟩ | hasked
  · exact .inl ⟨o, rfl, rfl⟩
  · obtain ⟨closure, hclosure⟩ := Option.isSome_iff_exists.mp (hbody hasked)
    cases r with
    | complete o => exact .inl ⟨o, rfl, rfl⟩
    | invoke args => exact .inr ⟨closure, args, none, by simp [launch, hclosure]⟩
    | observe args o => exact .inr ⟨closure, args, some o, by simp [launch, hclosure]⟩

namespace World

open StageGraph.Graph (Ready Supplied)

variable {c : Completer} {w : World} {flow n : Nat} {g : Graph} {s : Stage}

/-- Stages that are made by requests are as the request was let in. -/
theorem takes_of_reachable (h : w.Reachable c) (hs : w.stage? flow n = some s)
    (hown : s.operation.hasOwnCall = false) : s.operation.Takes s.deps.length := by
  obtain ⟨es, hrun⟩ := h
  refine run_life flow n (P := fun _ _ s => s.operation.hasOwnCall = false →
    s.operation.Takes s.deps.length) ?_ ?_ ?_ hrun hs hown
  · intro es w g s _ hfresh hown
    cases hfresh with
    | completed o => cases hown
    | delay moment => cases hown
    | @resolved r deps hr hdeps =>
        rw [(Graph.mapM_slot?_eq_ok hdeps).1]
        exact ((checkRequest_ok_iff r).mp hr).inputs
  · intro es w e w' s _ ih _
    exact ih
  · intro es w g s m w' _ ih _ _
    exact ih

/-- A stage that has what it waits for can account for it. -/
theorem ready_of_supplied (h : w.Reachable c) (hg : w.graph? flow = some g)
    (hs : g.stages[n]? = some s) {inputs : List Outcome} (hinputs : g.Supplied s inputs) :
    s.operation.hasOwnCall = false ∧ Ready g s.recipe inputs := by
  have htraced := traced_of_reachable h hg
  cases hinputs with
  | all hphase => exact htraced.gathered hs hphase
  | first hphase ho => exact htraced.chosen hs hphase ho

theorem supplies_of_ready {inputs : List Outcome} (htakes : s.operation.Takes s.deps.length)
    (h : Ready g s.recipe inputs) :
    s.operation.Supplies s.deps.length inputs := by
  unfold Operation.Supplies
  cases h with
  | first hfirst hd ho =>
      rw [show s.operation.readiness = _ from hfirst]
      rfl
  | all hall hos =>
      have hlen : inputs.length = s.deps.length := by
        simpa [Stage.recipe] using (congrArg List.length hos).symm
      cases hop : s.operation.readiness with
      | firstInput => exact absurd hop hall
      | allInputs => exact hlen
      | immediate =>
          have hzero : s.deps.length = 0 := by
            cases hs : s.operation <;> simp_all [Operation.readiness, Operation.Takes]
          exact List.length_eq_zero_iff.mp (hlen.trans hzero)

end World

/-! ## Programs that build graphs -/

/-- The program asks a question, if it is answered in some way before. -/
inductive Program.MayAsk {S : Signature} {α : Type} (q : S.Question) : Program S α → Prop
  | now (next : S.Answer q → Program S α) : MayAsk q (.ask q next)
  | later {q' : S.Question} {next : S.Answer q' → Program S α} (x : S.Answer q') :
      MayAsk q (next x) → MayAsk q (.ask q' next)

/-- The programs that build stages: of which flow, and of which operation, with which body and from
which handles the first stage is. -/
inductive Builder {E : Signature} : FlowId → Operation → Option Closure → List Handle →
    {α : Type} → FlowM E α → Prop
  | supply (flow : FlowId) (b : Closure) : Builder flow .supply (some b) [] (flow.supply b)
  | thenApply (h : Handle) (b : Closure) : Builder h.flow .thenApply (some b) [h] (h.thenApply b)
  | thenCompose (h : Handle) (b : Closure) :
      Builder h.flow .thenCompose (some b) [h] (h.thenCompose b)
  | exceptionally (h : Handle) (b : Closure) :
      Builder h.flow .exceptionally (some b) [h] (h.exceptionally b)
  | exceptionallyCompose (h : Handle) (b : Closure) :
      Builder h.flow .exceptionallyCompose (some b) [h] (h.exceptionallyCompose b)
  | handle (h : Handle) (b : Closure) : Builder h.flow .handle (some b) [h] (h.handle b)
  | whenComplete (h : Handle) (b : Closure) :
      Builder h.flow .whenComplete (some b) [h] (h.whenComplete b)
  | thenCombine (h other : Handle) (b : Closure) :
      Builder h.flow .thenCombine (some b) [h, other] (h.thenCombine other b)
  | applyToEither (h other : Handle) (b : Closure) :
      Builder h.flow .applyToEither (some b) [h, other] (h.applyToEither other b)
  | allOf (flow : FlowId) (hs : List Handle) : Builder flow .allOf none hs (flow.allOf hs)
  | anyOf (flow : FlowId) (hs : List Handle) : Builder flow .anyOf none hs (flow.anyOf hs)
  | allResults (flow : FlowId) (hs : List Handle) :
      Builder flow .allOf none hs (flow.allResults hs)

section Builder

variable {E : Signature} {α β : Type} {flow : FlowId} {op : Operation} {body : Option Closure}
  {hs : List Handle} {q : Question E}

/-- Which questions a program on flows may ask. -/
abbrev FlowM.MayAsk (q : Question E) (p : FlowM E α) : Prop :=
  Program.MayAsk (S := flowSignature E) q p.run

theorem run_addStage (flow : FlowId) (r : StageRequest) :
    (flow.addStage r : FlowM E Handle).run =
      .ask (.call (.addStage flow r)) fun a => .done (a.map fun stage => ⟨flow, stage⟩) := by
  show Program.ask _ _ = _
  congr 1
  funext a
  cases a <;> rfl

theorem mayAsk_addStage (flow : FlowId) (r : StageRequest) :
    FlowM.MayAsk q (flow.addStage r) ↔ q = .call (.addStage flow r) := by
  unfold FlowM.MayAsk
  rw [run_addStage]
  constructor
  · intro h
    cases h with
    | now => rfl
    | later x h => cases h
  · rintro rfl
    exact .now _

theorem mapM_ownStage (hown : ∀ h ∈ hs, h.flow = flow) :
    hs.mapM flow.ownStage = .ok (hs.map Handle.stage) := by
  induction hs with
  | nil => rfl
  | cons h hs ih =>
      have hself : flow.ownStage h = .ok h.stage := if_pos (hown h List.mem_cons_self)
      have hrest := ih fun h' hmem => hown h' (List.mem_cons_of_mem _ hmem)
      simp [hself, hrest, bind, Except.bind, pure, Except.pure]

/-- Handles of one flow are sent if they are as many as the operation takes. -/
theorem join_of_takes (hown : ∀ h ∈ hs, h.flow = flow) (htakes : op.Takes hs.length) :
    (flow.join op body hs : FlowM E Handle) = flow.addStage ⟨op, body, hs.map Handle.stage⟩ := by
  have hinputs := (op.checkInputs_ok_iff hs.length).mpr htakes
  simp only [FlowId.join, FlowId.dependencies, hinputs, bind, Except.bind, mapM_ownStage hown]
  rfl

/-- Otherwise nothing is sent. -/
theorem join_of_not_takes (E : Signature) (flow : FlowId) (body : Option Closure)
    (hnot : ¬op.Takes hs.length) :
    ∃ e, (flow.join op body hs : FlowM E Handle) = FlowM.ofExcept (.error e) := by
  rw [← op.checkInputs_ok_iff] at hnot
  cases hinputs : op.checkInputs hs.length with
  | ok u => exact absurd hinputs hnot
  | error e =>
      refine ⟨e, ?_⟩
      simp only [FlowId.join, FlowId.dependencies, hinputs, bind, Except.bind]
      rfl

/-- The programs that send one request. -/
theorem mayAsk_join (hown : ∀ h ∈ hs, h.flow = flow) :
    FlowM.MayAsk q (flow.join op body hs) ↔
      op.Takes hs.length ∧ q = .call (.addStage flow ⟨op, body, hs.map Handle.stage⟩) := by
  by_cases htakes : op.Takes hs.length
  · rw [join_of_takes hown htakes, mayAsk_addStage]
    simp [htakes]
  · obtain ⟨e, he⟩ := join_of_not_takes E flow body htakes
    rw [he]
    refine ⟨fun h => (by cases h), fun h => absurd h.1 htakes⟩

/-- After a request for a stage, a program goes on with the handle that it gets. -/
theorem run_addStage_bind (flow : FlowId) (r : StageRequest) (f : Handle → FlowM E α) :
    (flow.addStage r >>= f).run = .ask (.call (.addStage flow r)) fun
      | .ok stage => (f ⟨flow, stage⟩).run
      | .error e => .done (.error e) := by
  show Program.ask _ _ = _
  congr 1
  funext a
  cases a <;> rfl

@[inherit_doc run_addStage_bind]
theorem mayAsk_addStage_bind {r : StageRequest} {f : Handle → FlowM E α}
    (h : FlowM.MayAsk q (flow.addStage r >>= f)) :
    q = .call (.addStage flow r) ∨ ∃ stage, FlowM.MayAsk q (f ⟨flow, stage⟩) := by
  unfold FlowM.MayAsk at h
  rw [run_addStage_bind] at h
  cases h with
  | now => exact .inl rfl
  | later a h =>
      cases a with
      | ok stage => exact .inr ⟨stage, h⟩
      | error e => cases h

theorem admissible_of_takes (hop : op ∉ [.delay, .completedValue, .terminationHook])
    (hbody : op.hasBody → body.isSome) (htakes : op.Takes hs.length) :
    StageRequest.Admissible ⟨op, body, hs.map Handle.stage⟩ :=
  ⟨hop, by simpa using htakes, hbody⟩

theorem mayAsk_allResults (hown : ∀ h ∈ hs, h.flow = flow) {f : FlowId} {r : StageRequest}
    (h : FlowM.MayAsk (.call (.addStage f r)) (flow.allResults hs : FlowM E ResultsHandle)) :
    f = flow ∧ r.Admissible := by
  by_cases htakes : Operation.Takes .allOf hs.length
  · simp only [FlowId.allResults, FlowId.allOf, join_of_takes hown htakes] at h
    rcases mayAsk_addStage_bind h with h | ⟨stage, h⟩
    · cases h
      exact ⟨rfl, admissible_of_takes (by decide) (fun h => by cases h) htakes⟩
    · rcases mayAsk_addStage_bind h with h | ⟨stage', h⟩
      · cases h
        exact ⟨rfl, by simp, rfl, fun _ => rfl⟩
      · cases h
  · obtain ⟨e, he⟩ := join_of_not_takes E flow none htakes
    simp only [FlowId.allResults, FlowId.allOf, he] at h
    cases h

/-- What the programs that build stages send is admissible, and they do send what is asked of
them. -/
theorem Builder.asks {p : FlowM E α} (h : Builder flow op body hs p)
    (hown : ∀ h ∈ hs, h.flow = flow) :
    (op.Takes hs.length →
      FlowM.MayAsk (.call (.addStage flow ⟨op, body, hs.map Handle.stage⟩)) p) ∧
    ∀ f r, FlowM.MayAsk (.call (.addStage f r)) p → f = flow ∧ r.Admissible := by
  have join {op : Operation} {body : Option Closure} {flow : FlowId} {hs : List Handle}
      (hown : ∀ h ∈ hs, h.flow = flow) (hop : op ∉ [.delay, .completedValue, .terminationHook])
      (hbody : op.hasBody → body.isSome) :
      (op.Takes hs.length → FlowM.MayAsk (.call (.addStage flow ⟨op, body, hs.map Handle.stage⟩))
        (flow.join op body hs : FlowM E Handle)) ∧
      ∀ f r, FlowM.MayAsk (.call (.addStage f r)) (flow.join op body hs : FlowM E Handle) →
        f = flow ∧ r.Admissible := by
    refine ⟨fun htakes => (mayAsk_join hown).mpr ⟨htakes, rfl⟩, ?_⟩
    intro f r h
    obtain ⟨htakes, heq⟩ := (mayAsk_join hown).mp h
    cases heq
    exact ⟨rfl, admissible_of_takes hop hbody htakes⟩
  have single {op : Operation} {b : Closure} {flow : FlowId} (hs : List Handle)
      (hop : op ∉ [.delay, .completedValue, .terminationHook]) (htakes : op.Takes hs.length) :
      (op.Takes hs.length → FlowM.MayAsk
        (.call (.addStage flow ⟨op, some b, hs.map Handle.stage⟩))
        (flow.addStage ⟨op, some b, hs.map Handle.stage⟩ : FlowM E Handle)) ∧
      ∀ f r, FlowM.MayAsk (.call (.addStage f r))
        (flow.addStage ⟨op, some b, hs.map Handle.stage⟩ : FlowM E Handle) →
        f = flow ∧ r.Admissible := by
    refine ⟨fun _ => (mayAsk_addStage _ _).mpr rfl, ?_⟩
    intro f r h
    cases (mayAsk_addStage _ _).mp h
    exact ⟨rfl, admissible_of_takes hop (fun _ => rfl) htakes⟩
  cases h with
  | supply b => exact single [] (by decide) rfl
  | thenApply h b => exact single [h] (by decide) rfl
  | thenCompose h b => exact single [h] (by decide) rfl
  | exceptionally h b => exact single [h] (by decide) rfl
  | exceptionallyCompose h b => exact single [h] (by decide) rfl
  | handle h b => exact single [h] (by decide) rfl
  | whenComplete h b => exact single [h] (by decide) rfl
  | thenCombine h other b => exact join hown (by decide) fun _ => rfl
  | applyToEither h other b => exact join hown (by decide) fun _ => rfl
  | allOf => exact join hown (by decide) fun h => (by cases h)
  | anyOf => exact join hown (by decide) fun h => (by cases h)
  | allResults =>
      refine ⟨?_, fun f r h => mayAsk_allResults hown h⟩
      intro htakes
      simp only [FlowId.allResults, FlowId.allOf, join_of_takes hown htakes]
      exact .now _

end Builder

namespace World

open StageGraph.Graph (Supplied)

variable {c : Completer} {w : World}

/-- What is let in, and that it can be resolved.  In every state of every run:
* a flow whose end has not begun lets in a request for inputs that are there exactly if it is
  admissible;
* the rules say what follows from whatever results the stage of an admissible request may be
  resolved from, ask for a body only where there is one, and no such stage takes the first of no
  inputs;
* so the step of a stage that has what it waits for ends it by the rules, or runs its body;
* programs that build stages from handles of their own flow send admissible requests only, and do
  send one if they are given as many handles as the operation takes. -/
theorem admitted_resolvable (hreach : w.Reachable c) :
    (∀ id n g r, w.find id = .ok (n, g) → g.terminating = false →
      (∀ d ∈ r.deps, ∃ k, g.slot? d = .ok k) →
      ((∃ stage, (w.addStage id r).2 = .ok stage) ↔ r.Admissible)) ∧
    (∀ r : StageRequest, r.Admissible →
      (r.operation.readiness = .firstInput → r.deps ≠ []) ∧
      ∀ inputs, r.operation.Supplies r.deps.length inputs →
        ∃ res, r.operation.resolve inputs = .ok res ∧
          ((∃ o, res = .complete o) ∨ r.closure.isSome)) ∧
    (∀ (flow n : Nat) (g : Graph) (s : Stage), w.graph? flow = some g → g.stages[n]? = some s →
      (s.phase = .choosing → s.deps ≠ []) ∧
      ∀ inputs, g.Supplied s inputs → w.move? c g s = some (w, s.resolve inputs) ∧
        ((∃ o, s.operation.resolve inputs = .ok (.complete o) ∧ s.resolve inputs = .finish o) ∨
          ∃ closure args forward, s.resolve inputs = .launch closure args forward)) ∧
    ∀ (E : Signature) (α : Type) (flow : FlowId) (op : Operation) (body : Option Closure)
      (hs : List Handle) (p : FlowM E α), Builder flow op body hs p →
      (∀ h ∈ hs, h.flow = flow) →
      (op.Takes hs.length →
        FlowM.MayAsk (.call (.addStage flow ⟨op, body, hs.map Handle.stage⟩)) p) ∧
      ∀ f r, FlowM.MayAsk (.call (.addStage f r)) p → f = flow ∧ r.Admissible := by
  refine ⟨fun id n g r hfind hopen hdeps => addStage_ok_iff hfind hopen hdeps, ?_, ?_,
    fun E α flow op body hs p hp hown => hp.asks hown⟩
  · intro r hr
    have hown : r.operation.hasOwnCall = false := by
      rw [← Bool.not_eq_true, Operation.hasOwnCall_iff]
      exact hr.operation
    refine ⟨?_, ?_⟩
    · rintro hfirst hnil
      exact Operation.ne_zero_of_first hr.inputs hfirst (by rw [hnil]; rfl)
    · intro inputs hinputs
      obtain ⟨res, hres, hbody⟩ := Operation.resolve_ok hown hr.inputs hinputs
      exact ⟨res, hres, hbody.imp_right hr.body⟩
  · intro flow n g s hg hs
    have hs' : w.stage? flow n = some s := (stage?_of_graph hg).trans hs
    obtain ⟨es, hrun⟩ := hreach
    have hreach : w.Reachable c := ⟨es, hrun⟩
    refine ⟨?_, ?_⟩
    · intro hphase
      exact deps_of_first hreach hs' ((traced_of_reachable hreach hg).chooses hs hphase).2
    · intro inputs hinputs
      obtain ⟨hown, hready⟩ := ready_of_supplied hreach hg hs hinputs
      have htakes := takes_of_reachable hreach hs' hown
      refine ⟨?_, Stage.resolve_cases_of_takes hown htakes (closure_of_hasBody hrun hs')
        (supplies_of_ready htakes hready)⟩
      cases hinputs with
      | all hphase => exact (StageDoes.resolve hphase).move?_eq
      | first hphase ho => exact (StageDoes.choose hphase ho).move?_eq

/-- A stage that takes the first of its inputs, which is there. -/
def choosingRun : List Event :=
  [.call (.createFlow "f"), .call (.addCompleted ⟨"0"⟩ .empty),
    .call (.addStage ⟨"0"⟩ ⟨.anyOf, none, [⟨"0"⟩]⟩)]

/-- The state after `choosingRun`. -/
def choosingEnd : World := (World.empty.run .plain choosingRun).getD .empty

theorem admitted_resolvable_choosing :
    World.empty.run .plain choosingRun = some choosingEnd ∧
      (∃ stage, (choosingEnd.addStage ⟨"0"⟩
        ⟨.thenCombine, some (.bare "sum"), [⟨"0"⟩, ⟨"1"⟩]⟩).2 = .ok stage) ∧
      (¬∃ stage, (choosingEnd.addStage ⟨"0"⟩
        ⟨.thenCombine, some (.bare "sum"), [⟨"0"⟩]⟩).2 = .ok stage) ∧
      (∃ g s, choosingEnd.graph? 0 = some g ∧ g.stages[1]? = some s ∧
        choosingEnd.move? .plain g s = some (choosingEnd, s.resolve [.empty])) ∧
      FlowM.MayAsk (.call (.addStage ⟨"0"⟩ ⟨.allOf, none, [⟨"1"⟩]⟩))
        (FlowId.allResults ⟨"0"⟩ [⟨⟨"0"⟩, ⟨"1"⟩⟩] : FlowM bodySignature ResultsHandle) := by
  have hrun : World.empty.run .plain choosingRun = some choosingEnd := rfl
  obtain ⟨hadmits, -, hresolves, hbuilds⟩ := admitted_resolvable ⟨choosingRun, hrun⟩
  have hdeps (d : StageId) (hd : d ∈ [(⟨"0"⟩ : StageId), ⟨"1"⟩]) :
      ∃ k, ((choosingEnd.graph? 0).getD (.new ⟨"0"⟩)).slot? d = .ok k := by
    simp only [List.mem_cons, List.not_mem_nil, or_false] at hd
    rcases hd with rfl | rfl
    · exact ⟨0, rfl⟩
    · exact ⟨1, rfl⟩
  refine ⟨hrun, (hadmits ⟨"0"⟩ 0 _ _ rfl rfl hdeps).mpr ⟨by simp, rfl, fun _ => rfl⟩, ?_, ?_, ?_⟩
  · rw [hadmits ⟨"0"⟩ 0 _ _ rfl rfl fun d hd => hdeps d (by simp_all)]
    intro h
    cases h.inputs
  · refine ⟨_, _, rfl, rfl, ((hresolves 0 1 _ _ rfl rfl).2 _ (.first rfl rfl)).1⟩
  · exact (hbuilds _ _ _ _ _ _ _ (.allResults ⟨"0"⟩ [⟨⟨"0"⟩, ⟨"1"⟩⟩]) (by simp)).1 (Nat.le_refl 1)

end World

end StageGraph
