/-
# `StageGraph.Proofs.Adoption` — a stage that adopts another ends as that one does

A body may name a stage whose result is to be taken.  From the step in which it has
ended on, its stage does one more thing: it waits for the stage that was named, and
ends with whatever result that one has.  The result is not looked at.  If it is a
failure, or names yet another stage, it is taken as it is.

Everything a body can leave is followed from its end (`World.BodyEnds`).  Only
a reference to a stage that is there leads to a wait (`World.Bound`); everything else ends
the stage in the same step.

Chains of stages that adopt one another have no preferred order: a stage is often
made by the very body that names it.  The induction is over the chain, from its end,
and needs no more than that a wait is over in one step once it can be.
-/
import StageGraph.Proofs.Collection

namespace StageGraph

namespace World

open StageGraph.Graph (Ends)

variable {c : Completer} {w w' : World} {flow n m target : Nat} {g : Graph} {s : Stage}
  {es : List Event} {r : Outcome}

/-! ## The end of a body -/

/-- The body of a stage has come to its end, and has left a result. -/
def BodyEnds (w : World) (s : Stage) (r : Outcome) : Prop :=
  ∃ t forward p, s.phase = .running t forward ∧ w.resume? t = some p ∧ Ends p r

/-- A stage that may adopt another one forwards nothing. -/
theorem not_forwarded (hreach : w.Reachable c) (hg : w.graph? flow = some g)
    (hs : g.stages[n]? = some s) (hadopts : s.operation.adopts = true) {t : BodyThread}
    {forward : Option Outcome} (hphase : s.phase = .running t forward) : forward = none := by
  cases (traced_of_reachable hreach hg).stands hs hphase with
  | invoking _ _ _ _ _ => rfl
  | @observing inputs args o closure _ _ _ hresolve _ _ =>
      have hop : s.operation = .whenComplete := (Operation.of_observe hresolve).1
      rw [hop] at hadopts
      cases hadopts

/-- The step in which a body ends. -/
theorem BodyEnds.steps (h : w.BodyEnds s r) (hreach : w.Reachable c) (hg : w.graph? flow = some g)
    (hs : g.stages[n]? = some s) (hadopts : s.operation.adopts = true) :
    ∃ w', w.fire c (.task (.stage flow n)) = some w' ∧
      Steps c flow n w g s (g.conclude s none r) w' := by
  obtain ⟨t, forward, p, hphase, hp, hends⟩ := h
  obtain rfl := not_forwarded hreach hg hs hadopts hphase
  exact (StageDoes.conclude hphase hp hends).steps hg hs

/-- A body that does not name a stage that is there ends its stage in the same step. -/
theorem BodyEnds.finishes {o : Outcome} (h : w.BodyEnds s r) (hreach : w.Reachable c)
    (hg : w.graph? flow = some g) (hs : g.stages[n]? = some s)
    (hadopts : s.operation.adopts = true) (hconclude : g.conclude s none r = .finish o) :
    ∃ w', w.fire c (.task (.stage flow n)) = some w' ∧
      ∀ later w'', w'.run c later = some w'' → w''.outcome? flow n = some o := by
  obtain ⟨w', hfire, hsteps⟩ := h.steps hreach hg hs hadopts
  rw [hconclude] at hsteps
  refine ⟨w', hfire, ?_⟩
  intro later w'' hlater
  exact outcome?_of_run hlater (outcome?_of_stage hsteps.landing)

/-! ## The wait -/

/-- The `n`th stage of a flow ends exactly as the one at `target` does, in this state and from it
on. -/
structure Mirrors (c : Completer) (w : World) (flow n target : Nat) : Prop where
  /-- It is pending until that one is terminal, and then it has no other result. -/
  result : ∀ o, w.outcome? flow n = some o → w.outcome? flow target = some o
  /-- What it is waiting for is that one. -/
  waits : w.outcome? flow n = none →
    ∃ s, w.stage? flow n = some s ∧ s.phase = .adopting target
  /-- It ends in its next step, once that one is terminal. -/
  next : ∀ o, w.outcome? flow n = none → w.outcome? flow target = some o →
    ∃ w', w.fire c (.task (.stage flow n)) = some w' ∧ w'.outcome? flow n = some o
  /-- Where nothing can go on, both are pending or both have the same result. -/
  settled : w.Stuck c → w.outcome? flow n = w.outcome? flow target

theorem Bound.mirrors (h : w.Bound flow target s) (hs : w.stage? flow n = some s) :
    Mirrors c w flow n target := by
  have hwaits : w.outcome? flow n = none → s.phase = .adopting target := by
    intro hnone
    rw [outcome?_of_stage hs] at hnone
    rcases h with hphase | ⟨o, hphase, -⟩
    · exact hphase
    · rw [hphase] at hnone
      cases hnone
  obtain ⟨g, hg, hgs⟩ := stage?_eq_some.mp hs
  refine ⟨fun o ho => h.outcome hs ho, fun hnone => ⟨s, hs, hwaits hnone⟩, ?_, ?_⟩
  · intro o hnone ho
    rw [outcome?_of_graph hg] at ho
    obtain ⟨w', hfire, hsteps⟩ := (StageDoes.adopt (hwaits hnone) ho).steps hg hgs
    exact ⟨w', hfire, outcome?_of_stage hsteps.landing⟩
  · intro hstuck
    cases hn : w.outcome? flow n with
    | some o => exact (h.outcome hs hn).symm
    | none =>
        have hnext := hstuck.waits hg hgs
        rw [hwaits hn] at hnext
        cases hnext with
        | target hnone => exact ((outcome?_of_graph hg).trans hnone).symm

/-- A body that names a stage that is there binds its stage to that one. -/
theorem BodyEnds.mirrors {stage : StageId} (h : w.BodyEnds s (.success (.stageRef stage)))
    (hreach : w.Reachable c) (hg : w.graph? flow = some g) (hs : g.stages[n]? = some s)
    (hadopts : s.operation.adopts = true) (hslot : g.slot? stage = .ok target) :
    ∃ w', w.fire c (.task (.stage flow n)) = some w' ∧
      ∀ later w'', w'.run c later = some w'' → Mirrors c w'' flow n target := by
  obtain ⟨w', hfire, hsteps⟩ := h.steps hreach hg hs hadopts
  have hconclude : g.conclude s none (.success (.stageRef stage)) = .turn (.adopting target) := by
    simp [Graph.conclude, hadopts, Outcome.compose, hslot]
  rw [hconclude] at hsteps
  refine ⟨w', hfire, ?_⟩
  intro later w'' hlater
  obtain ⟨s', hs', hbound⟩ := Bound.run hlater hsteps.landing (.inl rfl)
  exact hbound.mirrors hs'

/-! ## Chains -/

/-- In a step of the run, the body of the `n`th stage has ended, and `target` is to be adopted. -/
def AdoptsIn (c : Completer) (es : List Event) (flow n target : Nat) : Prop :=
  ∃ w g s w', StepIn c es flow n w g s (.turn (.adopting target)) w'

theorem AdoptsIn.mirrors (h : AdoptsIn c es flow n target)
    (hrun : World.empty.run c es = some w) : Mirrors c w flow n target := by
  obtain ⟨w₁, g₁, s₁, w₂, hstep⟩ := h
  obtain ⟨-, rest, hlater, -⟩ := hstep.run hrun
  obtain ⟨-, -, -, -, -, hsteps⟩ := hstep
  obtain ⟨s, hs, hbound⟩ := Bound.run hlater hsteps.landing (.inl rfl)
  exact hbound.mirrors hs

theorem AdoptsIn.append (h : AdoptsIn c es flow n target) (more : List Event) :
    AdoptsIn c (es ++ more) flow n target := by
  obtain ⟨w₁, g₁, s₁, w₂, hstep⟩ := h
  exact ⟨w₁, g₁, s₁, w₂, hstep.append more⟩

/-- The stages adopt one another, from `n` on to `m`. -/
abbrev Chain (c : Completer) (es : List Event) (flow n m : Nat) : Prop :=
  Relation.ReflTransGen (AdoptsIn c es flow) n m

theorem Chain.result (h : Chain c es flow n m) (hrun : World.empty.run c es = some w) {o : Outcome}
    (ho : w.outcome? flow n = some o) : w.outcome? flow m = some o := by
  induction h with
  | refl => exact ho
  | tail _ hlink ih => exact (hlink.mirrors hrun).result o ih

theorem Chain.settled (h : Chain c es flow n m) (hrun : World.empty.run c es = some w)
    (hstuck : w.Stuck c) : w.outcome? flow n = w.outcome? flow m := by
  induction h with
  | refl => rfl
  | tail _ hlink ih => exact ih.trans ((hlink.mirrors hrun).settled hstuck)

/-- The result at the end of a chain is taken along the chain by the stages of the chain alone. -/
theorem Chain.taken (h : Chain c es flow n m) (hrun : World.empty.run c es = some w) {o : Outcome}
    (ho : w.outcome? flow m = some o) :
    ∃ more w', w.run c more = some w' ∧ w'.outcome? flow n = some o ∧
      ∀ e ∈ more, ∃ k, Chain c es flow n k ∧ e = .task (.stage flow k) := by
  induction h using Relation.ReflTransGen.head_induction_on with
  | refl => exact ⟨[], w, rfl, ho, by simp⟩
  | @head n k hlink _ ih =>
      obtain ⟨more, w', hmore, hk, hown⟩ := ih
      have hown : ∀ e ∈ more, ∃ j, Chain c es flow n j ∧ e = .task (.stage flow j) := by
        intro e he
        obtain ⟨j, hj, heq⟩ := hown e he
        exact ⟨j, .head hlink hj, heq⟩
      have hmirrors := (hlink.append more).mirrors (run_trans hrun hmore)
      cases hn : w'.outcome? flow n with
      | some o' =>
          have hsame := hmirrors.result o' hn
          obtain rfl := Option.some.inj (hk.symm.trans hsame)
          exact ⟨more, w', hmore, hn, hown⟩
      | none =>
          obtain ⟨w'', hfire, hn'⟩ := hmirrors.next o hn hk
          refine ⟨more ++ [.task (.stage flow n)], w'', run_trans hmore (run_fire hfire), hn', ?_⟩
          intro e he
          rcases List.mem_append.mp he with he | he
          · exact hown e he
          · exact ⟨n, .refl, List.mem_singleton.mp he⟩

/-! ## The flow stays open -/

/-- A flow with a stage that is not terminal has not begun to end. -/
theorem open_of_pending (hreach : w.Reachable c) (hg : w.graph? flow = some g)
    (hs : g.stages[n]? = some s) (hnone : s.phase.outcome? = none) :
    1 ≤ g.active ∧ g.terminating = false ∧ g.hookTasks = [] ∧ g.terminated = none ∧
      g.removed = false := by
  obtain ⟨ds, hchanges⟩ := changes_of_reachable hreach hg
  obtain ⟨a, horderly⟩ := (Graph.orderly_new _).changes hchanges
  obtain ⟨hactive, hopen⟩ := horderly.accounted.of_active hs (by rw [Stage.isActive, hnone]; rfl)
  obtain ⟨-, htasks, -, hterminated⟩ := horderly.of_open hopen
  refine ⟨hactive, hopen, htasks, hterminated, ?_⟩
  cases hremoved : g.removed with
  | false => rfl
  | true =>
      obtain ⟨state, hstate⟩ := terminated_of_removed hreach hg hremoved
      rw [hterminated] at hstate
      cases hstate

/-! ## The result -/

/-- What the result of a body comes to for its stage, which is the `n`th of its flow: in the graph
`g` in which the body ends, and in a later state `w`. -/
inductive Concluded (c : Completer) (g : Graph) (w : World) (flow n : Nat) : Outcome → Prop
  /-- The body has named a stage that is there. -/
  | named {stage : StageId} {target : Nat} : g.slot? stage = .ok target →
      Mirrors c w flow n target → Concluded c g w flow n (.success (.stageRef stage))
  /-- The body has named a stage that is not there. -/
  | lost {stage : StageId} {message trace : String} : (∀ target, g.slot? stage ≠ .ok target) →
      w.outcome? flow n = some (.failure (.traced .stageLost message trace)) →
      Concluded c g w flow n (.success (.stageRef stage))
  /-- The body has not named a stage. -/
  | invalid {d : Datum} {message : String} : (∀ stage, d ≠ .stageRef stage) →
      w.outcome? flow n = some (.failure (.failure .invalidStageResponse message)) →
      Concluded c g w flow n (.success d)
  | failed {d : Datum} : w.outcome? flow n = some (.failure d) →
      Concluded c g w flow n (.failure d)

theorem BodyEnds.concluded (h : w.BodyEnds s r) (hreach : w.Reachable c)
    (hg : w.graph? flow = some g) (hs : g.stages[n]? = some s)
    (hadopts : s.operation.adopts = true) :
    ∃ w', w.fire c (.task (.stage flow n)) = some w' ∧
      ∀ later w'', w'.run c later = some w'' → Concluded c g w'' flow n r := by
  cases r with
  | failure d =>
      obtain ⟨w', hfire, hlater⟩ :=
        h.finishes hreach hg hs hadopts (conclude_failure g s d)
      exact ⟨w', hfire, fun later w'' hrun => .failed (hlater later w'' hrun)⟩
  | success d =>
      by_cases hd : ∃ stage, d = .stageRef stage
      · obtain ⟨stage, rfl⟩ := hd
        cases hslot : g.slot? stage with
        | ok target =>
            obtain ⟨w', hfire, hlater⟩ := h.mirrors hreach hg hs hadopts hslot
            exact ⟨w', hfire, fun later w'' hrun => .named hslot (hlater later w'' hrun)⟩
        | error e =>
            obtain ⟨rfl, -⟩ := Graph.slot?_eq_error hslot
            have hconclude : g.conclude s none (.success (.stageRef stage)) =
                .finish (Report.ofFlow (.unknownStage g.id stage)).toOutcome := by
              simp [Graph.conclude, hadopts, Outcome.compose, hslot]
            obtain ⟨w', hfire, hlater⟩ := h.finishes hreach hg hs hadopts hconclude
            refine ⟨w', hfire, fun later w'' hrun => .lost ?_ (hlater later w'' hrun)⟩
            intro target hfound
            rw [hslot] at hfound
            cases hfound
      · have hnone : ∀ stage, d ≠ .stageRef stage := fun stage heq => hd ⟨stage, heq⟩
        have hconclude : ∃ message, g.conclude s none (.success d) =
            .finish (.failure (.failure .invalidStageResponse message)) := by
          cases d with
          | stageRef stage => exact absurd rfl (hnone stage)
          | _ => exact ⟨_, by simp only [Graph.conclude, hadopts, if_true, Outcome.compose]; rfl⟩
        obtain ⟨message, hconclude⟩ := hconclude
        obtain ⟨w', hfire, hlater⟩ := h.finishes hreach hg hs hadopts hconclude
        exact ⟨w', hfire, fun later w'' hrun => .invalid hnone (hlater later w'' hrun)⟩

/-- In every run from the beginning, for every flow, and whatever bodies there are:
* where a body of a stage that may adopt another one has ended, its stage takes a step.  From then
  on it mirrors the stage that the body has named, if there is one under that name; it is a lost
  stage if there is none, an invalid answer if the body has given anything else, and the failure
  itself if the body has failed;
* the names of stages are names under which they are found;
* along a chain of stages that adopt one another, a stage that is terminal has the result of the
  last one; the stages of the chain need nobody else to pass that result on, and where nothing can
  go on they have all done so, or all are pending;
* while a stage waits for the one that it adopts, the end of its flow has not begun. -/
theorem adoption_transparent (hrun : World.empty.run c es = some w)
    (hg : w.graph? flow = some g) :
    (∀ (n : Nat) (s : Stage) (r : Outcome), g.stages[n]? = some s →
      s.operation.adopts = true → w.BodyEnds s r →
      ∃ w₁, w.fire c (.task (.stage flow n)) = some w₁ ∧
        ∀ later w', w₁.run c later = some w' → Concluded c g w' flow n r) ∧
    (∀ k < g.stages.length, k < Nat.pow 2 64 → g.slot? (Graph.stageName k) = .ok k) ∧
    (∀ n m, Chain c es flow n m →
      (∀ o, w.outcome? flow n = some o → w.outcome? flow m = some o) ∧
      (∀ o, w.outcome? flow m = some o → ∃ more w', w.run c more = some w' ∧
        w'.outcome? flow n = some o ∧
        ∀ e ∈ more, ∃ k, Chain c es flow n k ∧ e = .task (.stage flow k)) ∧
      (w.Stuck c → w.outcome? flow n = w.outcome? flow m)) ∧
    ∀ (n : Nat) (s : Stage) (target : Nat), g.stages[n]? = some s → s.phase = .adopting target →
      1 ≤ g.active ∧ g.terminating = false ∧ g.hookTasks = [] ∧ g.terminated = none ∧
        g.removed = false := by
  have hreach : w.Reachable c := ⟨es, hrun⟩
  refine ⟨?_, fun k hk hfits => Graph.slot?_stageName hk hfits, ?_, ?_⟩
  · intro n s r hs hadopts hends
    exact hends.concluded hreach hg hs hadopts
  · intro n m hchain
    exact ⟨fun o ho => hchain.result hrun ho, fun o ho => hchain.taken hrun ho,
      fun hstuck => hchain.settled hrun hstuck⟩
  · intro n s target hs hphase
    exact open_of_pending hreach hg hs (by rw [hphase]; rfl)

end World

/-- A completer whose only body names the stage that was captured. -/
def Completer.linking : Completer :=
  { plain with catalog := ⟨[("link", .composer fun (stage : StageId) (_ : Json.Value) => do
      let flow ← (FlowM.currentFlow : FlowM bodySignature FlowId)
      return ⟨flow, stage⟩)]⟩ }

namespace World

/-- A stage adopts a stage that is made after it, which adopts a delay. -/
def linkingRun : List Event :=
  [.call (.createFlow "f"), .call (.addCompleted ⟨"0"⟩ .empty),
    .call (.addDelay ⟨"0"⟩ (.ofMillis 5)),
    .call (.addStage ⟨"0"⟩ ⟨.thenCompose, some ⟨"link", .string "3"⟩, [⟨"0"⟩]⟩),
    .call (.addStage ⟨"0"⟩ ⟨.thenCompose, some ⟨"link", .string "1"⟩, [⟨"0"⟩]⟩),
    .call (.commit ⟨"0"⟩ .succeeded), .task (.stage 0 2), .task (.stage 0 2), .task (.stage 0 2),
    .task (.stage 0 3), .task (.stage 0 3), .task (.stage 0 3), .clock 5, .task (.stage 0 1)]

/-- The state after the first events of `linkingRun`. -/
def linkingState (count : Nat) : World :=
  (World.empty.run .linking (linkingRun.take count)).getD .empty

/-- Its graph. -/
def linkingGraph (count : Nat) : Graph := ((linkingState count).graph? 0).getD (.new ⟨"0"⟩)

theorem adoption_transparent_linking :
    World.empty.run .linking linkingRun = some (linkingState 14) ∧
      (∃ w, (linkingState 8).fire .linking (.task (.stage 0 2)) = some w ∧
        Mirrors .linking w 0 2 3) ∧
      (linkingGraph 12).terminating = false ∧
      ∃ more w, (linkingState 14).run .linking more = some w ∧ w.outcome? 0 2 = some .empty := by
  have hrun : World.empty.run .linking linkingRun = some (linkingState 14) := rfl
  have hrun₈ : World.empty.run .linking (linkingRun.take 8) = some (linkingState 8) := rfl
  have hrun₁₂ : World.empty.run .linking (linkingRun.take 12) = some (linkingState 12) := rfl
  have hg₈ : (linkingState 8).graph? 0 = some (linkingGraph 8) := rfl
  have hg₁₂ : (linkingState 12).graph? 0 = some (linkingGraph 12) := rfl
  have hg : (linkingState 14).graph? 0 = some (linkingGraph 14) := rfl
  obtain ⟨hends, -⟩ := adoption_transparent hrun₈ hg₈
  obtain ⟨-, -, -, hopen⟩ := adoption_transparent hrun₁₂ hg₁₂
  obtain ⟨-, -, hchains, -⟩ := adoption_transparent hrun hg
  refine ⟨hrun, ?_, (hopen 2 _ 3 rfl rfl).2.1, ?_⟩
  · have hbody : (linkingState 8).BodyEnds
        ⟨.thenCompose, some ⟨"link", .string "3"⟩, [0],
          .running (.going (.done (.success (.stageRef ⟨"3"⟩)))) none⟩
        (.success (.stageRef ⟨"3"⟩)) := ⟨_, none, _, rfl, rfl, .done _⟩
    obtain ⟨w, hfire, hlater⟩ := hends 2 _ _ rfl rfl hbody
    refine ⟨w, hfire, ?_⟩
    cases hlater [] w rfl with
    | named hslot hmirrors =>
        obtain rfl := Except.ok.inj ((show (linkingGraph 8).slot? ⟨"3"⟩ = .ok 3 from rfl).symm.trans
          hslot)
        exact hmirrors
    | lost hnone _ => exact absurd rfl (hnone 3)
    | invalid hnone _ => exact absurd rfl (hnone ⟨"3"⟩)
  · have hfirst : AdoptsIn .linking linkingRun 0 2 3 :=
      ⟨linkingState 8, linkingGraph 8, _, linkingState 9, linkingRun.take 8, linkingRun.drop 9,
        rfl, rfl, rfl, rfl, rfl, ⟨_, rfl⟩, rfl⟩
    have hsecond : AdoptsIn .linking linkingRun 0 3 1 :=
      ⟨linkingState 11, linkingGraph 11, _, linkingState 12, linkingRun.take 11,
        linkingRun.drop 12, rfl, rfl, rfl, rfl, rfl, ⟨_, rfl⟩, rfl⟩
    obtain ⟨-, htaken, -⟩ := hchains 2 1 (.head hfirst (.single hsecond))
    obtain ⟨more, w, hmore, ho, -⟩ := htaken .empty rfl
    exact ⟨more, w, hmore, ho⟩

end World

end StageGraph
