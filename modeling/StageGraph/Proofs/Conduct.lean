/-
# `StageGraph.Proofs.Conduct` — programs that are conducted in a run

A program that asks several questions is not one event.  Whoever conducts it asks one
question at a time, each in an event of its own, and anything may happen in between;
while it waits for an answer, everything else may go on.  The conductor may be somebody
outside, or the body of a stage or of a hook, whose events are the steps of its task.

`World.Comes` says how far a program has come in a part of a run, with the list of the
questions that it has asked.  A program that ends at once asks nothing more, and one that
asks a question first has asked it in some event, or not yet (`Comes.of_ask`).  What
remains to be known is what a question does; here this is a request for a stage
(`Asks.adds`): exactly one stage is added, to the graph of its flow.
-/
import StageGraph.Proofs.StageRun
import StageGraph.Proofs.Refusal

namespace StageGraph

/-- Who conducts a program. -/
inductive Conductor where
  /-- Somebody outside. -/
  | outside
  /-- The body of a stage. -/
  | stage (flow n : Nat)
  /-- The body of a hook, run by a task of its flow. -/
  | hook (flow k : Nat)

/-- The event in which a body goes on. -/
def Conductor.event? : Conductor → Option Event
  | outside => none
  | stage flow n => some (.task (.stage flow n))
  | hook flow k => some (.task (.hooks flow k))

/-- The position of the flow by whose task a program is conducted. -/
def Conductor.flow? : Conductor → Option Nat
  | outside => none
  | stage flow _ => some flow
  | hook flow _ => some flow

namespace World

variable {c : Completer} {w w' : World} {who : Conductor} {q : Question bodySignature}

/-- In an event that leads to `w'`, the question is asked. -/
inductive Asks (c : Completer) (w : World) (q : Question bodySignature) : Conductor → World → Prop
  | outside : Asks c w q .outside (w.pose c q).1
  | stage {flow n : Nat} {s : Stage} {t : BodyThread} {forward : Option Outcome}
      {next : q.Answer → FlowProgram bodySignature Outcome} {w' : World} :
      w.stage? flow n = some s → s.phase = .running t forward →
      w.resume? t = some (.ask q next) → w.fire c (.task (.stage flow n)) = some w' →
      Asks c w q (.stage flow n) w'
  | hook {flow k : Nat} {g : Graph} {d : Hooks.Drain BodyThread} {publish : Option FlowState}
      {r : Hooks.Running BodyThread} {next : q.Answer → FlowProgram bodySignature Outcome}
      {w' : World} : w.graph? flow = some g → g.hookTasks[k]? = some (.draining d publish) →
      d.running = some r → w.resume? r.thread = some (.ask q next) →
      w.fire c (.task (.hooks flow k)) = some w' → Asks c w q (.hook flow k) w'

/-! ## What else happens when a question is asked -/

/-- Apart from the phase of the caller, the stages are the same. -/
structure SameStages (who : Conductor) (w w' : World) : Prop where
  old : ∀ m g, w.graph? m = some g → ∃ g', w'.graph? m = some g' ∧ g'.id = g.id ∧
    g'.stages.length = g.stages.length ∧
    ∀ k, who ≠ .stage m k → g'.stages[k]? = g.stages[k]?
  fresh : ∀ m, w.graph? m = none → w'.graph? m = none

theorem SameStages.refl (who : Conductor) (w : World) : SameStages who w w :=
  ⟨fun _ g hg => ⟨g, hg, rfl, rfl, fun _ _ => rfl⟩, fun _ hm => hm⟩

/-- One graph is replaced. -/
theorem SameStages.set {flow : Nat} {g g' : Graph} (hg : w.graph? flow = some g)
    (hid : g'.id = g.id) (hlength : g'.stages.length = g.stages.length)
    (hkept : ∀ k, who ≠ .stage flow k → g'.stages[k]? = g.stages[k]?) :
    SameStages who w (w.setGraph flow g') := by
  refine ⟨?_, ?_⟩
  · intro m gm hgm
    by_cases hm : flow = m
    · subst hm
      obtain rfl := Option.some.inj (hg.symm.trans hgm)
      exact ⟨g', graph?_setGraph_self hg g', hid, hlength, hkept⟩
    · exact ⟨gm, (graph?_setGraph_ne hm g').trans hgm, rfl, rfl, fun _ _ => rfl⟩
  · intro m hm
    have hne : flow ≠ m := by
      rintro rfl
      rw [hm] at hg
      cases hg
    exact (graph?_setGraph_ne hne g').trans hm

/-- The completer answers, and then the body of the caller goes on. -/
theorem Asks.sameStages (h : w.Asks c q who w') : SameStages who (w.pose c q).1 w' := by
  cases h with
  | outside => exact .refl _ _
  | stage hs hphase hresume hfire =>
      obtain ⟨g, hg, hs⟩ := stage?_eq_some.mp hs
      obtain ⟨g₁, hacts, rfl⟩ := (StageDoes.ask hphase hresume).fires hg hs hfire
      refine .set hacts.graph₁ rfl (Graph.move_stages_length ..) ?_
      intro k hk
      exact Graph.move_stage_ne (fun h => hk (by rw [h])) _
  | hook hg hk hrunning hresume hfire =>
      obtain ⟨g₁, hacts, rfl⟩ := (DrainDoes.ask hrunning hresume).fires hg hk hfire
      exact .set hacts.graph₁ rfl rfl fun _ _ => rfl

/-- Whoever asks changes nothing but his own flow, besides what the answer changes. -/
theorem Asks.eq_or_set (h : w.Asks c q who w') :
    w' = (w.pose c q).1 ∨ ∃ flow g g', who.flow? = some flow ∧ w.graph? flow = some g ∧
      w' = (w.pose c q).1.setGraph flow g' := by
  cases h with
  | outside => exact .inl rfl
  | stage hs hphase hresume hfire =>
      obtain ⟨g, hg, hs⟩ := stage?_eq_some.mp hs
      obtain ⟨g₁, -, rfl⟩ := (StageDoes.ask hphase hresume).fires hg hs hfire
      exact .inr ⟨_, g, _, rfl, hg, rfl⟩
  | hook hg hk hrunning hresume hfire =>
      obtain ⟨g₁, -, rfl⟩ := (DrainDoes.ask hrunning hresume).fires hg hk hfire
      exact .inr ⟨_, _, _, rfl, hg, rfl⟩

/-- The flow of nobody who asks is changed by the answer alone. -/
theorem Asks.graph? (h : w.Asks c q who w') {n : Nat} (hother : who.flow? ≠ some n) :
    w'.graph? n = (w.pose c q).1.graph? n := by
  rcases h.eq_or_set with rfl | ⟨flow, g, g', hflow, -, rfl⟩
  · rfl
  · refine graph?_setGraph_ne ?_ g'
    rintro rfl
    exact hother hflow

/-- Whoever asks does so for a flow that is there. -/
theorem Asks.caller (h : w.Asks c q who w') {n : Nat} (hnone : w.graph? n = none) : who.flow? ≠ some n := by
  intro hflow
  cases h with
  | outside => cases hflow
  | stage hs _ _ _ =>
      cases hflow
      obtain ⟨g, hg, -⟩ := stage?_eq_some.mp hs
      rw [hnone] at hg
      cases hg
  | hook hg _ _ _ _ =>
      cases hflow
      rw [hnone] at hg
      cases hg

/-- A question is asked in a run. -/
theorem Asks.run (h : w.Asks c q who w') : ∃ es, w.run c es = some w' := by
  cases h with
  | outside =>
      cases q with
      | call r => exact ⟨[.call r], rfl⟩
      | sleep d => exact ⟨[], rfl⟩
      | currentFlow => exact ⟨[], rfl⟩
      | log line => exact ⟨[.log line], rfl⟩
      | ran entry => exact ⟨[.ran entry], rfl⟩
      | other q => cases q with | removeFlow flow => exact ⟨[.removeFlow flow], rfl⟩
  | stage _ _ _ hfire => exact ⟨_, run_fire hfire⟩
  | hook _ _ _ _ hfire => exact ⟨_, run_fire hfire⟩

/-! ## Requests for stages -/

/-- How many stages the flow at a position has. -/
def size (w : World) (flow : Nat) : Option Nat := (w.graph? flow).map fun g => g.stages.length

/-- From one state to the other, one stage has been added, and no other in any flow. -/
structure Adds (w w' : World) (flow k : Nat) (s : Stage) : Prop where
  position : w.size flow = some k
  stage : w'.stage? flow k = some s
  size : ∀ m, w'.size m = (w.size m).map fun count => if m = flow then count + 1 else count

variable {r : StageRequest} {id : FlowId} {stage : StageId}

/-- A request that is granted has been checked, and its inputs were there. -/
theorem addStage_eq_ok (h : (w.addStage id r).2 = .ok stage) :
    ∃ flow g deps g', w.find id = .ok (flow, g) ∧ checkRequest r = .ok () ∧
      r.deps.mapM g.slot? = .ok deps ∧
      g.allocate ⟨r.operation, r.closure, deps, .initial r.operation deps⟩ = .ok (g', stage) ∧
      (w.addStage id r).1 = w.setGraph flow g' := by
  unfold addStage at h ⊢
  cases hr : checkRequest r with
  | error e => simp [hr] at h
  | ok u =>
      rcases w.change_cases id (allocateResolved r) with
        ⟨-, e, he⟩ | ⟨flow, g, g', stage', hfind, hg', hw⟩
      · simp [hr, he] at h
      · simp only [hr, hw, Except.ok.injEq] at h ⊢
        subst h
        unfold allocateResolved at hg'
        cases hdeps : r.deps.mapM g.slot? with
        | error e => simp [hdeps, bind, Except.bind] at hg'
        | ok deps =>
            rw [hdeps] at hg'
            exact ⟨flow, g, deps, g', hfind, trivial, hdeps, hg', rfl⟩

/-- Where the answer to a question adds a stage to a graph, it is the only one in any flow. -/
theorem Asks.adds_of_set {flow : Nat} {g g' : Graph} {s : Stage} (h : w.Asks c q who w')
    (hpose : (w.pose c q).1 = w.setGraph flow g') (hg : w.graph? flow = some g)
    (hstages : g'.stages = g.stages ++ [s]) : w.Adds w' flow g.stages.length s := by
  have hsame : SameStages who (w.setGraph flow g') w' := hpose ▸ h.sameStages
  obtain ⟨g₂, hg₂, -, hlength, hkept⟩ := hsame.old flow g' (graph?_setGraph_self hg g')
  refine ⟨?_, ?_, ?_⟩
  · simp [size, hg]
  · have hwho : who ≠ .stage flow g.stages.length := by
      rintro rfl
      cases h with
      | stage hs _ _ _ =>
          rw [stage?_of_graph hg] at hs
          simp at hs
    rw [stage?_of_graph hg₂, hkept _ hwho, hstages]
    simp
  · intro m
    by_cases hm : flow = m
    · subst hm
      simp [size, hg, hg₂, hlength, hstages]
    · have hgraph : (w.setGraph flow g').graph? m = w.graph? m := graph?_setGraph_ne hm g'
      have hm' : ¬m = flow := fun h => hm h.symm
      cases hgm : w.graph? m with
      | none => simp [size, hgm, hsame.fresh m (hgraph.trans hgm)]
      | some gm =>
          obtain ⟨g₃, hg₃, -, hlength₃, -⟩ := hsame.old m gm (hgraph.trans hgm)
          simp [size, hgm, hg₃, hlength₃, hm']

/-- Where a request is granted, the stage is added, with the inputs that were named. -/
theorem Asks.adds (h : w.Asks c (.call (.addStage id r)) who w')
    (hok : (w.addStage id r).2 = .ok stage) :
    ∃ flow g deps, w.find id = .ok (flow, g) ∧ g.terminating = false ∧
      List.Forall₂ (fun d n => g.slot? d = .ok n) r.deps deps ∧
      stage = Graph.stageName g.stages.length ∧
      w.Adds w' flow g.stages.length
        ⟨r.operation, r.closure, deps, .initial r.operation deps⟩ := by
  obtain ⟨flow, g, deps, g', hfind, -, hdeps, hallocate, hw⟩ := addStage_eq_ok hok
  obtain ⟨hg, -, -⟩ := graph?_of_find hfind
  obtain ⟨hopen, hname, hg'⟩ := Graph.allocate_eq_ok hallocate
  exact ⟨flow, g, deps, hfind, hopen, mapM_eq_ok.mp hdeps, hname,
    h.adds_of_set hw hg (by rw [hg'])⟩

/-! ## Programs -/

/-- A question that was asked, the state before, and the state after the event. -/
structure Exchange where
  before : World
  question : Question bodySignature
  after : World

variable {α : Type} {w₀ : World} {t₀ t : Thread (FlowProgram bodySignature α)}
  {xs : List Exchange}

/-- Between two states a program has come from one point to another, and has asked these
questions. -/
inductive Comes (c : Completer) (who : Conductor) (w₀ : World)
    (t₀ : Thread (FlowProgram bodySignature α)) :
    List Exchange → World → Thread (FlowProgram bodySignature α) → Prop
  | start : Comes c who w₀ t₀ [] w₀ t₀
  /-- Something else happens. -/
  | other {xs : List Exchange} {w w' : World} {t : Thread (FlowProgram bodySignature α)}
      {e : Event} : Comes c who w₀ t₀ xs w t → w.fire c e = some w' → some e ≠ who.event? →
      Comes c who w₀ t₀ xs w' t
  | asks {xs : List Exchange} {w w' : World} {t : Thread (FlowProgram bodySignature α)}
      {q : Question bodySignature} {next : q.Answer → FlowProgram bodySignature α} :
      Comes c who w₀ t₀ xs w t → w.resume? t = some (.ask q next) → w.Asks c q who w' →
      Comes c who w₀ t₀ (xs ++ [⟨w, q, w'⟩]) w' ((w.pose c q).2.map next)

/-- In the state `w` the program returns `a`. -/
def Returns (c : Completer) (who : Conductor) (w₀ : World)
    (t₀ : Thread (FlowProgram bodySignature α)) (xs : List Exchange) (w : World) (a : α) : Prop :=
  ∃ t, Comes c who w₀ t₀ xs w t ∧ w.resume? t = some (.done a)

/-- A program is conducted in a run. -/
theorem Comes.run (h : Comes c who w₀ t₀ xs w t) : ∃ es, w₀.run c es = some w := by
  induction h with
  | start => exact ⟨[], rfl⟩
  | other _ hfire _ ih =>
      obtain ⟨es, hrun⟩ := ih
      exact ⟨_, run_trans hrun (run_fire hfire)⟩
  | asks _ _ hasks ih =>
      obtain ⟨es, hrun⟩ := ih
      obtain ⟨es', hrun'⟩ := hasks.run
      exact ⟨_, run_trans hrun hrun'⟩

/-- A thread that goes on with nothing but results asks nothing. -/
theorem Comes.of_done (h : Comes c who w₀ t₀ xs w t) (hdone : t₀.Within fun p => ∃ a, p = .done a) :
    xs = [] ∧ t = t₀ := by
  induction h with
  | start => exact ⟨rfl, rfl⟩
  | other _ _ _ ih => exact ih
  | asks _ hresume _ ih =>
      obtain ⟨-, rfl⟩ := ih
      obtain ⟨a, ha⟩ := hdone.offers ⟨_, _, hresume⟩
      cases ha

/-- A program that starts with a question has asked it, or has not yet. -/
theorem Comes.of_ask {next : q.Answer → FlowProgram bodySignature α}
    (h : Comes c who w₀ (.going (.ask q next)) xs w t) :
    (xs = [] ∧ t = .going (.ask q next)) ∨
      ∃ w₁ w₂ xs', (∃ es, w₀.run c es = some w₁) ∧ w₁.Asks c q who w₂ ∧
        xs = ⟨w₁, q, w₂⟩ :: xs' ∧ Comes c who w₂ ((w₁.pose c q).2.map next) xs' w t := by
  induction h with
  | start => exact .inl ⟨rfl, rfl⟩
  | other hcomes hfire hother ih =>
      rcases ih with h | ⟨w₁, w₂, xs', hrun, hasks, hxs, hrest⟩
      · exact .inl h
      · exact .inr ⟨w₁, w₂, xs', hrun, hasks, hxs, hrest.other hfire hother⟩
  | asks hcomes hresume hasks ih =>
      rcases ih with ⟨rfl, rfl⟩ | ⟨w₁, w₂, xs', hrun, hasks', rfl, hrest⟩
      · cases hresume
        exact .inr ⟨_, _, [], hcomes.run, hasks, rfl, .start⟩
      · exact .inr ⟨w₁, w₂, xs' ++ [_], hrun, hasks', rfl, hrest.asks hresume hasks⟩

theorem Returns.of_done {a b : α} (h : Returns c who w₀ (.going (.done a)) xs w b) :
    xs = [] ∧ b = a := by
  obtain ⟨t, hcomes, hresume⟩ := h
  obtain ⟨hxs, rfl⟩ := hcomes.of_done ⟨a, rfl⟩
  cases hresume
  exact ⟨hxs, rfl⟩

theorem Returns.of_pure {a b : α}
    (h : Returns c who w₀ (.going (pure a : FlowM bodySignature α).run) xs w (.ok b)) :
    xs = [] ∧ b = a := by
  obtain ⟨hxs, hb⟩ := Returns.of_done h
  exact ⟨hxs, Except.ok.inj hb⟩

theorem Returns.run {a : α} (h : Returns c who w₀ t₀ xs w a) : ∃ es, w₀.run c es = some w := by
  obtain ⟨t, hcomes, -⟩ := h
  exact hcomes.run

theorem Returns.of_ask {a : α} {next : q.Answer → FlowProgram bodySignature α}
    (h : Returns c who w₀ (.going (.ask q next)) xs w a) :
    ∃ w₁ w₂ xs', (∃ es, w₀.run c es = some w₁) ∧ w₁.Asks c q who w₂ ∧ xs = ⟨w₁, q, w₂⟩ :: xs' ∧
      Returns c who w₂ ((w₁.pose c q).2.map next) xs' w a := by
  obtain ⟨t, hcomes, hresume⟩ := h
  rcases hcomes.of_ask with ⟨-, rfl⟩ | ⟨w₁, w₂, xs', hrun, hasks, hxs, hrest⟩
  · cases hresume
  · exact ⟨w₁, w₂, xs', hrun, hasks, hxs, t, hrest, hresume⟩

/-- A program that goes on with the handle of a new stage has been granted the stage. -/
theorem Returns.of_addStage {a : α} {f : Handle → FlowM bodySignature α}
    (h : Returns c who w₀ (.going (id.addStage r >>= f).run) xs w (.ok a)) :
    ∃ w₁ w₂ xs' stage, (∃ es, w₀.run c es = some w₁) ∧ w₁.Asks c (.call (.addStage id r)) who w₂ ∧
      (w₁.addStage id r).2 = .ok stage ∧ xs = ⟨w₁, .call (.addStage id r), w₂⟩ :: xs' ∧
      Returns c who w₂ (.going (f ⟨id, stage⟩).run) xs' w (.ok a) := by
  rw [run_addStage_bind] at h
  obtain ⟨w₁, w₂, xs', hrun, hasks, hxs, hrest⟩ := h.of_ask
  have hpose : (w₁.pose c (.call (.addStage id r))).2 = .going (w₁.addStage id r).2 := rfl
  rw [hpose] at hrest
  cases hok : (w₁.addStage id r).2 with
  | error e =>
      rw [hok] at hrest
      cases hrest.of_done.2
  | ok stage =>
      rw [hok] at hrest
      exact ⟨w₁, w₂, xs', stage, hrun, hasks, hok, hxs, hrest⟩

end World

end StageGraph
