/-
# `StageGraph.Proofs.Causality` — results are written once, and read as written

The result of a stage is written by one step of the stage's own task, or is
there from the start.  Nobody writes it again (`Graph.Written`), so whoever reads it
reads the same: a call that waits for the stage, a body that does, a stage that
gathers its inputs and a stage that adopts it (`World.Observed`).

What a terminal stage has read is there to be seen, too (`World.Caused`).  A stage
that waits for all its inputs has gathered the results that they still have.  A
stage that waits for the first one has taken, in the step in which it left its
wait, the one at the lowest position of those that were terminal.  And a stage
whose body named another one ends with the result of that one.

These clauses are about steps that a run has taken, so they speak of the states
before them (`World.StepIn`).
-/
import StageGraph.Proofs.ResolutionRules
import StageGraph.Proofs.StageRun

namespace StageGraph

/-! ## Written once -/

/-- The results with which the task of a stage has ended it. -/
def endings (n : Nat) (ds : List Deed) : List Outcome :=
  ds.filterMap fun
    | .ended m o _ => if m = n then some o else none
    | _ => none

@[simp] theorem endings_nil (n : Nat) : endings n [] = [] := rfl

@[simp] theorem endings_append (n : Nat) (ds es : List Deed) :
    endings n (ds ++ es) = endings n ds ++ endings n es := by
  simp [endings]

/-- Deeds that end no stage. -/
theorem endings_of_not_ended {d : Option Deed} (h : ∀ n o k, d ≠ some (.ended n o k)) (n : Nat) :
    endings n d.toList = [] := by
  cases d with
  | none => rfl
  | some d =>
      cases d with
      | ended m o k => exact absurd rfl (h m o k)
      | _ => rfl

@[simp] theorem endings_ended (n m : Nat) (o : Outcome) (k : Nat) :
    endings n [.ended m o k] = if m = n then [o] else [] := by
  by_cases h : m = n <;> simp [endings, h]

namespace Graph

variable {c : Completer} {g g' : Graph} {n : Nat} {s : Stage} {ds : List Deed}

/-- A move ends its stage, or brings it into a phase that is not terminal and does not count as an
end. -/
theorem Moves.landing_cases {m : Move} (h : Moves g s m) (hs : g.stages[n]? = some s) :
    (∃ o, m = .finish o) ∨
      (g.landing c n m).outcome? = none ∧ ∀ k o active, m.deed? g n ≠ some (.ended k o active) := by
  rcases h.move_cases c n with h | ⟨p, hp, hmove⟩
  · exact .inl h
  · have hphase : g.landing c n m = p := by
      have hlanded := move_stage (c := c) hs m
      rw [hmove, setPhase_stages hs, List.getElem?_set_self (List.getElem?_eq_some_iff.mp hs).1]
        at hlanded
      exact (congrArg Stage.phase (Option.some.inj hlanded)).symm
    refine .inr ⟨hphase ▸ hp, ?_⟩
    cases m with
    | finish o =>
        rw [← hphase] at hp
        cases hp
    | _ => simp [Move.deed?]

/-- Every stage has been ended as often as it has a result, and with that result; a stage with a
value was terminal from the start. -/
structure Written (g : Graph) (ds : List Deed) : Prop where
  here : ∀ (n : Nat) (s : Stage), g.stages[n]? = some s →
    endings n ds = if s.operation = .completedValue then [] else s.phase.outcome?.toList
  value : ∀ (n : Nat) (s : Stage), g.stages[n]? = some s → s.operation = .completedValue →
    s.phase.outcome?.isSome
  beyond : ∀ n, g.stages.length ≤ n → endings n ds = []

theorem written_new (id : FlowId) : Written (.new id) [] :=
  ⟨by simp [new], by simp [new], by simp⟩

/-- A new stage has not been ended, and one with a value is terminal. -/
theorem fresh_result (h : s.Fresh g) :
    (s.operation = .completedValue → s.phase.outcome?.isSome) ∧
      (if s.operation = .completedValue then [] else s.phase.outcome?.toList) = [] := by
  cases h with
  | completed o => exact ⟨fun _ => rfl, rfl⟩
  | delay moment => exact ⟨by simp, rfl⟩
  | @resolved r deps hr _ =>
      have hown := (checkRequest_eq_ok hr).1
      have hnone : (Phase.initial r.operation deps).outcome? = none := by
        unfold Phase.initial
        split <;> rfl
      refine ⟨?_, ?_⟩
      · intro hvalue
        rw [show r.operation = .completedValue from hvalue] at hown
        cases hown
      · simp [hnone]

namespace Written

/-- The stages and the ends of stages are the same. -/
theorem same (h : g.Written ds) (hstages : g'.stages = g.stages) {d : Option Deed}
    (hd : ∀ n o k, d ≠ some (.ended n o k)) : g'.Written (ds ++ d.toList) := by
  have hsame (n : Nat) : endings n (ds ++ d.toList) = endings n ds := by
    rw [endings_append, endings_of_not_ended hd, List.append_nil]
  refine ⟨?_, ?_, ?_⟩
  · intro n s hs
    rw [hsame]
    exact h.here n s (hstages ▸ hs)
  · intro n s hs
    exact h.value n s (hstages ▸ hs)
  · intro n hn
    rw [hsame]
    exact h.beyond n (hstages ▸ hn)

theorem allocate {id : StageId} (h : g.Written ds) (hfresh : s.Fresh g)
    (hg' : g.allocate s = .ok (g', id)) : g'.Written ds := by
  obtain ⟨-, -, rfl⟩ := allocate_eq_ok hg'
  obtain ⟨hvalue, hnone⟩ := fresh_result hfresh
  have cases_new {n : Nat} {s' : Stage} (hs' : (g.stages ++ [s])[n]? = some s') :
      g.stages[n]? = some s' ∨ g.stages.length ≤ n ∧ s = s' := by
    by_cases hlt : n < g.stages.length
    · exact .inl (List.getElem?_append_left hlt ▸ hs')
    · have hle := Nat.le_of_not_lt hlt
      rw [List.getElem?_append_right hle] at hs'
      exact .inr ⟨hle, (List.mem_singleton.mp (List.mem_of_getElem? hs')).symm⟩
  refine ⟨?_, ?_, ?_⟩
  · intro n s' hs'
    rcases cases_new hs' with hold | ⟨hle, rfl⟩
    · exact h.here n s' hold
    · rw [h.beyond n hle, hnone]
  · intro n s' hs'
    rcases cases_new hs' with hold | ⟨hle, rfl⟩
    · exact h.value n s' hold
    · exact hvalue
  · intro n hn
    refine h.beyond n ?_
    have : g.stages.length + 1 ≤ n := by simpa using hn
    omega

/-- A stage makes a move; it has no result before, so its first end is the only one. -/
theorem move {m : Move} (h : g.Written ds) (hs : g.stages[n]? = some s) (hm : Moves g s m) :
    (g.move c n m).Written (ds ++ (m.deed? g n).toList) := by
  have hnone := hm.outcome?
  have hop : s.operation ≠ .completedValue := by
    intro hop
    have := h.value n s hs hop
    simp [hnone] at this
  have hbefore : endings n ds = [] := by simpa [hop, hnone] using h.here n s hs
  have hlt := (List.getElem?_eq_some_iff.mp hs).1
  have hdeeds (k : Nat) (hk : n ≠ k) :
      endings k (ds ++ (m.deed? g n).toList) = endings k ds := by
    cases m <;> simp [Move.deed?, hk, endings]
  have hother (k : Nat) (hk : n ≠ k) : (g.move c n m).stages[k]? = g.stages[k]? :=
    move_stage_ne hk m
  refine ⟨?_, ?_, ?_⟩
  · intro k s' hs'
    by_cases hk : n = k
    · subst hk
      obtain rfl := Option.some.inj ((move_stage hs m).symm.trans hs')
      simp only [if_neg hop, endings_append, hbefore, List.nil_append]
      rcases hm.landing_cases (c := c) hs with ⟨o, rfl⟩ | ⟨hphase, hnot⟩
      · simp [Move.deed?, landing, Phase.outcome?]
      · rw [hphase, endings_of_not_ended hnot]
        rfl
    · rw [hdeeds k hk]
      exact h.here k s' (hother k hk ▸ hs')
  · intro k s' hs'
    by_cases hk : n = k
    · subst hk
      obtain rfl := Option.some.inj ((move_stage hs m).symm.trans hs')
      exact fun hvalue => absurd hvalue hop
    · exact h.value k s' (hother k hk ▸ hs')
  · intro k hk
    rw [move_stages_length] at hk
    rw [hdeeds k (by omega)]
    exact h.beyond k hk

theorem change {d : Option Deed} (h : g.Written ds) (hchange : Change c g d g') :
    g'.Written (ds ++ d.toList) := by
  rcases hchange.life_cases with
    ⟨s, id, hfresh, hg', rfl⟩ | ⟨s, hg', rfl⟩ | ⟨n, s, m, hs, hm, rfl, rfl⟩ | ⟨hsame, hd⟩
  · rw [Option.toList_none, List.append_nil]
    exact h.allocate hfresh hg'
  · obtain ⟨-, rfl⟩ := commit_eq_ok hg'
    exact h.same (by simp) (by simp)
  · exact h.move hs hm
  · exact h.same hsame.stages hd

end Written

theorem written_of_changes {id : FlowId} (h : Changes c (.new id) ds g) : g.Written ds := by
  generalize hnew : Graph.new id = g₀ at h
  induction h with
  | refl => exact hnew ▸ written_new id
  | tail _ hchange ih => exact ih.change hchange

end Graph

namespace World

open StageGraph.Graph (Ends Grows Ready Settled Stands)

variable {c : Completer} {w w' : World} {flow n : Nat} {g : Graph} {s : Stage} {es : List Event}

/-! ## Read as written -/

/-- Whoever observes a stage gets its result `o`. -/
structure Observed (c : Completer) (w : World) (flow n : Nat) (o : Outcome) : Prop where
  outcome : w.outcome? flow n = some o
  /-- A call that waits for the stage, whenever it was made and however long it was to wait. -/
  awaited : ∀ w₀ g₀ id stage timeout, find w₀ id = .ok (flow, g₀) → g₀.slot? stage = .ok n →
    w.resume? (w₀.awaitStage id stage timeout) = some (.ok o)
  /-- A program that waits for the stage. -/
  retrieved : ∀ {κ : Type} (next : Outcome → κ) alarm,
    w.resume? (.onStage flow n next alarm) = some (next o)
  gathered : ∀ g s got left, w.graph? flow = some g → s.phase = .gathering got (n :: left) →
    w.move? c g s = some (w, .turn (.gathering (got ++ [o]) left))
  adopted : ∀ g s, w.graph? flow = some g → s.phase = .adopting n →
    w.move? c g s = some (w, .finish o)

theorem observed_of_outcome {o : Outcome} (ho : w.outcome? flow n = some o) :
    Observed c w flow n o := by
  have hretrieved {κ : Type} (next : Outcome → κ) (alarm : Option (Alarm κ)) :
      w.resume? (.onStage flow n next alarm) = some (next o) := by
    simp [resume?, Thread.resume?, ho]
  refine ⟨ho, ?_, hretrieved, ?_, ?_⟩
  · intro w₀ g₀ id stage timeout hfind hslot
    simp only [awaitStage, hfind, hslot]
    exact hretrieved (fun o => (.ok o : Except FlowError Outcome)) _
  · intro g s got left hg hphase
    exact (StageDoes.gather hphase ((outcome?_of_graph hg).symm.trans ho)).move?_eq
  · intro g s hg hphase
    exact (StageDoes.adopt hphase ((outcome?_of_graph hg).symm.trans ho)).move?_eq

/-! ## Steps of a run -/

/-- A run from the beginning has a step of a stage's task, from one state to another. -/
def StepIn (c : Completer) (es : List Event) (flow n : Nat) (w : World) (g : Graph) (s : Stage)
    (m : Move) (w' : World) : Prop :=
  ∃ first rest, es = first ++ .task (.stage flow n) :: rest ∧ World.empty.run c first = some w ∧
    w.fire c (.task (.stage flow n)) = some w' ∧ Steps c flow n w g s m w'

variable {w₁ w₂ : World} {g₁ : Graph} {s₁ : Stage} {m : Move}

theorem StepIn.append (h : StepIn c es flow n w₁ g₁ s₁ m w₂) (more : List Event) :
    StepIn c (es ++ more) flow n w₁ g₁ s₁ m w₂ := by
  obtain ⟨first, rest, rfl, h⟩ := h
  exact ⟨first, rest ++ more, by simp, h⟩

/-- The state before a step of a run can be reached, and the run leads on from the state after it. -/
theorem StepIn.run (h : StepIn c es flow n w₁ g₁ s₁ m w₂) (hrun : World.empty.run c es = some w) :
    w₁.Reachable c ∧ ∃ rest, w₂.run c rest = some w ∧
      w₁.run c (.task (.stage flow n) :: rest) = some w := by
  obtain ⟨first, rest, rfl, hfirst, hfire, -⟩ := h
  rw [run_append, hfirst, Option.bind_some] at hrun
  refine ⟨⟨first, hfirst⟩, rest, ?_, hrun⟩
  rwa [World.run, hfire, Option.bind_some] at hrun

/-- What a stage was asked to do has not changed since the step, and no result has been lost. -/
theorem StepIn.keeps (h : StepIn c es flow n w₁ g₁ s₁ m w₂) (hrun : World.empty.run c es = some w)
    (hg : w.graph? flow = some g) (hs : g.stages[n]? = some s) :
    Grows g₁ g ∧ s.recipe = s₁.recipe := by
  obtain ⟨-, rest, -, hlater⟩ := h.run hrun
  obtain ⟨-, -, -, -, -, hsteps⟩ := h
  obtain ⟨g', hg', hchanges⟩ := changes_of_run hlater hsteps.graph
  obtain rfl := Option.some.inj (hg'.symm.trans hg)
  obtain ⟨s', hs', hrecipe⟩ := hchanges.recipe hsteps.stage
  obtain rfl := Option.some.inj (hs'.symm.trans hs)
  exact ⟨hchanges.grows, hrecipe⟩

/-! ## What a stage has read -/

/-- A stage can account for what it has read, in the graph `g` after a run. -/
structure Caused (c : Completer) (es : List Event) (flow n : Nat) (g : Graph) (s : Stage) :
    Prop where
  /-- A terminal stage that waits for all its inputs. -/
  all : s.operation.readiness = .allInputs → (g.outcome? n).isSome →
    ∀ d ∈ s.deps, (g.outcome? d).isSome
  /-- What a stage was resolved from: the results that its inputs still have. -/
  inputs : ∀ {w₁ g₁ s₁ m w₂ got}, StepIn c es flow n w₁ g₁ s₁ m w₂ →
    s₁.phase = .gathering got [] → m = s.resolve got ∧ s.deps.map g.outcome? = got.map some
  /-- A terminal stage that waits for the first of its inputs. -/
  first : s.operation.readiness = .firstInput → (g.outcome? n).isSome →
    (∃ d ∈ s.deps, (g.outcome? d).isSome) ∧
      ∃ w₁ g₁ s₁ m w₂, StepIn c es flow n w₁ g₁ s₁ m w₂ ∧ s₁.phase = .choosing
  /-- The step in which such a stage leaves its wait. -/
  lowest : ∀ {w₁ g₁ s₁ m w₂}, StepIn c es flow n w₁ g₁ s₁ m w₂ → s₁.phase = .choosing →
    ∃ before d after o, s.deps = before ++ d :: after ∧ (∀ d' ∈ before, g₁.outcome? d' = none) ∧
      g₁.outcome? d = some o ∧ g.outcome? d = some o ∧ m = s.resolve [o] ∧
      (s.operation = .anyOf ∨ o.isFailure → g.outcome? n = some o) ∧
      (s.operation = .applyToEither → o.isSuccess → ∃ closure, s.closure = some closure ∧
        m = .launch closure [o] none)
  /-- The step in which the body of a stage ends with a reference to a stage that is there. -/
  adopted : ∀ {w₁ g₁ s₁ m w₂ t p stage target}, StepIn c es flow n w₁ g₁ s₁ m w₂ →
    s.operation.adopts → s₁.phase = .running t none → w₁.resume? t = some p →
    Ends p (.success (.stageRef stage)) → g₁.slot? stage = .ok target →
    ∀ o, g.outcome? n = some o → g.outcome? target = some o

/-- A terminal stage that waits for inputs had them when it was resolved. -/
theorem ready_of_terminal (h : w.Reachable c) (hg : w.graph? flow = some g)
    (hs : g.stages[n]? = some s) (hown : s.operation.hasOwnCall = false)
    (ho : (g.outcome? n).isSome) : ∃ inputs, Ready g s.recipe inputs := by
  obtain ⟨o, ho⟩ := Option.isSome_iff_exists.mp ho
  obtain ⟨inputs, hready, -⟩ := (traced_of_reachable h hg).resolved hs hown ho
  exact ⟨inputs, hready⟩

theorem all_of_terminal (h : w.Reachable c) (hg : w.graph? flow = some g)
    (hs : g.stages[n]? = some s) (hall : s.operation.readiness = .allInputs)
    (ho : (g.outcome? n).isSome) : ∀ d ∈ s.deps, (g.outcome? d).isSome := by
  obtain ⟨hown, hnot⟩ := Operation.of_allInputs hall
  obtain ⟨inputs, hready⟩ := ready_of_terminal h hg hs hown ho
  exact hready.all_ended hnot

theorem first_of_terminal (h : w.Reachable c) (hg : w.graph? flow = some g)
    (hs : g.stages[n]? = some s) (hfirst : s.operation.readiness = .firstInput)
    (ho : (g.outcome? n).isSome) : ∃ d ∈ s.deps, (g.outcome? d).isSome := by
  obtain ⟨inputs, hready⟩ := ready_of_terminal h hg hs (Operation.of_firstInput hfirst).1 ho
  exact hready.some_ended hfirst

/-- A stage that no longer waits for the first of its inputs has left its wait in some step. -/
theorem left_choosing (hrun : World.empty.run c es = some w) (hs : w.stage? flow n = some s)
    (hfirst : s.operation.readiness = .firstInput) (hphase : s.phase ≠ .choosing) :
    ∃ w₁ g₁ s₁ m w₂, StepIn c es flow n w₁ g₁ s₁ m w₂ ∧ s₁.phase = .choosing := by
  refine run_life flow n (P := fun es _ s => s.operation.readiness = .firstInput →
    s.phase ≠ .choosing → ∃ w₁ g₁ s₁ m w₂, StepIn c es flow n w₁ g₁ s₁ m w₂ ∧ s₁.phase = .choosing)
    ?_ ?_ ?_ hrun hs hfirst hphase
  · intro es w g s _ hfresh hfirst hphase
    cases hfresh with
    | completed o => cases hfirst
    | delay moment => cases hfirst
    | resolved _ _ =>
        refine absurd ?_ hphase
        simp only at hfirst
        simp [Phase.initial, hfirst]
  · intro es w e w' s _ ih _ hfirst hphase
    obtain ⟨w₁, g₁, s₁, m, w₂, hstep, hchoosing⟩ := ih hfirst hphase
    exact ⟨w₁, g₁, s₁, m, w₂, hstep.append [e], hchoosing⟩
  · intro es w g s m w' hrun ih hfire hsteps hfirst _
    by_cases hchoosing : s.phase = .choosing
    · exact ⟨w, g, s, m, w', ⟨es, [], rfl, hrun, hfire, hsteps⟩, hchoosing⟩
    · obtain ⟨w₁, g₁, s₁, m₁, w₂, hstep, hwas⟩ := ih hfirst hchoosing
      exact ⟨w₁, g₁, s₁, m₁, w₂, hstep.append _, hwas⟩

/-- The stage waits for the one at `target`, whose result it takes, or has ended with it. -/
def Bound (w : World) (flow target : Nat) (s : Stage) : Prop :=
  s.phase = .adopting target ∨ ∃ o, s.phase = .ended o ∧ w.outcome? flow target = some o

/-- A stage that adopts another one takes its result, and does nothing else. -/
theorem Bound.run {target : Nat} (h : w.run c es = some w') (hs : w.stage? flow n = some s)
    (hbound : w.Bound flow target s) :
    ∃ s', w'.stage? flow n = some s' ∧ w'.Bound flow target s' := by
  refine run_stage (P := fun w s => w.Bound flow target s) ?_ ?_ h hs hbound
  · rintro w e w' s (hP | ⟨o, hP, htarget⟩) hfire
    · exact .inl hP
    · exact .inr ⟨o, hP, outcome?_of_run (run_fire hfire) htarget⟩
  · rintro w g s m w' (hP | ⟨o, hP, -⟩) hfire hsteps
    · obtain ⟨o, ho, rfl⟩ := hsteps.of_adopting hP
      refine .inr ⟨o, rfl, outcome?_of_run (run_fire hfire) ?_⟩
      rw [outcome?_of_graph hsteps.graph, ho]
    · exact absurd (hP ▸ .nothing o) hsteps.not_waits

theorem Bound.outcome {target : Nat} {o : Outcome} (hbound : w.Bound flow target s)
    (hs : w.stage? flow n = some s) (ho : w.outcome? flow n = some o) :
    w.outcome? flow target = some o := by
  rw [outcome?_of_stage hs] at ho
  rcases hbound with hphase | ⟨o', hphase, htarget⟩
  · rw [hphase] at ho
    cases ho
  · rw [hphase] at ho
    exact Option.some.inj ho ▸ htarget

/-- A stage that adopts another one ends with the result of that one. -/
theorem adopts_outcome {target : Nat} {o : Outcome} (h : w.run c es = some w')
    (hs : w.stage? flow n = some s) (hphase : s.phase = .adopting target)
    (ho : w'.outcome? flow n = some o) : w'.outcome? flow target = some o := by
  obtain ⟨s', hs', hbound⟩ := Bound.run h hs (.inl hphase)
  exact hbound.outcome hs' ho

/-- A stage that runs a body has been given one. -/
theorem closure_of_hasBody (hrun : World.empty.run c es = some w) (hs : w.stage? flow n = some s)
    (hbody : s.operation.hasBody = true) : s.closure.isSome := by
  refine run_life flow n
    (P := fun _ _ s => s.operation.hasBody = true → s.closure.isSome) ?_ ?_ ?_ hrun hs hbody
  · intro es w g s _ hfresh hbody
    cases hfresh with
    | completed o => cases hbody
    | delay moment => cases hbody
    | @resolved r deps hr _ =>
        unfold checkRequest at hr
        cases hinputs : r.operation.checkInputs r.deps.length with
        | error e => simp [hinputs, bind, Except.bind] at hr
        | ok u =>
            cases hclosure : r.closure with
            | none => simp_all [bind, Except.bind]
            | some closure => rfl
  · intro es w e w' s _ ih _
    exact ih
  · intro es w g s m w' _ ih _ _
    exact ih

/-- What a stage resolves to depends on what it was asked to do. -/
theorem resolve_of_recipe {s s₁ : Stage} (h : s.recipe = s₁.recipe) : s₁.resolve = s.resolve := by
  obtain ⟨hoperation, hclosure, -⟩ := Recipe.mk.inj h
  funext inputs
  simp only [Stage.resolve, Stage.launch, hoperation, hclosure]

/-- A stage that is ended in some step has that result in the end. -/
theorem StepIn.finish {o : Outcome} (h : StepIn c es flow n w₁ g₁ s₁ (.finish o) w₂)
    (hrun : World.empty.run c es = some w) : w.outcome? flow n = some o := by
  obtain ⟨-, rest, hlater, -⟩ := h.run hrun
  obtain ⟨-, -, -, -, -, hsteps⟩ := h
  exact outcome?_of_run hlater (outcome?_of_stage hsteps.landing)

theorem StepIn.inputs {got : List Outcome} (h : StepIn c es flow n w₁ g₁ s₁ m w₂)
    (hrun : World.empty.run c es = some w) (hg : w.graph? flow = some g)
    (hs : g.stages[n]? = some s) (hphase : s₁.phase = .gathering got []) :
    m = s.resolve got ∧ s.deps.map g.outcome? = got.map some := by
  obtain ⟨hgrows, hrecipe⟩ := h.keeps hrun hg hs
  obtain ⟨hreach, -⟩ := h.run hrun
  obtain ⟨-, -, -, -, -, hsteps⟩ := h
  have hdeps : s.deps = s₁.deps := congrArg Recipe.deps hrecipe
  refine ⟨?_, ?_⟩
  · rw [hsteps.move_eq (.resolve hphase), resolve_of_recipe hrecipe]
  · cases (traced_of_reachable hreach hsteps.graph).stands hsteps.stage hphase with
    | @gathering seen _ _ _ _ hseen hgot =>
        rw [List.append_nil] at hseen
        rw [hdeps, show s₁.deps = seen from hseen]
        exact hgrows.results hgot

/-- The stage takes the first of its inputs that are terminal. -/
theorem StepIn.lowest (h : StepIn c es flow n w₁ g₁ s₁ m w₂)
    (hrun : World.empty.run c es = some w) (hg : w.graph? flow = some g)
    (hs : g.stages[n]? = some s) (hphase : s₁.phase = .choosing) :
    ∃ before d after o, s.deps = before ++ d :: after ∧ (∀ d' ∈ before, g₁.outcome? d' = none) ∧
      g₁.outcome? d = some o ∧ g.outcome? d = some o ∧ m = s.resolve [o] := by
  obtain ⟨hgrows, hrecipe⟩ := h.keeps hrun hg hs
  obtain ⟨-, -, -, -, -, hsteps⟩ := h
  have hdeps : s.deps = s₁.deps := congrArg Recipe.deps hrecipe
  obtain ⟨o, ho, rfl⟩ := hsteps.of_choosing hphase
  obtain ⟨before, d, after, hsplit, hd, hbefore⟩ := List.findSome?_eq_some_iff.mp ho
  refine ⟨before, d, after, o, hdeps.trans hsplit, hbefore, hd, hgrows.outcome d o hd, ?_⟩
  rw [resolve_of_recipe hrecipe]

theorem StepIn.adopted {t : BodyThread} {p : FlowProgram bodySignature Outcome} {stage : StageId}
    {target : Nat} {o : Outcome} (h : StepIn c es flow n w₁ g₁ s₁ m w₂)
    (hrun : World.empty.run c es = some w) (hadopts : s₁.operation.adopts = true)
    (hphase : s₁.phase = .running t none) (hp : w₁.resume? t = some p)
    (hends : Ends p (.success (.stageRef stage))) (hslot : g₁.slot? stage = .ok target)
    (ho : w.outcome? flow n = some o) : w.outcome? flow target = some o := by
  obtain ⟨-, rest, hlater, -⟩ := h.run hrun
  obtain ⟨-, -, -, -, -, hsteps⟩ := h
  have hm : m = .turn (.adopting target) := by
    rw [hsteps.move_eq (.conclude hphase hp hends)]
    simp [Graph.conclude, hadopts, Outcome.compose, hslot]
  subst hm
  exact adopts_outcome hlater hsteps.landing rfl ho

/-- What a stage that waits for the first of its inputs does with it. -/
theorem resolve_first (hfirst : s.operation.readiness = .firstInput) (o : Outcome) :
    (s.operation = .anyOf ∨ o.isFailure → s.resolve [o] = .finish o) ∧
      (s.operation = .applyToEither → o.isSuccess → ∀ closure, s.closure = some closure →
        s.resolve [o] = .launch closure [o] none) := by
  have hop : s.operation = .anyOf ∨ s.operation = .applyToEither := by
    cases hop : s.operation <;> rw [hop] at hfirst <;> simp [Operation.readiness] at hfirst ⊢
  refine ⟨?_, ?_⟩
  · intro hended
    have hrule : Operation.Rule s.operation [o] (.complete o) := by
      rcases hop with hop | hop
      · rw [hop]
        exact .anyOf o []
      · rw [hop]
        exact .notEither [] (hended.resolve_left (by simp [hop]))
    simp [Stage.resolve, hrule.resolve_eq]
  · intro hop hsuccess closure hclosure
    have hrule : Operation.Rule s.operation [o] (.invoke [o]) := by
      rw [hop]
      exact .either [] hsuccess
    simp [Stage.resolve, hrule.resolve_eq, Stage.launch, hclosure]

theorem caused_of_run (hrun : World.empty.run c es = some w) (hg : w.graph? flow = some g)
    (hs : g.stages[n]? = some s) : Caused c es flow n g s := by
  have hreach : w.Reachable c := ⟨es, hrun⟩
  have hs' : w.stage? flow n = some s := (stage?_of_graph hg).trans hs
  have houtcome (k : Nat) : w.outcome? flow k = g.outcome? k := outcome?_of_graph hg
  refine ⟨all_of_terminal hreach hg hs, fun h => h.inputs hrun hg hs, ?_, ?_, ?_⟩
  · intro hfirst ho
    refine ⟨first_of_terminal hreach hg hs hfirst ho, left_choosing hrun hs' hfirst ?_⟩
    intro hphase
    simp [Graph.outcome?, hs, hphase, Phase.outcome?] at ho
  · intro w₁ g₁ s₁ m w₂ hstep hphase
    obtain ⟨before, d, after, o, hsplit, hbefore, hd, hd', rfl⟩ :=
      hstep.lowest hrun hg hs hphase
    have hfirst : s.operation.readiness = .firstInput := by
      have hrecipe := (hstep.keeps hrun hg hs).2
      obtain ⟨hreach₁, -⟩ := hstep.run hrun
      obtain ⟨-, -, -, -, -, hsteps⟩ := hstep
      rw [show s.operation = s₁.operation from congrArg Recipe.operation hrecipe]
      exact ((traced_of_reachable hreach₁ hsteps.graph).chooses hsteps.stage hphase).2
    obtain ⟨hfinish, hlaunch⟩ := resolve_first hfirst o
    refine ⟨before, d, after, o, hsplit, hbefore, hd, hd', rfl, ?_, ?_⟩
    · intro hended
      rw [hfinish hended] at hstep
      rw [← houtcome]
      exact hstep.finish hrun
    · intro hop hsuccess
      obtain ⟨closure, hclosure⟩ :=
        Option.isSome_iff_exists.mp (closure_of_hasBody hrun hs' (by rw [hop]; rfl))
      exact ⟨closure, hclosure, hlaunch hop hsuccess closure hclosure⟩
  · intro w₁ g₁ s₁ m w₂ t p stage target hstep hadopts hphase hp hends hslot o ho
    have hrecipe := (hstep.keeps hrun hg hs).2
    have hop : s.operation = s₁.operation := congrArg Recipe.operation hrecipe
    rw [← houtcome] at ho ⊢
    exact hstep.adopted hrun (hop ▸ hadopts) hphase hp hends hslot ho

/-- In every run from the beginning, and for every flow:
* a stage is ended as often as it has a result, and with that result; one that was terminal from the
  start is never ended;
* in every later state the result is the same, and everyone who observes the stage gets it;
* every stage has read what it should have, and when it should have. -/
theorem results_caused (hrun : World.empty.run c es = some w) (hg : w.graph? flow = some g) :
    (∀ n s, g.stages[n]? = some s → endings n (deedsAt flow (World.empty.history c es)) =
      if s.operation = .completedValue then [] else (g.outcome? n).toList) ∧
    (∀ n o, g.outcome? n = some o → ∀ es' w', w.run c es' = some w' → Observed c w' flow n o) ∧
    ∀ n s, g.stages[n]? = some s → Caused c es flow n g s := by
  have hwritten := Graph.written_of_changes (changes_of_fresh hrun rfl hg)
  refine ⟨?_, ?_, fun n s hs => caused_of_run hrun hg hs⟩
  · intro n s hs
    have houtcome : g.outcome? n = s.phase.outcome? := by rw [Graph.outcome?, hs]; rfl
    rw [houtcome]
    exact hwritten.here n s hs
  · intro n o ho es' w' hlater
    rw [← outcome?_of_graph hg] at ho
    exact observed_of_outcome (outcome?_of_run hlater ho)

/-- A stage takes the second of two inputs while the first is a delay, which another stage adopts. -/
def namingRun : List Event :=
  [.call (.createFlow "f"), .call (.addCompleted ⟨"0"⟩ (.success (.state .succeeded))),
    .call (.addDelay ⟨"0"⟩ (.ofMillis 5)),
    .call (.addStage ⟨"0"⟩ ⟨.anyOf, none, [⟨"1"⟩, ⟨"0"⟩]⟩),
    .call (.addStage ⟨"0"⟩ ⟨.thenCompose, some (.bare "name"), [⟨"0"⟩]⟩), .task (.stage 0 2),
    .task (.stage 0 3), .task (.stage 0 3), .task (.stage 0 3), .clock 5, .task (.stage 0 1),
    .task (.stage 0 3)]

/-- The state after the first events of `namingRun`. -/
def namingState (count : Nat) : World :=
  (World.empty.run (.naming ⟨"1"⟩) (namingRun.take count)).getD .empty

/-- Its graph. -/
def namingGraph (count : Nat) : Graph := ((namingState count).graph? 0).getD (.new ⟨"0"⟩)

theorem results_caused_naming :
    World.empty.run (.naming ⟨"1"⟩) namingRun = some (namingState 12) ∧
      endings 3 (deedsAt 0 (World.empty.history (.naming ⟨"1"⟩) namingRun)) = [.empty] ∧
      Observed (.naming ⟨"1"⟩) (namingState 12) 0 2 (.success (.state .succeeded)) ∧
      (namingGraph 12).outcome? 1 = some .empty := by
  have hrun : World.empty.run (.naming ⟨"1"⟩) namingRun = some (namingState 12) := rfl
  have hg : (namingState 12).graph? 0 = some (namingGraph 12) := rfl
  obtain ⟨hendings, hobserved, hcaused⟩ := results_caused hrun hg
  have hstep : StepIn (.naming ⟨"1"⟩) namingRun 0 3 (namingState 8) (namingGraph 8)
      ⟨.thenCompose, some (.bare "name"), [0],
        .running (.going (.done (.success (.stageRef ⟨"1"⟩)))) none⟩
      (.turn (.adopting 1)) (namingState 9) :=
    ⟨namingRun.take 8, namingRun.drop 9, rfl, rfl, rfl, rfl, rfl, ⟨_, rfl⟩, rfl⟩
  refine ⟨hrun, hendings 3 _ rfl, hobserved 2 _ rfl [] _ rfl, ?_⟩
  exact (hcaused 3 _ rfl).adopted hstep rfl rfl rfl (.done _) rfl _ rfl

end World

end StageGraph
