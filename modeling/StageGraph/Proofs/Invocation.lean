/-
# `StageGraph.Proofs.Invocation` — bodies run once, and only where they are asked for

A body that runs twice, or on a failed parent, need not leave a trace in any
result.  So what is counted here are deeds: a body is run for a stage when the
stage's task has it run (`Deed.invoked`).

A stage has its body run in the step in which it leaves its wait, and a stage that
has left its wait never waits again.  Hence at most once (`Graph.invocations_once`), and
on the results that the stage has waited for (`World.ResolvedIn`), of which there is
only one list in a run.  Whether the body is run is then a matter of the rules alone
(`Operation.Asks`), and these never ask for the body of a transform whose parent has
failed.  So a failure goes down a chain of transforms of any length without a single
body (`World.spared_of_chain`).
-/
import StageGraph.Proofs.Admission
import StageGraph.Proofs.Termination
import Mathlib.Logic.Relation

namespace StageGraph

/-! ## Bodies that are asked for -/

namespace Operation

/-- On the results `inputs` the rules ask for the body, with the arguments `args`. -/
inductive Asks (op : Operation) (inputs args : List Outcome) : Prop
  | invoke : op.resolve inputs = .ok (.invoke args) → Asks op inputs args
  | observe (forward : Outcome) : op.resolve inputs = .ok (.observe args forward) →
      Asks op inputs args

variable {op : Operation} {inputs args : List Outcome} {o : Outcome}

theorem Asks.not_complete (h : op.Asks inputs args) : op.resolve inputs ≠ .ok (.complete o) := by
  intro hcomplete
  cases h with
  | invoke h => rw [h] at hcomplete; cases hcomplete
  | observe forward h => rw [h] at hcomplete; cases hcomplete

theorem Asks.hasBody (h : op.Asks inputs args) : op.hasBody = true := by
  cases h with
  | invoke h => exact (rule_of_resolve h).ends_or_hasBody.resolve_left nofun
  | observe o h => exact (rule_of_resolve h).ends_or_hasBody.resolve_left nofun

/-- Operations whose body is spared by the results of certain inputs wait for all of them. -/
theorem gathers_of_mem :
    ∀ op ∈ [thenApply, thenCompose, thenCombine] ++ [exceptionally, exceptionallyCompose],
      op.readiness = .allInputs ∧ op.hasOwnCall = false := by
  decide

/-- These operations only run their body if no input has failed. -/
theorem resolve_forwards (hop : op ∈ [.thenApply, .thenCompose, .thenCombine])
    (htakes : op.Takes inputs.length) (hfind : inputs.find? Outcome.isFailure = some o) :
    op.resolve inputs = .ok (.complete o) := by
  obtain ⟨ho, before, after, rfl, hbefore⟩ := first_failure_iff.mp hfind
  have transform (hop : op ∈ [.thenApply, .thenCompose])
      (hlen : (before ++ o :: after).length = 1) :
      op.resolve (before ++ o :: after) = .ok (.complete o) := by
    obtain ⟨rfl, rfl⟩ : before = [] ∧ after = [] := by
      simp only [List.length_append, List.length_cons] at hlen
      exact ⟨List.length_eq_zero_iff.mp (by omega), List.length_eq_zero_iff.mp (by omega)⟩
    exact (Rule.notApply hop ho).resolve_eq
  cases op with
  | thenApply | thenCompose => exact transform (by decide) htakes
  | thenCombine => exact (Rule.notCombine htakes hbefore ho).resolve_eq
  | _ => simp at hop

theorem Asks.succeeded (h : op.Asks inputs args)
    (hop : op ∈ [.thenApply, .thenCompose, .thenCombine]) (htakes : op.Takes inputs.length) :
    ∀ o ∈ inputs, o.isSuccess = true := by
  intro o ho
  by_contra hnot
  have hsome : (inputs.find? Outcome.isFailure).isSome :=
    List.find?_isSome.mpr ⟨o, ho, by simp [Outcome.isFailure, hnot]⟩
  obtain ⟨failed, hfind⟩ := Option.isSome_iff_exists.mp hsome
  exact h.not_complete (resolve_forwards hop htakes hfind)

/-- And these only if their parent has not succeeded. -/
theorem resolve_recovered (hop : op ∈ [.exceptionally, .exceptionallyCompose])
    (ho : o.isSuccess = true) : op.resolve [o] = .ok (.complete o) :=
  (Rule.notRecover hop ho).resolve_eq

/-- Only one operation ends with the result of its parent whatever its body gives. -/
theorem of_observe (h : op.resolve inputs = .ok (.observe args o)) :
    op = .whenComplete ∧ inputs = [o] ∧ args = outcomeArgs o := by
  cases rule_of_resolve h with
  | whenComplete => exact ⟨rfl, rfl, rfl⟩

end Operation

namespace Stage

variable {s : Stage} {inputs args : List Outcome} {closure : Closure} {forward : Option Outcome}

theorem asks_of_launch (h : s.resolve inputs = .launch closure args forward) :
    s.closure = some closure ∧ s.operation.Asks inputs args := by
  unfold Stage.resolve Stage.launch at h
  cases hr : s.operation.resolve inputs with
  | error e => rw [hr] at h; cases h
  | ok r =>
      rw [hr] at h
      cases hclosure : s.closure with
      | none => cases r <;> simp [hclosure] at h
      | some closure' =>
          cases r with
          | complete o => cases h
          | invoke args' =>
              simp only [hclosure, Move.launch.injEq] at h
              obtain ⟨rfl, rfl, -⟩ := h
              exact ⟨rfl, .invoke hr⟩
          | observe args' o =>
              simp only [hclosure, Move.launch.injEq] at h
              obtain ⟨rfl, rfl, -⟩ := h
              exact ⟨rfl, .observe o hr⟩

theorem launch_of_asks (h : s.operation.Asks inputs args) (hclosure : s.closure = some closure) :
    ∃ forward, s.resolve inputs = .launch closure args forward := by
  unfold Stage.resolve Stage.launch
  cases h with
  | invoke h => exact ⟨none, by rw [h, hclosure]⟩
  | observe o h => exact ⟨some o, by rw [h, hclosure]⟩

end Stage

/-- Whether a stage in this phase has not been resolved yet. -/
def Phase.isWaiting : Phase → Bool
  | delayed _ | gathering _ _ | choosing => true
  | _ => false

/-! ## Counting -/

/-- The invocations of the body of the `n`th stage. -/
def invocations (n : Nat) (ds : List Deed) : List Invocation :=
  ds.filterMap fun
    | .invoked m r => if m = n then some r else none
    | _ => none

@[simp] theorem invocations_append (n : Nat) (ds es : List Deed) :
    invocations n (ds ++ es) = invocations n ds ++ invocations n es := by
  simp [invocations]

theorem mem_invocations {n : Nat} {r : Invocation} {ds : List Deed} :
    r ∈ invocations n ds ↔ .invoked n r ∈ ds := by
  simp only [invocations, List.mem_filterMap]
  constructor
  · rintro ⟨d, hd, heq⟩
    cases d with
    | invoked m r' =>
        simp only [Option.ite_none_right_eq_some, Option.some.injEq] at heq
        obtain ⟨rfl, rfl⟩ := heq
        exact hd
    | _ => cases heq
  · intro h
    exact ⟨_, h, by simp⟩

theorem mem_deedsAt {flow : Nat} {d : Deed} {ds : List (Nat × Deed)} :
    d ∈ deedsAt flow ds ↔ (flow, d) ∈ ds := by
  simp [deedsAt]

namespace Graph

theorem outcome?_of_stage {g : Graph} {n : Nat} {s : Stage} (hs : g.stages[n]? = some s) :
    g.outcome? n = s.phase.outcome? := by
  rw [outcome?, hs]
  rfl

/-- The `n`th stage is a transform of the `m`th. -/
def Hangs (g : Graph) (m n : Nat) : Prop :=
  ∃ s, g.stages[n]? = some s ∧ s.operation ∈ [.thenApply, .thenCompose] ∧ m ∈ s.deps

variable {c : Completer} {g g' : Graph} {n : Nat} {s : Stage} {inputs : List Outcome}

theorem Supplied.isWaiting (h : g.Supplied s inputs) : s.phase.isWaiting = true := by
  cases h with
  | all hphase => rw [hphase]; rfl
  | first hphase _ => rw [hphase]; rfl

theorem Supplied.unique {inputs' : List Outcome} (h : g.Supplied s inputs)
    (h' : g.Supplied s inputs') : inputs = inputs' := by
  cases h with
  | all hphase =>
      cases h' with
      | all hphase' => cases hphase.symm.trans hphase'; rfl
      | first hphase' _ => cases hphase.symm.trans hphase'
  | first hphase ho =>
      cases h' with
      | all hphase' => cases hphase.symm.trans hphase'
      | first _ ho' => cases ho.symm.trans ho'; rfl

/-- A stage has its body run when it is resolved. -/
theorem Moves.supplied {closure : Closure} {args : List Outcome} {forward : Option Outcome}
    (h : Moves g s (.launch closure args forward)) :
    ∃ inputs, g.Supplied s inputs ∧ s.resolve inputs = .launch closure args forward := by
  generalize hm : Move.launch closure args forward = m at h
  cases h with
  | wake _ => cases hm
  | gather _ _ => cases hm
  | resolve hphase => exact ⟨_, .all hphase, rfl⟩
  | choose hphase ho => exact ⟨_, .first hphase ho, rfl⟩
  | think _ _ _ => cases hm
  | @conclude _ forward' _ o _ _ _ =>
      rcases g.conclude_cases s forward' o with ⟨o', h⟩ | ⟨target, h⟩
      · rw [h] at hm; cases hm
      · rw [h] at hm; cases hm
  | adopt _ _ => cases hm

/-- No move leads back into the wait. -/
theorem Moves.isWaiting {m : Move} (h : Moves g s m)
    (hlanding : (g'.landing c n m).isWaiting = true) : s.phase.isWaiting = true := by
  cases h with
  | wake hphase => rw [hphase]; rfl
  | gather hphase _ => rw [hphase]; rfl
  | resolve hphase => rw [hphase]; rfl
  | choose hphase _ => rw [hphase]; rfl
  | think _ _ _ => cases hlanding
  | @conclude _ forward _ o _ _ _ =>
      rcases g.conclude_cases s forward o with ⟨o', h⟩ | ⟨target, h⟩
      · rw [h] at hlanding; cases hlanding
      · rw [h] at hlanding; cases hlanding
  | adopt _ _ => cases hlanding

theorem Change.isWaiting {d : Option Deed} (h : Change c g d g')
    (hwaits : ∀ s, g'.stages[n]? = some s → s.phase.isWaiting = true) :
    ∀ s, g.stages[n]? = some s → s.phase.isWaiting = true := by
  intro s hs
  rcases h.life_cases with
    ⟨s', id, -, hg', -⟩ | ⟨state, hg', -⟩ | ⟨m, s', move, hs', hm, rfl, -⟩ | ⟨hsame, -⟩
  · obtain ⟨-, -, rfl⟩ := allocate_eq_ok hg'
    refine hwaits s ?_
    exact (List.getElem?_append_left (List.getElem?_eq_some_iff.mp hs).1).trans hs
  · obtain ⟨-, rfl⟩ := commit_eq_ok hg'
    exact hwaits s (by simpa using hs)
  · by_cases hmn : m = n
    · subst hmn
      obtain rfl := Option.some.inj (hs.symm.trans hs')
      exact hm.isWaiting (hwaits _ (move_stage hs move))
    · exact hwaits s ((move_stage_ne hmn move).trans hs)
  · exact hwaits s (by rw [hsame.stages]; exact hs)

/-- The only change that runs a body for a stage is the move by which the stage has it run. -/
theorem Change.invocations_cases {d : Option Deed} (h : Change c g d g') (n : Nat) :
    invocations n d.toList = [] ∨
      ∃ s closure args forward, g.stages[n]? = some s ∧ Moves g s (.launch closure args forward) ∧
        d = some (.invoked n (g.invocation n closure args)) ∧
        g' = g.move c n (.launch closure args forward) := by
  cases h with
  | call h => cases h <;> exact .inl rfl
  | @move m s move hs hm =>
      cases move with
      | turn p => exact .inl rfl
      | finish o => exact .inl rfl
      | launch closure args forward =>
          by_cases hmn : m = n
          · subst hmn
            exact .inr ⟨s, closure, args, forward, hs, hm, rfl, rfl⟩
          · exact .inl (by simp [invocations, Move.deed?, hmn])
  | begin _ _ => exact .inl rfl
  | skip _ _ => exact .inl rfl
  | @drain _ s _ m _ _ =>
      cases m with
      | leave => cases s <;> exact .inl rfl
      | _ => exact .inl rfl

/-- The body of a stage is run at most once, and not as long as the stage waits. -/
theorem invocations_once {id : FlowId} {ds : List Deed} (h : Changes c (.new id) ds g) (n : Nat) :
    (invocations n ds).length ≤ 1 ∧
      ((∀ s, g.stages[n]? = some s → s.phase.isWaiting = true) → invocations n ds = []) := by
  induction h with
  | refl => exact ⟨Nat.zero_le _, fun _ => rfl⟩
  | @tail g₁ g₂ ds d hchain hchange ih =>
      rw [invocations_append]
      rcases hchange.invocations_cases n with
        hnone | ⟨s, closure, args, forward, hs, hm, rfl, rfl⟩
      · rw [hnone, List.append_nil]
        exact ⟨ih.1, fun hwaits => ih.2 (hchange.isWaiting hwaits)⟩
      · obtain ⟨inputs, hsupplied, -⟩ := hm.supplied
        have hbefore : invocations n ds = [] := by
          refine ih.2 ?_
          intro s' hs'
          obtain rfl := Option.some.inj (hs.symm.trans hs')
          exact hsupplied.isWaiting
        have hone : invocations n [.invoked n (g₁.invocation n closure args)] =
            [g₁.invocation n closure args] := by
          simp [invocations]
        rw [hbefore, List.nil_append, Option.toList_some, hone]
        refine ⟨Nat.le_refl 1, ?_⟩
        intro hwaits
        have := hwaits _ (move_stage hs (.launch closure args forward))
        cases this

end Graph

namespace World

open StageGraph.Graph (Ready Supplied)

variable {c : Completer} {w w' : World} {flow n : Nat} {g : Graph} {s : Stage} {es : List Event}
  {inputs : List Outcome} {r : Invocation}

/-! ## The deeds of a run -/

theorem history_append {first : List Event} (h : w.run c first = some w') (es : List Event) :
    w.history c (first ++ es) = w.history c first ++ w'.history c es := by
  induction first generalizing w with
  | nil =>
      obtain rfl := Option.some.inj h
      rfl
  | cons e first ih =>
      obtain ⟨w₁, hfire, hrun⟩ := Option.bind_eq_some_iff.mp h
      simp only [List.cons_append, history, hfire, ih hrun, List.append_assoc]

/-- Every deed of a run is one of an event of the run. -/
theorem event_of_history {d : Nat × Deed} (h : w.run c es = some w') (hd : d ∈ w.history c es) :
    ∃ first e rest w₁ w₂, es = first ++ e :: rest ∧ w.run c first = some w₁ ∧
      w₁.fire c e = some w₂ ∧ d ∈ w₁.deeds c e := by
  induction es generalizing w with
  | nil => cases hd
  | cons e es ih =>
      obtain ⟨w₁, hfire, hrun⟩ := Option.bind_eq_some_iff.mp h
      simp only [history, hfire, List.mem_append] at hd
      rcases hd with hd | hd
      · exact ⟨[], e, es, w, w₁, rfl, rfl, hfire, hd⟩
      · obtain ⟨first, e', rest, w₂, w₃, rfl, hfirst, h⟩ := ih hrun hd
        refine ⟨e :: first, e', rest, w₂, w₃, rfl, ?_, h⟩
        rw [World.run, hfire]
        exact hfirst

/-- A step by which a body is run is one of a stage that has what it waits for. -/
theorem move?_launch {w₁ : World} {closure : Closure} {args : List Outcome}
    {forward : Option Outcome} (h : w.move? c g s = some (w₁, .launch closure args forward)) :
    w₁ = w ∧ ∃ inputs, g.Supplied s inputs ∧ s.resolve inputs = .launch closure args forward := by
  generalize hlaunch : Move.launch closure args forward = m at h
  cases move?_eq_some_iff.mp h with
  | wake | gather | ask | adopt => cases hlaunch
  | resolve hphase => exact ⟨rfl, _, .all hphase, rfl⟩
  | choose hphase ho => exact ⟨rfl, _, .first hphase ho, rfl⟩
  | @conclude _ forward' _ o =>
      rcases g.conclude_cases s forward' o with ⟨o', hm⟩ | ⟨target, hm⟩
      · cases hlaunch.trans hm
      · cases hlaunch.trans hm

/-- Only the task of a stage has the body of the stage run. -/
theorem not_mem_hookDeeds {flow' : Nat} {t : HookTask} :
    (flow, .invoked n r) ∉ w.hookDeeds c flow' g t := by
  intro hd
  cases t with
  | finished => cases hd
  | due state =>
      simp only [hookDeeds] at hd
      split at hd
      · cases hd
      · cases List.mem_singleton.mp hd
  | draining d state =>
      rcases List.mem_append.mp hd with hd | hd
      · cases hr : d.running with
        | none => rw [hr] at hd; cases hd
        | some running =>
            rw [hr] at hd
            obtain ⟨s, hs⟩ := bodyDeeds_committed hd
            cases hs
      · split at hd
        · next w₁ m _ =>
            obtain ⟨d', hd', heq⟩ := List.mem_map.mp hd
            cases heq
            cases m with
            | leave => cases state <;> simp [DrainMove.deed?] at hd'
            | _ => simp [DrainMove.deed?] at hd'
        · cases hd

theorem launch_of_stageDeeds {flow' k : Nat} (hg : w.graph? flow' = some g)
    (hd : (flow, .invoked n r) ∈ w.stageDeeds c flow' g k s) :
    flow' = flow ∧ k = n ∧ ∃ closure args forward,
      w.move? c g s = some (w, .launch closure args forward) ∧ r = g.invocation n closure args := by
  rcases List.mem_append.mp hd with hd | hd
  · cases hphase : s.phase with
    | running t forward =>
        rw [hphase] at hd
        obtain ⟨s, hs⟩ := bodyDeeds_committed hd
        cases hs
    | _ => rw [hphase] at hd; cases hd
  · split at hd
    · next w₁ m hmove =>
        obtain ⟨d, hd', heq⟩ := List.mem_map.mp hd
        cases heq
        cases m with
        | turn p => simp [Move.deed?] at hd'
        | finish o => simp [Move.deed?] at hd'
        | launch closure args forward =>
            obtain ⟨rfl, -⟩ := move?_launch hmove
            simp only [hg, Option.getD_some, Move.deed?, Option.toList_some,
              List.mem_singleton, Deed.invoked.injEq] at hd'
            obtain ⟨rfl, rfl⟩ := hd'
            exact ⟨rfl, rfl, closure, args, forward, hmove, rfl⟩
    · cases hd

/-- A body is run for a stage by the step in which the stage has it run. -/
theorem launch_of_invoked {e : Event} (hfire : w.fire c e = some w')
    (hd : (flow, .invoked n r) ∈ w.deeds c e) :
    e = .task (.stage flow n) ∧ ∃ g s closure args forward,
      Steps c flow n w g s (.launch closure args forward) w' ∧
        r = g.invocation n closure args := by
  cases fire_eq_some_iff.mp hfire with
  | call request =>
      obtain ⟨s, hs⟩ := callDeeds_committed hd
      cases hs
  | removeFlow | clock | log | ran => cases hd
  | begin hg hk | skip hg hk =>
      simp only [deeds, taskDeeds, hg, hk] at hd
      exact absurd hd not_mem_hookDeeds
  | drain hacts =>
      simp only [deeds, taskDeeds, hacts.graph, hacts.task] at hd
      exact absurd hd not_mem_hookDeeds
  | stage hacts =>
      simp only [deeds, taskDeeds, hacts.graph, hacts.stage] at hd
      obtain ⟨rfl, rfl, closure, args, forward, hmove, rfl⟩ :=
        launch_of_stageDeeds hacts.graph hd
      cases hmove.symm.trans hacts.move
      exact ⟨rfl, _, _, closure, args, forward, hacts.steps, rfl⟩

/-- A run runs a body for a stage in those of its steps in which the stage has it run. -/
theorem mem_invocations_iff (hrun : World.empty.run c es = some w) :
    r ∈ invocations n (deedsAt flow (World.empty.history c es)) ↔
      ∃ w₁ g₁ s₁ closure args forward w₂,
        StepIn c es flow n w₁ g₁ s₁ (.launch closure args forward) w₂ ∧
          r = g₁.invocation n closure args := by
  rw [mem_invocations, mem_deedsAt]
  constructor
  · intro hd
    obtain ⟨first, e, rest, w₁, w₂, rfl, hfirst, hfire, hd⟩ := event_of_history hrun hd
    obtain ⟨rfl, g₁, s₁, closure, args, forward, hsteps, hr⟩ := launch_of_invoked hfire hd
    exact ⟨w₁, g₁, s₁, closure, args, forward, w₂, ⟨first, rest, rfl, hfirst, hfire, hsteps⟩, hr⟩
  · rintro ⟨w₁, g₁, s₁, closure, args, forward, w₂,
      ⟨first, rest, rfl, hfirst, hfire, hsteps⟩, rfl⟩
    rw [history_append hfirst, List.mem_append]
    obtain ⟨w₃, hmove⟩ := hsteps.move
    obtain ⟨rfl, -⟩ := move?_launch hmove
    refine .inr (List.mem_append_left _ ?_)
    simp only [deeds, taskDeeds, hsteps.graph, hsteps.stage, stageDeeds, hmove]
    refine List.mem_append_right _ ?_
    simp [Move.deed?]

/-! ## What a stage has waited for -/

/-- In the run, the stage has left its wait with these results. -/
def ResolvedIn (c : Completer) (es : List Event) (flow n : Nat) (inputs : List Outcome) : Prop :=
  ∃ w₁ g₁ s₁ m w₂, StepIn c es flow n w₁ g₁ s₁ m w₂ ∧ g₁.Supplied s₁ inputs

theorem Steps.resolve {m : Move} (h : Steps c flow n w g s m w') (hinputs : g.Supplied s inputs) :
    m = s.resolve inputs := by
  cases hinputs with
  | all hphase => exact h.move_eq (.resolve hphase)
  | first hphase ho => exact h.move_eq (.choose hphase ho)

/-- A stage that has left its wait never waits again. -/
theorem isWaiting_of_run (hrun : w.run c es = some w') (hs : w.stage? flow n = some s)
    (hleft : s.phase.isWaiting = false) :
    ∃ s', w'.stage? flow n = some s' ∧ s'.phase.isWaiting = false := by
  refine run_stage (P := fun _ s => s.phase.isWaiting = false) ?_ ?_ hrun hs hleft
  · intro w e w' s hleft _
    exact hleft
  · intro w g s m w' hleft _ hsteps
    obtain ⟨w₁, g₁, hacts⟩ := hsteps.acts
    rw [← Bool.not_eq_true] at hleft ⊢
    exact fun hlanding => hleft (hacts.moves.isWaiting hlanding)

theorem Steps.left {m : Move} (h : Steps c flow n w g s m w') (hinputs : g.Supplied s inputs) :
    (g.landing c n m).isWaiting = false := by
  rw [h.resolve hinputs]
  rcases Graph.resolve_cases s inputs with ⟨o, hm⟩ | ⟨closure, args, forward, hm⟩
  · rw [hm]; rfl
  · rw [hm]; rfl

/-- There is only one time at which a stage leaves its wait. -/
theorem ResolvedIn.unique {inputs' : List Outcome} (h : ResolvedIn c es flow n inputs)
    (h' : ResolvedIn c es flow n inputs') : inputs = inputs' := by
  -- Of two such steps one is not before the other.
  have ordered {inputs inputs' : List Outcome} {first a rest rest' : List Event}
      {w₁ w₂ w₁' w₂' : World} {g₁ g₁' : Graph} {s₁ s₁' : Stage} {m m' : Move}
      (hfirst : World.empty.run c first = some w₁)
      (hfire : w₁.fire c (.task (.stage flow n)) = some w₂) (hsteps : Steps c flow n w₁ g₁ s₁ m w₂)
      (hinputs : g₁.Supplied s₁ inputs) (hfirst' : World.empty.run c (first ++ a) = some w₁')
      (hsteps' : Steps c flow n w₁' g₁' s₁' m' w₂') (hinputs' : g₁'.Supplied s₁' inputs')
      (hsplit : .task (.stage flow n) :: rest = a ++ .task (.stage flow n) :: rest') :
      inputs = inputs' := by
    rw [run_append, hfirst, Option.bind_some] at hfirst'
    cases a with
    | nil =>
        obtain rfl := Option.some.inj hfirst'
        obtain rfl := Option.some.inj (hsteps.graph.symm.trans hsteps'.graph)
        obtain rfl := Option.some.inj (hsteps.stage.symm.trans hsteps'.stage)
        exact hinputs.unique hinputs'
    | cons e a =>
        obtain ⟨rfl, -⟩ := List.cons.inj hsplit
        rw [World.run, hfire, Option.bind_some] at hfirst'
        obtain ⟨s', hs', hleft⟩ :=
          isWaiting_of_run hfirst' hsteps.landing (hsteps.left hinputs)
        rw [stage?_of_graph hsteps'.graph, hsteps'.stage] at hs'
        obtain rfl := Option.some.inj hs'
        rw [hinputs'.isWaiting] at hleft
        cases hleft
  obtain ⟨w₁, g₁, s₁, m, w₂, ⟨first, rest, rfl, hfirst, hfire, hsteps⟩, hinputs⟩ := h
  obtain ⟨w₁', g₁', s₁', m', w₂', ⟨first', rest', heq, hfirst', hfire', hsteps'⟩, hinputs'⟩ := h'
  rcases List.append_eq_append_iff.mp heq with ⟨a, rfl, hsplit⟩ | ⟨a, rfl, hsplit⟩
  · exact ordered hfirst hfire hsteps hinputs hfirst' hsteps' hinputs' hsplit
  · exact (ordered hfirst' hfire' hsteps' hinputs' hfirst hsteps hinputs hsplit).symm

/-- A stage that was made by a request and has left its wait has been resolved. -/
theorem resolved_of_left (hrun : World.empty.run c es = some w) (hs : w.stage? flow n = some s)
    (hown : s.operation.hasOwnCall = false) (hleft : s.phase.isWaiting = false) :
    ∃ inputs, ResolvedIn c es flow n inputs := by
  refine run_life flow n (P := fun es _ s => s.operation.hasOwnCall = false →
    s.phase.isWaiting = false → ∃ inputs, ResolvedIn c es flow n inputs) ?_ ?_ ?_ hrun hs hown hleft
  · intro es w g s _ hfresh hown hleft
    cases hfresh with
    | completed o => cases hown
    | delay moment => cases hown
    | @resolved r deps _ _ =>
        simp only [Phase.initial] at hleft
        split at hleft <;> cases hleft
  · intro es w e w' s _ ih _ hown hleft
    obtain ⟨inputs, w₁, g₁, s₁, m, w₂, hstep, hinputs⟩ := ih hown hleft
    exact ⟨inputs, w₁, g₁, s₁, m, w₂, hstep.append [e], hinputs⟩
  · intro es w g s m w' hrun ih hfire hsteps hown hleft
    cases hwas : s.phase.isWaiting with
    | false =>
        obtain ⟨inputs, w₁, g₁, s₁, m₁, w₂, hstep, hinputs⟩ := ih hown hwas
        exact ⟨inputs, w₁, g₁, s₁, m₁, w₂, hstep.append _, hinputs⟩
    | true =>
        have hstep : StepIn c (es ++ [.task (.stage flow n)]) flow n w g s m w' :=
          ⟨es, [], rfl, hrun, hfire, hsteps⟩
        have htraced := traced_of_reachable ⟨es, hrun⟩ hsteps.graph
        obtain ⟨w₁, hdoes⟩ := hsteps.does
        cases hdoes with
        | wake hphase => rw [htraced.delays hsteps.stage hphase] at hown; cases hown
        | gather => cases hleft
        | resolve hphase => exact ⟨_, w, g, s, _, w', hstep, .all hphase⟩
        | choose hphase ho => exact ⟨_, w, g, s, _, w', hstep, .first hphase ho⟩
        | ask hphase | conclude hphase | adopt hphase => rw [hphase] at hwas; cases hwas

namespace ResolvedIn

variable (h : ResolvedIn c es flow n inputs) (hrun : World.empty.run c es = some w)
  (hg : w.graph? flow = some g) (hs : g.stages[n]? = some s)

include h hrun hg hs

theorem step : ∃ w₁ g₁ s₁ w₂, StepIn c es flow n w₁ g₁ s₁ (s.resolve inputs) w₂ := by
  obtain ⟨w₁, g₁, s₁, m, w₂, hstep, hinputs⟩ := h
  have hrecipe := (hstep.keeps hrun hg hs).2
  have hm : m = s.resolve inputs := by
    obtain ⟨-, -, -, -, -, hsteps⟩ := hstep
    rw [hsteps.resolve hinputs, resolve_of_recipe hrecipe]
  exact ⟨w₁, g₁, s₁, w₂, hm ▸ hstep⟩

/-- The results are still those of the inputs. -/
theorem ready : s.operation.hasOwnCall = false ∧ Ready g s.recipe inputs := by
  obtain ⟨w₁, g₁, s₁, m, w₂, hstep, hinputs⟩ := h
  obtain ⟨hgrows, hrecipe⟩ := hstep.keeps hrun hg hs
  obtain ⟨hreach, -⟩ := hstep.run hrun
  obtain ⟨-, -, -, -, -, hsteps⟩ := hstep
  obtain ⟨hown, hready⟩ := ready_of_supplied hreach hsteps.graph hsteps.stage hinputs
  refine ⟨?_, hrecipe ▸ hready.mono hgrows⟩
  rw [show s.operation = s₁.operation from congrArg Recipe.operation hrecipe]
  exact hown

/-- A stage that is ended by its rules has that result. -/
theorem outcome {o : Outcome} (ho : s.operation.resolve inputs = .ok (.complete o)) :
    g.outcome? n = some o := by
  obtain ⟨w₁, g₁, s₁, w₂, hstep⟩ := h.step hrun hg hs
  rw [show s.resolve inputs = .finish o by simp [Stage.resolve, ho]] at hstep
  rw [← outcome?_of_graph hg]
  exact hstep.finish hrun

end ResolvedIn

/-- A stage runs its body on the results with which it has left its wait, if these ask for it. -/
theorem invoked_iff (hrun : World.empty.run c es = some w) (hg : w.graph? flow = some g)
    (hs : g.stages[n]? = some s) :
    r ∈ invocations n (deedsAt flow (World.empty.history c es)) ↔
      ∃ inputs closure args, ResolvedIn c es flow n inputs ∧ s.closure = some closure ∧
        s.operation.Asks inputs args ∧ r = g.invocation n closure args := by
  rw [mem_invocations_iff hrun]
  constructor
  · rintro ⟨w₁, g₁, s₁, closure, args, forward, w₂, hstep, rfl⟩
    obtain ⟨hgrows, hrecipe⟩ := hstep.keeps hrun hg hs
    obtain ⟨-, -, -, -, -, hsteps⟩ := id hstep
    obtain ⟨w₃, hmove⟩ := hsteps.move
    obtain ⟨-, inputs, hinputs, hresolve⟩ := move?_launch hmove
    rw [resolve_of_recipe hrecipe] at hresolve
    obtain ⟨hclosure, hasks⟩ := Stage.asks_of_launch hresolve
    exact ⟨inputs, closure, args, ⟨w₁, g₁, s₁, _, w₂, hstep, hinputs⟩, hclosure, hasks,
      (Graph.invocation_eq hgrows.id closure args).symm⟩
  · rintro ⟨inputs, closure, args, hinputs, hclosure, hasks, rfl⟩
    obtain ⟨forward, hlaunch⟩ := Stage.launch_of_asks hasks hclosure
    obtain ⟨w₁, g₁, s₁, w₂, hstep⟩ := hinputs.step hrun hg hs
    have hgrows := (hstep.keeps hrun hg hs).1
    rw [hlaunch] at hstep
    exact ⟨w₁, g₁, s₁, closure, args, forward, w₂, hstep,
      Graph.invocation_eq hgrows.id closure args⟩

/-! ## Stages that are spared -/

/-- The first input in the order of the inputs that has failed. -/
theorem find?_isFailure {before after : List Nat} {d : Nat} {x : Datum}
    (hos : (before ++ d :: after).map g.outcome? = inputs.map some)
    (hbefore : ∀ d' ∈ before, ∃ v, g.outcome? d' = some (.success v))
    (hd : g.outcome? d = some (.failure x)) :
    inputs.find? Outcome.isFailure = some (.failure x) := by
  induction before generalizing inputs with
  | nil =>
      cases inputs with
      | nil => cases hos
      | cons o inputs =>
          obtain ⟨ho, -⟩ := List.cons.inj hos
          obtain rfl := Option.some.inj (hd.symm.trans ho)
          rfl
  | cons d' before ih =>
      cases inputs with
      | nil => cases hos
      | cons o inputs =>
          obtain ⟨ho, hrest⟩ := List.cons.inj hos
          obtain ⟨v, hv⟩ := hbefore d' List.mem_cons_self
          obtain rfl := Option.some.inj (hv.symm.trans ho)
          have hfind := ih hrest fun d hd => hbefore d (List.mem_cons_of_mem d' hd)
          exact hfind

/-- What a run does about the body of a stage, in the graph `g` after it. -/
structure Sparing (c : Completer) (es : List Event) (flow n : Nat) (g : Graph) (s : Stage)
    (bodies : List Invocation) : Prop where
  once : bodies.length ≤ 1
  /-- A stage with a call of its own waits for nothing and runs nothing. -/
  own : s.operation.hasOwnCall = true → bodies = []
  /-- Every other terminal stage has waited for certain results. -/
  waited : s.operation.hasOwnCall = false → (g.outcome? n).isSome →
    ∃! inputs, ResolvedIn c es flow n inputs
  /-- Its body is run exactly if the rules ask for it on these, and as they ask. -/
  asked : ∀ inputs, ResolvedIn c es flow n inputs → Ready g s.recipe inputs ∧
    (bodies ≠ [] ↔ ∃ args, s.operation.Asks inputs args) ∧
    ∀ r ∈ bodies, ∃ closure args, s.closure = some closure ∧ s.operation.Asks inputs args ∧
      r = g.invocation n closure args
  forwarded : ∀ inputs o, ResolvedIn c es flow n inputs →
    s.operation.resolve inputs = .ok (.complete o) → bodies = [] ∧ g.outcome? n = some o
  /-- Inputs that have failed; it is the first one of them that decides. -/
  failed : s.operation ∈ [.thenApply, .thenCompose, .thenCombine] →
    ∀ before d after x, s.deps = before ++ d :: after → g.outcome? d = some (.failure x) →
      bodies = [] ∧ ((∀ d' ∈ before, ∃ v, g.outcome? d' = some (.success v)) →
        ∀ o, g.outcome? n = some o → o = .failure x)
  failedFirst : s.operation = .applyToEither → ∀ x, ResolvedIn c es flow n [.failure x] →
    bodies = [] ∧ g.outcome? n = some (.failure x)
  recovered : s.operation ∈ [.exceptionally, .exceptionallyCompose] →
    ∀ d ∈ s.deps, ∀ v, g.outcome? d = some (.success v) →
      bodies = [] ∧ ∀ o, g.outcome? n = some o → o = .success v

section Spared

variable (hrun : World.empty.run c es = some w) (hg : w.graph? flow = some g)
  (hs : g.stages[n]? = some s)

include hrun hg hs

/-- Nothing is run unless the stage has been resolved, and the rules have asked. -/
theorem invocations_eq_nil
    (h : ∀ inputs args, ResolvedIn c es flow n inputs → ¬s.operation.Asks inputs args) :
    invocations n (deedsAt flow (World.empty.history c es)) = [] := by
  refine List.eq_nil_iff_forall_not_mem.mpr ?_
  intro r hr
  obtain ⟨inputs, closure, args, hinputs, -, hasks, -⟩ := (invoked_iff hrun hg hs).mp hr
  exact h inputs args hinputs hasks

theorem resolved_of_terminal (hown : s.operation.hasOwnCall = false)
    (ho : (g.outcome? n).isSome) : ∃ inputs, ResolvedIn c es flow n inputs := by
  refine resolved_of_left hrun ((stage?_of_graph hg).trans hs) hown ?_
  obtain ⟨o, ho⟩ := Option.isSome_iff_exists.mp ho
  rw [Graph.outcome?_of_stage hs] at ho
  rw [Phase.eq_ended ho]
  rfl

theorem ResolvedIn.forwarded {o : Outcome} (h : ResolvedIn c es flow n inputs)
    (ho : s.operation.resolve inputs = .ok (.complete o)) :
    invocations n (deedsAt flow (World.empty.history c es)) = [] ∧ g.outcome? n = some o := by
  refine ⟨invocations_eq_nil hrun hg hs ?_, h.outcome hrun hg hs ho⟩
  intro inputs' args h' hasks
  obtain rfl := h.unique h'
  exact hasks.not_complete ho

theorem ResolvedIn.asked (h : ResolvedIn c es flow n inputs) :
    (invocations n (deedsAt flow (World.empty.history c es)) ≠ [] ↔
      ∃ args, s.operation.Asks inputs args) ∧
    ∀ r ∈ invocations n (deedsAt flow (World.empty.history c es)),
      ∃ closure args, s.closure = some closure ∧ s.operation.Asks inputs args ∧
        r = g.invocation n closure args := by
  have hasked (r : Invocation)
      (hr : r ∈ invocations n (deedsAt flow (World.empty.history c es))) :
      ∃ closure args, s.closure = some closure ∧ s.operation.Asks inputs args ∧
        r = g.invocation n closure args := by
    obtain ⟨inputs', closure, args, h', hclosure, hasks, hr⟩ := (invoked_iff hrun hg hs).mp hr
    obtain rfl := h.unique h'
    exact ⟨closure, args, hclosure, hasks, hr⟩
  refine ⟨⟨?_, ?_⟩, hasked⟩
  · intro hne
    obtain ⟨r, hr⟩ := List.exists_mem_of_ne_nil _ hne
    obtain ⟨-, args, -, hasks, -⟩ := hasked r hr
    exact ⟨args, hasks⟩
  · rintro ⟨args, hasks⟩
    obtain ⟨closure, hclosure⟩ := Option.isSome_iff_exists.mp
      (closure_of_hasBody hrun ((stage?_of_graph hg).trans hs) hasks.hasBody)
    exact List.ne_nil_of_mem
      ((invoked_iff hrun hg hs).mpr ⟨inputs, closure, args, h, hclosure, hasks, rfl⟩)

/-- The results of all inputs, and as many as the operation takes. -/
theorem ResolvedIn.results (h : ResolvedIn c es flow n inputs)
    (hall : s.operation.readiness = .allInputs) :
    s.operation.Takes inputs.length ∧ s.deps.map g.outcome? = inputs.map some := by
  obtain ⟨hown, hready⟩ := h.ready hrun hg hs
  have htakes := takes_of_reachable ⟨es, hrun⟩ ((stage?_of_graph hg).trans hs) hown
  have hsupplies := supplies_of_ready htakes hready
  cases hready with
  | first hfirst _ _ =>
      rw [show s.operation.readiness = _ from hfirst] at hall
      cases hall
  | all _ hos =>
      simp only [Operation.Supplies, hall] at hsupplies
      exact ⟨hsupplies ▸ htakes, hos⟩

theorem ResolvedIn.mem (h : ResolvedIn c es flow n inputs)
    (hall : s.operation.readiness = .allInputs) {d : Nat} {o : Outcome} (hd : d ∈ s.deps)
    (ho : g.outcome? d = some o) : o ∈ inputs := by
  have hmem := List.mem_map_of_mem (f := g.outcome?) hd
  rw [(h.results hrun hg hs hall).2, ho] at hmem
  obtain ⟨o', ho', heq⟩ := List.mem_map.mp hmem
  exact Option.some.inj heq ▸ ho'

/-- No body on an input that has failed, or may only fail. -/
theorem spared_of_failed (hop : s.operation ∈ [.thenApply, .thenCompose, .thenCombine]) {d : Nat}
    (hd : d ∈ s.deps) (hfailed : ∀ o, g.outcome? d = some o → o.isSuccess = false) :
    invocations n (deedsAt flow (World.empty.history c es)) = [] := by
  obtain ⟨hall, -⟩ := Operation.gathers_of_mem _ (List.mem_append_left _ hop)
  refine invocations_eq_nil hrun hg hs ?_
  intro inputs args h hasks
  obtain ⟨htakes, hos⟩ := h.results hrun hg hs hall
  have hmem := List.mem_map_of_mem (f := g.outcome?) hd
  rw [hos] at hmem
  obtain ⟨o, ho, heq⟩ := List.mem_map.mp hmem
  have := hasks.succeeded hop htakes o ho
  rw [hfailed o heq.symm] at this
  cases this

/-- Of the inputs that have failed, the first one is the result. -/
theorem ResolvedIn.failed (h : ResolvedIn c es flow n inputs)
    (hop : s.operation ∈ [.thenApply, .thenCompose, .thenCombine]) {before after : List Nat}
    {d : Nat} {x : Datum} (hdeps : s.deps = before ++ d :: after)
    (hbefore : ∀ d' ∈ before, ∃ v, g.outcome? d' = some (.success v))
    (hd : g.outcome? d = some (.failure x)) : g.outcome? n = some (.failure x) := by
  obtain ⟨hall, -⟩ := Operation.gathers_of_mem _ (List.mem_append_left _ hop)
  obtain ⟨htakes, hos⟩ := h.results hrun hg hs hall
  have hfind := find?_isFailure (hdeps ▸ hos) hbefore hd
  exact h.outcome hrun hg hs (Operation.resolve_forwards hop htakes hfind)

theorem ResolvedIn.recovered (h : ResolvedIn c es flow n inputs)
    (hop : s.operation ∈ [.exceptionally, .exceptionallyCompose]) {d : Nat} {v : Datum}
    (hd : d ∈ s.deps) (ho : g.outcome? d = some (.success v)) :
    s.operation.resolve inputs = .ok (.complete (.success v)) := by
  obtain ⟨hall, -⟩ := Operation.gathers_of_mem _ (List.mem_append_right _ hop)
  have hlen : inputs.length = 1 := by
    obtain ⟨htakes, -⟩ := h.results hrun hg hs hall
    simp only [List.mem_cons, List.not_mem_nil, or_false] at hop
    rcases hop with hop | hop <;> rw [hop] at htakes <;> exact htakes
  obtain ⟨o, rfl⟩ := List.length_eq_one_iff.mp hlen
  obtain rfl := List.mem_singleton.mp (h.mem hrun hg hs hall hd ho)
  exact Operation.resolve_recovered hop rfl

theorem sparing_of_run :
    Sparing c es flow n g s (invocations n (deedsAt flow (World.empty.history c es))) := by
  have hterminal {o : Outcome} (hown : s.operation.hasOwnCall = false)
      (ho : g.outcome? n = some o) : ∃ inputs, ResolvedIn c es flow n inputs :=
    resolved_of_terminal hrun hg hs hown (by rw [ho]; rfl)
  refine ⟨(Graph.invocations_once (changes_of_fresh hrun rfl hg) n).1, ?_, ?_, ?_,
    fun inputs o h => h.forwarded hrun hg hs, ?_, ?_, ?_⟩
  · intro hown
    refine invocations_eq_nil hrun hg hs ?_
    intro inputs args h _
    rw [(h.ready hrun hg hs).1] at hown
    cases hown
  · intro hown ho
    obtain ⟨inputs, h⟩ := resolved_of_terminal hrun hg hs hown ho
    exact ⟨inputs, h, fun _ h' => h'.unique h⟩
  · intro inputs h
    exact ⟨(h.ready hrun hg hs).2, h.asked hrun hg hs⟩
  · intro hop before d after x hdeps hd
    refine ⟨spared_of_failed hrun hg hs hop (d := d) (by simp [hdeps]) ?_, ?_⟩
    · intro o ho
      obtain rfl := Option.some.inj (hd.symm.trans ho)
      rfl
    · intro hbefore o ho
      obtain ⟨-, hown⟩ := Operation.gathers_of_mem _ (List.mem_append_left _ hop)
      obtain ⟨inputs, h⟩ := hterminal hown ho
      exact Option.some.inj (ho.symm.trans (h.failed hrun hg hs hop hdeps hbefore hd))
  · intro hop x h
    refine h.forwarded hrun hg hs ?_
    rw [hop]
    rfl
  · intro hop d hd v ho
    refine ⟨invocations_eq_nil hrun hg hs ?_, ?_⟩
    · intro inputs args h hasks
      exact hasks.not_complete (h.recovered hrun hg hs hop hd ho)
    · intro o' ho'
      obtain ⟨-, hown⟩ := Operation.gathers_of_mem _ (List.mem_append_right _ hop)
      obtain ⟨inputs, h⟩ := hterminal hown ho'
      have hsame := h.outcome hrun hg hs (h.recovered hrun hg hs hop hd ho)
      exact Option.some.inj (ho'.symm.trans hsame)

end Spared

/-! ## Chains of transforms -/

theorem Stuck.waits (h : w.Stuck c) (hg : w.graph? flow = some g) (hs : g.stages[n]? = some s) :
    w.StageWaits g s.deps s.phase :=
  move?_eq_none_iff.mp
    ((step_stage_eq_none_iff hg hs).mp (h w.clock (Nat.le_refl _) (.stage flow n)))

/-- Where nothing can go on, a stage whose inputs are terminal has been resolved. -/
theorem Stuck.resolved (h : w.Stuck c) (hrun : World.empty.run c es = some w)
    (hg : w.graph? flow = some g) (hs : g.stages[n]? = some s)
    (hown : s.operation.hasOwnCall = false) (hdeps : ∀ d ∈ s.deps, (g.outcome? d).isSome) :
    ∃ inputs, ResolvedIn c es flow n inputs := by
  have hs' : w.stage? flow n = some s := (stage?_of_graph hg).trans hs
  have htraced := traced_of_reachable ⟨es, hrun⟩ hg
  have hwaits := h.waits hg hs
  have hended {d : Nat} (hd : d ∈ s.deps) : g.outcome? d ≠ none :=
    Option.isSome_iff_ne_none.mp (hdeps d hd)
  refine resolved_of_left hrun hs' hown ?_
  generalize hphase : s.phase = p at hwaits ⊢
  cases hwaits with
  | moment _ => rw [htraced.delays hs hphase] at hown; cases hown
  | input _ _ hnone => exact absurd hnone (hended (htraced.next_mem hs hphase).1)
  | anyInput hnone =>
      obtain ⟨d, hd⟩ := List.exists_mem_of_ne_nil _
        (deps_of_first ⟨es, hrun⟩ hs' (htraced.chooses hs hphase).2)
      exact absurd (hnone d hd) (hended hd)
  | nothing _ | body _ _ | target _ => rfl

/-- A failure goes down a chain of transforms, without a body. -/
theorem spared_of_chain (hrun : World.empty.run c es = some w) (hg : w.graph? flow = some g)
    {m : Nat} {x : Datum} (hchain : Relation.TransGen g.Hangs m n)
    (hm : g.outcome? m = some (.failure x)) :
    invocations n (deedsAt flow (World.empty.history c es)) = [] ∧
      (∀ o, g.outcome? n = some o → o = .failure x) ∧
      (w.Stuck c → g.outcome? n = some (.failure x)) := by
  have hreach : w.Reachable c := ⟨es, hrun⟩
  -- One stage of the chain, on an input that can only have this result.
  have link {k n : Nat} (hhangs : g.Hangs k n)
      (honly : ∀ o, g.outcome? k = some o → o = .failure x) :
      invocations n (deedsAt flow (World.empty.history c es)) = [] ∧
        (∀ o, g.outcome? n = some o → o = .failure x) ∧
        (w.Stuck c → (g.outcome? k).isSome → g.outcome? n = some (.failure x)) := by
    obtain ⟨s, hs, hop, hk⟩ := hhangs
    have hop' : s.operation ∈ [.thenApply, .thenCompose, .thenCombine] := by
      simp only [List.mem_cons, List.not_mem_nil, or_false] at hop ⊢
      exact hop.imp_right .inl
    obtain ⟨hall, hown⟩ := Operation.gathers_of_mem _ (List.mem_append_left _ hop')
    have hdeps : s.deps = [] ++ k :: [] := by
      have htakes := takes_of_reachable hreach ((stage?_of_graph hg).trans hs) hown
      have hlen : s.deps.length = 1 := by
        simp only [List.mem_cons, List.not_mem_nil, or_false] at hop
        rcases hop with hop | hop <;> rw [hop] at htakes <;> exact htakes
      obtain ⟨d, hd⟩ := List.length_eq_one_iff.mp hlen
      rw [hd] at hk
      rw [hd, List.mem_singleton.mp hk]
      rfl
    have resolved (ho : (g.outcome? k).isSome) {inputs : List Outcome}
        (h : ResolvedIn c es flow n inputs) : g.outcome? n = some (.failure x) := by
      obtain ⟨o, ho⟩ := Option.isSome_iff_exists.mp ho
      obtain rfl := honly o ho
      exact h.failed hrun hg hs hop' hdeps (by simp) ho
    refine ⟨spared_of_failed hrun hg hs hop' hk fun o ho => by rw [honly o ho]; rfl, ?_, ?_⟩
    · intro o ho
      have hsome : (g.outcome? n).isSome := by rw [ho]; rfl
      obtain ⟨inputs, h⟩ := resolved_of_terminal hrun hg hs hown hsome
      have hsame := resolved (all_of_terminal hreach hg hs hall hsome k hk) h
      exact Option.some.inj (ho.symm.trans hsame)
    · intro hstuck ho
      obtain ⟨inputs, h⟩ := hstuck.resolved hrun hg hs hown (by simpa [hdeps] using ho)
      exact resolved ho h
  induction hchain with
  | single hhangs =>
      obtain ⟨hspared, honly, hstuck⟩ := link hhangs fun o ho => by
        rw [hm] at ho
        exact (Option.some.inj ho).symm
      exact ⟨hspared, honly, fun h => hstuck h (by rw [hm]; rfl)⟩
  | tail _ hhangs ih =>
      obtain ⟨hspared, honly, hstuck⟩ := link hhangs ih.2.1
      exact ⟨hspared, honly, fun h => hstuck h (by rw [ih.2.2 h]; rfl)⟩

/-- In every run from the beginning, and for every flow:
* the body of a stage is run at most once, and exactly if the rules ask for it on the results that
  the stage has waited for, of which there is one list; where they do not ask, the result of the
  stage is that of the input that decides;
* below a failure no body is run, in a chain of transforms of any length, and every stage of it can
  only end with the same failure;
* where nothing can go on, stages whose inputs are terminal have been resolved, and the failure has
  come down all the chain. -/
theorem bodies_asked (hrun : World.empty.run c es = some w) (hg : w.graph? flow = some g) :
    (∀ n s, g.stages[n]? = some s →
      Sparing c es flow n g s (invocations n (deedsAt flow (World.empty.history c es)))) ∧
    (∀ m n x, Relation.TransGen g.Hangs m n → g.outcome? m = some (.failure x) →
      invocations n (deedsAt flow (World.empty.history c es)) = [] ∧
        (∀ o, g.outcome? n = some o → o = .failure x) ∧
        (w.Stuck c → g.outcome? n = some (.failure x))) ∧
    (w.Stuck c → ∀ n s, g.stages[n]? = some s → s.operation.hasOwnCall = false →
      (∀ d ∈ s.deps, (g.outcome? d).isSome) → ∃ inputs, ResolvedIn c es flow n inputs) := by
  refine ⟨?_, ?_, ?_⟩
  · intro n s hs
    exact sparing_of_run hrun hg hs
  · intro m n x hchain hm
    exact spared_of_chain hrun hg hchain hm
  · intro hstuck n s hs hown hdeps
    exact hstuck.resolved hrun hg hs hown hdeps

/-- The second input of a stage fails before the first one; two transforms hang below it. -/
def failingRun : List Event :=
  [.call (.createFlow "f"), .call (.addStage ⟨"0"⟩ ⟨.supply, some (.bare "absent"), []⟩),
    .call (.addCompleted ⟨"0"⟩ (.failure .empty)),
    .call (.addStage ⟨"0"⟩ ⟨.thenCombine, some (.bare "sum"), [⟨"0"⟩, ⟨"1"⟩]⟩),
    .call (.addStage ⟨"0"⟩ ⟨.thenApply, some (.bare "inc"), [⟨"2"⟩]⟩),
    .call (.addStage ⟨"0"⟩ ⟨.thenCompose, some (.bare "name"), [⟨"3"⟩]⟩),
    .task (.stage 0 0), .task (.stage 0 0), .task (.stage 0 2), .task (.stage 0 2),
    .task (.stage 0 2), .task (.stage 0 3), .task (.stage 0 3), .task (.stage 0 4),
    .task (.stage 0 4)]

/-- The state after the first events of `failingRun`. -/
def failingState (count : Nat) : World :=
  (World.empty.run .plain (failingRun.take count)).getD .empty

/-- Its graph. -/
def failingGraph (count : Nat) : Graph := ((failingState count).graph? 0).getD (.new ⟨"0"⟩)

theorem bodies_asked_failing :
    World.empty.run .plain failingRun = some (failingState 15) ∧
      invocations 0 (deedsAt 0 (World.empty.history .plain failingRun)) ≠ [] ∧
      invocations 2 (deedsAt 0 (World.empty.history .plain failingRun)) = [] ∧
      (failingGraph 15).outcome? 2 = some (Catalog.unregistered "absent") ∧
      invocations 4 (deedsAt 0 (World.empty.history .plain failingRun)) = [] ∧
      (failingGraph 15).outcome? 4 = some (Catalog.unregistered "absent") := by
  have hrun : World.empty.run .plain failingRun = some (failingState 15) := rfl
  have hg : (failingState 15).graph? 0 = some (failingGraph 15) := rfl
  obtain ⟨hbodies, hchain, -⟩ := bodies_asked hrun hg
  have hfirst : ResolvedIn .plain failingRun 0 0 [] := by
    refine ⟨failingState 6, failingGraph 6,
      ⟨.supply, some (.bare "absent"), [], .gathering [] []⟩, .launch (.bare "absent") [] none,
      failingState 7, ?_, .all rfl⟩
    exact ⟨failingRun.take 6, failingRun.drop 7, rfl, rfl, rfl, rfl, rfl, ⟨_, rfl⟩, rfl⟩
  have hjoined : (failingGraph 15).stages[2]? = some ⟨.thenCombine, some (.bare "sum"), [0, 1],
      .ended (Catalog.unregistered "absent")⟩ := rfl
  have hhangs : Relation.TransGen (failingGraph 15).Hangs 2 4 := by
    have hupper : (failingGraph 15).Hangs 2 3 := ⟨_, rfl, .head _, .head _⟩
    have hlower : (failingGraph 15).Hangs 3 4 := ⟨_, rfl, .tail _ (.head _), .head _⟩
    exact .tail (.single hupper) hlower
  obtain ⟨hspared, hdecides⟩ := (hbodies 2 _ hjoined).failed (by simp) [] 0 [1] _ rfl rfl
  obtain ⟨hspared', honly, -⟩ := hchain 2 4 _ hhangs rfl
  refine ⟨hrun, ?_, hspared, ?_, hspared', ?_⟩
  · exact ((hbodies 0 _ rfl).asked _ hfirst).2.1.mpr ⟨[], .invoke rfl⟩
  · exact congrArg some (hdecides (by simp) _ rfl)
  · exact congrArg some (honly _ rfl)

end World

end StageGraph
