/-
# `StageGraph.Proofs.StageRun` — a run, as one stage sees it

A stage is changed by steps of its own task and by nothing else.  So what a run
does to a stage is a sequence of steps of one task, each taken in some state of
the run (`World.StageStep`), and between two of them the stage stays as it is.

The inversion of an event (`World.stage_of_fire`) says so, with the step at hand;
`World.run_stage` and `World.run_life` are the two inductions over a run that it
gives: from a state on, and from the beginning.
-/
import StageGraph.Proofs.Provenance
import Mathlib.Data.List.Induction

namespace StageGraph

/-! ## What changes keep -/

namespace Graph

variable {c : Completer} {g g' : Graph} {n : Nat} {s : Stage}

/-- A move of another stage keeps this one. -/
theorem move_stage_ne {m : Nat} (h : n ≠ m) (move : Move) :
    (g.move c n move).stages[m]? = g.stages[m]? := by
  cases move <;> simp [Graph.move, finish, setPhase, h]

/-- The phase into which a move brings its stage. -/
def landing (c : Completer) (g : Graph) (n : Nat) : Move → Phase
  | .turn p => p
  | .launch closure args forward =>
    .running (.going (c.catalog.invoke (g.invocation n closure args))) forward
  | .finish o => .ended o

theorem move_stage (hs : g.stages[n]? = some s) (m : Move) :
    (g.move c n m).stages[n]? = some { s with phase := g.landing c n m } := by
  cases m <;> simp [Graph.move, finish, setPhase, landing, hs]

/-- A change keeps results, and what a stage was asked to do. -/
theorem Change.keeps {d : Option Deed} (h : Change c g d g') :
    Grows g g' ∧ ∀ (n : Nat) (s : Stage), g.stages[n]? = some s →
      ∃ s' : Stage, g'.stages[n]? = some s' ∧ s'.recipe = s.recipe := by
  have of_stages (hid : g'.id = g.id) (hkept : ∀ (n : Nat) (s : Stage), g.stages[n]? = some s →
      ∃ s' : Stage, g'.stages[n]? = some s' ∧ s'.recipe = s.recipe ∧
        ∀ o, s.phase.outcome? = some o → s'.phase.outcome? = some o) :
      Grows g g' ∧ ∀ (n : Nat) (s : Stage), g.stages[n]? = some s →
        ∃ s' : Stage, g'.stages[n]? = some s' ∧ s'.recipe = s.recipe := by
    refine ⟨⟨hid, ?_⟩, ?_⟩
    · intro n o ho
      obtain ⟨s, hs, ho⟩ := Option.bind_eq_some_iff.mp ho
      obtain ⟨s', hs', -, hsame⟩ := hkept n s hs
      exact Option.bind_eq_some_iff.mpr ⟨s', hs', hsame o ho⟩
    · intro n s hs
      obtain ⟨s', hs', hrecipe, -⟩ := hkept n s hs
      exact ⟨s', hs', hrecipe⟩
  rcases h.life_cases with
    ⟨s, id, -, hg', -⟩ | ⟨s, hg', -⟩ | ⟨m, s, move, hs, hm, rfl, -⟩ | ⟨hsame, -⟩
  · obtain ⟨-, -, rfl⟩ := allocate_eq_ok hg'
    refine of_stages rfl ?_
    intro n s' hs'
    have hlt := (List.getElem?_eq_some_iff.mp hs').1
    exact ⟨s', (List.getElem?_append_left hlt).trans hs', rfl, fun _ ho => ho⟩
  · obtain ⟨-, rfl⟩ := commit_eq_ok hg'
    refine of_stages (by simp) ?_
    intro n s' hs'
    exact ⟨s', by simpa using hs', rfl, fun _ ho => ho⟩
  · refine of_stages (move_id c g m move) ?_
    intro n s' hs'
    by_cases hne : m = n
    · subst hne
      obtain rfl := Option.some.inj (hs.symm.trans hs')
      refine ⟨_, move_stage hs move, rfl, ?_⟩
      intro o ho
      rw [hm.outcome?] at ho
      cases ho
    · exact ⟨s', (move_stage_ne hne move).trans hs', rfl, fun _ ho => ho⟩
  · refine of_stages hsame.id ?_
    intro n s' hs'
    exact ⟨s', by rw [hsame.stages]; exact hs', rfl, fun _ ho => ho⟩

theorem Grows.refl (g : Graph) : Grows g g := ⟨rfl, fun _ _ ho => ho⟩

theorem Grows.trans {g₁ g₂ g₃ : Graph} (h₁ : Grows g₁ g₂) (h₂ : Grows g₂ g₃) : Grows g₁ g₃ :=
  ⟨h₂.id.trans h₁.id, fun n o ho => h₂.outcome n o (h₁.outcome n o ho)⟩

theorem Changes.grows {ds : List Deed} (h : Changes c g ds g') : Grows g g' :=
  h.preserves (fun hgrows hchange => hgrows.trans hchange.keeps.1) (.refl g)

/-- No change takes a stage away or asks something else of it. -/
theorem Changes.recipe {ds : List Deed} (h : Changes c g ds g') (hs : g.stages[n]? = some s) :
    ∃ s', g'.stages[n]? = some s' ∧ s'.recipe = s.recipe := by
  refine h.preserves (P := fun g => ∃ s', g.stages[n]? = some s' ∧ s'.recipe = s.recipe) ?_
    ⟨s, hs, rfl⟩
  intro g₁ d g₂ hkept hchange
  obtain ⟨s₁, hs₁, hrecipe⟩ := hkept
  obtain ⟨s₂, hs₂, hrecipe'⟩ := hchange.keeps.2 n s₁ hs₁
  exact ⟨s₂, hs₂, hrecipe'.trans hrecipe⟩

end Graph

namespace World

open StageGraph.Graph (Call Moves Change Changes Grows)

variable {c : Completer} {w w' : World} {flow n : Nat} {g : Graph} {s : Stage}

/-! ## Stages of a completer -/

/-- The stage at a position of a flow. -/
def stage? (w : World) (flow n : Nat) : Option Stage :=
  (w.graph? flow).bind fun g => g.stages[n]?

theorem stage?_eq_some :
    w.stage? flow n = some s ↔ ∃ g, w.graph? flow = some g ∧ g.stages[n]? = some s :=
  Option.bind_eq_some_iff

theorem stage?_of_graph (hg : w.graph? flow = some g) : w.stage? flow n = g.stages[n]? := by
  rw [stage?, hg]
  rfl

theorem outcome?_of_graph (hg : w.graph? flow = some g) : w.outcome? flow n = g.outcome? n := by
  rw [outcome?, hg]
  rfl

theorem outcome?_of_stage (hs : w.stage? flow n = some s) :
    w.outcome? flow n = s.phase.outcome? := by
  obtain ⟨g, hg, hs⟩ := stage?_eq_some.mp hs
  rw [outcome?_of_graph hg, Graph.outcome?, hs]
  rfl

theorem Called.stage? {ds : List (Nat × Deed)} (h : Called c w w' ds)
    (hs : w.stage? flow n = some s) : w'.stage? flow n = some s := by
  obtain ⟨g, hg, hs⟩ := stage?_eq_some.mp hs
  obtain ⟨g₁, hg₁, rfl | ⟨d, hcall⟩⟩ := h.graph? hg
  · exact stage?_eq_some.mpr ⟨g₁, hg₁, hs⟩
  · exact stage?_eq_some.mpr ⟨g₁, hg₁, hcall.stage hs⟩

/-- A graph is replaced by one with the same stage. -/
theorem stage?_setGraph {m : Nat} {g' : Graph} (hg : w.graph? m = some g)
    (hkept : m = flow → g'.stages[n]? = g.stages[n]?) :
    (w.setGraph m g').stage? flow n = w.stage? flow n := by
  by_cases hm : m = flow
  · subst hm
    rw [stage?_of_graph (graph?_setGraph_self hg g'), stage?_of_graph hg, hkept rfl]
  · rw [World.stage?, graph?_setGraph_ne hm, World.stage?]

/-- A call adds stages, and adds them as calls make them. -/
theorem Called.fresh_stage {ds : List (Nat × Deed)} (h : Called c w w' ds)
    (hnone : w.stage? flow n = none) (hs : w'.stage? flow n = some s) : ∃ g, s.Fresh g := by
  obtain ⟨g', hg', hs'⟩ := stage?_eq_some.mp hs
  cases hg : w.graph? flow with
  | none =>
      obtain rfl := (h.fresh flow hg).2 g' hg'
      simp [Graph.new] at hs'
  | some g =>
      rw [stage?_of_graph hg] at hnone
      obtain ⟨g₁, hg₁, hcall⟩ := h.graph? hg
      obtain rfl := Option.some.inj (hg₁.symm.trans hg')
      rcases hcall with rfl | ⟨d, hcall⟩
      · rw [hnone] at hs'
        cases hs'
      · cases hcall with
        | allocate hfresh hallocate =>
            obtain ⟨-, -, rfl⟩ := Graph.allocate_eq_ok hallocate
            have hle := List.getElem?_eq_none_iff.mp hnone
            rw [List.getElem?_append_right hle] at hs'
            obtain rfl := List.mem_singleton.mp (List.mem_of_getElem? hs')
            exact ⟨g, hfresh⟩
        | addHook closure =>
            rw [Graph.addHook_eq, hnone] at hs'
            cases hs'
        | commit hcommit =>
            obtain ⟨-, rfl⟩ := Graph.commit_eq_ok hcommit
            rw [Graph.endIfDue_stages, hnone] at hs'
            cases hs'
        | remove _ =>
            rw [hnone] at hs'
            cases hs'

/-! ## Steps of a stage -/

/-- The task of a stage takes a step from one state to another, by a move for which its body may
have asked a question. -/
structure Steps (c : Completer) (flow n : Nat) (w : World) (g : Graph) (s : Stage) (m : Move)
    (w' : World) : Prop where
  graph : w.graph? flow = some g
  stage : g.stages[n]? = some s
  move : ∃ w₁, w.move? c g s = some (w₁, m)
  landing : w'.stage? flow n = some { s with phase := g.landing c n m }

theorem StageActs.steps {m : Move} {w₁ : World} {g₁ : Graph}
    (h : StageActs c w flow n g s m w₁ g₁) :
    Steps c flow n w g s m (w₁.setGraph flow (g₁.move c n m)) := by
  refine ⟨h.graph, h.stage, ⟨w₁, h.move⟩, ?_⟩
  have hid : g₁.id = g.id := by
    rcases h.call with rfl | ⟨d, hcall⟩
    · rfl
    · exact (Change.call (c := c) hcall).keeps.1.id
  have hlanding : g.landing c n m = g₁.landing c n m := by
    cases m <;> simp [Graph.landing, Graph.invocation, hid]
  rw [stage?_of_graph (graph?_setGraph_self h.graph₁ _), hlanding]
  exact Graph.move_stage h.stage₁ m

/-- A step of the task of a stage that is there. -/
theorem steps_of_step (hs : w.stage? flow n = some s) (h : w.step c (.stage flow n) = some w') :
    ∃ g m, Steps c flow n w g s m w' := by
  cases fires_of_step h with
  | stage hacts =>
      obtain rfl := Option.some.inj (hs.symm.trans ((stage?_of_graph hacts.graph).trans hacts.stage))
      exact ⟨_, _, hacts.steps⟩

/-- A stage that has a move makes it in a step of its task. -/
theorem StageDoes.steps {w₁ : World} {m : Move} (h : StageDoes c w g s w₁ m)
    (hg : w.graph? flow = some g) (hs : g.stages[n]? = some s) :
    ∃ w', w.fire c (.task (.stage flow n)) = some w' ∧ Steps c flow n w g s m w' := by
  obtain ⟨g₁, hacts⟩ := stageActs_of_move? hg hs h.move?_eq
  exact ⟨_, (Fires.stage hacts).fire, hacts.steps⟩

section Steps

variable {m : Move} (h : Steps c flow n w g s m w')

include h

theorem Steps.does : ∃ w₁, StageDoes c w g s w₁ m := h.move.imp fun _ => stageDoes_of_move?

theorem Steps.acts : ∃ w₁ g₁, StageActs c w flow n g s m w₁ g₁ :=
  h.move.imp fun _ => stageActs_of_move? h.graph h.stage

/-- A stage makes no other move than the one that it has. -/
theorem Steps.move_eq {w₁ : World} {m' : Move} (hdoes : StageDoes c w g s w₁ m') : m = m' := by
  obtain ⟨w₂, hmove⟩ := h.move
  exact (Prod.mk.inj (Option.some.inj (hmove.symm.trans hdoes.move?_eq))).2

theorem Steps.not_waits : ¬w.StageWaits g s.deps s.phase := by
  obtain ⟨w₁, hmove⟩ := h.move
  intro hwaits
  rw [move?_eq_none_iff.mpr hwaits] at hmove
  cases hmove

theorem Steps.of_choosing (hphase : s.phase = .choosing) :
    ∃ o, s.deps.findSome? g.outcome? = some o ∧ m = s.resolve [o] := by
  cases ho : s.deps.findSome? g.outcome? with
  | some o => exact ⟨o, rfl, h.move_eq (.choose hphase ho)⟩
  | none => exact absurd (hphase ▸ .anyInput (List.findSome?_eq_none_iff.mp ho)) h.not_waits

theorem Steps.of_adopting {target : Nat} (hphase : s.phase = .adopting target) :
    ∃ o, g.outcome? target = some o ∧ m = .finish o := by
  cases ho : g.outcome? target with
  | some o => exact ⟨o, rfl, h.move_eq (.adopt hphase ho)⟩
  | none => exact absurd (hphase ▸ .target ho) h.not_waits

theorem Steps.of_delayed {moment : Nat} (hphase : s.phase = .delayed moment) :
    moment ≤ w.clock ∧ m = .finish .empty := by
  by_cases hdue : moment ≤ w.clock
  · exact ⟨hdue, h.move_eq (.wake hphase hdue)⟩
  · exact absurd (hphase ▸ .moment (Nat.lt_of_not_le hdue)) h.not_waits

end Steps

/-- An event that is not a step of the stage's task is, for the stage, at most one call. -/
theorem called_of_fire {e : Event} (h : w.fire c e = some w')
    (hne : e ≠ .task (.stage flow n)) :
    ∃ w₁ ds, Called c w w₁ ds ∧ w'.stage? flow n = w₁.stage? flow n := by
  cases fire_eq_some_iff.mp h with
  | call r => exact ⟨_, _, .call c w r, rfl⟩
  | removeFlow id => exact ⟨_, _, .removeFlow c w id, rfl⟩
  | clock | log | ran => exact ⟨w, [], .same rfl, rfl⟩
  | @stage m k _ _ _ move w₁ hacts =>
      refine ⟨w₁, _, hacts.called, stage?_setGraph hacts.graph₁ ?_⟩
      intro hflow
      refine Graph.move_stage_ne ?_ move
      intro hk
      exact hne (by rw [hflow, hk])
  | begin hg | skip hg => exact ⟨w, [], .same rfl, stage?_setGraph hg fun _ => rfl⟩
  | @drain _ _ _ _ _ _ move w₁ hacts =>
      refine ⟨w₁, _, hacts.called, stage?_setGraph hacts.graph₁ ?_⟩
      intro _
      cases move <;> rfl

/-- An event that is not a step of the stage's task leaves the stage as it is. -/
theorem stage?_of_fire {e : Event} (h : w.fire c e = some w') (hne : e ≠ .task (.stage flow n))
    (hs : w.stage? flow n = some s) : w'.stage? flow n = some s := by
  obtain ⟨w₁, ds, hcalled, hsame⟩ := called_of_fire h hne
  exact hsame.trans (hcalled.stage? hs)

/-- An event leaves a stage as it is, or it is a step of the stage's task. -/
theorem stage_of_fire {e : Event} (h : w.fire c e = some w') (hs : w.stage? flow n = some s) :
    w'.stage? flow n = some s ∨
      e = .task (.stage flow n) ∧ ∃ g m, Steps c flow n w g s m w' := by
  by_cases he : e = .task (.stage flow n)
  · subst he
    exact .inr ⟨rfl, steps_of_step hs h⟩
  · exact .inl (stage?_of_fire h he hs)

/-- A stage that is new after an event is as a call makes it. -/
theorem fresh_of_fire {e : Event} (h : w.fire c e = some w') (hnone : w.stage? flow n = none)
    (hs : w'.stage? flow n = some s) : ∃ g, s.Fresh g := by
  have hne : e ≠ .task (.stage flow n) := by
    rintro rfl
    obtain ⟨g, hg, h⟩ := Option.bind_eq_some_iff.mp h
    obtain ⟨s', hs', -⟩ := Option.bind_eq_some_iff.mp h
    rw [stage?_of_graph hg, hs'] at hnone
    cases hnone
  obtain ⟨w₁, ds, hcalled, hsame⟩ := called_of_fire h hne
  exact hcalled.fresh_stage hnone (hsame ▸ hs)

/-! ## Runs -/

theorem run_append (w : World) (es es' : List Event) :
    w.run c (es ++ es') = (w.run c es).bind fun w' => w'.run c es' := by
  induction es generalizing w with
  | nil => rfl
  | cons e es ih =>
      simp only [List.cons_append, run, Option.bind_assoc]
      congr 1
      funext w₁
      exact ih w₁

theorem run_trans {w₁ : World} {es es' : List Event} (h : w.run c es = some w₁)
    (h' : w₁.run c es' = some w') : w.run c (es ++ es') = some w' := by
  rw [run_append, h, Option.bind_some, h']

/-- A run keeps results, and what stages were asked to do. -/
theorem grows_of_run {es : List Event} (h : w.run c es = some w') (hg : w.graph? flow = some g) :
    ∃ g', w'.graph? flow = some g' ∧ Grows g g' := by
  obtain ⟨g', hg', hchanges⟩ := changes_of_run h hg
  exact ⟨g', hg', hchanges.grows⟩

/-- The result of a stage is the same in every later state. -/
theorem outcome?_of_run {es : List Event} {o : Outcome} (h : w.run c es = some w')
    (ho : w.outcome? flow n = some o) : w'.outcome? flow n = some o := by
  obtain ⟨g, hg, ho⟩ := Option.bind_eq_some_iff.mp ho
  obtain ⟨g', hg', hgrows⟩ := grows_of_run h hg
  rw [outcome?_of_graph hg']
  exact hgrows.outcome n o ho

/-- A stage stays, and stays what it was asked to be. -/
theorem recipe_of_run {es : List Event} (h : w.run c es = some w') (hs : w.stage? flow n = some s) :
    ∃ s', w'.stage? flow n = some s' ∧ s'.recipe = s.recipe := by
  obtain ⟨g, hg, hs⟩ := stage?_eq_some.mp hs
  obtain ⟨g', hg', hchanges⟩ := changes_of_run h hg
  obtain ⟨s', hs', hrecipe⟩ := hchanges.recipe hs
  exact ⟨s', (stage?_of_graph hg').trans hs', hrecipe⟩

theorem run_fire {e : Event} (h : w.fire c e = some w') : w.run c [e] = some w' := by
  simp [run, h]

/-- What holds of a stage in some state, and is kept by steps of its task and by all other events,
holds of it in every later state. -/
theorem run_stage_own {P : World → Stage → Prop}
    (kept : ∀ {w e w' s}, P w s → w.fire c e = some w' → e ≠ .task (.stage flow n) → P w' s)
    (stepped : ∀ {w g s m w'}, P w s → w.fire c (.task (.stage flow n)) = some w' →
      Steps c flow n w g s m w' → P w' { s with phase := g.landing c n m })
    {es : List Event} (h : w.run c es = some w') (hs : w.stage? flow n = some s) (hP : P w s) :
    ∃ s', w'.stage? flow n = some s' ∧ P w' s' := by
  induction es generalizing w s with
  | nil =>
      obtain rfl := Option.some.inj h
      exact ⟨s, hs, hP⟩
  | cons e es ih =>
      obtain ⟨w₁, hfire, hrun⟩ := Option.bind_eq_some_iff.mp h
      by_cases he : e = .task (.stage flow n)
      · subst he
        obtain ⟨g, m, hsteps⟩ := steps_of_step hs hfire
        exact ih hrun hsteps.landing (stepped hP hfire hsteps)
      · exact ih hrun (stage?_of_fire hfire he hs) (kept hP hfire he)

/-- What holds of a stage in some state, and is kept by events and steps of its task, holds of it in
every later state. -/
theorem run_stage {P : World → Stage → Prop}
    (kept : ∀ {w e w' s}, P w s → w.fire c e = some w' → P w' s)
    (stepped : ∀ {w g s m w'}, P w s → w.fire c (.task (.stage flow n)) = some w' →
      Steps c flow n w g s m w' → P w' { s with phase := g.landing c n m })
    {es : List Event} (h : w.run c es = some w') (hs : w.stage? flow n = some s) (hP : P w s) :
    ∃ s', w'.stage? flow n = some s' ∧ P w' s' :=
  run_stage_own (fun hP hfire _ => kept hP hfire) stepped h hs hP

/-- What holds of every new stage, and is kept by events and steps of its task, holds of a stage in
every state; it may be about the run that has led there. -/
theorem run_life (flow n : Nat) {P : List Event → World → Stage → Prop}
    (born : ∀ {es w g s}, World.empty.run c es = some w → s.Fresh g → P es w s)
    (kept : ∀ {es w e w' s}, World.empty.run c es = some w → P es w s → w.fire c e = some w' →
      P (es ++ [e]) w' s)
    (stepped : ∀ {es w g s m w'}, World.empty.run c es = some w → P es w s →
      w.fire c (.task (.stage flow n)) = some w' → Steps c flow n w g s m w' →
      P (es ++ [.task (.stage flow n)]) w' { s with phase := g.landing c n m })
    {es : List Event} (h : World.empty.run c es = some w) (hs : w.stage? flow n = some s) :
    P es w s := by
  induction es using List.reverseRecOn generalizing w s with
  | nil =>
      obtain rfl := Option.some.inj h
      cases hs
  | append_singleton es e ih =>
      have hrun := h
      rw [run_append] at h
      obtain ⟨w₁, hw₁, hlast⟩ := Option.bind_eq_some_iff.mp h
      obtain ⟨w₂, hfire, hnil⟩ := Option.bind_eq_some_iff.mp hlast
      obtain rfl := Option.some.inj hnil
      cases hs₁ : w₁.stage? flow n with
      | none =>
          obtain ⟨g, hfresh⟩ := fresh_of_fire hfire hs₁ hs
          exact born hrun hfresh
      | some s₁ =>
          rcases stage_of_fire hfire hs₁ with hsame | ⟨rfl, g, m, hsteps⟩
          · obtain rfl := Option.some.inj (hs.symm.trans hsame)
            exact kept hw₁ (ih hw₁ hs₁) hfire
          · obtain rfl := Option.some.inj (hs.symm.trans hsteps.landing)
            exact stepped hw₁ (ih hw₁ hs₁) hfire hsteps

end World

/-- A completer whose only body names a stage. -/
def Completer.naming (stage : StageId) : Completer :=
  { plain with catalog := ⟨[("name", ⟨.composer, fun _ _ => pure (.stageRef stage)⟩)]⟩ }

/-- The body asks nothing, and if it names a stage it is this one. -/
theorem Completer.invoke_naming (stage : StageId) (r : Invocation) :
    ∃ o, (naming stage).catalog.invoke r = .done o ∧
      ∀ target, o.compose = .adopt target → target = stage := by
  unfold Catalog.invoke
  cases hk : (naming stage).catalog.find? r.closure.entry with
  | none => exact ⟨_, rfl, nofun⟩
  | some k =>
      simp only [naming, Catalog.find?, List.find?_cons, List.find?_nil] at hk
      split at hk
      · obtain rfl := Option.some.inj hk
        simp only
        split
        · refine ⟨_, rfl, ?_⟩
          rintro target ⟨⟩
          rfl
        · exact ⟨_, rfl, nofun⟩
      · cases hk

end StageGraph
