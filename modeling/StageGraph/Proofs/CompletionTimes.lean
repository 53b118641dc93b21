/-
# `StageGraph.Proofs.CompletionTimes` — when stages end

A punctual run settles between two moments, so a stage ends at the very moment at which it can.
When that is follows from when it was made and when its inputs end.  A delay ends when its time is
over; a stage that waits for all its inputs ends with the last of them, or when it is made, if that
is later; one that adopts another stage ends not before that one; and one that waits for the first
of its inputs ends with the first of them (`World.Timely`).

Bodies may take time of their own, and then the stage takes as much.  So the rules are about stages
whose body is never under way where everything has settled (`World.Instant`); bodies that neither
sleep nor wait are of this kind (`World.instant_of_prompt`).

Which input a stage goes by that waits for the first one is decided by the step in which it goes
on.  Between two moments tasks take their steps in any order, so the inputs that end at one moment
do so in any order, too, and the rule is about stages for which no two inputs tie
(`World.Untied`).
-/
import StageGraph.Proofs.PunctualRun
import StageGraph.Proofs.StageNames

namespace StageGraph

/-! ## Bodies that take no time -/

/-- The question is answered on the spot. -/
def Question.AtOnce : Question bodySignature → Prop
  | .sleep _ => False
  | .call (.awaitStage ..) => False
  | _ => True

/-- The program neither sleeps nor waits for a stage. -/
def Program.Prompt {α : Type} : FlowProgram bodySignature α → Prop
  | .ask q next => q.AtOnce ∧ ∀ a, (next a).Prompt
  | _ => True

namespace World

open Clockwork

variable {c : Completer} {w v w₀ w₁ : World} {flow n d target : Nat} {g : Graph} {s s' : Stage}
  {e : Event} {es : List Event} {x : Nat}

/-- Wherever everything has settled, the body of the stage is not under way. -/
def Instant (c : Completer) (es : List Event) (flow n : Nat) : Prop :=
  ∀ {v s t forward}, Visits c es v → v.Idle c → v.stage? flow n = some s →
    s.phase ≠ .running t forward

theorem pose_atOnce {q : Question bodySignature} (hq : q.AtOnce) :
    ∃ a, (w.pose c q).2 = .going a := by
  cases q with
  | call r =>
      cases r with
      | awaitStage flow stage timeout => cases hq
      | _ => exact ⟨_, rfl⟩
  | sleep d => cases hq
  | other q => cases q with | removeFlow flow => exact ⟨_, rfl⟩
  | _ => exact ⟨_, rfl⟩

/-- Bodies that neither sleep nor wait take no time. -/
theorem instant_of_prompt (h : ∀ r, r.flow = c.flowName flow → (c.catalog.invoke r).Prompt) :
    Instant c es flow n := by
  intro v s t forward hv hidle hs hphase
  obtain ⟨g, hg, hgs⟩ := stage?_eq_some.mp hs
  obtain ⟨p, rfl, -⟩ : ∃ p, t = .going p ∧ p.Prompt := by
    refine body_of_reachable (P := fun m t => m = flow → ∃ p, t = .going p ∧ p.Prompt) ?_ ?_
      hv.reachable hg (.stage hgs hphase) rfl
    · rintro m r hr rfl
      exact ⟨_, rfl, h r hr⟩
    · rintro w m t q next - ht hresume rfl
      obtain ⟨p, rfl, hp⟩ := ht rfl
      obtain rfl := Option.some.inj hresume
      obtain ⟨a, ha⟩ := pose_atOnce (c := c) (w := w) hp.1
      exact ⟨next a, by rw [ha]; rfl, hp.2 a⟩
  have hwaits := hidle.waits hg hgs
  rw [hphase] at hwaits
  cases hwaits with
  | body _ hnone => cases hnone

/-! ## Terminal stages, and new ones -/

/-- The stage is there. -/
def Present (flow n : Nat) (v : World) : Prop := (v.stage? flow n).isSome

/-- The stage is terminal. -/
def Ended (flow n : Nat) (v : World) : Prop := (v.outcome? flow n).isSome

/-- In the run, the time at which the stage ends. -/
abbrev CompletesAt (c : Completer) (es : List Event) (flow n : Nat) (x : Nat) : Prop :=
  Since c es (Ended flow n) x

theorem lasting_present (flow n : Nat) : Lasting c (Present flow n) := by
  refine ⟨?_⟩
  intro v v' es hrun hv
  obtain ⟨s, hs⟩ := Option.isSome_iff_exists.mp hv
  obtain ⟨s', hs', -⟩ := recipe_of_run hrun hs
  exact Option.isSome_iff_exists.mpr ⟨s', hs'⟩

theorem lasting_ended (flow n : Nat) : Lasting c (Ended flow n) := by
  refine ⟨?_⟩
  intro v v' es hrun hv
  obtain ⟨o, ho⟩ := Option.isSome_iff_exists.mp hv
  exact Option.isSome_iff_exists.mpr ⟨o, outcome?_of_run hrun ho⟩

theorem Ended.present (h : Ended flow n v) : Present flow n v := by
  obtain ⟨o, ho⟩ := Option.isSome_iff_exists.mp h
  obtain ⟨g, hg, ho⟩ := Option.bind_eq_some_iff.mp ho
  obtain ⟨s, hs, -⟩ := Option.bind_eq_some_iff.mp ho
  exact Option.isSome_iff_exists.mpr ⟨s, (stage?_of_graph hg).trans hs⟩

/-- The stage is made in an event of the run, which leads from one state to another. -/
structure Born (c : Completer) (es : List Event) (flow n : Nat) (w₀ : World) (e : Event)
    (w₁ : World) : Prop where
  event : ∃ first rest, es = first ++ e :: rest ∧ World.empty.run c first = some w₀
  fire : w₀.fire c e = some w₁
  absent : w₀.stage? flow n = none
  present : Present flow n w₁

theorem Born.step (h : Born c es flow n w₀ e w₁) : (clockwork c).Step es w₀ e w₁ := by
  obtain ⟨first, rest, hes, hrun⟩ := h.event
  exact ⟨first, rest, hes, hrun, h.fire⟩

theorem Born.visits (h : Born c es flow n w₀ e w₁) : Visits c es w₁ := h.step.right

/-- A state in which the stage is there is not one before its making. -/
theorem Born.passes (h : Born c es flow n w₀ e w₁) (hv : Visits c es v)
    (hpresent : Present flow n v) : Passes c es w₁ v := by
  rcases h.step.parts hv with hpasses | hpasses
  · have hthere := (lasting_present flow n).passes hpasses hpresent
    rw [Present, h.absent] at hthere
    cases hthere
  · exact hpasses

/-- A stage is there since it was made. -/
theorem Born.since (h : Born c es flow n w₀ e w₁) : Since c es (Present flow n) w₁.clock := by
  refine ⟨⟨w₁, h.visits, h.present, rfl⟩, ?_⟩
  rintro m ⟨v, hv, hpresent, rfl⟩
  exact (h.passes hv hpresent).clock_le

/-- No time passes while a stage is made. -/
theorem Born.clock (h : Born c es flow n w₀ e w₁) : w₁.clock = w₀.clock := by
  rcases clock_of_fire h.fire with hsame | ⟨rfl, -⟩
  · exact hsame
  · obtain ⟨-, hw₁⟩ := Option.ite_none_right_eq_some.mp h.fire
    have hthere : Present flow n w₀ := by
      have hpresent := h.present
      rwa [← Option.some.inj hw₁] at hpresent
    rw [Present, h.absent] at hthere
    cases hthere

/-- The stage is the next one of its flow, as a call wants it. -/
theorem Born.made (h : Born c es flow n w₀ e w₁) :
    ∃ g r s, w₀.graph? flow = some g ∧ n = g.stages.length ∧ w₀.request? e = some r ∧
      w₀.Wants g r s ∧ w₁.stage? flow n = some s := by
  obtain ⟨s, hs⟩ := Option.isSome_iff_exists.mp h.present
  obtain ⟨g₁, hg₁, hs⟩ := stage?_eq_some.mp hs
  have hlt : n < w₁.total flow := by
    rw [total_of_graph hg₁]
    exact (List.getElem?_eq_some_iff.mp hs).1
  have hle : w₀.total flow ≤ n := by
    cases hg : w₀.graph? flow with
    | none => simp [total, size, hg]
    | some g =>
        rw [total_of_graph hg]
        exact List.getElem?_eq_none_iff.mp ((stage?_of_graph hg).symm.trans h.absent)
  rcases grants_of_fire h.fire flow with ⟨-, htotal⟩ | ⟨hgrants, htotal⟩
  · omega
  · obtain rfl : n = w₀.total flow := by omega
    obtain ⟨g, r, s, hg, hr, hwants, -, hadds⟩ :=
      made_of_grants h.fire (hgrants ▸ List.mem_singleton_self _)
    rw [total_of_graph hg]
    exact ⟨g, r, s, hg, rfl, hr, hwants, hadds.stage⟩

theorem Born.reachable (h : Born c es flow n w₀ e w₁) : w₀.Reachable c := by
  obtain ⟨first, -, -, hrun⟩ := h.event
  exact ⟨first, hrun⟩

/-- The inputs of a stage are there before it. -/
theorem Born.older (h : Born c es flow n w₀ e w₁) (hrun : World.empty.run c es = some w)
    (hs : w.stage? flow n = some s) (hd : d ∈ s.deps) : (w₀.stage? flow d).isSome := by
  obtain ⟨g', hg', hgs⟩ := stage?_eq_some.mp hs
  have hlt := (traced_of_reachable ⟨es, hrun⟩ hg' n s hgs).1 d hd
  obtain ⟨g, -, -, hg, rfl, -⟩ := h.made
  rw [stage?_of_graph hg, List.getElem?_eq_getElem hlt]
  rfl

/-- What a stage was asked to do is the same in every state in which it is there. -/
theorem Visits.recipe (h : Visits c es v) (hrun : World.empty.run c es = some w)
    (hv : v.stage? flow n = some s') (hs : w.stage? flow n = some s) : s'.recipe = s.recipe := by
  obtain ⟨rest, hrest⟩ := (h.passes_last hrun).run
  obtain ⟨s'', hs'', hrecipe⟩ := recipe_of_run hrest hv
  obtain rfl := Option.some.inj (hs''.symm.trans hs)
  exact hrecipe.symm

/-! ## Where everything has settled -/

/-- What a stage waits for where everything has settled, by its phase, if it is resolved from its
inputs and its body takes no time. -/
inductive Awaits (v : World) (flow : Nat) (k : Recipe) : Phase → Prop
  | nothing (o : Outcome) : Awaits v flow k (.ended o)
  | input {p : Phase} {d : Nat} : k.operation.readiness ≠ .firstInput → d ∈ k.deps →
      ¬Ended flow d v → Awaits v flow k p
  | anyInput {p : Phase} : k.operation.readiness = .firstInput →
      (∀ d ∈ k.deps, ¬Ended flow d v) → Awaits v flow k p
  | adopted {target : Nat} : ¬Ended flow target v → Awaits v flow k (.adopting target)

theorem Idle.awaits (h : v.Idle c) (hv : Visits c es v) (hs : v.stage? flow n = some s)
    (hown : s.operation.hasOwnCall = false) (hinstant : Instant c es flow n) :
    Awaits v flow s.recipe s.phase := by
  obtain ⟨g, hg, hgs⟩ := stage?_eq_some.mp hs
  have htraced := traced_of_reachable hv.reachable hg
  have hwaits := h.waits hg hgs
  have pending {d : Nat} (hd : g.outcome? d = none) : ¬Ended flow d v := by
    simp [Ended, outcome?_of_graph hg, hd]
  generalize hphase : s.phase = p at hwaits ⊢
  cases hwaits with
  | nothing o => exact .nothing o
  | moment _ => rw [htraced.delays hgs hphase] at hown; cases hown
  | input _ _ hnone =>
      obtain ⟨hd, hall⟩ := htraced.next_mem hgs hphase
      exact .input hall hd (pending hnone)
  | anyInput hnone =>
      exact .anyInput (htraced.chooses hgs hphase).2 fun d hd => pending (hnone d hd)
  | body _ _ => exact absurd hphase (hinstant hv h hs)
  | target hnone => exact .adopted (pending hnone)

/-- What holds of a stage in the end holds of it wherever everything has settled. -/
theorem Idle.awaits_of_last (h : v.Idle c) (hv : Visits c es v) (hpresent : Present flow n v)
    (hrun : World.empty.run c es = some w) (hs : w.stage? flow n = some s)
    (hown : s.operation.hasOwnCall = false) (hinstant : Instant c es flow n) :
    ∃ s', v.stage? flow n = some s' ∧ Awaits v flow s.recipe s'.phase := by
  obtain ⟨s', hs'⟩ := Option.isSome_iff_exists.mp hpresent
  have hrecipe := hv.recipe hrun hs' hs
  have hown' : s'.operation.hasOwnCall = false := by
    rwa [show s'.operation = s.operation from congrArg Recipe.operation hrecipe]
  exact ⟨s', hs', hrecipe ▸ h.awaits hv hs' hown' hinstant⟩

/-! ## Delays -/

/-- The request for a delay has made a stage that waits until its time is over. -/
theorem Born.delayed {id : FlowId} {span : Duration} (h : Born c es flow n w₀ e w₁)
    (hr : w₀.request? e = some (.addDelay id span)) :
    w₁.stage? flow n = some ⟨.delay, none, [], .delayed (w₀.after span)⟩ := by
  obtain ⟨g, r, s, -, -, hr', hwants, hs⟩ := h.made
  obtain rfl := Option.some.inj (hr.symm.trans hr')
  cases hwants
  exact hs

/-- A delay is pending until its time is over, and ends then. -/
theorem delay_cases {moment : Nat} {es' : List Event} {op : Operation} {closure : Option Closure}
    {deps : List Nat} (hrun : w.run c es' = some v)
    (hs : w.stage? flow n = some ⟨op, closure, deps, .delayed moment⟩) :
    ∃ s, v.stage? flow n = some s ∧
      (s.phase = .delayed moment ∨ s.phase = .ended .empty ∧ moment ≤ v.clock) := by
  refine run_stage (P := fun v s => s.phase = .delayed moment ∨
    s.phase = .ended .empty ∧ moment ≤ v.clock) ?_ ?_ hrun hs (.inl rfl)
  · rintro v e v' s hP hfire
    exact hP.imp_right fun ⟨hphase, hle⟩ => ⟨hphase, hle.trans (clock_le_of_fire hfire)⟩
  · rintro v g s m v' (hphase | ⟨hphase, -⟩) hfire hsteps
    · obtain ⟨hle, rfl⟩ := hsteps.of_delayed hphase
      exact .inr ⟨rfl, hle.trans (clock_le_of_fire hfire)⟩
    · exact absurd (hphase ▸ .nothing .empty) hsteps.not_waits

/-- Before its moment is over a delay has ended, at this moment. -/
theorem delay_settled {moment : Nat} {op : Operation} {closure : Option Closure} {deps : List Nat}
    (hpunctual : World.empty.Punctual c es) (hpasses : Passes c es w₁ v)
    (hs : w₁.stage? flow n = some ⟨op, closure, deps, .delayed moment⟩)
    (hle : w₁.clock ≤ moment) (hlt : moment < v.clock) :
    ∃ u, Passes c es u v ∧ Ended flow n u ∧ u.clock = moment := by
  obtain ⟨u, hbefore, hafter, -, hclock, hdue⟩ := hpasses.settles hpunctual hle hlt
  obtain ⟨middle, hmiddle⟩ := hbefore.run
  obtain ⟨s, hs, hphase | ⟨hphase, hmoment⟩⟩ := delay_cases hmiddle hs
  · -- It still waits for a moment that is not later, and time does not pass beyond it.
    have hmem : moment ∈ u.momentsOf (.stage flow n) := by
      obtain ⟨g, hg, hgs⟩ := stage?_eq_some.mp hs
      simp [momentsOf, hg, hgs, hphase, Phase.moment?]
    exact absurd (hdue _ ⟨_, hmem⟩) (Nat.lt_irrefl moment)
  · have hended : Ended flow n u := by simp [Ended, outcome?_of_stage hs, hphase, Phase.outcome?]
    exact ⟨u, hafter, hended, Nat.le_antisymm hclock hmoment⟩

/-! ## Stages that are resolved from their inputs -/

/-- In some state of the run, the stage waits for another one, whose result it takes. -/
def Adopts (c : Completer) (es : List Event) (flow n target : Nat) : Prop :=
  ∃ v s, Visits c es v ∧ v.stage? flow n = some s ∧ s.phase = .adopting target

/-- A stage that waits for the one that it adopts stays so until it ends. -/
theorem adopting_of_passes (h : Passes c es w v) (hw : w.stage? flow n = some s')
    (hadopting : s'.phase = .adopting target) (hs : v.stage? flow n = some s) :
    s.phase = .adopting target ∨ ∃ o, s.phase = .ended o := by
  obtain ⟨middle, hrun⟩ := h.run
  obtain ⟨s₁, hs₁, hbound⟩ := Bound.run hrun hw (.inl hadopting)
  obtain rfl := Option.some.inj (hs₁.symm.trans hs)
  exact hbound.imp_right fun ⟨o, hphase, _⟩ => ⟨o, hphase⟩

/-- A stage adopts only one. -/
theorem Adopts.unique {target' : Nat} (h : Adopts c es flow n target)
    (h' : Adopts c es flow n target') : target = target' := by
  obtain ⟨v, s, hv, hs, hphase⟩ := h
  obtain ⟨v', s', hv', hs', hphase'⟩ := h'
  rcases hv.linked hv' with hpasses | hpasses
  · rcases adopting_of_passes hpasses hs hphase hs' with h | ⟨o, h⟩ <;> cases h.symm.trans hphase'
    rfl
  · rcases adopting_of_passes hpasses hs' hphase' hs with h | ⟨o, h⟩ <;> cases h.symm.trans hphase
    rfl

/-- A stage that adopts another one ends only if that one has ended. -/
theorem Adopts.ended (h : Adopts c es flow n target) (hv : Visits c es v)
    (hended : Ended flow n v) : Ended flow target v := by
  obtain ⟨u, s, hu, hs, hphase⟩ := h
  rcases hu.linked hv with hpasses | hpasses
  · obtain ⟨middle, hrun⟩ := hpasses.run
    obtain ⟨o, ho⟩ := Option.isSome_iff_exists.mp hended
    exact Option.isSome_iff_exists.mpr ⟨o, adopts_outcome hrun hs hphase ho⟩
  · have hlast := (lasting_ended flow n).passes hpasses hended
    simp [Ended, outcome?_of_stage hs, hphase, Phase.outcome?] at hlast

/-- Only a stage that runs a body for it adopts another one. -/
theorem Adopts.adopts (h : Adopts c es flow n target) (hrun : World.empty.run c es = some w)
    (hs : w.stage? flow n = some s) : s.operation.adopts = true := by
  obtain ⟨v, s', hv, hs', hphase⟩ := h
  have hrecipe := hv.recipe hrun hs' hs
  obtain ⟨g, hg, hgs⟩ := stage?_eq_some.mp hs'
  rw [show s.operation = s'.operation from congrArg Recipe.operation hrecipe.symm]
  exact (traced_of_reachable hv.reachable hg).adopts hgs hphase

/-- A stage ends only if its inputs have ended, or one of them if it waits for the first. -/
theorem Ended.inputs (hended : Ended flow n v) (hv : Visits c es v)
    (hrun : World.empty.run c es = some w) (hs : w.stage? flow n = some s)
    (hown : s.operation.hasOwnCall = false) :
    (s.operation.readiness ≠ .firstInput → ∀ d ∈ s.deps, Ended flow d v) ∧
      (s.operation.readiness = .firstInput → ∃ d ∈ s.deps, Ended flow d v) := by
  obtain ⟨s', hs'⟩ := Option.isSome_iff_exists.mp hended.present
  have hrecipe := hv.recipe hrun hs' hs
  obtain ⟨g, hg, hgs⟩ := stage?_eq_some.mp hs'
  have houtcome (d : Nat) : v.outcome? flow d = g.outcome? d := outcome?_of_graph hg
  simp only [Ended, houtcome] at hended ⊢
  have hown' : s'.operation.hasOwnCall = false := by
    rwa [show s'.operation = s.operation from congrArg Recipe.operation hrecipe]
  obtain ⟨inputs, hready⟩ := ready_of_terminal hv.reachable hg hgs hown' hended
  rw [hrecipe] at hready
  exact ⟨hready.all_ended, hready.some_ended⟩

/-- Where everything has settled, a stage that has what it waits for has ended, or adopts a stage
that has not. -/
theorem Idle.ended_or_adopts (h : v.Idle c) (hv : Visits c es v) (hpresent : Present flow n v)
    (hrun : World.empty.run c es = some w) (hs : w.stage? flow n = some s)
    (hown : s.operation.hasOwnCall = false) (hinstant : Instant c es flow n)
    (hall : s.operation.readiness ≠ .firstInput → ∀ d ∈ s.deps, Ended flow d v)
    (hfirst : s.operation.readiness = .firstInput → ∃ d ∈ s.deps, Ended flow d v) :
    Ended flow n v ∨ ∃ target, Adopts c es flow n target ∧ ¬Ended flow target v := by
  obtain ⟨s', hs', hawaits⟩ := h.awaits_of_last hv hpresent hrun hs hown hinstant
  generalize hphase : s'.phase = p at hawaits
  cases hawaits with
  | nothing o => exact .inl (by simp [Ended, outcome?_of_stage hs', hphase, Phase.outcome?])
  | input hnot hd hpending => exact absurd (hall hnot _ hd) hpending
  | anyInput hone hpending =>
      obtain ⟨d, hd, hended⟩ := hfirst hone
      exact absurd hended (hpending d hd)
  | adopted hpending => exact .inr ⟨_, ⟨v, s', hv, hs', hphase⟩, hpending⟩

/-- A stage that waits for the first of its inputs has ended where everything has settled, if one of
them has. -/
theorem Idle.ended_of_input (h : v.Idle c) (hv : Visits c es v)
    (hrun : World.empty.run c es = some w) (hs : w.stage? flow n = some s)
    (hfirst : s.operation.readiness = .firstInput) (hinstant : Instant c es flow n)
    (hinput : Present flow n v ∧ ∃ d ∈ s.deps, Ended flow d v) : Ended flow n v := by
  obtain ⟨hown, hnot⟩ := Operation.of_firstInput hfirst
  rcases h.ended_or_adopts hv hinput.1 hrun hs hown hinstant (absurd hfirst) fun _ => hinput.2 with
    hended | ⟨target, hadopts, -⟩
  · exact hended
  · rw [hadopts.adopts hrun hs] at hnot
    cases hnot

/-! ## The rules -/

/-- The times at which a stage is ready that was made at the moment `t` and waits for all its
inputs: then, or when the last of them ends. -/
def ReadyAt (c : Completer) (es : List Event) (flow : Nat) (deps : List Nat) (t x : Nat) : Prop :=
  ∃ xs, List.Forall₂ (CompletesAt c es flow) deps xs ∧ x = xs.foldr max t

/-- The times at which the first of some stages ends. -/
def FirstAt (c : Completer) (es : List Event) (flow : Nat) (deps : List Nat) (x : Nat) : Prop :=
  IsLeast {y | ∃ d ∈ deps, CompletesAt c es flow d y} x

/-- For the stage with these inputs, which was made as `w₁` shows, an input that was not terminal
then is the first only if it is alone.  An input that ended before comes first when the stage is
made. -/
def Untied (c : Completer) (es : List Event) (flow : Nat) (deps : List Nat) (w₁ : World) : Prop :=
  ∀ d ∈ deps, ¬Ended flow d w₁ → ∀ x, CompletesAt c es flow d x →
    (∀ d' ∈ deps, ∀ x', CompletesAt c es flow d' x' → x ≤ max w₁.clock x') →
    ∀ d' ∈ deps, d' ≠ d → ∀ x', CompletesAt c es flow d' x' → x < max w₁.clock x'

/-- The stage `s`, which waits for the first of its inputs, has gone on with the result `o` of the
stage at `d`. -/
structure GoesBy (c : Completer) (es : List Event) (w : World) (flow n : Nat) (s : Stage) (d : Nat)
    (o : Outcome) : Prop where
  result : w.outcome? flow d = some o
  /-- There is a step in which it goes on, and in this step it is resolved from that result. -/
  step : ∃ v g₁ s₁ v', StepIn c es flow n v g₁ s₁ (s.resolve [o]) v' ∧ s₁.phase = .choosing ∧
    v.outcome? flow d = some o
  /-- It ends with that result, -/
  taken : s.operation = .anyOf ∨ o.isFailure → w.outcome? flow n = some o
  /-- or runs its body on it. -/
  applied : s.operation = .applyToEither → o.isSuccess → ∃ closure, s.closure = some closure ∧
    s.resolve [o] = .launch closure [o] none

/-- When a stage ends that was made in an event of a run, and by which input it goes if it waits for
the first one. -/
structure Timely (c : Completer) (es : List Event) (w : World) (flow n : Nat) (w₀ : World)
    (e : Event) (w₁ : World) (s : Stage) : Prop where
  /-- A delay is pending until its time is over, and from then on it is a success with nothing. -/
  delay : ∀ {id span}, w₀.request? e = some (.addDelay id span) →
    (∀ v, Visits c es v → Present flow n v →
      (v.clock < w₁.clock + span.ticks → v.outcome? flow n = none) ∧
      (Over c v (w₁.clock + span.ticks) → v.outcome? flow n = some .empty)) ∧
    Scheduled c es w (Ended flow n) fun x => x = w₁.clock + span.ticks
  /-- A stage that waits for all its inputs, and adopts no stage. -/
  all : s.operation.hasOwnCall = false → s.operation.readiness ≠ .firstInput →
    (∀ target, ¬Adopts c es flow n target) →
    Scheduled c es w (Ended flow n) (ReadyAt c es flow s.deps w₁.clock)
  /-- A stage that adopts another one. -/
  adopting : ∀ {target}, Adopts c es flow n target →
    Scheduled c es w (Ended flow n) fun x => ∃ r y, ReadyAt c es flow s.deps w₁.clock r ∧
      CompletesAt c es flow target y ∧ x = max r y
  /-- A stage that waits for the first of its inputs. -/
  first : s.operation.readiness = .firstInput →
    Scheduled c es w (Ended flow n) fun x => ∃ y, FirstAt c es flow s.deps y ∧ x = max w₁.clock y
  /-- If inputs of such a stage are terminal when it is made, it goes by the one at the lowest
  position of these.  Only where something is still to be done when the stage is made, and may end
  inputs at that moment, ties have to be excluded. -/
  early : s.operation.readiness = .firstInput → s.phase ≠ .choosing →
    w₀.Idle c ∨ Untied c es flow s.deps w₁ → (∃ d ∈ s.deps, Ended flow d w₁) →
    ∃ before d after o, s.deps = before ++ d :: after ∧ (∀ d' ∈ before, ¬Ended flow d' w₁) ∧
      Ended flow d w₁ ∧ GoesBy c es w flow n s d o
  /-- If none is, it goes by the only one that ends strictly first. -/
  late : s.operation.readiness = .firstInput → s.phase ≠ .choosing →
    Untied c es flow s.deps w₁ → (∀ d ∈ s.deps, ¬Ended flow d w₁) →
    ∃ d ∈ s.deps, ∃ x o, CompletesAt c es flow d x ∧
      (∀ d' ∈ s.deps, d' ≠ d → ∀ x', CompletesAt c es flow d' x' → x < x') ∧
      GoesBy c es w flow n s d o

/-- A stage is ready when it is there and all its inputs have ended. -/
theorem Born.readyAt_iff (h : Born c es flow n w₀ e w₁) (deps : List Nat) :
    ReadyAt c es flow deps w₁.clock x ↔
      Since c es (fun v => Present flow n v ∧ ∀ d ∈ deps, Ended flow d v) x :=
  (since_all (lasting_present flow n) (lasting_ended flow) h.since).symm

/-- In the state in which a stage goes on that waits for the first of its inputs, it goes by the one
at the lowest position of those that have ended. -/
theorem goesBy_of_left (hrun : World.empty.run c es = some w) (hborn : Born c es flow n w₀ e w₁)
    (hs : w.stage? flow n = some s) (hfirst : s.operation.readiness = .firstInput)
    (hleft : s.phase ≠ .choosing) :
    ∃ v before d after o, Passes c es w₁ v ∧ ¬Ended flow n v ∧ s.deps = before ++ d :: after ∧
      (∀ d' ∈ before, ¬Ended flow d' v) ∧ Ended flow d v ∧ GoesBy c es w flow n s d o := by
  obtain ⟨v, g₁, s₁, m, v', hstep, hchoosing⟩ := left_choosing hrun hs hfirst hleft
  obtain ⟨g, hg, hgs⟩ := stage?_eq_some.mp hs
  obtain ⟨before, d, after, o, hdeps, hbefore, hd, hd', rfl, htaken, happlied⟩ :=
    (caused_of_run hrun hg hgs).lowest hstep hchoosing
  have hhere := hstep
  obtain ⟨first, rest, rfl, hvrun, -, hsteps⟩ := hhere
  have hv : Visits c (first ++ .task (.stage flow n) :: rest) v := ⟨first, _, rfl, hvrun⟩
  have hvs := (stage?_of_graph hsteps.graph).trans hsteps.stage
  have hpresent : Present flow n v := Option.isSome_iff_exists.mpr ⟨s₁, hvs⟩
  refine ⟨v, before, d, after, o, hborn.passes hv hpresent, ?_, hdeps, ?_, ?_, ?_⟩
  · simp [Ended, outcome?_of_stage hvs, hchoosing, Phase.outcome?]
  · intro d' hd'
    simp [Ended, outcome?_of_graph hsteps.graph, hbefore d' hd']
  · simp [Ended, outcome?_of_graph hsteps.graph, hd]
  · refine ⟨(outcome?_of_graph hg).trans hd', ⟨v, g₁, s₁, v', hstep, hchoosing, ?_⟩, ?_, happlied⟩
    · rw [outcome?_of_graph hsteps.graph, hd]
    · intro hended
      exact (outcome?_of_graph hg).trans (htaken hended)

section Rules

variable (hborn : Born c es flow n w₀ e w₁) (hpunctual : World.empty.Punctual c es)
  (hrun : World.empty.run c es = some w) (hs : w.stage? flow n = some s)

include hborn hpunctual hrun

theorem Born.delay_on_time {id : FlowId} {span : Duration}
    (hr : w₀.request? e = some (.addDelay id span)) :
    (∀ v, Visits c es v → Present flow n v →
      (v.clock < w₁.clock + span.ticks → v.outcome? flow n = none) ∧
      (Over c v (w₁.clock + span.ticks) → v.outcome? flow n = some .empty)) ∧
    Scheduled c es w (Ended flow n) fun x => x = w₁.clock + span.ticks := by
  have hdelayed := hborn.delayed hr
  rw [World.after, ← hborn.clock] at hdelayed
  have hle : w₁.clock ≤ w₁.clock + span.ticks := Nat.le_add_right _ _
  generalize w₁.clock + span.ticks = moment at hdelayed hle ⊢
  have phase {v : World} (hv : Visits c es v) (hpresent : Present flow n v) :
      ∃ s, v.stage? flow n = some s ∧
        (s.phase = .delayed moment ∨ s.phase = .ended .empty ∧ moment ≤ v.clock) := by
    obtain ⟨middle, hmiddle⟩ := (hborn.passes hv hpresent).run
    exact delay_cases hmiddle hdelayed
  have least {v : World} (hv : Visits c es v) (hended : Ended flow n v) : moment ≤ v.clock := by
    obtain ⟨s, hs, hphase | ⟨-, hmoment⟩⟩ := phase hv hended.present
    · simp [Ended, outcome?_of_stage hs, hphase, Phase.outcome?] at hended
    · exact hmoment
  have afterwards {v : World} (hv : Visits c es v) (hpresent : Present flow n v)
      (hover : Over c v moment) : v.outcome? flow n = some .empty := by
    obtain ⟨s, hs, hphase | ⟨hphase, -⟩⟩ := phase hv hpresent
    · -- It would have to be delayed still.
      rcases hover with hlt | ⟨hclock, hidle⟩
      · obtain ⟨u, hu, hended, -⟩ :=
          delay_settled hpunctual (hborn.passes hv hpresent) hdelayed hle hlt
        have hlast := (lasting_ended flow n).passes hu hended
        simp [Ended, outcome?_of_stage hs, hphase, Phase.outcome?] at hlast
      · obtain ⟨g, hg, hgs⟩ := stage?_eq_some.mp hs
        have hwaits := hidle.waits hg hgs
        rw [hphase] at hwaits
        cases hwaits with
        | moment hlt => exact absurd hclock (Nat.ne_of_gt hlt)
    · rw [outcome?_of_stage hs, hphase]
      rfl
  have time {x : Nat} (hx : CompletesAt c es flow n x) : x = moment := by
    obtain ⟨v, hv, hended, rfl⟩ := hx.1
    refine Nat.le_antisymm (Nat.le_of_not_lt fun hlt => ?_) (least hv hended)
    obtain ⟨u, hu, hended', hclock⟩ :=
      delay_settled hpunctual (hborn.passes hv hended.present) hdelayed hle hlt
    have hfirst : v.clock ≤ u.clock := hx.le hu.left hended'
    have hlt : moment < v.clock := hlt
    omega
  refine ⟨?_, time, ?_⟩
  · intro v hv hpresent
    refine ⟨?_, afterwards hv hpresent⟩
    intro hlt
    refine Option.eq_none_iff_forall_ne_some.mpr ?_
    intro o ho
    have := least hv (Option.isSome_iff_exists.mpr ⟨o, ho⟩)
    omega
  · rintro x rfl hover
    have hlast : Visits c es w := visits_last (K := clockwork c) hrun
    have hpresent := (lasting_present flow n).passes (hborn.visits.passes_last hrun) hborn.present
    have hended : Ended flow n w := Option.isSome_iff_exists.mpr ⟨_, afterwards hlast hpresent hover⟩
    obtain ⟨y, hy, -⟩ := exists_since hlast hended
    exact time hy ▸ hy

include hs

variable (hinstant : Instant c es flow n)

include hinstant

/-- A stage that waits for all its inputs, and adopts no stage, ends when it is ready. -/
theorem Born.all_on_time (hown : s.operation.hasOwnCall = false)
    (hall : s.operation.readiness ≠ .firstInput) (hnone : ∀ target, ¬Adopts c es flow n target) :
    Scheduled c es w (Ended flow n) (ReadyAt c es flow s.deps w₁.clock) := by
  refine (scheduled_of_settling hpunctual hrun
    ((lasting_present flow n).and (lasting_all s.deps (lasting_ended flow))) ?_ ?_).congr
    fun x => (hborn.readyAt_iff s.deps).symm
  · intro v hv hended
    exact ⟨hended.present, (hended.inputs hv hrun hs hown).1 hall⟩
  · intro v hv hidle hready
    rcases hidle.ended_or_adopts hv hready.1 hrun hs hown hinstant (fun _ => hready.2)
      fun hfirst => absurd hfirst hall with hended | ⟨target, hadopts, -⟩
    · exact hended
    · exact absurd hadopts (hnone target)

/-- A stage that adopts another one ends when it is ready and that one has ended. -/
theorem Born.adopting_on_time (hadopts : Adopts c es flow n target) :
    Scheduled c es w (Ended flow n) fun x => ∃ r y, ReadyAt c es flow s.deps w₁.clock r ∧
      CompletesAt c es flow target y ∧ x = max r y := by
  obtain ⟨hown, hall⟩ := Operation.of_allInputs (Operation.of_adopts (hadopts.adopts hrun hs))
  have hlasting := (lasting_present (c := c) flow n).and
    (lasting_all s.deps (lasting_ended flow))
  refine (scheduled_of_settling hpunctual hrun (hlasting.and (lasting_ended flow target))
    ?_ ?_).congr fun x => ?_
  · intro v hv hended
    exact ⟨⟨hended.present, (hended.inputs hv hrun hs hown).1 hall⟩, hadopts.ended hv hended⟩
  · rintro v hv hidle ⟨hready, htarget⟩
    rcases hidle.ended_or_adopts hv hready.1 hrun hs hown hinstant (fun _ => hready.2)
      fun hfirst => absurd hfirst hall with hended | ⟨target', hadopts', hpending⟩
    · exact hended
    · obtain rfl := hadopts.unique hadopts'
      exact absurd htarget hpending
  · simp only [since_and hlasting (lasting_ended flow target), hborn.readyAt_iff]

/-- A stage that waits for the first of its inputs ends when it is there and one of them has
ended. -/
theorem Born.first_on_time (hfirst : s.operation.readiness = .firstInput) :
    Scheduled c es w (Ended flow n) fun x => ∃ y, FirstAt c es flow s.deps y ∧
      x = max w₁.clock y := by
  have hlasting : Lasting c fun v => ∃ d ∈ s.deps, Ended flow d v :=
    lasting_any s.deps (lasting_ended flow)
  refine (scheduled_of_settling hpunctual hrun ((lasting_present flow n).and hlasting)
    ?_ ?_).congr fun x => ?_
  · intro v hv hended
    have hown := (Operation.of_firstInput hfirst).1
    exact ⟨hended.present, (hended.inputs hv hrun hs hown).2 hfirst⟩
  · intro v hv hidle hinput
    exact hidle.ended_of_input hv hrun hs hfirst hinstant hinput
  · rw [since_and (lasting_present flow n) hlasting]
    constructor
    · rintro ⟨t, y, ht, hy, rfl⟩
      exact ⟨y, since_any.mp hy, by rw [ht.unique hborn.since]⟩
    · rintro ⟨y, hy, rfl⟩
      exact ⟨w₁.clock, y, hborn.since, since_any.mpr hy, rfl⟩

/-- A stage that still waits for the first of its inputs is not late: no input has ended at an
earlier moment, unless that was before the stage was made. -/
theorem Born.choosing_clock_le {x : Nat} (hfirst : s.operation.readiness = .firstInput)
    (hv : Visits c es v) (hnot : ¬Ended flow n v) (hd : d ∈ s.deps)
    (hx : CompletesAt c es flow d x) : v.clock ≤ max w₁.clock x := by
  have hlasting := (lasting_present (c := c) flow n).and (lasting_ended flow d)
  refine (hborn.since.and hx (lasting_present flow n) (lasting_ended flow d)).clock_le hpunctual
    hlasting (lasting_ended flow n) ?_ hv hnot
  intro u hu hidle hinput
  exact hidle.ended_of_input hu hrun hs hfirst hinstant ⟨hinput.1, d, hd, hinput.2⟩

/-- If inputs of such a stage are terminal when it is made, it goes by the first of these. -/
theorem Born.goesBy_early (hfirst : s.operation.readiness = .firstInput)
    (hleft : s.phase ≠ .choosing) (hcalm : w₀.Idle c ∨ Untied c es flow s.deps w₁)
    (hearly : ∃ d ∈ s.deps, Ended flow d w₁) :
    ∃ before d after o, s.deps = before ++ d :: after ∧ (∀ d' ∈ before, ¬Ended flow d' w₁) ∧
      Ended flow d w₁ ∧ GoesBy c es w flow n s d o := by
  obtain ⟨v, before, d, after, o, hpasses, hnot, hdeps, hbefore, hd, hgoes⟩ :=
    goesBy_of_left hrun hborn hs hfirst hleft
  have hmem : d ∈ s.deps := by
    rw [hdeps]
    simp
  obtain ⟨d₀, hd₀, hended₀⟩ := hearly
  obtain ⟨x₀, hx₀, hle₀⟩ := exists_since hborn.visits hended₀
  have hclock := hborn.choosing_clock_le hpunctual hrun hs hinstant hfirst hpasses.right hnot hd₀ hx₀
  rw [max_eq_left hle₀] at hclock
  refine ⟨before, d, after, o, hdeps, ?_, ?_, hgoes⟩
  · intro d' hd' hended
    exact hbefore d' hd' ((lasting_ended flow d').passes hpasses hended)
  · rcases hcalm with hidle | huntied
    · -- Where everything had settled, no stage has ended since then.
      obtain ⟨middle, hmiddle⟩ := hpasses.run
      have hbetween := run_trans (run_fire hborn.fire) hmiddle
      have hstill := hidle.still hborn.reachable hbetween
        (Nat.le_antisymm (hborn.clock ▸ hclock) (clock_le_of_run hbetween))
      rw [Ended, hstill.outcome (hborn.older hrun hs hmem)] at hd
      exact (lasting_ended flow d).passes hborn.step.passes hd
    · -- Otherwise it would have ended after the stage was made, at the same moment, and tie.
      by_contra hlate
      obtain ⟨x, hx, hle⟩ := exists_since hpasses.right hd
      have hx₁ : w₁.clock ≤ x :=
        Nat.le_of_not_lt fun hlt => hlate (hx.holds (lasting_ended flow d) hborn.visits hlt)
      have hne : d₀ ≠ d := by
        rintro rfl
        exact hlate hended₀
      have hlt := huntied d hmem hlate x hx
        (fun _ _ x' _ => (hle.trans hclock).trans (Nat.le_max_left _ _)) d₀ hd₀ hne x₀ hx₀
      rw [max_eq_left hle₀] at hlt
      exact absurd hx₁ (Nat.not_le_of_lt hlt)

/-- If no input of such a stage is terminal when it is made, it goes by the one that ends strictly
first. -/
theorem Born.goesBy_late (hfirst : s.operation.readiness = .firstInput) (hleft : s.phase ≠ .choosing)
    (huntied : Untied c es flow s.deps w₁) (hlate : ∀ d ∈ s.deps, ¬Ended flow d w₁) :
    ∃ d ∈ s.deps, ∃ x o, CompletesAt c es flow d x ∧
      (∀ d' ∈ s.deps, d' ≠ d → ∀ x', CompletesAt c es flow d' x' → x < x') ∧
      GoesBy c es w flow n s d o := by
  obtain ⟨v, before, d, after, o, hpasses, hnot, hdeps, -, hd, hgoes⟩ :=
    goesBy_of_left hrun hborn hs hfirst hleft
  have hmem : d ∈ s.deps := by
    rw [hdeps]
    simp
  obtain ⟨x, hx, hle⟩ := exists_since hpasses.right hd
  refine ⟨d, hmem, x, o, hx, ?_, hgoes⟩
  intro d' hd' hne x' hx'
  have hlt := huntied d hmem (hlate d hmem) x hx (fun e he y hy => hle.trans
    (hborn.choosing_clock_le hpunctual hrun hs hinstant hfirst hpasses.right hnot he hy))
    d' hd' hne x' hx'
  have hx'₁ : w₁.clock ≤ x' :=
    Nat.le_of_not_lt fun hlt => hlate d' hd' (hx'.holds (lasting_ended flow d') hborn.visits hlt)
  rwa [max_eq_right hx'₁] at hlt

/-- In a punctual run, a stage whose body takes no time ends at the time that follows from when it
was made and when its inputs, and the stage that it adopts, end. -/
theorem timely_of_run : Timely c es w flow n w₀ e w₁ s where
  delay hr := hborn.delay_on_time hpunctual hrun hr
  all hown hall hnone := hborn.all_on_time hpunctual hrun hs hinstant hown hall hnone
  adopting hadopts := hborn.adopting_on_time hpunctual hrun hs hinstant hadopts
  first hfirst := hborn.first_on_time hpunctual hrun hs hinstant hfirst
  early hfirst hleft hcalm hearly :=
    hborn.goesBy_early hpunctual hrun hs hinstant hfirst hleft hcalm hearly
  late hfirst hleft huntied hlate :=
    hborn.goesBy_late hpunctual hrun hs hinstant hfirst hleft huntied hlate

end Rules

/-- Before the moment of the delay everything has settled, and nothing is due earlier. -/
theorem punctual_naming : World.empty.Punctual (.naming ⟨"1"⟩) namingRun := by
  have hsplit : namingRun = namingRun.take 9 ++ .clock 5 :: namingRun.drop 10 := rfl
  rw [hsplit]
  refine (punctual_of_still (by simp [namingRun, passes?])).append ?_
  intro w hw
  obtain rfl := Option.some.inj (hw.symm.trans (rfl : _ = some (namingState 9)))
  refine ⟨?_, fun w _ => punctual_of_still (by simp [namingRun, passes?])⟩
  rintro moment ⟨⟩
  refine ⟨?_, ?_⟩
  · rintro (⟨_ | flow, n⟩ | ⟨_ | flow, n⟩)
    · rcases n with _ | _ | n
      on_goal 2 => exact Option.isNone_iff_eq_none.mp (by decide +kernel)
      · rfl
      · rcases n with _ | _ | n <;> rfl
    all_goals rfl
  · rintro m ⟨⟨_ | flow, n⟩ | ⟨_ | flow, n⟩, hm⟩
    · rcases n with _ | _ | _ | _ | n
      on_goal 2 => exact (List.mem_singleton.mp hm).ge
      all_goals cases hm
    all_goals cases hm

/-- A stage that adopts a delay ends with it. -/
theorem timely_of_run_naming :
    World.empty.run (.naming ⟨"1"⟩) namingRun = some (namingState 12) ∧
      World.empty.Punctual (.naming ⟨"1"⟩) namingRun ∧
      CompletesAt (.naming ⟨"1"⟩) namingRun 0 3 5 := by
  have hrun : World.empty.run (.naming ⟨"1"⟩) namingRun = some (namingState 12) := rfl
  have hinstant (n : Nat) : Instant (.naming ⟨"1"⟩) namingRun 0 n := by
    refine instant_of_prompt fun r _ => ?_
    obtain ⟨o, ho, -⟩ := Completer.invoke_naming ⟨"1"⟩ r
    rw [ho]
    trivial
  have hdelay : Born (.naming ⟨"1"⟩) namingRun 0 1 (namingState 2) _ (namingState 3) :=
    ⟨⟨namingRun.take 2, namingRun.drop 3, rfl, rfl⟩, rfl, rfl, rfl⟩
  have hadopting : Born (.naming ⟨"1"⟩) namingRun 0 3 (namingState 4) _ (namingState 5) :=
    ⟨⟨namingRun.take 4, namingRun.drop 5, rfl, rfl⟩, rfl, rfl, rfl⟩
  have hover : Over (.naming ⟨"1"⟩) (namingState 12) 5 := by
    refine .inr ⟨rfl, ?_⟩
    rintro (⟨_ | flow, n⟩ | ⟨_ | flow, n⟩)
    · rcases n with _ | _ | _ | _ | n <;> rfl
    all_goals rfl
  have hadopts : Adopts (.naming ⟨"1"⟩) namingRun 0 3 1 :=
    ⟨namingState 9, _, ⟨namingRun.take 9, namingRun.drop 9, rfl, rfl⟩, rfl, rfl⟩
  have hinput : CompletesAt (.naming ⟨"1"⟩) namingRun 0 0 0 :=
    ⟨⟨namingState 2, ⟨namingRun.take 2, namingRun.drop 2, rfl, rfl⟩, rfl, rfl⟩,
      fun _ _ => Nat.zero_le _⟩
  have hdelayed : CompletesAt (.naming ⟨"1"⟩) namingRun 0 1 5 :=
    ((timely_of_run hdelay punctual_naming hrun rfl (hinstant 1)).delay rfl).2.begins rfl hover
  exact ⟨hrun, punctual_naming,
    ((timely_of_run hadopting punctual_naming hrun rfl (hinstant 3)).adopting hadopts).begins
      ⟨0, 5, ⟨[0], .cons hinput .nil, rfl⟩, hdelayed, rfl⟩ hover⟩

end World

end StageGraph
