/-
# `StageGraph.Proofs.Observers` — observers never change a result

A stage that observes another one runs its body on the result of that one, waits until
the body has ended, and ends with the same result.  What the body has done or given does
not matter: the result is put aside before the body starts, and nothing that follows
looks at the body but for its end (`World.observer_finishes`).  Bodies that cannot be run,
because they are not registered or because what they take cannot be read, end at once
and are no exception.

So whoever takes the result of an observer gets that of its parent.  This is said of a
stage that has inputs as a replacement: where it is to wait for the parent in place of
the observer, it makes the same moves (`World.move?_rewire`).
-/
import StageGraph.Proofs.Adoption

namespace StageGraph

/-! ## Inputs that are replaced -/

/-- The same with `d` in the place of `n`. -/
def replaced (n d : Nat) (k : Nat) : Nat := if k = n then d else k

/-- The phase of a stage whose inputs are replaced. -/
def Phase.rewire (n d : Nat) : Phase → Phase
  | .gathering got left => .gathering got (left.map (replaced n d))
  | p => p

/-- The stage with other inputs: `d` in the place of `n`. -/
def Stage.rewire (n d : Nat) (s : Stage) : Stage :=
  { s with deps := s.deps.map (replaced n d), phase := s.phase.rewire n d }

/-- What such a stage does, if the stage itself makes a move. -/
def Move.rewire (n d : Nat) : Move → Move
  | .turn p => .turn (p.rewire n d)
  | m => m

/-- The `n`th stage observes the `k`th. -/
def Graph.Observes (g : Graph) (k n : Nat) : Prop :=
  ∃ s, g.stages[n]? = some s ∧ s.operation = .whenComplete ∧ k ∈ s.deps

namespace World

variable {c : Completer} {w w' : World} {flow n d : Nat} {g : Graph} {s : Stage}
  {es : List Event} {r o : Outcome}

theorem resolve_rewire (n d : Nat) (s : Stage) (inputs : List Outcome) :
    (s.rewire n d).resolve inputs = (s.resolve inputs).rewire n d := by
  show s.resolve inputs = _
  rcases Graph.resolve_cases s inputs with ⟨o, hm⟩ | ⟨closure, args, forward, hm⟩ <;>
    rw [hm] <;> rfl

theorem conclude_rewire (n d : Nat) (g : Graph) (s : Stage) (forward : Option Outcome)
    (r : Outcome) :
    g.conclude (s.rewire n d) forward r = (g.conclude s forward r).rewire n d := by
  show g.conclude s forward r = _
  rcases Graph.conclude_cases g s forward r with ⟨o, hm⟩ | ⟨target, hm⟩ <;> rw [hm] <;> rfl

/-- A stage that takes the results of its inputs makes the same moves with other inputs that have
the same results. -/
theorem move?_rewire (hsame : g.outcome? n = g.outcome? d) (s : Stage) :
    w.move? c g (s.rewire n d) = (w.move? c g s).map fun (w', m) => (w', m.rewire n d) := by
  have hreplaced (k : Nat) : g.outcome? (replaced n d k) = g.outcome? k := by
    unfold replaced
    split
    · next hk => rw [hk, hsame]
    · rfl
  cases hphase : s.phase with
  | ended o => simp [move?, Stage.rewire, Phase.rewire, hphase]
  | delayed moment =>
      simp only [move?, Stage.rewire, Phase.rewire, hphase]
      split <;> rfl
  | gathering got left =>
      cases left with
      | nil =>
          simp only [move?, Stage.rewire, Phase.rewire, hphase, List.map_nil, Option.map_some]
          exact congrArg (fun m => some (w, m)) (resolve_rewire n d s got)
      | cons k left =>
          simp only [move?, Stage.rewire, Phase.rewire, hphase, List.map_cons, hreplaced,
            Option.map_map]
          rfl
  | choosing =>
      have hfirst : (s.deps.map (replaced n d)).findSome? g.outcome? =
          s.deps.findSome? g.outcome? := by
        rw [List.findSome?_map]
        exact congrArg (List.findSome? · s.deps) (funext hreplaced)
      simp only [move?, Stage.rewire, Phase.rewire, hphase, hfirst, Option.map_map]
      refine congrArg (Option.map · _) (funext fun o => ?_)
      exact congrArg (Prod.mk w) (resolve_rewire n d s [o])
  | running t forward =>
      simp only [move?, Stage.rewire, Phase.rewire, hphase, Option.map_map]
      refine congrArg (Option.map · _) (funext fun p => ?_)
      simp only [Function.comp]
      obtain ⟨q, next, rfl⟩ | ⟨o, hends⟩ := ask_or_ends p
      · rfl
      · rw [advance_of_ends hends]
        exact congrArg (Prod.mk w) (conclude_rewire n d g s forward o)
  | adopting target =>
      simp only [move?, Stage.rewire, Phase.rewire, hphase, Option.map_map]
      rfl

/-! ## Observers -/

section Observer

variable (hop : s.operation = .whenComplete)

include hop

/-- An observer has one parent. -/
theorem parent_of_observer (hreach : w.Reachable c) (hs : w.stage? flow n = some s) :
    ∃ d, s.deps = [d] := by
  have htakes := takes_of_reachable hreach hs (by rw [hop]; rfl)
  rw [hop] at htakes
  exact List.length_eq_one_iff.mp htakes

/-- An observer whose body is under way has put the result of its parent aside. -/
theorem forwarded_of_observer (hreach : w.Reachable c) (hg : w.graph? flow = some g)
    (hs : g.stages[n]? = some s) (hdeps : s.deps = [d]) {t : BodyThread} {forward : Option Outcome}
    (hphase : s.phase = .running t forward) : ∃ p, forward = some p ∧ g.outcome? d = some p := by
  cases (traced_of_reachable hreach hg).stands hs hphase with
  | @invoking inputs args closure _ _ _ hresolve _ _ =>
      rw [show s.recipe.operation = .whenComplete from hop] at hresolve
      cases Operation.rule_of_resolve hresolve with
      | apply hop | recover hop => exact absurd hop (by decide)
  | @observing inputs args p closure _ _ hready hresolve _ _ =>
      obtain ⟨-, rfl, -⟩ := Operation.of_observe hresolve
      refine ⟨p, rfl, ?_⟩
      cases hready with
      | first hfirst _ _ =>
          rw [show s.recipe.operation = .whenComplete from hop] at hfirst
          cases hfirst
      | all _ hos =>
          rw [show s.recipe.deps = [d] from hdeps] at hos
          exact (List.cons.inj hos).1

/-- An observer is ended by the end of its body, and in no other way. -/
theorem observer_finishes (hreach : w.Reachable c) (hbody : s.closure.isSome)
    (hsteps : Steps c flow n w g s (.finish o) w') :
    ∃ t r, s.phase = .running t (some o) ∧ w.BodyEnds s r := by
  have hg := hsteps.graph
  have hs := hsteps.stage
  have hdeps := parent_of_observer hop hreach ((stage?_of_graph hg).trans hs)
  have htraced := traced_of_reachable hreach hg
  obtain ⟨w₁, hdoes⟩ := hsteps.does
  generalize hfinish : Move.finish o = m at hdoes
  cases hdoes with
  | gather | ask => cases hfinish
  | wake hphase =>
      have hdelay := htraced.delays hs hphase
      rw [hop] at hdelay
      cases hdelay
  | choose hphase =>
      obtain ⟨-, hfirst⟩ := htraced.chooses hs hphase
      rw [hop] at hfirst
      cases hfirst
  | adopt hphase =>
      have hadopts := htraced.adopts hs hphase
      rw [hop] at hadopts
      cases hadopts
  | @resolve got hphase =>
      -- All inputs are there, so the rules ask for the body.
      obtain ⟨d, hdeps⟩ := hdeps
      cases htraced.stands hs hphase with
      | @gathering seen _ _ _ _ hseen hgot =>
          rw [show s.recipe.deps = [d] from hdeps, List.append_nil] at hseen
          subst hseen
          obtain ⟨p, rfl⟩ : ∃ p, got = [p] := by
            refine List.length_eq_one_iff.mp ?_
            simpa using (congrArg List.length hgot).symm
          obtain ⟨closure, hclosure⟩ := Option.isSome_iff_exists.mp hbody
          simp [Stage.resolve, hop, (Operation.Rule.whenComplete p).resolve_eq, Stage.launch,
            hclosure] at hfinish
  | conclude hphase hp hends =>
      obtain ⟨d, hdeps⟩ := hdeps
      obtain ⟨p, rfl, -⟩ := forwarded_of_observer hop hreach hg hs hdeps hphase
      obtain rfl := Move.finish.inj hfinish
      exact ⟨_, _, hphase, _, _, _, hphase, hp, hends⟩

end Observer

/-- A step after which its stage is terminal ends it. -/
theorem Steps.finish_of_landing {m : Move} (h : Steps c flow n w g s m w')
    (ho : (g.landing c n m).outcome? = some o) : m = .finish o := by
  cases m with
  | launch closure args forward => cases ho
  | finish o' => exact congrArg Move.finish (Option.some.inj ho)
  | turn p =>
      obtain ⟨w₁, g₁, hacts⟩ := h.acts
      rcases hacts.moves.landing_cases (c := c) hacts.stage₁ with ⟨o', hm⟩ | ⟨hnone, -⟩
      · cases hm
      · have hnone : p.outcome? = none := hnone
        have hsome : p.outcome? = some o := ho
        rw [hnone] at hsome
        cases hsome

/-- A terminal observer has been ended in the step in which its body has ended. -/
theorem ended_observer (hrun : World.empty.run c es = some w) (hs : w.stage? flow n = some s)
    (hop : s.operation = .whenComplete) (ho : s.phase.outcome? = some o) :
    ∃ w₁ g₁ s₁ w₂ t r, StepIn c es flow n w₁ g₁ s₁ (.finish o) w₂ ∧
      s₁.phase = .running t (some o) ∧ w₁.BodyEnds s₁ r := by
  refine run_life flow n (P := fun es _ s => s.operation = .whenComplete →
    s.phase.outcome? = some o → ∃ w₁ g₁ s₁ w₂ t r, StepIn c es flow n w₁ g₁ s₁ (.finish o) w₂ ∧
      s₁.phase = .running t (some o) ∧ w₁.BodyEnds s₁ r) ?_ ?_ ?_ hrun hs hop ho
  · intro es w g s _ hfresh hop ho
    cases hfresh with
    | completed o => cases hop
    | delay moment => cases hop
    | resolved _ _ =>
        unfold Phase.initial at ho
        split at ho <;> cases ho
  · intro es w e w' s _ ih _ hop ho
    obtain ⟨w₁, g₁, s₁, w₂, t, r, hstep, hended⟩ := ih hop ho
    exact ⟨w₁, g₁, s₁, w₂, t, r, hstep.append [e], hended⟩
  · intro es w g s m w' hrun ih hfire hsteps hop ho
    obtain rfl := hsteps.finish_of_landing ho
    have hop : s.operation = .whenComplete := hop
    have hbody : s.closure.isSome := by
      refine closure_of_hasBody hrun ((stage?_of_graph hsteps.graph).trans hsteps.stage) ?_
      rw [hop]
      rfl
    obtain ⟨t, r, hphase, hends⟩ := observer_finishes hop ⟨es, hrun⟩ hbody hsteps
    exact ⟨w, g, s, w', t, r, ⟨es, [], rfl, hrun, hfire, hsteps⟩, hphase, hends⟩

/-- What a run does about the `n`th stage of a flow, which observes `d`, in the graph `g` after the
run. -/
structure Observing (c : Completer) (es : List Event) (w : World) (flow : Nat) (g : Graph)
    (n d : Nat) (s : Stage) : Prop where
  /-- It has no result but that of its parent. -/
  result : ∀ o, g.outcome? n = some o → g.outcome? d = some o
  /-- If it is terminal, its body has been run, once, and it has been ended in the step in which the
  body has ended. -/
  ended : ∀ o, g.outcome? n = some o → ∃ closure, s.closure = some closure ∧
    invocations n (deedsAt flow (World.empty.history c es)) =
      [g.invocation n closure (Operation.outcomeArgs o)] ∧
    ∃ w₁ g₁ s₁ w₂ r, StepIn c es flow n w₁ g₁ s₁ (.finish o) w₂ ∧ w₁.BodyEnds s₁ r
  /-- Whatever the body leaves. -/
  next : ∀ r, w.BodyEnds s r → ∃ p w', g.outcome? d = some p ∧
    w.fire c (.task (.stage flow n)) = some w' ∧ w'.outcome? flow n = some p
  /-- Where nothing can go on, it has the result of its parent, unless its body waits for ever. -/
  settled : w.Stuck c → (∀ t forward, s.phase ≠ .running t forward) → g.outcome? n = g.outcome? d
  /-- Whoever gets the result of the one gets that of the other. -/
  observed : ∀ o, g.outcome? n = some o → Observed c w flow n o ∧ Observed c w flow d o
  /-- A stage that has it as an input does what it would do if the parent was the input. -/
  consumed : (g.outcome? n).isSome → ∀ s' : Stage,
    w.move? c g (s'.rewire n d) = (w.move? c g s').map fun (w', m) => (w', m.rewire n d)

section Run

variable (hrun : World.empty.run c es = some w) (hg : w.graph? flow = some g)
  (hs : g.stages[n]? = some s) (hop : s.operation = .whenComplete)

include hrun hg hs hop

/-- The body of an observer that is terminal has been run, once, on the result of its parent. -/
theorem invocations_of_observer {closure : Closure} (hdeps : s.deps = [d])
    (hclosure : s.closure = some closure) (ho : g.outcome? n = some o)
    (hparent : g.outcome? d = some o) :
    invocations n (deedsAt flow (World.empty.history c es)) =
      [g.invocation n closure (Operation.outcomeArgs o)] := by
  have hown : s.operation.hasOwnCall = false := by rw [hop]; rfl
  obtain ⟨inputs, hresolved⟩ := resolved_of_terminal hrun hg hs hown (by rw [ho]; rfl)
  have hinputs : inputs = [o] := by
    have hos := (hresolved.results hrun hg hs (by rw [hop]; rfl)).2
    rw [hdeps, List.map_singleton, hparent] at hos
    simpa [List.map_eq_singleton_iff] using hos.symm
  subst hinputs
  have hasks : s.operation.Asks [o] (Operation.outcomeArgs o) := by
    rw [hop]
    exact .observe o rfl
  have hmem := (invoked_iff hrun hg hs).mpr ⟨[o], closure, _, hresolved, hclosure, hasks, rfl⟩
  have honce := (Graph.invocations_once (changes_of_fresh hrun rfl hg) n).1
  obtain ⟨r, hr⟩ :=
    List.length_eq_one_iff.mp (Nat.le_antisymm honce (List.length_pos_of_mem hmem))
  rw [hr] at hmem ⊢
  rw [List.mem_singleton.mp hmem]

theorem outcome_of_observer (hdeps : s.deps = [d]) (ho : g.outcome? n = some o) :
    g.outcome? d = some o ∧ ∃ closure, s.closure = some closure ∧
      invocations n (deedsAt flow (World.empty.history c es)) =
        [g.invocation n closure (Operation.outcomeArgs o)] ∧
      ∃ w₁ g₁ s₁ w₂ r, StepIn c es flow n w₁ g₁ s₁ (.finish o) w₂ ∧ w₁.BodyEnds s₁ r := by
  have hs' : w.stage? flow n = some s := (stage?_of_graph hg).trans hs
  obtain ⟨w₁, g₁, s₁, w₂, t, r, hstep, hphase, hends⟩ :=
    ended_observer hrun hs' hop (by rw [← Graph.outcome?_of_stage hs, ho])
  have hparent : g.outcome? d = some o := by
    obtain ⟨hgrows, hrecipe⟩ := hstep.keeps hrun hg hs
    obtain ⟨hreach, -⟩ := hstep.run hrun
    obtain ⟨-, -, -, -, -, hsteps⟩ := id hstep
    have hop₁ : s₁.operation = .whenComplete := (congrArg Recipe.operation hrecipe).symm.trans hop
    have hdeps₁ : s₁.deps = [d] := (congrArg Recipe.deps hrecipe).symm.trans hdeps
    obtain ⟨p, hp, hd⟩ :=
      forwarded_of_observer hop₁ hreach hsteps.graph hsteps.stage hdeps₁ hphase
    obtain rfl := Option.some.inj hp
    exact hgrows.outcome d o hd
  obtain ⟨closure, hclosure⟩ := Option.isSome_iff_exists.mp
    (closure_of_hasBody hrun hs' (by rw [hop]; rfl))
  exact ⟨hparent, closure, hclosure,
    invocations_of_observer hrun hg hs hop hdeps hclosure ho hparent,
    w₁, g₁, s₁, w₂, r, hstep, hends⟩

/-- Whatever the body of an observer leaves, the stage ends with the result of its parent. -/
theorem BodyEnds.observer (hdeps : s.deps = [d]) (h : w.BodyEnds s r) :
    ∃ p w', g.outcome? d = some p ∧ w.fire c (.task (.stage flow n)) = some w' ∧
      w'.outcome? flow n = some p := by
  obtain ⟨t, forward, q, hphase, hq, hends⟩ := h
  obtain ⟨p, rfl, hd⟩ := forwarded_of_observer hop ⟨es, hrun⟩ hg hs hdeps hphase
  obtain ⟨w', hfire, hsteps⟩ := (StageDoes.conclude (c := c) hphase hq hends).steps hg hs
  exact ⟨p, w', hd, hfire, outcome?_of_stage hsteps.landing⟩

/-- Where nothing can go on, an observer below a terminal stage is terminal or its body waits. -/
theorem settled_observer (hdeps : s.deps = [d]) (hstuck : w.Stuck c)
    (hbody : ∀ t forward, s.phase ≠ .running t forward) (hd : (g.outcome? d).isSome) :
    (g.outcome? n).isSome := by
  have hs' : w.stage? flow n = some s := (stage?_of_graph hg).trans hs
  obtain ⟨inputs, hresolved⟩ := hstuck.resolved hrun hg hs (by rw [hop]; rfl)
    (by rw [hdeps]; exact List.forall_mem_singleton.mpr hd)
  have hleft := hresolved.left hrun hs'
  rw [Graph.outcome?_of_stage hs]
  cases hphase : s.phase with
  | ended o => rfl
  | running t forward => exact absurd hphase (hbody t forward)
  | adopting target =>
      have hadopts := (traced_of_reachable ⟨es, hrun⟩ hg).adopts hs hphase
      rw [hop] at hadopts
      cases hadopts
  | delayed moment => rw [hphase] at hleft; cases hleft
  | gathering got left => rw [hphase] at hleft; cases hleft
  | choosing => rw [hphase] at hleft; cases hleft

theorem observing_of_run (hdeps : s.deps = [d]) : Observing c es w flow g n d s := by
  have houtcome {o : Outcome} (ho : g.outcome? n = some o) :=
    outcome_of_observer hrun hg hs hop hdeps ho
  refine ⟨?_, ?_, ?_, ?_, ?_, ?_⟩
  · intro o ho
    exact (houtcome ho).1
  · intro o ho
    exact (houtcome ho).2
  · intro r hends
    exact hends.observer hrun hg hs hop hdeps
  · intro hstuck hbody
    cases hn : g.outcome? n with
    | some o => exact (houtcome hn).1.symm
    | none =>
        cases hd : g.outcome? d with
        | none => rfl
        | some p =>
            have hsome := settled_observer hrun hg hs hop hdeps hstuck hbody (by rw [hd]; rfl)
            rw [hn] at hsome
            cases hsome
  · intro o ho
    have hd := (houtcome ho).1
    rw [← outcome?_of_graph hg] at ho hd
    exact ⟨observed_of_outcome ho, observed_of_outcome hd⟩
  · intro ho s'
    obtain ⟨o, ho⟩ := Option.isSome_iff_exists.mp ho
    exact move?_rewire (ho.trans (houtcome ho).1.symm) s'

end Run

/-! ## Chains of observers -/

theorem observing_of_observes {k : Nat} (hrun : World.empty.run c es = some w)
    (hg : w.graph? flow = some g) (h : g.Observes k n) :
    ∃ s, g.stages[n]? = some s ∧ Observing c es w flow g n k s := by
  obtain ⟨s, hs, hop, hk⟩ := h
  obtain ⟨d, hdeps⟩ := parent_of_observer hop ⟨es, hrun⟩ ((stage?_of_graph hg).trans hs)
  rw [hdeps] at hk
  obtain rfl := List.mem_singleton.mp hk
  exact ⟨s, hs, observing_of_run hrun hg hs hop hdeps⟩

/-- All stages of a chain have the result of the first, unless a body waits for ever. -/
theorem settled_chain {m : Nat} {p : Outcome} (hrun : World.empty.run c es = some w)
    (hg : w.graph? flow = some g) (hstuck : w.Stuck c)
    (hchain : Relation.ReflTransGen g.Observes m n) (hm : g.outcome? m = some p) :
    g.outcome? n = some p ∨ ∃ k s t forward, Relation.ReflTransGen g.Observes m k ∧
      Relation.ReflTransGen g.Observes k n ∧ g.stages[k]? = some s ∧
        s.phase = .running t forward := by
  induction hchain with
  | refl => exact .inl hm
  | @tail k n hfirst hlink ih =>
      rcases ih with hk | ⟨j, s, t, forward, hbefore, hafter, hs, hphase⟩
      · obtain ⟨s, hs, hobserving⟩ := observing_of_observes hrun hg hlink
        by_cases hbody : ∃ t forward, s.phase = .running t forward
        · obtain ⟨t, forward, hphase⟩ := hbody
          exact .inr ⟨n, s, t, forward, hfirst.tail hlink, .refl, hs, hphase⟩
        · refine .inl ((hobserving.settled hstuck ?_).trans hk)
          intro t forward hphase
          exact hbody ⟨t, forward, hphase⟩
      · exact .inr ⟨j, s, t, forward, hbefore, hafter.tail hlink, hs, hphase⟩

/-- In every run from the beginning, for every flow, and whatever the bodies do:
* a stage that observes another one is terminal only after its body has ended, and then has the
  result of that one, which it also gives to everyone who asks for its own;
* stages in a chain of observers have the result of the first, if they have one; where nothing can
  go on, they have it, unless a body of the chain waits for ever. -/
theorem observers_transparent (hrun : World.empty.run c es = some w)
    (hg : w.graph? flow = some g) :
    (∀ (n : Nat) (s : Stage), g.stages[n]? = some s → s.operation = .whenComplete →
      ∃ d, s.deps = [d] ∧ Observing c es w flow g n d s) ∧
    ∀ m n, Relation.ReflTransGen g.Observes m n →
      (∀ o, g.outcome? n = some o → g.outcome? m = some o) ∧
      (w.Stuck c → ∀ p, g.outcome? m = some p → g.outcome? n = some p ∨
        ∃ k s t forward, Relation.ReflTransGen g.Observes m k ∧
          Relation.ReflTransGen g.Observes k n ∧ g.stages[k]? = some s ∧
            s.phase = .running t forward) := by
  refine ⟨?_, ?_⟩
  · intro n s hs hop
    obtain ⟨d, hdeps⟩ := parent_of_observer hop ⟨es, hrun⟩ ((stage?_of_graph hg).trans hs)
    exact ⟨d, hdeps, observing_of_run hrun hg hs hop hdeps⟩
  · intro m n hchain
    constructor
    · intro o ho
      induction hchain with
      | refl => exact ho
      | tail _ hlink ih =>
          obtain ⟨s, -, hobserving⟩ := observing_of_observes hrun hg hlink
          exact ih (hobserving.result o ho)
    · intro hstuck p hm
      exact settled_chain hrun hg hstuck hchain hm

/-- A body that notes how its parent has ended, and a body that is not registered, observe a failed
stage and one another. -/
def observingRun : List Event :=
  [.call (.createFlow "f"), .call (.addCompleted ⟨"0"⟩ (.failure .empty)),
    .call (.addStage ⟨"0"⟩ ⟨.whenComplete, some (.bare "note"), [⟨"0"⟩]⟩),
    .call (.addStage ⟨"0"⟩ ⟨.whenComplete, some (.bare "missing"), [⟨"1"⟩]⟩),
    .task (.stage 0 1), .task (.stage 0 1), .task (.stage 0 1), .task (.stage 0 2),
    .task (.stage 0 2), .task (.stage 0 2)]

/-- The state after `observingRun`. -/
def observingState : World := (World.empty.run .noting observingRun).getD .empty

/-- Its graph. -/
def observingGraph : Graph := (observingState.graph? 0).getD (.new ⟨"0"⟩)

theorem observers_transparent_failed :
    World.empty.run .noting observingRun = some observingState ∧
      observingGraph.outcome? 2 = some (.failure .empty) ∧
      Observing .noting observingRun observingState 0 observingGraph 2 1
        ⟨.whenComplete, some (.bare "missing"), [1], .ended (.failure .empty)⟩ ∧
      observingGraph.outcome? 0 = some (.failure .empty) := by
  have hrun : World.empty.run .noting observingRun = some observingState := rfl
  have hg : observingState.graph? 0 = some observingGraph := rfl
  obtain ⟨hobserving, hchains⟩ := observers_transparent hrun hg
  obtain ⟨d, hdeps, hlast⟩ := hobserving 2
    ⟨.whenComplete, some (.bare "missing"), [1], .ended (.failure .empty)⟩ rfl rfl
  obtain rfl := (List.cons.inj hdeps).1
  have hfirst : observingGraph.Observes 0 1 := ⟨_, rfl, rfl, List.mem_singleton_self 0⟩
  have hsecond : observingGraph.Observes 1 2 := ⟨_, rfl, rfl, List.mem_singleton_self 1⟩
  exact ⟨hrun, rfl, hlast, (hchains 0 2 (.head hfirst (.single hsecond))).1 _ rfl⟩

end World

end StageGraph
