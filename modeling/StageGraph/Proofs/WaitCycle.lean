/-
# `StageGraph.Proofs.WaitCycle` — a flow that is stuck shows a cycle of waits

Where no timer is armed and no task has a step, every stage that is not terminal
waits for another one that is not: for an input, for the stage that its body has
named, or for the stage that its body retrieves (`World.AtRest.blocks`).  There are
only finitely many stages, so whoever goes on from a stage to the one it waits for
comes to a cycle.

An input is always older than the stage that has it.  So a cycle is never made of
inputs alone: somewhere in it a body has named, or retrieves, a stage that waits
for the body's own stage.

For a wait to lead anywhere, the stage waited for has to be there.  That is an
invariant of runs (`Phase.Known`): bodies come by stages only through names that the
completer has looked up.
-/
import StageGraph.Proofs.StageRun
import StageGraph.Completer.Schedule
import Mathlib.Data.Fintype.Pigeonhole
import Mathlib.Logic.Function.Iterate

namespace StageGraph

/-! ## Waits -/

/-- Why a stage waits for another one. -/
inductive WaitKind where
  | input
  /-- Its body has named the other one. -/
  | adoption
  /-- Its body, which still runs, retrieves the other one. -/
  | retrieval
deriving DecidableEq, Inhabited

namespace Graph

/-- The stage is there and has no result. -/
def Pending (g : Graph) (n : Nat) : Prop :=
  ∃ s, g.stages[n]? = some s ∧ s.phase.outcome? = none

/-- The stage waits for its inputs. -/
def AwaitsInputs (g : Graph) (n : Nat) : Prop :=
  ∃ s, g.stages[n]? = some s ∧ ((∃ got left, s.phase = .gathering got left) ∨ s.phase = .choosing)

/-- An edge leads from a pending stage to each pending stage that is one of its inputs, is adopted by
it, or is retrieved by its body. -/
inductive Edge (flow : Nat) (g : Graph) : WaitKind → Nat → Nat → Prop
  | input {n m : Nat} {s : Stage} : g.stages[n]? = some s → s.phase.outcome? = none → m ∈ s.deps →
      g.Pending m → Edge flow g .input n m
  | adoption {n m : Nat} {s : Stage} : g.stages[n]? = some s → s.phase = .adopting m →
      g.Pending m → Edge flow g .adoption n m
  | retrieval {n m : Nat} {s : Stage} {next : Outcome → FlowProgram bodySignature Outcome}
      {alarm : Option (Alarm (FlowProgram bodySignature Outcome))} {forward : Option Outcome} :
      g.stages[n]? = some s → s.phase = .running (.onStage flow m next alarm) forward →
      g.Pending m → Edge flow g .retrieval n m

/-- The edges along which a stage waits now: inputs count while it waits for inputs. -/
def Blocks (flow : Nat) (g : Graph) (k : WaitKind) (n m : Nat) : Prop :=
  Edge flow g k n m ∧ (k = .input → g.AwaitsInputs n)

/-- A stage that is adopted has been looked up by its name. -/
theorem slot?_of_conclude {g : Graph} {s : Stage} {forward : Option Outcome} {o : Outcome}
    {target : Nat} (h : g.conclude s forward o = .turn (.adopting target)) :
    ∃ stage, g.slot? stage = .ok target := by
  unfold conclude at h
  cases forward with
  | some f => cases h
  | none =>
      by_cases hadopts : s.operation.adopts = true
      · simp only [if_pos hadopts] at h
        cases hcompose : o.compose with
        | complete o' => simp [hcompose] at h
        | adopt stage =>
            cases hslot : g.slot? stage with
            | error e => simp [hcompose, hslot] at h
            | ok target' =>
                simp only [hcompose, hslot, Move.turn.injEq, Phase.adopting.injEq] at h
                exact ⟨stage, h ▸ hslot⟩
      · simp [if_neg hadopts] at h

theorem pending_of_outcome {g : Graph} {n : Nat} (hlt : n < g.stages.length)
    (ho : g.outcome? n = none) : g.Pending n := by
  have hs : g.stages[n]? = some g.stages[n] := List.getElem?_eq_getElem hlt
  exact ⟨g.stages[n], hs, by simpa [outcome?, hs] using ho⟩

end Graph

/-- A walk along edges, with the kinds of the edges. -/
inductive Walk (edge : WaitKind → Nat → Nat → Prop) : List WaitKind → Nat → Nat → Prop
  | nil (n : Nat) : Walk edge [] n n
  | cons {k : WaitKind} {ks : List WaitKind} {n m p : Nat} : edge k n m → Walk edge ks m p →
      Walk edge (k :: ks) n p

namespace Walk

variable {edge : WaitKind → Nat → Nat → Prop} {ks ks' : List WaitKind} {n m p : Nat}

theorem append (h : Walk edge ks n m) (h' : Walk edge ks' m p) : Walk edge (ks ++ ks') n p := by
  induction h with
  | nil => exact h'
  | cons hedge _ ih => exact .cons hedge (ih h')

theorem mono {edge' : WaitKind → Nat → Nat → Prop} (hmono : ∀ k n m, edge k n m → edge' k n m)
    (h : Walk edge ks n m) : Walk edge' ks n m := by
  induction h with
  | nil n => exact .nil n
  | cons hedge _ ih => exact .cons (hmono _ _ _ hedge) ih

/-- A walk leads to every edge on its way, and on from it. -/
theorem split {k : WaitKind} (h : Walk edge ks n m) (hk : k ∈ ks) :
    ∃ a b first rest, Walk edge first n a ∧ edge k a b ∧ Walk edge rest b m := by
  induction h with
  | nil => cases hk
  | @cons k' ks n a m hedge hwalk ih =>
      rcases List.mem_cons.mp hk with rfl | hk
      · exact ⟨n, a, [], ks, .nil n, hedge, hwalk⟩
      · obtain ⟨b, b', first, rest, hfirst, hedge', hrest⟩ := ih hk
        exact ⟨b, b', k' :: first, rest, .cons hedge hfirst, hedge', hrest⟩

/-- Along edges that lead down, a walk leads down. -/
theorem descends (hdown : ∀ k n m, edge k n m → k ∈ ks → m < n) (h : Walk edge ks n m) :
    m + ks.length ≤ n := by
  induction h with
  | nil n => simp
  | @cons k ks n a m hedge _ ih =>
      have hlt := hdown k n a hedge List.mem_cons_self
      have hle := ih fun k' n' m' hedge' hk' => hdown k' n' m' hedge' (List.mem_cons_of_mem k hk')
      simp only [List.length_cons]
      omega

/-- Where every vertex of a finite set has an edge to another one of the set, every vertex leads to
a cycle. -/
theorem reaches_cycle {P : Nat → Prop} {size : Nat} (hfinite : ∀ n, P n → n < size)
    (hedge : ∀ n, P n → ∃ k m, edge k n m ∧ P m) (hn : P n) :
    ∃ ks m ks', Walk edge ks n m ∧ ks' ≠ [] ∧ Walk edge ks' m m := by
  choose! kind next hnext hP using hedge
  -- The vertices on the way are `next^[i] n`; two of them are the same.
  have hall (i : Nat) : P (next^[i] n) := by
    induction i with
    | zero => exact hn
    | succ i ih =>
        rw [Function.iterate_succ_apply']
        exact hP _ ih
  have hwalk (i : Nat) (m : Nat) (hm : P m) : ∃ ks, ks.length = i ∧ Walk edge ks m (next^[i] m) := by
    induction i generalizing m with
    | zero => exact ⟨[], rfl, .nil m⟩
    | succ i ih =>
        obtain ⟨ks, hlen, hks⟩ := ih (next m) (hP m hm)
        exact ⟨kind m :: ks, by simp [hlen], .cons (hnext m hm) hks⟩
  have hcycle (i j : Nat) (hlt : i < j) (heq : next^[i] n = next^[j] n) :
      ∃ ks m ks', Walk edge ks n m ∧ ks' ≠ [] ∧ Walk edge ks' m m := by
    obtain ⟨ks, -, hks⟩ := hwalk i n hn
    obtain ⟨ks', hlen, hks'⟩ := hwalk (j - i) (next^[i] n) (hall i)
    refine ⟨ks, next^[i] n, ks', hks, ?_, ?_⟩
    · intro hnil
      rw [hnil, List.length_nil] at hlen
      omega
    · have hback : next^[j - i] (next^[i] n) = next^[i] n := by
        rw [← Function.iterate_add_apply, Nat.sub_add_cancel (Nat.le_of_lt hlt), heq]
      rwa [hback] at hks'
  obtain ⟨i, j, hne, heq⟩ := Finite.exists_ne_map_eq_of_infinite
    fun i => (⟨next^[i] n, hfinite _ (hall i)⟩ : Fin size)
  have heq := congrArg Fin.val heq
  rcases Nat.lt_or_gt_of_ne hne with hlt | hlt
  · exact hcycle i j hlt heq
  · exact hcycle j i hlt heq.symm

end Walk

/-! ## What is waited for is there -/

/-- A stage that the phase waits for, other than the inputs, is there. -/
def Phase.Known (w : World) (flow : Nat) : Phase → Prop
  | .adopting target => (w.stage? flow target).isSome
  | .running (.onStage other m _ _) _ => (w.stage? other m).isSome
  | _ => True

namespace World

open StageGraph.Graph (Edge Blocks Pending)

variable {c : Completer} {w w' : World} {flow n : Nat} {g : Graph} {s : Stage}

theorem isSome_stage_of_fire {e : Event} {other m : Nat} (h : w.fire c e = some w')
    (hs : (w.stage? other m).isSome) : (w'.stage? other m).isSome := by
  obtain ⟨s, hs⟩ := Option.isSome_iff_exists.mp hs
  rcases stage_of_fire h hs with hs' | ⟨-, g, move, hsteps⟩
  · exact Option.isSome_iff_exists.mpr ⟨s, hs'⟩
  · exact Option.isSome_iff_exists.mpr ⟨_, hsteps.landing⟩

theorem known_of_fire {e : Event} {p : Phase} (h : w.fire c e = some w') (hp : p.Known w flow) :
    p.Known w' flow := by
  cases p with
  | adopting target => exact isSome_stage_of_fire h hp
  | running t forward =>
      cases t with
      | onStage other m next alarm => exact isSome_stage_of_fire h hp
      | _ => trivial
  | _ => trivial

/-- A stage whose name is looked up is there. -/
theorem isSome_stage_of_slot {stage : StageId} {m : Nat} (hg : w.graph? flow = some g)
    (hslot : g.slot? stage = .ok m) : (w.stage? flow m).isSome := by
  rw [stage?_of_graph hg]
  simpa using (Graph.slot?_eq_ok hslot).2

/-- A program that goes on to wait for a stage has asked for it by name. -/
theorem isSome_stage_of_pose {q : Question bodySignature} {other m : Nat}
    {next : Outcome → q.Answer} {alarm : Option (Alarm q.Answer)}
    (h : (w.pose c q).2 = .onStage other m next alarm) : (w.stage? other m).isSome := by
  cases q with
  | call r =>
      cases r with
      | awaitStage id stage timeout =>
          simp only [pose, call, awaitStage] at h
          cases hfind : w.find id with
          | error e => simp [hfind] at h
          | ok p =>
              obtain ⟨k, g⟩ := p
              cases hslot : g.slot? stage with
              | error e => simp [hfind, hslot] at h
              | ok k' =>
                  simp only [hfind, hslot, Thread.onStage.injEq] at h
                  obtain ⟨rfl, rfl, -⟩ := h
                  exact isSome_stage_of_slot (graph?_of_find hfind).1 hslot
      | _ => cases h
  | other q =>
      cases q with
      | removeFlow id => cases h
  | _ => cases h

/-- What a stage goes on to wait for is there. -/
theorem Steps.known {m : Move} (h : Steps c flow n w g s m w')
    (hfire : w.fire c (.task (.stage flow n)) = some w') : (g.landing c n m).Known w' flow := by
  have known_resolve (inputs : List Outcome) :
      (g.landing c n (s.resolve inputs)).Known w' flow := by
    rcases Graph.resolve_cases s inputs with ⟨o, hm⟩ | ⟨closure, args, forward, hm⟩
    · rw [hm]; trivial
    · rw [hm]; trivial
  obtain ⟨w₁, hdoes⟩ := h.does
  cases hdoes with
  | wake | gather | adopt => trivial
  | resolve | choose => exact known_resolve _
  -- A body waits for a stage that it has just asked for, or names one as it ends.
  | @ask t forward q next =>
      show Phase.Known w' flow (.running ((w.pose c q).2.map next) forward)
      cases hx : (w.pose c q).2 with
      | onStage other m answer alarm =>
          exact isSome_stage_of_fire hfire (isSome_stage_of_pose hx)
      | _ => trivial
  | @conclude _ forward _ o =>
      rcases g.conclude_cases s forward o with ⟨o', hm⟩ | ⟨target, hm⟩
      · rw [hm]; trivial
      · rw [hm]
        obtain ⟨stage, hslot⟩ := Graph.slot?_of_conclude hm
        exact isSome_stage_of_fire hfire (isSome_stage_of_slot h.graph hslot)

/-- In every state, what a stage waits for is there. -/
theorem known_of_reachable (h : w.Reachable c) (hs : w.stage? flow n = some s) :
    s.phase.Known w flow := by
  obtain ⟨es, hrun⟩ := h
  refine run_life flow n (P := fun _ w s => s.phase.Known w flow) ?_ ?_ ?_ hrun hs
  · intro es w g s _ hfresh
    cases hfresh with
    | completed o => trivial
    | delay moment => trivial
    | resolved _ _ =>
        unfold Phase.initial
        split <;> trivial
  · intro es w e w' s _ hknown hfire
    exact known_of_fire hfire hknown
  · intro es w g s m w' _ _ hfire hsteps
    exact hsteps.known hfire

/-- A stage that takes the first of its inputs has an input. -/
theorem deps_of_first (h : w.Reachable c) (hs : w.stage? flow n = some s)
    (hfirst : s.operation.readiness = .firstInput) : s.deps ≠ [] := by
  obtain ⟨es, hrun⟩ := h
  refine run_life flow n
    (P := fun _ _ s => s.operation.readiness = .firstInput → s.deps ≠ []) ?_ ?_ ?_ hrun hs hfirst
  · intro es w g s _ hfresh hfirst
    cases hfresh with
    | completed o => cases hfirst
    | delay moment => cases hfirst
    | @resolved r deps hr hdeps =>
        rintro rfl
        have hlen := (Graph.mapM_slot?_eq_ok hdeps).1
        unfold checkRequest at hr
        rw [← hlen] at hr
        cases hop : r.operation <;> rw [hop] at hfirst <;> cases hfirst <;>
          simp [hop, Operation.checkInputs, Operation.kind, bind, Except.bind] at hr
  · intro es w e w' s _ ih _
    exact ih
  · intro es w g s m w' _ ih _ _
    exact ih

/-! ## A state at rest -/

/-- No task has a step, and no timer is armed. -/
def AtRest (c : Completer) (w : World) : Prop := ∀ id, w.step c id = none ∧ w.momentsOf id = []

/-- Bodies that wait for a stage wait for one of their own flow. -/
def OwnFlows (w : World) : Prop :=
  ∀ flow n s other m next alarm forward, w.stage? flow n = some s →
    s.phase = .running (.onStage other m next alarm) forward → other = flow

theorem AtRest.stage (h : w.AtRest c) (hg : w.graph? flow = some g) (hs : g.stages[n]? = some s) :
    w.StageWaits g s.deps s.phase ∧ s.phase.moment? = none := by
  obtain ⟨hstep, hmoments⟩ := h (.stage flow n)
  constructor
  · exact move?_eq_none_iff.mp ((step_stage_eq_none_iff hg hs).mp hstep)
  · simpa [momentsOf, hg, hs] using hmoments

/-- Where nothing can go on, a stage that is not terminal waits for another one. -/
theorem AtRest.blocks (h : w.AtRest c) (hreach : w.Reachable c) (hown : w.OwnFlows)
    (hg : w.graph? flow = some g) (hn : g.Pending n) :
    ∃ k m, g.Blocks flow k n m ∧ g.Pending m := by
  obtain ⟨s, hs, hnone⟩ := hn
  have hs' : w.stage? flow n = some s := (stage?_of_graph hg).trans hs
  have hlt : n < g.stages.length := (List.getElem?_eq_some_iff.mp hs).1
  obtain ⟨hwaits, hmoment⟩ := h.stage hg hs
  have htraced := traced_of_reachable hreach hg
  have hknown := known_of_reachable hreach hs'
  have input {d : Nat} (hd : d ∈ s.deps) (ho : g.outcome? d = none) (hwaits : g.AwaitsInputs n) :
      ∃ k m, g.Blocks flow k n m ∧ g.Pending m := by
    have hpending := Graph.pending_of_outcome (Nat.lt_trans ((htraced n s hs).1 d hd) hlt) ho
    exact ⟨.input, d, ⟨.input hs hnone hd hpending, fun _ => hwaits⟩, hpending⟩
  have there {m : Nat} (hm : (w.stage? flow m).isSome) (ho : g.outcome? m = none) :
      g.Pending m := by
    rw [stage?_of_graph hg] at hm
    exact Graph.pending_of_outcome (by simpa using hm) ho
  generalize hphase : s.phase = p at hwaits hnone hmoment hknown
  cases hwaits with
  | nothing o => cases hnone
  | moment _ => cases hmoment
  | input got left ho =>
      exact input (htraced.next_mem hs hphase).1 ho ⟨s, hs, .inl ⟨got, _ :: left, hphase⟩⟩
  | anyInput ho =>
      obtain ⟨d, hd⟩ := List.exists_mem_of_ne_nil _
        (deps_of_first hreach hs' (htraced.chooses hs hphase).2)
      exact input hd (ho d hd) ⟨s, hs, .inr hphase⟩
  | @body t forward hresume =>
      cases t with
      | going p => cases hresume
      | asleep alarm => cases hmoment
      | onStage other m next alarm =>
          obtain rfl := hown flow n s other m next alarm forward hs' hphase
          have ho : w.outcome? other m = none := by
            cases ho : w.outcome? other m with
            | none => rfl
            | some o => simp [resume?, Thread.resume?, ho] at hresume
          rw [outcome?_of_graph hg] at ho
          exact ⟨.retrieval, m, ⟨.retrieval hs hphase (there hknown ho), by simp⟩, there hknown ho⟩
  | @target target ho =>
      exact ⟨.adoption, target, ⟨.adoption hs hphase (there hknown ho), by simp⟩, there hknown ho⟩

/-! ## Cycles -/

/-- In every state of every run in which nothing can go on and no timer is armed, and where bodies
wait for stages of their own flow only:
* from every pending stage a walk along waits leads to a cycle of waits;
* every input is older than the stage that has it, so such an edge leads to an earlier stage;
* every cycle has an edge that is an adoption or a retrieval;
* if no body adopts or retrieves a stage that waits, over any number of edges, for that body's own
  stage, then every stage has a result. -/
theorem wait_cycle (hreach : w.Reachable c) (hrest : w.AtRest c) (hown : w.OwnFlows)
    (hg : w.graph? flow = some g) :
    (∀ n, g.Pending n → ∃ ks m ks', Walk (g.Blocks flow) ks n m ∧ ks' ≠ [] ∧
      Walk (g.Blocks flow) ks' m m) ∧
    (∀ (n : Nat) (s : Stage), g.stages[n]? = some s → ∀ d ∈ s.deps, d < n) ∧
    (∀ n m, g.Edge flow .input n m → m < n) ∧
    (∀ n ks, ks ≠ [] → Walk (g.Edge flow) ks n n → .adoption ∈ ks ∨ .retrieval ∈ ks) ∧
    ((∀ k n m ks, k ≠ .input → g.Blocks flow k n m → ¬Walk (g.Blocks flow) ks m n) →
      ∀ (n : Nat) (s : Stage), g.stages[n]? = some s → (g.outcome? n).isSome) := by
  have hcycle (n : Nat) (hn : g.Pending n) : ∃ ks m ks', Walk (g.Blocks flow) ks n m ∧ ks' ≠ [] ∧
      Walk (g.Blocks flow) ks' m m := by
    have hfinite (n : Nat) (hn : g.Pending n) : n < g.stages.length := by
      obtain ⟨s, hs, -⟩ := hn
      exact (List.getElem?_eq_some_iff.mp hs).1
    exact Walk.reaches_cycle hfinite (fun n hn => hrest.blocks hreach hown hg hn) hn
  have hearlier (n : Nat) (s : Stage) (hs : g.stages[n]? = some s) : ∀ d ∈ s.deps, d < n :=
    (traced_of_reachable hreach hg n s hs).1
  have hinput (n m : Nat) (h : g.Edge flow .input n m) : m < n := by
    cases h with
    | input hs _ hm _ => exact hearlier n _ hs m hm
  have hclosed (n : Nat) (ks : List WaitKind) (hne : ks ≠ []) (h : Walk (g.Edge flow) ks n n) :
      .adoption ∈ ks ∨ .retrieval ∈ ks := by
    by_contra hnot
    have hdown : ∀ k n m, g.Edge flow k n m → k ∈ ks → m < n := by
      intro k n m hedge hk
      cases k with
      | input => exact hinput n m hedge
      | adoption => exact absurd (.inl hk) hnot
      | retrieval => exact absurd (.inr hk) hnot
    have hle := h.descends hdown
    have hpos := List.length_pos_iff.mpr hne
    omega
  refine ⟨hcycle, hearlier, hinput, hclosed, ?_⟩
  intro hnone n s hs
  by_contra hout
  have hpending := Graph.pending_of_outcome (List.getElem?_eq_some_iff.mp hs).1 (by simpa using hout)
  obtain ⟨-, m, ks, -, hne, hwalk⟩ := hcycle n hpending
  -- The body that closes the cycle has chosen a stage that waits for the body's own.
  have hno (k : WaitKind) (hk : k ≠ .input) (hmem : k ∈ ks) : False := by
    obtain ⟨a, b, first, rest, hfirst, hedge, hrest⟩ := hwalk.split hmem
    exact hnone k a b _ hk hedge (hrest.append hfirst)
  rcases hclosed m ks hne (hwalk.mono fun _ _ _ h => h.1) with hmem | hmem
  · exact hno .adoption (by simp) hmem
  · exact hno .retrieval (by simp) hmem

/-- The body of a stage names that stage, and another stage waits for it. -/
def selfRun : List Event :=
  [.call (.createFlow "f"), .call (.addCompleted ⟨"0"⟩ .empty),
    .call (.addStage ⟨"0"⟩ ⟨.thenCompose, some (.bare "name"), [⟨"0"⟩]⟩),
    .call (.addStage ⟨"0"⟩ ⟨.thenApply, some (.bare "name"), [⟨"1"⟩]⟩), .task (.stage 0 1),
    .task (.stage 0 1), .task (.stage 0 1)]

/-- The state after `selfRun`. -/
def selfEnd : World := (World.empty.run (.naming ⟨"1"⟩) selfRun).getD .empty

/-- The graph after `selfRun`. -/
def selfGraph : Graph := (selfEnd.graph? 0).getD (.new ⟨"0"⟩)

theorem wait_cycle_self :
    World.empty.run (.naming ⟨"1"⟩) selfRun = some selfEnd ∧ selfEnd.AtRest (.naming ⟨"1"⟩) ∧
      (∃ ks m ks', Walk (selfGraph.Blocks 0) ks 2 m ∧ ks' ≠ [] ∧
        Walk (selfGraph.Blocks 0) ks' m m) ∧
      ∀ n ks, ks ≠ [] → Walk (selfGraph.Edge 0) ks n n → .adoption ∈ ks ∨ .retrieval ∈ ks := by
  have hrun : World.empty.run (.naming ⟨"1"⟩) selfRun = some selfEnd := rfl
  have hg : selfEnd.graph? 0 = some selfGraph := rfl
  have hrest : selfEnd.AtRest (.naming ⟨"1"⟩) := fun id =>
    match id with
    | .stage 0 0 => ⟨rfl, rfl⟩
    | .stage 0 1 => ⟨rfl, rfl⟩
    | .stage 0 2 => ⟨rfl, rfl⟩
    | .stage 0 (_ + 3) => ⟨rfl, rfl⟩
    | .stage (_ + 1) _ => ⟨rfl, rfl⟩
    | .hooks 0 _ => ⟨rfl, rfl⟩
    | .hooks (_ + 1) _ => ⟨rfl, rfl⟩
  have hown : selfEnd.OwnFlows := fun flow n s _ _ _ _ _ hs hphase =>
    match flow, n with
    | 0, 0 => by cases hs; cases hphase
    | 0, 1 => by cases hs; cases hphase
    | 0, 2 => by cases hs; cases hphase
    | 0, _ + 3 => by cases hs
    | _ + 1, _ => by cases hs
  obtain ⟨hcycle, -, -, hclosed, -⟩ := wait_cycle ⟨selfRun, hrun⟩ hrest hown hg
  exact ⟨hrun, hrest, hcycle 2 ⟨_, rfl, rfl⟩, hclosed⟩

end World

end StageGraph
