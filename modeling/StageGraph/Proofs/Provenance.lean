/-
# `StageGraph.Proofs.Provenance` — where the results of stages come from

A stage that has ended does not tell how it came to its result.  But whatever
it did, it read results of its inputs, applied the rules of its operation to
them in the order of the inputs, and perhaps had a body run or took the result
of a stage that its body named.  `Graph.Settled` says this of a result, and
`Graph.Stands` says as much of every phase on the way there.

Results never change and stages keep what they were asked to do, so what has
been said of a stage once stays true.  Hence every graph that a run leads to
can account for all its stages (`Graph.Traced`), under every schedule.
-/
import StageGraph.Proofs.GraphRun
import StageGraph.Proofs.Lists

namespace StageGraph

/-! ## What bodies may give -/

/-- The program may end with a result, depending on the answers that it gets. -/
inductive CanGive : FlowProgram bodySignature Outcome → Outcome → Prop
  | done (o : Outcome) : CanGive (.done o) o
  | panic (p : Panic) : CanGive (.panic p) p.toOutcome
  | ask {q : Question bodySignature} {next : q.Answer → FlowProgram bodySignature Outcome}
      {o : Outcome} (a : q.Answer) : CanGive (next a) o → CanGive (.ask q next) o

theorem Graph.Ends.canGive {p : FlowProgram bodySignature Outcome} {o : Outcome}
    (h : Graph.Ends p o) : CanGive p o := by
  cases h with
  | done => exact .done o
  | panic p => exact .panic p

/-- The thread goes on with nothing but parts of a program. -/
def Thread.Serves (p : FlowProgram bodySignature Outcome) (t : BodyThread) : Prop :=
  t.Within fun p' => ∀ o, CanGive p' o → CanGive p o

/-! ## How a stage comes to its result -/

/-- What a stage was asked to do. -/
structure Recipe where
  operation : Operation
  closure : Option Closure
  deps : List Nat

/-- What the stage was asked to do. -/
def Stage.recipe (s : Stage) : Recipe := ⟨s.operation, s.closure, s.deps⟩

namespace Operation

/-- A stage that waits for all its inputs is made by a request. -/
theorem of_allInputs {op : Operation} (h : op.readiness = .allInputs) :
    op.hasOwnCall = false ∧ op.readiness ≠ .firstInput := by
  cases op <;> simp_all [hasOwnCall, readiness]

/-- A stage that waits for the first of its inputs adopts no other one. -/
theorem of_firstInput {op : Operation} (h : op.readiness = .firstInput) :
    op.hasOwnCall = false ∧ op.adopts = false := by
  cases op <;> simp_all [adopts, hasOwnCall, readiness]

/-- A stage that may adopt another one waits for all its inputs. -/
theorem of_adopts {op : Operation} (h : op.adopts = true) : op.readiness = .allInputs := by
  cases op <;> simp_all [adopts, readiness]

end Operation

namespace Graph

/-- The results from which a stage is resolved: those of all inputs in their order, or that of one
input alone. -/
inductive Ready (g : Graph) (k : Recipe) : List Outcome → Prop
  | all {inputs : List Outcome} : k.operation.readiness ≠ .firstInput →
      k.deps.map g.outcome? = inputs.map some → Ready g k inputs
  | first {d : Nat} {o : Outcome} : k.operation.readiness = .firstInput → d ∈ k.deps →
      g.outcome? d = some o → Ready g k [o]

/-- The body of the `n`th stage may give a result on arguments. -/
def Gives (c : Completer) (g : Graph) (n : Nat) (k : Recipe) (args : List Outcome) (o : Outcome) :
    Prop :=
  ∃ closure, k.closure = some closure ∧
    CanGive (c.catalog.invoke (g.invocation n closure args)) o

/-- The result of the `n`th stage follows from the results that it was resolved from. -/
inductive Follows (c : Completer) (g : Graph) (n : Nat) (k : Recipe) (inputs : List Outcome) :
    Outcome → Prop
  | error {e : FlowError} : k.operation.resolve inputs = .error e →
      Follows c g n k inputs (Report.ofFlow e).toOutcome
  | complete {o : Outcome} : k.operation.resolve inputs = .ok (.complete o) →
      Follows c g n k inputs o
  | bodyless {r : Resolution} : k.operation.resolve inputs = .ok r → (∀ o, r ≠ .complete o) →
      k.closure = none → Follows c g n k inputs (Stage.bodyless k.operation)
  | observed {args : List Outcome} {o r : Outcome} :
      k.operation.resolve inputs = .ok (.observe args o) → Gives c g n k args r →
      Follows c g n k inputs o
  | invoked {args : List Outcome} {o : Outcome} :
      k.operation.resolve inputs = .ok (.invoke args) → k.operation.adopts = false →
      Gives c g n k args o → Follows c g n k inputs o
  | composed {args : List Outcome} {r o : Outcome} :
      k.operation.resolve inputs = .ok (.invoke args) → k.operation.adopts = true →
      Gives c g n k args r → r.compose = .complete o → Follows c g n k inputs o
  | adopted {args : List Outcome} {r o : Outcome} {stage : StageId} {target : Nat} :
      k.operation.resolve inputs = .ok (.invoke args) → k.operation.adopts = true →
      Gives c g n k args r → r.compose = .adopt stage →
      Integer.readIndex? stage.text.toList = some target → g.outcome? target = some o →
      Follows c g n k inputs o
  /-- The body named a stage that was not there. -/
  | lost {args : List Outcome} {r : Outcome} {stage : StageId} :
      k.operation.resolve inputs = .ok (.invoke args) → k.operation.adopts = true →
      Gives c g n k args r → r.compose = .adopt stage →
      (∀ target, Integer.readIndex? stage.text.toList = some target → n < target) →
      Follows c g n k inputs (Report.ofFlow (.unknownStage g.id stage)).toOutcome

/-- The result of the `n`th stage is accounted for. -/
inductive Settled (c : Completer) (g : Graph) (n : Nat) (k : Recipe) : Outcome → Prop
  | value (o : Outcome) : k.operation = .completedValue → Settled c g n k o
  | delay : k.operation = .delay → Settled c g n k .empty
  | resolved {inputs : List Outcome} {o : Outcome} : k.operation.hasOwnCall = false →
      Ready g k inputs → Follows c g n k inputs o → Settled c g n k o

/-- The phase of the `n`th stage is accounted for. -/
inductive Stands (c : Completer) (g : Graph) (n : Nat) (k : Recipe) : Phase → Prop
  | ended {o : Outcome} : Settled c g n k o → Stands c g n k (.ended o)
  | delayed (moment : Nat) : k.operation = .delay → Stands c g n k (.delayed moment)
  | gathering {seen left : List Nat} {got : List Outcome} : k.operation.hasOwnCall = false →
      k.operation.readiness ≠ .firstInput → k.deps = seen ++ left →
      seen.map g.outcome? = got.map some → Stands c g n k (.gathering got left)
  | choosing : k.operation.hasOwnCall = false → k.operation.readiness = .firstInput →
      Stands c g n k .choosing
  | invoking {inputs args : List Outcome} {closure : Closure} {t : BodyThread} :
      k.operation.hasOwnCall = false → Ready g k inputs →
      k.operation.resolve inputs = .ok (.invoke args) → k.closure = some closure →
      t.Serves (c.catalog.invoke (g.invocation n closure args)) →
      Stands c g n k (.running t none)
  | observing {inputs args : List Outcome} {o : Outcome} {closure : Closure} {t : BodyThread} :
      k.operation.hasOwnCall = false → Ready g k inputs →
      k.operation.resolve inputs = .ok (.observe args o) → k.closure = some closure →
      t.Serves (c.catalog.invoke (g.invocation n closure args)) →
      Stands c g n k (.running t (some o))
  | adopting {inputs args : List Outcome} {r : Outcome} {stage : StageId} {target : Nat} :
      k.operation.hasOwnCall = false → Ready g k inputs →
      k.operation.resolve inputs = .ok (.invoke args) → k.operation.adopts = true →
      Gives c g n k args r → r.compose = .adopt stage →
      Integer.readIndex? stage.text.toList = some target → Stands c g n k (.adopting target)

/-- Every stage has earlier inputs only, and its phase is accounted for. -/
def Traced (c : Completer) (g : Graph) : Prop :=
  ∀ n s, g.stages[n]? = some s → (∀ d ∈ s.deps, d < n) ∧ Stands c g n s.recipe s.phase

/-! ## What stays true -/

/-- Results are only added. -/
structure Grows (g g' : Graph) : Prop where
  id : g'.id = g.id
  outcome : ∀ n o, g.outcome? n = some o → g'.outcome? n = some o

section Grows

variable {c : Completer} {g g' : Graph} {n : Nat} {k : Recipe} {inputs : List Outcome}

theorem Grows.results (h : Grows g g') {ns : List Nat} {os : List Outcome}
    (hos : ns.map g.outcome? = os.map some) : ns.map g'.outcome? = os.map some := by
  induction ns generalizing os with
  | nil => exact hos
  | cons n ns ih =>
      cases os with
      | nil => cases hos
      | cons o os =>
          simp only [List.map_cons, List.cons.injEq] at hos ⊢
          exact ⟨h.outcome n o hos.1, ih hos.2⟩

theorem Ready.mono (h : Grows g g') (hr : Ready g k inputs) : Ready g' k inputs := by
  cases hr with
  | all hall hos => exact .all hall (h.results hos)
  | first hfirst hd ho => exact .first hfirst hd (h.outcome _ _ ho)

theorem invocation_eq (h : g'.id = g.id) (closure : Closure) (args : List Outcome) :
    g'.invocation n closure args = g.invocation n closure args := by
  simp [invocation, h]

theorem Gives.mono (h : Grows g g') {args : List Outcome} {o : Outcome}
    (hg : Gives c g n k args o) : Gives c g' n k args o := by
  obtain ⟨closure, hclosure, hgive⟩ := hg
  exact ⟨closure, hclosure, by rw [invocation_eq h.id]; exact hgive⟩

theorem Follows.mono (h : Grows g g') {o : Outcome} (hf : Follows c g n k inputs o) :
    Follows c g' n k inputs o := by
  cases hf with
  | error hr => exact .error hr
  | complete hr => exact .complete hr
  | bodyless hr hnot hclosure => exact .bodyless hr hnot hclosure
  | observed hr hgives => exact .observed hr (hgives.mono h)
  | invoked hr ha hgives => exact .invoked hr ha (hgives.mono h)
  | composed hr ha hgives hc => exact .composed hr ha (hgives.mono h) hc
  | adopted hr ha hgives hc ht ho => exact .adopted hr ha (hgives.mono h) hc ht (h.outcome _ _ ho)
  | lost hr ha hgives hc ht => rw [← h.id]; exact .lost hr ha (hgives.mono h) hc ht

theorem Settled.mono (h : Grows g g') {o : Outcome} (hs : Settled c g n k o) :
    Settled c g' n k o := by
  cases hs with
  | value _ hop => exact .value o hop
  | delay hop => exact .delay hop
  | resolved hown hready hf => exact .resolved hown (hready.mono h) (hf.mono h)

theorem Stands.mono (h : Grows g g') {p : Phase} (hs : Stands c g n k p) :
    Stands c g' n k p := by
  cases hs with
  | ended hs => exact .ended (hs.mono h)
  | delayed moment hop => exact .delayed moment hop
  | gathering hown hall hdeps hos => exact .gathering hown hall hdeps (h.results hos)
  | choosing hown hfirst => exact .choosing hown hfirst
  | invoking hown hready hr hclosure hserves =>
      exact .invoking hown (hready.mono h) hr hclosure (by rw [invocation_eq h.id]; exact hserves)
  | observing hown hready hr hclosure hserves =>
      exact .observing hown (hready.mono h) hr hclosure (by rw [invocation_eq h.id]; exact hserves)
  | adopting hown hready hr ha hgives hc ht =>
      exact .adopting hown (hready.mono h) hr ha (hgives.mono h) hc ht

end Grows

/-! ## What a phase tells -/

/-- A stage that waits for all its inputs is resolved when all are terminal. -/
theorem Ready.all_ended {g : Graph} {k : Recipe} {inputs : List Outcome} (h : Ready g k inputs)
    (hall : k.operation.readiness ≠ .firstInput) : ∀ d ∈ k.deps, (g.outcome? d).isSome := by
  cases h with
  | first hfirst _ _ => exact absurd hfirst hall
  | all _ hos =>
      intro d hd
      have hmem : g.outcome? d ∈ inputs.map some := hos ▸ List.mem_map_of_mem hd
      obtain ⟨o, -, ho⟩ := List.mem_map.mp hmem
      rw [← ho]
      rfl

/-- A stage that waits for the first of its inputs is resolved when one is terminal. -/
theorem Ready.some_ended {g : Graph} {k : Recipe} {inputs : List Outcome} (h : Ready g k inputs)
    (hfirst : k.operation.readiness = .firstInput) : ∃ d ∈ k.deps, (g.outcome? d).isSome := by
  cases h with
  | all hall _ => exact absurd hfirst hall
  | first _ hd ho => exact ⟨_, hd, Option.isSome_iff_exists.mpr ⟨_, ho⟩⟩

/-- A stage that has not ended, and is no delay, is resolved from its inputs. -/
theorem Stands.ended_or_delayed_or_own {c : Completer} {g : Graph} {n : Nat} {k : Recipe}
    {p : Phase} (h : Stands c g n k p) :
    (∃ o, p = .ended o) ∨ (∃ moment, p = .delayed moment ∧ k.operation = .delay) ∨
      k.operation.hasOwnCall = false := by
  cases h with
  | ended _ => exact .inl ⟨_, rfl⟩
  | delayed moment hop => exact .inr (.inl ⟨moment, rfl, hop⟩)
  | gathering hown | choosing hown | invoking hown | observing hown | adopting hown =>
      exact .inr (.inr hown)

namespace Traced

variable {c : Completer} {g : Graph} {n : Nat} {s : Stage} (h : g.Traced c)
  (hs : g.stages[n]? = some s)

include h hs

theorem stands {p : Phase} (hphase : s.phase = p) : Stands c g n s.recipe p :=
  hphase ▸ (h n s hs).2

theorem settled {o : Outcome} (ho : g.outcome? n = some o) : Settled c g n s.recipe o := by
  rw [Graph.outcome?, hs, Option.bind_some] at ho
  cases h.stands hs (Phase.eq_ended ho) with
  | ended hsettled => exact hsettled

/-- A terminal stage that was made by a request has been resolved. -/
theorem resolved {o : Outcome} (hown : s.operation.hasOwnCall = false)
    (ho : g.outcome? n = some o) :
    ∃ inputs, Ready g s.recipe inputs ∧ Follows c g n s.recipe inputs o := by
  cases h.settled hs ho with
  | value _ hop | delay hop => rw [show s.operation = _ from hop] at hown; cases hown
  | resolved _ hready hfollows => exact ⟨_, hready, hfollows⟩

/-- What was given a value by its own call has ended from the start. -/
theorem ended_of_value (hop : s.operation = .completedValue) : ∃ o, s.phase = .ended o := by
  rcases (h.stands hs rfl).ended_or_delayed_or_own with hended | ⟨-, -, hdelay⟩ | hown
  · exact hended
  · cases hop.symm.trans hdelay
  · rw [show s.recipe.operation = _ from hop] at hown
    cases hown

theorem own_of_initial {op : Operation} {deps : List Nat} (hphase : s.phase = .initial op deps) :
    s.operation.hasOwnCall = false := by
  have hstands := h.stands hs hphase
  unfold Phase.initial at hstands
  cases hready : op.readiness with
  | allInputs | firstInput | immediate =>
      simp only [hready] at hstands
      cases hstands
      assumption

theorem delays {moment : Nat} (hphase : s.phase = .delayed moment) : s.operation = .delay := by
  cases h.stands hs hphase with
  | delayed _ hop => exact hop

/-- The input that is waited for next is one of those that were asked for. -/
theorem next_mem {got : List Outcome} {d : Nat} {left : List Nat}
    (hphase : s.phase = .gathering got (d :: left)) :
    d ∈ s.deps ∧ s.operation.readiness ≠ .firstInput := by
  cases h.stands hs hphase with
  | gathering _ hall hdeps _ =>
      refine ⟨?_, hall⟩
      rw [show s.deps = _ from hdeps]
      simp

/-- A stage that has gathered all its inputs can be resolved from them. -/
theorem gathered {got : List Outcome} (hphase : s.phase = .gathering got []) :
    s.operation.hasOwnCall = false ∧ Ready g s.recipe got := by
  cases h.stands hs hphase with
  | gathering hown hall hdeps hgot =>
      rw [List.append_nil] at hdeps
      exact ⟨hown, .all hall (by rw [hdeps]; exact hgot)⟩

theorem chooses (hphase : s.phase = .choosing) :
    s.operation.hasOwnCall = false ∧ s.operation.readiness = .firstInput := by
  cases h.stands hs hphase with
  | choosing hown hfirst => exact ⟨hown, hfirst⟩

/-- A stage that takes the first of its inputs can be resolved from that one. -/
theorem chosen {o : Outcome} (hphase : s.phase = .choosing)
    (ho : s.deps.findSome? g.outcome? = some o) :
    s.operation.hasOwnCall = false ∧ Ready g s.recipe [o] := by
  obtain ⟨hown, hfirst⟩ := h.chooses hs hphase
  obtain ⟨d, hd, ho⟩ := List.exists_of_findSome?_eq_some ho
  exact ⟨hown, .first hfirst hd ho⟩

theorem adopts {target : Nat} (hphase : s.phase = .adopting target) :
    s.operation.adopts = true := by
  cases h.stands hs hphase with
  | adopting _ _ _ hadopts _ _ _ => exact hadopts

end Traced

/-! ## New stages -/

/-- A position that a name stands for is one of the graph. -/
theorem slot?_eq_ok {g : Graph} {stage : StageId} {t : Nat} (h : g.slot? stage = .ok t) :
    Integer.readIndex? stage.text.toList = some t ∧ t < g.stages.length := by
  unfold slot? at h
  cases hread : Integer.readIndex? stage.text.toList with
  | none => simp [hread] at h
  | some n =>
      by_cases hlt : n < g.stages.length
      · simp only [hread, if_pos hlt, Except.ok.injEq] at h
        exact ⟨by rw [h], h ▸ hlt⟩
      · simp [hread, hlt] at h

/-- A name that stands for no position of the graph stands for a later one, if for any. -/
theorem slot?_eq_error {g : Graph} {stage : StageId} {e : FlowError} (h : g.slot? stage = .error e) :
    e = .unknownStage g.id stage ∧
      ∀ t, Integer.readIndex? stage.text.toList = some t → g.stages.length ≤ t := by
  unfold slot? at h
  cases hread : Integer.readIndex? stage.text.toList with
  | none =>
      simp only [hread, Except.error.injEq] at h
      exact ⟨h.symm, by simp⟩
  | some n =>
      by_cases hlt : n < g.stages.length
      · simp [hread, hlt] at h
      · simp only [hread, if_neg hlt, Except.error.injEq] at h
        refine ⟨h.symm, ?_⟩
        intro t ht
        obtain rfl := Option.some.inj ht
        omega

theorem mapM_slot?_eq_ok {g : Graph} {stages : List StageId} {deps : List Nat}
    (h : stages.mapM g.slot? = .ok deps) :
    deps.length = stages.length ∧ ∀ d ∈ deps, d < g.stages.length := by
  have hall := mapM_eq_ok.mp h
  have hlt : List.Forall₂ (fun d stage => d < g.stages.length ∧ g.slot? stage = .ok d) deps stages :=
    hall.flip.imp fun d stage hslot => ⟨(slot?_eq_ok hslot).2, hslot⟩
  exact ⟨hall.length_eq.symm, ((List.forall₂_and_left _ _).mp hlt).1⟩

/-- A request that is let through has no call of its own, and no inputs if it waits for none. -/
theorem checkRequest_eq_ok {r : StageRequest} (h : World.checkRequest r = .ok ()) :
    r.operation.hasOwnCall = false ∧
      (r.operation.readiness = .immediate → r.deps = []) := by
  unfold World.checkRequest at h
  cases hinputs : r.operation.checkInputs r.deps.length with
  | error e => simp [hinputs, bind, Except.bind] at h
  | ok u =>
      simp only [hinputs, bind, Except.bind] at h
      split at h
      · cases h
      · cases hown : r.operation.hasOwnCall with
        | true => simp [hown] at h
        | false =>
            refine ⟨rfl, ?_⟩
            intro himmediate
            cases hop : r.operation <;> rw [hop] at hown himmediate hinputs <;>
              simp_all [Operation.hasOwnCall, Operation.readiness, Operation.checkInputs,
                Operation.kind]

/-- A new stage has only stages of the graph as its inputs, and is in its first phase. -/
theorem stands_of_fresh {g : Graph} {s : Stage} (h : s.Fresh g) (c : Completer) (n : Nat) :
    (∀ d ∈ s.deps, d < g.stages.length) ∧ Stands c g n s.recipe s.phase := by
  cases h with
  | completed o => exact ⟨by simp, .ended (.value o rfl)⟩
  | delay moment => exact ⟨by simp, .delayed moment rfl⟩
  | @resolved r deps hr hdeps =>
      obtain ⟨hown, himmediate⟩ := checkRequest_eq_ok hr
      obtain ⟨hlen, hlt⟩ := mapM_slot?_eq_ok hdeps
      refine ⟨hlt, ?_⟩
      show Stands c g n ⟨r.operation, r.closure, deps⟩ (.initial r.operation deps)
      unfold Phase.initial
      cases hready : r.operation.readiness with
      | immediate =>
          obtain rfl : deps = [] := by simpa [himmediate hready] using hlen
          exact .gathering hown (by simp [hready]) (List.append_nil []).symm rfl
      | allInputs => exact .gathering hown (by simp [hready]) (List.nil_append deps).symm rfl
      | firstInput => exact .choosing hown hready

/-! ## Moves -/

variable {c : Completer} {g g' : Graph} {n : Nat} {s : Stage}

/-- A stage that is resolved goes on as the rules of its operation say. -/
theorem stands_of_resolve {inputs : List Outcome} (hown : s.operation.hasOwnCall = false)
    (hready : Ready g s.recipe inputs) :
    (∃ o, s.resolve inputs = .finish o ∧ Settled c g n s.recipe o) ∨
      ∃ closure args forward, s.resolve inputs = .launch closure args forward ∧
        ∀ t : BodyThread, t.Serves (c.catalog.invoke (g.invocation n closure args)) →
          Stands c g n s.recipe (.running t forward) := by
  unfold Stage.resolve Stage.launch
  cases hr : s.operation.resolve inputs with
  | error e => exact .inl ⟨_, rfl, .resolved hown hready (.error hr)⟩
  | ok r =>
      cases r with
      | complete o => exact .inl ⟨_, rfl, .resolved hown hready (.complete hr)⟩
      | invoke args =>
          cases hclosure : s.closure with
          | none => exact .inl ⟨_, rfl, .resolved hown hready (.bodyless hr (by simp) hclosure)⟩
          | some closure =>
              exact .inr ⟨closure, args, none, rfl,
                fun t ht => .invoking hown hready hr hclosure ht⟩
      | observe args o =>
          cases hclosure : s.closure with
          | none => exact .inl ⟨_, rfl, .resolved hown hready (.bodyless hr (by simp) hclosure)⟩
          | some closure =>
              exact .inr ⟨closure, args, some o, rfl,
                fun t ht => .observing hown hready hr hclosure ht⟩

/-- A stage whose body has ended goes on as its operation says. -/
theorem stands_of_conclude {t : BodyThread} {forward : Option Outcome}
    {p : FlowProgram bodySignature Outcome} {o : Outcome} (hn : n < g.stages.length)
    (h : Stands c g n s.recipe (.running t forward)) (hp : t.Offers p) (ho : Ends p o) :
    (∃ o', g.conclude s forward o = .finish o' ∧ Settled c g n s.recipe o') ∨
      ∃ target, g.conclude s forward o = .turn (.adopting target) ∧
        Stands c g n s.recipe (.adopting target) := by
  cases h with
  | @observing inputs args f closure _ hown hready hr hclosure hserves =>
      have hgives : Gives c g n s.recipe args o := ⟨closure, hclosure, hserves.offers hp o ho.canGive⟩
      exact .inl ⟨f, rfl, .resolved hown hready (.observed hr hgives)⟩
  | @invoking inputs args closure _ hown hready hr hclosure hserves =>
      have hgives : Gives c g n s.recipe args o := ⟨closure, hclosure, hserves.offers hp o ho.canGive⟩
      unfold conclude
      cases hadopts : s.operation.adopts with
      | false => exact .inl ⟨o, rfl, .resolved hown hready (.invoked hr hadopts hgives)⟩
      | true =>
          cases hc : o.compose with
          | complete o' =>
              exact .inl ⟨o', rfl, .resolved hown hready (.composed hr hadopts hgives hc)⟩
          | adopt stage =>
              cases hslot : g.slot? stage with
              | ok target =>
                  refine .inr ⟨target, by simp [hslot], ?_⟩
                  exact .adopting hown hready hr hadopts hgives hc (slot?_eq_ok hslot).1
              | error e =>
                  obtain ⟨rfl, hlost⟩ := slot?_eq_error hslot
                  refine .inl ⟨(Report.ofFlow (.unknownStage g.id stage)).toOutcome,
                    by simp [hslot], .resolved hown hready ?_⟩
                  exact .lost hr hadopts hgives hc fun t ht => Nat.lt_of_lt_of_le hn (hlost t ht)

/-- The graph after a stage has come into a phase that it can account for. -/
theorem Traced.set {p : Phase} (h : Traced c g) (hs : g.stages[n]? = some s)
    (hnone : s.phase.outcome? = none) (hid : g'.id = g.id)
    (hstages : g'.stages = g.stages.set n { s with phase := p })
    (hp : Stands c g n s.recipe p) : Traced c g' := by
  have hlt := (List.getElem?_eq_some_iff.mp hs).1
  have hgrows : Grows g g' := by
    refine ⟨hid, ?_⟩
    intro m o ho
    simp only [outcome?, hstages, List.getElem?_set] at ho ⊢
    by_cases hnm : n = m
    · subst hnm
      simp [hs, hnone] at ho
    · simpa [hnm] using ho
  intro m s' hs'
  rw [hstages, List.getElem?_set] at hs'
  by_cases hnm : n = m
  · subst hnm
    obtain rfl : { s with phase := p } = s' := by simpa [hlt] using hs'
    exact ⟨(h n s hs).1, hp.mono hgrows⟩
  · rw [if_neg hnm] at hs'
    exact ⟨(h m s' hs').1, (h m s' hs').2.mono hgrows⟩

/-- Where the stages are the same, they are accounted for in the same way. -/
theorem Traced.same (h : Traced c g) (hid : g'.id = g.id) (hstages : g'.stages = g.stages) :
    Traced c g' := by
  have hgrows : Grows g g' := ⟨hid, fun m o ho => by simpa [outcome?, hstages] using ho⟩
  intro m s hs
  rw [hstages] at hs
  exact ⟨(h m s hs).1, (h m s hs).2.mono hgrows⟩

theorem Traced.finish {o : Outcome} (h : Traced c g) (hs : g.stages[n]? = some s)
    (hnone : s.phase.outcome? = none) (ho : Settled c g n s.recipe o) :
    Traced c (g.finish n o) := by
  refine h.set hs hnone ?_ ?_ (.ended ho)
  · simp [Graph.finish, setPhase]
  · simpa [Graph.finish] using setPhase_stages hs (.ended o)

theorem Traced.turn {p : Phase} (h : Traced c g) (hs : g.stages[n]? = some s)
    (hnone : s.phase.outcome? = none) (hp : Stands c g n s.recipe p) :
    Traced c (g.setPhase n p) :=
  h.set hs hnone rfl (setPhase_stages hs p) hp

theorem Traced.resolve {inputs : List Outcome} (h : Traced c g) (hs : g.stages[n]? = some s)
    (hnone : s.phase.outcome? = none) (hown : s.operation.hasOwnCall = false)
    (hready : Ready g s.recipe inputs) : Traced c (g.move c n (s.resolve inputs)) := by
  rcases stands_of_resolve hown hready with ⟨o, hmove, ho⟩ | ⟨closure, args, forward, hmove, hp⟩
  · rw [hmove]
    exact h.finish hs hnone ho
  · rw [hmove]
    exact h.turn hs hnone (hp _ fun o ho => ho)

/-- A move of a stage leaves every stage accounted for. -/
theorem Traced.move {m : Move} (h : Traced c g) (hs : g.stages[n]? = some s)
    (hm : Moves g s m) : Traced c (g.move c n m) := by
  have hnone := hm.outcome?
  cases hm with
  | wake hphase => exact h.finish hs hnone (.delay (h.delays hs hphase))
  | @gather got d left o hphase ho =>
      cases h.stands hs hphase with
      | @gathering seen _ _ hown hall hdeps hgot =>
          have hdeps' : s.deps = (seen ++ [d]) ++ left := by
            rw [List.append_assoc]
            exact hdeps
          exact h.turn hs hnone (.gathering hown hall hdeps' (by simp [hgot, ho]))
  | resolve hphase =>
      obtain ⟨hown, hready⟩ := h.gathered hs hphase
      exact h.resolve hs hnone hown hready
  | choose hphase ho =>
      obtain ⟨hown, hready⟩ := h.chosen hs hphase ho
      exact h.resolve hs hnone hown hready
  | @think t forward q next x hphase hp =>
      have hserves {p₀ : FlowProgram bodySignature Outcome} (ht : t.Serves p₀) :
          (x.map next).Serves p₀ :=
        Thread.within_map (fun a o ho => ht.offers hp o (.ask a ho)) x
      cases h.stands hs hphase with
      | invoking hown hready hr hclosure ht =>
          exact h.turn hs hnone (.invoking hown hready hr hclosure (hserves ht))
      | observing hown hready hr hclosure ht =>
          exact h.turn hs hnone (.observing hown hready hr hclosure (hserves ht))
  | conclude hphase hp ho =>
      have hlt := (List.getElem?_eq_some_iff.mp hs).1
      rcases stands_of_conclude hlt (h.stands hs hphase) hp ho with ⟨o', hmove, ho'⟩ | ⟨target, hmove, hp'⟩
      · rw [hmove]
        exact h.finish hs hnone ho'
      · rw [hmove]
        exact h.turn hs hnone hp'
  | adopt hphase ho =>
      cases h.stands hs hphase with
      | adopting hown hready hr ha hgives hc ht =>
          exact h.finish hs hnone (.resolved hown hready (.adopted hr ha hgives hc ht ho))

/-! ## Runs -/

/-- Every change leaves every stage accounted for. -/
theorem Traced.change {d : Option Deed} (h : Traced c g) (hchange : Change c g d g') :
    Traced c g' := by
  rcases hchange.life_cases with
    ⟨s, id, hfresh, hg', -⟩ | ⟨s, hg', -⟩ | ⟨n, s, m, hs, hm, rfl, -⟩ | ⟨hsame, -⟩
  · obtain ⟨-, -, rfl⟩ := allocate_eq_ok hg'
    have hgrows : Grows g { g with
        stages := g.stages ++ [s]
        active := if s.phase.outcome?.isSome then g.active else g.active + 1 } := by
      refine ⟨rfl, ?_⟩
      intro m o ho
      obtain ⟨s', hs', ho⟩ := Option.bind_eq_some_iff.mp ho
      have hlt := (List.getElem?_eq_some_iff.mp hs').1
      simp only [outcome?, List.getElem?_append_left hlt, hs']
      exact ho
    intro m s' hs'
    by_cases hlt : m < g.stages.length
    · rw [List.getElem?_append_left hlt] at hs'
      exact ⟨(h m s' hs').1, (h m s' hs').2.mono hgrows⟩
    · rw [List.getElem?_append_right (Nat.le_of_not_lt hlt)] at hs'
      obtain rfl : s = s' := by
        have hzero := (List.getElem?_eq_some_iff.mp hs').1
        have hzero : m - g.stages.length = 0 := by simpa using hzero
        simpa [hzero] using hs'
      obtain ⟨hdeps, hstands⟩ := stands_of_fresh hfresh c m
      exact ⟨fun d hd => Nat.lt_of_lt_of_le (hdeps d hd) (Nat.le_of_not_lt hlt),
        hstands.mono hgrows⟩
  · obtain ⟨-, rfl⟩ := commit_eq_ok hg'
    exact h.same (by simp) (by simp)
  · exact h.move hs hm
  · exact h.same hsame.id hsame.stages

end Graph

/-- Every graph that a run leads to can account for all its stages. -/
theorem World.traced_of_reachable {c : Completer} {w : World} {flow : Nat} {g : Graph}
    (h : w.Reachable c) (hg : w.graph? flow = some g) : g.Traced c := by
  obtain ⟨ds, hchanges⟩ := changes_of_reachable h hg
  have hnew : (Graph.new (c.flowName flow)).Traced c := by
    intro n s hs
    simp [Graph.new] at hs
  exact hchanges.preserves (fun h hchange => h.change hchange) hnew

end StageGraph
