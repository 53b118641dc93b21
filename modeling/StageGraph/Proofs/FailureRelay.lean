/-
# `StageGraph.Proofs.FailureRelay` — a failure crosses any number of stages unchanged

A stage that fails because its body has retrieved a failed stage has not failed
anew.  Retrieval turns the failure into an error that carries the datum, the body
wraps what it likes around the error, and what is recorded for the error is that
datum again, because contexts are never searched for one.  On the way the result may
be written and read again.

So one hop takes a failure to itself (`Catalog.Relays.invoke`), and any number of them
does.  It does not matter who answers the questions of the bodies: the first half of
this file takes any surroundings, of which it only knows that they answer with the
recorded result.  The second half is about a completer, where it has to be shown that
a body that waits for a stage gets just that answer: its flow cannot be forgotten
while it runs (`World.find_of_active`).  For this the names of flows have to tell them
apart, since a name stands for the first flow that bears it.
-/
import StageGraph.Proofs.Invocation
import StageGraph.Proofs.WireRoundTrip

namespace StageGraph

open StageGraph.Continuation (Body)
open StageGraph.Wire (Codec)

/-! ## Recording -/

namespace Report

/-- Contexts do not count for what is recorded. -/
theorem causes_foldl_wrap (contexts : List Context) (r : Report) :
    (contexts.foldl wrap r).causes = r.causes := by
  induction contexts generalizing r with
  | nil => rfl
  | cons context contexts ih => exact ih (r.wrap context)

/-- A failure that was retrieved is recorded as it was, whatever is wrapped around it. -/
theorem toOutcome_stageFailure (contexts : List Context) (d : Datum) :
    (contexts.foldl wrap (ofFlow (.stageFailure d))).toOutcome = .failure d := by
  rw [toOutcome, toDatum, causes_foldl_wrap]
  rfl

end Report

/-! ## One hop -/

/-- How a result is passed on: whether it is written and read again on its way, and what is wrapped
around the error, innermost first. -/
structure Hop where
  wired : Bool
  contexts : List Context

namespace Hop

variable {E : Signature} {α : Type}

/-- What arrives of a recorded result. -/
def deliver (hop : Hop) (o : Outcome) : Except FlowError Outcome :=
  if hop.wired then Outcome.ofBytes o.toBytes else .ok o

/-- The value of a stage; its failure as an error. -/
def get (hop : Hop) (h : Handle) (c : Codec α) : FlowM E α := do
  let o ← h.result
  let o ← FlowM.ofExcept (hop.deliver o)
  FlowM.ofExcept (o.retrieve c)

/-- A body that retrieves a stage first: it goes on with the value, and returns an error with the
contexts around it. -/
def passOn (hop : Hop) (h : Handle) (c : Codec α) (next : α → Body Datum) : Body Datum :=
  ExceptT.mk ((BodyM.ofFlow (hop.get h c)).run.bind fun
    | .ok a => (next a).run
    | .error r => .done (.error (hop.contexts.foldl Report.wrap r)))

theorem deliver_eq (hop : Hop) (o : Outcome) : hop.deliver o = .ok o := by
  unfold deliver
  cases hop.wired with
  | false => rfl
  | true =>
      simp only [if_true]
      rw [Outcome.ofBytes, Outcome.toBytes, Codec.decode_encode (o.readsBack 124)]
      rfl

/-- The way makes no difference. -/
theorem get_eq (hop : Hop) (h : Handle) (c : Codec α) :
    (hop.get h c : FlowM E α) = h.get c := by
  simp only [get, deliver_eq]
  rfl

end Hop

/-- Retrieval asks for the result, and goes on with what is retrieved from it. -/
theorem Handle.run_get {E : Signature} {α : Type} (h : Handle) (c : Codec α) :
    (h.get c : FlowM E α).run =
      .ask (.call (.awaitStage h.flow h.stage none))
        fun a => .done (a.bind fun o => o.retrieve c) := by
  show Program.ask _ _ = _
  congr 1
  funext a
  cases a <;> rfl

/-- How a body goes on with the answer. -/
def Hop.onAnswer {α : Type} (hop : Hop) (c : Codec α) (next : α → Body Datum)
    (a : Except FlowError Outcome) : FlowProgram bodySignature (Except Report Datum) :=
  match a.bind fun o => o.retrieve c with
  | .ok v => (next v).run
  | .error e => .done (.error (hop.contexts.foldl Report.wrap (.ofFlow e)))

theorem Hop.run_passOn {α : Type} (hop : Hop) (h : Handle) (c : Codec α)
    (next : α → Body Datum) :
    (hop.passOn h c next).run =
      .ask (.call (.awaitStage h.flow h.stage none)) (hop.onAnswer c next) := by
  unfold passOn BodyM.ofFlow
  rw [hop.get_eq, h.run_get c]
  show Program.ask _ _ = _
  congr 1
  funext a
  show Program.bind (.done ((a.bind fun o => o.retrieve c).mapError Report.ofFlow)) _ = _
  unfold onAnswer
  cases a.bind fun o => o.retrieve c <;> rfl

/-- A body that is run for a stage passes a failure of the stage `source` on. -/
inductive Catalog.Relays (k : Catalog) (r : Invocation) (source : Handle) : Prop
  | intro {cont : Continuation} {α : Type} (hop : Hop) (c : Codec α) (next : α → Body Datum) :
      k.find? r.closure.entry = some cont → r.args.length = cont.kind.arity →
      cont.run r.closure r.args = hop.passOn source c next → Relays k r source

/-- Such a body asks for the result of `source`, and is recorded with the same failure. -/
theorem Catalog.Relays.invoke {k : Catalog} {r : Invocation} {source : Handle}
    (h : k.Relays r source) :
    ∃ next, k.invoke r = .ask (.call (.awaitStage source.flow source.stage none)) next ∧
      ∀ d, next (.ok (.failure d)) = .done (.failure d) := by
  obtain @⟨cont, α, hop, c, next, hentry, hlen, hrun⟩ := h
  refine ⟨fun a => (FlowProgram.scope r.flow (hop.onAnswer c next a)).attempt.bind fun ended =>
    .done (Catalog.recorded ended), ?_, ?_⟩
  · simp only [Catalog.invoke, hentry, if_pos hlen, hrun, hop.run_passOn]
    rfl
  · intro d
    show Program.done (Report.toOutcome _) = _
    rw [Report.toOutcome_stageFailure]

/-! ## Any surroundings -/

section Surroundings

variable {σ : Type} {answer : (q : Question bodySignature) → σ → q.Answer × σ} {s : σ} {d : Datum}

/-- Where it is answered with a failure, retrieval fails with it. -/
theorem Hop.runIn_get {α : Type} (hop : Hop) (h : Handle) (c : Codec α)
    (ha : (answer (.call (.awaitStage h.flow h.stage none)) s).1 = .ok (.failure d)) :
    ((hop.get h c : FlowM bodySignature α).run.runIn answer s).1 =
      .ok (.error (.stageFailure d)) := by
  rw [hop.get_eq, h.run_get c]
  simp only [Program.runIn, ha]
  rfl

theorem Catalog.Relays.runIn {k : Catalog} {r : Invocation} {source : Handle}
    (h : k.Relays r source)
    (ha : (answer (.call (.awaitStage source.flow source.stage none)) s).1 = .ok (.failure d)) :
    ((k.invoke r).runIn answer s).1 = .ok (.failure d) := by
  obtain ⟨next, hinvoke, hnext⟩ := h.invoke
  simp only [hinvoke, Program.runIn, ha, hnext]

end Surroundings

/-- Somewhere, where `source` is known to have the result `o`, the body that is run leaves `o'`. -/
inductive Catalog.Records (k : Catalog) (r : Invocation) (source : Handle) (o o' : Outcome) : Prop
  | intro {σ : Type} (answer : (q : Question bodySignature) → σ → q.Answer × σ) (s : σ) :
      (answer (.call (.awaitStage source.flow source.stage none)) s).1 = .ok o →
      ((k.invoke r).runIn answer s).1 = .ok o' → Records k r source o o'

theorem Catalog.Records.failure {k : Catalog} {r : Invocation} {source : Handle} {d : Datum}
    {o : Outcome} (h : k.Records r source (.failure d) o) (hrelays : k.Relays r source) :
    o = .failure d := by
  obtain ⟨answer, s, ha, hrun⟩ := h
  rw [hrelays.runIn ha] at hrun
  exact (Except.ok.inj hrun).symm

/-- The induction over the hops. -/
theorem failure_of_records {count : Nat} {d : Datum} {results : Nat → Outcome} {k : Nat → Catalog}
    {r : Nat → Invocation} {source : Nat → Handle} (hfirst : results 0 = .failure d)
    (hhops : ∀ i < count, (k i).Relays (r i) (source i) ∧
      (k i).Records (r i) (source i) (results i) (results (i + 1))) :
    ∀ i ≤ count, results i = .failure d := by
  intro i hi
  induction i with
  | zero => exact hfirst
  | succ i ih =>
      obtain ⟨hrelays, hrecords⟩ := hhops i hi
      rw [ih (Nat.le_of_succ_le hi)] at hrecords
      exact hrecords.failure hrelays

/-! ## A completer -/

namespace Graph

variable {c : Completer} {g g' : Graph} {n : Nat} {s : Stage}

/-- Only a flow that has come to its end is forgotten. -/
theorem Change.removed {d : Option Deed} (h : Change c g d g')
    (hg : g.removed = true → g.terminated.isSome) : g'.removed = true → g'.terminated.isSome := by
  cases h with
  | call hcall =>
      cases hcall with
      | allocate _ hg' =>
          obtain ⟨-, -, rfl⟩ := allocate_eq_ok hg'
          exact hg
      | addHook closure =>
          rw [addHook_eq]
          exact hg
      | commit hg' =>
          obtain ⟨-, rfl⟩ := commit_eq_ok hg'
          simpa using hg
      | remove hterminated => exact fun _ => hterminated
  | move _ _ => simpa using hg
  | begin _ _ => exact hg
  | skip _ _ => exact fun _ => rfl
  | @drain _ state d m _ hm =>
      cases m with
      | leave =>
          intro hremoved
          cases state with
          | none => exact hg hremoved
          | some state => rfl
      | _ => exact hg

end Graph

namespace World

open StageGraph.Graph (Changes)

variable {c : Completer} {w w' : World} {flow n m : Nat} {g : Graph} {s : Stage} {es : List Event}

/-- A flow bears the name that was chosen by its number. -/
theorem id_of_reachable (hreach : w.Reachable c) (hg : w.graph? flow = some g) :
    g.id = c.flowName flow := by
  obtain ⟨ds, hchanges⟩ := changes_of_reachable hreach hg
  exact hchanges.grows.id

/-- The name of a flow that has not been forgotten stands for it. -/
theorem find_of_known (hinj : Function.Injective c.flowName) (hreach : w.Reachable c)
    (hg : w.graph? flow = some g) (hremoved : g.removed = false) :
    w.find g.id = .ok (flow, g) := by
  refine find_eq_ok.mpr ⟨hg, rfl, hremoved, ?_⟩
  intro k g' hk hg' hid
  rw [id_of_reachable hreach hg', id_of_reachable hreach hg] at hid
  exact absurd (hinj hid) (Nat.ne_of_lt hk)

/-- A flow that has been forgotten has come to its end. -/
theorem terminated_of_removed (hreach : w.Reachable c) (hg : w.graph? flow = some g)
    (hremoved : g.removed = true) : ∃ state, g.terminated = some state := by
  obtain ⟨ds, hchanges⟩ := changes_of_reachable hreach hg
  refine Option.isSome_iff_exists.mp ?_
  refine hchanges.preserves (P := fun g => g.removed = true → g.terminated.isSome) ?_ ?_ hremoved
  · exact fun hg hchange => hchange.removed hg
  · intro h
    cases h

/-- The flow of a stage that is not terminal is known. -/
theorem find_of_active (hinj : Function.Injective c.flowName) (hreach : w.Reachable c)
    (hg : w.graph? flow = some g) (hs : g.stages[n]? = some s) (hnone : s.phase.outcome? = none) :
    w.find g.id = .ok (flow, g) := by
  refine find_of_known hinj hreach hg ?_
  cases hr : g.removed with
  | false => rfl
  | true =>
      obtain ⟨state, hstate⟩ := terminated_of_removed hreach hg hr
      obtain ⟨ds, hchanges⟩ := changes_of_reachable hreach hg
      obtain ⟨a, horderly⟩ := (Graph.orderly_new _).changes hchanges
      have hended := (horderly.terminated hstate).2 s (List.mem_of_getElem? hs)
      rw [hnone] at hended
      cases hended

/-- How far a body has come that passes a failure on: it asks for the result, or waits for it, or
has got it. -/
inductive Relaying (w : World) (flow m : Nat) (source : Handle)
    (next : Except FlowError Outcome → FlowProgram bodySignature Outcome) : Phase → Prop
  | asks : Relaying w flow m source next
      (.running (.going (.ask (.call (.awaitStage source.flow source.stage none)) next)) none)
  | waits : Relaying w flow m source next
      (.running (.onStage flow m (fun o => next (.ok o)) none) none)
  | passed {o : Outcome} {p : Phase} : w.outcome? flow m = some o →
      (∀ d, o = .failure d → p = .ended (.failure d)) → Relaying w flow m source next p

theorem conclude_failure (g : Graph) (s : Stage) (d : Datum) :
    g.conclude s none (.failure d) = .finish (.failure d) := by
  unfold Graph.conclude
  cases s.operation.adopts <;> rfl

section Relaying

variable {source : Handle} {next : Except FlowError Outcome → FlowProgram bodySignature Outcome}

theorem Relaying.kept {e : Event} {p : Phase} (h : Relaying w flow m source next p)
    (hfire : w.fire c e = some w') : Relaying w' flow m source next p := by
  cases h with
  | asks => exact .asks
  | waits => exact .waits
  | passed ho hp => exact .passed (outcome?_of_run (run_fire hfire) ho) hp

/-- A step of the stage takes its body on. -/
theorem Relaying.step {move : Move} (hinj : Function.Injective c.flowName) (hreach : w.Reachable c)
    (hnext : ∀ d, next (.ok (.failure d)) = .done (.failure d))
    (hflow : source.flow = c.flowName flow)
    (hread : Integer.readIndex? source.stage.text.toList = some m)
    (hthere : (w.stage? flow m).isSome) (h : Relaying w flow m source next s.phase)
    (hfire : w.fire c (.task (.stage flow n)) = some w') (hsteps : Steps c flow n w g s move w') :
    Relaying w' flow m source next (g.landing c n move) := by
  have hg := hsteps.graph
  generalize hphase : s.phase = p at h
  cases h with
  | asks =>
      have hid : source.flow = g.id := hflow.trans (id_of_reachable hreach hg).symm
      have hfind : w.find source.flow = .ok (flow, g) := by
        rw [hid]
        exact find_of_active hinj hreach hg hsteps.stage (by rw [hphase]; rfl)
      have hslot : g.slot? source.stage = .ok m := by
        have hlength : m < g.stages.length := by
          rw [stage?_of_graph hg] at hthere
          simpa using hthere
        simp only [Graph.slot?, hread, if_pos hlength]
      have hawait : w.awaitStage source.flow source.stage none = .onStage flow m .ok none := by
        simp only [awaitStage, hfind, hslot]
        rfl
      have hm : move = .turn (.running (.onStage flow m (fun o => next (.ok o)) none) none) := by
        rw [hsteps.move_eq (.ask hphase rfl)]
        simp only [pose, call, hawait]
        rfl
      rw [hm]
      exact .waits
  | waits =>
      cases ho : w.outcome? flow m with
      | none =>
          have hresume : w.resume? (.onStage flow m (fun o => next (.ok o)) none) = none := by
            simp only [resume?, Thread.resume?, ho, Option.bind_none]
          exact absurd (hphase ▸ .body none hresume) hsteps.not_waits
      | some o =>
          refine .passed (outcome?_of_run (run_fire hfire) ho) ?_
          rintro d rfl
          have hresume : w.resume? (.onStage flow m (fun o => next (.ok o)) none) =
              some (.done (.failure d)) := by
            simp only [resume?, Thread.resume?, ho, hnext]
          rw [hsteps.move_eq (.conclude hphase hresume (.done _)), conclude_failure]
          rfl
  | @passed o _ ho hended =>
      refine .passed (outcome?_of_run (run_fire hfire) ho) ?_
      rintro d rfl
      rw [hended d rfl] at hphase
      exact absurd (hphase ▸ .nothing _) hsteps.not_waits

/-- Such a body, from the step in which it is run to the end of the run. -/
theorem relaying_of_run {w₁ w₂ : World} {g₁ : Graph} {s₁ : Stage} {closure : Closure}
    {args : List Outcome} (hinj : Function.Injective c.flowName)
    (hrun : World.empty.run c es = some w)
    (hstep : StepIn c es flow n w₁ g₁ s₁ (.launch closure args none) w₂)
    (hinvoke : c.catalog.invoke (g₁.invocation n closure args) =
      .ask (.call (.awaitStage source.flow source.stage none)) next)
    (hnext : ∀ d, next (.ok (.failure d)) = .done (.failure d)) (hflow : source.flow = g₁.id)
    (hslot : g₁.slot? source.stage = .ok m) :
    ∃ s, w.stage? flow n = some s ∧ Relaying w flow m source next s.phase := by
  obtain ⟨hreach, rest, hlater, -⟩ := hstep.run hrun
  obtain ⟨-, -, -, -, hfire, hsteps⟩ := hstep
  have hreach₂ : w₂.Reachable c := hreach.run (run_fire hfire)
  have hname : source.flow = c.flowName flow :=
    hflow.trans (id_of_reachable hreach hsteps.graph)
  have hread := (Graph.slot?_eq_ok hslot).1
  have hthere : (w₂.stage? flow m).isSome :=
    isSome_stage_of_fire hfire (isSome_stage_of_slot hsteps.graph hslot)
  have hstart : Relaying w₂ flow m source next (g₁.landing c n (.launch closure args none)) := by
    simp only [Graph.landing, hinvoke]
    exact .asks
  have hend : ∃ s, w.stage? flow n = some s ∧ w.Reachable c ∧ (w.stage? flow m).isSome ∧
      Relaying w flow m source next s.phase := by
    refine run_stage (P := fun w s => w.Reachable c ∧ (w.stage? flow m).isSome ∧
      Relaying w flow m source next s.phase) ?_ ?_ hlater hsteps.landing
      ⟨hreach₂, hthere, hstart⟩
    · rintro w e w' s ⟨hreach, hthere, h⟩ hfire
      exact ⟨hreach.run (run_fire hfire), isSome_stage_of_fire hfire hthere, h.kept hfire⟩
    · rintro w g s move w' ⟨hreach, hthere, h⟩ hfire hsteps
      exact ⟨hreach.run (run_fire hfire), isSome_stage_of_fire hfire hthere,
        h.step hinj hreach hnext hname hread hthere hfire hsteps⟩
  obtain ⟨s, hs, -, -, h⟩ := hend
  exact ⟨s, hs, h⟩

end Relaying

/-- In a run, the body of the `n`th stage passes on a failure of the `m`th, which is there when the
body is run.  The end of such a body is the result of its stage: the stage does not forward that of
an input. -/
inductive RelaysIn (c : Completer) (es : List Event) (flow m n : Nat) : Prop
  | intro {w₁ w₂ : World} {g₁ : Graph} {s₁ : Stage} {closure : Closure} {args : List Outcome}
      {source : Handle} : StepIn c es flow n w₁ g₁ s₁ (.launch closure args none) w₂ →
      c.catalog.Relays (g₁.invocation n closure args) source → source.flow = g₁.id →
      g₁.slot? source.stage = .ok m → RelaysIn c es flow m n

/-- One hop in a run. -/
theorem RelaysIn.outcome {d : Datum} (hinj : Function.Injective c.flowName)
    (hrun : World.empty.run c es = some w) (hg : w.graph? flow = some g)
    (h : RelaysIn c es flow m n) (honly : ∀ o, g.outcome? m = some o → o = .failure d) :
    (∀ o, g.outcome? n = some o → o = .failure d) ∧
      (w.Stuck c → (g.outcome? m).isSome → g.outcome? n = some (.failure d)) := by
  obtain @⟨w₁, w₂, g₁, s₁, closure, args, source, hstep, hrelays, hflow, hslot⟩ := h
  obtain ⟨next, hinvoke, hnext⟩ := hrelays.invoke
  obtain ⟨s, hs, hrelaying⟩ := relaying_of_run hinj hrun hstep hinvoke hnext hflow hslot
  rw [stage?_of_graph hg] at hs
  rw [Graph.outcome?_of_stage hs]
  generalize hphase : s.phase = p at hrelaying ⊢
  have passed {o : Outcome} (ho : w.outcome? flow m = some o)
      (hended : ∀ d, o = .failure d → p = .ended (.failure d)) : p = .ended (.failure d) := by
    rw [outcome?_of_graph hg] at ho
    exact hended d (honly o ho)
  refine ⟨?_, ?_⟩
  · intro o ho
    cases hrelaying with
    | asks => cases ho
    | waits => cases ho
    | passed hm hended =>
        rw [passed hm hended] at ho
        exact (Option.some.inj ho).symm
  · intro hstuck hsome
    have hwaits := hstuck.waits hg hs
    rw [hphase] at hwaits
    cases hrelaying with
    | asks =>
        cases hwaits with
        | body _ hnone => cases hnone
    | waits =>
        obtain ⟨o, ho⟩ := Option.isSome_iff_exists.mp hsome
        rw [← outcome?_of_graph hg] at ho
        cases hwaits with
        | body _ hnone => simp [resume?, Thread.resume?, ho] at hnone
    | passed hm hended =>
        rw [passed hm hended]
        rfl

theorem outcome_of_relays {d : Datum} (hinj : Function.Injective c.flowName)
    (hrun : World.empty.run c es = some w) (hg : w.graph? flow = some g)
    (h : Relation.ReflTransGen (RelaysIn c es flow) m n)
    (hm : g.outcome? m = some (.failure d)) :
    (∀ o, g.outcome? n = some o → o = .failure d) ∧
      (w.Stuck c → g.outcome? n = some (.failure d)) := by
  induction h with
  | refl =>
      refine ⟨?_, fun _ => hm⟩
      intro o ho
      exact Option.some.inj (ho.symm.trans hm)
  | tail _ hrelays ih =>
      obtain ⟨honly, hstuck⟩ := hrelays.outcome hinj hrun hg ih.1
      refine ⟨honly, ?_⟩
      intro h
      exact hstuck h (by rw [ih.2 h]; rfl)

/-- A failure crosses any number of stages unchanged.
* The error by which a failure is retrieved is recorded as that failure.
* Whoever answers the questions of bodies: where the answer to a retrieval is a failure, the
  retrieval fails with it, on whichever way the result comes, and a body that passes it on is
  recorded with it.
* So along any number of hops, each in surroundings of its own, every result is the first one.
* In every run of a completer that names its flows apart, and along any number of stages of one
  flow, each of which passes on a failure of the one before: such a stage can only end with the
  first failure, which is what everyone gets who observes it; where nothing can go on, it has
  ended. -/
theorem failure_relayed (hinj : Function.Injective c.flowName)
    (hrun : World.empty.run c es = some w) (hg : w.graph? flow = some g) :
    (∀ d, (Report.ofFlow (.stageFailure d)).toOutcome = .failure d) ∧
    (∀ (σ : Type) (answer : (q : Question bodySignature) → σ → q.Answer × σ) (s : σ) (d : Datum)
      (h : Handle),
      (answer (.call (.awaitStage h.flow h.stage none)) s).1 = .ok (.failure d) →
      (∀ (hop : Hop) (α : Type) (t : Codec α),
        ((hop.get h t : FlowM bodySignature α).run.runIn answer s).1 =
          .ok (.error (.stageFailure d))) ∧
      ∀ (k : Catalog) (r : Invocation), k.Relays r h →
        ((k.invoke r).runIn answer s).1 = .ok (.failure d)) ∧
    (∀ (count : Nat) (d : Datum) (results : Nat → Outcome) (k : Nat → Catalog)
      (r : Nat → Invocation) (source : Nat → Handle), results 0 = .failure d →
      (∀ i < count, (k i).Relays (r i) (source i) ∧
        (k i).Records (r i) (source i) (results i) (results (i + 1))) →
      ∀ i ≤ count, results i = .failure d) ∧
    ∀ (d : Datum) (m n : Nat), Relation.ReflTransGen (RelaysIn c es flow) m n →
      g.outcome? m = some (.failure d) →
      (∀ o, g.outcome? n = some o → o = .failure d ∧ Observed c w flow n (.failure d)) ∧
      (w.Stuck c → g.outcome? n = some (.failure d)) := by
  refine ⟨?_, ?_, ?_, ?_⟩
  · intro d
    exact Report.toOutcome_stageFailure [] d
  · intro σ answer s d h ha
    refine ⟨?_, ?_⟩
    · intro hop α t
      exact hop.runIn_get h t ha
    · intro k r hrelays
      exact hrelays.runIn ha
  · intro count d results k r source hfirst hhops
    exact failure_of_records hfirst hhops
  · intro d m n hrelays hm
    obtain ⟨honly, hstuck⟩ := outcome_of_relays hinj hrun hg hrelays hm
    refine ⟨?_, hstuck⟩
    intro o ho
    obtain rfl := honly o ho
    rw [← outcome?_of_graph hg] at ho
    exact ⟨rfl, observed_of_outcome ho⟩

/-- Two stages, each of which passes on a failure of the one before. -/
def relayRun : List Event :=
  [.call (.createFlow "f"), .call (.addCompleted ⟨"f"⟩ (.failure .empty)),
    .call (.addStage ⟨"f"⟩ ⟨.supply, some (.bare "first"), []⟩),
    .call (.addStage ⟨"f"⟩ ⟨.supply, some (.bare "second"), []⟩), .task (.stage 0 1),
    .task (.stage 0 1), .task (.stage 0 1), .task (.stage 0 2), .task (.stage 0 2),
    .task (.stage 0 2)]

/-- A body that retrieves a stage of the first flow, and gives nothing where it has a value. -/
def relayBody (contexts : List Context) (stage : StageId) : Continuation :=
  ⟨.supplier, fun _ _ =>
    Hop.passOn ⟨false, contexts⟩ ⟨⟨"f"⟩, stage⟩ Codec.value fun _ => pure .empty⟩

/-- A completer with two such bodies. -/
def relayCompleter : Completer where
  catalog := ⟨[("first", relayBody [.text "once", .flow .noActiveFlow] ⟨"0"⟩),
    ("second", relayBody [.flow (.stageFailure (.state .killed))] ⟨"1"⟩)]⟩
  hookLimit := .ofSeconds 1
  flowName n := ⟨String.ofList (List.replicate (n + 1) 'f')⟩

/-- The state after the first events of `relayRun`. -/
def relayState (count : Nat) : World :=
  (World.empty.run relayCompleter (relayRun.take count)).getD .empty

/-- Its graph. -/
def relayGraph (count : Nat) : Graph := ((relayState count).graph? 0).getD (.new ⟨"f"⟩)

theorem failure_relayed_twice :
    Function.Injective relayCompleter.flowName ∧
      World.empty.run relayCompleter relayRun = some (relayState 10) ∧
      (relayGraph 10).outcome? 2 = some (.failure .empty) ∧
      Observed relayCompleter (relayState 10) 0 2 (.failure .empty) := by
  have hinj : Function.Injective relayCompleter.flowName := by
    intro a b h
    have hlength := congrArg (fun id : FlowId => id.text.toList.length) h
    simpa [relayCompleter] using hlength
  have hrun : World.empty.run relayCompleter relayRun = some (relayState 10) := rfl
  have hg : (relayState 10).graph? 0 = some (relayGraph 10) := rfl
  obtain ⟨-, -, -, hchain⟩ := failure_relayed hinj hrun hg
  have hop (contexts : List Context) (n : Nat) (stage : StageId) (closure : Closure)
      (hentry : relayCompleter.catalog.find? closure.entry = some (relayBody contexts stage)) :
      relayCompleter.catalog.Relays ⟨⟨"f"⟩, Graph.stageName n, closure, []⟩ ⟨⟨"f"⟩, stage⟩ :=
    .intro ⟨false, contexts⟩ Codec.value (fun _ => pure .empty) hentry rfl rfl
  have hfirst : RelaysIn relayCompleter relayRun 0 0 1 := by
    have hstep : StepIn relayCompleter relayRun 0 1 (relayState 4) (relayGraph 4)
        ⟨.supply, some (.bare "first"), [], .gathering [] []⟩
        (.launch (.bare "first") [] none) (relayState 5) :=
      ⟨relayRun.take 4, relayRun.drop 5, rfl, rfl, rfl, rfl, rfl, ⟨_, rfl⟩, rfl⟩
    exact .intro hstep (hop _ 1 ⟨"0"⟩ (.bare "first") rfl) rfl rfl
  have hsecond : RelaysIn relayCompleter relayRun 0 1 2 := by
    have hstep : StepIn relayCompleter relayRun 0 2 (relayState 7) (relayGraph 7)
        ⟨.supply, some (.bare "second"), [], .gathering [] []⟩
        (.launch (.bare "second") [] none) (relayState 8) :=
      ⟨relayRun.take 7, relayRun.drop 8, rfl, rfl, rfl, rfl, rfl, ⟨_, rfl⟩, rfl⟩
    exact .intro hstep (hop _ 2 ⟨"1"⟩ (.bare "second") rfl) rfl rfl
  have hended : (relayGraph 10).outcome? 2 = some (.failure .empty) := rfl
  obtain ⟨hgives, -⟩ := hchain .empty 0 2 (.tail (.tail .refl hfirst) hsecond) rfl
  exact ⟨hinj, hrun, hended, (hgives _ hended).2⟩

end World

end StageGraph
