/-
# `StageGraph.Proofs.Collection` — handles come back from behind a barrier

A list of handles is given back once all their stages are terminal.  Two stages do it: a
barrier over the stages, and a stage behind the barrier that runs the built-in body on the
names of the stages.  The barrier never fails, whatever it waited for, so the body always
runs; and the body gives what it has captured, whatever its argument is.

The names go a long way: they are captured as a value, given as a datum, read from its bytes,
and made handles again.  That the handles are those that went in is a round trip
(`Collection.retrieve_outcome`) and the fact that only handles of one flow were let in.

A list is asked for by a program, so its calls are taken one by one (`World.Returns`), with
anything else in between.  The position of a stage is read from its name, which can be done for
numbers of 64 bits; there are no more stages in a flow.
-/
import StageGraph.Proofs.Evaluator
import StageGraph.Proofs.FlowIsolation
import StageGraph.Proofs.ValueRoundTrip

namespace StageGraph

open StageGraph.Wire (Codec)

/-! ## Names of stages -/

namespace Integer

theorem digit?_of_isDigit {c : Char} (h : c.isDigit) : digit? c = some (c.toNat - 48) :=
  if_pos (Json.toNat_of_isDigit h)

/-- Digits are read as their value if it is not too large. -/
theorem readDigits_digits (limit : Nat) (tooFar : Fault) {cs : List Char}
    (h : ∀ c ∈ cs, c.isDigit) {n : Nat} (hn : n ≤ limit) :
    readDigits limit tooFar n cs =
      if (cs.map fun c => c.toNat - 48).foldl (fun n d => n * 10 + d) n ≤ limit then
        .ok ((cs.map fun c => c.toNat - 48).foldl (fun n d => n * 10 + d) n)
      else .error tooFar := by
  induction cs generalizing n with
  | nil => exact (if_pos hn).symm
  | cons c cs ih =>
      have hle := Json.le_foldl_digits (cs.map fun c => c.toNat - 48) (n * 10 + (c.toNat - 48))
      simp only [readDigits, digit?_of_isDigit (h c List.mem_cons_self), List.map_cons,
        List.foldl_cons]
      by_cases hlimit : limit < n * 10 + (c.toNat - 48)
      · rw [if_pos hlimit, if_neg (by omega)]
      · rw [if_neg hlimit, ih (fun d hd => h d (List.mem_cons_of_mem c hd)) (Nat.not_lt.mp hlimit)]

theorem readIndex?_toDigits (n : Nat) :
    readIndex? (Nat.toDigits 10 n) = if n ≤ Nat.pow 2 64 - 1 then some n else none := by
  have hread := readDigits_digits (Nat.pow 2 64 - 1) .tooLarge (Json.isDigit_of_mem_toDigits n)
    (Nat.zero_le _)
  rw [Json.foldl_toDigits] at hread
  obtain ⟨c, cs, hdigits, hdigit, -⟩ := Json.toDigits_cons n
  have hplus : c ≠ '+' := by
    rintro rfl
    cases hdigit
  have hindex : readIndex? (c :: cs) =
      (readDigits (Nat.pow 2 64 - 1) .tooLarge 0 (c :: cs)).toOption := by
    unfold readIndex?
    split
    · next h => cases h
    · next h => cases h; exact absurd rfl hplus
    · next h => cases h; exact absurd rfl hplus
    · next h => rfl
  rw [hdigits] at hread ⊢
  rw [hindex, hread]
  split <;> rfl

end Integer

namespace Graph

variable {g : Graph} {n k : Nat}

theorem toList_stageName (n : Nat) : (stageName n).text.toList = Nat.toDigits 10 n :=
  Nat.toList_repr

theorem stageName_injective : Function.Injective stageName := by
  intro a b h
  have hdigits : Nat.toDigits 10 a = Nat.toDigits 10 b := by
    rw [← toList_stageName a, ← toList_stageName b, h]
  calc
    a = Nat.ofDigitChars 10 (Nat.toDigits 10 a) 0 := Nat.ofDigitChars_ten_toDigits.symm
    _ = Nat.ofDigitChars 10 (Nat.toDigits 10 b) 0 := by rw [hdigits]
    _ = b := Nat.ofDigitChars_ten_toDigits

/-- The name of a stage stands for no other. -/
theorem eq_of_slot? (h : g.slot? (stageName n) = .ok k) : k = n := by
  have hread := (slot?_eq_ok h).1
  rw [toList_stageName, Integer.readIndex?_toDigits, Option.ite_none_right_eq_some] at hread
  exact (Option.some.inj hread.2).symm

theorem slot?_stageName (hn : n < g.stages.length) (hfits : n < Nat.pow 2 64) :
    g.slot? (stageName n) = .ok n := by
  have hread := Integer.readIndex?_toDigits n
  rw [if_pos (Nat.le_sub_one_of_lt hfits), ← toList_stageName] at hread
  simp only [slot?, hread, if_pos hn]

end Graph

/-! ## The built-in entry -/

/-- The built-in body gives what was captured. -/
theorem Catalog.invoke_captured {k : Catalog} {r : Invocation}
    (hentry : k.find? r.closure.entry = some .captured) (hargs : r.args = [.empty]) :
    k.invoke r = .done (.success (.ofValue r.closure.captured)) := by
  have hlen : r.args.length = Continuation.captured.kind.arity := by rw [hargs]; rfl
  rw [Catalog.invoke, hentry]
  simp only [if_pos hlen]
  rw [hargs]
  rfl

/-! ## Bodies that ask nothing -/

namespace World

variable {c : Completer} {w w' : World} {flow n m : Nat} {g : Graph} {s : Stage} {es : List Event}
  {closure : Closure} {o : Outcome}

/-- A body that asks nothing never waits. -/
theorem going_of_quiet (hquiet : ∀ r : Invocation, r.closure = closure → (c.catalog.invoke r).Quiet)
    (hrun : World.empty.run c es = some w) (hs : w.stage? flow n = some s)
    (hclosure : s.closure = some closure) {t : BodyThread} {forward : Option Outcome}
    (hphase : s.phase = .running t forward) : ∃ p, t = .going p ∧ p.Quiet := by
  refine run_life flow n (P := fun _ _ s => s.closure = some closure → ∀ t forward,
    s.phase = .running t forward → ∃ p, t = .going p ∧ p.Quiet) ?_ ?_ ?_ hrun hs hclosure t forward
    hphase
  · intro es w g s _ hfresh _ t forward hphase
    cases hfresh with
    | completed o => cases hphase
    | delay moment => cases hphase
    | resolved _ _ =>
        simp only [Phase.initial] at hphase
        split at hphase <;> cases hphase
  · intro es w e w' s _ ih _
    exact ih
  · intro es w g s m w' _ ih _ hsteps hclosure t forward hphase
    have launched (inputs : List Outcome) (hm : m = s.resolve inputs) :
        ∃ p, t = .going p ∧ p.Quiet := by
      rcases Graph.resolve_cases s inputs with ⟨o, ho⟩ | ⟨closure', args, forward', hlaunch⟩
      · rw [hm, ho] at hphase
        cases hphase
      · obtain rfl := Option.some.inj (hclosure.symm.trans (Stage.asks_of_launch hlaunch).1)
        rw [hm, hlaunch] at hphase
        cases hphase
        exact ⟨_, rfl, hquiet _ rfl⟩
    obtain ⟨w₁, hdoes⟩ := hsteps.does
    generalize hm : m = m' at hdoes
    cases hdoes with
    | wake | gather | adopt => subst hm; cases hphase
    | resolve | choose => exact launched _ hm
    | ask hwas hresume =>
        obtain ⟨p, rfl, hp⟩ := ih hclosure _ _ hwas
        cases hresume
        cases hp
    | @conclude _ forward' _ o =>
        rcases Graph.conclude_cases g s forward' o with ⟨o', ho'⟩ | ⟨target, htarget⟩
        · rw [hm, ho'] at hphase
          cases hphase
        · rw [hm, htarget] at hphase
          cases hphase

theorem ResolvedIn.left {inputs : List Outcome} (h : ResolvedIn c es flow n inputs)
    (hrun : World.empty.run c es = some w) (hs : w.stage? flow n = some s) :
    s.phase.isWaiting = false := by
  obtain ⟨w₁, g₁, s₁, m, w₂, hstep, hinputs⟩ := h
  obtain ⟨-, rest, hlater, -⟩ := hstep.run hrun
  obtain ⟨-, -, -, -, -, hsteps⟩ := hstep
  obtain ⟨s', hs', hleft⟩ := isWaiting_of_run hlater hsteps.landing (hsteps.left hinputs)
  obtain rfl := Option.some.inj (hs.symm.trans hs')
  exact hleft

/-- Where nothing can go on, a stage with such a body has ended if its inputs have. -/
theorem Stuck.ended_of_quiet (hstuck : w.Stuck c)
    (hquiet : ∀ r : Invocation, r.closure = closure → (c.catalog.invoke r).Quiet)
    (hrun : World.empty.run c es = some w) (hg : w.graph? flow = some g)
    (hs : g.stages[n]? = some s) (hown : s.operation.hasOwnCall = false)
    (hadopts : s.operation.adopts = false) (hclosure : s.closure = some closure)
    (hdeps : ∀ d ∈ s.deps, (g.outcome? d).isSome) : (g.outcome? n).isSome := by
  have hs' : w.stage? flow n = some s := (stage?_of_graph hg).trans hs
  obtain ⟨inputs, hresolved⟩ := hstuck.resolved hrun hg hs hown hdeps
  have hleft := hresolved.left hrun hs'
  have hwaits := hstuck.waits hg hs
  rw [Graph.outcome?_of_stage hs]
  cases hphase : s.phase with
  | delayed moment => rw [hphase] at hleft; cases hleft
  | gathering got left => rw [hphase] at hleft; cases hleft
  | choosing => rw [hphase] at hleft; cases hleft
  | running t forward =>
      obtain ⟨p, rfl, -⟩ := going_of_quiet hquiet hrun hs' hclosure hphase
      rw [hphase] at hwaits
      cases hwaits with
      | body _ hnone => cases hnone
  | adopting target =>
      rw [(traced_of_reachable ⟨es, hrun⟩ hg).adopts hs hphase] at hadopts
      cases hadopts
  | ended o => rfl

end World

/-- If the rules ask for a body that names no stage, its result is that of the stage. -/
theorem Graph.Follows.gives {c : Completer} {g : Graph} {n : Nat} {k : Recipe}
    {inputs args : List Outcome} {o : Outcome} {closure : Closure} (h : Follows c g n k inputs o)
    (hr : k.operation.resolve inputs = .ok (.invoke args)) (hadopts : k.operation.adopts = false)
    (hclosure : k.closure = some closure) :
    CanGive (c.catalog.invoke (g.invocation n closure args)) o := by
  cases h with
  | error h => rw [hr] at h; cases h
  | complete h => rw [hr] at h; cases h
  | bodyless _ _ hnone => rw [hclosure] at hnone; cases hnone
  | observed h _ => rw [hr] at h; cases h
  | invoked h _ hgives =>
      rw [hr] at h
      cases h
      obtain ⟨closure', hclosure', hgive⟩ := hgives
      obtain rfl := Option.some.inj (hclosure.symm.trans hclosure')
      exact hgive
  | composed _ h _ _ => rw [hadopts] at h; cases h
  | adopted _ h _ _ _ _ => rw [hadopts] at h; cases h
  | lost _ h _ _ _ => rw [hadopts] at h; cases h

/-! ## A barrier, and what stands behind it -/

namespace World

variable {c : Completer} {w w' : World} {flow n m : Nat} {g : Graph} {s : Stage} {es : List Event}
  {closure : Closure} {o : Outcome}

/-- A barrier succeeds with nothing, whatever it has waited for. -/
theorem ResolvedIn.allOf {inputs : List Outcome} (h : ResolvedIn c es flow n inputs)
    (hrun : World.empty.run c es = some w) (hg : w.graph? flow = some g)
    (hs : g.stages[n]? = some s) (hop : s.operation = .allOf) : g.outcome? n = some .empty :=
  h.outcome hrun hg hs (by rw [hop]; rfl)

/-- The built-in body behind a stage that only ends with nothing gives what was captured. -/
theorem outcome_of_captured (hreach : w.Reachable c)
    (hentry : c.catalog.find? closure.entry = some .captured) (hg : w.graph? flow = some g)
    (hs : g.stages[n]? = some s) (hrecipe : s.recipe = ⟨.thenApply, some closure, [m]⟩)
    (honly : ∀ o, g.outcome? m = some o → o = .empty) (ho : g.outcome? n = some o) :
    o = .success (.ofValue closure.captured) := by
  have hop : s.operation = .thenApply := congrArg Recipe.operation hrecipe
  obtain ⟨inputs, hready, hfollows⟩ :=
    (traced_of_reachable hreach hg).resolved hs (by rw [hop]; rfl) ho
  rw [hrecipe] at hready hfollows
  cases hready with
  | first h _ _ => cases h
  | all _ hinputs =>
      obtain ⟨o', hm, rfl⟩ : ∃ o', g.outcome? m = some o' ∧ inputs = [o'] := by
        cases inputs with
        | nil => cases hinputs
        | cons o' inputs =>
            simp only [List.map_cons, List.map_nil, List.cons.injEq] at hinputs
            exact ⟨o', hinputs.1, by rw [List.map_eq_nil_iff.mp hinputs.2.symm]⟩
      obtain rfl := honly o' hm
      have hgive := hfollows.gives rfl rfl rfl
      rw [Catalog.invoke_captured hentry rfl] at hgive
      cases hgive
      rfl

end World

/-! ## Retrieval of one stage -/

namespace World

variable {c : Completer} {w w' : World} {flow n : Nat} {g : Graph} {es : List Event} {o : Outcome}
  {h : Handle} {α : Type}

/-- The flow has not been forgotten. -/
def Known (w : World) (flow : Nat) : Prop := ∃ g, w.graph? flow = some g ∧ g.removed = false

/-- The handle stands for the stage at a position. -/
def Names (w : World) (h : Handle) (flow n : Nat) : Prop :=
  ∃ g, w.graph? flow = some g ∧ g.id = h.flow ∧ g.slot? h.stage = .ok n

/-- From `w` to `w'` a program is conducted, and returns `a`; whenever it asks something, the flow
is known. -/
def Gives (c : Completer) (flow : Nat) (p : FlowProgram bodySignature α) (w w' : World) (a : α) :
    Prop :=
  ∃ who xs, Returns c who w (.going p) xs w' a ∧ ∀ x ∈ xs, x.before.Known flow

theorem name_of_find {id : FlowId} (hreach : w.Reachable c) (hfind : w.find id = .ok (flow, g)) :
    c.flowName flow = id := by
  obtain ⟨hg, hid, -⟩ := graph?_of_find hfind
  exact (id_of_reachable hreach hg).symm.trans hid

theorem Names.run (hnames : w.Names h flow n) (hrun : w.run c es = some w') :
    w'.Names h flow n := by
  obtain ⟨g, hg, hid, hslot⟩ := hnames
  obtain ⟨g', hg', hchanges⟩ := changes_of_run hrun hg
  exact ⟨g', hg', hchanges.grows.id.trans hid, hchanges.slot? hslot⟩

theorem Gives.run {p : FlowProgram bodySignature α} {a : α} (hgives : Gives c flow p w w' a) :
    ∃ es, w.run c es = some w' := by
  obtain ⟨who, xs, hreturns, -⟩ := hgives
  exact hreturns.run

/-- A call that waits for a stage is let wait, as long as the flow is known. -/
theorem Names.awaitStage (hnames : w.Names h flow n) (hinj : Function.Injective c.flowName)
    (hreach : w.Reachable c) (hknown : w.Known flow) :
    w.awaitStage h.flow h.stage none = .onStage flow n .ok none := by
  obtain ⟨g, hg, hid, hslot⟩ := hnames
  obtain ⟨g', hg', hremoved⟩ := hknown
  obtain rfl := Option.some.inj (hg.symm.trans hg')
  simp only [World.awaitStage, ← hid, find_of_known hinj hreach hg hremoved, hslot]
  rfl

/-- Who waits for a stage goes on with its result. -/
theorem Gives.of_await {f : Except FlowError Outcome → α} {a : α}
    (hgives : Gives c flow (.ask (.call (.awaitStage h.flow h.stage none)) fun a => .done (f a))
      w w' a)
    (hinj : Function.Injective c.flowName) (hreach : w.Reachable c) (hnames : w.Names h flow n) :
    ∃ o, w'.outcome? flow n = some o ∧ a = f (.ok o) := by
  obtain ⟨who, xs, hreturns, hknown⟩ := hgives
  obtain ⟨w₁, w₂, xs', ⟨es, hrun⟩, -, rfl, t, hcomes, hresume⟩ := hreturns.of_ask
  have hpose : (w₁.pose c (.call (.awaitStage h.flow h.stage none))).2 = .onStage flow n .ok none :=
    (hnames.run hrun).awaitStage hinj (hreach.run hrun) (hknown _ List.mem_cons_self)
  rw [hpose] at hcomes
  obtain ⟨-, rfl⟩ := hcomes.of_done ⟨fun o => ⟨_, rfl⟩, by rintro a ⟨⟩⟩
  simp only [World.resume?, Thread.map, Thread.resume?] at hresume
  cases ho : w'.outcome? flow n with
  | none => simp [ho] at hresume
  | some o =>
      simp only [ho, Option.some.injEq, Program.done.injEq] at hresume
      exact ⟨o, rfl, hresume.symm⟩

/-- The result of a stage that has ended can be retrieved at once. -/
theorem gives_await (hinj : Function.Injective c.flowName) (hreach : w.Reachable c)
    (hnames : w.Names h flow n) (hknown : w.Known flow) (ho : w.outcome? flow n = some o)
    (f : Except FlowError Outcome → α) :
    Gives c flow (.ask (.call (.awaitStage h.flow h.stage none)) fun a => .done (f a)) w w
      (f (.ok o)) := by
  have hpose : (w.pose c (.call (.awaitStage h.flow h.stage none))).2 = .onStage flow n .ok none :=
    hnames.awaitStage hinj hreach hknown
  refine ⟨.outside, [⟨w, _, w⟩], ⟨_, Comes.start.asks rfl .outside, ?_⟩, ?_⟩
  · rw [hpose]
    simp only [World.resume?, Thread.map, Thread.resume?, ho]
  · intro x hx
    obtain rfl := List.mem_singleton.mp hx
    exact hknown

/-- Two retrievals of one stage agree, whoever makes them and whenever. -/
theorem Gives.agree {w₁ w₂ : World} {a₁ a₂ : Except FlowError Outcome}
    (h₁ : Gives c flow (h.result : FlowM bodySignature Outcome).run w w₁ a₁)
    (h₂ : Gives c flow (h.result : FlowM bodySignature Outcome).run w w₂ a₂)
    (hinj : Function.Injective c.flowName) (hreach : w.Reachable c) (hnames : w.Names h flow n)
    (hrun : w₁.run c es = some w₂) : ∃ o, a₁ = .ok o ∧ a₂ = .ok o := by
  obtain ⟨o₁, ho₁, rfl⟩ := Gives.of_await (f := fun a => a) h₁ hinj hreach hnames
  obtain ⟨o₂, ho₂, rfl⟩ := Gives.of_await (f := fun a => a) h₂ hinj hreach hnames
  obtain rfl := Option.some.inj ((outcome?_of_run hrun ho₁).symm.trans ho₂)
  exact ⟨_, rfl, rfl⟩

end World

/-! ## The stages of a list of handles -/

/-- Where the stages are by which a list of handles is given back: their flow, the inputs, the
barrier, and the stage that has the list. -/
structure Collection where
  flow : Nat
  inputs : List Nat
  barrier : Nat
  results : Nat

namespace Collection

/-- The body that gives back the names of handles. -/
def body (hs : List Handle) : Closure :=
  ⟨Closure.capturedEntry, Codec.stageId.list.toValue (hs.map Handle.stage)⟩

/-- The names of handles, as a result. -/
def outcome (hs : List Handle) : Outcome :=
  .success (.ofValue (Codec.stageId.list.toValue (hs.map Handle.stage)))

/-- The names come back from the result. -/
theorem retrieve_outcome (hs : List Handle) :
    (outcome hs).retrieve Codec.stageId.list = .ok (hs.map Handle.stage) := by
  have hread : Codec.stageId.list.ReadsBack Json.maxDepth (hs.map Handle.stage) :=
    .list (fun s _ => .stageId _ s) fun s _ => Json.opens nofun
  show (Codec.stageId.list.decode (Codec.stageId.list.encode (hs.map Handle.stage))).mapError _ = _
  rw [Codec.decode_encode hread]
  rfl

/-- The stages are there, and the inputs are what the handles stand for. -/
structure Holds (k : Collection) (id : FlowId) (hs : List Handle) (w : World) : Prop where
  inputs : ∃ g, w.graph? k.flow = some g ∧ g.id = id ∧
    List.Forall₂ (fun h d => h.flow = id ∧ g.slot? h.stage = .ok d) hs k.inputs
  barrier : ∃ s, w.stage? k.flow k.barrier = some s ∧ s.recipe = ⟨.allOf, none, k.inputs⟩
  results : ∃ s, w.stage? k.flow k.results = some s ∧
    s.recipe = ⟨.thenApply, some (body hs), [k.barrier]⟩

variable {c : Completer} {w w' : World} {es : List Event} {k : Collection} {id : FlowId}
  {hs : List Handle} {o : Outcome}

theorem Holds.run (h : k.Holds id hs w) (hrun : w.run c es = some w') : k.Holds id hs w' := by
  obtain ⟨g, hg, hid, hinputs⟩ := h.inputs
  obtain ⟨g', hg', hchanges⟩ := World.changes_of_run hrun hg
  have kept {n : Nat} {r : Recipe} (hr : ∃ s, w.stage? k.flow n = some s ∧ s.recipe = r) :
      ∃ s, w'.stage? k.flow n = some s ∧ s.recipe = r := by
    obtain ⟨s, hstage, hrecipe⟩ := hr
    obtain ⟨s', hstage', hrecipe'⟩ := World.recipe_of_run hrun hstage
    exact ⟨s', hstage', hrecipe'.trans hrecipe⟩
  refine ⟨⟨g', hg', hchanges.grows.id.trans hid, ?_⟩, kept h.barrier, kept h.results⟩
  exact hinputs.imp fun _ _ hslot => ⟨hslot.1, hchanges.slot? hslot.2⟩

/-- The barrier is a stage that waits for the inputs and runs no body. -/
theorem Holds.barrier_stage (h : k.Holds id hs w) : ∃ g b, w.graph? k.flow = some g ∧
    g.stages[k.barrier]? = some b ∧ b.operation = .allOf ∧ b.deps = k.inputs := by
  obtain ⟨g, hg, -, -⟩ := h.inputs
  obtain ⟨b, hb, hbarrier⟩ := h.barrier
  rw [World.stage?_of_graph hg] at hb
  exact ⟨g, b, hg, hb, congrArg Recipe.operation hbarrier, congrArg Recipe.deps hbarrier⟩

/-- The barrier has waited for all inputs, and does not tell what they have ended with. -/
theorem Holds.waited (h : k.Holds id hs w) (hreach : w.Reachable c)
    (ho : w.outcome? k.flow k.barrier = some o) :
    o = .empty ∧ ∀ d ∈ k.inputs, (w.outcome? k.flow d).isSome := by
  obtain ⟨es, hrun⟩ := hreach
  obtain ⟨g, b, hg, hb, hop, hdeps⟩ := h.barrier_stage
  simp only [World.outcome?_of_graph hg] at ho ⊢
  have hended : (g.outcome? k.barrier).isSome := by rw [ho]; rfl
  refine ⟨?_, ?_⟩
  · obtain ⟨inputs, hresolved⟩ := World.resolved_of_terminal hrun hg hb (by rw [hop]; rfl) hended
    exact Option.some.inj (ho.symm.trans (hresolved.allOf hrun hg hb hop))
  · have hall := World.all_of_terminal ⟨es, hrun⟩ hg hb (by rw [hop]; rfl) hended
    rwa [hdeps] at hall

/-- Where nothing can go on and all inputs have ended, the barrier has. -/
theorem Holds.passed (h : k.Holds id hs w) (hreach : w.Reachable c) (hstuck : w.Stuck c)
    (hinputs : ∀ d ∈ k.inputs, (w.outcome? k.flow d).isSome) :
    w.outcome? k.flow k.barrier = some .empty := by
  obtain ⟨es, hrun⟩ := hreach
  obtain ⟨g, b, hg, hb, hop, hdeps⟩ := h.barrier_stage
  simp only [World.outcome?_of_graph hg] at hinputs ⊢
  rw [← hdeps] at hinputs
  obtain ⟨inputs, hresolved⟩ := hstuck.resolved hrun hg hb (by rw [hop]; rfl) hinputs
  exact hresolved.allOf hrun hg hb hop

/-- The list is only there when all inputs have ended, and it is there whatever they ended with. -/
theorem Holds.outcome (h : k.Holds id hs w) (hreach : w.Reachable c)
    (hentry : c.catalog.find? Closure.capturedEntry = some .captured)
    (ho : w.outcome? k.flow k.results = some o) :
    o = Collection.outcome hs ∧ ∀ d ∈ k.inputs, (w.outcome? k.flow d).isSome := by
  obtain ⟨g, hg, -, -⟩ := h.inputs
  obtain ⟨s, hstage, hresults⟩ := h.results
  rw [World.stage?_of_graph hg] at hstage
  rw [World.outcome?_of_graph hg] at ho
  have honly : ∀ o, g.outcome? k.barrier = some o → o = .empty := by
    intro o ho
    rw [← World.outcome?_of_graph hg] at ho
    exact (h.waited hreach ho).1
  -- The list waits for the barrier.
  have hop : s.operation = .thenApply := congrArg Recipe.operation hresults
  have hall := World.all_of_terminal hreach hg hstage (by rw [hop]; rfl) (by rw [ho]; rfl)
  rw [show s.deps = [k.barrier] from congrArg Recipe.deps hresults] at hall
  obtain ⟨o', ho'⟩ := Option.isSome_iff_exists.mp (hall k.barrier (List.mem_singleton_self _))
  rw [← World.outcome?_of_graph hg] at ho'
  exact ⟨World.outcome_of_captured hreach hentry hg hstage hresults honly ho,
    (h.waited hreach ho').2⟩

/-- Where nothing can go on and all inputs have ended, the list is there. -/
theorem Holds.ended (h : k.Holds id hs w) (hreach : w.Reachable c)
    (hentry : c.catalog.find? Closure.capturedEntry = some .captured) (hstuck : w.Stuck c)
    (hinputs : ∀ d ∈ k.inputs, (w.outcome? k.flow d).isSome) :
    (w.outcome? k.flow k.results).isSome := by
  have hpassed := h.passed hreach hstuck hinputs
  obtain ⟨es, hrun⟩ := hreach
  obtain ⟨g, hg, -, -⟩ := h.inputs
  obtain ⟨s, hstage, hresults⟩ := h.results
  rw [World.stage?_of_graph hg] at hstage
  rw [World.outcome?_of_graph hg] at hpassed ⊢
  have hop : s.operation = .thenApply := congrArg Recipe.operation hresults
  have hquiet : ∀ r : Invocation, r.closure = body hs → (c.catalog.invoke r).Quiet := by
    intro r hr
    refine Catalog.quiet_invoke ?_
    intro cont hcont
    rw [hr] at hcont
    obtain rfl := Option.some.inj (hentry.symm.trans hcont)
    exact Catalog.quiet_captured r.flow r.closure r.args
  refine hstuck.ended_of_quiet hquiet hrun hg hstage (by rw [hop]; rfl) (by rw [hop]; rfl)
    (congrArg Recipe.closure hresults) ?_
  rw [show s.deps = [k.barrier] from congrArg Recipe.deps hresults]
  simp [hpassed]

/-! ## Retrieval -/

theorem run_get {E : Signature} (r : ResultsHandle) :
    (r.get : FlowM E (List Handle)).run =
      .ask (.call (.awaitStage r.inner.flow r.inner.stage none)) fun a =>
        .done ((a.bind fun o => o.retrieve Codec.stageId.list).map fun stages =>
          stages.map fun s => ⟨r.inner.flow, s⟩) := by
  show Program.bind (r.inner.get Codec.stageId.list : FlowM E (List StageId)).run _ = _
  rw [Handle.run_get]
  show Program.ask _ _ = _
  congr 1
  funext a
  cases a with
  | error e => rfl
  | ok o => cases h : o.retrieve Codec.stageId.list <;> simp [Except.bind, h] <;> rfl

/-- The handle of the list stands for the stage that has it. -/
theorem Holds.names (h : k.Holds id hs w) (hfits : k.results < Nat.pow 2 64) :
    w.Names ⟨id, Graph.stageName k.results⟩ k.flow k.results := by
  obtain ⟨g, hg, hid, -⟩ := h.inputs
  obtain ⟨s, hstage, -⟩ := h.results
  rw [World.stage?_of_graph hg] at hstage
  exact ⟨g, hg, hid, Graph.slot?_stageName (List.getElem?_eq_some_iff.mp hstage).1 hfits⟩

/-- The handles that went in stand for the inputs. -/
theorem Holds.names_input {x : Handle} (h : k.Holds id hs w) (hx : x ∈ hs) :
    ∃ d ∈ k.inputs, w.Names x k.flow d := by
  obtain ⟨g, hg, hid, hinputs⟩ := h.inputs
  obtain ⟨i, hi, rfl⟩ := List.mem_iff_getElem.mp hx
  have hi' : i < k.inputs.length := hinputs.length_eq ▸ hi
  obtain ⟨hflow, hslot⟩ := hinputs.get hi hi'
  exact ⟨k.inputs[i], List.getElem_mem hi', g, hg, hid.trans hflow.symm, hslot⟩

theorem Holds.handles (h : k.Holds id hs w) :
    ((Collection.outcome hs).retrieve Codec.stageId.list).map
      (fun stages => stages.map fun s => (⟨id, s⟩ : Handle)) = .ok hs := by
  obtain ⟨g, -, -, hinputs⟩ := h.inputs
  have hown : ∀ h ∈ hs, h.flow = id := ((List.forall₂_and_left _ _).mp hinputs).1
  rw [retrieve_outcome, Except.map, List.map_map]
  congr 1
  refine (List.map_congr_left ?_).trans (List.map_id hs)
  rintro ⟨flow, stage⟩ hmem
  rw [← hown _ hmem]
  rfl

/-- Whoever retrieves the list gets the handles. -/
theorem Holds.gives {a : Except FlowError (List Handle)} (h : k.Holds id hs w)
    (hinj : Function.Injective c.flowName) (hreach : w.Reachable c)
    (hentry : c.catalog.find? Closure.capturedEntry = some .captured)
    (hfits : k.results < Nat.pow 2 64)
    (hgives : World.Gives c k.flow (ResultsHandle.get
      ⟨⟨id, Graph.stageName k.results⟩⟩ : FlowM bodySignature (List Handle)).run w w' a) :
    a = .ok hs := by
  obtain ⟨es, hrun⟩ := hgives.run
  rw [run_get] at hgives
  obtain ⟨o, ho, rfl⟩ := hgives.of_await hinj hreach (h.names hfits)
  obtain ⟨rfl, -⟩ := (h.run hrun).outcome (hreach.run hrun) hentry ho
  exact h.handles

/-- Once the list is there, it can be retrieved at once. -/
theorem Holds.gives_of_ended (h : k.Holds id hs w) (hinj : Function.Injective c.flowName)
    (hreach : w.Reachable c) (hentry : c.catalog.find? Closure.capturedEntry = some .captured)
    (hfits : k.results < Nat.pow 2 64) (hknown : w.Known k.flow)
    (ho : (w.outcome? k.flow k.results).isSome) :
    World.Gives c k.flow (ResultsHandle.get
      ⟨⟨id, Graph.stageName k.results⟩⟩ : FlowM bodySignature (List Handle)).run w w (.ok hs) := by
  obtain ⟨o, ho⟩ := Option.isSome_iff_exists.mp ho
  obtain ⟨rfl, -⟩ := h.outcome hreach hentry ho
  rw [run_get, ← h.handles]
  exact World.gives_await hinj hreach (h.names hfits) hknown ho _

end Collection

namespace World

variable {c : Completer} {w₀ w : World} {who : Conductor} {id : FlowId} {hs : List Handle}
  {xs : List Exchange} {r : ResultsHandle}

/-- The program that asks for a list of handles makes two requests, and each adds one stage. -/
theorem collects_of_returns (hinj : Function.Injective c.flowName) (hreach : w₀.Reachable c)
    (h : Returns c who w₀ (.going (id.allResults hs : FlowM bodySignature ResultsHandle).run) xs w
      (.ok r)) :
    ∃ (k : Collection) (w₁ w₁' w₂ w₂' : World) (q₁ q₂ : Question bodySignature),
      xs = [⟨w₁, q₁, w₁'⟩, ⟨w₂, q₂, w₂'⟩] ∧
      w₁.Adds w₁' k.flow k.barrier ⟨.allOf, none, k.inputs, .initial .allOf k.inputs⟩ ∧
      w₂.Adds w₂' k.flow k.results
        ⟨.thenApply, some (Collection.body hs), [k.barrier], .initial .thenApply [k.barrier]⟩ ∧
      r = ⟨⟨id, Graph.stageName k.results⟩⟩ ∧ k.Holds id hs w := by
  rcases join_cases bodySignature id .allOf none hs with ⟨e, he⟩ | ⟨hown, hjoin⟩
  · rw [FlowId.allResults, FlowId.allOf, he] at h
    cases h.of_done.2
  rw [FlowId.allResults, FlowId.allOf, hjoin] at h
  obtain ⟨w₁, w₁', xs₁, stage₁, ⟨es₁, hrun₁⟩, hasks₁, hok₁, hxs₁, hrest₁⟩ := h.of_addStage
  have hsecond : Returns c who w₁' (.going (id.addStage ⟨.thenApply, some (Collection.body hs),
      [stage₁]⟩ >>= fun inner => pure ⟨inner⟩ : FlowM bodySignature ResultsHandle).run) xs₁ w
      (.ok r) := hrest₁
  obtain ⟨w₂, w₂', xs₂, stage₂, ⟨es₂, hrun₂⟩, hasks₂, hok₂, hxs₂, hrest₂⟩ := hsecond.of_addStage
  obtain ⟨rfl, rfl⟩ := hrest₂.of_pure
  obtain ⟨es₃, hrun₃⟩ := hrest₂.run
  have hreach₁ := hreach.run hrun₁
  -- The barrier, and what its inputs are.
  obtain ⟨flow, g, deps, hfind, -, hdeps, rfl, hadds₁⟩ := hasks₁.adds hok₁
  obtain ⟨hg, hid, -⟩ := graph?_of_find hfind
  -- The second request finds the same flow, and the barrier in it.
  obtain ⟨es₁', hrun₁'⟩ := hasks₁.run
  have hbetween := run_trans hrun₁' hrun₂
  obtain ⟨flow', g', deps', hfind', -, hdeps', rfl, hadds₂⟩ := hasks₂.adds hok₂
  obtain rfl : flow' = flow := hinj ((name_of_find (hreach₁.run hbetween) hfind').trans
    (name_of_find hreach₁ hfind).symm)
  obtain rfl : deps' = [g.stages.length] := by
    obtain ⟨d, rest, hd, hrest, rfl⟩ := List.forall₂_cons_left_iff.mp hdeps'
    rw [List.forall₂_nil_left_iff.mp hrest, Graph.eq_of_slot? hd]
  obtain ⟨es₂', hrun₂'⟩ := hasks₂.run
  obtain ⟨g₃, hg₃, hchanges₃⟩ := changes_of_run (run_trans hbetween hrun₂') hg
  obtain ⟨b, hb, hbarrier⟩ := recipe_of_run (run_trans hrun₂ hrun₂') hadds₁.stage
  have hholds : (Collection.mk flow' deps g.stages.length g'.stages.length).Holds id hs w₂' := by
    refine ⟨⟨g₃, hg₃, hchanges₃.grows.id.trans hid, ?_⟩, ⟨b, hb, hbarrier⟩, ⟨_, hadds₂.stage, rfl⟩⟩
    refine (List.forall₂_and_left _ _).mpr ⟨hown, ?_⟩
    exact (List.forall₂_map_left_iff.mp hdeps).imp fun h d hslot => hchanges₃.slot? hslot
  exact ⟨_, w₁, w₁', w₂, w₂', _, _, by rw [hxs₁, hxs₂], hadds₁, hadds₂, rfl, hholds.run hrun₃⟩

/-- A list of handles comes back from behind a barrier, in a completer that names its flows apart and
has the built-in entry.  Where the program that asks for the list returns, it has made two requests,
each of which has added one stage: a barrier over the inputs, and behind it the stage that has the
list.  In every later state:
* The list is there only if all inputs have ended, whatever they have ended with, and it is a
  success.  Where nothing can go on and all inputs have ended, it is there.
* Whoever retrieves the list while the flow is known gets the handles that went in, in their order
  and as often; once the list is there, it is retrieved at once.  Its position is read from its
  name, and positions have 64 bits.
* The handles that come back are those that went in, so they are retrieved like these: once the list
  is there, at once, and any two retrievals agree, whoever makes them and whenever. -/
theorem results_collected (hinj : Function.Injective c.flowName)
    (hentry : c.catalog.find? Closure.capturedEntry = some .captured) (hreach : w₀.Reachable c)
    (hreturns : Returns c who w₀
      (.going (id.allResults hs : FlowM bodySignature ResultsHandle).run) xs w (.ok r)) :
    ∃ (k : Collection) (w₁ w₁' w₂ w₂' : World) (q₁ q₂ : Question bodySignature),
      xs = [⟨w₁, q₁, w₁'⟩, ⟨w₂, q₂, w₂'⟩] ∧
      w₁.Adds w₁' k.flow k.barrier ⟨.allOf, none, k.inputs, .initial .allOf k.inputs⟩ ∧
      w₂.Adds w₂' k.flow k.results
        ⟨.thenApply, some (Collection.body hs), [k.barrier], .initial .thenApply [k.barrier]⟩ ∧
      r = ⟨⟨id, Graph.stageName k.results⟩⟩ ∧
      ∀ es w', w.run c es = some w' →
        k.Holds id hs w' ∧
        (∀ o, w'.outcome? k.flow k.results = some o →
          o = Collection.outcome hs ∧ ∀ d ∈ k.inputs, (w'.outcome? k.flow d).isSome) ∧
        (w'.Stuck c → (∀ d ∈ k.inputs, (w'.outcome? k.flow d).isSome) →
          (w'.outcome? k.flow k.results).isSome) ∧
        (k.results < Nat.pow 2 64 →
          (∀ w'' a, Gives c k.flow (r.get : FlowM bodySignature (List Handle)).run w' w'' a →
            a = .ok hs) ∧
          (w'.Known k.flow → (w'.outcome? k.flow k.results).isSome →
            Gives c k.flow (r.get : FlowM bodySignature (List Handle)).run w' w' (.ok hs))) ∧
        ∀ h ∈ hs,
          (w'.Known k.flow → (w'.outcome? k.flow k.results).isSome →
            ∃ o, Gives c k.flow (h.result : FlowM bodySignature Outcome).run w' w' (.ok o)) ∧
          ∀ u u' a a' es', Gives c k.flow (h.result : FlowM bodySignature Outcome).run w' u a →
            Gives c k.flow (h.result : FlowM bodySignature Outcome).run w' u' a' →
            u.run c es' = some u' → ∃ o, a = .ok o ∧ a' = .ok o := by
  obtain ⟨es₀, hrun₀⟩ := hreturns.run
  obtain ⟨k, w₁, w₁', w₂, w₂', q₁, q₂, hxs, hbarrier, hresults, rfl, hholds⟩ :=
    collects_of_returns hinj hreach hreturns
  refine ⟨k, w₁, w₁', w₂, w₂', q₁, q₂, hxs, hbarrier, hresults, rfl, ?_⟩
  intro es w' hrun
  have hreach' := (hreach.run hrun₀).run hrun
  have hholds' := hholds.run hrun
  refine ⟨hholds', ?_, ?_, ?_, ?_⟩
  · intro o ho
    exact hholds'.outcome hreach' hentry ho
  · intro hstuck hinputs
    exact hholds'.ended hreach' hentry hstuck hinputs
  · intro hfits
    refine ⟨?_, ?_⟩
    · intro w'' a hgives
      exact hholds'.gives hinj hreach' hentry hfits hgives
    · intro hknown hended
      exact hholds'.gives_of_ended hinj hreach' hentry hfits hknown hended
  · intro h hmem
    obtain ⟨d, hd, hnames⟩ := hholds'.names_input hmem
    refine ⟨?_, ?_⟩
    · intro hknown hended
      obtain ⟨o, ho⟩ := Option.isSome_iff_exists.mp hended
      obtain ⟨o', ho'⟩ := Option.isSome_iff_exists.mp ((hholds'.outcome hreach' hentry ho).2 d hd)
      exact ⟨o', gives_await hinj hreach' hnames hknown ho' fun a => a⟩
    · intro u u' a a' es' hgives hgives' hlater
      exact hgives.agree hgives' hinj hreach' hnames hlater

/-- Handles of a stage that has failed, of one that has succeeded, and of the first one again. -/
def mixedHandles : List Handle := [⟨⟨"0"⟩, ⟨"1"⟩⟩, ⟨⟨"0"⟩, ⟨"0"⟩⟩, ⟨⟨"0"⟩, ⟨"1"⟩⟩]

/-- The first two are made, then the stages for the list, and these run. -/
def mixedRun : List Event :=
  [.call (.createFlow "f"), .call (.addCompleted ⟨"0"⟩ .empty),
    .call (.addCompleted ⟨"0"⟩ (.failure .empty)),
    .call (.addStage ⟨"0"⟩ ⟨.allOf, none, [⟨"1"⟩, ⟨"0"⟩, ⟨"1"⟩]⟩),
    .call (.addStage ⟨"0"⟩ ⟨.thenApply, some (Collection.body mixedHandles), [⟨"2"⟩]⟩)] ++
    List.replicate 4 (.task (.stage 0 2)) ++ List.replicate 3 (.task (.stage 0 3))

/-- The state after the first events of `mixedRun`. -/
def mixedState (count : Nat) : World :=
  (World.empty.run .plain (mixedRun.take count)).getD .empty

theorem results_collected_mixed :
    Function.Injective Completer.plain.flowName ∧
      Completer.plain.catalog.find? Closure.capturedEntry = some .captured ∧
      (mixedState 3).Reachable .plain ∧
      (∃ xs, Returns .plain .outside (mixedState 3)
        (.going (FlowId.allResults ⟨"0"⟩ mixedHandles : FlowM bodySignature ResultsHandle).run) xs
        (mixedState 5) (.ok ⟨⟨⟨"0"⟩, ⟨"3"⟩⟩⟩)) ∧
      (mixedState 12).outcome? 0 1 = some (.failure .empty) ∧
      Gives .plain 0 (ResultsHandle.get ⟨⟨⟨"0"⟩, ⟨"3"⟩⟩⟩ : FlowM bodySignature (List Handle)).run
        (mixedState 12) (mixedState 12) (.ok mixedHandles) := by
  have hinj : Function.Injective Completer.plain.flowName := by
    intro a b h
    exact Graph.stageName_injective (congrArg (fun id : FlowId => (⟨id.text⟩ : StageId)) h)
  have hentry : Completer.plain.catalog.find? Closure.capturedEntry = some .captured := rfl
  have hreach : (mixedState 3).Reachable .plain := ⟨mixedRun.take 3, rfl⟩
  have hreturns : Returns .plain .outside (mixedState 3)
      (.going (FlowId.allResults ⟨"0"⟩ mixedHandles : FlowM bodySignature ResultsHandle).run) _
      (mixedState 5) (.ok ⟨⟨⟨"0"⟩, ⟨"3"⟩⟩⟩) :=
    ⟨_, (Comes.start.asks rfl .outside).asks rfl .outside, rfl⟩
  obtain ⟨⟨flow, inputs, barrier, results⟩, -, -, -, -, -, -, -, -, -, hr, hlater⟩ :=
    results_collected hinj hentry hreach hreturns
  obtain ⟨hholds, -, -, hretrieved, -⟩ := hlater (mixedRun.drop 5) (mixedState 12) rfl
  -- The flow is the only one, and the stage is the last one.
  obtain rfl : flow = 0 := by
    obtain ⟨g, hg, -⟩ := hholds.inputs
    exact Nat.lt_one_iff.mp (List.getElem?_eq_some_iff.mp hg).1
  obtain rfl : 3 = results :=
    Graph.stageName_injective (congrArg (fun r : ResultsHandle => r.inner.stage) hr)
  have hknown : (mixedState 12).Known 0 := ⟨_, rfl, rfl⟩
  have hfits : 3 < Nat.pow 2 64 := by decide
  have hgives := (hretrieved hfits).2 hknown rfl
  exact ⟨hinj, hentry, hreach, ⟨_, hreturns⟩, rfl, hgives⟩

end World

end StageGraph
