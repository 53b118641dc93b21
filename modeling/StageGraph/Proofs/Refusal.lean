/-
# `StageGraph.Proofs.Refusal` — calls that fail change nothing

A call on a flow is examined in several steps before it changes anything, and may be
refused at each of them.  `World.Refused` says when that happens and with which error,
apart from the functions that do it: an earlier reason goes before a later one, and of
several inputs that are not there the first one is named.

Since the reasons are about the state that the call finds, and a refused call leaves
just that state, it is refused again for the same reason.  In a run, whoever makes such
calls and however often, they can be left out (`World.Dropped`): every later state and
every deed stay the same.
-/
import StageGraph.Proofs.Admission

namespace StageGraph

/-! ## Calls on a flow -/

/-- A call on a flow that may change it. -/
inductive FlowCall where
  | addStage (r : StageRequest)
  | addCompleted (o : Outcome)
  | addDelay (d : Duration)
  | addHook (closure : Closure)
  | commit (s : FlowState)
  | removeFlow

namespace FlowCall

/-- What the call gives when it succeeds. -/
abbrev Value : FlowCall → Type
  | addStage _ | addCompleted _ | addDelay _ => StageId
  | addHook _ | commit _ | removeFlow => Unit

/-- The call, made from outside. -/
def event (flow : FlowId) : FlowCall → Event
  | addStage r => .call (.addStage flow r)
  | addCompleted o => .call (.addCompleted flow o)
  | addDelay d => .call (.addDelay flow d)
  | addHook closure => .call (.addHook flow closure)
  | commit s => .call (.commit flow s)
  | removeFlow => .removeFlow flow

/-- A body that makes the call and goes on with the answer. -/
def ask (flow : FlowId) : (k : FlowCall) →
    (Except FlowError k.Value → FlowProgram bodySignature Outcome) →
    FlowProgram bodySignature Outcome
  | addStage r, next => .ask (.call (.addStage flow r)) next
  | addCompleted o, next => .ask (.call (.addCompleted flow o)) next
  | addDelay d, next => .ask (.call (.addDelay flow d)) next
  | addHook closure, next => .ask (.call (.addHook flow closure)) next
  | commit s, next => .ask (.call (.commit flow s)) next
  | removeFlow, next => .ask (.other (.removeFlow flow)) next

/-- Whether the call adds a stage to its flow. -/
def makesStage : FlowCall → Bool
  | addStage _ | addCompleted _ | addDelay _ => true
  | addHook _ | commit _ | removeFlow => false

/-- The stages that the call names. -/
def deps : FlowCall → List StageId
  | addStage r => r.deps
  | _ => []

/-- What is asked of the call before its flow is looked up. -/
def Admissible : FlowCall → Prop
  | addStage r => r.Admissible
  | _ => True

end FlowCall

/-- What is wrong with a number of inputs that an operation does not take. -/
def Operation.miscount (op : Operation) (count : Nat) : Misuse :=
  match op with
  | supply | delay | completedValue | terminationHook => .needsNoInputs op count
  | thenApply | thenCompose | exceptionally | exceptionallyCompose | handle | whenComplete =>
    .needsOneInput op count
  | thenCombine | applyToEither => .needsTwoInputs op count
  | allOf | anyOf => .needsSomeInput

namespace World

/-- Makes a call. -/
def perform (w : World) (flow : FlowId) : (k : FlowCall) → World × Except FlowError k.Value
  | .addStage r => w.addStage flow r
  | .addCompleted o => w.addCompleted flow o
  | .addDelay d => w.addDelay flow d
  | .addHook closure => w.addHook flow closure
  | .commit s => w.commit flow s
  | .removeFlow => w.removeFlow flow

/-- No flow of this name is there, or none that has not been forgotten. -/
def Unknown (w : World) (flow : FlowId) : Prop := ∀ g ∈ w.graphs, g.id = flow → g.removed = true

/-- The call is refused with an error.  The reasons come in the order in which a call is
examined. -/
inductive Refused (w : World) (flow : FlowId) : FlowCall → FlowError → Prop
  | miscounted {r : StageRequest} : ¬r.operation.Takes r.deps.length →
      Refused w flow (.addStage r)
        (.invalidArgument (r.operation.miscount r.deps.length))
  | bodyless {r : StageRequest} : r.operation.Takes r.deps.length → r.operation.hasBody →
      r.closure = none →
      Refused w flow (.addStage r) (.invalidArgument (.needsBody r.operation))
  | misdirected {r : StageRequest} : r.operation.Takes r.deps.length →
      (r.operation.hasBody → r.closure.isSome) →
      r.operation ∈ [.delay, .completedValue, .terminationHook] →
      Refused w flow (.addStage r) (.invalidArgument (.hasOwnCall r.operation))
  | unknownFlow {k : FlowCall} : k.Admissible → w.Unknown flow →
      Refused w flow k (.unknownFlow flow)
  | unknownStage {r : StageRequest} {n : Nat} {g : Graph} {before after : List StageId}
      {d : StageId} : r.Admissible → w.find flow = .ok (n, g) → r.deps = before ++ d :: after →
      (∀ b ∈ before, ∃ k, g.slot? b = .ok k) → (∀ k, g.slot? d ≠ .ok k) →
      Refused w flow (.addStage r) (.unknownStage flow d)
  | ending {k : FlowCall} {n : Nat} {g : Graph} : k.Admissible → k.makesStage →
      w.find flow = .ok (n, g) → (∀ d ∈ k.deps, ∃ k, g.slot? d = .ok k) → g.terminating →
      Refused w flow k (.flowTerminated flow)
  | committed {s : FlowState} {n : Nat} {g : Graph} : w.find flow = .ok (n, g) →
      g.committed.isSome →
      Refused w flow (.commit s) (.invalidArgument (.alreadyCommitted flow))
  | going {n : Nat} {g : Graph} : w.find flow = .ok (n, g) → g.terminated = none →
      Refused w flow .removeFlow (.invalidArgument (.notTerminated flow))

/-! ## Where each step fails -/

variable {c : Completer} {w : World} {flow : FlowId} {e : FlowError} {r : StageRequest}

theorem find_eq_error : w.find flow = .error e ↔ e = .unknownFlow flow ∧ w.Unknown flow := by
  have hnone : (w.graphs.findIdx? fun g => g.id = flow && !g.removed) = none ↔
      w.Unknown flow := by
    rw [List.findIdx?_eq_none_iff]
    refine forall₂_congr fun g _ => ?_
    by_cases hid : g.id = flow <;> simp [hid]
  rw [← hnone]
  unfold find
  split
  · next n hn =>
      obtain ⟨hlt, -⟩ := List.findIdx?_eq_some_iff_getElem.mp hn
      have hg : w.graph? n = some w.graphs[n] := List.getElem?_eq_getElem hlt
      simp [hg, hn]
  · next hn =>
      rw [hn]
      simp [eq_comm]

theorem change_eq_error {α : Type} {f : Graph → Except FlowError (Graph × α)} :
    (w.change flow f).2 = .error e ↔
      (e = .unknownFlow flow ∧ w.Unknown flow) ∨
        ∃ n g, w.find flow = .ok (n, g) ∧ f g = .error e := by
  unfold change
  cases hfind : w.find flow with
  | error e' =>
      obtain ⟨rfl, hunknown⟩ := find_eq_error.mp hfind
      simp [hunknown, eq_comm]
  | ok p =>
      obtain ⟨n, g⟩ := p
      have hknown : ¬w.Unknown flow := by
        intro hunknown
        rw [find_eq_error.mpr ⟨rfl, hunknown⟩] at hfind
        cases hfind
      cases hf : f g <;> simp [hf, hknown]

/-- A change that fails leaves everything as it was. -/
theorem change_of_refused {α : Type} {f : Graph → Except FlowError (Graph × α)}
    (h : (w.change flow f).2 = .error e) : w.change flow f = (w, .error e) := by
  rcases w.change_cases flow f with ⟨hw, -⟩ | ⟨n, g, g', a, -, -, hw⟩
  · exact Prod.ext hw h
  · rw [hw] at h
    cases h

theorem checkInputs_eq_error {op : Operation} {count : Nat} :
    op.checkInputs count = .error e ↔
      ¬op.Takes count ∧ e = .invalidArgument (op.miscount count) := by
  rw [← op.checkInputs_ok_iff]
  cases op <;>
    simp only [Operation.checkInputs, Operation.kind, Operation.miscount] <;> split <;>
    simp [eq_comm]

theorem checkRequest_eq_error :
    checkRequest r = .error e ↔ ¬r.Admissible ∧ w.Refused flow (.addStage r) e := by
  rw [← checkRequest_ok_iff]
  constructor
  · intro h
    refine ⟨by simp [h], ?_⟩
    unfold checkRequest at h
    cases hinputs : r.operation.checkInputs r.deps.length with
    | error e' =>
        rw [hinputs] at h
        cases h
        obtain ⟨hnot, rfl⟩ := checkInputs_eq_error.mp hinputs
        exact .miscounted hnot
    | ok u =>
        have htakes := (Operation.checkInputs_ok_iff _ _).mp hinputs
        simp only [hinputs, bind, Except.bind] at h
        split at h
        · next hbody =>
            cases h
            simp only [Bool.and_eq_true, Option.isNone_iff_eq_none] at hbody
            exact .bodyless htakes hbody.1 hbody.2
        · next hbody =>
            split at h
            · next hown =>
                cases h
                refine .misdirected htakes ?_ (r.operation.hasOwnCall_iff.mp hown)
                intro hhas
                simpa [hhas, Option.isSome_iff_ne_none] using hbody
            · cases h
  · rintro ⟨hnot, h⟩
    have hadmitted (hr : r.Admissible) : checkRequest r = .error e :=
      absurd ((checkRequest_ok_iff r).mpr hr) hnot
    cases h with
    | miscounted hinputs =>
        simp [checkRequest, checkInputs_eq_error.mpr ⟨hinputs, rfl⟩, bind, Except.bind]
    | bodyless htakes hhas hnone =>
        simp [checkRequest, (Operation.checkInputs_ok_iff _ _).mpr htakes, hhas, hnone, bind,
          Except.bind]
    | misdirected htakes hbody hmem =>
        have hsome : r.operation.hasBody = false ∨ r.closure.isNone = false := by
          cases hhas : r.operation.hasBody with
          | false => exact .inl rfl
          | true => exact .inr (by simpa [Option.isSome_iff_ne_none] using hbody hhas)
        simp only [checkRequest, (Operation.checkInputs_ok_iff _ _).mpr htakes, bind, Except.bind,
          Bool.and_eq_true]
        rw [if_neg (by rcases hsome with h | h <;> simp [h]),
          if_pos (r.operation.hasOwnCall_iff.mpr hmem)]
    | unknownFlow hr _ => exact hadmitted hr
    | unknownStage hr _ _ _ _ => exact hadmitted hr
    | ending hr _ _ _ _ => exact hadmitted hr

end World

namespace Graph

variable {g : Graph} {e : FlowError}

theorem allocate_eq_error {s : Stage} :
    g.allocate s = .error e ↔ g.terminating ∧ e = .flowTerminated g.id := by
  unfold allocate
  cases g.terminating with
  | false => simp
  | true =>
      simp only [if_true, Except.error.injEq, true_and]
      exact eq_comm

theorem commit_eq_error {s : FlowState} :
    g.commit s = .error e ↔
      g.committed.isSome ∧ e = .invalidArgument (.alreadyCommitted g.id) := by
  unfold commit
  cases hc : g.committed with
  | none =>
      simp only [Option.isSome_none, Bool.false_eq_true, if_false, reduceCtorEq, false_and]
  | some s' =>
      simp only [Option.isSome_some, if_true, Except.error.injEq, true_and]
      exact eq_comm

/-- Of the stages that are not there, the first one is named. -/
theorem mapM_slot?_eq_error {deps : List StageId} :
    deps.mapM g.slot? = .error e ↔
      ∃ before d after, deps = before ++ d :: after ∧
        (∀ b ∈ before, ∃ k, g.slot? b = .ok k) ∧ (∀ k, g.slot? d ≠ .ok k) ∧
        e = .unknownStage g.id d := by
  rw [mapM_eq_error]
  refine exists₃_congr fun before d after => and_congr_right fun _ => and_congr_right fun _ => ?_
  cases hd : g.slot? d with
  | ok k => simp
  | error e' => simp [(slot?_eq_error hd).1, eq_comm]

end Graph

namespace World

variable {c : Completer} {w : World} {flow : FlowId} {e : FlowError} {r : StageRequest}

theorem allocateResolved_eq_error {g : Graph} :
    allocateResolved r g = .error e ↔
      r.deps.mapM g.slot? = .error e ∨
        (∀ d ∈ r.deps, ∃ k, g.slot? d = .ok k) ∧ g.terminating ∧ e = .flowTerminated g.id := by
  unfold allocateResolved
  cases hdeps : r.deps.mapM g.slot? with
  | error e' =>
      obtain ⟨before, d, after, heq, -, hnone, -⟩ := Graph.mapM_slot?_eq_error.mp hdeps
      have hmem : d ∈ r.deps := by simp [heq]
      have hnot : ¬∀ d ∈ r.deps, ∃ k, g.slot? d = .ok k := by
        intro h
        obtain ⟨k, hk⟩ := h d hmem
        exact hnone k hk
      simp [bind, Except.bind, hnot]
  | ok ks =>
      simp only [bind, Except.bind, Graph.allocate_eq_error, reduceCtorEq, false_or]
      exact ⟨fun h => ⟨ok_of_mapM hdeps, h⟩, fun h => h.2⟩

theorem addStage_eq_error :
    (w.addStage flow r).2 = .error e ↔ w.Refused flow (.addStage r) e := by
  unfold addStage
  cases hr : checkRequest r with
  | error e' =>
      have hnot : ¬r.Admissible ∧ w.Refused flow (.addStage r) e' := checkRequest_eq_error.mp hr
      constructor
      · intro h
        cases h
        exact hnot.2
      · intro h
        exact congrArg Except.error (Except.error.inj (hr.symm.trans
          (checkRequest_eq_error.mpr ⟨hnot.1, h⟩)))
  | ok u =>
      have hr := (checkRequest_ok_iff r).mp hr
      rw [change_eq_error]
      constructor
      · rintro (⟨rfl, hunknown⟩ | ⟨n, g, hfind, h⟩)
        · exact .unknownFlow hr hunknown
        · obtain ⟨-, hid, -⟩ := graph?_of_find hfind
          rcases allocateResolved_eq_error.mp h with h | ⟨hdeps, hending, rfl⟩
          · obtain ⟨before, d, after, heq, hbefore, hnone, rfl⟩ := Graph.mapM_slot?_eq_error.mp h
            rw [hid]
            exact .unknownStage hr hfind heq hbefore hnone
          · rw [hid]
            exact .ending (k := .addStage r) hr rfl hfind hdeps hending
      · intro h
        cases h with
        | miscounted hnot => exact absurd hr.inputs hnot
        | bodyless _ hbody hnone => simpa [hnone] using hr.body hbody
        | misdirected _ _ hmem => exact absurd hmem hr.operation
        | unknownFlow _ hunknown => exact .inl ⟨rfl, hunknown⟩
        | unknownStage _ hfind heq hbefore hnone =>
            obtain ⟨-, rfl, -⟩ := graph?_of_find hfind
            refine .inr ⟨_, _, hfind, allocateResolved_eq_error.mpr (.inl ?_)⟩
            exact Graph.mapM_slot?_eq_error.mpr ⟨_, _, _, heq, hbefore, hnone, rfl⟩
        | ending _ _ hfind hdeps hending =>
            obtain ⟨-, rfl, -⟩ := graph?_of_find hfind
            exact .inr ⟨_, _, hfind, allocateResolved_eq_error.mpr (.inr ⟨hdeps, hending, rfl⟩)⟩

/-- A call that adds a stage without inputs. -/
theorem change_allocate_eq_error {k : FlowCall} {s : Stage} (hk : k.Admissible)
    (hmakes : k.makesStage) (hdeps : k.deps = []) :
    (w.change flow fun g => g.allocate s).2 = .error e ↔ w.Refused flow k e := by
  rw [change_eq_error]
  constructor
  · rintro (⟨rfl, hunknown⟩ | ⟨n, g, hfind, h⟩)
    · exact .unknownFlow hk hunknown
    · obtain ⟨-, rfl, -⟩ := graph?_of_find hfind
      obtain ⟨hending, rfl⟩ := Graph.allocate_eq_error.mp h
      exact .ending hk hmakes hfind (by simp [hdeps]) hending
  · intro h
    cases h with
    | miscounted hnot => exact absurd hk.inputs hnot
    | bodyless _ hbody hnone => simpa [hnone] using hk.body hbody
    | misdirected _ _ hmem => exact absurd hmem hk.operation
    | unknownFlow _ hunknown => exact .inl ⟨rfl, hunknown⟩
    | unknownStage _ _ heq _ _ => exact absurd (heq.symm.trans hdeps) (by simp)
    | ending _ _ hfind _ hending =>
        obtain ⟨-, rfl, -⟩ := graph?_of_find hfind
        exact .inr ⟨_, _, hfind, Graph.allocate_eq_error.mpr ⟨hending, rfl⟩⟩
    | committed _ _ => cases hmakes
    | going _ _ => cases hmakes

/-- A call fails for the reasons for which it is refused, and for no other. -/
theorem perform_eq_error {k : FlowCall} :
    (w.perform flow k).2 = .error e ↔ w.Refused flow k e := by
  cases k with
  | addStage r => exact addStage_eq_error
  | addCompleted o => exact change_allocate_eq_error trivial rfl rfl
  | addDelay d => exact change_allocate_eq_error trivial rfl rfl
  | addHook closure =>
      refine change_eq_error.trans ⟨?_, ?_⟩
      · rintro (⟨rfl, hunknown⟩ | ⟨n, g, -, h⟩)
        · exact .unknownFlow trivial hunknown
        · cases h
      · intro h
        cases h with
        | unknownFlow _ hunknown => exact .inl ⟨rfl, hunknown⟩
        | ending _ hmakes _ _ _ => cases hmakes
  | commit s =>
      refine change_eq_error.trans ⟨?_, ?_⟩
      · rintro (⟨rfl, hunknown⟩ | ⟨n, g, hfind, h⟩)
        · exact .unknownFlow trivial hunknown
        · obtain ⟨-, rfl, -⟩ := graph?_of_find hfind
          cases hcommit : g.commit s with
          | ok g' => simp [hcommit, Except.map] at h
          | error e' =>
              obtain ⟨hsome, rfl⟩ := Graph.commit_eq_error.mp hcommit
              obtain rfl : _ = e := by simpa [hcommit, Except.map] using h
              exact .committed hfind hsome
      · intro h
        cases h with
        | unknownFlow _ hunknown => exact .inl ⟨rfl, hunknown⟩
        | ending _ hmakes _ _ _ => cases hmakes
        | committed hfind hsome =>
            obtain ⟨-, rfl, -⟩ := graph?_of_find hfind
            refine .inr ⟨_, _, hfind, ?_⟩
            simp [Graph.commit_eq_error.mpr ⟨hsome, rfl⟩, Except.map]
  | removeFlow =>
      refine change_eq_error.trans ⟨?_, ?_⟩
      · rintro (⟨rfl, hunknown⟩ | ⟨n, g, hfind, h⟩)
        · exact .unknownFlow trivial hunknown
        · cases hended : g.terminated with
          | some s => simp [hended] at h
          | none =>
              obtain rfl : _ = e := by simpa [hended] using h
              exact .going hfind hended
      · intro h
        cases h with
        | unknownFlow _ hunknown => exact .inl ⟨rfl, hunknown⟩
        | ending _ hmakes _ _ _ => cases hmakes
        | going hfind hended => exact .inr ⟨_, _, hfind, by simp [hended]⟩

/-- A call that is refused leaves everything as it was. -/
theorem perform_of_refused {k : FlowCall} (h : w.Refused flow k e) :
    w.perform flow k = (w, .error e) := by
  have h := perform_eq_error.mpr h
  cases k with
  | addStage r =>
      simp only [perform, addStage] at h ⊢
      cases hr : checkRequest r with
      | error e' =>
          rw [hr] at h
          cases h
          rfl
      | ok u =>
          rw [hr] at h
          exact change_of_refused h
  | addCompleted o => exact change_of_refused h
  | addDelay d => exact change_of_refused h
  | addHook closure => exact change_of_refused h
  | commit s => exact change_of_refused h
  | removeFlow => exact change_of_refused h

/-! ## Refused calls in a run -/

theorem fire_event (c : Completer) (w : World) (flow : FlowId) (k : FlowCall) :
    w.fire c (k.event flow) = some (w.perform flow k).1 := by
  cases k <;> rfl

theorem fire_of_refused {k : FlowCall} (h : w.Refused flow k e) :
    w.fire c (k.event flow) = some w := by
  rw [fire_event, perform_of_refused h]

theorem deeds_of_refused {k : FlowCall} (h : w.Refused flow k e) :
    w.deeds c (k.event flow) = [] := by
  cases k with
  | commit s =>
      have hcommit : (w.commit flow s).2 = .error e := perform_eq_error.mpr h
      simp only [FlowCall.event, deeds, callDeeds, hcommit]
      split <;> simp_all
  | _ => rfl

/-- A body whose call is refused goes on with the error. -/
theorem advance_of_refused {k : FlowCall} (h : w.Refused flow k e)
    (next : Except FlowError k.Value → FlowProgram bodySignature Outcome) :
    w.advance c (k.ask flow next) = (w, .thread (.going (next (.error e)))) := by
  have asked : w.advance c (k.ask flow next) =
      ((w.perform flow k).1, .thread (.going (next (w.perform flow k).2))) := by
    cases k <;> rfl
  rw [asked, perform_of_refused h]

/-- The second run is the first one without some of the calls that are refused in it. -/
inductive Dropped (c : Completer) : World → List Event → List Event → Prop
  | nil (w : World) : Dropped c w [] []
  | keep {w w' : World} {e : Event} {es es' : List Event} : w.fire c e = some w' →
      Dropped c w' es es' → Dropped c w (e :: es) (e :: es')
  | drop {w : World} {flow : FlowId} {k : FlowCall} {e : FlowError} {es es' : List Event} :
      w.Refused flow k e → Dropped c w es es' → Dropped c w (k.event flow :: es) es'

/-- Nobody can tell the two runs apart. -/
theorem Dropped.same {es es' : List Event} (h : Dropped c w es es') :
    w.run c es = w.run c es' ∧ w.history c es = w.history c es' := by
  induction h with
  | nil w => exact ⟨rfl, rfl⟩
  | keep hfire _ ih =>
      simp only [run, history, hfire, Option.bind_some, ih.1, ih.2, and_self]
  | drop hrefused _ ih =>
      simp only [run, history, fire_of_refused hrefused, deeds_of_refused hrefused,
        Option.bind_some, List.nil_append]
      exact ih

/-- Calls that fail change nothing.  In every state, and so in every reachable one:
* a call fails with an error exactly if it is refused with that error, and a look at the number
  of stages fails exactly if the flow is not known;
* a refused call leaves the whole state as it was and does no deed, whether it is made from
  outside or by a body or a hook, which only learns the error; so it is refused again;
* a run leads to the same states with the same deeds whether or not such calls are made in it. -/
theorem refused_calls_inert (c : Completer) (w : World) :
    (∀ (flow : FlowId) (k : FlowCall) (e : FlowError),
      (w.perform flow k).2 = .error e ↔ w.Refused flow k e) ∧
    (∀ (flow : FlowId) (e : FlowError),
      w.stageCount flow = .error e ↔ e = .unknownFlow flow ∧ w.Unknown flow) ∧
    (∀ (flow : FlowId) (k : FlowCall) (e : FlowError), w.Refused flow k e →
      w.perform flow k = (w, .error e) ∧
      w.fire c (k.event flow) = some w ∧ w.deeds c (k.event flow) = [] ∧
      ∀ next, w.advance c (k.ask flow next) = (w, .thread (.going (next (.error e))))) ∧
    ∀ es es' : List Event, Dropped c w es es' →
      w.run c es = w.run c es' ∧ w.history c es = w.history c es' := by
  refine ⟨fun flow k e => perform_eq_error, ?_, ?_, fun es es' h => h.same⟩
  · intro flow e
    rw [← find_eq_error]
    unfold stageCount
    cases w.find flow <;> simp [Except.map]
  · intro flow k e h
    exact ⟨perform_of_refused h, fire_of_refused h, deeds_of_refused h, advance_of_refused h⟩

/-- A flow with one stage, and a flow that has been committed. -/
def refusalState : World :=
  (World.empty.run .plain [.call (.createFlow "f"), .call (.addCompleted ⟨"0"⟩ .empty),
    .call (.createFlow "g"), .call (.commit ⟨"1"⟩ .succeeded)]).getD .empty

/-- Calls that are refused in this state, one for each reason. -/
def refusedCalls : List (FlowId × FlowCall × FlowError) :=
  [(⟨"0"⟩, .addStage ⟨.thenApply, some (.bare "b"), []⟩,
      .invalidArgument (.needsOneInput .thenApply 0)),
    (⟨"0"⟩, .addStage ⟨.thenApply, none, [⟨"0"⟩]⟩, .invalidArgument (.needsBody .thenApply)),
    (⟨"0"⟩, .addStage ⟨.delay, none, []⟩, .invalidArgument (.hasOwnCall .delay)),
    (⟨"7"⟩, .addHook (.bare "b"), .unknownFlow ⟨"7"⟩),
    (⟨"0"⟩, .addStage ⟨.allOf, none, [⟨"0"⟩, ⟨"5"⟩, ⟨"6"⟩]⟩, .unknownStage ⟨"0"⟩ ⟨"5"⟩),
    (⟨"1"⟩, .addCompleted .empty, .flowTerminated ⟨"1"⟩),
    (⟨"1"⟩, .commit .failed, .invalidArgument (.alreadyCommitted ⟨"1"⟩)),
    (⟨"1"⟩, .removeFlow, .invalidArgument (.notTerminated ⟨"1"⟩))]

theorem refused_calls_inert_each :
    (∀ r ∈ refusedCalls,
      refusalState.perform r.1 r.2.1 = (refusalState, .error r.2.2)) ∧
    refusalState.run .plain (refusedCalls.map fun r => r.2.1.event r.1) = some refusalState := by
  obtain ⟨-, -, hinert, hsame⟩ := refused_calls_inert .plain refusalState
  have hmissing : refusalState.Refused ⟨"0"⟩
      (.addStage ⟨.allOf, none, [⟨"0"⟩, ⟨"5"⟩, ⟨"6"⟩]⟩) (.unknownStage ⟨"0"⟩ ⟨"5"⟩) := by
    have hdeps : [(⟨"0"⟩ : StageId), ⟨"5"⟩, ⟨"6"⟩] = [⟨"0"⟩] ++ ⟨"5"⟩ :: [⟨"6"⟩] := rfl
    refine .unknownStage ⟨by decide, Nat.le_add_left 1 2, nofun⟩ rfl hdeps ?_ ?_
    · intro b hb
      obtain rfl := List.mem_singleton.mp hb
      exact ⟨0, rfl⟩
    · rintro k ⟨⟩
  have hunknown : refusalState.Unknown ⟨"7"⟩ := (find_eq_error.mp rfl).2
  have hrefused : ∀ r ∈ refusedCalls, refusalState.Refused r.1 r.2.1 r.2.2 := by
    simp only [refusedCalls, List.forall_mem_cons, List.not_mem_nil, false_imp_iff,
      implies_true, and_true]
    exact ⟨.miscounted nofun, .bodyless rfl rfl rfl, .misdirected rfl nofun (by decide),
      .unknownFlow trivial hunknown, hmissing,
      .ending trivial rfl rfl (by simp [FlowCall.deps]) rfl, .committed rfl rfl, .going rfl rfl⟩
  refine ⟨fun r hr => (hinert _ _ _ (hrefused r hr)).1, ?_⟩
  have hdropped (rs : List (FlowId × FlowCall × FlowError))
      (hrs : ∀ r ∈ rs, refusalState.Refused r.1 r.2.1 r.2.2) :
      Dropped .plain refusalState (rs.map fun r => r.2.1.event r.1) [] := by
    induction rs with
    | nil => exact .nil _
    | cons r rs ih =>
        exact .drop (hrs r List.mem_cons_self) (ih fun r hr => hrs r (List.mem_cons_of_mem _ hr))
  exact (hsame _ _ (hdropped _ hrefused)).1

end World

end StageGraph
