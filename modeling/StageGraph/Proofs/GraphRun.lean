/-
# `StageGraph.Proofs.GraphRun` — a run takes every graph through changes

This is the only place where the steps of a completer are taken apart.  What an
event can do is said once (`World.fire_eq_some_iff`), and so are the moves of
stages and of drains (`World.move?_eq_some_iff`, `World.drainMove?_eq_some_iff`).

The result (`World.changes_of_run`, `World.changes_of_reachable`) says that a run
takes every graph through a chain of changes whose deeds are the deeds of the
run.  So what every change preserves holds of every graph that a run leads to.
-/
import StageGraph.Proofs.Change

namespace StageGraph

/-! ## The graphs of a completer -/

@[simp] theorem deedsAt_nil (flow : Nat) : deedsAt flow [] = [] := rfl

@[simp] theorem deedsAt_append (flow : Nat) (ds es : List (Nat × Deed)) :
    deedsAt flow (ds ++ es) = deedsAt flow ds ++ deedsAt flow es := by
  simp [deedsAt]

theorem deedsAt_map_self (flow : Nat) (ds : List Deed) :
    deedsAt flow (ds.map fun d => (flow, d)) = ds := by
  induction ds with
  | nil => rfl
  | cons d ds ih => simp_all [deedsAt]

theorem deedsAt_map_ne {flow other : Nat} (h : other ≠ flow) (ds : List Deed) :
    deedsAt flow (ds.map fun d => (other, d)) = [] := by
  induction ds with
  | nil => rfl
  | cons d ds ih => simp_all [deedsAt]

namespace World

open StageGraph.Graph (Call Ends Moves DrainMoves Change Changes)

variable {c : Completer} {w w' : World}

theorem graph?_setGraph_self {n : Nat} {g : Graph} (hg : w.graph? n = some g) (g' : Graph) :
    (w.setGraph n g').graph? n = some g' := by
  have := (List.getElem?_eq_some_iff.mp hg).1
  simp [setGraph, graph?, this]

theorem graph?_setGraph_ne {n m : Nat} (h : n ≠ m) (g : Graph) :
    (w.setGraph n g).graph? m = w.graph? m := by
  simp [setGraph, graph?, h]

@[simp] theorem setGraph_setGraph (n : Nat) (g g' : Graph) :
    (w.setGraph n g).setGraph n g' = w.setGraph n g' := by
  simp [setGraph]

/-- A flow is found at the first position at which a graph has its name and is not forgotten. -/
theorem find_eq_ok {flow : FlowId} {n : Nat} {g : Graph} : w.find flow = .ok (n, g) ↔
    w.graph? n = some g ∧ g.id = flow ∧ g.removed = false ∧
      ∀ k g', k < n → w.graph? k = some g' → g'.id = flow → g'.removed = true := by
  have hfound : w.find flow = .ok (n, g) ↔
      (w.graphs.findIdx? fun g => g.id = flow && !g.removed) = some n ∧ w.graph? n = some g := by
    unfold find
    cases w.graphs.findIdx? fun g => g.id = flow && !g.removed with
    | none => simp
    | some m =>
        cases hm : w.graph? m with
        | none =>
            simp only [hm, reduceCtorEq, false_iff, Option.some.injEq, not_and]
            rintro rfl
            simp [hm]
        | some g' =>
            simp only [hm, Except.ok.injEq, Prod.mk.injEq, Option.some.injEq]
            refine and_congr_right ?_
            rintro rfl
            simp [hm]
  rw [hfound, List.findIdx?_eq_some_iff_getElem]
  constructor
  · rintro ⟨⟨hlt, hp, hfirst⟩, hg⟩
    obtain rfl : w.graphs[n] = g := (List.getElem?_eq_some_iff.mp hg).2
    simp only [Bool.and_eq_true, decide_eq_true_eq, Bool.not_eq_true'] at hp
    refine ⟨hg, hp.1, hp.2, ?_⟩
    intro k g' hk hg' hid
    obtain rfl : w.graphs[k] = g' := (List.getElem?_eq_some_iff.mp hg').2
    simpa [hid] using hfirst k hk
  · rintro ⟨hg, hid, hremoved, hfirst⟩
    obtain ⟨hlt, rfl⟩ := List.getElem?_eq_some_iff.mp hg
    refine ⟨⟨hlt, by simp [hid, hremoved], ?_⟩, hg⟩
    intro k hk
    by_cases hk' : w.graphs[k].id = flow
    · simp [hfirst k _ hk (List.getElem?_eq_getElem (Nat.lt_trans hk hlt)) hk']
    · simp [hk']

/-- A flow that is found is the graph at its position, under its name, and not forgotten. -/
theorem graph?_of_find {flow : FlowId} {n : Nat} {g : Graph} (h : w.find flow = .ok (n, g)) :
    w.graph? n = some g ∧ g.id = flow ∧ g.removed = false := by
  obtain ⟨hg, hid, hremoved, -⟩ := find_eq_ok.mp h
  exact ⟨hg, hid, hremoved⟩

/-- A change of a flow fails and does nothing, or changes the graph that is found. -/
theorem change_cases {α : Type} (w : World) (flow : FlowId)
    (f : Graph → Except FlowError (Graph × α)) :
    (w.change flow f).1 = w ∧ (∃ e, (w.change flow f).2 = .error e) ∨
      ∃ n g g' a, w.find flow = .ok (n, g) ∧ f g = .ok (g', a) ∧
        w.change flow f = (w.setGraph n g', .ok a) := by
  unfold change
  cases hf : w.find flow with
  | error e => exact .inl ⟨rfl, e, rfl⟩
  | ok p =>
      obtain ⟨n, g⟩ := p
      cases hg : f g with
      | error e => exact .inl ⟨by simp [hg], e, by simp [hg]⟩
      | ok r => exact .inr ⟨n, g, r.1, r.2, rfl, hg, by simp [hg]⟩

/-- `w'` has come from `w` by at most one call, whose deeds are `ds`. -/
structure Called (c : Completer) (w w' : World) (ds : List (Nat × Deed)) : Prop where
  old : ∀ flow g, w.graph? flow = some g →
    (w'.graph? flow = some g ∧ deedsAt flow ds = []) ∨
      ∃ d g', Call g d g' ∧ w'.graph? flow = some g' ∧ deedsAt flow ds = d.toList
  fresh : ∀ flow, w.graph? flow = none →
    deedsAt flow ds = [] ∧ ∀ g, w'.graph? flow = some g → g = .new (c.flowName flow)

theorem Called.same (h : w'.graphs = w.graphs) : Called c w w' [] := by
  have hsame (flow : Nat) : w'.graph? flow = w.graph? flow := by rw [graph?, h, graph?]
  refine ⟨?_, ?_⟩
  · intro flow g hg
    exact .inl ⟨(hsame flow).trans hg, rfl⟩
  · intro flow hg
    refine ⟨rfl, ?_⟩
    intro g hg'
    rw [hsame, hg] at hg'
    cases hg'

/-- One graph is changed by a call. -/
theorem Called.set {n : Nat} {g g' : Graph} {d : Option Deed} (hg : w.graph? n = some g)
    (h : Call g d g') : Called c w (w.setGraph n g') (d.toList.map fun d => (n, d)) := by
  refine ⟨?_, ?_⟩
  · intro m gm hgm
    by_cases hnm : n = m
    · subst hnm
      obtain rfl : g = gm := Option.some.inj (hg.symm.trans hgm)
      exact .inr ⟨d, g', h, graph?_setGraph_self hg g', deedsAt_map_self n _⟩
    · exact .inl ⟨(graph?_setGraph_ne hnm g').trans hgm, deedsAt_map_ne hnm _⟩
  · intro m hm
    have hnm : n ≠ m := fun h => by rw [h, hm] at hg; cases hg
    refine ⟨deedsAt_map_ne hnm _, ?_⟩
    intro gm hgm
    rw [graph?_setGraph_ne hnm, hm] at hgm
    cases hgm

/-- A change that fails, or is a call without a deed. -/
theorem Called.change {α : Type} {flow : FlowId} {f : Graph → Except FlowError (Graph × α)}
    (h : ∀ {g g' a}, f g = .ok (g', a) → Call g none g') : Called c w (w.change flow f).1 [] := by
  rcases w.change_cases flow f with ⟨hw, -⟩ | ⟨n, g, g', a, hfind, hf, hw⟩
  · rw [hw]; exact .same rfl
  · rw [hw]; exact .set (graph?_of_find hfind).1 (h hf)

theorem Called.addStage (c : Completer) (w : World) (flow : FlowId) (r : StageRequest) :
    Called c w (w.addStage flow r).1 [] := by
  unfold World.addStage
  cases hr : checkRequest r with
  | error e => exact .same rfl
  | ok u =>
      refine .change ?_
      intro g g' id h
      unfold allocateResolved at h
      cases hd : r.deps.mapM g.slot? with
      | error e => simp [hd, bind, Except.bind] at h
      | ok deps =>
          simp only [hd, bind, Except.bind] at h
          exact .allocate (.resolved hr hd) h

theorem Called.addHook (c : Completer) (w : World) (flow : FlowId) (closure : Closure) :
    Called c w (w.addHook flow closure).1 [] := by
  refine .change ?_
  intro g g' a h
  obtain ⟨rfl, -⟩ := Prod.mk.inj (Except.ok.inj h)
  exact .addHook g closure

theorem Called.commit (c : Completer) (w : World) (flow : FlowId) (s : FlowState) :
    Called c w (w.commit flow s).1 (w.callDeeds (.commit flow s)) := by
  rcases w.change_cases flow (fun g => (g.commit s).map fun g' => (g', ())) with
    ⟨hw, e, he⟩ | ⟨n, g, g', a, hfind, hf, hw⟩
  · have hdeeds : w.callDeeds (.commit flow s) = [] := by
      simp only [callDeeds, World.commit, he]
      split <;> simp_all
    rw [hdeeds]
    exact .same (by rw [World.commit, hw])
  · have hdeeds : w.callDeeds (.commit flow s) = [(n, .committed s)] := by
      simp [callDeeds, World.commit, hw, hfind]
    have hcommit : g.commit s = .ok g' := by
      cases hc : g.commit s with
      | error e => simp [hc, Except.map] at hf
      | ok g'' => simp only [hc, Except.map, Except.ok.injEq, Prod.mk.injEq] at hf; rw [hf.1]
    rw [hdeeds, World.commit, hw]
    exact .set (graph?_of_find hfind).1 (.commit hcommit)

theorem Called.removeFlow (c : Completer) (w : World) (flow : FlowId) :
    Called c w (w.removeFlow flow).1 [] := by
  refine .change ?_
  intro g g' a h
  cases ht : g.terminated.isSome with
  | false => simp [ht] at h
  | true =>
      simp only [ht, if_true, Except.ok.injEq, Prod.mk.injEq] at h
      exact h.1 ▸ .remove ht

/-- Any call changes at most one graph, as one of the changes of calls. -/
theorem Called.call (c : Completer) (w : World) (r : Request) :
    Called c w (w.call c r).1 (w.callDeeds r) := by
  cases r with
  | createFlow function =>
      show Called c w { w with graphs := w.graphs ++ [.new (c.flowName w.graphs.length)] } []
      refine ⟨?_, ?_⟩
      · intro flow g hg
        have hlt := (List.getElem?_eq_some_iff.mp hg).1
        exact .inl ⟨(List.getElem?_append_left hlt).trans hg, rfl⟩
      · intro flow hg
        refine ⟨rfl, ?_⟩
        intro g hg'
        have hle := List.getElem?_eq_none_iff.mp hg
        have hlt := (List.getElem?_eq_some_iff.mp hg').1
        obtain rfl : flow = w.graphs.length := by
          simp only [List.length_append, List.length_cons, List.length_nil] at hlt
          omega
        simpa [graph?] using hg'.symm
  | addStage flow r => exact .addStage c w flow r
  | addCompleted flow o => exact .change fun h => .allocate (.completed o) h
  | addDelay flow d => exact .change fun h => .allocate (.delay _) h
  | awaitStage flow stage timeout => exact .same rfl
  | addHook flow closure => exact .addHook c w flow closure
  | commit flow s => exact .commit c w flow s

/-! ## Bodies -/

theorem bodyDeeds_eq {t : BodyThread} {p : FlowProgram bodySignature Outcome}
    (h : w.resume? t = some p) : w.bodyDeeds t = w.programDeeds p := by
  rw [bodyDeeds, h]

/-- A question is at most one call. -/
theorem Called.pose (c : Completer) (w : World) (q : Question bodySignature)
    (next : q.Answer → FlowProgram bodySignature Outcome) :
    Called c w (w.pose c q).1 (w.programDeeds (.ask q next)) := by
  cases q with
  | call r => exact .call c w r
  | other q => cases q with | removeFlow flow => exact .removeFlow c w flow
  | _ => exact .same rfl

theorem programDeeds_of_ends {p : FlowProgram bodySignature Outcome} {o : Outcome}
    (h : Ends p o) : w.programDeeds p = [] := by
  cases h <;> rfl

theorem advance_ask (c : Completer) (w : World) {q : Question bodySignature}
    (next : q.Answer → FlowProgram bodySignature Outcome) :
    w.advance c (.ask q next) = ((w.pose c q).1, .thread ((w.pose c q).2.map next)) := rfl

theorem advance_of_ends {p : FlowProgram bodySignature Outcome} {o : Outcome} (h : Ends p o)
    (c : Completer) (w : World) : w.advance c p = (w, .ended o) := by
  cases h <;> rfl

/-- A body that goes on comes to its next question, or ends. -/
theorem ask_or_ends (p : FlowProgram bodySignature Outcome) :
    (∃ (q : Question bodySignature) (next : q.Answer → _), p = .ask q next) ∨ ∃ o, Ends p o := by
  cases p with
  | ask q next => exact .inl ⟨q, next, rfl⟩
  | done o => exact .inr ⟨o, .done o⟩
  | panic m => exact .inr ⟨_, .panic m⟩

/-! ## Moves -/

/-- The moves of a stage, each with what it needs, and with the completer after it. -/
inductive StageDoes (c : Completer) (w : World) (g : Graph) (s : Stage) : World → Move → Prop
  | wake {moment : Nat} : s.phase = .delayed moment → moment ≤ w.clock →
      StageDoes c w g s w (.finish .empty)
  | gather {got : List Outcome} {d : Nat} {left : List Nat} {o : Outcome} :
      s.phase = .gathering got (d :: left) → g.outcome? d = some o →
      StageDoes c w g s w (.turn (.gathering (got ++ [o]) left))
  | resolve {got : List Outcome} : s.phase = .gathering got [] →
      StageDoes c w g s w (s.resolve got)
  | choose {o : Outcome} : s.phase = .choosing → s.deps.findSome? g.outcome? = some o →
      StageDoes c w g s w (s.resolve [o])
  | ask {t : BodyThread} {forward : Option Outcome} {q : Question bodySignature}
      {next : q.Answer → FlowProgram bodySignature Outcome} : s.phase = .running t forward →
      w.resume? t = some (.ask q next) →
      StageDoes c w g s (w.pose c q).1 (.turn (.running ((w.pose c q).2.map next) forward))
  | conclude {t : BodyThread} {forward : Option Outcome}
      {p : FlowProgram bodySignature Outcome} {o : Outcome} : s.phase = .running t forward →
      w.resume? t = some p → Ends p o → StageDoes c w g s w (g.conclude s forward o)
  | adopt {target : Nat} {o : Outcome} : s.phase = .adopting target →
      g.outcome? target = some o → StageDoes c w g s w (.finish o)

theorem stageDoes_of_move? {g : Graph} {s : Stage} {m : Move}
    (h : w.move? c g s = some (w', m)) : StageDoes c w g s w' m := by
  unfold move? at h
  cases hphase : s.phase with
  | ended o => simp [hphase] at h
  | delayed moment =>
      simp only [hphase, Option.ite_none_right_eq_some, Option.some.injEq, Prod.mk.injEq] at h
      obtain ⟨hdue, rfl, rfl⟩ := h
      exact .wake hphase hdue
  | gathering got left =>
      cases left with
      | nil =>
          simp only [hphase, Option.some.injEq, Prod.mk.injEq] at h
          obtain ⟨rfl, rfl⟩ := h
          exact .resolve hphase
      | cons d left =>
          simp only [hphase, Option.map_eq_some_iff, Prod.mk.injEq] at h
          obtain ⟨o, ho, rfl, rfl⟩ := h
          exact .gather hphase ho
  | choosing =>
      simp only [hphase, Option.map_eq_some_iff, Prod.mk.injEq] at h
      obtain ⟨o, ho, rfl, rfl⟩ := h
      exact .choose hphase ho
  | running t forward =>
      simp only [hphase, Option.map_eq_some_iff] at h
      obtain ⟨p, hp, h⟩ := h
      obtain ⟨q, next, rfl⟩ | ⟨o, hends⟩ := ask_or_ends p
      · simp only [advance_ask, Prod.mk.injEq] at h
        obtain ⟨rfl, rfl⟩ := h
        exact .ask hphase hp
      · simp only [advance_of_ends hends, Prod.mk.injEq] at h
        obtain ⟨rfl, rfl⟩ := h
        exact .conclude hphase hp hends
  | adopting target =>
      simp only [hphase, Option.map_eq_some_iff, Prod.mk.injEq] at h
      obtain ⟨o, ho, rfl, rfl⟩ := h
      exact .adopt hphase ho

theorem StageDoes.move?_eq {g : Graph} {s : Stage} {m : Move} (h : StageDoes c w g s w' m) :
    w.move? c g s = some (w', m) := by
  cases h with
  | wake hphase hdue => simp only [move?, hphase, if_pos hdue]
  | gather hphase ho | choose hphase ho | adopt hphase ho =>
      simp only [move?, hphase, ho, Option.map_some]
  | resolve hphase => simp only [move?, hphase]
  | ask hphase hp => simp only [move?, hphase, hp, Option.map_some, advance_ask]
  | conclude hphase hp hends =>
      simp only [move?, hphase, hp, Option.map_some, advance_of_ends hends]

/-- These are the moves of a stage. -/
theorem move?_eq_some_iff {g : Graph} {s : Stage} {m : Move} :
    w.move? c g s = some (w', m) ↔ StageDoes c w g s w' m :=
  ⟨stageDoes_of_move?, StageDoes.move?_eq⟩

/-- What a stage that has no move waits for, by its phase. -/
inductive StageWaits (w : World) (g : Graph) (deps : List Nat) : Phase → Prop
  | nothing (o : Outcome) : StageWaits w g deps (.ended o)
  | moment {moment : Nat} : w.clock < moment → StageWaits w g deps (.delayed moment)
  | input (got : List Outcome) {d : Nat} (left : List Nat) : g.outcome? d = none →
      StageWaits w g deps (.gathering got (d :: left))
  | anyInput : (∀ d ∈ deps, g.outcome? d = none) → StageWaits w g deps .choosing
  | body {t : BodyThread} (forward : Option Outcome) : w.resume? t = none →
      StageWaits w g deps (.running t forward)
  | target {target : Nat} : g.outcome? target = none → StageWaits w g deps (.adopting target)

/-- A stage has no move just where it waits. -/
theorem move?_eq_none_iff {g : Graph} {s : Stage} :
    w.move? c g s = none ↔ w.StageWaits g s.deps s.phase := by
  constructor
  · intro h
    unfold move? at h
    cases hphase : s.phase with
    | ended o => exact .nothing o
    | delayed moment =>
        simp only [hphase, ite_eq_right_iff, reduceCtorEq, imp_false] at h
        exact .moment (Nat.lt_of_not_le h)
    | gathering got left =>
        cases left with
        | nil => simp [hphase] at h
        | cons d left => exact .input got left (by simpa [hphase] using h)
    | choosing => exact .anyInput (by simpa [hphase] using h)
    | running t forward => exact .body forward (by simpa [hphase] using h)
    | adopting target => exact .target (by simpa [hphase] using h)
  · intro h
    generalize hphase : s.phase = p at h
    cases h with
    | nothing o => simp only [move?, hphase]
    | moment hlt => simp only [move?, hphase, if_neg (Nat.not_le_of_lt hlt)]
    | input _ _ hnone | target hnone => simp only [move?, hphase, hnone, Option.map_none]
    | anyInput hnone =>
        simp only [move?, hphase, List.findSome?_eq_none_iff.mpr hnone, Option.map_none]
    | body _ hnone => simp only [move?, hphase, hnone, Option.map_none]

/-- The moves of a drain, each with what it needs, and with the completer after it. -/
inductive DrainDoes (c : Completer) (w : World) (g : Graph) (d : Hooks.Drain BodyThread) :
    World → DrainMove → Prop
  | start {p : Hooks.Pending Closure} : d.running = none → g.hooks.next?.2 = some p →
      DrainDoes c w g d w (.start p (w.after c.hookLimit))
  | leave : d.running = none → g.hooks.next?.2 = none → DrainDoes c w g d w .leave
  | ask {r : Hooks.Running BodyThread} {q : Question bodySignature}
      {next : q.Answer → FlowProgram bodySignature Outcome} : d.running = some r →
      w.resume? r.thread = some (.ask q next) →
      DrainDoes c w g d (w.pose c q).1 (.turn { r with thread := (w.pose c q).2.map next })
  | finish {r : Hooks.Running BodyThread} {p : FlowProgram bodySignature Outcome} {o : Outcome} :
      d.running = some r → w.resume? r.thread = some p → Ends p o →
      DrainDoes c w g d w (.finish r.index (hookEnding o))
  /-- The hook under way is cut off only where it cannot go on. -/
  | cut {r : Hooks.Running BodyThread} : d.running = some r → w.resume? r.thread = none →
      r.limit ≤ w.clock → DrainDoes c w g d w (.finish r.index (.timedOut c.hookLimit))

theorem drainDoes_of_drainMove? {g : Graph} {d : Hooks.Drain BodyThread} {m : DrainMove}
    (h : w.drainMove? c g d = some (w', m)) : DrainDoes c w g d w' m := by
  unfold drainMove? at h
  cases hr : d.running with
  | none =>
      cases hnext : g.hooks.next?.2 with
      | none =>
          simp only [hr, hnext, Option.some.injEq, Prod.mk.injEq] at h
          obtain ⟨rfl, rfl⟩ := h
          exact .leave hr hnext
      | some p =>
          simp only [hr, hnext, Option.some.injEq, Prod.mk.injEq] at h
          obtain ⟨rfl, rfl⟩ := h
          exact .start hr hnext
  | some r =>
      cases hresume : w.resume? r.thread with
      | none =>
          simp only [hr, hresume, Option.ite_none_right_eq_some, Option.some.injEq,
            Prod.mk.injEq] at h
          obtain ⟨hlimit, rfl, rfl⟩ := h
          exact .cut hr hresume hlimit
      | some p =>
          simp only [hr, hresume] at h
          obtain ⟨q, next, rfl⟩ | ⟨o, hends⟩ := ask_or_ends p
          · simp only [advance_ask, Option.some.injEq, Prod.mk.injEq] at h
            obtain ⟨rfl, rfl⟩ := h
            exact .ask hr hresume
          · simp only [advance_of_ends hends, Option.some.injEq, Prod.mk.injEq] at h
            obtain ⟨rfl, rfl⟩ := h
            exact .finish hr hresume hends

theorem DrainDoes.drainMove?_eq {g : Graph} {d : Hooks.Drain BodyThread} {m : DrainMove}
    (h : DrainDoes c w g d w' m) : w.drainMove? c g d = some (w', m) := by
  cases h with
  | start hr hnext | leave hr hnext => simp only [drainMove?, hr, hnext]
  | ask hr hresume => simp only [drainMove?, hr, hresume, advance_ask]
  | finish hr hresume hends => simp only [drainMove?, hr, hresume, advance_of_ends hends]
  | cut hr hresume hlimit => simp only [drainMove?, hr, hresume, if_pos hlimit]

/-- These are the moves of a drain. -/
theorem drainMove?_eq_some_iff {g : Graph} {d : Hooks.Drain BodyThread} {m : DrainMove} :
    w.drainMove? c g d = some (w', m) ↔ DrainDoes c w g d w' m :=
  ⟨drainDoes_of_drainMove?, DrainDoes.drainMove?_eq⟩

/-! ## Steps -/

/-- `w'` has come from `w` by changes of graphs, whose deeds are `ds`. -/
structure Moved (c : Completer) (w w' : World) (ds : List (Nat × Deed)) : Prop where
  old : ∀ flow g, w.graph? flow = some g →
    ∃ g', w'.graph? flow = some g' ∧ Changes c g (deedsAt flow ds) g'
  fresh : ∀ flow, w.graph? flow = none →
    deedsAt flow ds = [] ∧ ∀ g, w'.graph? flow = some g → g = .new (c.flowName flow)

theorem Called.moved {ds : List (Nat × Deed)} (h : Called c w w' ds) : Moved c w w' ds := by
  refine ⟨?_, h.fresh⟩
  intro flow g hg
  rcases h.old flow g hg with ⟨hg', hds⟩ | ⟨d, g', hcall, hg', hds⟩
  · exact ⟨g, hg', hds ▸ .refl g⟩
  · exact ⟨g', hg', hds ▸ .single (.call hcall)⟩

/-- After a call, one graph that was there before is changed once more. -/
theorem Called.moved_set {ds : List (Nat × Deed)} (h : Called c w w' ds) {flow : Nat}
    {g g₁ g₂ : Graph} (hg : w.graph? flow = some g) (hg₁ : w'.graph? flow = some g₁)
    {d : Option Deed} (hchange : Change c g₁ d g₂) :
    Moved c w (w'.setGraph flow g₂) (ds ++ d.toList.map fun d => (flow, d)) := by
  refine ⟨?_, ?_⟩
  · intro other g' hg'
    obtain ⟨g₁', hg₁', hchanges⟩ := h.moved.old other g' hg'
    rw [deedsAt_append]
    by_cases hflow : flow = other
    · subst hflow
      obtain rfl : g₁ = g₁' := Option.some.inj (hg₁.symm.trans hg₁')
      refine ⟨g₂, graph?_setGraph_self hg₁ g₂, ?_⟩
      rw [deedsAt_map_self]
      exact hchanges.tail hchange
    · refine ⟨g₁', (graph?_setGraph_ne hflow g₂).trans hg₁', ?_⟩
      rw [deedsAt_map_ne hflow, List.append_nil]
      exact hchanges
  · intro other hother
    have hflow : flow ≠ other := fun h => by rw [h, hother] at hg; cases hg
    obtain ⟨hds, hnew⟩ := h.fresh other hother
    refine ⟨by rw [deedsAt_append, deedsAt_map_ne hflow, hds, List.append_nil], ?_⟩
    intro g' hg'
    rw [graph?_setGraph_ne hflow] at hg'
    exact hnew g' hg'

/-- The graph at a position after at most one call. -/
theorem Called.graph? {ds : List (Nat × Deed)} (h : Called c w w' ds) {flow : Nat} {g : Graph}
    (hg : w.graph? flow = some g) :
    ∃ g₁, w'.graph? flow = some g₁ ∧ (g₁ = g ∨ ∃ d, Call g d g₁) := by
  rcases h.old flow g hg with ⟨hg₁, -⟩ | ⟨d, g₁, hcall, hg₁, -⟩
  · exact ⟨g, hg₁, .inl rfl⟩
  · exact ⟨g₁, hg₁, .inr ⟨d, hcall⟩⟩

/-- The move of a stage is one of those it may make on its graph, after at most one call. -/
theorem move?_cases {flow : Nat} {g : Graph} {s : Stage} {m : Move}
    (hg : w.graph? flow = some g) (h : w.move? c g s = some (w', m)) :
    Called c w w' (w.phaseDeeds s.phase) ∧
      ∃ g₁, w'.graph? flow = some g₁ ∧ (g₁ = g ∨ ∃ d, Call g d g₁) ∧ Moves g₁ s m := by
  have waiting (hphase : w.phaseDeeds s.phase = []) : Called c w w (w.phaseDeeds s.phase) :=
    hphase ▸ .same rfl
  cases move?_eq_some_iff.mp h with
  | wake hphase _ => exact ⟨waiting (by rw [hphase]; rfl), g, hg, .inl rfl, .wake hphase⟩
  | gather hphase ho =>
      exact ⟨waiting (by rw [hphase]; rfl), g, hg, .inl rfl, .gather hphase ho⟩
  | resolve hphase => exact ⟨waiting (by rw [hphase]; rfl), g, hg, .inl rfl, .resolve hphase⟩
  | choose hphase ho =>
      exact ⟨waiting (by rw [hphase]; rfl), g, hg, .inl rfl, .choose hphase ho⟩
  | adopt hphase ho => exact ⟨waiting (by rw [hphase]; rfl), g, hg, .inl rfl, .adopt hphase ho⟩
  | @ask t forward q next hphase hp =>
      have hcalled := Called.pose c w q next
      obtain ⟨g₁, hg₁, hcall⟩ := hcalled.graph? hg
      rw [hphase, phaseDeeds, bodyDeeds_eq hp]
      exact ⟨hcalled, g₁, hg₁, hcall, .think _ hphase ⟨_, _, hp⟩⟩
  | conclude hphase hp hends =>
      rw [hphase, phaseDeeds, bodyDeeds_eq hp, programDeeds_of_ends hends]
      exact ⟨.same rfl, g, hg, .inl rfl, .conclude hphase ⟨_, _, hp⟩ hends⟩

/-- The move of a drain is one of those it may make on its graph, after at most one call. -/
theorem drainMove?_cases {flow : Nat} {g : Graph} {d : Hooks.Drain BodyThread} {m : DrainMove}
    (hg : w.graph? flow = some g) (h : w.drainMove? c g d = some (w', m)) :
    Called c w w' (w.runningDeeds d.running) ∧
      ∃ g₁, w'.graph? flow = some g₁ ∧ (g₁ = g ∨ ∃ d, Call g d g₁) ∧ DrainMoves c g₁ d m := by
  cases drainMove?_eq_some_iff.mp h with
  | start hr hnext =>
      rw [hr]
      exact ⟨.same rfl, g, hg, .inl rfl, .start _ hr hnext⟩
  | leave hr hnext =>
      rw [hr]
      exact ⟨.same rfl, g, hg, .inl rfl, .leave hr hnext⟩
  | @ask r q next hr hp =>
      have hcalled := Called.pose c w q next
      obtain ⟨g₁, hg₁, hcall⟩ := hcalled.graph? hg
      rw [hr, runningDeeds, bodyDeeds_eq hp]
      exact ⟨hcalled, g₁, hg₁, hcall, .turn hr⟩
  | finish hr hp hends =>
      rw [hr, runningDeeds, bodyDeeds_eq hp, programDeeds_of_ends hends]
      exact ⟨.same rfl, g, hg, .inl rfl, .finish _ hr⟩
  | cut hr hp _ =>
      rw [hr, runningDeeds, bodyDeeds, hp]
      exact ⟨.same rfl, g, hg, .inl rfl, .finish _ hr⟩

/-- The `n`th stage of the graph `g` makes the move `m`.  In the state `w₁` its body has asked the
question that the move may begin with, and `g₁` is the graph then. -/
structure StageActs (c : Completer) (w : World) (flow n : Nat) (g : Graph) (s : Stage) (m : Move)
    (w₁ : World) (g₁ : Graph) : Prop where
  graph : w.graph? flow = some g
  stage : g.stages[n]? = some s
  move : w.move? c g s = some (w₁, m)
  called : Called c w w₁ (w.phaseDeeds s.phase)
  graph₁ : w₁.graph? flow = some g₁
  call : g₁ = g ∨ ∃ d, Call g d g₁
  stage₁ : g₁.stages[n]? = some s
  moves : Moves g₁ s m

theorem stageActs_of_move? {flow n : Nat} {g : Graph} {s : Stage} {m : Move} {w₁ : World}
    (hg : w.graph? flow = some g) (hs : g.stages[n]? = some s)
    (h : w.move? c g s = some (w₁, m)) : ∃ g₁, StageActs c w flow n g s m w₁ g₁ := by
  obtain ⟨hcalled, g₁, hg₁, hcall, hmoves⟩ := move?_cases hg h
  refine ⟨g₁, hg, hs, h, hcalled, hg₁, hcall, ?_, hmoves⟩
  rcases hcall with rfl | ⟨d, hcall⟩
  · exact hs
  · exact hcall.stage hs

/-- The `k`th task that runs hooks of the graph `g` makes the move `m` of its drain; `w₁` and `g₁`
are as above. -/
structure DrainActs (c : Completer) (w : World) (flow k : Nat) (g : Graph)
    (d : Hooks.Drain BodyThread) (s : Option FlowState) (m : DrainMove) (w₁ : World)
    (g₁ : Graph) : Prop where
  graph : w.graph? flow = some g
  task : g.hookTasks[k]? = some (.draining d s)
  move : w.drainMove? c g d = some (w₁, m)
  called : Called c w w₁ (w.runningDeeds d.running)
  graph₁ : w₁.graph? flow = some g₁
  call : g₁ = g ∨ ∃ d, Call g d g₁
  task₁ : g₁.hookTasks[k]? = some (.draining d s)
  moves : DrainMoves c g₁ d m

theorem drainActs_of_drainMove? {flow k : Nat} {g : Graph} {d : Hooks.Drain BodyThread}
    {s : Option FlowState} {m : DrainMove} {w₁ : World} (hg : w.graph? flow = some g)
    (hk : g.hookTasks[k]? = some (.draining d s)) (h : w.drainMove? c g d = some (w₁, m)) :
    ∃ g₁, DrainActs c w flow k g d s m w₁ g₁ := by
  obtain ⟨hcalled, g₁, hg₁, hcall, hmoves⟩ := drainMove?_cases hg h
  refine ⟨g₁, hg, hk, h, hcalled, hg₁, hcall, ?_, hmoves⟩
  rcases hcall with rfl | ⟨d, hcall⟩
  · exact hk
  · exact hcall.hookTask hk

/-- What an event makes of a state: at most one call, and then at most one change of the graph of
its task. -/
inductive Fires (c : Completer) (w : World) : Event → World → Prop
  | call (r : Request) : Fires c w (.call r) (w.call c r).1
  | removeFlow (flow : FlowId) : Fires c w (.removeFlow flow) (w.removeFlow flow).1
  | clock {moment : Nat} : w.clock ≤ moment →
      Fires c w (.clock moment) { w with clock := moment }
  | log (line : String) : Fires c w (.log line) { w with log := w.log ++ [line] }
  | ran (entry : String) : Fires c w (.ran entry) { w with ran := w.ran ++ [entry] }
  | stage {flow n : Nat} {g g₁ : Graph} {s : Stage} {m : Move} {w₁ : World} :
      StageActs c w flow n g s m w₁ g₁ →
      Fires c w (.task (.stage flow n)) (w₁.setGraph flow (g₁.move c n m))
  /-- A task begins to drain the hooks for the end of its flow. -/
  | begin {flow k : Nat} {g : Graph} {s : FlowState} : w.graph? flow = some g →
      g.hookTasks[k]? = some (.due s) → (g.hooks.terminate s).2 = true →
      Fires c w (.task (.hooks flow k)) (w.setGraph flow
        ({ g with hooks := (g.hooks.terminate s).1 }.setHookTask k (.draining .fresh (some s))))
  /-- A task finds that there is no drain for it to begin. -/
  | skip {flow k : Nat} {g : Graph} {s : FlowState} : w.graph? flow = some g →
      g.hookTasks[k]? = some (.due s) → (g.hooks.terminate s).2 = false →
      Fires c w (.task (.hooks flow k)) (w.setGraph flow
        (({ g with hooks := (g.hooks.terminate s).1 }.setHookTask k .finished).publish (some s)))
  | drain {flow k : Nat} {g g₁ : Graph} {d : Hooks.Drain BodyThread} {s : Option FlowState}
      {m : DrainMove} {w₁ : World} : DrainActs c w flow k g d s m w₁ g₁ →
      Fires c w (.task (.hooks flow k)) (w₁.setGraph flow
        ((g₁.drainMove c d m).1.settleDrain k s (g₁.drainMove c d m).2))

theorem Fires.fire {e : Event} (h : Fires c w e w') : w.fire c e = some w' := by
  cases h with
  | call | removeFlow | log | ran => rfl
  | clock hle => exact if_pos hle
  | stage h =>
      simp only [World.fire, step, stepStage, h.graph, h.stage, h.move, h.graph₁,
        Option.bind_eq_bind, Option.bind_some, Option.map_some, Option.getD_some]
  | begin hg hk hstarts | skip hg hk hstarts =>
      simp only [World.fire, step, stepHooks, endHooks, hg, hk, hstarts, setGraph_setGraph,
        Option.bind_eq_bind, Option.bind_some]
  | drain h =>
      simp only [World.fire, step, stepHooks, stepDrain, h.graph, h.task, h.move, h.graph₁,
        graph?_setGraph_self h.graph₁, setGraph_setGraph, Option.bind_eq_bind, Option.bind_some,
        Option.map_some, Option.getD_some]

theorem fires_of_step {id : TaskId} (h : w.step c id = some w') : Fires c w (.task id) w' := by
  cases id with
  | stage flow n =>
      obtain ⟨g, hg, h⟩ := Option.bind_eq_some_iff.mp h
      obtain ⟨s, hs, h⟩ := Option.bind_eq_some_iff.mp h
      obtain ⟨⟨w₁, m⟩, hm, rfl⟩ := Option.map_eq_some_iff.mp h
      obtain ⟨g₁, hacts⟩ := stageActs_of_move? hg hs hm
      simp only [hacts.graph₁, Option.getD_some]
      exact .stage hacts
  | hooks flow k =>
      obtain ⟨g, hg, h⟩ := Option.bind_eq_some_iff.mp h
      obtain ⟨task, hk, h⟩ := Option.bind_eq_some_iff.mp h
      cases task with
      | finished => simp [stepHooks] at h
      | due s =>
          simp only [stepHooks, endHooks] at h
          cases hstarts : (g.hooks.terminate s).2 <;>
            simp only [hstarts, Option.some.injEq, setGraph_setGraph] at h <;>
            subst h
          · exact .skip hg hk hstarts
          · exact .begin hg hk hstarts
      | draining d s =>
          simp only [stepHooks, stepDrain, Option.map_map, Option.map_eq_some_iff] at h
          obtain ⟨⟨w₁, m⟩, hm, rfl⟩ := h
          obtain ⟨g₁, hacts⟩ := drainActs_of_drainMove? hg hk hm
          simp only [Function.comp, hacts.graph₁, Option.getD_some,
            graph?_setGraph_self hacts.graph₁, setGraph_setGraph]
          exact .drain hacts

/-- This is all that an event can do. -/
theorem fire_eq_some_iff {e : Event} : w.fire c e = some w' ↔ Fires c w e w' := by
  refine ⟨fun h => ?_, Fires.fire⟩
  cases e with
  | call r =>
      obtain rfl := Option.some.inj h
      exact .call r
  | removeFlow flow =>
      obtain rfl := Option.some.inj h
      exact .removeFlow flow
  | clock moment =>
      simp only [fire, Option.ite_none_right_eq_some, Option.some.injEq] at h
      obtain ⟨hle, rfl⟩ := h
      exact .clock hle
  | log line =>
      obtain rfl := Option.some.inj h
      exact .log line
  | ran entry =>
      obtain rfl := Option.some.inj h
      exact .ran entry
  | task id => exact fires_of_step h

theorem step_stage_eq_none_iff {flow n : Nat} {g : Graph} {s : Stage}
    (hg : w.graph? flow = some g) (hs : g.stages[n]? = some s) :
    w.step c (.stage flow n) = none ↔ w.move? c g s = none := by
  simp [step, hg, hs, stepStage]

theorem step_drain_eq_none_iff {flow k : Nat} {g : Graph} {d : Hooks.Drain BodyThread}
    {s : Option FlowState} (hg : w.graph? flow = some g)
    (hk : g.hookTasks[k]? = some (.draining d s)) :
    w.step c (.hooks flow k) = none ↔ w.drainMove? c g d = none := by
  simp [step, hg, hk, stepHooks, stepDrain]

/-- The step of a stage, where its move is known. -/
theorem StageDoes.fires {flow n : Nat} {g : Graph} {s : Stage} {m : Move} {w₁ : World}
    (h : StageDoes c w g s w₁ m) (hg : w.graph? flow = some g) (hs : g.stages[n]? = some s)
    (hfire : w.fire c (.task (.stage flow n)) = some w') :
    ∃ g₁, StageActs c w flow n g s m w₁ g₁ ∧ w' = w₁.setGraph flow (g₁.move c n m) := by
  obtain ⟨g₁, hacts⟩ := stageActs_of_move? hg hs h.move?_eq
  exact ⟨g₁, hacts, Option.some.inj (hfire.symm.trans (Fires.stage hacts).fire)⟩

/-- The step of a drain, where its move is known. -/
theorem DrainDoes.fires {flow k : Nat} {g : Graph} {d : Hooks.Drain BodyThread}
    {s : Option FlowState} {m : DrainMove} {w₁ : World} (h : DrainDoes c w g d w₁ m)
    (hg : w.graph? flow = some g) (hk : g.hookTasks[k]? = some (.draining d s))
    (hfire : w.fire c (.task (.hooks flow k)) = some w') :
    ∃ g₁, DrainActs c w flow k g d s m w₁ g₁ ∧ w' = w₁.setGraph flow
      ((g₁.drainMove c d m).1.settleDrain k s (g₁.drainMove c d m).2) := by
  obtain ⟨g₁, hacts⟩ := drainActs_of_drainMove? hg hk h.drainMove?_eq
  exact ⟨g₁, hacts, Option.some.inj (hfire.symm.trans (Fires.drain hacts).fire)⟩

/-- An event takes every graph through changes. -/
theorem moved_fire {e : Event} (h : w.fire c e = some w') : Moved c w w' (w.deeds c e) := by
  have hself : Called c w w [] := .same rfl
  cases fire_eq_some_iff.mp h with
  | call r => exact (Called.call c w r).moved
  | removeFlow flow => exact (Called.removeFlow c w flow).moved
  | clock | log | ran => exact Called.moved (.same rfl)
  | stage hacts =>
      simp only [deeds, taskDeeds, stageDeeds, hacts.graph, hacts.stage, hacts.move,
        hacts.graph₁, Option.getD_some]
      exact hacts.called.moved_set hacts.graph hacts.graph₁ (.move hacts.stage₁ hacts.moves)
  | begin hg hk hstarts =>
      simp only [deeds, taskDeeds, hookDeeds, hg, hk, hstarts, if_true]
      exact hself.moved_set hg hg (.begin hk hstarts)
  | skip hg hk hstarts =>
      simp only [deeds, taskDeeds, hookDeeds, hg, hk, hstarts, Bool.false_eq_true, if_false]
      exact hself.moved_set hg hg (.skip hk hstarts)
  | drain hacts =>
      simp only [deeds, taskDeeds, hookDeeds, hacts.graph, hacts.task, hacts.move,
        hacts.graph₁, Option.getD_some]
      exact hacts.called.moved_set hacts.graph hacts.graph₁ (.drain hacts.task₁ hacts.moves)

/-! ## Deeds of hooks -/

/-- The only deeds of calls are commits. -/
theorem callDeeds_committed {r : Request} {p : Nat × Deed} (h : p ∈ w.callDeeds r) :
    ∃ s, p.2 = .committed s := by
  cases r with
  | commit flow s =>
      simp only [callDeeds] at h
      split at h
      · exact ⟨s, by rw [List.mem_singleton.mp h]⟩
      · cases h
  | _ => cases h

@[inherit_doc callDeeds_committed]
theorem bodyDeeds_committed {t : BodyThread} {p : Nat × Deed} (h : p ∈ w.bodyDeeds t) :
    ∃ s, p.2 = .committed s := by
  unfold bodyDeeds programDeeds at h
  split at h
  · split at h
    · exact callDeeds_committed h
    · cases h
  · cases h

/-- The deeds that are told apart below: a hook starts, or a state is published. -/
def IsHookDeed (d : Deed) : Prop := (∃ index r, d = .hookStarted index r) ∨ ∃ s, d = .published s

theorem IsHookDeed.not_committed {d : Deed} (h : IsHookDeed d) : ¬∃ s, d = .committed s := by
  rintro ⟨s, rfl⟩
  rcases h with ⟨index, r, h⟩ | ⟨s', h⟩ <;> cases h

/-- A step of a stage neither starts a hook nor publishes a state. -/
theorem not_mem_stageDeeds {flow flow' n : Nat} {g : Graph} {s : Stage} {d : Deed}
    (hd : IsHookDeed d) : (flow, d) ∉ w.stageDeeds c flow' g n s := by
  intro hmem
  rcases List.mem_append.mp hmem with hmem | hmem
  · cases hphase : s.phase with
    | running t forward =>
        rw [hphase] at hmem
        exact hd.not_committed (bodyDeeds_committed hmem)
    | _ => rw [hphase] at hmem; cases hmem
  · split at hmem
    · next w₁ m _ =>
        obtain ⟨d', hd', heq⟩ := List.mem_map.mp hmem
        cases heq
        cases m <;> rcases hd with ⟨index, r, rfl⟩ | ⟨s', rfl⟩ <;> simp [Move.deed?] at hd'
    · cases hmem

/-- A drain that starts a hook or publishes a state has had no body ask anything before. -/
theorem change_of_drainDeed {flow flow' k : Nat} {g g₁ : Graph} {dr : Hooks.Drain BodyThread}
    {s : Option FlowState} {m : DrainMove} {w₁ : World} {d : Deed} (hd : IsHookDeed d)
    (h : DrainActs c w flow' k g dr s m w₁ g₁)
    (hmem : (flow, d) ∈ w.hookDeeds c flow' g (.draining dr s)) :
    flow = flow' ∧ g₁ = g ∧ Change c g₁ (some d)
      ((g₁.drainMove c dr m).1.settleDrain k s (g₁.drainMove c dr m).2) := by
  simp only [hookDeeds, h.move, h.graph₁, Option.getD_some, List.mem_append] at hmem
  rcases hmem with hmem | hmem
  · cases hr : dr.running with
    | none => rw [hr] at hmem; cases hmem
    | some r =>
        rw [hr] at hmem
        exact absurd (bodyDeeds_committed hmem) hd.not_committed
  · obtain ⟨d', hd', heq⟩ := List.mem_map.mp hmem
    cases heq
    have hidle : dr.running = none := by
      cases h.moves with
      | start _ hr _ => exact hr
      | leave hr _ => exact hr
      | turn _ => simp [DrainMove.deed?] at hd'
      | finish e _ => rcases hd with ⟨index, r, rfl⟩ | ⟨s, rfl⟩ <;> simp [DrainMove.deed?] at hd'
    have hsame : w = w₁ := by
      cases drainMove?_eq_some_iff.mp h.move with
      | start | leave => rfl
      | ask hr | finish hr | cut hr => cases hidle.symm.trans hr
    subst hsame
    rw [← Option.mem_toList.mp hd']
    exact ⟨rfl, Option.some.inj (h.graph₁.symm.trans h.graph), .drain h.task₁ h.moves⟩

/-- A hook that starts, and the publication of a state, are not preceded by another change in the
same event. -/
theorem change_of_hookDeed {e : Event} {flow : Nat} {d : Deed} (h : w.fire c e = some w')
    (hmem : (flow, d) ∈ w.deeds c e) (hd : IsHookDeed d) :
    ∃ g g', w.graph? flow = some g ∧ w'.graph? flow = some g' ∧ Change c g (some d) g' := by
  cases fire_eq_some_iff.mp h with
  | call r => exact absurd (callDeeds_committed hmem) hd.not_committed
  | removeFlow | clock | log | ran => cases hmem
  | stage hacts =>
      simp only [deeds, taskDeeds, hacts.graph, hacts.stage] at hmem
      exact absurd hmem (not_mem_stageDeeds hd)
  | begin hg hk hstarts => simp [deeds, taskDeeds, hookDeeds, hg, hk, hstarts] at hmem
  | skip hg hk hstarts =>
      simp only [deeds, taskDeeds, hookDeeds, hg, hk, hstarts, Bool.false_eq_true, if_false,
        List.mem_singleton, Prod.mk.injEq] at hmem
      obtain ⟨rfl, rfl⟩ := hmem
      exact ⟨_, _, hg, graph?_setGraph_self hg _, .skip hk hstarts⟩
  | drain hacts =>
      simp only [deeds, taskDeeds, hacts.graph, hacts.task] at hmem
      obtain ⟨rfl, rfl, hchange⟩ := change_of_drainDeed hd hacts hmem
      exact ⟨_, _, hacts.graph, graph?_setGraph_self hacts.graph₁ _, hchange⟩

/-! ## Runs -/

/-- A run takes every graph that is there through changes whose deeds are its own. -/
theorem changes_of_run {es : List Event} {flow : Nat} {g : Graph} (h : w.run c es = some w')
    (hg : w.graph? flow = some g) :
    ∃ g', w'.graph? flow = some g' ∧ Changes c g (deedsAt flow (w.history c es)) g' := by
  induction es generalizing w g with
  | nil =>
      obtain rfl := Option.some.inj h
      exact ⟨g, hg, .refl g⟩
  | cons e es ih =>
      obtain ⟨w₁, hfire, hrun⟩ := Option.bind_eq_some_iff.mp h
      obtain ⟨g₁, hg₁, hfirst⟩ := (moved_fire hfire).old flow g hg
      obtain ⟨g', hg', hrest⟩ := ih hrun hg₁
      refine ⟨g', hg', ?_⟩
      simp only [history, hfire, deedsAt_append]
      exact hfirst.trans hrest

/-- A graph that a run has made has come from the empty graph through the deeds of the run. -/
theorem changes_of_fresh {es : List Event} {flow : Nat} {g : Graph} (h : w.run c es = some w')
    (hw : w.graph? flow = none) (hg : w'.graph? flow = some g) :
    Changes c (.new (c.flowName flow)) (deedsAt flow (w.history c es)) g := by
  induction es generalizing w with
  | nil =>
      obtain rfl := Option.some.inj h
      rw [hw] at hg
      cases hg
  | cons e es ih =>
      obtain ⟨w₁, hfire, hrun⟩ := Option.bind_eq_some_iff.mp h
      obtain ⟨hds, hnew⟩ := (moved_fire hfire).fresh flow hw
      simp only [history, hfire, deedsAt_append, hds, List.nil_append]
      cases hg₁ : w₁.graph? flow with
      | none => exact ih hrun hg₁
      | some g₁ =>
          obtain rfl := hnew g₁ hg₁
          obtain ⟨g', hg', hchanges⟩ := changes_of_run hrun hg₁
          obtain rfl : g' = g := Option.some.inj (hg'.symm.trans hg)
          exact hchanges

/-- Every graph of a state that can be reached has come from the empty one. -/
theorem changes_of_reachable {flow : Nat} {g : Graph} (h : w.Reachable c)
    (hg : w.graph? flow = some g) : ∃ ds, Changes c (.new (c.flowName flow)) ds g := by
  obtain ⟨es, hrun⟩ := h
  exact ⟨_, changes_of_fresh hrun rfl hg⟩

theorem Reachable.run {es : List Event} (h : w.Reachable c) (hrun : w.run c es = some w') :
    w'.Reachable c := by
  obtain ⟨first, hfirst⟩ := h
  refine ⟨first ++ es, ?_⟩
  generalize World.empty = start at hfirst ⊢
  induction first generalizing start with
  | nil =>
      obtain rfl := Option.some.inj hfirst
      exact hrun
  | cons e first ih =>
      obtain ⟨w₁, hfire, hfirst⟩ := Option.bind_eq_some_iff.mp hfirst
      rw [List.cons_append, World.run, hfire]
      exact ih w₁ hfirst

end World

end StageGraph
