/-
# `StageGraph.Proofs.Lifecycle` — the record of a flow's life is right

A graph counts its active stages.  Four kinds of events touch the count: a call
that adds a stage, the end of a stage, and, without changing it, a commit and a
stage that is terminal from the start.  The record is right (`Graph.Accounted`)
if the count is the number of stages without a result, and the end of the flow
has begun exactly when the flow is committed and the count is zero.

Each change keeps the record right, so it is right in every state of every run.
Two things follow.  A stage is only ever ended while the count is positive, so
counting down never stops at zero.  And once the end of a flow has begun nothing
is active that could add or end a stage: the stages stay as they are for good.
-/
import StageGraph.Proofs.GraphRun

namespace StageGraph

/-- Whether a stage has no result yet. -/
def Stage.isActive (s : Stage) : Bool := s.phase.outcome?.isNone

namespace Graph

theorem Moves.isActive {g : Graph} {s : Stage} {m : Move} (h : Moves g s m) :
    s.isActive = true := by
  rw [Stage.isActive, h.outcome?]
  rfl

/-- The record of the life of a flow is right. -/
structure Accounted (g : Graph) : Prop where
  active : g.active = g.stages.countP Stage.isActive
  terminating : g.terminating = true ↔ g.committed.isSome ∧ g.active = 0

theorem accounted_new (id : FlowId) : (new id).Accounted :=
  ⟨rfl, by simp [new]⟩

/-- The end of a flow begins when it is due, if it has not begun too early. -/
theorem accounted_endIfDue {g : Graph} (hactive : g.active = g.stages.countP Stage.isActive)
    (hend : g.terminating = true → g.committed.isSome ∧ g.active = 0) :
    g.endIfDue.Accounted := by
  refine ⟨by simpa using hactive, ?_⟩
  unfold endIfDue
  cases hc : g.committed with
  | none => simpa [hc] using hend
  | some s =>
      by_cases hdue : g.active = 0 ∧ g.terminating = false
      · simp [hdue]
      · simp only [if_neg hdue, hc]
        refine ⟨fun h => ⟨rfl, (hend h).2⟩, ?_⟩
        intro h
        cases hterm : g.terminating with
        | true => rfl
        | false => exact absurd ⟨h.2, hterm⟩ hdue

namespace Accounted

variable {c : Completer} {g g' : Graph}

theorem allocate {s : Stage} {id : StageId} (hg : g.Accounted)
    (h : g.allocate s = .ok (g', id)) : g'.Accounted := by
  obtain ⟨hopen, -, rfl⟩ := allocate_eq_ok h
  have hnot : ¬(g.committed.isSome ∧ g.active = 0) := by
    rw [← hg.terminating, hopen]
    exact Bool.false_ne_true
  cases hs : s.phase.outcome?.isSome with
  | true =>
      have hactive : s.isActive = false := by simpa [Stage.isActive] using hs
      refine ⟨?_, ?_⟩
      · simp [hactive, hg.active]
      · simpa [hopen] using hnot
  | false =>
      have hactive : s.isActive = true := by simpa [Stage.isActive] using hs
      refine ⟨?_, ?_⟩
      · simp [hactive, hg.active]
      · simp [hopen]

theorem commit {s : FlowState} (hg : g.Accounted) (h : g.commit s = .ok g') : g'.Accounted := by
  obtain ⟨hnone, rfl⟩ := commit_eq_ok h
  refine accounted_endIfDue hg.active ?_
  intro hterm
  have := (hg.terminating.mp hterm).1
  simp [hnone] at this

/-- Where a stage is active, the count is positive, and the end has not begun. -/
theorem of_active {n : Nat} {s : Stage} (hg : g.Accounted) (hs : g.stages[n]? = some s)
    (hactive : s.isActive = true) : 1 ≤ g.active ∧ g.terminating = false := by
  have hpos : 1 ≤ g.active := by
    rw [hg.active]
    exact List.countP_pos_iff.mpr ⟨s, List.mem_of_getElem? hs, hactive⟩
  refine ⟨hpos, ?_⟩
  cases hterm : g.terminating with
  | false => rfl
  | true =>
      have := (hg.terminating.mp hterm).2
      omega

/-- The count after an active stage has come into another phase. -/
theorem countP_setPhase {n : Nat} {s : Stage} (hs : g.stages[n]? = some s)
    (hactive : s.isActive = true) (p : Phase) :
    (g.setPhase n p).stages.countP Stage.isActive + 1 =
      g.stages.countP Stage.isActive + if p.outcome?.isNone then 1 else 0 := by
  obtain ⟨hlt, hget⟩ := List.getElem?_eq_some_iff.mp hs
  have hpos : 0 < g.stages.countP Stage.isActive :=
    List.countP_pos_iff.mpr ⟨s, List.mem_of_getElem? hs, hactive⟩
  rw [setPhase_stages hs, List.countP_set hlt, hget, if_pos hactive]
  cases hp : p.outcome?.isNone with
  | true => simp [Stage.isActive, hp]; omega
  | false => simp [Stage.isActive, hp]; omega

theorem move {n : Nat} {s : Stage} {m : Move} (hg : g.Accounted) (hs : g.stages[n]? = some s)
    (hm : Moves g s m) : (g.move c n m).Accounted := by
  have hactive := hm.isActive
  obtain ⟨hpos, hopen⟩ := hg.of_active hs hactive
  rcases hm.move_cases c n with ⟨o, rfl⟩ | ⟨p, hp, hmove⟩
  · have hcount := countP_setPhase hs hactive (.ended o)
    refine accounted_endIfDue ?_ ?_
    · show g.active - 1 = (g.setPhase n (.ended o)).stages.countP Stage.isActive
      rw [hg.active]
      simp only [Phase.outcome?, Option.isNone_some, Bool.false_eq_true, if_false] at hcount
      omega
    · intro hterm
      have hterm : g.terminating = true := hterm
      rw [hopen] at hterm
      cases hterm
  · have hcount := countP_setPhase hs hactive p
    rw [hmove]
    refine ⟨?_, hg.terminating⟩
    simp only [hp, Option.isNone_none, if_true] at hcount
    show g.active = _
    rw [hg.active]
    omega

theorem sameLife (hg : g.Accounted) (h : SameLife g g') : g'.Accounted := by
  refine ⟨?_, ?_⟩
  · rw [h.active, h.stages, hg.active]
  · rw [h.terminating, h.committed, h.active, hg.terminating]

/-- Every change keeps the record right. -/
theorem change {d : Option Deed} (hg : g.Accounted) (h : Change c g d g') : g'.Accounted := by
  rcases h.life_cases with ⟨s, id, -, h, -⟩ | ⟨s, h, -⟩ | ⟨n, s, m, hs, hm, rfl, -⟩ | ⟨h, -⟩
  · exact hg.allocate h
  · exact hg.commit h
  · exact hg.move hs hm
  · exact hg.sameLife h

/-- Stages end while the count is positive. -/
theorem one_le_active {n : Nat} {o : Outcome} {active : Nat} (hg : g.Accounted)
    (h : Change c g (some (.ended n o active)) g') : 1 ≤ active := by
  rcases h.life_cases with ⟨s, id, -, -, h⟩ | ⟨s, -, h⟩ | ⟨m, s, move, hs, hm, -, h⟩ | ⟨-, h⟩
  · cases h
  · cases h
  · cases move with
    | finish o' =>
        cases h
        exact (hg.of_active hs hm.isActive).1
    | _ => cases h
  · exact absurd rfl (h n o active)

/-- Once the end has begun every stage has a result. -/
theorem all_ended (hg : g.Accounted) (hterm : g.terminating = true) :
    ∀ s ∈ g.stages, s.phase.outcome?.isSome := by
  intro s hs
  have hnone : g.stages.countP Stage.isActive = 0 :=
    hg.active ▸ (hg.terminating.mp hterm).2
  have : ¬s.isActive = true := List.countP_eq_zero.mp hnone s hs
  simpa [Stage.isActive, Option.isSome_iff_ne_none] using this

/-- Once the end has begun the stages stay as they are. -/
theorem changes_of_terminating {ds : List Deed} (hg : g.Accounted) (hterm : g.terminating = true)
    (h : Changes c g ds g') : g'.terminating = true ∧ g'.stages = g.stages := by
  have hkept : g'.Accounted ∧ g'.terminating = true ∧ g'.stages = g.stages := by
    refine h.preserves (P := fun x => x.Accounted ∧ x.terminating = true ∧ x.stages = g.stages)
      ?_ ⟨hg, hterm, rfl⟩
    intro x d x' ⟨hx, hxterm, hstages⟩ hchange
    refine ⟨hx.change hchange, ?_⟩
    rcases hchange.life_cases with
      ⟨s, id, -, h, -⟩ | ⟨s, h, -⟩ | ⟨n, s, m, hs, hm, -, -⟩ | ⟨h, -⟩
    · rw [(allocate_eq_ok h).1] at hxterm
      cases hxterm
    · have := (hx.terminating.mp hxterm).1
      simp [(commit_eq_ok h).1] at this
    · have := (hx.of_active hs hm.isActive).2
      simp [hxterm] at this
    · exact ⟨h.terminating.trans hxterm, h.stages.trans hstages⟩
  exact hkept.2

end Accounted

end Graph

namespace World

open StageGraph.Graph (Accounted Changes)

variable {c : Completer} {w : World}

/-! ## Refused calls -/

/-- Calls that would add a stage to a flow are refused and change nothing, if nothing else is wrong
with them. -/
structure Refuses (c : Completer) (w : World) (flow : FlowId) (g : Graph) : Prop where
  completed : ∀ o,
    w.call c (.addCompleted flow o) = (w, .going (.error (.flowTerminated flow)))
  delay : ∀ d, w.call c (.addDelay flow d) = (w, .going (.error (.flowTerminated flow)))
  stage : ∀ r deps, checkRequest r = .ok () → r.deps.mapM g.slot? = .ok deps →
    w.call c (.addStage flow r) = (w, .going (.error (.flowTerminated flow)))

/-- A change that its graph refuses. -/
theorem change_of_error {α : Type} {flow : FlowId} {n : Nat} {g : Graph} {e : FlowError}
    {f : Graph → Except FlowError (Graph × α)} (hfind : w.find flow = .ok (n, g))
    (hf : f g = .error e) : w.change flow f = (w, .error e) := by
  simp [change, hfind, hf]

/-- A flow whose end has begun refuses new stages. -/
theorem refuses_of_terminating {flow : FlowId} {n : Nat} {g : Graph}
    (hfind : w.find flow = .ok (n, g)) (hterm : g.terminating = true) : w.Refuses c flow g := by
  have hid : g.id = flow := (graph?_of_find hfind).2.1
  have hrefused (s : Stage) : g.allocate s = .error (.flowTerminated flow) := by
    simp [Graph.allocate, hterm, hid]
  refine ⟨?_, ?_, ?_⟩
  · intro o
    have hw : w.addCompleted flow o = (w, .error (.flowTerminated flow)) :=
      change_of_error hfind (hrefused _)
    simp only [call, hw]
  · intro d
    have hw : w.addDelay flow d = (w, .error (.flowTerminated flow)) :=
      change_of_error hfind (hrefused _)
    simp only [call, hw]
  · intro r deps hr hdeps
    have hf : allocateResolved r g = .error (.flowTerminated flow) := by
      simp only [allocateResolved, hdeps, hrefused, bind, Except.bind]
    simp only [call, addStage, hr, change_of_error hfind hf]

/-! ## The accounting -/

/-- In every state of every run, and for every flow: the count of active stages is the number of
stages without a result; the end of the flow has begun exactly when the flow is committed and
nothing is active; every stage was ended while the count was positive; and once the end has begun
every stage has a result, the stages stay as they are in every later state, and there new ones are
refused. -/
theorem lifecycle_accounting {es : List Event} {flow : Nat} {g : Graph}
    (hrun : World.empty.run c es = some w) (hg : w.graph? flow = some g) :
    g.active = g.stages.countP Stage.isActive ∧
    (g.terminating = true ↔ g.committed.isSome ∧ g.active = 0) ∧
    (∀ n o active, .ended n o active ∈ deedsAt flow (World.empty.history c es) → 1 ≤ active) ∧
    (g.terminating = true → (∀ s ∈ g.stages, s.phase.outcome?.isSome) ∧
      ∀ es' w', w.run c es' = some w' → ∃ g', w'.graph? flow = some g' ∧
        g'.terminating = true ∧ g'.stages = g.stages ∧
        ∀ id, w'.find id = .ok (flow, g') → w'.Refuses c id g') := by
  have hchanges := changes_of_fresh hrun rfl hg
  have hacc : g.Accounted :=
    hchanges.preserves (fun h => h.change) (Graph.accounted_new _)
  refine ⟨hacc.active, hacc.terminating, ?_, fun hterm => ⟨hacc.all_ended hterm, ?_⟩⟩
  · intro n o active hd
    refine hchanges.deeds (P := Accounted) (Q := fun d => ∀ n o k, d = .ended n o k → 1 ≤ k)
      (fun h => h.change) ?_ (Graph.accounted_new _) _ hd n o active rfl
    intro g d g' hg h n o k hd
    exact hg.one_le_active (hd ▸ h)
  · intro es' w' hrun'
    obtain ⟨g', hg', hlater⟩ := changes_of_run hrun' hg
    obtain ⟨hterm', hstages⟩ := hacc.changes_of_terminating hterm hlater
    exact ⟨g', hg', hterm', hstages, fun id hfind => refuses_of_terminating hfind hterm'⟩

/-- A flow that is committed while a delay is running, until the delay is over. -/
def delayedRun : List Event :=
  [.call (.createFlow "f"), .call (.addCompleted ⟨"0"⟩ .empty),
    .call (.addDelay ⟨"0"⟩ (.ofMillis 5)), .call (.commit ⟨"0"⟩ .succeeded), .clock 7,
    .task (.stage 0 1)]

/-- The graph after `delayedRun`. -/
def delayedGraph : Graph :=
  ⟨⟨"0"⟩,
    [⟨.completedValue, none, [], .ended .empty⟩, ⟨.delay, none, [], .ended .empty⟩],
    some .succeeded, 0, true, .empty, [.due .succeeded], none, false⟩

theorem lifecycle_accounting_delay :
    World.empty.run .plain delayedRun = some ⟨7, [delayedGraph], [], []⟩ ∧
      delayedGraph.active = delayedGraph.stages.countP Stage.isActive ∧
      delayedGraph.committed.isSome ∧ delayedGraph.active = 0 := by
  have hrun : World.empty.run .plain delayedRun = some ⟨7, [delayedGraph], [], []⟩ := rfl
  have hg : (⟨7, [delayedGraph], [], []⟩ : World).graph? 0 = some delayedGraph := rfl
  obtain ⟨hactive, hend, -, -⟩ := lifecycle_accounting hrun hg
  exact ⟨hrun, hactive, hend.mp rfl⟩

end World

end StageGraph
