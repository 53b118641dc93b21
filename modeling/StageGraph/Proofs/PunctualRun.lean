/-
# `StageGraph.Proofs.PunctualRun` — runs in which time waits for the tasks

A completer is a system with a clock (`World.clockwork`): its events are those of a run, it is idle
where no task has a step, and its tasks wait for the moments at which they may go on by themselves.
So its runs have punctual ones among them, and what lasts in a run has a time.

Where everything has settled, stages stay as they are until time passes, whatever is called until
then: nobody waits for a stage that is still to be made (`World.Idle.still`).
-/
import StageGraph.Proofs.Clockwork
import StageGraph.Proofs.OtherFlows
import StageGraph.Proofs.Termination
import StageGraph.Proofs.WaitCycle

namespace StageGraph

namespace World

variable {c : Completer} {w w' v v' u : World} {e : Event} {es es' : List Event} {a b x : Nat}

/-! ## The clock -/

theorem clock_change {α : Type} (w : World) (id : FlowId)
    (F : Graph → Except FlowError (Graph × α)) : (w.change id F).1.clock = w.clock := by
  rcases w.change_cases id F with ⟨hw, -⟩ | ⟨n, g, g', a, -, -, hw⟩ <;> rw [hw]
  rfl

theorem clock_call (c : Completer) (w : World) (r : Request) :
    (w.call c r).1.clock = w.clock := by
  cases hr : r.flow? with
  | none =>
      cases r with
      | createFlow function => rfl
      | _ => cases hr
  | some id =>
      rcases call_world c w hr with hw | ⟨α, F, hw⟩ <;> rw [hw]
      exact clock_change w id F

theorem clock_pose (c : Completer) (w : World) (q : Question bodySignature) :
    (w.pose c q).1.clock = w.clock := by
  cases q with
  | call r => exact clock_call c w r
  | other q => cases q with | removeFlow flow => exact clock_change w flow _
  | _ => rfl

/-- Time stands still in an event, or the event is that it passes. -/
theorem clock_of_fire (h : w.fire c e = some w') :
    w'.clock = w.clock ∨ e = .clock w'.clock ∧ w.clock ≤ w'.clock := by
  cases e with
  | call r =>
      obtain rfl := Option.some.inj h
      exact .inl (clock_call c w r)
  | removeFlow flow =>
      obtain rfl := Option.some.inj h
      exact .inl (clock_change w flow _)
  | task id =>
      obtain ⟨w₁, g', rfl, rfl | ⟨who, q, -, -, -, rfl⟩⟩ := task_cases h
      · exact .inl rfl
      · exact .inl (clock_pose c w q)
  | clock moment =>
      cases fire_eq_some_iff.mp h with
      | clock hle => exact .inr ⟨rfl, hle⟩
  | log | ran =>
      cases fire_eq_some_iff.mp h
      exact .inl rfl

/-- No task has a step now. -/
def Idle (c : Completer) (w : World) : Prop := ∀ id, w.step c id = none

/-- The moment up to which time passes in an event, if it does. -/
def passes? : Event → Option Nat
  | .clock moment => some moment
  | _ => none

/-- A completer as a system with a clock. -/
abbrev clockwork (c : Completer) : Clockwork World Event where
  start := .empty
  fire w e := w.fire c e
  run w es := w.run c es
  clock := World.clock
  passes? := passes?
  Idle := Idle c
  Waits w m := ∃ id, m ∈ w.momentsOf id
  run_nil _ := rfl
  run_cons _ _ _ := rfl
  clock_of_fire h := (clock_of_fire h).imp_right fun ⟨he, hle⟩ => ⟨congrArg passes? he, hle⟩

theorem clock_le_of_fire (h : w.fire c e = some w') : w.clock ≤ w'.clock :=
  Clockwork.clock_le_of_fire (K := clockwork c) h

theorem clock_le_of_run (h : w.run c es = some w') : w.clock ≤ w'.clock :=
  Clockwork.clock_le_of_run (K := clockwork c) h

section Runs

variable (c : Completer) (es : List Event)

/-- Time passes only where no task has a step, and not beyond a moment for which a task waits. -/
abbrev Punctual (w : World) (es : List Event) : Prop := (clockwork c).Punctual w es

/-- The run from the beginning comes through a state. -/
abbrev Visits (v : World) : Prop := (clockwork c).Visits es v

/-- The run from the beginning comes through a state, and then, or at once, through another. -/
abbrev Passes (v v' : World) : Prop := (clockwork c).Passes es v v'

/-- What holds in some state holds in every later one. -/
abbrev Lasting (P : World → Prop) : Prop := (clockwork c).Lasting P

/-- In the run from the beginning, the time since which a property holds. -/
abbrev Since (P : World → Prop) (x : Nat) : Prop := (clockwork c).Since es P x

/-- The moment is over, or everything that is due by then has been done. -/
abbrev Over (w : World) (x : Nat) : Prop := (clockwork c).Over w x

/-- In the run, which leads to `w`, the property begins to hold at the time that `T` tells, and at
no other; it does if the run comes so far. -/
abbrev Scheduled (w : World) (P : World → Prop) (T : Nat → Prop) : Prop :=
  (clockwork c).Scheduled es w P T

end Runs

theorem Visits.reachable (h : Visits c es v) : v.Reachable c := by
  obtain ⟨first, -, -, hrun⟩ := h
  exact ⟨first, hrun⟩

/-! ## Where everything has settled -/

section Settled

variable {flow n m : Nat} {g g' : Graph} {s : Stage}

theorem Idle.waits (h : w.Idle c) (hg : w.graph? flow = some g) (hs : g.stages[n]? = some s) :
    w.StageWaits g s.deps s.phase :=
  move?_eq_none_iff.mp ((step_stage_eq_none_iff hg hs).mp (h (.stage flow n)))

theorem Idle.drainMove? {d : Hooks.Drain BodyThread} {publish : Option FlowState} (h : w.Idle c)
    (hg : w.graph? flow = some g) (hk : g.hookTasks[n]? = some (.draining d publish)) :
    w.drainMove? c g d = none :=
  (step_drain_eq_none_iff hg hk).mp (h (.hooks flow n))

theorem fired?_eq_some {κ : Type} {alarm : Alarm κ} {y : κ} :
    alarm.fired? x = some y ↔ alarm.moment ≤ x ∧ alarm.next = y := by
  simp [Alarm.fired?, Alarm.isDue]

/-- A thread goes on when its alarm is due, if not before. -/
theorem resume?_isSome_of_due {κ : Type} {t : Thread κ} {alarm : Alarm κ}
    (ht : t.alarm? = some alarm) (hdue : alarm.moment ≤ w.clock) : (w.resume? t).isSome := by
  cases t with
  | going k => rfl
  | onStage flow n next a =>
      obtain rfl : a = some alarm := ht
      have hfired : alarm.fired? w.clock = some alarm.next := fired?_eq_some.mpr ⟨hdue, rfl⟩
      cases ho : w.outcome? flow n <;> simp [resume?, Thread.resume?, ho, hfired]
  | asleep a =>
      obtain rfl := Option.some.inj ht
      exact Option.isSome_iff_exists.mpr ⟨_, fired?_eq_some.mpr ⟨hdue, rfl⟩⟩

/-- Where no task has a step, the moments for which tasks wait are still to come. -/
theorem Idle.clock_lt {id : TaskId} (h : w.Idle c) (hm : m ∈ w.momentsOf id) : w.clock < m := by
  refine Nat.lt_of_not_le fun hle => ?_
  cases id with
  | stage flow n =>
      simp only [momentsOf, Option.mem_toList, Option.bind_eq_some_iff] at hm
      obtain ⟨s, ⟨g, hg, hs⟩, hmoment⟩ := hm
      have hwaits := h.waits hg hs
      generalize s.phase = p at hwaits hmoment
      cases hwaits with
      | moment hlt =>
          obtain rfl := Option.some.inj hmoment
          exact absurd hle (Nat.not_le_of_lt hlt)
      | body forward hnone =>
          obtain ⟨alarm, halarm, rfl⟩ := Option.map_eq_some_iff.mp hmoment
          have hsome := resume?_isSome_of_due halarm hle
          rw [hnone] at hsome
          cases hsome
      | nothing _ | input _ _ _ | anyInput _ | target _ => cases hmoment
  | hooks flow k =>
      simp only [momentsOf] at hm
      split at hm
      · next d publish hdrain =>
          obtain ⟨g, hg, hk⟩ := Option.bind_eq_some_iff.mp hdrain
          have hnone := h.drainMove? hg hk
          rw [← Option.not_isSome_iff_eq_none, drainMove?_isSome] at hnone
          refine hnone fun r hr => ?_
          simp only [drainMoments, hr, List.mem_cons, Option.mem_toList, Option.map_eq_some_iff] at hm
          rcases hm with rfl | ⟨alarm, halarm, rfl⟩
          · exact .inr hle
          · exact .inl (resume?_isSome_of_due halarm hle)
      · cases hm

/-- The time is the same, and all stages are as they were. -/
structure Still (w u : World) : Prop where
  clock : u.clock = w.clock
  stage : ∀ {flow n s}, w.stage? flow n = some s → u.stage? flow n = some s

theorem Still.outcome (h : Still w u) (hthere : (w.stage? flow n).isSome) :
    u.outcome? flow n = w.outcome? flow n := by
  obtain ⟨s, hs⟩ := Option.isSome_iff_exists.mp hthere
  rw [outcome?_of_stage hs, outcome?_of_stage (h.stage hs)]

/-- Nobody waits for a stage that is still to be made, so new stages let no old one go on. -/
theorem Still.waits (h : Still w u) (hreach : w.Reachable c) (hg : w.graph? flow = some g)
    (hs : g.stages[n]? = some s) (hg' : u.graph? flow = some g')
    (hwaits : w.StageWaits g s.deps s.phase) : u.StageWaits g' s.deps s.phase := by
  have htraced := traced_of_reachable hreach hg
  have hdeps := (htraced n s hs).1
  have hknown := known_of_reachable hreach ((stage?_of_graph hg).trans hs)
  have hlt := (List.getElem?_eq_some_iff.mp hs).1
  have hsame {m : Nat} (hm : (w.stage? flow m).isSome) : g'.outcome? m = g.outcome? m := by
    rw [← outcome?_of_graph hg', ← outcome?_of_graph hg]
    exact h.outcome hm
  have hinput {d : Nat} (hd : d ∈ s.deps) : g'.outcome? d = g.outcome? d := by
    refine hsame ?_
    rw [stage?_of_graph hg, List.getElem?_eq_getElem (Nat.lt_trans (hdeps d hd) hlt)]
    rfl
  generalize hphase : s.phase = p at hwaits hknown ⊢
  cases hwaits with
  | nothing o => exact .nothing o
  | moment hlt => exact .moment (h.clock.symm ▸ hlt)
  | input got left hnone =>
      exact .input got left ((hinput (htraced.next_mem hs hphase).1).trans hnone)
  | anyInput hnone => exact .anyInput fun d hd => (hinput hd).trans (hnone d hd)
  | @body t forward hnone =>
      refine .body forward ?_
      cases t with
      | going p => cases hnone
      | asleep alarm =>
          simp only [resume?, Thread.resume?, h.clock] at hnone ⊢
          exact hnone
      | onStage other m next alarm =>
          simp only [resume?, Thread.resume?, h.clock, h.outcome hknown] at hnone ⊢
          exact hnone
  | target hnone => exact .target ((hsame hknown).trans hnone)

/-- Once everything has settled, stages stay as they are until time passes. -/
theorem Idle.still (h : w.Idle c) (hreach : w.Reachable c) (hrun : w.run c es = some v)
    (hclock : v.clock = w.clock) : Still w v := by
  suffices hall : ∀ u, Still w u → u.run c es = some v → Still w v from
    hall w ⟨rfl, fun hs => hs⟩ hrun
  clear hrun
  induction es with
  | nil =>
      intro u hu hrun
      obtain rfl := Option.some.inj hrun
      exact hu
  | cons e es ih =>
      intro u hu hrun
      obtain ⟨u₁, hfire, hrest⟩ := Option.bind_eq_some_iff.mp hrun
      have hle := clock_le_of_fire hfire
      have hle' := clock_le_of_run hrest
      rw [hu.clock] at hle
      refine ih u₁ ⟨by omega, ?_⟩ hrest
      intro flow n s hs
      rcases stage_of_fire hfire (hu.stage hs) with hsame | ⟨-, g', m, hsteps⟩
      · exact hsame
      · obtain ⟨g, hg, hgs⟩ := stage?_eq_some.mp hs
        exact absurd (hu.waits hreach hg hgs hsteps.graph (h.waits hg hgs)) hsteps.not_waits

end Settled

end World

end StageGraph
