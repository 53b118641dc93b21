/-
# `StageGraph.Proofs.ScheduleRun` — what a schedule runs is a punctual run

A schedule decides which task takes the next step, when the session goes on and
when the clock jumps.  Every round of it is an event, or changes nothing but the
schedule's own lists.  So the completer that is left when the session has ended
is one that a run leads to, and what holds in every run holds under this
schedule.

The clock jumps only when the queue is empty.  By then all tasks have been put
into one of the lists, those that have a step into the queue, so none has one;
and the jump is not beyond a moment for which any of the others waits.  So time
waits for the tasks, as it does in the runs whose times are told.

Only one question of a session is no event: ending the hooks of a flow directly,
beside the completer.  Sessions that ask it are left out.
-/
import StageGraph.Proofs.PunctualRun

namespace StageGraph

/-! ## Sessions and what they wait for -/

/-- The session never ends the hooks of a flow itself. -/
def LeavesHooks {α : Type} : Session α → Prop
  | .ask q next => (∀ flow s, q ≠ .other (.endHooks flow s)) ∧ ∀ a, LeavesHooks (next a)
  | _ => True

/-- Whatever the session goes on with satisfies `P`, and it runs no hooks itself. -/
def Caller.Keeps {κ : Type} (P : κ → Prop) : Caller κ → Prop
  | thread t => t.Within P
  | settling k => P k
  | onTermination _ next limit => (∀ s, P (next s)) ∧ P limit.next
  | onHooks _ k limit => P k ∧ P limit.next
  | draining _ _ _ => False

theorem Thread.Within.limited {κ : Type} {P : κ → Prop} {t : Thread κ} {limit : Alarm κ}
    (h : t.Within P) (hlimit : P limit.next) : (t.limited limit).Within P := by
  have earlier (a : Alarm κ) (ha : P a.next) : P (a.earlier limit).next := by
    unfold Alarm.earlier
    split
    · exact ha
    · exact hlimit
  cases t with
  | going k => exact h
  | onStage flow stage next alarm =>
      refine ⟨h.1, ?_⟩
      intro a ha
      obtain rfl := Option.some.inj ha
      cases alarm with
      | none => exact hlimit
      | some b => exact earlier b (h.2 b rfl)
  | asleep a => exact earlier a h

namespace World

variable {c : Completer} {w w' : World} {κ : Type} {P : κ → Prop}

/-- A punctual run leads to the state. -/
def PunctuallyReachable (c : Completer) (w : World) : Prop :=
  ∃ es, World.empty.run c es = some w ∧ World.empty.Punctual c es

theorem PunctuallyReachable.fire {e : Event} (h : w.PunctuallyReachable c)
    (hfire : w.fire c e = some w')
    (hwaits : ∀ moment, passes? e = some moment →
      w.Idle c ∧ ∀ m, (∃ id, m ∈ w.momentsOf id) → moment ≤ m) : w'.PunctuallyReachable c := by
  obtain ⟨es, hrun, hpunctual⟩ := h
  have hsingle : w.run c [e] = some w' := Clockwork.run_single (K := clockwork c) hfire
  refine ⟨es ++ [e], run_trans hrun hsingle, hpunctual.append fun v hv => ?_⟩
  obtain rfl := Option.some.inj (hrun.symm.trans hv)
  exact ⟨hwaits, fun _ _ => trivial⟩

/-- An event in which no time passes. -/
theorem PunctuallyReachable.still {e : Event} (h : w.PunctuallyReachable c)
    (hfire : w.fire c e = some w') (hstill : passes? e = none) : w'.PunctuallyReachable c := by
  refine h.fire hfire fun moment hmoment => ?_
  rw [hstill] at hmoment
  cases hmoment

/-- A question of a session is an event, or changes nothing. -/
theorem keeps_poseCaller (h : w.PunctuallyReachable c) {q : Question sessionSignature} {next : q.Answer → κ}
    (hq : ∀ flow s, q ≠ .other (.endHooks flow s)) (hnext : ∀ a, P (next a)) :
    (w.poseCaller c q next).1.PunctuallyReachable c ∧ (w.poseCaller c q next).2.Keeps P := by
  cases q with
  | call r =>
      refine ⟨h.still (e := .call r) rfl rfl, ?_⟩
      exact Thread.within_map hnext (w.call c r).2
  | sleep d => exact ⟨h, hnext ()⟩
  | currentFlow => exact ⟨h, hnext none⟩
  | log line => exact ⟨h.still (e := .log line) rfl rfl, hnext ()⟩
  | ran entry => exact ⟨h.still (e := .ran entry) rfl rfl, hnext ()⟩
  | other q =>
      cases q with
      | callUntil moment r =>
          refine ⟨h.still (e := .call r) rfl rfl, ?_⟩
          exact (Thread.within_map (fun a => hnext (some a)) (w.call c r).2).limited (hnext none)
      | now => exact ⟨h, hnext w.clock⟩
      | settle => exact ⟨h, hnext ()⟩
      | termination moment flow =>
          simp only [poseCaller, poseSession]
          cases w.find flow with
          | error e => exact ⟨h, hnext (some (.error e))⟩
          | ok p => exact ⟨h, fun s => hnext (some (.ok s)), hnext none⟩
      | hooksSettled moment flow =>
          simp only [poseCaller, poseSession]
          cases w.find flow with
          | error e => exact ⟨h, hnext (some (.error e))⟩
          | ok p => exact ⟨h, hnext (some (.ok ())), hnext none⟩
      | endHooks flow s => exact absurd rfl (hq flow s)
      | stageCount flow => exact ⟨h, hnext (w.stageCount flow)⟩
      | flowCount => exact ⟨h, hnext w.flowCount⟩
      | removeFlow flow =>
          exact ⟨h.still (e := .removeFlow flow) rfl rfl, hnext (w.removeFlow flow).2⟩
      | hookStatus flow => exact ⟨h, hnext (w.hookStatus flow)⟩

/-- A session that goes on leaves the completer as it is. -/
theorem keeps_resumeCaller {idle : Bool} {caller : Caller κ} {left : Caller κ ⊕ κ}
    (h : caller.Keeps P) (hleft : w.resumeCaller c idle caller = some (w', left)) :
    w' = w ∧ ∃ k, left = .inr k ∧ P k := by
  have fired {limit : Alarm κ} {k : κ} (hk : limit.fired? w.clock = some k) (hlimit : P limit.next) :
      P k := by
    simp only [Alarm.fired?] at hk
    split at hk
    · exact Option.some.inj hk ▸ hlimit
    · cases hk
  cases caller with
  | thread t =>
      obtain ⟨k, hk, heq⟩ := Option.map_eq_some_iff.mp hleft
      cases heq
      exact ⟨rfl, k, rfl, Thread.Within.offers h ⟨_, _, hk⟩⟩
  | settling k =>
      simp only [resumeCaller] at hleft
      split at hleft
      · cases hleft
        exact ⟨rfl, k, rfl, h⟩
      · cases hleft
  | onTermination flow next limit =>
      simp only [resumeCaller] at hleft
      split at hleft
      · next s _ =>
          cases hleft
          exact ⟨rfl, next s, rfl, h.1 s⟩
      · obtain ⟨k, hk, heq⟩ := Option.map_eq_some_iff.mp hleft
        cases heq
        exact ⟨rfl, k, rfl, fired hk h.2⟩
  | onHooks flow k limit =>
      simp only [resumeCaller] at hleft
      split at hleft
      · cases hleft
        exact ⟨rfl, k, rfl, h.1⟩
      · obtain ⟨k', hk, heq⟩ := Option.map_eq_some_iff.mp hleft
        cases heq
        exact ⟨rfl, k', rfl, fired hk h.2⟩
  | draining flow d next => cases h

end World

/-! ## Lists -/

namespace World

variable {c : Completer} {w : World} {flow n m : Nat} {g : Graph} {id : TaskId}

/-- The tasks of a completer. -/
def Has (w : World) (id : TaskId) : Prop := id ∈ w.stageTasks ∨ id ∈ w.hookTasks

theorem has_stage {s : Stage} (hg : w.graph? flow = some g) (hs : g.stages[n]? = some s) :
    w.Has (.stage flow n) := by
  have hmem : (g, flow) ∈ w.graphs.zipIdx := List.mem_zipIdx_iff_getElem?.mpr hg
  have hlt : n < g.stages.length := (List.getElem?_eq_some_iff.mp hs).1
  exact .inl (List.mem_flatMap.mpr ⟨_, hmem, List.mem_map.mpr ⟨n, List.mem_range.mpr hlt, rfl⟩⟩)

theorem has_hooks {t : HookTask} (hg : w.graph? flow = some g) (hk : g.hookTasks[n]? = some t) :
    w.Has (.hooks flow n) := by
  have hmem : (g, flow) ∈ w.graphs.zipIdx := List.mem_zipIdx_iff_getElem?.mpr hg
  have hlt : n < g.hookTasks.length := (List.getElem?_eq_some_iff.mp hk).1
  exact .inr (List.mem_flatMap.mpr ⟨_, hmem, List.mem_map.mpr ⟨n, List.mem_range.mpr hlt, rfl⟩⟩)

/-- A task that has a step is there and has not ended. -/
theorem has_of_canStep (h : w.canStep c id = true) : w.Has id ∧ w.isOver id = false := by
  obtain ⟨w', hstep⟩ := Option.isSome_iff_exists.mp h
  cases fires_of_step hstep with
  | stage hacts =>
      refine ⟨has_stage hacts.graph hacts.stage, ?_⟩
      rw [isOver, outcome?_of_graph hacts.graph, Graph.outcome?, hacts.stage, Option.bind_some,
        hacts.moves.outcome?]
      rfl
  | begin hg hk _ | skip hg hk _ =>
      exact ⟨has_hooks hg hk, by rw [isOver, hg, Option.bind_some, hk]⟩
  | drain hacts =>
      exact ⟨has_hooks hacts.graph hacts.task,
        by rw [isOver, hacts.graph, Option.bind_some, hacts.task]⟩

/-- A task that waits for a moment is there and has not ended. -/
theorem has_of_moment (h : m ∈ w.momentsOf id) : w.Has id ∧ w.isOver id = false := by
  cases id with
  | stage flow n =>
      simp only [momentsOf, Option.mem_toList, Option.bind_eq_some_iff] at h
      obtain ⟨s, ⟨g, hg, hs⟩, hmoment⟩ := h
      refine ⟨has_stage hg hs, ?_⟩
      rw [isOver, outcome?_of_graph hg, Graph.outcome?, hs, Option.bind_some]
      cases hphase : s.phase with
      | ended o => simp [hphase, Phase.moment?] at hmoment
      | _ => rfl
  | hooks flow k =>
      simp only [momentsOf] at h
      split at h
      · next d publish hdrain =>
          obtain ⟨g, hg, hk⟩ := Option.bind_eq_some_iff.mp hdrain
          refine ⟨has_hooks hg hk, ?_⟩
          rw [isOver, hg, Option.bind_some, hk]
      · cases h

end World

namespace Schedule

variable {c : Completer} {α : Type} {s s' : Schedule α}

/-- The lists hold every task that has not ended, and the queue those that have a step. -/
def Listed (c : Completer) (s : Schedule α) : Prop :=
  ∀ id, s.world.Has id → s.world.isOver id = false →
    id ∈ s.queue ∨ id ∈ s.parked ∧ s.world.canStep c id = false

/-- When tasks have been put at the end of the queue, all tasks are in the lists. -/
theorem listed_refresh (c : Completer) (s : Schedule α) : (s.refresh c).Listed c := by
  intro id hhas hover
  simp only [refresh, List.partition_eq_filter_filter, List.mem_append, List.mem_filter]
  by_cases hqueue : id ∈ s.queue
  · exact .inl (.inl (.inl (.inl hqueue)))
  by_cases hparked : id ∈ s.parked
  · by_cases hstep : s.world.canStep c id = true
    · exact .inl (.inl (.inr ⟨hparked, hstep⟩))
    · have hstep' : s.world.canStep c id = false := by simpa using hstep
      exact .inr ⟨⟨hparked, by simp [hstep']⟩, hstep'⟩
  · -- It is in none of the lists yet.
    have hover' : s.world.isOver id = false := hover
    rcases hhas with hstage | hhook
    · exact .inl (.inl (.inl (.inr ⟨hstage, by simp [hqueue, hparked, hover']⟩)))
    · exact .inl (.inr ⟨hhook, by simp [hqueue, hparked, hover']⟩)

/-- Where the queue is empty, no task has a step, -/
theorem Listed.idle (h : s.Listed c) (hqueue : s.queue = []) : s.world.Idle c := by
  intro id
  refine Option.not_isSome_iff_eq_none.mp fun hstep => ?_
  obtain ⟨hhas, hover⟩ := World.has_of_canStep hstep
  rcases h id hhas hover with hmem | ⟨-, hnone⟩
  · rw [hqueue] at hmem
    cases hmem
  · rw [World.canStep, hstep] at hnone
    cases hnone

/-- and the next moment is not beyond one for which a task waits. -/
theorem Listed.nextMoment_le {moment m : Nat} {id : TaskId} (h : s.Listed c)
    (hqueue : s.queue = []) (hnext : s.nextMoment? = some moment) (hm : m ∈ s.world.momentsOf id) :
    moment ≤ m := by
  obtain ⟨hhas, hover⟩ := World.has_of_moment hm
  have hparked : id ∈ s.parked := by
    rcases h id hhas hover with hmem | ⟨hmem, -⟩
    · rw [hqueue] at hmem
      cases hmem
    · exact hmem
  have hlt : s.world.clock < m := (h.idle hqueue).clock_lt hm
  refine (List.min?_eq_some_iff.mp hnext).2 m (List.mem_filter.mpr ⟨?_, by simpa using hlt⟩)
  exact List.mem_append_right _ (List.mem_flatMap.mpr ⟨id, hparked, hm⟩)

/-! ## Rounds -/

/-- The completer of a schedule is one that a punctual run leads to, its session leaves hooks alone,
and when nobody has the turn, all tasks are in its lists. -/
structure Faithful (c : Completer) (s : Schedule α) : Prop where
  reached : s.world.PunctuallyReachable c
  keeps : s.caller.Keeps LeavesHooks
  listed : s.turn = .none → s.Listed c

/-- A round of the session keeps a schedule faithful, or ends it in a state that a punctual run
leads to. -/
theorem Faithful.roundCaller {idle : Bool} {x : Schedule α ⊕ Result α} (h : s.Faithful c)
    (hround : s.roundCaller c idle = some x) :
    (∀ s', x = .inl s' → s'.Faithful c) ∧ ∀ w r, x = .inr (w, r) → w.PunctuallyReachable c := by
  obtain ⟨⟨w, left⟩, hleft, hx⟩ := Option.map_eq_some_iff.mp hround
  obtain ⟨rfl, p, rfl, hp⟩ := World.keeps_resumeCaller h.keeps hleft
  cases p with
  | done a =>
      cases hx
      refine ⟨by simp, ?_⟩
      rintro w r heq
      cases heq
      exact h.reached
  | panic m =>
      cases hx
      refine ⟨by simp, ?_⟩
      rintro w r heq
      cases heq
      exact h.reached
  | ask q next =>
      cases hx
      refine ⟨?_, by simp⟩
      rintro s' heq
      cases heq
      obtain ⟨hreached, hkeeps⟩ := World.keeps_poseCaller h.reached hp.1 hp.2
      exact ⟨hreached, hkeeps, nofun⟩

theorem Faithful.yield (h : s.Faithful c) : (s.yield c).Faithful c :=
  ⟨h.reached, h.keeps, fun _ => s.listed_refresh c⟩

/-- The clock jumps forward, as time does, when the queue is empty. -/
theorem Faithful.jump {moment : Nat} (h : s.Faithful c) (hturn : s.turn = .none)
    (hqueue : s.queue = []) (hnext : s.nextMoment? = some moment) :
    (s.jump c moment).Faithful c := by
  have hlt : s.world.clock < moment := by
    have hmem := List.min?_mem hnext
    simpa using (List.mem_filter.mp hmem).2
  have hfire : s.world.fire c (.clock moment) = some { s.world with clock := moment } :=
    if_pos (Nat.le_of_lt hlt)
  refine ⟨h.reached.fire hfire ?_, h.keeps, nofun⟩
  rintro _ ⟨⟩
  refine ⟨(h.listed hturn).idle hqueue, ?_⟩
  rintro m ⟨id, hm⟩
  exact (h.listed hturn).nextMoment_le hqueue hnext hm

/-- A round keeps a schedule faithful, or ends it in a state that a punctual run leads to. -/
theorem Faithful.round {x : Schedule α ⊕ Result α} (h : s.Faithful c)
    (hround : s.round c = some x) :
    (∀ s', x = .inl s' → s'.Faithful c) ∧ ∀ w r, x = .inr (w, r) → w.PunctuallyReachable c := by
  have goesOn (s₁ : Schedule α) (h₁ : s₁.Faithful c) (hx : some (.inl s₁) = some x) :
      (∀ s', x = .inl s' → s'.Faithful c) ∧
        ∀ w r, x = .inr (w, r) → w.PunctuallyReachable c := by
    obtain rfl := Option.some.inj hx
    exact ⟨fun s' heq => Sum.inl.inj heq ▸ h₁, by simp⟩
  unfold Schedule.round at hround
  split at hround
  · -- The session goes on, or ends its turn.
    cases hcaller : s.roundCaller c false with
    | some y =>
        rw [hcaller] at hround
        exact h.roundCaller (hcaller.trans hround)
    | none =>
        rw [hcaller] at hround
        exact goesOn (s.yield c) h.yield hround
  · -- The task takes a step, or waits.
    next _ id hturn =>
      split at hround
      · next w hstep =>
          have hfire : s.world.fire c (.task id) = some w := hstep
          refine goesOn { s with world := w } ⟨h.reached.still hfire rfl, h.keeps, ?_⟩ hround
          intro hnone
          rw [hturn] at hnone
          cases hnone
      · have hpark : (s.park c id).Faithful c := by
          unfold park
          split
          · exact h.yield
          · exact ⟨h.reached, h.keeps, fun _ =>
              listed_refresh c { s with parked := s.parked ++ [id] }⟩
        exact goesOn (s.park c id) hpark hround
  · next id rest _ _ =>
      exact goesOn { s with turn := .task id, queue := rest } ⟨h.reached, h.keeps, nofun⟩ hround
  · next hturn hqueue =>
      cases hcaller : s.roundCaller c true with
      | some y =>
          rw [hcaller] at hround
          exact h.roundCaller (hcaller.trans hround)
      | none =>
          rw [hcaller] at hround
          obtain ⟨moment, hmoment, hx⟩ := Option.map_eq_some_iff.mp hround
          exact goesOn (s.jump c moment) (h.jump hturn hqueue hmoment) (congrArg some hx)

/-- A schedule whose session leaves hooks alone ends in a state that a punctual run leads to. -/
theorem punctuallyReachable_of_run {rounds : Nat} {p : Session α} {w : World} {r : Except Panic α}
    (hp : LeavesHooks p) (h : (Schedule.start p .empty).run c rounds = some (w, r)) :
    w.PunctuallyReachable c := by
  have hstart : (Schedule.start p .empty).Faithful c := ⟨⟨[], rfl, trivial⟩, hp, nofun⟩
  generalize Schedule.start p .empty = s at h hstart
  induction rounds generalizing s with
  | zero => cases h
  | succ rounds ih =>
      simp only [Schedule.run] at h
      split at h
      · cases h
      · next s' hround => exact ih s' h ((hstart.round hround).1 s' rfl)
      · next x hround =>
          obtain rfl := Option.some.inj h
          exact (hstart.round hround).2 w r rfl

/-- So it is one that a run leads to. -/
theorem reachable_of_run {rounds : Nat} {p : Session α} {w : World} {r : Except Panic α}
    (hp : LeavesHooks p) (h : (Schedule.start p .empty).run c rounds = some (w, r)) :
    w.Reachable c := by
  obtain ⟨es, hrun, -⟩ := punctuallyReachable_of_run hp h
  exact ⟨es, hrun⟩

end Schedule

end StageGraph
