/-
# `StageGraph.Proofs.HookIsolation` — what a bad hook does to the others

A hook that fails, panics while it is under way or takes too long is counted and
recorded, and the next one starts.  A hook that panics in the call itself is not:
the panic takes the drain with it, nothing counts the hook, and the registry
keeps the drain for one that is under way.  So no hook behind it is ever started,
and whoever waits for the hooks waits for ever.

Both halves are stated of every state of a trial in which nothing can go on
(`Trial.isolation_of_stuck`): which of the two it is depends only on whether some
hook panics in its call, and then on the position of the first one.

A trial is followed in a chronicle (`Trial.Told`): everything that happens to the
trial is one occurrence there, or none.  The drain that a panic has ended stays in
the chronicle, with its hook under way; that the trial has lost it is what
`Standing.lost` says.
-/
import StageGraph.Proofs.HookOrder
import StageGraph.Hooks.Trial

namespace StageGraph.Hooks

/-! ## Runs of a trial -/

/-- Something that happens to a trial. -/
inductive Happening where
  | register (h : Hook)
  | terminate (s : FlowState)
  | terminateLater (s : FlowState)
  /-- The next task begins. -/
  | begin
  /-- The drain under way goes on. -/
  | drain
  | clock (moment : Nat)

namespace Trial

/-- A step of the drain under way, whoever runs it. -/
def goOn (t : Trial) : Option Trial :=
  match t.drain with
  | some (owner, d) =>
    (t.stepDrain d).map fun
      | (t, .drain d) => { t with drain := some (owner, d) }
      | (t, _) => { t with drain := none }
  | none => none

/-- The trial after something has happened; nothing if it cannot happen. -/
def happen (t : Trial) : Happening → Option Trial
  | .register h => some (t.register h).1
  | .terminate s => some (t.terminate .caller s).1
  | .terminateLater s => some (t.terminateLater s)
  | .begin => t.beginJob
  | .drain => t.goOn
  | .clock moment => if t.clock ≤ moment then some { t with clock := moment } else none

/-- The trial after all that happens in a run. -/
def run (t : Trial) : List Happening → Option Trial
  | [] => some t
  | e :: es => (t.happen e).bind fun t' => t'.run es

/-- Nothing can go on, now or at any later time. -/
def Stuck (t : Trial) : Prop :=
  ∀ moment, t.clock ≤ moment →
    ({ t with clock := moment } : Trial).goOn = none ∧
      ({ t with clock := moment } : Trial).beginJob = none

/-! ## What is told of a run -/

/-- What the next action of a hook is to the registry. -/
def actTale : List Action → List (Occurrence Hook Unit)
  | [] => [.finish 0 .ok]
  | .register onCall actions :: _ => [.register ⟨onCall, actions⟩]
  | .terminate s :: _ => [.terminate s]
  | .panic p :: _ => [.finish 0 (.panicked p)]
  | .fail r :: _ => [.finish 0 (.error r)]
  | .sleep _ :: _ | .log _ :: _ => []

/-- What a step of a drain is to the registry. -/
def drainTale (t : Trial) (d : Drain Thread) : List (Occurrence Hook Unit) :=
  match d.running with
  | none => [.next 0 () (t.after t.limit)]
  | some r =>
    if r.thread.wake ≤ t.clock then actTale r.thread.left
    else if r.limit ≤ t.clock then [.finish 0 (.timedOut t.limit)]
    else []

/-- What happens to a trial, as it happens to its registry. -/
def tell (t : Trial) : Happening → List (Occurrence Hook Unit)
  | .register h => [.register h]
  | .terminate s => [.terminate s]
  | .begin =>
    match t.jobs with
    | .terminate s :: _ => [.terminate s]
    | _ => []
  | .drain =>
    match t.drain with
    | some (_, d) => t.drainTale d
    | none => []
  | .terminateLater _ | .clock _ => []

/-- All that happens to the registry in a run. -/
def tale (t : Trial) : List Happening → List (Occurrence Hook Unit)
  | [] => []
  | e :: es =>
    t.tell e ++
      match t.happen e with
      | some t' => t'.tale es
      | none => []

end Trial

namespace Chronicle

variable {β τ : Type} {x : Chronicle β τ} {a : Activity}

theorem run_append (x : Chronicle β τ) (os os' : List (Occurrence β τ)) :
    x.run (os ++ os') = (x.run os).bind fun y => y.run os' := by
  induction os generalizing x with
  | nil => rfl
  | cons o os ih =>
      simp only [List.cons_append, run, Option.bind_assoc]
      congr 1
      funext y
      exact ih y

theorem run_single (x : Chronicle β τ) (o : Occurrence β τ) : x.run [o] = x.after o := by
  simp only [run]
  cases x.after o <;> rfl

/-- The hook that a drain takes next is the first one that has not been started. -/
theorem Sound.next_body (h : x.Sound .between) {p : Pending β} (hp : x.registry.next?.2 = some p) :
    x.bodies[p.index]? = some p.body := by
  obtain ⟨-, hindex, hpending⟩ := h.registry.start hp
  have hlen : (x.started.map fun q => q.1.body).length = p.index := by
    have := congrArg List.length h.started
    simpa [hindex] using this
  rw [h.bodies, hpending, List.getElem?_append_right (by omega), hlen]
  simp

/-- The activity of a sound chronicle is that of its only drain. -/
theorem Sound.of_drain (h : x.Sound a) {b : Activity} (hx : x.drains.map Drain.activity = [b]) :
    a = b := by
  have hlist := h.drains.symm.trans hx
  cases a with
  | idle => cases hlist
  | _ => exact (List.cons.inj hlist).1

theorem Sound.of_no_drain (h : x.Sound a) (hx : x.drains.map Drain.activity = []) : a = .idle := by
  have hlist := h.drains.symm.trans hx
  cases a with
  | idle => rfl
  | _ => cases hlist

end Chronicle

/-! ## A trial and its chronicle -/

namespace Trial

/-- How the trial stands while the drains of its chronicle are busy with `as`: it knows of the same
drain, perhaps as a task that has not begun, or it has lost that drain in the call of its hook. -/
inductive Standing (t : Trial) (bodies : List Hook) : (as : List Activity) → Prop
  | idle : t.drain = none → .drain ∉ t.jobs → Standing t bodies []
  | waiting : t.drain = none → t.jobs.count .drain = 1 → Standing t bodies [.between]
  | running {owner : Owner} {d : Drain Thread} : t.drain = some (owner, d) → .drain ∉ t.jobs →
      (∀ r, d.running = some r → ∃ h, bodies[r.index]? = some h ∧ h.onCall = none) →
      Standing t bodies [d.activity]
  | lost {index : Nat} {h : Hook} : t.drain = none → .drain ∉ t.jobs → bodies[index]? = some h →
      h.onCall.isSome → Standing t bodies [.busy index]

namespace Standing

variable {t t' : Trial} {bodies : List Hook} {as : List Activity}

/-- Only the drain and the tasks that are to run one matter, and hooks may be added. -/
theorem of_same (h : t.Standing bodies as) (more : List Hook) (hdrain : t'.drain = t.drain)
    (hjobs : t'.jobs.count .drain = t.jobs.count .drain) : t'.Standing (bodies ++ more) as := by
  have hnot (hn : Job.drain ∉ t.jobs) : Job.drain ∉ t'.jobs := by
    rw [← List.count_eq_zero] at hn ⊢
    exact hjobs.trans hn
  have grown {index : Nat} {h' : Hook} (hbody : bodies[index]? = some h') :
      (bodies ++ more)[index]? = some h' :=
    List.getElem?_append_left (List.getElem?_eq_some_iff.mp hbody).1 ▸ hbody
  cases h with
  | idle hd hj => exact .idle (hdrain.trans hd) (hnot hj)
  | waiting hd hj => exact .waiting (hdrain.trans hd) (hjobs.trans hj)
  | running hd hj hrun =>
      refine .running (hdrain.trans hd) (hnot hj) ?_
      intro r hr
      obtain ⟨h', hbody, hcall⟩ := hrun r hr
      exact ⟨h', grown hbody, hcall⟩
  | lost hd hj hbody hcall => exact .lost (hdrain.trans hd) (hnot hj) (grown hbody) hcall

theorem of_idle (h : t.Standing bodies []) : t.drain = none ∧ .drain ∉ t.jobs := by
  cases h with
  | idle hd hj => exact ⟨hd, hj⟩

/-- A drain that the trial runs is the one of the chronicle. -/
theorem of_drain {owner : Owner} {d : Drain Thread} (h : t.Standing bodies as)
    (hd : t.drain = some (owner, d)) :
    as = [d.activity] ∧ .drain ∉ t.jobs ∧
      ∀ r, d.running = some r → ∃ h, bodies[r.index]? = some h ∧ h.onCall = none := by
  cases h with
  | running hd' hj hrun =>
      obtain ⟨-, rfl⟩ := Prod.mk.inj (Option.some.inj (hd.symm.trans hd'))
      exact ⟨rfl, hj, hrun⟩
  | idle hnone => rw [hd] at hnone; cases hnone
  | waiting hnone => rw [hd] at hnone; cases hnone
  | lost hnone => rw [hd] at hnone; cases hnone

end Standing

/-- The chronicle is one of the trial. -/
structure Told (t : Trial) (x : Chronicle Hook Unit) : Prop where
  sound : ∃ a, x.Sound a
  registry : x.registry = t.registry
  /-- No hook that has ended has panicked in its call. -/
  called : ∀ k < t.registry.completed, ∃ h, x.bodies[k]? = some h ∧ h.onCall = none
  standing : t.Standing x.bodies (x.drains.map Drain.activity)

theorem told_start (limit : Duration) : (start limit).Told .empty where
  sound := ⟨.idle, Chronicle.sound_empty⟩
  registry := rfl
  called := by simp [start, Registry.empty]
  standing := .idle rfl (by simp [start])

namespace Told

variable {t t' : Trial} {x : Chronicle Hook Unit} {owner : Owner} {d : Drain Thread}
  {r : Running Thread}

/-- Only the drain, the tasks that are to run one, and the registry matter. -/
theorem of_same (h : t.Told x) (hdrain : t'.drain = t.drain)
    (hjobs : t'.jobs.count .drain = t.jobs.count .drain) (hregistry : t'.registry = t.registry) :
    t'.Told x := by
  refine ⟨h.sound, h.registry.trans hregistry.symm, hregistry ▸ h.called, ?_⟩
  have hstanding := h.standing.of_same [] hdrain hjobs
  rwa [List.append_nil] at hstanding

/-- The drain of the trial, as the chronicle has it. -/
theorem drain (h : t.Told x) (hd : t.drain = some (owner, d)) :
    x.Sound d.activity ∧ ∃ d', x.drains = [d'] ∧ d'.activity = d.activity := by
  obtain ⟨a, hsound⟩ := h.sound
  obtain ⟨hactivity, -, -⟩ := h.standing.of_drain hd
  obtain rfl := hsound.of_drain hactivity
  cases hx : x.drains with
  | nil => simp [hx] at hactivity
  | cons d' rest =>
      obtain ⟨hhead, hrest⟩ := List.cons.inj ((hx ▸ hactivity : _ :: _ = _))
      obtain rfl := List.map_eq_nil_iff.mp hrest
      exact ⟨hsound, d', rfl, hhead⟩

/-- A hook under way has come further. -/
theorem turn (h : t.Told x) (hd : t.drain = some (owner, d)) (hr : d.running = some r)
    (thread : Thread) (hdrain : t'.drain = some (owner, d.run { r with thread := thread }))
    (hjobs : t'.jobs = t.jobs) (hregistry : t'.registry = t.registry) : t'.Told x := by
  refine ⟨h.sound, h.registry.trans hregistry.symm, hregistry ▸ h.called, ?_⟩
  obtain ⟨hactivity, hj, hrun⟩ := h.standing.of_drain hd
  have hsame : d.activity = (d.run { r with thread := thread }).activity := by
    simp [Drain.activity, hr, Drain.run]
  rw [hactivity, hsame]
  refine .running hdrain (hjobs ▸ hj) ?_
  intro r' hr'
  obtain rfl := Option.some.inj hr'
  exact hrun r hr

/-- A new hook is the last one; if a drain has to start for it, a task is made. -/
theorem register (h : t.Told x) (hook : Hook) :
    ∃ y, x.after (.register hook) = some y ∧ (t.register hook).1.Told y := by
  obtain ⟨a, hsound⟩ := h.sound
  refine ⟨_, rfl, hsound.register hook rfl, ?_, ?_, ?_⟩
  · show (x.registry.register hook).1 = (t.registry.register hook).1
    rw [h.registry]
  · intro k hk
    obtain ⟨hook', hbody, hcall⟩ := h.called k hk
    exact ⟨hook', List.getElem?_append_left (List.getElem?_eq_some_iff.mp hbody).1 ▸ hbody, hcall⟩
  · show (t.register hook).1.Standing (x.bodies ++ [hook])
      ((x.startIf (x.registry.register hook).2.2).map Drain.activity)
    have hstarts := (hsound.registry.register hook).2
    rw [h.registry] at hstarts ⊢
    cases hs : (t.registry.register hook).2.2 with
    | true =>
        -- A drain has to start, so none is under way and none is waiting to begin.
        obtain rfl := hstarts hs
        have hnone : x.drains.map Drain.activity = [] := hsound.drains
        obtain ⟨hd, hj⟩ := (hnone ▸ h.standing).of_idle
        simp only [Chronicle.startIf, if_true, List.map_append, hnone]
        refine .waiting hd ?_
        simp [Trial.register, hs, List.count_eq_zero.mpr hj]
    | false =>
        exact h.standing.of_same [hook] rfl (by simp [Trial.register, hs])

/-- The end of the flow; the first time, whoever ends it has a drain to run. -/
theorem terminate (h : t.Told x) (owner : Owner) (s : FlowState) :
    ∃ y, x.after (.terminate s) = some y ∧ (t.terminate owner s).1.Told y := by
  obtain ⟨a, hsound⟩ := h.sound
  refine ⟨_, rfl, hsound.terminate s rfl, ?_, ?_, ?_⟩
  · show (x.registry.terminate s).1 = (t.registry.terminate s).1
    rw [h.registry]
  · simpa [Trial.terminate] using h.called
  · show (t.terminate owner s).1.Standing x.bodies
      ((x.startIf (x.registry.terminate s).2).map Drain.activity)
    have hstarts := (hsound.registry.terminate s).2
    rw [h.registry] at hstarts ⊢
    cases hs : (t.registry.terminate s).2 with
    | true =>
        obtain rfl := hstarts hs
        have hnone : x.drains.map Drain.activity = [] := hsound.drains
        obtain ⟨-, hj⟩ := (hnone ▸ h.standing).of_idle
        simp only [Chronicle.startIf, if_true, List.map_append, hnone]
        have hfresh : (t.terminate owner s).1.drain = some (owner, .fresh) := by
          simp [Trial.terminate, hs]
        refine .running hfresh hj ?_
        intro r hr
        cases hr
    | false =>
        have hsame : (t.terminate owner s).1.drain = t.drain := by simp [Trial.terminate, hs]
        have hstanding := h.standing.of_same [] hsame rfl
        rwa [List.append_nil] at hstanding

/-- The hook of the drain ends. -/
theorem finish (h : t.Told x) (hd : t.drain = some (owner, d)) (hr : d.running = some r)
    (e : Ending) {failures : List HookFailure}
    (hdrain : t'.drain = some (owner, ⟨none, failures⟩)) (hjobs : t'.jobs = t.jobs)
    (hregistry : t'.registry = t.registry.record (e.failure? r.index)) :
    ∃ y, x.after (.finish 0 e) = some y ∧ t'.Told y := by
  obtain ⟨hsound, d', hx, hactivity⟩ := h.drain hd
  obtain ⟨-, hj, hrun⟩ := h.standing.of_drain hd
  have hbusy : d.activity = .busy r.index := Drain.activity_eq_busy.mpr ⟨r, hr, rfl⟩
  rw [hbusy] at hsound hactivity
  obtain ⟨r', hr', hindex⟩ := Drain.activity_eq_busy.mp hactivity
  have hy : x.after (.finish 0 e) = some { x with
      registry := x.registry.record (e.failure? r'.index)
      drains := [⟨none, d'.failures ++ (e.failure? r'.index).toList⟩]
      ended := x.ended ++ [(r'.index, e)] } := by
    simp [Chronicle.after, hx, hr', Drain.finish]
  refine ⟨_, hy, hsound.finish hy, ?_, ?_, ?_⟩
  · simp only [hregistry, h.registry, hindex]
  · intro k hk
    rw [hregistry] at hk
    rcases Nat.lt_succ_iff_lt_or_eq.mp (hk : k < t.registry.completed + 1) with hk | rfl
    · exact h.called k hk
    · rw [← h.registry, ← hsound.registry.busy r.index rfl]
      exact hrun r hr
  · refine .running hdrain (hjobs ▸ hj) ?_
    intro r hr
    cases hr

/-- The drain takes the next hook, is over, or is lost in the call of the hook. -/
theorem next (h : t.Told x) (hd : t.drain = some (owner, d)) (hr : d.running = none)
    (hg : t.goOn = some t') :
    ∃ y, x.after (.next 0 () (t.after t.limit)) = some y ∧ t'.Told y := by
  obtain ⟨hsound, d', hx, hactivity⟩ := h.drain hd
  obtain ⟨-, hj, -⟩ := h.standing.of_drain hd
  have hbetween : d.activity = .between := Drain.activity_eq_between.mpr hr
  rw [hbetween] at hsound hactivity
  have hr' : d'.running = none := Drain.activity_eq_between.mp hactivity
  simp only [goOn, hd, stepDrain, hr, takeHook] at hg
  cases hn : t.registry.next?.2 with
  | none =>
      have hnext : t.registry.next? = (t.registry.next?.1, none) := Prod.ext rfl hn
      rw [hnext] at hg
      obtain rfl := Option.some.inj hg
      have hy : x.after (.next 0 () (t.after t.limit)) =
          some { x with registry := x.registry.next?.1, drains := [] } := by
        simp [Chronicle.after, hx, hr', h.registry, hn]
      refine ⟨_, hy, hsound.next hy, ?_, ?_, .idle rfl hj⟩
      · simp only [h.registry]
      · simpa using h.called
  | some p =>
      have hnext : t.registry.next? = (t.registry.next?.1, some p) := Prod.ext rfl hn
      rw [hnext] at hg
      have hy : x.after (.next 0 () (t.after t.limit)) = some { x with
          registry := x.registry.next?.1
          drains := [d'.run ⟨p.index, (), t.after t.limit⟩]
          started := x.started ++ [(p, x.registry.state)] } := by
        simp [Chronicle.after, hx, hr', h.registry, hn]
      have hbody : x.bodies[p.index]? = some p.body := hsound.next_body (by rw [h.registry, hn])
      cases hcall : p.body.onCall with
      | none =>
          simp only [hcall, Option.map_some, Option.some.injEq] at hg
          obtain rfl := hg
          refine ⟨_, hy, hsound.next hy, ?_, ?_, ?_⟩
          · simp only [h.registry]
          · simpa using h.called
          · refine .running (d := d.run ⟨p.index, ⟨p.body.actions, t.clock⟩, t.after t.limit⟩)
              rfl hj ?_
            intro r hr
            obtain rfl := Option.some.inj hr
            exact ⟨p.body, hbody, hcall⟩
      | some panic =>
          simp only [hcall, Option.map_some, Option.some.injEq] at hg
          obtain rfl := hg
          refine ⟨_, hy, hsound.next hy, ?_, ?_, ?_⟩
          · simp only [h.registry]
          · simpa using h.called
          · exact .lost rfl hj hbody (by simp [hcall])

/-- The hook of the drain does its next action. -/
theorem act (h : t.Told x) (hd : t.drain = some (owner, d)) (hr : d.running = some r)
    (hwake : r.thread.wake ≤ t.clock) (hg : t.goOn = some t') :
    ∃ y, x.run (actTale r.thread.left) = some y ∧ t'.Told y := by
  simp only [Trial.goOn, hd, stepDrain, hr, hwake, if_true] at hg
  cases hleft : r.thread.left with
  | nil =>
      simp only [hleft, Trial.act, Option.map_some, Option.some.injEq] at hg
      subst hg
      rw [actTale, Chronicle.run_single]
      exact h.finish hd hr .ok rfl rfl rfl
  | cons action rest =>
      simp only [hleft] at hg
      cases action with
      | sleep time =>
          obtain rfl := Option.some.inj hg
          exact ⟨x, rfl, h.turn hd hr _ rfl rfl rfl⟩
      | log text =>
          obtain rfl := Option.some.inj hg
          exact ⟨x, rfl, h.turn hd hr _ rfl rfl rfl⟩
      | panic p =>
          obtain rfl := Option.some.inj hg
          rw [actTale, Chronicle.run_single]
          exact h.finish hd hr (.panicked p) rfl rfl rfl
      | fail report =>
          obtain rfl := Option.some.inj hg
          rw [actTale, Chronicle.run_single]
          exact h.finish hd hr (.error report) rfl rfl rfl
      | register onCall actions =>
          obtain rfl := Option.some.inj hg
          obtain ⟨y, hy, htold⟩ := h.register ⟨onCall, actions⟩
          rw [actTale, Chronicle.run_single]
          exact ⟨y, hy, htold.turn hd hr _ rfl rfl rfl⟩
      | terminate s =>
          obtain rfl := Option.some.inj hg
          obtain ⟨y, hy, htold⟩ := h.terminate owner s
          -- The flow has ended long ago, so the call starts no second drain.
          have hstarts : (t.registry.terminate s).2 = false := by
            have hsound := (h.drain hd).1
            rw [← h.registry]
            refine Bool.eq_false_iff.mpr ?_
            intro hs
            have hidle := (hsound.registry.terminate s).2 hs
            simp [Drain.activity, hr] at hidle
          have hsame : (t.terminate owner s).1.drain = some (owner, d) := by
            simp [Trial.terminate, hstarts, hd]
          rw [actTale, Chronicle.run_single]
          exact ⟨y, hy, htold.turn hsame hr _ rfl rfl rfl⟩

/-- A step of the drain is told as it happens. -/
theorem goOn (h : t.Told x) (hg : t.goOn = some t') :
    ∃ y, x.run (t.tell .drain) = some y ∧ t'.Told y := by
  cases hd : t.drain with
  | none => simp [Trial.goOn, hd] at hg
  | some od =>
      obtain ⟨owner, d⟩ := od
      simp only [tell, hd, drainTale]
      cases hr : d.running with
      | none =>
          simp only [Chronicle.run_single]
          exact h.next hd hr hg
      | some r =>
          by_cases hwake : r.thread.wake ≤ t.clock
          · simp only [hwake, if_true]
            exact h.act hd hr hwake hg
          · simp only [Trial.goOn, hd, stepDrain, hr, hwake, if_false] at hg ⊢
            by_cases hlimit : r.limit ≤ t.clock
            · simp only [hlimit, if_true, Option.map_some, Option.some.injEq] at hg ⊢
              subst hg
              rw [Chronicle.run_single]
              exact h.finish hd hr (.timedOut t.limit) rfl rfl rfl
            · simp [hlimit] at hg

/-- The next task begins: it ends the flow, or it is the drain for a late hook. -/
theorem begin (h : t.Told x) (hb : t.beginJob = some t') :
    ∃ y, x.run (t.tell .begin) = some y ∧ t'.Told y := by
  cases hj : t.jobs with
  | nil => simp [beginJob, hj] at hb
  | cons job rest =>
      cases job with
      | terminate s =>
          simp only [beginJob, hj, Option.some.injEq] at hb
          subst hb
          have hsame : ({ t with jobs := rest } : Trial).Told x :=
            h.of_same rfl (by simp [hj]) rfl
          simp only [tell, hj, Chronicle.run_single]
          exact hsame.terminate .task s
      | drain =>
          simp only [beginJob, hj, Option.some.injEq] at hb
          subst hb
          simp only [tell, hj]
          refine ⟨x, rfl, h.sound, h.registry, h.called, ?_⟩
          generalize hx : x.drains.map Drain.activity = as
          have hstanding := h.standing
          rw [hx] at hstanding
          have hmem : Job.drain ∈ t.jobs := hj ▸ List.mem_cons_self
          cases hstanding with
          | waiting hd hcount =>
              refine .running (d := .fresh) rfl ?_ (by intro r hr; cases hr)
              have hrest : rest.count .drain = 0 := by simpa [hj] using hcount
              exact List.count_eq_zero.mp hrest
          | idle hd hnot => exact absurd hmem hnot
          | running hd hnot => exact absurd hmem hnot
          | lost hd hnot => exact absurd hmem hnot

/-- Whatever happens to a trial, its chronicle tells it. -/
theorem happen (h : t.Told x) {e : Happening} (he : t.happen e = some t') :
    ∃ y, x.run (t.tell e) = some y ∧ t'.Told y := by
  cases e with
  | register hook =>
      obtain rfl := Option.some.inj he
      rw [tell, Chronicle.run_single]
      exact h.register hook
  | terminate s =>
      obtain rfl := Option.some.inj he
      rw [tell, Chronicle.run_single]
      exact h.terminate .caller s
  | terminateLater s =>
      obtain rfl := Option.some.inj he
      exact ⟨x, rfl, h.of_same rfl (by simp [terminateLater]) rfl⟩
  | begin => exact h.begin he
  | drain => exact h.goOn he
  | clock moment =>
      simp only [Trial.happen] at he
      split at he
      · obtain rfl := Option.some.inj he
        exact ⟨x, rfl, h.of_same rfl rfl rfl⟩
      · cases he

theorem run {es : List Happening} (h : t.Told x) (hrun : t.run es = some t') :
    ∃ y, x.run (t.tale es) = some y ∧ t'.Told y := by
  induction es generalizing t x with
  | nil =>
      obtain rfl := Option.some.inj hrun
      exact ⟨x, rfl, h⟩
  | cons e es ih =>
      obtain ⟨t₁, he, hrest⟩ := Option.bind_eq_some_iff.mp hrun
      obtain ⟨x₁, hx₁, h₁⟩ := h.happen he
      obtain ⟨y, hy, hlast⟩ := ih h₁ hrest
      refine ⟨y, ?_, hlast⟩
      simp only [tale, he, Chronicle.run_append, hx₁, Option.bind_some]
      exact hy

end Told

/-! ## The end of a trial -/

/-- Where nothing can go on, no task is left: a drain could take the next hook, or end the one it
runs as soon as that one is to go on or its time is over. -/
theorem Stuck.rest {t : Trial} (h : t.Stuck) : t.drain = none ∧ t.jobs = [] := by
  constructor
  · cases hd : t.drain with
    | none => rfl
    | some od =>
        obtain ⟨owner, d⟩ := od
        cases hr : d.running with
        | none =>
            have hnow := (h t.clock (Nat.le_refl _)).1
            simp [goOn, hd, stepDrain, hr] at hnow
        | some r =>
            have hlater := (h (max t.clock r.thread.wake) (Nat.le_max_left _ _)).1
            simp only [goOn, hd, stepDrain, hr, Nat.le_max_right, if_true] at hlater
            split at hlater <;> simp at hlater
  · cases hj : t.jobs with
    | nil => rfl
    | cons job rest =>
        have hnow := (h t.clock (Nat.le_refl _)).2
        cases job <;> simp [beginJob, hj] at hnow

theorem stuck_of_rest {t : Trial} (hdrain : t.drain = none) (hjobs : t.jobs = []) : t.Stuck := by
  intro moment _
  constructor
  · simp [goOn, hdrain]
  · simp [beginJob, hjobs]

/-- Who waits where no task is left, gets nothing but what is there already. -/
theorem waitFor_rest {α : Type} {t : Trial} (ready? : Trial → Trial × Option α)
    (moment : Option Nat) (n : Nat) (hdrain : t.drain = none) (hjobs : t.jobs = [])
    (hready : ∀ clock, ready? { t with clock := clock } = ({ t with clock := clock }, none)) :
    (waitFor ready? moment n t).2 = .late := by
  have hsettle (fuel : Nat) (clock : Nat) :
      settleFor fuel { t with clock := clock } = { t with clock := clock } := by
    cases fuel with
    | zero => rfl
    | succ fuel => simp [settleFor, stepTask, stepTaskDrain, beginJob, hdrain, hjobs]
  suffices hall : ∀ clock, (waitFor ready? moment n { t with clock := clock }).2 = .late from
    hall t.clock
  induction n with
  | zero => intro clock; rfl
  | succ n ih =>
      intro clock
      simp only [waitFor, hready, settle, hsettle]
      split
      · rfl
      · split
        · exact ih _
        · rfl

/-- Every hook has been run, and the registry has said so to whoever waits for it. -/
structure Isolated (t : Trial) (x : Chronicle Hook Unit) : Prop where
  started : x.started.map (fun p => p.1.index) = List.range x.bodies.length
  bodies : x.started.map (fun p => p.1.body) = x.bodies
  ended : x.ended.map Prod.fst = List.range x.bodies.length
  completed : t.registry.status.completed = x.bodies.length
  pending : t.registry.status.pending = 0
  failures : t.registry.status.failures = x.ended.filterMap fun p => p.2.failure? p.1
  failed : t.registry.status.failures.map HookFailure.index =
    (x.ended.filter fun p => p.2 ≠ .ok).map Prod.fst
  settled : t.awaitSettled = (t, .came ())

/-- The hook at a position is the last one that has been started, those before it have been run,
and nobody who waits for the hooks is ever answered. -/
structure Broken (t : Trial) (x : Chronicle Hook Unit) (k : Nat) : Prop where
  started : x.started.map (fun p => p.1.index) = List.range (k + 1)
  ended : x.ended.map Prod.fst = List.range k
  completed : t.registry.status.completed = k
  pending : t.registry.status.pending = x.bodies.length - (k + 1)
  failures : t.registry.status.failures = x.ended.filterMap fun p => p.2.failure? p.1
  settled (moment : Option Nat) (n : Nat) :
    (waitFor (fun t => (t, if t.registry.isSettled then some () else none)) moment n t).2 = .late

variable {t : Trial} {x : Chronicle Hook Unit}

theorem Told.isolated (h : t.Told x) (hsound : x.Sound .idle)
    (hterminal : t.registry.isTerminal) : t.Isolated x := by
  have hterm : x.registry.terminal.isSome := h.registry ▸ hterminal
  have hpending : x.registry.pending = [] := hsound.registry.settled hterm rfl
  have hcompleted : x.registry.completed = x.bodies.length := by
    have hcount := hsound.registry.count
    rw [hsound.registered, hpending] at hcount
    simpa using hcount
  have hsettled : t.registry.isSettled := by
    rw [← h.registry]
    simp [Registry.isSettled, Registry.isTerminal, hterm, hsound.registry.not_draining, hpending]
  exact {
    started := by simpa [hcompleted] using hsound.started
    bodies := by simpa [hpending] using hsound.bodies.symm
    ended := by simpa [hcompleted] using hsound.ended
    completed := by rw [← hcompleted, h.registry]; rfl
    pending := by rw [← h.registry]; simp [Registry.status, hpending]
    failures := by rw [← h.registry]; exact hsound.failures
    failed := by rw [← h.registry]; exact hsound.failure_indexes
    settled := by simp [awaitSettled, wait, waitFor, hsettled] }

theorem Told.broken {k : Nat} (h : t.Told x) (hsound : x.Sound (.busy k)) (hdrain : t.drain = none)
    (hjobs : t.jobs = []) : t.Broken x k := by
  have hk : k = x.registry.completed := hsound.registry.busy k rfl
  have hdraining : t.registry.draining := h.registry ▸ hsound.registry.draining.mpr (by simp)
  exact {
    started := by simpa [hk] using hsound.started
    ended := by simpa [hk] using hsound.ended
    completed := by rw [hk, h.registry]; rfl
    pending := by
      have hcount := hsound.registry.count
      rw [hsound.registered] at hcount
      rw [← h.registry]
      show x.registry.pending.length = _
      simp only [Activity.count_busy] at hcount
      omega
    failures := by rw [← h.registry]; exact hsound.failures
    settled := by
      intro moment n
      refine waitFor_rest _ moment n hdrain hjobs ?_
      intro clock
      simp [Registry.isSettled, hdraining] }

/-- Whatever happens to a trial, and whatever its hooks do, once the flow has ended and nothing can
go on:
* if no hook panics in its call, every hook has been started and has ended, each once and in order,
  none is pending, the failures are those of the hooks that did not end well, and a wait for the
  hooks is over at once;
* if the hook at position `k` is the first one that panics in its call, just the hooks before it
  have ended, none after it has been started, and no wait for the hooks is ever over. -/
theorem isolation_of_stuck {limit : Duration} {es : List Happening}
    (hrun : (start limit).run es = some t) (hterminal : t.registry.isTerminal) (hstuck : t.Stuck) :
    ∃ x, Chronicle.empty.run ((start limit).tale es) = some x ∧ x.registry = t.registry ∧
      ((∀ h ∈ x.bodies, h.onCall = none) → t.Isolated x) ∧
      ∀ k h, x.bodies[k]? = some h → h.onCall.isSome →
        (∀ j < k, ∀ h', x.bodies[j]? = some h' → h'.onCall = none) → t.Broken x k := by
  obtain ⟨x, hx, htold⟩ := (told_start limit).run hrun
  obtain ⟨hdrain, hjobs⟩ := hstuck.rest
  obtain ⟨a, hsound⟩ := htold.sound
  refine ⟨x, hx, htold.registry, ?_⟩
  generalize has : x.drains.map Drain.activity = as
  have hstanding := htold.standing
  rw [has] at hstanding
  cases hstanding with
  | waiting _ hcount => simp [hjobs] at hcount
  | running hsome => rw [hdrain] at hsome; cases hsome
  | idle =>
      obtain rfl := hsound.of_no_drain has
      have hisolated := htold.isolated hsound hterminal
      refine ⟨fun _ => hisolated, ?_⟩
      intro k h hk hcall _
      -- Every hook has ended, so none of them has panicked in its call.
      have hlt : k < t.registry.completed := by
        have hcompleted : t.registry.completed = x.bodies.length := hisolated.completed
        rw [hcompleted]
        exact (List.getElem?_eq_some_iff.mp hk).1
      obtain ⟨h', hk', hnone⟩ := htold.called k hlt
      obtain rfl := Option.some.inj (hk.symm.trans hk')
      simp [hnone] at hcall
  | @lost index hook _ _ hbody hpanics =>
      obtain rfl := hsound.of_drain has
      refine ⟨?_, ?_⟩
      · intro hall
        have hnone := hall hook (List.mem_of_getElem? hbody)
        simp [hnone] at hpanics
      · intro k h hk hcall hbefore
        have hindex : index = t.registry.completed :=
          htold.registry ▸ hsound.registry.busy index rfl
        obtain rfl : index = k := by
          rcases Nat.lt_trichotomy index k with hlt | rfl | hlt
          · simp [hbefore index hlt hook hbody] at hpanics
          · rfl
          · obtain ⟨h', hk', hnone⟩ := htold.called k (hindex ▸ hlt)
            obtain rfl := Option.some.inj (hk.symm.trans hk')
            simp [hnone] at hcall
        exact htold.broken hsound hdrain hjobs

/-- A hook that fails, one that panics while it is under way, and one that never ends are run; a
fourth is registered while they are. -/
def roughRun : List Happening :=
  [.register ⟨none, [.fail (.ofText "no")]⟩, .register ⟨none, [.panic (.text "boo")]⟩,
    .register ⟨none, [.sleep (.ofSeconds 60)]⟩, .terminate .succeeded, .drain, .drain, .drain,
    .register ⟨none, []⟩, .drain, .drain, .drain, .clock 10000, .drain, .drain, .drain, .drain]

/-- A hook panics in its call; a second one is behind it. -/
def brokenRun : List Happening :=
  [.register ⟨some (.text "boo"), []⟩, .register ⟨none, [.log "after"]⟩,
    .terminateLater .succeeded, .begin, .drain]

theorem isolation_of_stuck_rough :
    (∃ t x, (start (.ofSeconds 10)).run roughRun = some t ∧ t.Stuck ∧ t.Isolated x ∧
      t.registry.completed = 4 ∧ t.registry.failures.map HookFailure.index = [0, 1, 2]) ∧
    ∃ t x, (start (.ofSeconds 10)).run brokenRun = some t ∧ t.Stuck ∧ t.Broken x 0 ∧
      t.registry.status = ⟨true, 1, 0, []⟩ := by
  constructor
  · obtain ⟨t, hrun, hdrain, hjobs, hterminal⟩ : ∃ t, (start (.ofSeconds 10)).run roughRun = some t ∧
        t.drain = none ∧ t.jobs = [] ∧ t.registry.isTerminal := ⟨_, rfl, rfl, rfl, rfl⟩
    have hstuck := stuck_of_rest hdrain hjobs
    obtain ⟨x, hx, -, hisolated, -⟩ := isolation_of_stuck hrun hterminal hstuck
    have hended : (Chronicle.empty.run ((start (.ofSeconds 10)).tale roughRun)).map
        (fun x => (x.bodies.map Hook.onCall, (x.ended.filter fun p => p.2 ≠ .ok).map Prod.fst)) =
        some ([none, none, none, none], [0, 1, 2]) := rfl
    simp only [hx, Option.map_some, Option.some.injEq, Prod.mk.injEq] at hended
    have hlen : x.bodies.length = 4 := by
      simpa using congrArg List.length hended.1
    have hall : t.Isolated x := hisolated fun h hh => by
      have hmem := List.mem_map_of_mem (f := Hook.onCall) hh
      simpa [hended.1] using hmem
    exact ⟨t, x, hrun, hstuck, hall, hall.completed.trans hlen, hall.failed.trans hended.2⟩
  · obtain ⟨t, hrun, hdrain, hjobs, hterminal, hstatus⟩ :
        ∃ t, (start (.ofSeconds 10)).run brokenRun = some t ∧ t.drain = none ∧ t.jobs = [] ∧
          t.registry.isTerminal ∧ t.registry.status = ⟨true, 1, 0, []⟩ := ⟨_, rfl, rfl, rfl, rfl, rfl⟩
    have hstuck := stuck_of_rest hdrain hjobs
    obtain ⟨x, hx, -, -, hbroken⟩ := isolation_of_stuck hrun hterminal hstuck
    have hfirst : (Chronicle.empty.run ((start (.ofSeconds 10)).tale brokenRun)).map
        (fun x => x.bodies[0]?) = some (some ⟨some (.text "boo"), []⟩) := rfl
    rw [hx] at hfirst
    have hbody := Option.some.inj hfirst
    exact ⟨t, x, hrun, hstuck, hbroken 0 _ hbody rfl (by simp), hstatus⟩

end Trial

end StageGraph.Hooks
