/-
# `StageGraph.Proofs.TrialTimes` — when the hooks of a trial start and end

A trial runs hooks as a host should (`Trial.fair`), so they keep to their timetable.  A hook that is
told what to do has a course that can be read off its actions (`alone`): it sleeps for the sum of
its spans, up to where it panics, fails or has nothing left to do.

One kind of hook is not attended to its end: a hook that panics in its call is taken, and its drain
is lost, so it never ends, and no hook behind it starts.
-/
import StageGraph.Proofs.HookTimes
import StageGraph.Proofs.HookIsolation

namespace StageGraph.Hooks

/-- The ticks that actions take if nobody cuts them off, and how the hook ends. -/
def alone : List Action → Nat × Ending
  | [] => (0, .ok)
  | .sleep d :: rest => (d.ticks + (alone rest).1, (alone rest).2)
  | .panic p :: _ => (0, .panicked p)
  | .fail r :: _ => (0, .error r)
  | .log _ :: rest | .register _ _ :: rest | .terminate _ :: rest => alone rest

/-! ## What happens to a trial -/

namespace Trial

variable {t t' t₁ : Trial} {owner : Owner} {d : Drain Thread} {r : Running Thread} {e : Ending}
  {limit : Duration}

/-- The hook under way. -/
def running? (t : Trial) : Option (Running Thread) := t.drain.bind fun d => d.2.running

theorem running?_of_drain (h : t.drain = some (owner, d)) : t.running? = d.running := by
  rw [running?, h, Option.bind_some]

/-- No hook has ended, no time has passed, and no hook that has been counted is taken back. -/
structure Kept (t t' : Trial) : Prop where
  clock : t'.clock = t.clock
  limit : t'.limit = t.limit
  completed : t'.registry.completed = t.registry.completed
  failures : t'.registry.failures = t.registry.failures
  grows : t.registry.Grows t'.registry

theorem kept_register (t : Trial) (h : Hook) : t.Kept (t.register h).1 :=
  ⟨rfl, rfl, rfl, rfl, t.registry.grows_register h⟩

theorem kept_terminate (t : Trial) (owner : Owner) (s : FlowState) :
    t.Kept (t.terminate owner s).1 :=
  ⟨rfl, rfl, t.registry.terminate_completed s, t.registry.terminate_failures s,
    t.registry.grows_terminate s⟩

/-- An action that leaves its hook under way takes the time after which the hook goes on. -/
theorem act_thread {actions : List Action} {thread : Thread}
    (h : t.act actions = (t₁, .thread thread)) :
    t.Kept t₁ ∧ t.clock ≤ thread.wake ∧
      thread.wake + (alone thread.left).1 = t.clock + (alone actions).1 ∧
      (alone thread.left).2 = (alone actions).2 := by
  cases actions with
  | nil => cases h
  | cons action rest =>
      cases action with
      | sleep span =>
          cases h
          exact ⟨⟨rfl, rfl, rfl, rfl, .refl _⟩, Nat.le_add_right _ _, Nat.add_assoc _ _ _, rfl⟩
      | log text =>
          cases h
          exact ⟨⟨rfl, rfl, rfl, rfl, .refl _⟩, Nat.le_refl _, rfl, rfl⟩
      | register onCall actions =>
          cases h
          exact ⟨t.kept_register _, Nat.le_refl _, rfl, rfl⟩
      | terminate s =>
          simp only [act, Prod.mk.injEq, Left.thread.injEq] at h
          obtain ⟨rfl, rfl⟩ := h
          exact ⟨⟨rfl, rfl, by simp, by simp, t.registry.grows_terminate s⟩, Nat.le_refl _, rfl, rfl⟩
      | panic p => cases h
      | fail report => cases h

/-- An action that ends its hook takes no time. -/
theorem act_ended {actions : List Action} (h : t.act actions = (t₁, .ended e)) :
    t₁ = t ∧ alone actions = (0, e) := by
  cases actions with
  | nil =>
      cases h
      exact ⟨rfl, rfl⟩
  | cons action rest =>
      cases action with
      | panic p =>
          cases h
          exact ⟨rfl, rfl⟩
      | fail report =>
          cases h
          exact ⟨rfl, rfl⟩
      | _ => cases h

/-- What a step of a drain comes to. -/
inductive Goes (t : Trial) (owner : Owner) (d : Drain Thread) : Trial → Prop
  | leaves : d.running = none → t.registry.next?.2 = none →
      t.stepDrain d = some ({ t with registry := t.registry.next?.1 }, .drained d.failures) →
      Goes t owner d { t with registry := t.registry.next?.1, drain := none }
  | breaks {h : Pending Hook} : d.running = none → t.registry.next?.2 = some h →
      h.body.onCall.isSome →
      Goes t owner d { t with registry := t.registry.next?.1, drain := none }
  | takes {h : Pending Hook} : d.running = none → t.registry.next?.2 = some h →
      h.body.onCall = none →
      Goes t owner d { t with
        registry := t.registry.next?.1
        drain := some (owner,
          d.run ⟨h.index, ⟨h.body.actions, t.clock⟩, t.after t.limit⟩) }
  | acts {r : Running Thread} {t₁ : Trial} {thread : Thread} : d.running = some r →
      r.thread.wake ≤ t.clock → t.act r.thread.left = (t₁, .thread thread) →
      Goes t owner d { t₁ with drain := some (owner, d.run { r with thread := thread }) }
  | ends {r : Running Thread} {e : Ending} : d.running = some r →
      (r.thread.wake ≤ t.clock ∧ alone r.thread.left = (0, e) ∨
        r.limit ≤ t.clock ∧ e = .timedOut t.limit) →
      Goes t owner d { t with
        registry := t.registry.record (e.failure? r.index)
        drain := some (owner, ⟨none, d.failures ++ (e.failure? r.index).toList⟩) }

theorem goOn_cases (h : t.goOn = some t') :
    ∃ owner d, t.drain = some (owner, d) ∧ t.Goes owner d t' := by
  cases hd : t.drain with
  | none => simp [goOn, hd] at h
  | some od =>
      obtain ⟨owner, d⟩ := od
      refine ⟨owner, d, rfl, ?_⟩
      simp only [goOn, hd, stepDrain] at h
      cases hr : d.running with
      | none =>
          simp only [hr, takeHook] at h
          cases hn : t.registry.next?.2 with
          | none =>
              have hnext : t.registry.next? = (t.registry.next?.1, none) := Prod.ext rfl hn
              have hstep : t.stepDrain d =
                  some ({ t with registry := t.registry.next?.1 }, .drained d.failures) := by
                rw [stepDrain, hr, takeHook, hnext]
              rw [hnext] at h
              obtain rfl := Option.some.inj h
              exact .leaves hr hn hstep
          | some p =>
              have hnext : t.registry.next? = (t.registry.next?.1, some p) := Prod.ext rfl hn
              rw [hnext] at h
              cases hcall : p.body.onCall with
              | none =>
                  simp only [hcall, Option.map_some, Option.some.injEq] at h
                  exact h ▸ .takes hr hn hcall
              | some panic =>
                  simp only [hcall, Option.map_some, Option.some.injEq] at h
                  exact h ▸ .breaks hr hn (by simp [hcall])
      | some r =>
          simp only [hr] at h
          by_cases hwake : r.thread.wake ≤ t.clock
          · rw [if_pos hwake] at h
            rcases hact : t.act r.thread.left with ⟨t₁, thread | e⟩
            · rw [hact] at h
              obtain rfl := Option.some.inj h
              exact .acts hr hwake hact
            · obtain ⟨rfl, halone⟩ := act_ended hact
              rw [hact] at h
              obtain rfl := Option.some.inj h
              exact .ends hr (.inl ⟨hwake, halone⟩)
          · rw [if_neg hwake] at h
            by_cases hlimit : r.limit ≤ t.clock
            · rw [if_pos hlimit] at h
              obtain rfl := Option.some.inj h
              exact .ends hr (.inr ⟨hlimit, rfl⟩)
            · rw [if_neg hlimit] at h
              cases h

/-- Whatever happens, no time passes but in an event of its own, the limit stays, and nothing is
taken back. -/
theorem happen_frame {h : Happening} (ht : t.happen h = some t') :
    (t'.clock = t.clock ∨ h = .clock t'.clock ∧ t.clock ≤ t'.clock) ∧ t'.limit = t.limit ∧
      t.registry.Grows t'.registry := by
  cases h with
  | register hook =>
      obtain rfl := Option.some.inj ht
      exact ⟨.inl rfl, rfl, (t.kept_register hook).grows⟩
  | terminate s =>
      obtain rfl := Option.some.inj ht
      exact ⟨.inl rfl, rfl, (t.kept_terminate .caller s).grows⟩
  | terminateLater s =>
      obtain rfl := Option.some.inj ht
      exact ⟨.inl rfl, rfl, .refl _⟩
  | begin =>
      simp only [happen, beginJob] at ht
      split at ht
      · cases ht
      · next s rest _ =>
          obtain rfl := Option.some.inj ht
          exact ⟨.inl rfl, rfl, (kept_terminate { t with jobs := rest } .task s).grows⟩
      · obtain rfl := Option.some.inj ht
        exact ⟨.inl rfl, rfl, .refl _⟩
  | drain =>
      obtain ⟨owner, d, -, hgoes⟩ := goOn_cases ht
      cases hgoes with
      | leaves _ _ _ => exact ⟨.inl rfl, rfl, t.registry.grows_next?⟩
      | breaks _ _ _ => exact ⟨.inl rfl, rfl, t.registry.grows_next?⟩
      | takes _ _ _ => exact ⟨.inl rfl, rfl, t.registry.grows_next?⟩
      | acts _ _ hact =>
          obtain ⟨hkept, -⟩ := act_thread hact
          exact ⟨.inl hkept.clock, hkept.limit, hkept.grows⟩
      | ends _ _ => exact ⟨.inl rfl, rfl, t.registry.grows_record _⟩
  | clock moment =>
      simp only [happen, Option.ite_none_right_eq_some, Option.some.injEq] at ht
      obtain ⟨hle, rfl⟩ := ht
      exact ⟨.inr ⟨rfl, hle⟩, rfl, .refl _⟩

/-! ## A trial as a host of hooks -/

/-- No task can go on. -/
def Idle (t : Trial) : Prop := t.goOn = none ∧ t.beginJob = none

/-- The moment up to which time passes in an event, if it does. -/
def passes? : Happening → Option Nat
  | .clock moment => some moment
  | _ => none

/-- A trial as a system with a clock.  Where a hook is under way, its drain waits for the moment at
which the hook goes on and for the one at which its time is over. -/
abbrev clockwork (limit : Duration) : Clockwork Trial Happening where
  start := start limit
  fire := happen
  run := run
  clock := Trial.clock
  passes? := passes?
  Idle := Idle
  Waits t m := ∃ r, t.running? = some r ∧ (m = r.thread.wake ∨ m = r.limit)
  run_nil _ := rfl
  run_cons _ _ _ := rfl
  clock_of_fire h :=
    (happen_frame h).1.imp_right fun ⟨he, hle⟩ => ⟨congrArg passes? he, hle⟩

/-- A trial as a host of hooks. -/
abbrev host (limit : Duration) : HookHost Trial Happening Hook Thread where
  clockwork := clockwork limit
  registry := Trial.registry
  running := running?
  limit := limit

/-- Where no task can go on, the hook under way is still to wake, and its time is not over. -/
theorem lt_of_idle (h : t.Idle) (hr : t.running? = some r) :
    t.clock < r.thread.wake ∧ t.clock < r.limit := by
  obtain ⟨⟨owner, d⟩, hd, hr⟩ := Option.bind_eq_some_iff.mp hr
  have hr : d.running = some r := hr
  have hnone := h.1
  simp only [goOn, hd, stepDrain, hr, Option.map_eq_none_iff] at hnone
  by_cases hwake : r.thread.wake ≤ t.clock
  · rw [if_pos hwake] at hnone
    rcases hact : t.act r.thread.left with ⟨t₁, thread | e⟩ <;> simp [hact] at hnone
  · rw [if_neg hwake] at hnone
    exact ⟨Nat.lt_of_not_le hwake, Nat.lt_of_not_le fun hlimit => by simp [hlimit] at hnone⟩

/-- A hook under way goes on when its thread wakes, and not later, and ends when it has done the
rest. -/
def Pace (t : Trial) (thread : Thread) (course : Course) : Prop :=
  t.clock ≤ thread.wake ∧
    course = some (thread.wake + (alone thread.left).1, (alone thread.left).2)

end Trial

namespace Chronicle

variable {β τ : Type} {x y : Chronicle β τ} {os : List (Occurrence β τ)}

/-- Bodies are only added. -/
theorem bodies_of_after {o : Occurrence β τ} (h : x.after o = some y) :
    x.bodies <+: y.bodies := by
  cases o with
  | register body =>
      obtain rfl := Option.some.inj h
      exact List.prefix_append _ _
  | terminate s =>
      obtain rfl := Option.some.inj h
      exact List.prefix_refl _
  | next k thread limit =>
      simp only [after] at h
      split at h
      · split at h
        · cases h
        · split at h <;> (obtain rfl := Option.some.inj h; exact List.prefix_refl _)
      · cases h
  | finish k e =>
      simp only [after] at h
      split at h
      · split at h
        · obtain rfl := Option.some.inj h
          exact List.prefix_refl _
        · cases h
      · cases h

theorem bodies_of_run (h : x.run os = some y) : x.bodies <+: y.bodies := by
  induction os generalizing x with
  | nil =>
      obtain rfl := Option.some.inj h
      exact List.prefix_refl _
  | cons o os ih =>
      obtain ⟨z, hz, hrest⟩ := Option.bind_eq_some_iff.mp h
      exact (bodies_of_after hz).trans (ih hrest)

end Chronicle

namespace Trial

variable {t v v' w : Trial} {limit : Duration} {es : List Happening} {x : Chronicle Hook Unit}
  {e : Happening} {i : Nat}

theorem tale_append (h : t.run es = some v) (es' : List Happening) :
    t.tale (es ++ es') = t.tale es ++ v.tale es' := by
  induction es generalizing t with
  | nil =>
      obtain rfl := Option.some.inj h
      rfl
  | cons e es ih =>
      obtain ⟨t₁, he, hrest⟩ := Option.bind_eq_some_iff.mp h
      simp only [List.cons_append, tale, he, ih hrest, List.append_assoc]

theorem body_of_known {hooks hooks' : List Hook} {hook : Hook} (h : hooks <+: hooks')
    (hi : hooks[i]? = some hook) : hooks'[i]? = some hook := by
  obtain ⟨more, rfl⟩ := h
  rw [List.getElem?_append_left (List.getElem?_eq_some_iff.mp hi).1, hi]

/-- The courses of the hooks of a chronicle. -/
def courses (x : Chronicle Hook Unit) (i : Nat) : Course :=
  (x.bodies[i]?).map fun h => alone h.actions

section Run

variable (hx : Chronicle.empty.run ((start limit).tale es) = some x)

include hx

/-- Every state of a run has a chronicle, which is part of that of the run. -/
theorem told_of_visits (hv : (clockwork limit).Visits es v) :
    ∃ y, v.Told y ∧ y.bodies <+: x.bodies := by
  obtain ⟨first, rest, rfl, hrun⟩ := hv
  obtain ⟨y, hy, htold⟩ := (told_start limit).run hrun
  rw [tale_append hrun, Chronicle.run_append, hy, Option.bind_some] at hx
  exact ⟨y, htold, Chronicle.bodies_of_run hx⟩

omit hx in
theorem limit_of_visits (hv : (clockwork limit).Visits es v) : v.limit = limit := by
  refine hv.induction (P := fun v => v.limit = limit) rfl ?_
  intro v e v' hstep hlimit
  exact (happen_frame hstep.fire).2.1.trans hlimit

/-- The hook under way is the one with which the registry is busy. -/
theorem sound_of_visits (hv : (clockwork limit).Visits es v) :
    ∃ a, v.registry.Sound a ∧ ∀ r, v.running? = some r → a = .busy r.index := by
  obtain ⟨y, htold, -⟩ := told_of_visits hx hv
  cases hd : v.drain with
  | none =>
      obtain ⟨a, hsound⟩ := htold.sound
      refine ⟨a, htold.registry ▸ hsound.registry, fun r hr => ?_⟩
      simp [running?, hd] at hr
  | some od =>
      obtain ⟨owner, d⟩ := od
      refine ⟨d.activity, htold.registry ▸ (htold.drain hd).1.registry, fun r hr => ?_⟩
      rw [running?_of_drain hd] at hr
      exact Drain.activity_eq_busy.mpr ⟨r, hr, rfl⟩

/-- A drain that is between two hooks can go on. -/
theorem not_between_of_idle (hv : (clockwork limit).Visits es v) (hidle : v.Idle) :
    ¬v.registry.Sound .between := by
  intro hbetween
  obtain ⟨y, htold, -⟩ := told_of_visits hx hv
  obtain ⟨a, hsound⟩ := htold.sound
  have hcount := hbetween.count
  have hcount' : v.registry.completed + a.count + v.registry.pending.length =
    v.registry.registered := htold.registry ▸ hsound.registry.count
  generalize has : y.drains.map Drain.activity = as
  have hstanding := htold.standing
  rw [has] at hstanding
  cases hstanding with
  | idle _ _ =>
      obtain rfl := hsound.of_no_drain has
      have hnot : v.registry.draining = false := htold.registry ▸ hsound.registry.not_draining
      simp [hbetween.draining.mpr (by simp)] at hnot
  | waiting _ hjobs =>
      have hnone := hidle.2
      simp only [beginJob] at hnone
      split at hnone
      · next hnil => simp [hnil] at hjobs
      · cases hnone
      · cases hnone
  | @running owner d hd _ _ =>
      obtain rfl := hsound.of_drain has
      cases hr : d.running with
      | none => simp [goOn, hd, stepDrain, hr, Idle] at hidle
      | some r =>
          simp only [Drain.activity, hr, Activity.count_busy, Activity.count_between]
            at hcount hcount'
          omega
  | lost _ _ _ _ =>
      obtain rfl := hsound.of_drain has
      simp only [Activity.count_busy, Activity.count_between] at hcount hcount'
      omega

/-- A hook that does not panic in its call is attended to its end. -/
theorem attended_of_called {hook : Hook} (hi : x.bodies[i]? = some hook)
    (hcall : hook.onCall = none) : (host limit).Attended es i := by
  intro v hv hstarted hnot
  obtain ⟨y, htold, hprefix⟩ := told_of_visits hx hv
  obtain ⟨a, hsound⟩ := htold.sound
  have htaken : v.registry.taken = v.registry.completed + a.count :=
    htold.registry ▸ hsound.registry.taken
  have hlt : i < v.registry.taken := hstarted
  have hle : v.registry.completed ≤ i := Nat.le_of_not_lt hnot
  have hbusy (index : Nat) (ha : a = .busy index) : index = i := by
    subst ha
    have hindex : index = v.registry.completed := htold.registry ▸ hsound.registry.busy _ rfl
    rw [Activity.count_busy] at htaken
    omega
  generalize has : y.drains.map Drain.activity = as
  have hstanding := htold.standing
  rw [has] at hstanding
  cases hstanding with
  | idle _ _ =>
      obtain rfl := hsound.of_no_drain has
      rw [Activity.count_idle] at htaken
      omega
  | waiting _ _ =>
      obtain rfl := hsound.of_drain has
      rw [Activity.count_between] at htaken
      omega
  | @running owner d hd _ _ =>
      obtain rfl := hsound.of_drain has
      cases hr : d.running with
      | none =>
          rw [Drain.activity, hr, Activity.count_between] at htaken
          omega
      | some r =>
          exact ⟨r, (running?_of_drain hd).trans hr,
            hbusy _ (Drain.activity_eq_busy.mpr ⟨r, hr, rfl⟩)⟩
  | @lost index hook' _ _ hbody hpanics =>
      obtain rfl := hbusy index (hsound.of_drain has)
      rw [body_of_known hprefix hbody] at hi
      obtain rfl := Option.some.inj hi
      simp [hcall] at hpanics

omit hx in
/-- Whoever ends the flow leaves the hook under way as it is. -/
theorem running?_terminate {a : Activity} (hsound : v.registry.Sound a)
    (hbusy : ∀ r, v.running? = some r → a = .busy r.index) (owner : Owner) (s : FlowState) :
    (v.terminate owner s).1.running? = v.running? := by
  cases hstarts : (v.registry.terminate s).2 with
  | false => simp [terminate, running?, hstarts]
  | true =>
      obtain rfl := (hsound.terminate s).2 hstarts
      cases hr : v.running? with
      | none => simp [terminate, running?, hstarts, Drain.fresh]
      | some r => cases hbusy r hr

/-- A task that begins leaves the hook under way as it is, and ends none. -/
theorem kept_begin (hv : (clockwork limit).Visits es v) (h : v.beginJob = some v') :
    v.Kept v' ∧ v'.running? = v.running? := by
  simp only [beginJob] at h
  split at h
  · cases h
  · next s rest _ =>
      obtain rfl := Option.some.inj h
      obtain ⟨a, hsound, hbusy⟩ := sound_of_visits hx hv
      obtain ⟨hclock, hlimit, hcompleted, hfailures, hgrows⟩ :=
        kept_terminate { v with jobs := rest } .task s
      have hrunning : ({ v with jobs := rest } : Trial).running? = v.running? := rfl
      exact ⟨⟨hclock, hlimit, hcompleted, hfailures, hgrows⟩,
        (running?_terminate hsound (hrunning ▸ hbusy) .task s).trans hrunning⟩
  · next rest hjobs =>
      obtain rfl := Option.some.inj h
      refine ⟨⟨rfl, rfl, rfl, rfl, .refl _⟩, ?_⟩
      -- A drain that waits to begin is the only one.
      obtain ⟨y, htold, -⟩ := told_of_visits hx hv
      have hmem : Job.drain ∈ v.jobs := hjobs ▸ List.mem_cons_self
      have hstanding := htold.standing
      generalize y.drains.map Drain.activity = as at hstanding
      cases hstanding with
      | waiting hd _ => simp [running?, hd, Drain.fresh]
      | idle _ hnot => exact absurd hmem hnot
      | running _ hnot _ => exact absurd hmem hnot
      | lost _ hnot _ _ => exact absurd hmem hnot

omit hx in
/-- Where nothing is done to the hook under way and no time passes, it stays on its course. -/
theorem effect_of_kept {course : Nat → Course} (hkept : v.Kept v')
    (hrunning : v'.running? = v.running?) : (host limit).Effect course Pace v v' := by
  refine .none hrunning hkept.completed hkept.failures ?_ ?_
  · intro r _ hle
    exact hkept.clock.le.trans hle
  · rintro r course - ⟨hle, hcourse⟩
    exact ⟨hkept.clock.le.trans hle, hcourse⟩

/-- A step of the drain starts a hook, lets it go on or ends it, or it is the last one. -/
theorem effect_of_goOn (hv : (clockwork limit).Visits es v) (h : v.goOn = some v') :
    (host limit).Effect (courses x) Pace v v' := by
  obtain ⟨owner, d, hd, hgoes⟩ := goOn_cases h
  have hrunning := running?_of_drain hd
  cases hgoes with
  | leaves hr _ _ =>
      exact effect_of_kept ⟨rfl, rfl, by simp, by simp, v.registry.grows_next?⟩
        (hr.symm.trans hrunning.symm)
  | breaks hr _ _ =>
      exact effect_of_kept ⟨rfl, rfl, by simp, by simp, v.registry.grows_next?⟩
        (hr.symm.trans hrunning.symm)
  | @takes p hr hn hcall =>
      obtain ⟨y, htold, hprefix⟩ := told_of_visits hx hv
      have hsound := (htold.drain hd).1
      rw [Drain.activity_eq_between.mpr hr] at hsound
      obtain ⟨-, hindex, -⟩ := hsound.registry.start (htold.registry ▸ hn)
      have hbody := body_of_known hprefix (hsound.next_body (htold.registry ▸ hn))
      refine .starts ⟨p.index, ⟨p.body.actions, v.clock⟩, v.after v.limit⟩ rfl ?_ (by simp) (by simp)
        (by rw [limit_of_visits hv]; rfl) ⟨Nat.le_refl _, ?_⟩
      · have htaken := hsound.registry.taken
        rw [htold.registry, Activity.count_between] at htaken
        rw [htold.registry] at hindex
        exact Nat.not_lt_of_le (htaken.trans hindex.symm).le
      · rw [courses, hbody]
        rfl
  | @acts r t₁ thread hr hwake hact =>
      obtain ⟨hkept, hle, htime, hending⟩ := act_thread hact
      refine .goes r thread (hrunning.trans hr) rfl hkept.completed hkept.failures hkept.clock ?_
      rintro course ⟨hearly, rfl⟩
      refine ⟨hkept.clock.le.trans hle, ?_⟩
      rw [htime, hending, Nat.le_antisymm hearly hwake]
  | @ends r e hr hends =>
      refine .ends r e (hrunning.trans hr) rfl rfl rfl rfl ?_
      rcases hends with ⟨hwake, halone⟩ | ⟨hlimit, rfl⟩
      · refine .inl ?_
        rintro course ⟨hearly, rfl⟩
        have hclock := Nat.le_antisymm hwake hearly
        rw [halone, Nat.add_zero, hclock]
      · exact .inr ⟨by rw [limit_of_visits hv], hlimit⟩

variable (hpunctual : (clockwork limit).Punctual (start limit) es)

include hpunctual

theorem effect_of_step (hstep : (clockwork limit).Step es v e v') :
    (host limit).Effect (courses x) Pace v v' := by
  have hfire := hstep.fire
  have hv := hstep.left
  cases e with
  | register hook =>
      obtain rfl := Option.some.inj hfire
      exact effect_of_kept (v.kept_register hook) rfl
  | terminate s =>
      obtain rfl := Option.some.inj hfire
      obtain ⟨a, hsound, hbusy⟩ := sound_of_visits hx hv
      exact effect_of_kept (v.kept_terminate .caller s) (running?_terminate hsound hbusy .caller s)
  | terminateLater s =>
      obtain rfl := Option.some.inj hfire
      exact effect_of_kept ⟨rfl, rfl, rfl, rfl, .refl _⟩ rfl
  | begin =>
      obtain ⟨hkept, hrunning⟩ := kept_begin hx hv hfire
      exact effect_of_kept hkept hrunning
  | drain => exact effect_of_goOn hx hv hfire
  | clock moment =>
      obtain ⟨-, hwaits⟩ := hstep.punctual hpunctual rfl
      simp only [happen, Option.ite_none_right_eq_some, Option.some.injEq] at hfire
      obtain ⟨-, rfl⟩ := hfire
      refine .none rfl rfl rfl ?_ ?_
      · intro r hr _
        exact hwaits _ ⟨r, hr, .inr rfl⟩
      · rintro r course hr ⟨-, hcourse⟩
        exact ⟨hwaits _ ⟨r, hr, .inl rfl⟩, hcourse⟩

theorem fair (hapart : ∀ h ∈ x.bodies, (alone h.actions).1 ≠ limit.ticks) :
    (host limit).Fair es (courses x) Pace where
  punctual := hpunctual
  empty := rfl
  calm := rfl
  grows hfire := (happen_frame hfire).2.2
  sound hv := sound_of_visits hx hv
  settled hv hidle := not_between_of_idle hx hv hidle
  effect hstep := effect_of_step hx hpunctual hstep
  early := by
    rintro v thread moment e - ⟨hle, hcourse⟩
    obtain ⟨rfl, -⟩ := Prod.mk.inj (Option.some.inj hcourse)
    exact hle.trans (Nat.le_add_right _ _)
  waits := by
    rintro v r - hidle hr
    obtain ⟨hwake, hlimit⟩ := lt_of_idle hidle hr
    refine ⟨hlimit, ?_⟩
    rintro moment e ⟨-, hcourse⟩
    obtain ⟨rfl, -⟩ := Prod.mk.inj (Option.some.inj hcourse)
    exact Nat.lt_of_lt_of_le hwake (Nat.le_add_right _ _)
  apart := by
    intro i e hi
    obtain ⟨h, hh, halone⟩ := Option.map_eq_some_iff.mp hi
    exact hapart h (List.mem_of_getElem? hh) (congrArg Prod.fst halone)

omit hpunctual

/-- A drain under way is known to the registry. -/
theorem draining_of_drain (hv : (clockwork limit).Visits es v) {owner : Owner} {d : Drain Thread}
    (hd : v.drain = some (owner, d)) : v.registry.draining = true := by
  obtain ⟨y, htold, -⟩ := told_of_visits hx hv
  have hsound := (htold.drain hd).1.registry
  rw [htold.registry] at hsound
  refine hsound.draining.mpr ?_
  unfold Drain.activity
  split <;> simp

end Run

/-! ## What the end of the hooks gives -/

/-- Until the drain is over that is begun at the end of the flow, it knows of all failures. -/
structure Collects (limit : Duration) (es : List Happening) (v : Trial) : Prop where
  late : .drain ∈ v.jobs → (host limit).Returned es v
  failures : ¬(host limit).Returned es v → ∀ owner d, v.drain = some (owner, d) →
    d.failures = v.registry.failures

/-- A task is made for a late hook only where no drain is under way. -/
theorem drained_of_register {hook : Hook} (h : .drain ∈ (t.register hook).1.jobs) :
    .drain ∈ t.jobs ∨ (host limit).Drained t := by
  simp only [register, Registry.register] at h
  rcases List.mem_append.mp h with h | h
  · exact .inl h
  · cases hstarts : t.registry.isTerminal && !t.registry.draining with
    | true =>
        exact .inr (by
          simpa [HookHost.Drained, HookHost.Ended, Registry.isTerminal] using hstarts)
    | false => simp [hstarts] at h

theorem drained_of_act {actions : List Action} {thread : Thread}
    (h : t.act actions = (t₁, .thread thread)) (hmem : .drain ∈ t₁.jobs) :
    .drain ∈ t.jobs ∨ (host limit).Drained t := by
  cases actions with
  | nil => cases h
  | cons action rest =>
      cases action with
      | register onCall actions =>
          cases h
          exact drained_of_register hmem
      | terminate s =>
          simp only [act, Prod.mk.injEq] at h
          obtain ⟨rfl, -⟩ := h
          exact .inl hmem
      | panic p => cases h
      | fail report => cases h
      | _ =>
          cases h
          exact .inl hmem

section Collecting

variable (hstep : (clockwork limit).Step es v e v')

include hstep

theorem returned_of_step (h : (host limit).Returned es v) : (host limit).Returned es v' :=
  (HookHost.lasting_returned es).run (Clockwork.run_single hstep.fire) h

namespace Collects

variable (h : Collects limit es v)

include h

theorem of_late (hjobs : .drain ∈ v'.jobs → .drain ∈ v.jobs ∨ (host limit).Drained v)
    (hmem : .drain ∈ v'.jobs) : (host limit).Returned es v' := by
  refine returned_of_step hstep ?_
  rcases hjobs hmem with hmem | hdrained
  · exact h.late hmem
  · exact hdrained.returned hstep.left

theorem of_same (hjobs : .drain ∈ v'.jobs → .drain ∈ v.jobs ∨ (host limit).Drained v)
    (hdrain : v'.drain = v.drain) (hfailures : v'.registry.failures = v.registry.failures) :
    Collects limit es v' := by
  refine ⟨h.of_late hstep hjobs, ?_⟩
  intro hnot owner d hd
  rw [hfailures]
  exact h.failures (fun hv => hnot (returned_of_step hstep hv)) owner d (hdrain.symm.trans hd)

/-- When the flow ends, no hook has failed yet. -/
theorem terminate {a : Activity} {jobs : List Job} {owner : Owner} {s : FlowState}
    (hsound : v.registry.Sound a)
    (hv' : v' = (({ v with jobs := jobs } : Trial).terminate owner s).1)
    (hjobs : .drain ∈ jobs → .drain ∈ v.jobs) : Collects limit es v' := by
  have hjobs' (hmem : .drain ∈ v'.jobs) : .drain ∈ v.jobs ∨ (host limit).Drained v := by
    rw [hv'] at hmem
    exact .inl (hjobs hmem)
  have hfailures : v'.registry.failures = v.registry.failures := by simp [hv', Trial.terminate]
  cases hstarts : (v.registry.terminate s).2 with
  | false =>
      exact h.of_same hstep hjobs' (by simp [hv', Trial.terminate, hstarts]) hfailures
  | true =>
      refine ⟨h.of_late hstep hjobs', ?_⟩
      intro _ owner' d hd
      have hfresh : v'.drain = some (owner, .fresh) := by simp [hv', Trial.terminate, hstarts]
      obtain ⟨-, rfl⟩ := Prod.mk.inj (Option.some.inj (hfresh.symm.trans hd))
      have hopen : v.registry.terminal = none := by
        cases hterm : v.registry.terminal with
        | none => rfl
        | some s' => simp [Registry.terminate, Registry.isTerminal, hterm] at hstarts
      have hnone : v.registry.failures = [] := by
        refine List.eq_nil_iff_forall_not_mem.mpr fun f hf => ?_
        have := hsound.failed f hf
        rw [hsound.early hopen] at this
        cases this
      rw [hfailures, hnone]
      rfl

theorem drain (hgoes : v.goOn = some v') : Collects limit es v' := by
  obtain ⟨owner, d, hd, hgoes⟩ := goOn_cases hgoes
  have hknown (hnot : ¬(host limit).Returned es v') : d.failures = v.registry.failures :=
    h.failures (fun hv => hnot (returned_of_step hstep hv)) owner d hd
  cases hgoes with
  | leaves _ _ _ => exact ⟨h.of_late hstep .inl, fun _ _ _ hd' => by cases hd'⟩
  | breaks _ _ _ => exact ⟨h.of_late hstep .inl, fun _ _ _ hd' => by cases hd'⟩
  | takes _ _ _ =>
      refine ⟨h.of_late hstep .inl, ?_⟩
      rintro hnot owner' d' ⟨⟩
      simpa [Drain.run] using hknown hnot
  | acts _ _ hact =>
      refine ⟨h.of_late hstep fun hmem => drained_of_act hact hmem, ?_⟩
      rintro hnot owner' d' ⟨⟩
      have hkept := (act_thread hact).1.failures
      simpa [Drain.run, hkept] using hknown hnot
  | ends _ _ =>
      refine ⟨h.of_late hstep .inl, ?_⟩
      rintro hnot owner' d' ⟨⟩
      simp [Registry.record, hknown hnot]

end Collects

end Collecting

theorem collects_of_visits (hx : Chronicle.empty.run ((start limit).tale es) = some x)
    (hv : (clockwork limit).Visits es v) : Collects limit es v := by
  refine hv.induction (P := Collects limit es)
    ⟨by simp [start], fun _ _ _ hd => by cases hd⟩ ?_
  intro v e v' hstep h
  have hfire := hstep.fire
  cases e with
  | register hook =>
      obtain rfl := Option.some.inj hfire
      exact h.of_same hstep drained_of_register rfl rfl
  | terminate s =>
      obtain ⟨a, hsound, -⟩ := sound_of_visits hx hstep.left
      exact h.terminate hstep hsound (Option.some.inj hfire).symm id
  | terminateLater s =>
      obtain rfl := Option.some.inj hfire
      exact h.of_same hstep (fun hmem => .inl (by simpa [terminateLater] using hmem)) rfl rfl
  | begin =>
      obtain ⟨a, hsound, -⟩ := sound_of_visits hx hstep.left
      simp only [happen, beginJob] at hfire
      split at hfire
      · cases hfire
      · next s rest hjobs =>
          refine h.terminate hstep hsound (Option.some.inj hfire).symm fun hmem => ?_
          exact hjobs ▸ List.mem_cons_of_mem _ hmem
      · next rest hjobs =>
          have hlate := returned_of_step hstep (h.late (hjobs ▸ List.mem_cons_self))
          exact ⟨fun _ => hlate, fun hnot => absurd hlate hnot⟩
  | drain => exact h.drain hstep hfire
  | clock moment =>
      simp only [happen, Option.ite_none_right_eq_some, Option.some.injEq] at hfire
      obtain ⟨-, rfl⟩ := hfire
      exact h.of_same hstep .inl rfl rfl

/-- Where no drain is under way after the flow was ended again, none was before. -/
theorem drained_of_terminate {jobs : List Job} {owner : Owner} {s : FlowState}
    (h : (host limit).Drained (({ t with jobs := jobs } : Trial).terminate owner s).1) :
    (host limit).Drained t := by
  obtain ⟨-, hdraining⟩ := h
  cases hterm : t.registry.terminal with
  | some s' =>
      simp only [terminate, Registry.terminate, Registry.isTerminal, hterm, Option.isSome_some,
        if_true] at hdraining
      exact ⟨by simp [HookHost.Ended, hterm], hdraining⟩
  | none =>
      cases hd : t.registry.draining <;>
        simp [terminate, Registry.terminate, Registry.isTerminal, hterm, hd] at hdraining

/-- In the step after which no drain is under way for the first time, the drain that was begun at the
end of the flow gives all failures. -/
theorem answer_of_step (hx : Chronicle.empty.run ((start limit).tale es) = some x)
    (hstep : (clockwork limit).Step es v e v') (hnot : ¬(host limit).Returned es v)
    (hdrained : (host limit).Drained v') :
    ∃ owner d t₁, v.drain = some (owner, d) ∧
      v.stepDrain d = some (t₁, .drained v'.registry.failures) := by
  have hfire := hstep.fire
  have hbefore (h : (host limit).Drained v) : False := hnot (h.returned hstep.left)
  cases e with
  | register hook =>
      obtain rfl := Option.some.inj hfire
      obtain ⟨hterm, hdraining⟩ := hdrained
      simp only [register, Registry.register, Bool.or_eq_false_iff] at hdraining
      exact (hbefore ⟨hterm, hdraining.1⟩).elim
  | terminate s =>
      obtain rfl := Option.some.inj hfire
      exact (hbefore (drained_of_terminate hdrained)).elim
  | terminateLater s =>
      obtain rfl := Option.some.inj hfire
      exact (hbefore hdrained).elim
  | begin =>
      simp only [happen, beginJob] at hfire
      split at hfire
      · cases hfire
      · obtain rfl := Option.some.inj hfire
        exact (hbefore (drained_of_terminate hdrained)).elim
      · obtain rfl := Option.some.inj hfire
        exact (hbefore hdrained).elim
  | drain =>
      obtain ⟨owner, d, hd, hgoes⟩ := goOn_cases hfire
      -- As long as a drain is under way, the registry says so.
      have hgone (owner' : Owner) (d' : Drain Thread) (hd' : v'.drain = some (owner', d')) : False := by
        have hdraining := draining_of_drain hx hstep.right hd'
        rw [show v'.registry.draining = false from hdrained.2] at hdraining
        cases hdraining
      cases hgoes with
      | leaves _ _ hstepDrain =>
          refine ⟨owner, d, { v with registry := v.registry.next?.1 }, hd, ?_⟩
          rw [hstepDrain, (collects_of_visits hx hstep.left).failures hnot owner d hd]
          simp
      | breaks _ hn _ =>
          have hdraining := draining_of_drain hx hstep.left hd
          have hsame : v.registry.next?.1.draining = v.registry.draining := by
            unfold Registry.next? at hn ⊢
            split at hn
            · cases hn
            · rfl
          rw [← hsame, show v.registry.next?.1.draining = false from hdrained.2] at hdraining
          cases hdraining
      | takes _ _ _ => exact (hgone _ _ rfl).elim
      | acts _ _ _ => exact (hgone _ _ rfl).elim
      | ends _ _ => exact (hgone _ _ rfl).elim
  | clock moment =>
      simp only [happen, Option.ite_none_right_eq_some, Option.some.injEq] at hfire
      obtain ⟨-, rfl⟩ := hfire
      exact (hbefore hdrained).elim

/-- A step of the drain that logs something, or registers a hook, is one of a hook under way. -/
theorem running_of_acts (h : t.goOn = some t')
    (hacts : t'.log ≠ t.log ∨ t'.registry.registered ≠ t.registry.registered) :
    ∃ r, t.running? = some r := by
  obtain ⟨owner, d, hd, hgoes⟩ := goOn_cases h
  rw [running?_of_drain hd]
  cases hgoes with
  | leaves _ _ _ => simp at hacts
  | breaks _ _ _ => simp at hacts
  | takes _ _ _ => simp at hacts
  | acts hr _ _ => exact ⟨_, hr⟩
  | ends hr _ => exact ⟨_, hr⟩

/-! ## The times of a trial -/

/-- In a run, which leads to `t` and has the chronicle `x`, hooks keep to their times. -/
structure OnSchedule (limit : Duration) (es : List Happening) (t : Trial)
    (x : Chronicle Hook Unit) : Prop where
  timetable : (host limit).Timetable es t (courses x)
  /-- A hook that does not panic in its call is under way until it ends. -/
  attended : ∀ i h, x.bodies[i]? = some h → h.onCall = none → (host limit).Attended es i
  /-- One that does never ends. -/
  broken : ∀ i h, x.bodies[i]? = some h → h.onCall.isSome →
    ∀ v, (clockwork limit).Visits es v → ¬(host limit).Finished i v
  /-- Whatever a hook logs or registers, it does in its time. -/
  acts : ∀ v v', (clockwork limit).Step es v .drain v' →
    v'.log ≠ v.log ∨ v'.registry.registered ≠ v.registry.registered →
    ∃ r m, v.running? = some r ∧ (clockwork limit).Since es ((host limit).Started r.index) m ∧
      v.clock ≤ m + (courses x r.index).span limit.ticks
  /-- Whoever has ended the flow is given all failures when no drain is under way any more. -/
  answer : ∀ v e v', (clockwork limit).Step es v e v' → ¬(host limit).Returned es v →
    (host limit).Drained v' → ∃ owner d t₁, v.drain = some (owner, d) ∧
      v.stepDrain d = some (t₁, .drained v'.registry.failures)

/-- In a punctual run of a trial, the hooks keep to their times. -/
theorem onSchedule_of_run (hrun : (start limit).run es = some t)
    (hpunctual : (clockwork limit).Punctual (start limit) es)
    (hx : Chronicle.empty.run ((start limit).tale es) = some x)
    (hapart : ∀ h ∈ x.bodies, (alone h.actions).1 ≠ limit.ticks) : OnSchedule limit es t x where
  timetable := (fair hx hpunctual hapart).timetable hrun
  attended _ _ hi hcall := attended_of_called hx hi hcall
  broken := by
    intro i h hi hcall v hv hfinished
    obtain ⟨y, htold, hprefix⟩ := told_of_visits hx hv
    obtain ⟨h', hbody, hnone⟩ := htold.called i hfinished
    obtain rfl := Option.some.inj (hi.symm.trans (body_of_known hprefix hbody))
    simp [hnone] at hcall
  acts := by
    intro v v' hstep hacts
    obtain ⟨r, hr⟩ := running_of_acts hstep.fire hacts
    obtain ⟨m, hm, -, hle⟩ := (fair hx hpunctual hapart).within hstep.left hr
    exact ⟨r, m, hr, hm, hle⟩
  answer _ _ _ hstep hnot hdrained := answer_of_step hx hstep hnot hdrained

end Trial

end StageGraph.Hooks
