/-
# `StageGraph.Proofs.FlowHookTimes` — when the hooks of a flow start and end

A completer runs the hooks of a flow as a host should (`World.fair`), so they keep to their
timetable, and whoever waits for the end of the flow is told of it when its drain is over.

The body of a hook is any program.  How long it takes follows from what it waits for: it sleeps up
to a moment, or it waits for a stage, which ends at some time of the run, or at none
(`World.Wakes`).  What it does then may depend on the answer to its question, so the course of a
hook is that of the program which it is in this run (`World.Lasts`).  If a stage ends just when a
thread gives it up, the order of the tasks at that moment decides, and the thread has no course.
-/
import StageGraph.Proofs.CompletionTimes
import StageGraph.Proofs.FlowHooks
import StageGraph.Proofs.TrialTimes

namespace StageGraph

open Hooks (Course HookHost Running)

/-- A stage for which the thread waits is there. -/
def Thread.Known {κ : Type} (w : World) : Thread κ → Prop
  | onStage m n _ _ => (w.stage? m n).isSome
  | _ => True

/-- The program takes so many ticks by itself and ends in this way, whatever it is answered, and it
waits only for the clock. -/
inductive Program.Takes : FlowProgram bodySignature Outcome → Nat → Hooks.Ending → Prop
  | ends {p : FlowProgram bodySignature Outcome} {o : Outcome} : Graph.Ends p o →
      Program.Takes p 0 (hookEnding o)
  | sleep {span : Duration} {next : Unit → FlowProgram bodySignature Outcome} {d : Nat}
      {e : Hooks.Ending} : Program.Takes (next ()) d e →
      Program.Takes (.ask (.sleep span) next) (span.ticks + d) e
  | atOnce {q : Question bodySignature} {next : q.Answer → FlowProgram bodySignature Outcome}
      {d : Nat} {e : Hooks.Ending} : q.AtOnce → (∀ x, Program.Takes (next x) d e) →
      Program.Takes (.ask q next) d e

namespace World

open Clockwork
open StageGraph.Graph (Ends HooksKept NoneEnded)

variable {c : Completer} {es : List Event} {w v v' u : World} {e : Event} {flow k m n a b x : Nat}
  {t : BodyThread} {p p' : FlowProgram bodySignature Outcome} {o o' : Outcome} {course : Course}

/-! ## How long a body takes -/

section Courses

variable (c : Completer) (es : List Event)

/-- In the run, a thread that begins to wait at the moment `a` goes on at the moment `b`, with this
program. -/
inductive Wakes (a : Nat) : BodyThread → Nat → FlowProgram bodySignature Outcome → Prop
  | going (p : FlowProgram bodySignature Outcome) : Wakes a (.going p) a p
  | asleep (alarm : Alarm (FlowProgram bodySignature Outcome)) :
      Wakes a (.asleep alarm) (max a alarm.moment) alarm.next
  /-- It waits for a stage that ends before it is given up. -/
  | told {m n y : Nat} {o : Outcome} {next : Outcome → FlowProgram bodySignature Outcome}
      {alarm : Option (Alarm (FlowProgram bodySignature Outcome))} : CompletesAt c es m n y →
      (∃ v, Visits c es v ∧ v.outcome? m n = some o) → (∀ al ∈ alarm, y < max a al.moment) →
      Wakes a (.onStage m n next alarm) (max a y) (next o)
  /-- It gives up a stage that ends later, if ever. -/
  | late {m n : Nat} {next : Outcome → FlowProgram bodySignature Outcome}
      {alarm : Alarm (FlowProgram bodySignature Outcome)} :
      (∀ y, CompletesAt c es m n y → max a alarm.moment < y) →
      Wakes a (.onStage m n next (some alarm)) (max a alarm.moment) alarm.next

/-- In the run, the course that a hook of the flow takes as a thread that begins to wait at a
moment. -/
inductive Lasts (flow : Nat) : Nat → BodyThread → Course → Prop
  | ends {a b : Nat} {t : BodyThread} {p : FlowProgram bodySignature Outcome} {o : Outcome} :
      Wakes c es a t b p → Ends p o → Lasts flow a t (some (b - a, hookEnding o))
  /-- After a question it goes on as the answer has it. -/
  | asks {a b : Nat} {t : BodyThread} {q : Question bodySignature}
      {next : q.Answer → FlowProgram bodySignature Outcome} {course : Course} :
      Wakes c es a t b (.ask q next) →
      (∀ k v v', (clockwork c).Step es v (.task (.hooks flow k)) v' → v.clock = b →
        v.hookThread? flow k = some t → Lasts flow b ((v.pose c q).2.map next) course) →
      Lasts flow a t (course.startingAt (b - a))
  | never {a m n : Nat} {next : Outcome → FlowProgram bodySignature Outcome} :
      (∀ y, ¬CompletesAt c es m n y) → Lasts flow a (.onStage m n next none) none

end Courses

/-- A stage has the same result in all states of a run. -/
theorem outcome_of_visits (hu : Visits c es u) (hv : Visits c es v) (ho : u.outcome? m n = some o)
    (ho' : v.outcome? m n = some o') : o = o' := by
  rcases hu.linked hv with hpasses | hpasses
  · obtain ⟨middle, hrun⟩ := hpasses.run
    exact Option.some.inj ((outcome?_of_run hrun ho).symm.trans ho')
  · obtain ⟨middle, hrun⟩ := hpasses.run
    exact Option.some.inj (ho.symm.trans (outcome?_of_run hrun ho'))

/-- A stage that has a result in a state has ended at some time until then. -/
theorem completesAt_of_outcome (hv : Visits c es v) (ho : v.outcome? m n = some o) :
    ∃ y, CompletesAt c es m n y ∧ y ≤ v.clock :=
  exists_since (K := clockwork c) (P := Ended m n) hv (Option.isSome_iff_exists.mpr ⟨o, ho⟩)

namespace Wakes

theorem le (h : Wakes c es a t b p) : a ≤ b := by
  cases h with
  | going _ => exact Nat.le_refl _
  | _ => exact Nat.le_max_left _ _

/-- A thread that goes on, and is not late, does so at this moment, and with this program. -/
theorem resumed (h : Wakes c es a t b p) (hv : Visits c es v) (ha : a ≤ v.clock)
    (hb : v.clock ≤ b) (hp : v.resume? t = some p') : v.clock = b ∧ p' = p := by
  cases h with
  | going _ => exact ⟨Nat.le_antisymm hb ha, (Option.some.inj hp).symm⟩
  | asleep alarm =>
      obtain ⟨hdue, rfl⟩ := fired?_eq_some.mp hp
      exact ⟨Nat.le_antisymm hb (Nat.max_le.mpr ⟨ha, hdue⟩), rfl⟩
  | @told m n y o next alarm hy ho hearly =>
      cases houtcome : v.outcome? m n with
      | some o' =>
          obtain ⟨u, hu, ho⟩ := ho
          obtain rfl := outcome_of_visits hu hv ho houtcome
          have hended : Ended m n v := Option.isSome_iff_exists.mpr ⟨_, houtcome⟩
          have hle : y ≤ v.clock := hy.le hv hended
          simp only [resume?, Thread.resume?, houtcome, Option.some.injEq] at hp
          exact ⟨Nat.le_antisymm hb (Nat.max_le.mpr ⟨ha, hle⟩), hp.symm⟩
      | none =>
          -- The alarm would have to go off before the stage has ended.
          simp only [resume?, Thread.resume?, houtcome] at hp
          obtain ⟨al, hal, hfired⟩ := Option.bind_eq_some_iff.mp hp
          obtain ⟨hdue, -⟩ := fired?_eq_some.mp hfired
          have hlt : y < v.clock := Nat.lt_of_lt_of_le (hearly al hal) (Nat.max_le.mpr ⟨ha, hdue⟩)
          have hended : Ended m n v := hy.holds (lasting_ended m n) hv hlt
          simp [Ended, houtcome] at hended
  | @late m n next alarm hlate =>
      cases houtcome : v.outcome? m n with
      | some o =>
          obtain ⟨y, hy, hle⟩ := completesAt_of_outcome hv houtcome
          exact absurd (hle.trans hb) (Nat.not_le_of_lt (hlate y hy))
      | none =>
          simp only [resume?, Thread.resume?, houtcome, Option.bind_some] at hp
          obtain ⟨hdue, rfl⟩ := fired?_eq_some.mp hp
          exact ⟨Nat.le_antisymm hb (Nat.max_le.mpr ⟨ha, hdue⟩), rfl⟩

/-- A thread that cannot go on where everything has settled is to go on later. -/
theorem due (h : Wakes c es a t b p) (hv : Visits c es v) (hidle : v.Idle c)
    (hknown : t.Known v) (hb : v.clock ≤ b) (hnone : v.resume? t = none) :
    v.clock < b := by
  refine Nat.lt_of_le_of_ne hb fun heq => ?_
  cases h with
  | going _ => cases hnone
  | asleep alarm =>
      have hdue : alarm.moment ≤ v.clock := heq ▸ Nat.le_max_right _ _
      have hsome : v.resume? (.asleep alarm) = some alarm.next := fired?_eq_some.mpr ⟨hdue, rfl⟩
      rw [hnone] at hsome
      cases hsome
  | @told m n y o next alarm hy ho hearly =>
      have hnot : ¬Ended m n v := by
        intro hended
        obtain ⟨o', ho'⟩ := Option.isSome_iff_exists.mp hended
        simp [resume?, Thread.resume?, ho'] at hnone
      -- The stage ends at this moment, and until it is over nothing ends any more.
      obtain ⟨u, hu, hended, rfl⟩ := hy.1
      rcases hu.linked hv with hpasses | hpasses
      · exact hnot ((lasting_ended m n).passes hpasses hended)
      · have hle : v.clock ≤ u.clock := hpasses.clock_le
        have hge : u.clock ≤ v.clock := heq ▸ Nat.le_max_right a u.clock
        obtain ⟨middle, hrun⟩ := hpasses.run
        have hstill := hidle.still hv.reachable hrun (Nat.le_antisymm hge hle)
        rw [Ended, hstill.outcome hknown] at hended
        exact hnot hended
  | @late m n next alarm hlate =>
      have hdue : alarm.moment ≤ v.clock := heq ▸ Nat.le_max_right _ _
      have hfired : alarm.fired? v.clock = some alarm.next := fired?_eq_some.mpr ⟨hdue, rfl⟩
      cases houtcome : v.outcome? m n <;>
        simp [resume?, Thread.resume?, houtcome, hfired] at hnone

/-- Time does not pass beyond the moment at which a thread is to go on. -/
theorem clock_le {moment : Nat} (h : Wakes c es a t b p)
    (hstep : (clockwork c).Step es v (.clock moment) v') (hclock : v'.clock = moment)
    (hwaits : ∀ al ∈ t.alarm?, moment ≤ al.moment) (hnone : v.resume? t = none) :
    v'.clock ≤ b := by
  rw [hclock]
  cases h with
  | going _ => cases hnone
  | asleep alarm => exact (hwaits alarm rfl).trans (Nat.le_max_right _ _)
  | @told m n y o next alarm hy ho hearly =>
      refine Nat.le_trans ?_ (Nat.le_max_right a y)
      obtain ⟨u, hu, hended, rfl⟩ := hy.1
      rcases hstep.parts hu with hpasses | hpasses
      · have hthere : Ended m n v := (lasting_ended m n).passes hpasses hended
        obtain ⟨o', ho'⟩ := Option.isSome_iff_exists.mp hthere
        simp [resume?, Thread.resume?, ho'] at hnone
      · exact hclock ▸ hpasses.clock_le
  | @late m n next alarm hlate => exact (hwaits alarm rfl).trans (Nat.le_max_right _ _)

end Wakes

/-- A thread that waits for a stage for ever, which does not end, cannot go on. -/
theorem resume?_of_never {next : Outcome → FlowProgram bodySignature Outcome}
    (h : ∀ y, ¬CompletesAt c es m n y) (hv : Visits c es v) :
    v.resume? (.onStage m n next none) = none := by
  cases houtcome : v.outcome? m n with
  | none => simp [resume?, Thread.resume?, houtcome]
  | some o =>
      obtain ⟨y, hy, -⟩ := completesAt_of_outcome hv houtcome
      exact absurd hy (h y)

/-- A body that waits only for the clock takes its time in every run. -/
theorem lasts_of_takes {d : Nat} {e : Hooks.Ending} (h : p.Takes d e)
    (hwakes : Wakes c es a t b p) : Lasts c es flow a t (some (b - a + d, e)) := by
  induction h generalizing a b t with
  | ends hends => exact .ends hwakes hends
  | @sleep span next d e _ ih =>
      have hrest : (some (b - a + (span.ticks + d), e) : Course) =
          Course.startingAt (b - a) (some (span.ticks + d, e)) := rfl
      rw [hrest]
      refine .asks hwakes fun k v v' _ hclock _ => ?_
      have hasleep : Wakes c es b (.asleep ⟨v.after span, next ()⟩) (b + span.ticks) (next ()) := by
        have hmoment : b + span.ticks = max b (v.after span) := by
          rw [after, hclock, max_eq_right (Nat.le_add_right _ _)]
        rw [hmoment]
        exact .asleep ⟨v.after span, next ()⟩
      have hlasts := ih hasleep
      rwa [Nat.add_sub_cancel_left] at hlasts
  | @atOnce q next d e hq _ ih =>
      have hrest : (some (b - a + d, e) : Course) = Course.startingAt (b - a) (some (d, e)) := rfl
      rw [hrest]
      refine .asks hwakes fun k v v' _ _ _ => ?_
      obtain ⟨x, hx⟩ := pose_atOnce (c := c) (w := v) hq
      have hgoing : Wakes c es b (.going (next x)) b (next x) := .going _
      have hlasts := ih x hgoing
      rw [Nat.sub_self, Nat.zero_add] at hlasts
      rw [hx]
      exact hlasts

/-! ## The hook under way -/

/-- A completer as a host of the hooks of a flow. -/
abbrev hookHost (c : Completer) (flow : Nat) : HookHost World Event Closure BodyThread where
  clockwork := clockwork c
  registry v := (v.graphAt c flow).hooks
  running v := (v.graphAt c flow).running?
  limit := c.hookLimit

/-- A thread under way has begun to wait at some moment with the rest of its course, and it is not
late. -/
def Pace (c : Completer) (es : List Event) (flow : Nat) (v : World) (t : BodyThread)
    (x : Course) : Prop :=
  t.Known v ∧ ∃ a course, Lasts c es flow a t course ∧ x = course.startingAt a ∧ a ≤ v.clock ∧
    ∀ b p, Wakes c es a t b p → v.clock ≤ b

theorem startingAt_startingAt (hle : a ≤ b) :
    (course.startingAt (b - a)).startingAt a = course.startingAt b := by
  cases course with
  | none => rfl
  | some y =>
      simp only [Course.startingAt, Option.map_some, Option.some.injEq, Prod.mk.injEq, and_true]
      omega

section Settled

variable {d : Hooks.Drain BodyThread} {publish : Option FlowState} {r : Running BodyThread}

theorem Idle.drainMoveAt (h : v.Idle c)
    (hk : (v.graphAt c flow).hookTasks[k]? = some (.draining d publish)) :
    ∃ g, v.graph? flow = some g ∧ v.graphAt c flow = g ∧ v.drainMove? c g d = none := by
  cases hg : v.graph? flow with
  | none => simp [graphAt, hg, Graph.new] at hk
  | some g =>
      rw [graphAt_of_graph hg] at hk
      exact ⟨g, rfl, graphAt_of_graph hg, h.drainMove? hg hk⟩

/-- Where everything has settled, the hook under way cannot go on, its time is not over, and its
drain waits for the moments at which it may go on or be cut off. -/
theorem Idle.hook (h : v.Idle c) (hr : (v.graphAt c flow).running? = some r) :
    v.resume? r.thread = none ∧ v.clock < r.limit ∧
      ∃ k, ∀ moment ∈ r.limit :: (r.thread.alarm?.map Alarm.moment).toList,
        moment ∈ v.momentsOf (.hooks flow k) := by
  obtain ⟨d, hd, hdr⟩ := Option.bind_eq_some_iff.mp hr
  obtain ⟨task, htask, hdrain⟩ := List.mem_filterMap.mp (List.mem_of_head? hd)
  obtain ⟨k, hk⟩ := List.mem_iff_getElem?.mp htask
  cases task with
  | draining d' publish =>
      obtain rfl := Option.some.inj hdrain
      obtain ⟨g, hg, hat, hnone⟩ := h.drainMoveAt hk
      rw [hat] at hk
      rw [← Option.not_isSome_iff_eq_none, drainMove?_isSome] at hnone
      have hstuck : ¬((v.resume? r.thread).isSome ∨ r.limit ≤ v.clock) := by
        intro h
        refine hnone fun r' hr' => ?_
        obtain rfl := Option.some.inj (hdr.symm.trans hr')
        exact h
      rw [not_or, Option.not_isSome_iff_eq_none, Nat.not_le] at hstuck
      refine ⟨hstuck.1, hstuck.2, k, ?_⟩
      intro moment hmoment
      simpa [momentsOf, hg, hk, drainMoments, hdr] using hmoment
  | _ => cases hdrain

/-- Where everything has settled, no drain is between two hooks. -/
theorem Idle.not_between (h : v.Idle c) (hv : v.Reachable c) :
    ¬(v.graphAt c flow).hooks.Sound .between := by
  intro hbetween
  obtain ⟨a, horderly⟩ := orderly_graphAt hv flow
  obtain ⟨k, d, publish, hk, hd⟩ := horderly.task_of_between (horderly.hooks.unique hbetween)
  obtain ⟨g, -, -, hnone⟩ := h.drainMoveAt hk
  have hsome : (v.drainMove? c g d).isSome := drainMove?_isSome.mpr fun r hr => by simp [hd] at hr
  rw [hnone] at hsome
  cases hsome

end Settled

/-! ## A completer as a host -/

theorem known_thread_of_fire (h : v.fire c e = some v') (ht : t.Known v) : t.Known v' := by
  cases t with
  | onStage m n next alarm => exact isSome_stage_of_fire h ht
  | _ => trivial

theorem ends_unique (h : Ends p o) (h' : Ends p o') : o = o' := by
  cases h <;> cases h' <;> rfl

section Steps

variable (hpunctual : World.empty.Punctual c es)

include hpunctual

/-- A step that leaves hooks alone leaves the hook under way on its course. -/
theorem effect_of_kept {courses : Nat → Course} (hstep : (clockwork c).Step es v e v')
    (hkept : HooksKept (v.graphAt c flow) (v'.graphAt c flow)) :
    (hookHost c flow).Effect courses (Pace c es flow) v v' := by
  have hfire : v.fire c e = some v' := hstep.fire
  have hle := clock_le_of_fire hfire
  rcases clock_of_fire hfire with hsame | ⟨rfl, -⟩
  · refine .none hkept.running hkept.completed hkept.failures ?_ ?_
    · intro r _ hlimit
      exact hsame.le.trans hlimit
    · rintro r x - ⟨hknown, a, course, hlasts, rfl, ha, hwakes⟩
      exact ⟨known_thread_of_fire hfire hknown, a, course, hlasts, rfl, ha.trans hle,
        fun b p hb => hsame.le.trans (hwakes b p hb)⟩
  · obtain ⟨hidle, hwaits⟩ := hstep.punctual hpunctual rfl
    refine .none hkept.running hkept.completed hkept.failures ?_ ?_
    · intro r hr _
      obtain ⟨-, -, k, hmoments⟩ := Idle.hook hidle hr
      exact hwaits _ ⟨_, hmoments _ List.mem_cons_self⟩
    · rintro r x hr ⟨hknown, a, course, hlasts, rfl, ha, -⟩
      obtain ⟨hnone, -, k, hmoments⟩ := Idle.hook hidle hr
      refine ⟨known_thread_of_fire hfire hknown, a, course, hlasts, rfl,
        ha.trans hle, fun b p hb => ?_⟩
      refine hb.clock_le hstep rfl ?_ hnone
      intro al hal
      refine hwaits _ ⟨_, hmoments _ (List.mem_cons_of_mem _ ?_)⟩
      simp [Option.mem_def.mp hal]

omit hpunctual

/-- A thread that goes on as a program that ends has this as its course. -/
theorem Lasts.eq_of_ends (h : Lasts c es flow a t course) (hv : Visits c es v) (ha : a ≤ v.clock)
    (hwakes : ∀ b p, Wakes c es a t b p → v.clock ≤ b) (hp : v.resume? t = some p)
    (hends : Ends p o) : course.startingAt a = some (v.clock, hookEnding o) := by
  cases h with
  | @ends _ b _ p' o' hb hends' =>
      obtain ⟨hclock, rfl⟩ := hb.resumed hv ha (hwakes _ _ hb) hp
      obtain rfl := ends_unique hends hends'
      simp only [Course.startingAt, Option.map_some, Option.some.injEq, Prod.mk.injEq, and_true]
      omega
  | asks hb _ =>
      obtain ⟨-, rfl⟩ := hb.resumed hv ha (hwakes _ _ hb) hp
      cases hends
  | never hnever =>
      rw [resume?_of_never hnever hv] at hp
      cases hp

/-- A thread that goes on with a question has the rest of its course with the answer. -/
theorem Lasts.next {q : Question bodySignature}
    {next : q.Answer → FlowProgram bodySignature Outcome} (h : Lasts c es flow a t course)
    (hstep : (clockwork c).Step es v (.task (.hooks flow k)) v') (ha : a ≤ v.clock)
    (hwakes : ∀ b p, Wakes c es a t b p → v.clock ≤ b) (hk : v.hookThread? flow k = some t)
    (hp : v.resume? t = some (.ask q next)) :
    ∃ course', Lasts c es flow v.clock ((v.pose c q).2.map next) course' ∧
      course.startingAt a = course'.startingAt v.clock := by
  have hv := hstep.left
  cases h with
  | ends hb hends =>
      obtain ⟨-, rfl⟩ := hb.resumed hv ha (hwakes _ _ hb) hp
      cases hends
  | @asks _ b _ q' next' course' hb hrest =>
      obtain ⟨hclock, hsame⟩ := hb.resumed hv ha (hwakes _ _ hb) hp
      cases hsame
      refine ⟨course', hclock ▸ hrest k v v' hstep hclock hk, ?_⟩
      rw [startingAt_startingAt hb.le, hclock]
  | never hnever =>
      rw [resume?_of_never hnever hv] at hp
      cases hp

/-- A step of the drain does to the hook under way what it should. -/
theorem effect_of_drainStep {courses : Nat → Course}
    (hstarted : ∀ index r, (flow, .hookStarted index r) ∈ v.deeds c (.task (.hooks flow k)) →
      Lasts c es flow v.clock (.going (c.catalog.invoke r)) (courses index))
    (hstep : (clockwork c).Step es v (.task (.hooks flow k)) v') (h : DrainStep c flow k v v') :
    (hookHost c flow).Effect courses (Pace c es flow) v v' := by
  have hfire : v.fire c (.task (.hooks flow k)) = some v' := hstep.fire
  have hclock : v'.clock = v.clock := by
    rcases clock_of_fire hfire with hsame | ⟨he, -⟩
    · exact hsame
    · cases he
  cases h with
  | leaves hr hr' hcompleted hfailures _ _ =>
      refine .none (hr'.trans hr.symm) hcompleted hfailures ?_ ?_
      · intro r _ hlimit
        exact hclock.le.trans hlimit
      · intro r x hsome
        cases hr.symm.trans hsome
  | starts index r hdeed hindex hr' hsame =>
      refine .starts _ hr' ?_ hsame.completed hsame.failures ?_ ?_
      · exact fun hlt => absurd hindex (Nat.ne_of_lt hlt)
      · show v.after c.hookLimit = v'.clock + c.hookLimit.ticks
        rw [hclock, after]
      · refine ⟨trivial, v'.clock, courses index, hclock ▸ hstarted index r hdeed, rfl,
          Nat.le_refl _, ?_⟩
        intro b p hb
        exact hb.le
  | asks r q next hr hk hresume hr' hsame =>
      refine .goes r _ hr hr' hsame.completed hsame.failures hclock ?_
      rintro x ⟨-, a, course, hlasts, rfl, ha, hwakes⟩
      obtain ⟨course', hrest, hcourse⟩ := hlasts.next hstep ha hwakes hk hresume
      refine ⟨?_, v.clock, course', hrest, hcourse, hclock.ge, ?_⟩
      · cases hx : (v.pose c q).2 with
        | onStage m n answer alarm =>
            exact isSome_stage_of_fire hfire (isSome_stage_of_pose hx)
        | _ => trivial
      · intro b p hb
        exact hclock.le.trans hb.le
  | ends r e hr hends hr' hcompleted hfailures _ =>
      refine .ends r e hr hr' hcompleted hfailures hclock ?_
      rcases hends with ⟨p, o, hresume, hends, rfl⟩ | ⟨hlimit, rfl⟩
      · refine .inl ?_
        rintro x ⟨-, a, course, hlasts, rfl, ha, hwakes⟩
        exact hlasts.eq_of_ends hstep.left ha hwakes hresume hends
      · exact .inr ⟨rfl, hlimit⟩

end Steps

/-- A thread whose course ends goes on at some moment until then. -/
theorem Lasts.wakes {e : Hooks.Ending} (h : Lasts c es flow a t course)
    (hx : some (x, e) = course.startingAt a) : ∃ b p, Wakes c es a t b p ∧ b ≤ x := by
  cases h with
  | @ends _ b _ p o hb _ =>
      have hle := hb.le
      simp only [Course.startingAt, Option.map_some, Option.some.injEq, Prod.mk.injEq] at hx
      exact ⟨b, p, hb, by omega⟩
  | @asks _ b _ q next course' hb _ =>
      rw [startingAt_startingAt hb.le] at hx
      obtain ⟨y, -, hy⟩ := Option.map_eq_some_iff.mp hx.symm
      obtain ⟨rfl, -⟩ := Prod.mk.inj hy
      exact ⟨b, .ask q next, hb, Nat.le_add_right _ _⟩
  | never _ => cases hx

/-- The drain of a flow that has ended is over only if the end is published. -/
theorem terminated_of_drained (hv : v.Reachable c) (h : (hookHost c flow).Drained v) :
    (v.graphAt c flow).terminated.isSome := by
  obtain ⟨hended, hdraining⟩ := h
  obtain ⟨a, horderly⟩ := orderly_graphAt hv flow
  obtain rfl := horderly.hooks.idle_of_not_draining hdraining
  have hterminal : (v.graphAt c flow).hooks.terminal.isSome := hended
  cases horderly.closing with
  | before _ _ hnone _ => simp [hnone] at hterminal
  | due _ _ _ _ hnone _ => simp [hnone] at hterminal
  | draining s d _ _ htasks _ _ =>
      have := horderly.drains
      simp [htasks, HookTask.activity?, Hooks.Activity.drains] at this
  | reached s _ _ _ _ hs => simp [hs]

theorem lasting_terminated (flow : Nat) :
    Lasting c fun v => (v.graphAt c flow).terminated.isSome := by
  refine lasting_of_fire fun hfire hv => ?_
  exact (moved_fire hfire).graphAt.preserves (fun hg hchange => hchange.terminated hg) hv

/-- The end of a flow is published exactly if the drain is over that was begun at the end. -/
theorem terminated_iff_returned (hv : Visits c es v) :
    (v.graphAt c flow).terminated.isSome ↔ (hookHost c flow).Returned es v := by
  constructor
  · refine hv.induction (P := fun v => (v.graphAt c flow).terminated.isSome →
      (hookHost c flow).Returned es v) (fun h => by cases h) ?_
    intro v e v' hstep ih h
    have before (hsame : (v'.graphAt c flow).terminated = (v.graphAt c flow).terminated) :
        (hookHost c flow).Returned es v' :=
      (HookHost.lasting_returned es).run (run_single hstep.fire) (ih (hsame ▸ h))
    rcases hooks_of_fire flow (Visits.reachable hstep.left) hstep.fire with
      hkept | ⟨k, rfl, hdrain⟩
    · exact before hkept.terminated
    · cases hdrain with
      | leaves _ _ _ _ hterminal hdraining =>
          have hdrained : (hookHost c flow).Drained v' := ⟨hterminal, hdraining⟩
          exact hdrained.returned hstep.right
      | starts _ _ _ _ _ hsame => exact before hsame.terminated
      | asks _ _ _ _ _ _ _ hsame => exact before hsame.terminated
      | ends _ _ _ _ _ _ _ hsame => exact before hsame
  · rintro ⟨u, middle, hu, hdrained, hmiddle⟩
    exact (lasting_terminated flow).run hmiddle
      (terminated_of_drained (Visits.reachable hu) hdrained)

/-- Whoever waits for the end of a flow is told of it once it is published. -/
theorem resumeCaller_onTermination_iff :
    (∃ s, ∀ idle moment, v.resumeCaller c idle (.onTermination flow some ⟨moment, none⟩) =
      some (v, .inr (some s))) ↔ (v.graphAt c flow).terminated.isSome := by
  have hgraph : (v.graph? flow).bind Graph.terminated = (v.graphAt c flow).terminated := by
    cases hg : v.graph? flow with
    | none => simp [graphAt, hg, Graph.new]
    | some g => rw [graphAt_of_graph hg, Option.bind_some]
  constructor
  · rintro ⟨s, hs⟩
    obtain ⟨g, hg, hterminated⟩ := resumeCaller_onTermination (hs true 0)
    rw [graphAt_of_graph hg, hterminated]
    rfl
  · intro h
    obtain ⟨s, hs⟩ := Option.isSome_iff_exists.mp h
    refine ⟨s, fun idle moment => ?_⟩
    rw [resumeCaller, hgraph, hs]

/-- Where a hook asks something, it is under way. -/
theorem running_of_asks {q : Question bodySignature} (hv : v.Reachable c)
    (h : v.Asks c q (.hook flow k) v') : ∃ r, (v.graphAt c flow).running? = some r := by
  obtain ⟨a, horderly⟩ := orderly_graphAt hv flow
  cases h with
  | @hook _ _ g d publish r next _ hg hk hr _ _ =>
      rw [graphAt_of_graph hg] at horderly ⊢
      exact ⟨r, (Graph.running?_of_drains (horderly.drains_eq hk)).trans hr⟩

/-- In a run, which leads to `w`, the hooks of a flow that have these courses keep to their
times. -/
structure HooksOnSchedule (c : Completer) (es : List Event) (w : World) (flow : Nat)
    (courses : Nat → Course) : Prop where
  timetable : (hookHost c flow).Timetable es w courses
  /-- Every hook is under way until it ends. -/
  attended : ∀ i, (hookHost c flow).Attended es i
  /-- Whatever a hook asks, it asks in its time. -/
  asks : ∀ k v q v', (clockwork c).Step es v (.task (.hooks flow k)) v' →
    v.Asks c q (.hook flow k) v' → ∃ r m, (v.graphAt c flow).running? = some r ∧
      Since c es ((hookHost c flow).Started r.index) m ∧
      v.clock ≤ m + (courses r.index).span c.hookLimit.ticks
  /-- Whoever waits for the end of the flow is told of it when its drain is over. -/
  told : ∀ v, Visits c es v →
    ((∃ s, ∀ idle moment, v.resumeCaller c idle (.onTermination flow some ⟨moment, none⟩) =
      some (v, .inr (some s))) ↔ (hookHost c flow).Returned es v)

/-- In the run, the hooks of a flow that are started have these courses. -/
def HooksLast (c : Completer) (es : List Event) (flow : Nat) (courses : Nat → Course) : Prop :=
  ∀ k v v' index r, (clockwork c).Step es v (.task (.hooks flow k)) v' →
    (flow, .hookStarted index r) ∈ v.deeds c (.task (.hooks flow k)) →
    Lasts c es flow v.clock (.going (c.catalog.invoke r)) (courses index)

/-- So it is if the bodies of the hooks wait only for the clock. -/
theorem hooksLast_of_takes {courses : Nat → Course} (hrun : World.empty.run c es = some w)
    (h : ∀ index r, (flow, .hookStarted index r) ∈ World.empty.history c es →
      ∃ d e, (c.catalog.invoke r).Takes d e ∧ courses index = some (d, e)) :
    HooksLast c es flow courses := by
  rintro k v v' index r ⟨first, rest, rfl, hfirst, hfire⟩ hdeed
  have hmem : (flow, .hookStarted index r) ∈
      World.empty.history c (first ++ .task (.hooks flow k) :: rest) := by
    rw [history_append hfirst, history]
    exact List.mem_append_right _ (List.mem_append_left _ hdeed)
  obtain ⟨d, e, htakes, hcourse⟩ := h index r hmem
  have hlasts : Lasts c (first ++ .task (.hooks flow k) :: rest) flow v.clock
      (.going (c.catalog.invoke r)) (some (v.clock - v.clock + d, e)) :=
    lasts_of_takes htakes (.going _)
  rwa [Nat.sub_self, Nat.zero_add, ← hcourse] at hlasts

section Run

variable {courses : Nat → Course} (hpunctual : World.empty.Punctual c es)
  (hstarted : HooksLast c es flow courses)
  (hapart : ∀ i e, courses i ≠ some (c.hookLimit.ticks, e))

include hpunctual hstarted hapart

/-- A completer runs the hooks of a flow as they should be run. -/
theorem fair : (hookHost c flow).Fair es courses (Pace c es flow) where
  punctual := hpunctual
  empty := rfl
  calm := rfl
  grows hfire := (moved_fire hfire).graphAt.grows_hooks
  sound hv := by
    obtain ⟨a, horderly⟩ := orderly_graphAt (Visits.reachable hv) flow
    exact ⟨a, horderly.hooks, fun r hr => horderly.busy_of_running hr⟩
  settled hv hidle := Idle.not_between hidle (Visits.reachable hv)
  effect := by
    intro v e v' hstep
    rcases hooks_of_fire flow (Visits.reachable hstep.left) hstep.fire with
      hkept | ⟨k, rfl, hdrain⟩
    · exact effect_of_kept hpunctual hstep hkept
    · exact effect_of_drainStep (hstarted k v v' · · hstep) hstep hdrain
  early := by
    rintro v t x e - ⟨-, a, course, hlasts, hx, -, hwakes⟩
    obtain ⟨b, p, hb, hle⟩ := hlasts.wakes hx
    exact (hwakes b p hb).trans hle
  waits := by
    intro v r hv hidle hr
    obtain ⟨hnone, hlimit, -⟩ := Idle.hook hidle hr
    refine ⟨hlimit, ?_⟩
    rintro x e ⟨hknown, a, course, hlasts, hx, -, hwakes⟩
    obtain ⟨b, p, hb, hle⟩ := hlasts.wakes hx
    exact Nat.lt_of_lt_of_le (hb.due hv hidle hknown (hwakes b p hb) hnone) hle
  apart := hapart

omit hpunctual hstarted hapart in
/-- A hook of a flow is under way from its start to its end. -/
theorem attended (i : Nat) : (hookHost c flow).Attended es i := by
  intro v hv hstarted hnot
  obtain ⟨a, horderly⟩ := orderly_graphAt (Visits.reachable hv) flow
  have htaken := horderly.hooks.taken
  have hlt : i < (v.graphAt c flow).hooks.taken := hstarted
  have hle : (v.graphAt c flow).hooks.completed ≤ i := Nat.le_of_not_lt hnot
  cases a with
  | busy index =>
      obtain ⟨r, hr, rfl⟩ := horderly.running_of_busy rfl
      have hindex := horderly.hooks.busy _ rfl
      rw [Hooks.Activity.count_busy] at htaken
      exact ⟨r, hr, by omega⟩
  | idle =>
      rw [Hooks.Activity.count_idle] at htaken
      omega
  | between =>
      rw [Hooks.Activity.count_between] at htaken
      omega

/-- In a punctual run, the hooks of a flow keep to their times. -/
theorem hooksOnSchedule_of_run (hrun : World.empty.run c es = some w) :
    HooksOnSchedule c es w flow courses where
  timetable := (fair hpunctual hstarted hapart).timetable hrun
  attended := attended
  asks := by
    intro k v q v' hstep hasks
    obtain ⟨r, hr⟩ := running_of_asks (Visits.reachable hstep.left) hasks
    obtain ⟨m, hm, -, hle⟩ := (fair hpunctual hstarted hapart).within hstep.left hr
    exact ⟨r, m, hr, hm, hle⟩
  told _ hv := resumeCaller_onTermination_iff.trans (terminated_iff_returned hv)

end Run

end World

open Hooks (Trial)

/-- How hooks are scheduled under a limit, where time waits for the tasks.  In every punctual run of
a registry of hooks, of which none would end by itself just when its time is over, and in every such
run of a completer, for every flow, the hooks keep to their timetable; a hook is attended from its
start to its end, unless it panics in its call, and then it never ends; whoever ends the flow is
given all failures when the drain is over that begins then, and at the same time whoever waits for
the end of the flow of a completer is told of it. -/
theorem hooks_on_schedule (limit : Duration) :
    (∀ (es : List Hooks.Happening) (t : Trial), (Trial.start limit).run es = some t →
      (Trial.clockwork limit).Punctual (Trial.start limit) es →
      ∃ x, Hooks.Chronicle.empty.run ((Trial.start limit).tale es) = some x ∧
        x.registry = t.registry ∧
        ((∀ h ∈ x.bodies, (Hooks.alone h.actions).1 ≠ limit.ticks) →
          Trial.OnSchedule limit es t x)) ∧
    ∀ (c : Completer) (es : List Event) (w : World) (flow : Nat) (courses : Nat → Course),
      c.hookLimit = limit → World.empty.run c es = some w → World.empty.Punctual c es →
      World.HooksLast c es flow courses → (∀ i e, courses i ≠ some (limit.ticks, e)) →
      World.HooksOnSchedule c es w flow courses := by
  refine ⟨?_, ?_⟩
  · intro es t hrun hpunctual
    obtain ⟨x, hx, htold⟩ := (Hooks.Trial.told_start limit).run hrun
    exact ⟨x, hx, htold.registry, Trial.onSchedule_of_run hrun hpunctual hx⟩
  · rintro c es w flow courses rfl hrun hpunctual hlast hapart
    exact World.hooksOnSchedule_of_run hpunctual hlast hapart hrun

/-- A hook that sleeps for longer than it may, and a second one. -/
def cutHappenings : List Hooks.Happening :=
  [.register ⟨none, [.sleep (.ofMillis 5)]⟩, .register ⟨none, [.log "after"]⟩,
    .terminate .succeeded, .drain, .drain, .clock 3, .drain, .drain, .drain, .drain, .drain]

/-- The same in a completer. -/
def cutEvents : List Event :=
  [.call (.createFlow "f"), .call (.addHook ⟨"0"⟩ (.bare "slow")),
    .call (.addHook ⟨"0"⟩ (.bare "slow")), .call (.commit ⟨"0"⟩ .succeeded), .task (.hooks 0 0),
    .task (.hooks 0 0), .task (.hooks 0 0), .clock 3, .task (.hooks 0 0), .task (.hooks 0 0),
    .task (.hooks 0 0)]

/-- A completer whose hooks may take three milliseconds, with a body that takes five. -/
def Completer.drowsy : Completer :=
  ⟨⟨[("slow", ⟨.hook, fun _ _ => do BodyM.sleep (.ofMillis 5); return .empty⟩)]⟩, .ofMillis 3,
    fun n => ⟨toString n⟩⟩

/-- The state after the first of these. -/
def cutTrial (count : Nat) : Trial :=
  ((Trial.start (.ofMillis 3)).run (cutHappenings.take count)).getD (Trial.start (.ofMillis 3))

@[inherit_doc cutTrial]
def cutWorld (count : Nat) : World :=
  (World.empty.run .drowsy (cutEvents.take count)).getD .empty

/-- What is asked of its catalog for each of the two hooks. -/
def cutInvocation : Invocation :=
  ⟨⟨"0"⟩, hookStage, .bare "slow", [.success (.state .succeeded)]⟩

/-- The courses of its hooks. -/
def cutCourses : Nat → Course
  | 0 | 1 => some (5, .ok)
  | _ => none

theorem cutHappenings_punctual :
    (Trial.clockwork (.ofMillis 3)).Punctual (Trial.start (.ofMillis 3)) cutHappenings := by
  have hsplit : cutHappenings = cutHappenings.take 5 ++ .clock 3 :: cutHappenings.drop 6 := rfl
  rw [hsplit]
  refine (Clockwork.punctual_of_still (by simp [cutHappenings, Trial.passes?])).append ?_
  intro t ht
  obtain rfl := Option.some.inj (ht.symm.trans (rfl : _ = some (cutTrial 5)))
  refine ⟨?_, fun _ _ => Clockwork.punctual_of_still (by simp [cutHappenings, Trial.passes?])⟩
  rintro moment ⟨⟩
  refine ⟨⟨rfl, rfl⟩, ?_⟩
  rintro m ⟨r, hr, hm⟩
  have hrunning : (cutTrial 5).running? = some ⟨0, ⟨[], 5⟩, 3⟩ := rfl
  obtain rfl := Option.some.inj (hr.symm.trans hrunning)
  rcases hm with rfl | rfl <;> decide

theorem cutEvents_punctual : World.empty.Punctual .drowsy cutEvents := by
  have hsplit : cutEvents = cutEvents.take 7 ++ .clock 3 :: cutEvents.drop 8 := rfl
  rw [hsplit]
  refine (Clockwork.punctual_of_still (by simp [cutEvents, World.passes?])).append ?_
  intro w hw
  obtain rfl := Option.some.inj (hw.symm.trans (rfl : _ = some (cutWorld 7)))
  refine ⟨?_, fun _ _ => Clockwork.punctual_of_still (by simp [cutEvents, World.passes?])⟩
  rintro moment ⟨⟩
  refine ⟨?_, ?_⟩
  · rintro (⟨_ | flow, n⟩ | ⟨_ | flow, _ | k⟩) <;> rfl
  · rintro m ⟨⟨_ | flow, n⟩ | ⟨_ | flow, _ | k⟩, hm⟩
    · cases hm
    · cases hm
    · have hmem : m ∈ [3, 5] := hm
      have hcases : m = 3 ∨ m = 5 := by simpa using hmem
      omega
    all_goals cases hm

/-- Both hooks sleep for five milliseconds. -/
theorem cutEvents_hooksLast : World.HooksLast .drowsy cutEvents 0 cutCourses := by
  have hrun : World.empty.run .drowsy cutEvents = some (cutWorld 11) := rfl
  have hhistory : World.empty.history .drowsy cutEvents =
      [(0, .committed .succeeded), (0, .hookStarted 0 cutInvocation),
        (0, .hookEnded 0 (.timedOut (.ofMillis 3))), (0, .hookStarted 1 cutInvocation)] := rfl
  have hinvoke : Completer.drowsy.catalog.invoke cutInvocation =
      .ask (.sleep (.ofMillis 5)) fun _ => .done .empty := rfl
  have hends : Program.Takes (.done .empty) 0 .ok := .ends (.done _)
  have htakes : (Completer.drowsy.catalog.invoke cutInvocation).Takes 5 .ok := by
    rw [hinvoke]
    exact @Program.Takes.sleep (.ofMillis 5) (fun _ => .done .empty) 0 .ok hends
  refine World.hooksLast_of_takes hrun ?_
  intro index r hmem
  rw [hhistory] at hmem
  simp only [List.mem_cons, Prod.mk.injEq, reduceCtorEq, and_false, false_or, true_and,
    Deed.hookStarted.injEq, List.not_mem_nil, or_false] at hmem
  rcases hmem with ⟨rfl, rfl⟩ | ⟨rfl, rfl⟩ <;> exact ⟨5, .ok, htakes, rfl⟩

theorem hooks_on_schedule_cut :
    (∃ x, (Trial.start (.ofMillis 3)).run cutHappenings = some (cutTrial 11) ∧
      Trial.OnSchedule (.ofMillis 3) cutHappenings (cutTrial 11) x ∧
      (Trial.clockwork (.ofMillis 3)).Since cutHappenings
        ((Trial.host (.ofMillis 3)).Started 1) 3) ∧
    World.empty.run .drowsy cutEvents = some (cutWorld 11) ∧
      World.HooksOnSchedule .drowsy cutEvents (cutWorld 11) 0 cutCourses ∧
      World.Since .drowsy cutEvents ((World.hookHost .drowsy 0).Started 1) 3 := by
  have hrun : (Trial.start (.ofMillis 3)).run cutHappenings = some (cutTrial 11) := rfl
  have hrun' : World.empty.run .drowsy cutEvents = some (cutWorld 11) := rfl
  refine ⟨?_, hrun', ?_⟩
  · obtain ⟨x, hx, -, hschedule⟩ := (hooks_on_schedule _).1 _ _ hrun cutHappenings_punctual
    have hbodies : x.bodies = [⟨none, [.sleep (.ofMillis 5)]⟩, ⟨none, [.log "after"]⟩] :=
      congrArg Hooks.Chronicle.bodies (Option.some.inj (hx.symm.trans rfl))
    have hapart : ∀ h ∈ x.bodies, (Hooks.alone h.actions).1 ≠ (Duration.ofMillis 3).ticks := by
      simp only [hbodies, List.forall_mem_cons, List.not_mem_nil, false_implies, implies_true,
        and_true]
      decide
    have hstarted : (Trial.clockwork (.ofMillis 3)).Since cutHappenings
        ((Trial.host (.ofMillis 3)).Started 0) 0 :=
      ⟨⟨cutTrial 4, ⟨cutHappenings.take 4, cutHappenings.drop 4, rfl, rfl⟩, Nat.zero_lt_one, rfl⟩,
        fun _ _ => Nat.zero_le _⟩
    have hregistered : (Trial.clockwork (.ofMillis 3)).Since cutHappenings
        ((Trial.host (.ofMillis 3)).Registered 1) 0 :=
      ⟨⟨cutTrial 2, ⟨cutHappenings.take 2, cutHappenings.drop 2, rfl, rfl⟩, Nat.one_lt_two, rfl⟩,
        fun _ _ => Nat.zero_le _⟩
    have hspan : (Trial.courses x 0).span (Duration.ofMillis 3).ticks = 3 := by
      rw [Trial.courses, hbodies]
      decide
    have hover : (Trial.clockwork (.ofMillis 3)).Over (cutTrial 11)
        (0 + (Trial.courses x 0).span (Duration.ofMillis 3).ticks) := by
      rw [hspan]
      exact .inr ⟨rfl, rfl, rfl⟩
    have h := hschedule hapart
    have hfollows := h.timetable.follows (h.attended 0 _ (by rw [hbodies]; rfl) rfl) hstarted
      hregistered (Nat.zero_le _) hover
    rw [hspan] at hfollows
    exact ⟨x, hrun, h, hfollows⟩
  · have h := (hooks_on_schedule _).2 _ _ _ _ _ rfl hrun' cutEvents_punctual cutEvents_hooksLast (by
      rintro (_ | _ | i) e <;> simp [cutCourses] <;> intro h <;> cases h)
    have hstarted : World.Since .drowsy cutEvents ((World.hookHost .drowsy 0).Started 0) 0 :=
      ⟨⟨cutWorld 6, ⟨cutEvents.take 6, cutEvents.drop 6, rfl, rfl⟩, Nat.zero_lt_one, rfl⟩,
        fun _ _ => Nat.zero_le _⟩
    have hregistered : World.Since .drowsy cutEvents ((World.hookHost .drowsy 0).Registered 1) 0 :=
      ⟨⟨cutWorld 3, ⟨cutEvents.take 3, cutEvents.drop 3, rfl, rfl⟩, Nat.one_lt_two, rfl⟩,
        fun _ _ => Nat.zero_le _⟩
    have hover : World.Over .drowsy (cutWorld 11) 3 := by
      refine .inr ⟨rfl, ?_⟩
      rintro (⟨_ | flow, n⟩ | ⟨_ | flow, _ | k⟩) <;> rfl
    exact ⟨h, h.timetable.follows (h.attended 0) hstarted hregistered (Nat.zero_le _) hover⟩

end StageGraph
