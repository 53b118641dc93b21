/-
# `StageGraph.Proofs.HookTimes` — when hooks start and end

Left alone, a hook takes some time and ends in its own way, or it never ends: this is its *course*.
A hook that takes longer than the limit is cut off when its time is over, so it is under way for
the lesser of the two times (`Course.span`), and what is recorded of it is its own ending or that it
was cut off (`Course.verdict`).

Hooks run one after another.  So a hook starts when it has been registered, the flow has ended and
the hook before it has ended, whichever comes last, and from this all times follow
(`Timetable`).

Who runs the hooks is left open.  A `HookHost` is a system with a clock that has a registry of hooks
and perhaps a hook under way.  What it has to promise for a run is `HookHost.Fair`: its registry is
sound, no drain that could go on waits where everything has settled, and an event does one of a few
things to the hook under way (`HookHost.Effect`).  How a hook under way stands to its course is said
by a relation of the host's own, its *pace*.
-/
import StageGraph.Proofs.Clockwork
import StageGraph.Proofs.HookOrder

namespace StageGraph.Hooks

open Clockwork

/-! ## The course of a hook -/

/-- The ticks after which a hook ends if nobody cuts it off, and how it ends; nothing if it never
does. -/
abbrev Course := Option (Nat × Ending)

namespace Course

/-- The ticks for which a hook is under way that is cut off after `h` ticks. -/
def span (h : Nat) : Course → Nat
  | none => h
  | some (d, _) => min d h

/-- How a hook ends that is cut off at a limit. -/
def verdict (limit : Duration) : Course → Ending
  | none => .timedOut limit
  | some (d, e) => if limit.ticks < d then .timedOut limit else e

/-- The course of a hook that starts at a moment, with the moment at which it ends. -/
def startingAt (x : Nat) (course : Course) : Course := course.map fun p => (x + p.1, p.2)

end Course

namespace Registry

variable {β : Type}

/-- How many hooks have been taken by drains. -/
def taken (r : Registry β) : Nat := r.registered - r.pending.length

/-- Nothing that has been counted is taken back. -/
structure Grows (r r' : Registry β) : Prop where
  registered : r.registered ≤ r'.registered
  taken : r.taken ≤ r'.taken
  completed : r.completed ≤ r'.completed
  terminal : r.terminal.isSome → r'.terminal.isSome

theorem Sound.taken {r : Registry β} {a : Activity} (h : r.Sound a) :
    r.taken = r.completed + a.count := by
  have := h.count
  unfold Registry.taken
  omega

/-- What is going on can be told from the registry. -/
theorem Sound.unique {r : Registry β} {a b : Activity} (ha : r.Sound a) (hb : r.Sound b) :
    a = b := by
  have hcount := ha.count.trans hb.count.symm
  cases a with
  | idle => exact (hb.idle_of_not_draining ha.not_draining).symm
  | between =>
      cases b with
      | idle => exact ha.idle_of_not_draining hb.not_draining
      | between => rfl
      | busy index =>
          rw [Activity.count_busy, Activity.count_between] at hcount
          omega
  | busy index =>
      cases b with
      | idle => exact ha.idle_of_not_draining hb.not_draining
      | between =>
          rw [Activity.count_busy, Activity.count_between] at hcount
          omega
      | busy index' => rw [ha.busy _ rfl, hb.busy _ rfl]

theorem Grows.refl (r : Registry β) : r.Grows r := ⟨Nat.le_refl _, Nat.le_refl _, Nat.le_refl _, id⟩

theorem Grows.trans {r r' r'' : Registry β} (h : r.Grows r') (h' : r'.Grows r'') : r.Grows r'' :=
  ⟨h.registered.trans h'.registered, h.taken.trans h'.taken, h.completed.trans h'.completed,
    h'.terminal ∘ h.terminal⟩

section Calls

variable (r : Registry β)

theorem grows_register (body : β) : r.Grows (r.register body).1 where
  registered := Nat.le_succ _
  taken := by simp [taken, register]
  completed := Nat.le_refl _
  terminal := id

theorem grows_terminate (s : FlowState) : r.Grows (r.terminate s).1 where
  registered := by simp
  taken := by simp [taken]
  completed := by simp
  terminal _ := by simp [terminate_terminal]

theorem grows_next? : r.Grows r.next?.1 where
  registered := by simp
  taken := by
    unfold taken next?
    split
    · exact Nat.le_refl _
    · next h => simp only [h, List.length_cons]; omega
  completed := by simp
  terminal h := by simpa using h

theorem grows_record (failure : Option HookFailure) : r.Grows (r.record failure) where
  registered := Nat.le_refl _
  taken := Nat.le_refl _
  completed := Nat.le_succ _
  terminal := id

end Calls

end Registry

/-! ## Systems that run hooks -/

/-- A system that runs hooks. -/
structure HookHost (σ ε β τ : Type) where
  clockwork : Clockwork σ ε
  registry : σ → Registry β
  /-- The hook under way. -/
  running : σ → Option (Running τ)
  /-- The time allowed to a hook. -/
  limit : Duration

namespace HookHost

variable {σ ε β τ : Type} (S : HookHost σ ε β τ)

/-- The flow has ended. -/
def Ended (v : σ) : Prop := (S.registry v).terminal.isSome

/-- The hook at a position has been registered. -/
def Registered (i : Nat) (v : σ) : Prop := i < (S.registry v).registered

/-- The hook at a position has been taken by a drain. -/
def Started (i : Nat) (v : σ) : Prop := i < (S.registry v).taken

/-- The hook at a position has ended. -/
def Finished (i : Nat) (v : σ) : Prop := i < (S.registry v).completed

/-- The flow has ended, and so have the hooks before a position. -/
def Clear (i : Nat) (v : σ) : Prop := S.Ended v ∧ i ≤ (S.registry v).completed

/-- The flow has ended, and no drain is under way. -/
def Drained (v : σ) : Prop := S.Ended v ∧ (S.registry v).draining = false

/-- The drain that was begun at the end of the flow is over, as some earlier state shows. -/
def Returned (es : List ε) (v : σ) : Prop :=
  ∃ u middle, S.clockwork.Visits es u ∧ S.Drained u ∧ S.clockwork.run u middle = some v

/-- The hook at a position is under way from its start to its end. -/
def Attended (es : List ε) (i : Nat) : Prop :=
  ∀ v, S.clockwork.Visits es v → S.Started i v → ¬S.Finished i v →
    ∃ r, S.running v = some r ∧ r.index = i

/-- The ticks for which the first hooks are under way, together. -/
def total (course : Nat → Course) : Nat → Nat
  | 0 => 0
  | n + 1 => total course n + (course n).span S.limit.ticks

/-- What an event does to the hook under way.  `pace` says how a thread stands to the moment at
which it ends by itself. -/
inductive Effect (course : Nat → Course) (pace : σ → τ → Course → Prop) (v v' : σ) : Prop
  /-- Nothing, but time may pass. -/
  | none : S.running v' = S.running v →
      (S.registry v').completed = (S.registry v).completed →
      (S.registry v').failures = (S.registry v).failures →
      (∀ r, S.running v = some r → S.clockwork.clock v ≤ r.limit →
        S.clockwork.clock v' ≤ r.limit) →
      (∀ r x, S.running v = some r → pace v r.thread x → pace v' r.thread x) →
      Effect course pace v v'
  | starts (r : Running τ) : S.running v' = some r → ¬S.Started r.index v →
      (S.registry v').completed = (S.registry v).completed →
      (S.registry v').failures = (S.registry v).failures →
      r.limit = S.clockwork.clock v' + S.limit.ticks →
      pace v' r.thread ((course r.index).startingAt (S.clockwork.clock v')) →
      Effect course pace v v'
  | goes (r : Running τ) (t : τ) : S.running v = some r →
      S.running v' = some { r with thread := t } →
      (S.registry v').completed = (S.registry v).completed →
      (S.registry v').failures = (S.registry v).failures →
      S.clockwork.clock v' = S.clockwork.clock v →
      (∀ x, pace v r.thread x → pace v' t x) →
      Effect course pace v v'
  /-- The hook ends by itself, or it is cut off. -/
  | ends (r : Running τ) (e : Ending) : S.running v = some r → S.running v' = .none →
      (S.registry v').completed = (S.registry v).completed + 1 →
      (S.registry v').failures = (S.registry v).failures ++ (e.failure? r.index).toList →
      S.clockwork.clock v' = S.clockwork.clock v →
      (∀ x, pace v r.thread x → x = some (S.clockwork.clock v, e)) ∨
        e = .timedOut S.limit ∧ r.limit ≤ S.clockwork.clock v →
      Effect course pace v v'

/-- In a run, the hooks are run as they should be. -/
structure Fair (es : List ε) (course : Nat → Course) (pace : σ → τ → Course → Prop) : Prop where
  punctual : S.clockwork.Punctual S.clockwork.start es
  empty : S.registry S.clockwork.start = .empty
  calm : S.running S.clockwork.start = none
  grows : ∀ {v e v'}, S.clockwork.fire v e = some v' → (S.registry v).Grows (S.registry v')
  sound : ∀ {v}, S.clockwork.Visits es v →
    ∃ a, (S.registry v).Sound a ∧ ∀ r, S.running v = some r → a = .busy r.index
  settled : ∀ {v}, S.clockwork.Visits es v → S.clockwork.Idle v → ¬(S.registry v).Sound .between
  effect : ∀ {v e v'}, S.clockwork.Step es v e v' → S.Effect course pace v v'
  /-- The hook under way is not late, -/
  early : ∀ {v t x e}, S.clockwork.Visits es v → pace v t (some (x, e)) → S.clockwork.clock v ≤ x
  /-- and where everything has settled, it is not due. -/
  waits : ∀ {v r}, S.clockwork.Visits es v → S.clockwork.Idle v → S.running v = some r →
    S.clockwork.clock v < r.limit ∧
      ∀ x e, pace v r.thread (some (x, e)) → S.clockwork.clock v < x
  /-- No hook ends by itself just when its time is over. -/
  apart : ∀ i e, course i ≠ some (S.limit.ticks, e)

/-- In a run, which leads to `w`, the times of the hooks with these courses. -/
structure Timetable (es : List ε) (w : σ) (course : Nat → Course) : Prop where
  /-- The first hook starts when the flow has ended and it has been registered. -/
  first : S.clockwork.Scheduled es w (S.Started 0) fun x =>
    ∃ a r, S.clockwork.Since es S.Ended a ∧ S.clockwork.Since es (S.Registered 0) r ∧
      x = max a r
  /-- Every other one starts when the one before it has ended and it has been registered. -/
  next : ∀ i, S.clockwork.Scheduled es w (S.Started (i + 1)) fun x =>
    ∃ a r, S.clockwork.Since es (S.Finished i) a ∧
      S.clockwork.Since es (S.Registered (i + 1)) r ∧ x = max a r
  /-- A hook ends after its time. -/
  ends : ∀ i, S.Attended es i → S.clockwork.Scheduled es w (S.Finished i) fun x =>
    ∃ m, S.clockwork.Since es (S.Started i) m ∧ x = m + (course i).span S.limit.ticks
  /-- It is not under way after that. -/
  within : ∀ v r, S.clockwork.Visits es v → S.running v = some r →
    ∃ m, S.clockwork.Since es (S.Started r.index) m ∧ m ≤ S.clockwork.clock v ∧
      S.clockwork.clock v ≤ m + (course r.index).span S.limit.ticks
  /-- What is recorded of the hooks that have ended is how they ended under their limit. -/
  failures : ∀ v, S.clockwork.Visits es v → (S.registry v).failures =
    (List.range (S.registry v).completed).filterMap fun i =>
      ((course i).verdict S.limit).failure? i
  /-- A drain is not over before all hooks have ended that have been registered until then. -/
  included : ∀ v, S.clockwork.Visits es v → S.Drained v →
    (S.registry v).completed = (S.registry v).registered
  /-- Hooks that were registered before the end of the flow start one after another. -/
  planned : ∀ n, (∀ v, S.clockwork.Visits es v → S.Ended v → n ≤ (S.registry v).registered) →
    ∀ i < n, (∀ j < i, S.Attended es j) → S.clockwork.Scheduled es w (S.Started i) fun x =>
      ∃ m, S.clockwork.Since es S.Ended m ∧ x = m + S.total course i
  /-- If no other hook is registered until then, their drain is over when the last one has ended. -/
  returns : ∀ n, (∀ v, S.clockwork.Visits es v → S.Ended v → n ≤ (S.registry v).registered) →
    (∀ j < n, S.Attended es j) →
    (∀ v, S.clockwork.Visits es v → S.Ended v → ¬S.Returned es v →
      (S.registry v).registered ≤ n) →
    S.clockwork.Scheduled es w (S.Returned es) fun x =>
      ∃ m, S.clockwork.Since es S.Ended m ∧ x = m + S.total course n

variable {S}

/-- A hook that has been registered in time starts when the time of the one before it is over. -/
theorem Timetable.follows {es : List ε} {w : σ} {course : Nat → Course} {i m r : Nat}
    (h : S.Timetable es w course) (hattended : S.Attended es i)
    (hm : S.clockwork.Since es (S.Started i) m)
    (hr : S.clockwork.Since es (S.Registered (i + 1)) r)
    (hle : r ≤ m + (course i).span S.limit.ticks)
    (hover : S.clockwork.Over w (m + (course i).span S.limit.ticks)) :
    S.clockwork.Since es (S.Started (i + 1)) (m + (course i).span S.limit.ticks) :=
  (h.next i).begins
    ⟨_, r, (h.ends i hattended).begins ⟨m, hm, rfl⟩ hover, hr, (max_eq_left hle).symm⟩ hover

theorem Drained.returned {es : List ε} {v : σ} (h : S.Drained v) (hv : S.clockwork.Visits es v) :
    S.Returned es v := ⟨v, [], hv, h, S.clockwork.run_nil v⟩

theorem lasting_returned (es : List ε) : S.clockwork.Lasting (S.Returned es) := by
  refine ⟨?_⟩
  rintro v v' es' hrun ⟨u, middle, hu, hdrained, hmiddle⟩
  exact ⟨u, middle ++ es', hu, hdrained, run_trans hmiddle hrun⟩

namespace Fair

variable {es : List ε} {course : Nat → Course} {pace : σ → τ → Course → Prop} {v w : σ} {i n : Nat}

/-! ## What lasts -/

section Lasting

variable (h : S.Fair es course pace)

include h

theorem lasting_registered (i : Nat) : S.clockwork.Lasting (S.Registered i) :=
  lasting_of_fire fun hfire hv => Nat.lt_of_lt_of_le hv (h.grows hfire).registered

theorem lasting_started (i : Nat) : S.clockwork.Lasting (S.Started i) :=
  lasting_of_fire fun hfire hv => Nat.lt_of_lt_of_le hv (h.grows hfire).taken

theorem lasting_finished (i : Nat) : S.clockwork.Lasting (S.Finished i) :=
  lasting_of_fire fun hfire hv => Nat.lt_of_lt_of_le hv (h.grows hfire).completed

theorem lasting_clear (i : Nat) : S.clockwork.Lasting (S.Clear i) :=
  lasting_of_fire fun hfire hv =>
    ⟨(h.grows hfire).terminal hv.1, hv.2.trans (h.grows hfire).completed⟩

/-- A hook that has ended was started after the end of the flow. -/
theorem clear_succ_iff (hv : S.clockwork.Visits es v) : S.Clear (i + 1) v ↔ S.Finished i v := by
  refine ⟨fun hclear => hclear.2, fun hfinished => ⟨?_, hfinished⟩⟩
  obtain ⟨a, hsound, -⟩ := h.sound hv
  cases hterm : (S.registry v).terminal with
  | some s => simp [Ended, hterm]
  | none =>
      have := hsound.early hterm
      simp [Finished, this] at hfinished

omit h in
/-- The way is clear for the first hook since the end of the flow. -/
theorem since_clear_zero {x : Nat} :
    S.clockwork.Since es (S.Clear 0) x ↔ S.clockwork.Since es S.Ended x :=
  since_congr fun _ _ => and_iff_left (Nat.zero_le _)

theorem since_clear_succ {x : Nat} :
    S.clockwork.Since es (S.Clear (i + 1)) x ↔ S.clockwork.Since es (S.Finished i) x :=
  since_congr fun _ hv => h.clear_succ_iff hv

/-- A hook is started in its turn. -/
theorem clear_of_started (hv : S.clockwork.Visits es v) (hstarted : S.Started i v) :
    S.Clear i v ∧ S.Registered i v := by
  obtain ⟨a, hsound, -⟩ := h.sound hv
  have htaken := hsound.taken
  have hcount := hsound.count
  unfold Started at hstarted
  rw [htaken] at hstarted
  refine ⟨⟨?_, ?_⟩, ?_⟩
  · cases hterm : (S.registry v).terminal with
    | some s => simp [Ended, hterm]
    | none =>
        have hcompleted := hsound.early hterm
        obtain rfl := hsound.idle_of_open hterm
        rw [Activity.count_idle] at hstarted
        omega
  · cases a with
    | busy index =>
        rw [Activity.count_busy] at hstarted
        omega
    | idle => exact Nat.le_of_lt hstarted
    | between => exact Nat.le_of_lt hstarted
  · unfold Registered
    omega

/-- Where everything has settled, a hook is started whose turn has come. -/
theorem started_of_clear (hv : S.clockwork.Visits es v) (hidle : S.clockwork.Idle v)
    (hclear : S.Clear i v) (hregistered : S.Registered i v) : S.Started i v := by
  obtain ⟨a, hsound, -⟩ := h.sound hv
  have htaken := hsound.taken
  have hcount := hsound.count
  have hle := hclear.2
  unfold Registered at hregistered
  unfold Started
  cases a with
  | between => exact absurd hsound (h.settled hv hidle)
  | idle =>
      have hpending := hsound.settled hclear.1 rfl
      rw [hpending, List.length_nil] at hcount
      omega
  | busy index =>
      rw [Activity.count_busy] at htaken
      omega

/-- A drain is over only when all hooks have ended. -/
theorem completed_of_drained (hv : S.clockwork.Visits es v) (hdrained : S.Drained v) :
    (S.registry v).completed = (S.registry v).registered := by
  obtain ⟨a, hsound, -⟩ := h.sound hv
  obtain rfl := hsound.idle_of_not_draining hdrained.2
  have hcount := hsound.count
  rw [hsound.settled hdrained.1 rfl] at hcount
  simpa using hcount

/-- Where everything has settled, a drain is over if all hooks have ended. -/
theorem drained_of_clear (hv : S.clockwork.Visits es v) (hidle : S.clockwork.Idle v)
    (hclear : S.Clear (S.registry v).registered v) : S.Drained v := by
  obtain ⟨a, hsound, -⟩ := h.sound hv
  have hcount := hsound.count
  have hle := hclear.2
  refine ⟨hclear.1, ?_⟩
  cases a with
  | between => exact absurd hsound (h.settled hv hidle)
  | idle => exact hsound.not_draining
  | busy index =>
      rw [Activity.count_busy] at hcount
      omega

end Lasting

/-! ## Hooks under way -/

/-- In a state of the run, the hook under way is on time, and those that have ended have been under
way for their time and ended in their way. -/
structure OnTime (S : HookHost σ ε β τ) (es : List ε) (course : Nat → Course)
    (pace : σ → τ → Course → Prop) (v : σ) : Prop where
  busy : ∀ r, S.running v = some r → ∃ m, S.clockwork.Since es (S.Started r.index) m ∧
    r.limit = m + S.limit.ticks ∧ S.clockwork.clock v ≤ r.limit ∧
    pace v r.thread ((course r.index).startingAt m)
  done : ∀ i, S.Finished i v → ∃ m, S.clockwork.Since es (S.Started i) m ∧
    S.clockwork.Since es (S.Finished i) (m + (course i).span S.limit.ticks)
  failures : (S.registry v).failures = (List.range (S.registry v).completed).filterMap fun i =>
    ((course i).verdict S.limit).failure? i

/-- A hook that ends is on time, and ends in its way. -/
theorem verdict_of_ends (h : S.Fair es course pace) {r : Running τ} {e : Ending} {m : Nat}
    (hv : S.clockwork.Visits es v) (hlimit : r.limit = m + S.limit.ticks)
    (hle : S.clockwork.clock v ≤ r.limit) (hpace : pace v r.thread ((course i).startingAt m))
    (hends : (∀ x, pace v r.thread x → x = some (S.clockwork.clock v, e)) ∨
      e = .timedOut S.limit ∧ r.limit ≤ S.clockwork.clock v) :
    S.clockwork.clock v = m + (course i).span S.limit.ticks ∧
      e = (course i).verdict S.limit := by
  have hapart := h.apart i
  rcases hends with hown | ⟨rfl, hover⟩
  · have hcourse := hown _ hpace
    cases hc : course i with
    | none => simp [hc, Course.startingAt] at hcourse
    | some p =>
        simp only [hc, Course.startingAt, Option.map_some, Option.some.injEq,
          Prod.mk.injEq] at hcourse
        obtain ⟨hclock, rfl⟩ := hcourse
        have hshort : ¬S.limit.ticks < p.1 := by omega
        simp only [Course.span, Course.verdict, if_neg hshort, and_true]
        omega
  · cases hc : course i with
    | none =>
        simp only [Course.span, Course.verdict, and_true]
        omega
    | some p =>
        rw [hc] at hpace
        have hearly := h.early hv hpace
        have hne : p.1 ≠ S.limit.ticks := fun heq => hapart p.2 (by rw [hc, ← heq])
        have hlong : S.limit.ticks < p.1 := by omega
        simp only [Course.span, Course.verdict, if_pos hlong, and_true]
        omega

/-- An event keeps everything on time. -/
theorem onTime_step (h : S.Fair es course pace) {v' : σ} {e : ε}
    (hstep : S.clockwork.Step es v e v') (hv : OnTime S es course pace v) :
    OnTime S es course pace v' := by
  have kept (hcompleted : (S.registry v').completed = (S.registry v).completed)
      (hfailures : (S.registry v').failures = (S.registry v).failures)
      (hbusy : ∀ r, S.running v' = some r → ∃ m, S.clockwork.Since es (S.Started r.index) m ∧
        r.limit = m + S.limit.ticks ∧ S.clockwork.clock v' ≤ r.limit ∧
        pace v' r.thread ((course r.index).startingAt m)) : OnTime S es course pace v' := by
    refine ⟨hbusy, fun i hi => hv.done i ?_, ?_⟩
    · rwa [Finished, hcompleted] at hi
    · rw [hfailures, hcompleted, hv.failures]
  cases h.effect hstep with
  | none hrunning hcompleted hfailures hlimit hpace =>
      refine kept hcompleted hfailures ?_
      intro r hr
      rw [hrunning] at hr
      obtain ⟨m, hm, hrlimit, hle, hthread⟩ := hv.busy r hr
      exact ⟨m, hm, hrlimit, hlimit r hr hle, hpace r _ hr hthread⟩
  | starts r hr hnot hcompleted hfailures hlimit hpace =>
      refine kept hcompleted hfailures ?_
      intro r' hr'
      obtain rfl := Option.some.inj (hr.symm.trans hr')
      obtain ⟨a, hsound, hbusy⟩ := h.sound hstep.right
      have hstarted : S.Started r.index v' := by
        obtain rfl := hbusy r hr
        rw [Started, hsound.taken, ← hsound.busy _ rfl]
        exact Nat.lt_succ_self _
      refine ⟨_, hstep.since (h.lasting_started _) hnot hstarted, hlimit, ?_, hpace⟩
      rw [hlimit]
      exact Nat.le_add_right _ _
  | goes r t hr hr' hcompleted hfailures hclock hpace =>
      refine kept hcompleted hfailures ?_
      intro r' hr''
      obtain rfl := Option.some.inj (hr'.symm.trans hr'')
      obtain ⟨m, hm, hlimit, hle, hthread⟩ := hv.busy r hr
      exact ⟨m, hm, hlimit, hclock ▸ hle, hpace _ hthread⟩
  | ends r ending hr hr' hcompleted hfailures hclock hends =>
      obtain ⟨m, hm, hlimit, hle, hthread⟩ := hv.busy r hr
      obtain ⟨hover, rfl⟩ := h.verdict_of_ends hstep.left hlimit hle hthread hends
      obtain ⟨a, hsound, hbusy⟩ := h.sound hstep.left
      have hindex : r.index = (S.registry v).completed := hsound.busy _ (hbusy r hr)
      refine ⟨fun r' hr'' => ?_, ?_, ?_⟩
      · rw [hr'] at hr''
        cases hr''
      · intro i hi
        rw [Finished, hcompleted] at hi
        rcases Nat.lt_succ_iff_lt_or_eq.mp hi with hi | rfl
        · exact hv.done i hi
        · rw [← hindex]
          refine ⟨m, hm, ?_⟩
          rw [← hover, ← hclock]
          refine hstep.since (h.lasting_finished _) ?_ ?_
          · exact Nat.not_lt_of_le (Nat.le_of_eq hindex.symm)
          · rw [Finished, hcompleted, hindex]
            exact Nat.lt_succ_self _
      · rw [hfailures, hcompleted, List.range_succ, List.filterMap_append, ← hv.failures, hindex]
        congr 1

theorem onTime (h : S.Fair es course pace) (hv : S.clockwork.Visits es v) :
    OnTime S es course pace v := by
  refine hv.induction ?_ h.onTime_step
  refine ⟨fun r hr => ?_, fun i hi => ?_, ?_⟩
  · rw [h.calm] at hr
    cases hr
  · rw [Finished, h.empty] at hi
    cases hi
  · rw [h.empty]
    rfl

/-- A hook is under way only for its time. -/
theorem within (h : S.Fair es course pace) (hv : S.clockwork.Visits es v) {r : Running τ}
    (hr : S.running v = some r) : ∃ m, S.clockwork.Since es (S.Started r.index) m ∧
      m ≤ S.clockwork.clock v ∧
      S.clockwork.clock v ≤ m + (course r.index).span S.limit.ticks := by
  obtain ⟨m, hm, hlimit, hle, hpace⟩ := (h.onTime hv).busy r hr
  obtain ⟨a, hsound, hbusy⟩ := h.sound hv
  obtain rfl := hbusy r hr
  have hstarted : S.Started r.index v := by
    rw [Started, hsound.taken, ← hsound.busy _ rfl]
    exact Nat.lt_succ_self _
  refine ⟨m, hm, hm.le hv hstarted, ?_⟩
  cases hc : course r.index with
  | none => exact hlimit ▸ hle
  | some p =>
      rw [hc] at hpace
      have hearly := h.early hv hpace
      simp only [Course.span]
      omega

/-! ## The times -/

section Times

variable (h : S.Fair es course pace) (hrun : S.clockwork.run S.clockwork.start es = some w)

include h hrun

/-- A hook starts when its turn has come and it has been registered. -/
theorem starts (i : Nat) : S.clockwork.Scheduled es w (S.Started i) fun x =>
    ∃ a r, S.clockwork.Since es (S.Clear i) a ∧ S.clockwork.Since es (S.Registered i) r ∧
      x = max a r := by
  refine (scheduled_of_settling h.punctual hrun
    ((h.lasting_clear i).and (h.lasting_registered i)) ?_ ?_).congr fun x =>
      since_and (h.lasting_clear i) (h.lasting_registered i)
  · exact fun hv hstarted => h.clear_of_started hv hstarted
  · exact fun hv hidle hready => h.started_of_clear hv hidle hready.1 hready.2

/-- A hook ends when its time is over, if it is attended. -/
theorem ends {i : Nat} (hattended : S.Attended es i) :
    S.clockwork.Scheduled es w (S.Finished i) fun x =>
      ∃ m, S.clockwork.Since es (S.Started i) m ∧ x = m + (course i).span S.limit.ticks := by
  have hlast := visits_last hrun
  refine ⟨?_, ?_⟩
  · intro x hx
    obtain ⟨v, hv, hfinished, -⟩ := hx.1
    obtain ⟨m, hm, hend⟩ := (h.onTime hv).done i hfinished
    exact ⟨m, hm, hx.unique hend⟩
  · rintro x ⟨m, hm, rfl⟩ hover
    suffices hfinished : S.Finished i w by
      obtain ⟨m', hm', hend⟩ := (h.onTime hlast).done i hfinished
      rwa [hm.unique hm']
    by_contra hnot
    obtain ⟨u, hu, hstarted, -⟩ := hm.1
    have hthere := (h.lasting_started i).passes (hu.passes_last hrun) hstarted
    obtain ⟨r, hr, rfl⟩ := hattended w hlast hthere hnot
    rcases hover with hlt | ⟨hclock, hidle⟩
    · obtain ⟨m', hm', -, hle⟩ := h.within hlast hr
      rw [← hm.unique hm'] at hle
      omega
    · -- Its time is over, so there is something to do.
      obtain ⟨m', hm', hlimit, -, hpace⟩ := (h.onTime hlast).busy r hr
      obtain ⟨hcut, hown⟩ := h.waits hlast hidle hr
      obtain rfl := hm.unique hm'
      cases hc : course r.index with
      | none =>
          simp only [hc, Course.span] at hclock
          omega
      | some p =>
          rw [hc] at hpace
          have := hown _ _ hpace
          simp only [hc, Course.span] at hclock
          omega

/-- The way is clear for the next hook when this one ends. -/
theorem clear_succ {i : Nat} (hattended : S.Attended es i) :
    S.clockwork.Scheduled es w (S.Clear (i + 1)) fun x =>
      ∃ m, S.clockwork.Since es (S.Started i) m ∧ x = m + (course i).span S.limit.ticks := by
  refine Scheduled.trans (P := S.Finished i) ⟨h.since_clear_succ.mp, ?_⟩ (h.ends hrun hattended)
  exact fun hx _ => h.since_clear_succ.mpr hx

section Planned

variable (hbefore : ∀ v, S.clockwork.Visits es v → S.Ended v → n ≤ (S.registry v).registered)

include hbefore

omit h hrun in
/-- A hook that was registered in time does not have to be waited for. -/
theorem max_eq_clear {a r : Nat} (hi : i < n) (ha : S.clockwork.Since es (S.Clear i) a)
    (hr : S.clockwork.Since es (S.Registered i) r) : max a r = a := by
  obtain ⟨v, hv, hclear, rfl⟩ := ha.1
  exact max_eq_left (hr.le hv (Nat.lt_of_lt_of_le hi (hbefore v hv hclear.1)))

/-- Where `n` hooks have been registered before the end of the flow, the way is clear for each of
them after the times of those before it. -/
theorem clear_planned (hi : i ≤ n) (hattended : ∀ j < i, S.Attended es j) :
    S.clockwork.Scheduled es w (S.Clear i) fun x =>
      ∃ m, S.clockwork.Since es S.Ended m ∧ x = m + S.total course i := by
  induction i with
  | zero =>
      refine ⟨fun hx => ⟨_, since_clear_zero.mp hx, rfl⟩, ?_⟩
      rintro x ⟨m, hm, rfl⟩ -
      exact since_clear_zero.mpr hm
  | succ i ih =>
      have hbefore' := ih (Nat.le_of_succ_le hi) fun j hj => hattended j (Nat.lt_succ_of_lt hj)
      have hend := h.clear_succ hrun (hattended i (Nat.lt_succ_self i))
      have htotal : S.total course (i + 1) =
          S.total course i + (course i).span S.limit.ticks := rfl
      refine ⟨?_, ?_⟩
      · intro x hx
        obtain ⟨y, hy, rfl⟩ := hend.time hx
        obtain ⟨a, r, ha, hr, rfl⟩ := (h.starts hrun i).time hy
        obtain ⟨m, hm, hclear⟩ := hbefore'.time ha
        exact ⟨m, hm, by rw [max_eq_clear hbefore hi ha hr, hclear, htotal, Nat.add_assoc]⟩
      · rintro x ⟨m, hm, rfl⟩ hover
        rw [htotal, ← Nat.add_assoc] at hover ⊢
        have hover' := hover.mono (Nat.le_add_right (m + S.total course i) _)
        have ha := hbefore'.begins ⟨m, hm, rfl⟩ hover'
        obtain ⟨v, hv, hclear, -⟩ := ha.1
        obtain ⟨r, hr, -⟩ := exists_since (P := S.Registered i) hv
          (Nat.lt_of_lt_of_le hi (hbefore v hv hclear.1))
        refine hend.begins ⟨_, (h.starts hrun i).begins ⟨_, r, ha, hr, ?_⟩ hover', rfl⟩ hover
        exact (max_eq_clear hbefore hi ha hr).symm

/-- Each of these hooks starts after the times of those before it. -/
theorem starts_planned (hi : i < n) (hattended : ∀ j < i, S.Attended es j) :
    S.clockwork.Scheduled es w (S.Started i) fun x =>
      ∃ m, S.clockwork.Since es S.Ended m ∧ x = m + S.total course i := by
  refine (Scheduled.trans (P := S.Clear i) ⟨?_, ?_⟩
    (h.clear_planned hrun hbefore (Nat.le_of_lt hi) hattended))
  · intro x hx
    obtain ⟨a, r, ha, hr, rfl⟩ := (h.starts hrun i).time hx
    rwa [max_eq_clear hbefore hi ha hr]
  · intro x hx hover
    obtain ⟨v, hv, hclear, -⟩ := hx.1
    obtain ⟨r, hr, -⟩ := exists_since (P := S.Registered i) hv
      (Nat.lt_of_lt_of_le hi (hbefore v hv hclear.1))
    exact (h.starts hrun i).begins ⟨x, r, hx, hr, (max_eq_clear hbefore hi hx hr).symm⟩ hover

/-- If no other hook is registered until then, the drain that begins at the end of the flow is over
after the times of all. -/
theorem returns_planned (hattended : ∀ j < n, S.Attended es j)
    (hmeanwhile : ∀ v, S.clockwork.Visits es v → S.Ended v → ¬S.Returned es v →
      (S.registry v).registered ≤ n) :
    S.clockwork.Scheduled es w (S.Returned es) fun x =>
      ∃ m, S.clockwork.Since es S.Ended m ∧ x = m + S.total course n := by
  refine (scheduled_of_settling h.punctual hrun (h.lasting_clear n) ?_ ?_).trans
    (h.clear_planned hrun hbefore (Nat.le_refl n) hattended)
  · rintro v - ⟨u, middle, hu, hdrained, hmiddle⟩
    refine (h.lasting_clear n).run hmiddle ⟨hdrained.1, ?_⟩
    rw [h.completed_of_drained hu hdrained]
    exact hbefore u hu hdrained.1
  · intro v hv hidle hclear
    by_contra hnot
    have hcount := Nat.le_antisymm (hmeanwhile v hv hclear.1 hnot) (hbefore v hv hclear.1)
    exact hnot (Drained.returned (h.drained_of_clear hv hidle (hcount ▸ hclear)) hv)

end Planned

/-- Hooks that are run as they should be keep to their times. -/
theorem timetable : S.Timetable es w course where
  first := (h.starts hrun 0).congr fun x => by simp only [since_clear_zero]
  next i := (h.starts hrun (i + 1)).congr fun x => by simp only [h.since_clear_succ]
  ends i hattended := h.ends hrun hattended
  within v r hv hr := h.within hv hr
  failures v hv := (h.onTime hv).failures
  included v hv hdrained := h.completed_of_drained hv hdrained
  planned n hbefore i hi hattended := h.starts_planned hrun hbefore hi hattended
  returns n hbefore hattended hmeanwhile := h.returns_planned hrun hbefore hattended hmeanwhile

end Times

end Fair

end HookHost

end StageGraph.Hooks
