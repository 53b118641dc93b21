/-
# `StageGraph.Proofs.Clockwork` — systems whose time waits for their tasks

A system with a clock takes one event after another, and time passes in events of its own, whatever
the tasks of the system could still do.  Where the clock is paused as long as anything can go on, it
moves only when no task has a step, and never beyond the next moment for which a task waits.  A run
of this kind is *punctual*: between two moments everything settles (`Clockwork.Idle`), and no task
is late.

What lasts, once it holds, has a time since which it holds (`Clockwork.Since`): the least one that
the clock shows in a state of the run with this property.  Three facts are all that is needed to
compute such times.  The time of a conjunction is the greater of two times, the time of a
disjunction the lesser one, and where a property follows from another one as soon as everything has
settled, both have the same time (`Clockwork.scheduled_of_settling`).
-/
import Mathlib.Data.List.Induction
import Mathlib.Data.List.Forall2
import Mathlib.Order.Bounds.Basic
import Mathlib.Order.WellFounded

namespace StageGraph

/-- A system with a clock. -/
structure Clockwork (σ ε : Type) where
  start : σ
  fire : σ → ε → Option σ
  run : σ → List ε → Option σ
  clock : σ → Nat
  /-- The moment up to which time passes in an event, if it does. -/
  passes? : ε → Option Nat
  /-- No task has a step now. -/
  Idle : σ → Prop
  /-- A task waits for a moment. -/
  Waits : σ → Nat → Prop
  run_nil (v : σ) : run v [] = some v
  run_cons (v : σ) (e : ε) (es : List ε) : run v (e :: es) = (fire v e).bind fun v' => run v' es
  /-- Time stands still in an event, or the event is that it passes. -/
  clock_of_fire {v v' : σ} {e : ε} : fire v e = some v' →
    clock v' = clock v ∨ passes? e = some (clock v') ∧ clock v ≤ clock v'

namespace Clockwork

variable {σ ε : Type} {K : Clockwork σ ε} {w v v' u : σ} {e : ε} {es es' : List ε} {a b x : Nat}

/-! ## Runs -/

theorem run_append (K : Clockwork σ ε) (v : σ) (es es' : List ε) :
    K.run v (es ++ es') = (K.run v es).bind fun u => K.run u es' := by
  induction es generalizing v with
  | nil => rw [List.nil_append, K.run_nil, Option.bind_some]
  | cons e es ih =>
      rw [List.cons_append, K.run_cons, K.run_cons, Option.bind_assoc]
      congr 1
      funext u
      exact ih u

theorem run_trans (h : K.run v es = some u) (h' : K.run u es' = some w) :
    K.run v (es ++ es') = some w := by
  rw [run_append, h, Option.bind_some, h']

theorem run_single (h : K.fire v e = some v') : K.run v [e] = some v' := by
  rw [K.run_cons, h, Option.bind_some, K.run_nil]

theorem clock_le_of_fire (h : K.fire v e = some v') : K.clock v ≤ K.clock v' := by
  rcases K.clock_of_fire h with hsame | ⟨-, hle⟩
  · exact hsame.ge
  · exact hle

theorem clock_le_of_run (h : K.run v es = some v') : K.clock v ≤ K.clock v' := by
  induction es generalizing v with
  | nil =>
      obtain rfl := Option.some.inj ((K.run_nil v).symm.trans h)
      exact Nat.le_refl _
  | cons e es ih =>
      rw [K.run_cons] at h
      obtain ⟨u, hfire, hrun⟩ := Option.bind_eq_some_iff.mp h
      exact (clock_le_of_fire hfire).trans (ih hrun)

/-! ## Punctual runs -/

/-- Time passes only where no task has a step, and not beyond a moment for which a task waits. -/
def Punctual (K : Clockwork σ ε) (v : σ) : List ε → Prop
  | [] => True
  | e :: es =>
    (∀ moment, K.passes? e = some moment → K.Idle v ∧ ∀ m, K.Waits v m → moment ≤ m) ∧
    ∀ v', K.fire v e = some v' → K.Punctual v' es

/-- A run in which no time passes is punctual. -/
theorem punctual_of_still (h : ∀ e ∈ es, K.passes? e = none) : K.Punctual v es := by
  induction es generalizing v with
  | nil => trivial
  | cons e es ih =>
      refine ⟨fun moment he => ?_, fun v' _ => ih fun e he => h e (List.mem_cons_of_mem _ he)⟩
      rw [h e List.mem_cons_self] at he
      cases he

theorem Punctual.append (h : K.Punctual v es)
    (h' : ∀ v', K.run v es = some v' → K.Punctual v' es') : K.Punctual v (es ++ es') := by
  induction es generalizing v with
  | nil => exact h' v (K.run_nil v)
  | cons e es ih =>
      refine ⟨h.1, fun u hfire => ih (h.2 u hfire) fun v' hrun => h' v' ?_⟩
      rw [K.run_cons, hfire, Option.bind_some, hrun]

theorem Punctual.left (h : K.Punctual v (es ++ es')) : K.Punctual v es := by
  induction es generalizing v with
  | nil => trivial
  | cons e es ih => exact ⟨h.1, fun u hfire => ih (h.2 u hfire)⟩

theorem Punctual.right (h : K.Punctual v (es ++ es')) (hrun : K.run v es = some v') :
    K.Punctual v' es' := by
  induction es generalizing v with
  | nil =>
      obtain rfl := Option.some.inj ((K.run_nil v).symm.trans hrun)
      exact h
  | cons e es ih =>
      rw [K.run_cons] at hrun
      obtain ⟨u, hfire, hrest⟩ := Option.bind_eq_some_iff.mp hrun
      exact ih (h.2 u hfire) hrest

/-- Before a moment is over everything has settled, and nothing that was due by then is left. -/
theorem Punctual.settles (h : K.Punctual v es) (hrun : K.run v es = some v')
    (hle : K.clock v ≤ a) (hlt : a < K.clock v') :
    ∃ first rest u, es = first ++ rest ∧ K.run v first = some u ∧ K.run u rest = some v' ∧
      K.Idle u ∧ K.clock u ≤ a ∧ ∀ m, K.Waits u m → a < m := by
  induction es generalizing v with
  | nil =>
      obtain rfl := Option.some.inj ((K.run_nil v).symm.trans hrun)
      omega
  | cons e es ih =>
      have hrun' := hrun
      rw [K.run_cons] at hrun'
      obtain ⟨v₁, hfire, hrest⟩ := Option.bind_eq_some_iff.mp hrun'
      by_cases hnext : K.clock v₁ ≤ a
      · obtain ⟨first, rest, u, rfl, hfirst, hu⟩ := ih (h.2 v₁ hfire) hrest hnext
        exact ⟨e :: first, rest, u, rfl, by rw [K.run_cons, hfire]; exact hfirst, hu⟩
      · -- This is the event in which the moment is left behind.
        rcases K.clock_of_fire hfire with hsame | ⟨hevent, -⟩
        · omega
        · obtain ⟨hidle, hwaits⟩ := h.1 _ hevent
          refine ⟨[], e :: es, v, rfl, K.run_nil v, hrun, hidle, hle, ?_⟩
          intro m hm
          exact Nat.lt_of_not_le fun hma => hnext ((hwaits m hm).trans hma)

/-! ## The states of a run -/

/-- The run from the beginning comes through a state. -/
def Visits (K : Clockwork σ ε) (es : List ε) (v : σ) : Prop :=
  ∃ first rest, es = first ++ rest ∧ K.run K.start first = some v

/-- The run from the beginning comes through a state, and then, or at once, through another. -/
def Passes (K : Clockwork σ ε) (es : List ε) (v v' : σ) : Prop :=
  ∃ first middle rest, es = first ++ (middle ++ rest) ∧ K.run K.start first = some v ∧
    K.run v middle = some v'

/-- In the run from the beginning, an event leads from a state to the next one. -/
def Step (K : Clockwork σ ε) (es : List ε) (v : σ) (e : ε) (v' : σ) : Prop :=
  ∃ first rest, es = first ++ e :: rest ∧ K.run K.start first = some v ∧ K.fire v e = some v'

theorem visits_last (hrun : K.run K.start es = some w) : K.Visits es w :=
  ⟨es, [], (List.append_nil es).symm, hrun⟩

theorem Passes.run (h : K.Passes es v v') : ∃ middle, K.run v middle = some v' := by
  obtain ⟨-, middle, -, -, -, hrun⟩ := h
  exact ⟨middle, hrun⟩

theorem Passes.left (h : K.Passes es v v') : K.Visits es v := by
  obtain ⟨first, middle, rest, rfl, hfirst, -⟩ := h
  exact ⟨first, middle ++ rest, rfl, hfirst⟩

theorem Passes.right (h : K.Passes es v v') : K.Visits es v' := by
  obtain ⟨first, middle, rest, rfl, hfirst, hmiddle⟩ := h
  exact ⟨first ++ middle, rest, by simp, run_trans hfirst hmiddle⟩

theorem Passes.clock_le (h : K.Passes es v v') : K.clock v ≤ K.clock v' := by
  obtain ⟨middle, hrun⟩ := h.run
  exact clock_le_of_run hrun

/-- Of two states of a run one comes first. -/
theorem Visits.linked (h : K.Visits es v) (h' : K.Visits es v') :
    K.Passes es v v' ∨ K.Passes es v' v := by
  obtain ⟨first, rest, rfl, hrun⟩ := h
  obtain ⟨first', rest', heq, hrun'⟩ := h'
  rcases List.append_eq_append_iff.mp heq with ⟨middle, rfl, rfl⟩ | ⟨middle, rfl, rfl⟩
  · rw [run_append, hrun, Option.bind_some] at hrun'
    exact .inl ⟨first, middle, rest', rfl, hrun, hrun'⟩
  · rw [run_append, hrun', Option.bind_some] at hrun
    exact .inr ⟨first', middle, rest, by simp, hrun', hrun⟩

theorem Visits.passes_of_lt (h : K.Visits es v) (h' : K.Visits es v')
    (hlt : K.clock v < K.clock v') : K.Passes es v v' := by
  rcases h.linked h' with hpasses | hpasses
  · exact hpasses
  · exact absurd hpasses.clock_le (Nat.not_le_of_lt hlt)

theorem Visits.passes_last (h : K.Visits es v) (hrun : K.run K.start es = some w) :
    K.Passes es v w := by
  obtain ⟨first, rest, rfl, hfirst⟩ := h
  rw [run_append, hfirst, Option.bind_some] at hrun
  exact ⟨first, rest, [], by simp, hfirst, hrun⟩

theorem Step.fire (h : K.Step es v e v') : K.fire v e = some v' := by
  obtain ⟨-, -, -, -, hfire⟩ := h
  exact hfire

theorem Step.passes (h : K.Step es v e v') : K.Passes es v v' := by
  obtain ⟨first, rest, rfl, hrun, hfire⟩ := h
  exact ⟨first, [e], rest, rfl, hrun, run_single hfire⟩

theorem Step.left (h : K.Step es v e v') : K.Visits es v := h.passes.left

theorem Step.right (h : K.Step es v e v') : K.Visits es v' := h.passes.right

/-- A state of the run is not later than an event, or it is one after it. -/
theorem Step.parts (h : K.Step es v e v') (hu : K.Visits es u) :
    K.Passes es u v ∨ K.Passes es v' u := by
  obtain ⟨first, rest, rfl, hrun, hfire⟩ := h
  obtain ⟨first', rest', heq, hrun'⟩ := hu
  rcases List.append_eq_append_iff.mp heq with ⟨middle, rfl, hmiddle⟩ | ⟨middle, rfl, -⟩
  · rw [run_append, hrun, Option.bind_some] at hrun'
    cases middle with
    | nil =>
        obtain rfl := Option.some.inj ((K.run_nil v).symm.trans hrun')
        exact .inl ⟨first, [], e :: rest, rfl, hrun, K.run_nil v⟩
    | cons e' middle =>
        obtain ⟨rfl, rfl⟩ := List.cons.inj hmiddle
        rw [K.run_cons, hfire, Option.bind_some] at hrun'
        exact .inr ⟨first ++ [e], middle, rest', by simp, run_trans hrun (run_single hfire), hrun'⟩
  · rw [run_append, hrun', Option.bind_some] at hrun
    exact .inl ⟨first', middle, e :: rest, by simp, hrun', hrun⟩

/-- In an event of a punctual run, time passes only as far as it may. -/
theorem Step.punctual (h : K.Step es v e v') (hpunctual : K.Punctual K.start es) {moment : Nat}
    (he : K.passes? e = some moment) : K.Idle v ∧ ∀ m, K.Waits v m → moment ≤ m := by
  obtain ⟨first, rest, rfl, hrun, -⟩ := h
  exact (hpunctual.right hrun).1 moment he

/-- What holds in the beginning, and after each event if it held before, holds in all states of the
run. -/
theorem Visits.induction {P : σ → Prop} (h : K.Visits es v) (hstart : P K.start)
    (hstep : ∀ {v e v'}, K.Step es v e v' → P v → P v') : P v := by
  obtain ⟨first, rest, hes, hrun⟩ := h
  induction first using List.reverseRecOn generalizing v rest with
  | nil =>
      obtain rfl := Option.some.inj ((K.run_nil _).symm.trans hrun)
      exact hstart
  | append_singleton first e ih =>
      rw [run_append] at hrun
      obtain ⟨u, hu, hrest⟩ := Option.bind_eq_some_iff.mp hrun
      rw [K.run_cons] at hrest
      obtain ⟨v', hfire, hnil⟩ := Option.bind_eq_some_iff.mp hrest
      obtain rfl := Option.some.inj ((K.run_nil _).symm.trans hnil)
      rw [List.append_assoc, List.singleton_append] at hes
      exact hstep ⟨first, rest, hes, hu, hfire⟩ (ih (e :: rest) hes hu)

/-- Before a moment is over a punctual run comes through a state in which everything has settled. -/
theorem Passes.settles (h : K.Passes es v v') (hpunctual : K.Punctual K.start es)
    (hle : K.clock v ≤ a) (hlt : a < K.clock v') :
    ∃ u, K.Passes es v u ∧ K.Passes es u v' ∧ K.Idle u ∧ K.clock u ≤ a ∧
      ∀ m, K.Waits u m → a < m := by
  obtain ⟨first, middle, rest, rfl, hfirst, hmiddle⟩ := h
  obtain ⟨before, after, u, rfl, hbefore, hafter, hu⟩ :=
    ((hpunctual.right hfirst).left).settles hmiddle hle hlt
  refine ⟨u, ⟨first, before, after ++ rest, by simp, hfirst, hbefore⟩, ?_, hu⟩
  exact ⟨first ++ before, after, rest, by simp, run_trans hfirst hbefore, hafter⟩

/-! ## Times -/

/-- What holds in some state holds in every later one. -/
structure Lasting (K : Clockwork σ ε) (P : σ → Prop) : Prop where
  run : ∀ {v v' : σ} {es : List ε}, K.run v es = some v' → P v → P v'

/-- In the run from the beginning, the time since which a property holds. -/
def Since (K : Clockwork σ ε) (es : List ε) (P : σ → Prop) (x : Nat) : Prop :=
  IsLeast {m | ∃ v, K.Visits es v ∧ P v ∧ K.clock v = m} x

variable {P Q : σ → Prop}

/-- What every event keeps lasts. -/
theorem lasting_of_fire (h : ∀ {v e v'}, K.fire v e = some v' → P v → P v') : K.Lasting P := by
  refine ⟨?_⟩
  intro v v' es hrun hv
  induction es generalizing v with
  | nil =>
      obtain rfl := Option.some.inj ((K.run_nil v).symm.trans hrun)
      exact hv
  | cons e es ih =>
      rw [K.run_cons] at hrun
      obtain ⟨u, hfire, hrest⟩ := Option.bind_eq_some_iff.mp hrun
      exact ih hrest (h hfire hv)

theorem Lasting.passes (h : K.Lasting P) (hpasses : K.Passes es v v') (hv : P v) : P v' := by
  obtain ⟨middle, hrun⟩ := hpasses.run
  exact h.run hrun hv

theorem Since.le (h : K.Since es P x) (hv : K.Visits es v) (hP : P v) : x ≤ K.clock v :=
  h.2 ⟨v, hv, hP, rfl⟩

theorem Since.unique (h : K.Since es P a) (h' : K.Since es P b) : a = b := IsLeast.unique h h'

theorem exists_since (hv : K.Visits es v) (hP : P v) : ∃ x, K.Since es P x ∧ x ≤ K.clock v := by
  obtain ⟨x, hx, hleast⟩ := WellFounded.has_min wellFounded_lt
    {m | ∃ v, K.Visits es v ∧ P v ∧ K.clock v = m} ⟨_, v, hv, hP, rfl⟩
  have hsince : K.Since es P x := ⟨hx, fun m hm => Nat.le_of_not_lt (hleast m hm)⟩
  exact ⟨x, hsince, hsince.le hv hP⟩

/-- What holds since some time holds at every later one. -/
theorem Since.holds (h : K.Since es P x) (hP : K.Lasting P) (hv : K.Visits es v)
    (hlt : x < K.clock v) : P v := by
  obtain ⟨u, hu, hPu, rfl⟩ := h.1
  exact hP.passes (hu.passes_of_lt hv hlt) hPu

/-- What lasts holds since the event after which it holds for the first time. -/
theorem Step.since (h : K.Step es v e v') (hP : K.Lasting P) (hnot : ¬P v) (hv' : P v') :
    K.Since es P (K.clock v') := by
  refine ⟨⟨v', h.right, hv', rfl⟩, ?_⟩
  rintro m ⟨u, hu, hPu, rfl⟩
  rcases h.parts hu with hpasses | hpasses
  · exact absurd (hP.passes hpasses hPu) hnot
  · exact hpasses.clock_le

theorem Lasting.and (hP : K.Lasting P) (hQ : K.Lasting Q) : K.Lasting fun v => P v ∧ Q v :=
  ⟨fun hrun hv => ⟨hP.run hrun hv.1, hQ.run hrun hv.2⟩⟩

theorem Since.and (ha : K.Since es P a) (hb : K.Since es Q b) (hP : K.Lasting P)
    (hQ : K.Lasting Q) : K.Since es (fun v => P v ∧ Q v) (max a b) := by
  refine ⟨?_, ?_⟩
  · obtain ⟨u, hu, hPu, rfl⟩ := ha.1
    obtain ⟨v, hv, hQv, rfl⟩ := hb.1
    rcases hu.linked hv with hpasses | hpasses
    · exact ⟨v, hv, ⟨hP.passes hpasses hPu, hQv⟩, (max_eq_right hpasses.clock_le).symm⟩
    · exact ⟨u, hu, ⟨hPu, hQ.passes hpasses hQv⟩, (max_eq_left hpasses.clock_le).symm⟩
  · rintro m ⟨v, hv, ⟨hPv, hQv⟩, rfl⟩
    exact max_le (ha.le hv hPv) (hb.le hv hQv)

/-- Two properties hold together since the greater of two times. -/
theorem since_and (hP : K.Lasting P) (hQ : K.Lasting Q) :
    K.Since es (fun v => P v ∧ Q v) x ↔
      ∃ a b, K.Since es P a ∧ K.Since es Q b ∧ x = max a b := by
  constructor
  · intro h
    obtain ⟨v, hv, ⟨hPv, hQv⟩, -⟩ := h.1
    obtain ⟨a, ha, -⟩ := exists_since hv hPv
    obtain ⟨b, hb, -⟩ := exists_since hv hQv
    exact ⟨a, b, ha, hb, h.unique (ha.and hb hP hQ)⟩
  · rintro ⟨a, b, ha, hb, rfl⟩
    exact ha.and hb hP hQ

theorem since_congr (h : ∀ v, K.Visits es v → (P v ↔ Q v)) :
    K.Since es P x ↔ K.Since es Q x := by
  have hset : {m | ∃ v, K.Visits es v ∧ P v ∧ K.clock v = m} =
      {m | ∃ v, K.Visits es v ∧ Q v ∧ K.clock v = m} := by
    ext m
    exact exists_congr fun v => and_congr_right fun hv => and_congr_left fun _ => h v hv
  rw [Since, Since, hset]

variable {ι : Type} {R : ι → σ → Prop} {is : List ι}

theorem lasting_all (is : List ι) (hR : ∀ i, K.Lasting (R i)) : K.Lasting fun v => ∀ i ∈ is, R i v :=
  ⟨fun hrun hv i hi => (hR i).run hrun (hv i hi)⟩

/-- A property and all of a list hold together since the greatest of their times. -/
theorem since_all (hP : K.Lasting P) (hR : ∀ i, K.Lasting (R i)) (ha : K.Since es P a) :
    K.Since es (fun v => P v ∧ ∀ i ∈ is, R i v) x ↔
      ∃ xs, List.Forall₂ (fun i y => K.Since es (R i) y) is xs ∧ x = xs.foldr max a := by
  induction is generalizing x with
  | nil =>
      simp only [List.not_mem_nil, false_implies, implies_true, and_true,
        List.forall₂_nil_left_iff, exists_eq_left, List.foldr_nil]
      exact ⟨fun h => h.unique ha, fun h => h ▸ ha⟩
  | cons i is ih =>
      have hsplit (v : σ) : (P v ∧ ∀ j ∈ i :: is, R j v) ↔ R i v ∧ P v ∧ ∀ j ∈ is, R j v := by
        rw [List.forall_mem_cons]
        exact and_left_comm
      rw [since_congr fun v _ => hsplit v, since_and (hR i) (hP.and (lasting_all is hR))]
      constructor
      · rintro ⟨y, z, hy, hz, rfl⟩
        obtain ⟨xs, hxs, rfl⟩ := ih.mp hz
        exact ⟨y :: xs, .cons hy hxs, rfl⟩
      · rintro ⟨xs, hxs, rfl⟩
        cases hxs with
        | cons hy hxs => exact ⟨_, _, hy, ih.mpr ⟨_, hxs, rfl⟩, rfl⟩

theorem lasting_any (is : List ι) (hR : ∀ i, K.Lasting (R i)) : K.Lasting fun v => ∃ i ∈ is, R i v := by
  refine ⟨?_⟩
  rintro v v' es hrun ⟨i, hi, hv⟩
  exact ⟨i, hi, (hR i).run hrun hv⟩

/-- One of a list of properties holds since the least of their times. -/
theorem since_any : K.Since es (fun v => ∃ i ∈ is, R i v) x ↔
    IsLeast {y | ∃ i ∈ is, K.Since es (R i) y} x := by
  have hlower (y : Nat) (hleast : ∀ i ∈ is, ∀ z, K.Since es (R i) z → y ≤ z) (v : σ)
      (hv : K.Visits es v) (hany : ∃ i ∈ is, R i v) : y ≤ K.clock v := by
    obtain ⟨i, hi, hRv⟩ := hany
    obtain ⟨z, hz, hle⟩ := exists_since hv hRv
    exact (hleast i hi z hz).trans hle
  constructor
  · intro h
    obtain ⟨v, hv, ⟨i, hi, hRv⟩, rfl⟩ := h.1
    refine ⟨⟨i, hi, ⟨v, hv, hRv, rfl⟩, ?_⟩, ?_⟩
    · rintro m ⟨u, hu, hRu, rfl⟩
      exact h.le hu ⟨i, hi, hRu⟩
    · rintro y ⟨j, hj, hy⟩
      obtain ⟨u, hu, hRu, rfl⟩ := hy.1
      exact h.le hu ⟨j, hj, hRu⟩
  · rintro ⟨⟨i, hi, hx⟩, hleast⟩
    obtain ⟨v, hv, hRv, rfl⟩ := hx.1
    refine ⟨⟨v, hv, ⟨i, hi, hRv⟩, rfl⟩, ?_⟩
    rintro m ⟨u, hu, hany, rfl⟩
    exact hlower _ (fun j hj z hz => hleast ⟨j, hj, hz⟩) u hu hany

/-! ## What happens at once -/

/-- The moment is over, or everything that is due by then has been done. -/
def Over (K : Clockwork σ ε) (w : σ) (x : Nat) : Prop :=
  x < K.clock w ∨ x = K.clock w ∧ K.Idle w

/-- In the run, which leads to `w`, the property begins to hold at the time that `T` tells, and at
no other; it does if the run comes so far. -/
structure Scheduled (K : Clockwork σ ε) (es : List ε) (w : σ) (P : σ → Prop) (T : Nat → Prop) :
    Prop where
  time : ∀ {x}, K.Since es P x → T x
  begins : ∀ {x}, T x → K.Over w x → K.Since es P x

theorem Over.mono (h : K.Over w x) (hle : a ≤ x) : K.Over w a := by
  rcases h with hlt | ⟨hclock, hidle⟩
  · exact .inl (hle.trans_lt hlt)
  · rcases hle.lt_or_eq with hlt | rfl
    · exact .inl (hclock ▸ hlt)
    · exact .inr ⟨hclock, hidle⟩

/-- A property that begins with another one begins at its time. -/
theorem Scheduled.trans {T : Nat → Prop} (h : K.Scheduled es w Q (K.Since es P))
    (hP : K.Scheduled es w P T) : K.Scheduled es w Q T :=
  ⟨fun hx => hP.time (h.time hx), fun hx hover => h.begins (hP.begins hx hover) hover⟩

theorem Scheduled.congr {T T' : Nat → Prop} (h : K.Scheduled es w P T) (hT : ∀ x, T x ↔ T' x) :
    K.Scheduled es w P T' :=
  ⟨fun hx => (hT _).mp (h.time hx), fun hx => h.begins ((hT _).mpr hx)⟩

section Settling

/-- Where `Q` holds as soon as `P` does and everything has settled, it holds before the moment is
over. -/
theorem exists_settled (hpunctual : K.Punctual K.start es) (hP : K.Lasting P)
    (hsettled : ∀ {v}, K.Visits es v → K.Idle v → P v → Q v) (hpasses : K.Passes es v v')
    (hv : P v) (hlt : K.clock v < K.clock v') :
    ∃ u, K.Passes es u v' ∧ Q u ∧ K.clock u = K.clock v := by
  obtain ⟨u, hbefore, hafter, hidle, hle, -⟩ := hpasses.settles hpunctual (Nat.le_refl _) hlt
  exact ⟨u, hafter, hsettled hbefore.right hidle (hP.passes hbefore hv),
    Nat.le_antisymm hle hbefore.clock_le⟩

/-- As long as `Q` does not hold, the time is not later than that of `P`. -/
theorem Since.clock_le (h : K.Since es P a) (hpunctual : K.Punctual K.start es)
    (hP : K.Lasting P) (hQ : K.Lasting Q)
    (hsettled : ∀ {v}, K.Visits es v → K.Idle v → P v → Q v) (hv : K.Visits es v) (hnot : ¬Q v) :
    K.clock v ≤ a := by
  refine Nat.le_of_not_lt fun hlt => ?_
  obtain ⟨u, hu, hPu, rfl⟩ := h.1
  obtain ⟨u', hpasses, hQu, -⟩ :=
    exists_settled hpunctual hP hsettled (hu.passes_of_lt hv hlt) hPu hlt
  exact hnot (hQ.passes hpasses hQu)

/-- Where `Q` needs `P`, and holds as soon as `P` does and everything has settled, both hold since
the same time. -/
theorem scheduled_of_settling (hpunctual : K.Punctual K.start es)
    (hrun : K.run K.start es = some w) (hP : K.Lasting P)
    (hneeds : ∀ {v}, K.Visits es v → Q v → P v)
    (hsettled : ∀ {v}, K.Visits es v → K.Idle v → P v → Q v) :
    K.Scheduled es w Q (K.Since es P) := by
  refine ⟨?_, ?_⟩
  · intro x hx
    obtain ⟨v, hv, hQv, rfl⟩ := hx.1
    refine ⟨⟨v, hv, hneeds hv hQv, rfl⟩, ?_⟩
    rintro m ⟨u, hu, hPu, rfl⟩
    refine Nat.le_of_not_lt fun hlt => ?_
    obtain ⟨u', hpasses, hQu', hclock⟩ :=
      exists_settled hpunctual hP hsettled (hu.passes_of_lt hv hlt) hPu hlt
    have := hx.le hpasses.left hQu'
    omega
  · intro x hx hover
    refine ⟨?_, ?_⟩
    · obtain ⟨v, hv, hPv, rfl⟩ := hx.1
      rcases hover with hlt | ⟨hclock, hidle⟩
      · obtain ⟨u, hpasses, hQu, hclock⟩ :=
          exists_settled hpunctual hP hsettled (hv.passes_last hrun) hPv hlt
        exact ⟨u, hpasses.left, hQu, hclock⟩
      · have hlast := hP.passes (hv.passes_last hrun) hPv
        exact ⟨w, visits_last hrun, hsettled (visits_last hrun) hidle hlast, hclock.symm⟩
    · rintro m ⟨v, hv, hQv, rfl⟩
      exact hx.le hv (hneeds hv hQv)

end Settling

end Clockwork

end StageGraph
