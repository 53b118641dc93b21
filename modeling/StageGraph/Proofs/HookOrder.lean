/-
# `StageGraph.Proofs.HookOrder` — hooks run once, in order, one at a time

Two flags of a registry decide who starts a drain: whether the flow is terminal
and whether a drain is under way.  They are right (`Registry.Sound`) if the
second one says what is really going on, a drain is only under way where the
flow is terminal, and where none is nothing is left to do.  The rest is
arithmetic: hooks that have ended, the hook that runs, and hooks that wait are
numbered one after another, in this order.

The registry's four functions keep it sound, whoever calls them.  A `Chronicle`
is a registry with the drains under way and a record of everything that has
happened; its events come in any order.  What the registry promises is read off
the record.
-/
import StageGraph.Hooks.Drain

namespace StageGraph.Hooks

/-! ## The registry -/

/-- What is going on with the hooks. -/
inductive Activity where
  /-- No drain is under way. -/
  | idle
  /-- A drain is between two hooks. -/
  | between
  /-- A drain runs the hook at an index. -/
  | busy (index : Nat)

namespace Activity

/-- How many hooks are under way. -/
def count : Activity → Nat
  | busy _ => 1
  | _ => 0

/-- The drains under way, each by what it does. -/
def drains : Activity → List Activity
  | idle => []
  | a => [a]

@[simp] theorem count_idle : idle.count = 0 := rfl

@[simp] theorem count_between : between.count = 0 := rfl

@[simp] theorem count_busy (index : Nat) : (busy index).count = 1 := rfl

/-- A drain that is under way is the only one. -/
theorem eq_of_mem_drains {a b : Activity} (h : b ∈ a.drains) : a = b ∧ a.drains = [b] := by
  cases a with
  | idle => cases h
  | _ =>
      rw [List.mem_singleton.mp h]
      exact ⟨rfl, rfl⟩

end Activity

namespace Registry

variable {β : Type}

section Fields

variable (r : Registry β) (s : FlowState)

@[simp] theorem next?_registered : r.next?.1.registered = r.registered := by
  unfold next?; split <;> rfl

@[simp] theorem next?_terminal : r.next?.1.terminal = r.terminal := by
  unfold next?; split <;> rfl

@[simp] theorem next?_completed : r.next?.1.completed = r.completed := by
  unfold next?; split <;> rfl

@[simp] theorem next?_failures : r.next?.1.failures = r.failures := by
  unfold next?; split <;> rfl

@[simp] theorem terminate_pending : (r.terminate s).1.pending = r.pending := by
  unfold terminate; split <;> (try split) <;> rfl

@[simp] theorem terminate_registered : (r.terminate s).1.registered = r.registered := by
  unfold terminate; split <;> (try split) <;> rfl

@[simp] theorem terminate_completed : (r.terminate s).1.completed = r.completed := by
  unfold terminate; split <;> (try split) <;> rfl

@[simp] theorem terminate_failures : (r.terminate s).1.failures = r.failures := by
  unfold terminate; split <;> (try split) <;> rfl

/-- The first state in which the flow is ended stays. -/
theorem terminate_terminal : (r.terminate s).1.terminal = r.terminal.or (some s) := by
  unfold terminate isTerminal
  cases hterm : r.terminal with
  | some s' => simp [hterm]
  | none => cases r.draining <;> simp

end Fields

/-- The flags and numbers of a registry are right for what is going on. -/
structure Sound (r : Registry β) (a : Activity) : Prop where
  draining : r.draining = true ↔ a ≠ .idle
  terminal : a ≠ .idle → r.terminal.isSome
  settled : r.terminal.isSome → a = .idle → r.pending = []
  early : r.terminal = none → r.completed = 0
  busy : ∀ index, a = .busy index → index = r.completed
  indexes : r.pending.map Pending.index = List.range' (r.completed + a.count) r.pending.length
  count : r.completed + a.count + r.pending.length = r.registered
  failed : ∀ f ∈ r.failures, f.index < r.completed
  sorted : r.failures.Pairwise fun f f' => f.index < f'.index

theorem sound_empty : (empty : Registry β).Sound .idle where
  draining := by simp [empty]
  terminal := by simp
  settled := by simp [empty]
  early := by simp [empty]
  busy := by simp
  indexes := rfl
  count := rfl
  failed := by simp [empty]
  sorted := .nil

namespace Sound

variable {r : Registry β} {a : Activity}

/-- Where the registry says that no drain is under way, none is. -/
theorem idle_of_not_draining (h : r.Sound a) (hd : r.draining = false) : a = .idle := by
  cases a with
  | idle => rfl
  | _ =>
      have := h.draining.mpr (by simp)
      rw [hd] at this
      cases this

/-- Before the end of the flow no drain is under way. -/
theorem idle_of_open (h : r.Sound a) (hnone : r.terminal = none) : a = .idle := by
  cases a with
  | idle => rfl
  | _ =>
      have := h.terminal (by simp)
      simp [hnone] at this

theorem not_draining (h : r.Sound .idle) : r.draining = false := by
  cases hd : r.draining with
  | false => rfl
  | true => exact absurd rfl (h.draining.mp hd)

/-- A new hook comes last; if it starts a drain, none was under way. -/
theorem register (h : r.Sound a) (body : β) :
    (r.register body).1.Sound (if (r.register body).2.2 then .between else a) ∧
      ((r.register body).2.2 = true → a = .idle) := by
  have hindexes : (r.pending.map Pending.index ++ [r.registered]) =
      List.range' (r.completed + a.count) (r.pending.length + 1) := by
    rw [h.indexes, List.range'_concat, ← h.count, Nat.one_mul]
  have hcount : r.completed + a.count + (r.pending.length + 1) = r.registered + 1 := by
    have := h.count
    omega
  cases hstarts : r.isTerminal && !r.draining with
  | true =>
      obtain ⟨hterm, hdrain⟩ : r.terminal.isSome ∧ r.draining = false := by
        simpa [isTerminal] using hstarts
      obtain rfl := h.idle_of_not_draining hdrain
      simp only [Registry.register, hstarts, if_true]
      refine ⟨?_, fun _ => trivial⟩
      exact {
        draining := by simp
        terminal := fun _ => hterm
        settled := by simp
        early := h.early
        busy := by simp
        indexes := by simpa using hindexes
        count := by simpa using hcount
        failed := h.failed
        sorted := h.sorted }
  | false =>
      simp only [Registry.register, hstarts, Bool.or_false, Bool.false_eq_true, if_false]
      refine ⟨?_, by simp⟩
      exact {
        draining := h.draining
        terminal := h.terminal
        settled := by
          intro hterm hidle
          subst hidle
          simp [isTerminal, hterm, h.not_draining] at hstarts
        early := h.early
        busy := h.busy
        indexes := by simpa using hindexes
        count := by simpa using hcount
        failed := h.failed
        sorted := h.sorted }

/-- The first call that ends the flow starts a drain; a later one does nothing. -/
theorem terminate (h : r.Sound a) (s : FlowState) :
    (r.terminate s).1.Sound (if (r.terminate s).2 then .between else a) ∧
      ((r.terminate s).2 = true → a = .idle) := by
  cases hterm : r.terminal with
  | some s' => simpa [Registry.terminate, isTerminal, hterm] using h
  | none =>
      obtain rfl := h.idle_of_open hterm
      simp only [Registry.terminate, isTerminal, hterm, h.not_draining, Option.isSome_none,
        Bool.false_eq_true, if_false, if_true]
      refine ⟨?_, fun _ => trivial⟩
      exact {
        draining := by simp
        terminal := by simp
        settled := by simp
        early := by simp
        busy := by simp
        indexes := h.indexes
        count := h.count
        failed := h.failed
        sorted := h.sorted }

/-- A drain takes the next hook: the first one that has not been taken. -/
theorem start (h : r.Sound .between) {p : Pending β} (hp : r.next?.2 = some p) :
    r.next?.1.Sound (.busy p.index) ∧ p.index = r.completed ∧ r.pending = p :: r.next?.1.pending := by
  cases hpending : r.pending with
  | nil => simp [next?, hpending] at hp
  | cons q rest =>
      obtain rfl : q = p := by simpa [next?, hpending] using hp
      have hindexes := h.indexes
      simp only [hpending, Activity.count_between, List.map_cons, List.length_cons, List.range'_succ,
        List.cons.injEq, Nat.add_zero] at hindexes
      have hcount := h.count
      simp only [hpending, Activity.count_between, List.length_cons] at hcount
      simp only [next?, hpending]
      refine ⟨?_, hindexes.1, trivial⟩
      exact {
        draining := by simpa using h.draining.mpr (by simp)
        terminal := fun _ => h.terminal (by simp)
        settled := by simp
        early := h.early
        busy := fun index hi => by cases hi; exact hindexes.1
        indexes := hindexes.2
        count := by simp only [Activity.count_busy]; omega
        failed := h.failed
        sorted := h.sorted }

/-- A drain without a next hook is over. -/
theorem leave (h : r.Sound .between) (hn : r.next?.2 = none) :
    r.next?.1.Sound .idle ∧ r.pending = [] := by
  have hpending : r.pending = [] := by
    cases hp : r.pending with
    | nil => rfl
    | cons p rest => simp [next?, hp] at hn
  simp only [next?, hpending]
  refine ⟨?_, trivial⟩
  exact {
    draining := by simp
    terminal := by simp
    settled := fun _ _ => rfl
    early := h.early
    busy := by simp
    indexes := by simp
    count := by have := h.count; simpa [hpending] using this
    failed := h.failed
    sorted := h.sorted }

/-- A hook ends; what went wrong with it goes to the end of the failures. -/
theorem finish {index : Nat} (h : r.Sound (.busy index)) (e : Ending) :
    (r.record (e.failure? index)).Sound .between := by
  have hindex : index = r.completed := h.busy index rfl
  have hnew : ∀ f ∈ (e.failure? index).toList, f.index = r.completed := by
    intro f hf
    obtain ⟨m, -, rfl⟩ := Option.map_eq_some_iff.mp (Option.mem_toList.mp hf)
    exact hindex
  exact {
    draining := by simpa [record] using h.draining.mpr (by simp)
    terminal := fun _ => h.terminal (by simp)
    settled := by simp
    early := by
      intro hnone
      cases h.idle_of_open hnone
    busy := by simp
    indexes := h.indexes
    count := h.count
    failed := by
      intro f hf
      show f.index < r.completed + 1
      rcases List.mem_append.mp hf with hf | hf
      · exact Nat.lt_succ_of_lt (h.failed f hf)
      · rw [hnew f hf]
        omega
    sorted := by
      refine List.pairwise_append.mpr ⟨h.sorted, ?_, ?_⟩
      · cases e.failure? index with
        | none => exact .nil
        | some f => exact List.pairwise_singleton _ _
      · intro f hf f' hf'
        rw [hnew f' hf']
        exact h.failed f hf }

end Sound

end Registry

/-! ## Chronicles -/

/-- What a drain does. -/
def Drain.activity {τ : Type} (d : Drain τ) : Activity :=
  match d.running with
  | some r => .busy r.index
  | none => .between

theorem Drain.activity_eq_between {τ : Type} {d : Drain τ} :
    d.activity = .between ↔ d.running = none := by
  cases hr : d.running <;> simp [activity, hr]

theorem Drain.activity_eq_busy {τ : Type} {d : Drain τ} {index : Nat} :
    d.activity = .busy index ↔ ∃ r, d.running = some r ∧ r.index = index := by
  cases hr : d.running <;> simp [activity, hr]

/-- A registry with the drains under way, and all that has happened. -/
structure Chronicle (β τ : Type) where
  registry : Registry β
  drains : List (Drain τ)
  /-- The bodies that were registered, and the positions that were given for them. -/
  bodies : List β
  positions : List Nat
  /-- The states in which the flow was to end. -/
  asked : List FlowState
  /-- The hooks that were started, each with the state that it was given. -/
  started : List (Pending β × FlowState)
  ended : List (Nat × Ending)

/-- Something that happens to a registry. -/
inductive Occurrence (β τ : Type) where
  | register (body : β)
  | terminate (s : FlowState)
  /-- A drain takes the next hook, which then runs as a thread up to a limit; or it is over. -/
  | next (drain : Nat) (thread : τ) (limit : Nat)
  /-- The hook of a drain ends. -/
  | finish (drain : Nat) (e : Ending)

namespace Chronicle

variable {β τ : Type}

/-- Nothing has happened. -/
def empty : Chronicle β τ := ⟨.empty, [], [], [], [], [], []⟩

/-- How many hooks are under way. -/
def underWay (x : Chronicle β τ) : Nat := (x.drains.filterMap Drain.running).length

/-- A call that says that a drain has to start, starts one. -/
def startIf (x : Chronicle β τ) (starts : Bool) : List (Drain τ) :=
  if starts then x.drains ++ [.fresh] else x.drains

/-- The chronicle after an occurrence; nothing if there is no drain that can do it. -/
def after (x : Chronicle β τ) : Occurrence β τ → Option (Chronicle β τ)
  | .register body =>
    let (registry, position, starts) := x.registry.register body
    some { x with
      registry := registry
      drains := x.startIf starts
      bodies := x.bodies ++ [body]
      positions := x.positions ++ [position] }
  | .terminate s =>
    let (registry, starts) := x.registry.terminate s
    some { x with registry := registry, drains := x.startIf starts, asked := x.asked ++ [s] }
  | .next k thread limit =>
    match x.drains[k]? with
    | some d =>
      match d.running with
      | some _ => none
      | none =>
        match x.registry.next?.2 with
        | some h =>
          some { x with
            registry := x.registry.next?.1
            drains := x.drains.set k (d.run ⟨h.index, thread, limit⟩)
            started := x.started ++ [(h, x.registry.state)] }
        | none =>
          some { x with registry := x.registry.next?.1, drains := x.drains.eraseIdx k }
    | none => none
  | .finish k e =>
    match x.drains[k]? with
    | some d =>
      match d.running with
      | some r =>
        let (registry, d) := Drain.finish x.registry d r.index e
        some { x with
          registry := registry
          drains := x.drains.set k d
          ended := x.ended ++ [(r.index, e)] }
      | none => none
    | none => none

/-- The chronicle after several occurrences. -/
def run (x : Chronicle β τ) : List (Occurrence β τ) → Option (Chronicle β τ)
  | [] => some x
  | o :: os => (x.after o).bind fun y => y.run os

/-- The record fits the registry, which is sound. -/
structure Sound (x : Chronicle β τ) (a : Activity) : Prop where
  registry : x.registry.Sound a
  drains : x.drains.map Drain.activity = a.drains
  registered : x.registry.registered = x.bodies.length
  positions : x.positions = List.range x.bodies.length
  bodies : x.bodies = x.started.map (fun p => p.1.body) ++ x.registry.pending.map Pending.body
  started : x.started.map (fun p => p.1.index) = List.range (x.registry.completed + a.count)
  asked : x.registry.terminal = x.asked.head?
  given : ∀ p ∈ x.started, x.asked.head? = some p.2
  ended : x.ended.map Prod.fst = List.range x.registry.completed
  failures : x.registry.failures = x.ended.filterMap fun p => p.2.failure? p.1

theorem sound_empty : (empty : Chronicle β τ).Sound .idle where
  registry := Registry.sound_empty
  drains := rfl
  registered := rfl
  positions := rfl
  bodies := rfl
  started := rfl
  asked := rfl
  given := by simp [empty]
  ended := rfl
  failures := rfl

namespace Sound

variable {x y : Chronicle β τ} {a : Activity}

/-- A drain that is under way is the only one. -/
theorem drain (h : x.Sound a) {k : Nat} {d : Drain τ} (hd : x.drains[k]? = some d) :
    k = 0 ∧ x.drains = [d] ∧ a = d.activity := by
  have hmem : d.activity ∈ a.drains := by
    rw [← h.drains]
    exact List.mem_map_of_mem (List.mem_of_getElem? hd)
  obtain ⟨ha, hone⟩ := Activity.eq_of_mem_drains hmem
  have hlen : x.drains.length = 1 := by
    simpa [hone] using congrArg List.length h.drains
  obtain ⟨d', hdrains⟩ := List.length_eq_one_iff.mp hlen
  obtain rfl : k = 0 := by
    have := (List.getElem?_eq_some_iff.mp hd).1
    omega
  obtain rfl : d' = d := by simpa [hdrains] using hd
  exact ⟨rfl, hdrains, ha⟩

/-- The drains after a call that starts one where none was under way. -/
theorem startIf (h : x.Sound a) {starts : Bool} (hidle : starts = true → a = .idle) :
    (x.startIf starts).map Drain.activity =
      (if starts then Activity.between else a).drains := by
  cases starts with
  | false => exact h.drains
  | true =>
      obtain rfl := hidle rfl
      have hdrains := h.drains
      simp only [Chronicle.startIf, if_true, List.map_append, hdrains]
      rfl

theorem register (h : x.Sound a) (body : β) (hy : x.after (.register body) = some y) :
    ∃ a', y.Sound a' := by
  obtain ⟨hregistry, hidle⟩ := h.registry.register body
  simp only [Chronicle.after, Option.some.injEq] at hy
  subst hy
  refine ⟨_, {
    registry := hregistry
    drains := h.startIf hidle
    registered := ?_
    positions := ?_
    bodies := ?_
    started := ?_
    asked := h.asked
    given := h.given
    ended := h.ended
    failures := h.failures }⟩
  · simp [Registry.register, h.registered]
  · simp [Registry.register, h.positions, h.registered, List.range_succ]
  · simp only [Registry.register, List.map_append, ← List.append_assoc, ← h.bodies]
    rfl
  · have hcount : (if (x.registry.register body).2.2 then Activity.between else a).count =
        a.count := by
      split
      · next hs => rw [hidle hs]; rfl
      · rfl
    rw [hcount]
    exact h.started

theorem terminate (h : x.Sound a) (s : FlowState) (hy : x.after (.terminate s) = some y) :
    ∃ a', y.Sound a' := by
  obtain ⟨hregistry, hidle⟩ := h.registry.terminate s
  simp only [Chronicle.after, Option.some.injEq] at hy
  subst hy
  have hcount : (if (x.registry.terminate s).2 then Activity.between else a).count = a.count := by
    split
    · next hs => rw [hidle hs]; rfl
    · rfl
  have hasked : (x.asked ++ [s]).head? = x.asked.head?.or (some s) := by
    cases x.asked <;> rfl
  refine ⟨_, {
    registry := hregistry
    drains := h.startIf hidle
    registered := by simp [h.registered]
    positions := h.positions
    bodies := by simpa using h.bodies
    started := by rw [hcount]; simpa using h.started
    asked := by rw [Registry.terminate_terminal, h.asked, hasked]
    given := fun p hp => by rw [hasked, h.given p hp]; rfl
    ended := by simpa using h.ended
    failures := by simpa using h.failures }⟩

/-- A drain starts the next hook. -/
theorem start (h : x.Sound .between) (d : Drain τ) {p : Pending β} {r : Running τ}
    (hn : x.registry.next?.2 = some p) (hr : r.index = p.index) :
    ({ x with
      registry := x.registry.next?.1
      drains := [d.run r]
      started := x.started ++ [(p, x.registry.state)] } : Chronicle β τ).Sound (.busy p.index) := by
  obtain ⟨hregistry, hindex, hpending⟩ := h.registry.start hn
  obtain ⟨s, hs⟩ := Option.isSome_iff_exists.mp (h.registry.terminal (by simp))
  exact {
    registry := hregistry
    drains := by simp [Drain.run, Drain.activity, Activity.drains, hr]
    registered := by simpa using h.registered
    positions := h.positions
    bodies := by
      have hbodies := h.bodies
      rw [hpending] at hbodies
      simpa using hbodies
    started := by
      rw [List.map_append, h.started]
      simp [hindex, List.range_succ]
    asked := by simpa using h.asked
    given := by
      intro q hq
      rcases List.mem_append.mp hq with hq | hq
      · exact h.given q hq
      · obtain rfl := List.mem_singleton.mp hq
        simp [← h.asked, Registry.state, hs]
    ended := by simpa using h.ended
    failures := by simpa using h.failures }

/-- A drain finds nothing left to run, and is over. -/
theorem leave (h : x.Sound .between) (hn : x.registry.next?.2 = none) :
    ({ x with registry := x.registry.next?.1, drains := [] } : Chronicle β τ).Sound .idle := by
  obtain ⟨hregistry, hpending⟩ := h.registry.leave hn
  have hempty : x.registry.next?.1.pending = [] :=
    hregistry.settled (by simpa using h.registry.terminal (by simp)) rfl
  exact {
    registry := hregistry
    drains := rfl
    registered := by simpa using h.registered
    positions := h.positions
    bodies := by
      have hbodies := h.bodies
      rw [hpending] at hbodies
      rw [hempty]
      exact hbodies
    started := by simpa using h.started
    asked := by simpa using h.asked
    given := h.given
    ended := by simpa using h.ended
    failures := by simpa using h.failures }

theorem next (h : x.Sound a) {k : Nat} {thread : τ} {limit : Nat}
    (hy : x.after (.next k thread limit) = some y) : ∃ a', y.Sound a' := by
  simp only [Chronicle.after] at hy
  cases hd : x.drains[k]? with
  | none => simp [hd] at hy
  | some d =>
      obtain ⟨rfl, hdrains, rfl⟩ := h.drain hd
      cases hr : d.running with
      | some r => simp [hd, hr] at hy
      | none =>
          rw [Drain.activity_eq_between.mpr hr] at h
          cases hn : x.registry.next?.2 with
          | some p =>
              simp only [hd, hr, hn, Option.some.injEq] at hy
              subst hy
              refine ⟨.busy p.index, ?_⟩
              rw [hdrains]
              exact h.start d hn rfl
          | none =>
              simp only [hd, hr, hn, Option.some.injEq] at hy
              subst hy
              refine ⟨.idle, ?_⟩
              rw [hdrains]
              exact h.leave hn

theorem finish (h : x.Sound a) {k : Nat} {e : Ending} (hy : x.after (.finish k e) = some y) :
    ∃ a', y.Sound a' := by
  simp only [Chronicle.after] at hy
  cases hd : x.drains[k]? with
  | none => simp [hd] at hy
  | some d =>
      obtain ⟨rfl, hdrains, rfl⟩ := h.drain hd
      cases hr : d.running with
      | none => simp [hd, hr] at hy
      | some r =>
          rw [Drain.activity_eq_busy.mpr ⟨r, hr, rfl⟩] at h
          simp only [hd, hr, Option.some.injEq] at hy
          subst hy
          have hindex : r.index = x.registry.completed := h.registry.busy _ rfl
          refine ⟨.between, {
            registry := h.registry.finish e
            drains := by simp [hdrains, Drain.finish, Drain.activity, Activity.drains]
            registered := h.registered
            positions := h.positions
            bodies := h.bodies
            started := h.started
            asked := h.asked
            given := h.given
            ended := ?_
            failures := ?_ }⟩
          · show (x.ended ++ [(r.index, e)]).map Prod.fst = List.range (x.registry.completed + 1)
            rw [List.map_append, h.ended, List.range_succ, ← hindex]
            rfl
          · show x.registry.failures ++ (e.failure? r.index).toList = _
            rw [List.filterMap_append, ← h.failures]
            cases he : e.failure? r.index <;> simp [he]

/-- Every occurrence keeps the record and the registry in step. -/
theorem after (h : x.Sound a) {o : Occurrence β τ} (hy : x.after o = some y) :
    ∃ a', y.Sound a' := by
  cases o with
  | register body => exact h.register body hy
  | terminate s => exact h.terminate s hy
  | next k thread limit => exact h.next hy
  | finish k e => exact h.finish hy

theorem run {os : List (Occurrence β τ)} (h : x.Sound a) (hy : x.run os = some y) :
    ∃ a', y.Sound a' := by
  induction os generalizing x a with
  | nil =>
      obtain rfl := Option.some.inj hy
      exact ⟨a, h⟩
  | cons o os ih =>
      obtain ⟨x₁, hx₁, hy⟩ := Option.bind_eq_some_iff.mp hy
      obtain ⟨a₁, h₁⟩ := h.after hx₁
      exact ih h₁ hy

theorem drains_eq (h : x.Sound a) :
    x.drains.length ≤ 1 ∧ x.underWay = a.count ∧ (x.drains = [] ↔ a = .idle) := by
  have hlist := h.drains
  cases hx : x.drains with
  | nil =>
      cases a with
      | idle => simp [underWay, hx]
      | _ => simp [hx, Activity.drains] at hlist
  | cons d rest =>
      obtain ⟨-, hdrains, rfl⟩ := h.drain (k := 0) (d := d) (by rw [hx]; rfl)
      obtain ⟨rfl⟩ : rest = [] := by simpa [hx] using hdrains
      cases hr : d.running <;> simp [underWay, hx, hr, Drain.activity]

/-- The hooks that have not failed are those that ended well. -/
theorem failure_indexes (h : x.Sound a) :
    x.registry.failures.map HookFailure.index = (x.ended.filter fun p => p.2 ≠ .ok).map Prod.fst := by
  rw [h.failures]
  induction x.ended with
  | nil => rfl
  | cons p rest ih =>
      obtain ⟨index, e⟩ := p
      cases e <;> simp_all [Ending.failure?, Ending.problem?]

end Sound

/-- Whatever happens to a registry, and in whatever order:
* hooks start in the order of their registration, each at most once, none before the flow is ended
  for the first time, and each with the state of that first time;
* at most one drain is under way, at most one hook, and hooks end in the order of their start;
* a hook is told how many were registered before it;
* the hooks that have ended, wait and run are together all that were registered;
* a drain is under way only where the flow is terminal, and where none is nothing waits then;
* the failures are those of the hooks that have ended otherwise than well, by ascending index. -/
theorem hooks_in_order {os : List (Occurrence β τ)} {x : Chronicle β τ}
    (h : empty.run os = some x) :
    (x.started.map (fun p => p.1.index) = List.range x.started.length ∧
      x.started.map (fun p => p.1.body) = x.bodies.take x.started.length ∧
      (x.asked = [] → x.started = []) ∧ ∀ p ∈ x.started, x.asked.head? = some p.2) ∧
    (x.drains.length ≤ 1 ∧ x.underWay ≤ 1 ∧ x.started.length = x.ended.length + x.underWay ∧
      x.ended.map Prod.fst = List.range x.ended.length) ∧
    x.positions = List.range x.bodies.length ∧
    x.registry.status.completed + x.registry.status.pending + x.underWay = x.bodies.length ∧
    (x.drains ≠ [] → x.registry.status.terminal = true) ∧
    (x.registry.status.terminal = true → x.drains = [] → x.registry.status.pending = 0) ∧
    (x.registry.status.failures = x.ended.filterMap (fun p => p.2.failure? p.1) ∧
      x.registry.status.failures.map HookFailure.index =
        (x.ended.filter fun p => p.2 ≠ .ok).map Prod.fst ∧
      x.registry.status.failures.Pairwise fun f f' => f.index < f'.index) := by
  obtain ⟨a, hx⟩ := sound_empty.run h
  obtain ⟨hone, hunder, hidle⟩ := hx.drains_eq
  have hstarted : x.started.length = x.registry.completed + a.count := by
    simpa using congrArg List.length hx.started
  have hended : x.ended.length = x.registry.completed := by
    simpa using congrArg List.length hx.ended
  refine ⟨⟨?_, ?_, ?_, hx.given⟩, ⟨hone, ?_, ?_, ?_⟩, hx.positions, ?_, ?_, ?_, hx.failures,
    hx.failure_indexes, hx.registry.sorted⟩
  · rw [hx.started, hstarted]
  · have hlen : x.started.length = (x.started.map fun p => p.1.body).length := by simp
    rw [hx.bodies, hlen, List.take_left]
  · intro hasked
    cases hs : x.started with
    | nil => rfl
    | cons p rest =>
        have := hx.given p (hs ▸ List.mem_cons_self)
        simp [hasked] at this
  · rw [hunder]
    cases a <;> simp
  · rw [hstarted, hended, hunder]
  · rw [hx.ended, hended]
  · have hcount := hx.registry.count
    rw [hx.registered] at hcount
    show x.registry.completed + x.registry.pending.length + x.underWay = x.bodies.length
    omega
  · intro hdrains
    exact hx.registry.terminal fun ha => hdrains (hidle.mpr ha)
  · intro hterm hdrains
    show x.registry.pending.length = 0
    rw [hx.registry.settled hterm (hidle.mp hdrains)]
    rfl

/-- A hook that registers another one and then fails. -/
def nestedRun : List (Occurrence String Unit) :=
  [.register "first", .terminate .succeeded, .next 0 () 10, .register "second", .terminate .failed,
    .finish 0 (.panicked (.text "late")), .next 0 () 20, .finish 0 .ok, .next 0 () 30]

/-- The chronicle after `nestedRun`. -/
def nestedEnd : Chronicle String Unit where
  registry := ⟨[], 2, some .succeeded, false, 2, [⟨0, "hook panicked: late"⟩]⟩
  drains := []
  bodies := ["first", "second"]
  positions := [0, 1]
  asked := [.succeeded, .failed]
  started := [(⟨0, "first"⟩, .succeeded), (⟨1, "second"⟩, .succeeded)]
  ended := [(0, .panicked (.text "late")), (1, .ok)]

theorem hooks_in_order_nested :
    empty.run nestedRun = some nestedEnd ∧
      nestedEnd.started.map (fun p => p.1.index) = List.range 2 ∧
      nestedEnd.registry.status.failures.map HookFailure.index = [0] := by
  have hrun : empty.run nestedRun = some nestedEnd := rfl
  obtain ⟨hstarted, -, -, -, -, -, -, hfailures, -⟩ := hooks_in_order hrun
  exact ⟨hrun, hstarted.1, hfailures⟩

end Chronicle

end StageGraph.Hooks
