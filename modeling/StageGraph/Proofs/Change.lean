/-
# `StageGraph.Proofs.Change` — what an event can do to a graph

Every event comes down to a few changes of single graphs: a call adds a stage
or a hook, commits or forgets the flow; a stage makes a move; the end of a flow
begins; a drain makes a move.  The relations below list them, each with all
that is known when it takes place, and each with its deed if it has one.

That a run takes every graph through a chain of changes is the subject of
`StageGraph.Proofs.GraphRun`.
-/
import StageGraph.Proofs.Run

namespace StageGraph

/-! ## Threads -/

namespace Thread

variable {κ μ : Type}

/-- The thread may go on with `k`, at some time and with some results of stages. -/
def Offers (t : Thread κ) (k : κ) : Prop := ∃ outcome? clock, t.resume? outcome? clock = some k

/-- Whatever the thread goes on with satisfies `P`. -/
def Within (P : κ → Prop) : Thread κ → Prop
  | going k => P k
  | onStage _ _ next alarm => (∀ o, P (next o)) ∧ ∀ a ∈ alarm, P a.next
  | asleep a => P a.next

theorem Within.offers {P : κ → Prop} {t : Thread κ} (h : t.Within P) {k : κ} (hk : t.Offers k) :
    P k := by
  obtain ⟨outcome?, clock, hk⟩ := hk
  cases t with
  | going k' => exact Option.some.inj hk ▸ h
  | onStage flow stage next alarm =>
      simp only [resume?] at hk
      cases ho : outcome? flow stage with
      | some o => rw [ho] at hk; exact Option.some.inj hk ▸ h.1 o
      | none =>
          rw [ho] at hk
          obtain ⟨a, ha, hk⟩ := Option.bind_eq_some_iff.mp hk
          have : a.next = k := by simp only [Alarm.fired?] at hk; split at hk <;> simp_all
          exact this ▸ h.2 a ha
  | asleep a =>
      have : a.next = k := by
        simp only [resume?, Alarm.fired?] at hk; split at hk <;> simp_all
      exact this ▸ h

/-- A thread that goes on with a function of what it is given. -/
theorem within_map {P : μ → Prop} {f : κ → μ} (h : ∀ k, P (f k)) :
    ∀ t : Thread κ, (t.map f).Within P
  | going k => h k
  | onStage _ _ next alarm => by
      refine ⟨fun o => h (next o), ?_⟩
      intro a ha
      obtain ⟨a', _, rfl⟩ := Option.map_eq_some_iff.mp ha
      exact h a'.next
  | asleep a => h a.next

end Thread

theorem Phase.eq_ended {p : Phase} {o : Outcome} (h : p.outcome? = some o) : p = .ended o := by
  cases p <;> simp_all [outcome?]

/-! ## The changes -/

/-- A stage as a call adds it to a graph. -/
inductive Stage.Fresh (g : Graph) : Stage → Prop
  | completed (o : Outcome) : Fresh g ⟨.completedValue, none, [], .ended o⟩
  | delay (moment : Nat) : Fresh g ⟨.delay, none, [], .delayed moment⟩
  | resolved {r : StageRequest} {deps : List Nat} : World.checkRequest r = .ok () →
      r.deps.mapM g.slot? = .ok deps →
      Fresh g ⟨r.operation, r.closure, deps, .initial r.operation deps⟩

namespace Graph

/-- What a call does to a graph. -/
inductive Call : Graph → Option Deed → Graph → Prop
  | allocate {g g' : Graph} {s : Stage} {id : StageId} : s.Fresh g → g.allocate s = .ok (g', id) →
      Call g none g'
  | addHook (g : Graph) (closure : Closure) : Call g none (g.addHook closure)
  | commit {g g' : Graph} {s : FlowState} : g.commit s = .ok g' → Call g (some (.committed s)) g'
  | remove {g : Graph} : g.terminated.isSome → Call g none { g with removed := true }

/-- A body that ends, and the result that it leaves. -/
inductive Ends : FlowProgram bodySignature Outcome → Outcome → Prop
  | done (o : Outcome) : Ends (.done o) o
  | panic (p : Panic) : Ends (.panic p) p.toOutcome

/-- The moves that a stage of a graph may make. -/
inductive Moves (g : Graph) (s : Stage) : Move → Prop
  | wake {moment : Nat} : s.phase = .delayed moment → Moves g s (.finish .empty)
  | gather {got : List Outcome} {d : Nat} {left : List Nat} {o : Outcome} :
      s.phase = .gathering got (d :: left) → g.outcome? d = some o →
      Moves g s (.turn (.gathering (got ++ [o]) left))
  | resolve {got : List Outcome} : s.phase = .gathering got [] → Moves g s (s.resolve got)
  | choose {o : Outcome} : s.phase = .choosing → s.deps.findSome? g.outcome? = some o →
      Moves g s (s.resolve [o])
  | think {t : BodyThread} {forward : Option Outcome} {q : Question bodySignature}
      {next : q.Answer → FlowProgram bodySignature Outcome} (x : Thread q.Answer) :
      s.phase = .running t forward → t.Offers (.ask q next) →
      Moves g s (.turn (.running (x.map next) forward))
  | conclude {t : BodyThread} {forward : Option Outcome}
      {p : FlowProgram bodySignature Outcome} {o : Outcome} :
      s.phase = .running t forward → t.Offers p → Ends p o → Moves g s (g.conclude s forward o)
  | adopt {target : Nat} {o : Outcome} : s.phase = .adopting target → g.outcome? target = some o →
      Moves g s (.finish o)

/-- The moves that a drain of the hooks of a graph may make. -/
inductive DrainMoves (c : Completer) (g : Graph) (d : Hooks.Drain BodyThread) : DrainMove → Prop
  | start {h : Hooks.Pending Closure} (limit : Nat) : d.running = none →
      g.hooks.next?.2 = some h → DrainMoves c g d (.start h limit)
  | turn {r : Hooks.Running BodyThread} {t : BodyThread} : d.running = some r →
      DrainMoves c g d (.turn { r with thread := t })
  | finish {r : Hooks.Running BodyThread} (e : Hooks.Ending) : d.running = some r →
      DrainMoves c g d (.finish r.index e)
  | leave : d.running = none → g.hooks.next?.2 = none → DrainMoves c g d .leave

/-- What one atomic part of an event does to a graph. -/
inductive Change (c : Completer) : Graph → Option Deed → Graph → Prop
  | call {g : Graph} {d : Option Deed} {g' : Graph} : Call g d g' → Change c g d g'
  | move {g : Graph} {n : Nat} {s : Stage} {m : Move} : g.stages[n]? = some s → Moves g s m →
      Change c g (m.deed? g n) (g.move c n m)
  | begin {g : Graph} {k : Nat} {s : FlowState} : g.hookTasks[k]? = some (.due s) →
      (g.hooks.terminate s).2 = true →
      Change c g none
        ({ g with hooks := (g.hooks.terminate s).1 }.setHookTask k (.draining .fresh (some s)))
  | skip {g : Graph} {k : Nat} {s : FlowState} : g.hookTasks[k]? = some (.due s) →
      (g.hooks.terminate s).2 = false →
      Change c g (some (.published s))
        (({ g with hooks := (g.hooks.terminate s).1 }.setHookTask k .finished).publish (some s))
  | drain {g : Graph} {k : Nat} {s : Option FlowState} {d : Hooks.Drain BodyThread}
      {m : DrainMove} : g.hookTasks[k]? = some (.draining d s) → DrainMoves c g d m →
      Change c g (m.deed? g s)
        ((g.drainMove c d m).1.settleDrain k s (g.drainMove c d m).2)

/-- A chain of changes with its deeds. -/
inductive Changes (c : Completer) : Graph → List Deed → Graph → Prop
  | refl (g : Graph) : Changes c g [] g
  | tail {g g₁ g₂ : Graph} {ds : List Deed} {d : Option Deed} : Changes c g ds g₁ →
      Change c g₁ d g₂ → Changes c g (ds ++ d.toList) g₂

namespace Changes

variable {c : Completer}

theorem single {g g' : Graph} {d : Option Deed} (h : Change c g d g') :
    Changes c g d.toList g' := by
  simpa using (Changes.refl g).tail h

theorem trans {g₁ g₂ g₃ : Graph} {ds es : List Deed} (h₁ : Changes c g₁ ds g₂)
    (h₂ : Changes c g₂ es g₃) : Changes c g₁ (ds ++ es) g₃ := by
  induction h₂ with
  | refl => simpa using h₁
  | tail _ h ih => rw [← List.append_assoc]; exact ih.tail h

/-- What every change preserves, a chain preserves. -/
theorem preserves {P : Graph → Prop} (hP : ∀ {g d g'}, P g → Change c g d g' → P g') {g g' : Graph}
    {ds : List Deed} (h : Changes c g ds g') (hg : P g) : P g' := by
  induction h with
  | refl => exact hg
  | tail _ h ih => exact hP ih h

/-- What every deed has in a graph with an invariant, all deeds of a chain have. -/
theorem deeds {P : Graph → Prop} {Q : Deed → Prop}
    (hP : ∀ {g d g'}, P g → Change c g d g' → P g')
    (hQ : ∀ {g d g'}, P g → Change c g (some d) g' → Q d) {g g' : Graph} {ds : List Deed}
    (h : Changes c g ds g') (hg : P g) : ∀ d ∈ ds, Q d := by
  induction h with
  | refl => exact fun d hd => absurd hd List.not_mem_nil
  | @tail g₁ g₂ ds d hchain h ih =>
      intro e he
      rcases List.mem_append.mp he with he | he
      · exact ih e he
      · obtain rfl := Option.mem_toList.mp he
        exact hQ (hchain.preserves hP hg) h

end Changes

/-! ## What calls leave alone -/

/-- The end of the flow begins, or nothing happens. -/
theorem endIfDue_cases (g : Graph) :
    g.endIfDue = g ∨ ∃ s, g.committed = some s ∧ g.active = 0 ∧ g.terminating = false ∧
      g.endIfDue = { g with terminating := true, hookTasks := g.hookTasks ++ [.due s] } := by
  unfold endIfDue
  cases hc : g.committed with
  | none => exact .inl rfl
  | some s =>
      by_cases hd : g.active = 0 ∧ g.terminating = false
      · exact .inr ⟨s, rfl, hd.1, hd.2, if_pos hd⟩
      · exact .inl (if_neg hd)

section Fields

variable (g : Graph)

@[simp] theorem endIfDue_id : g.endIfDue.id = g.id := by
  rcases g.endIfDue_cases with h | ⟨s, -, -, -, h⟩ <;> rw [h]

@[simp] theorem endIfDue_stages : g.endIfDue.stages = g.stages := by
  rcases g.endIfDue_cases with h | ⟨s, -, -, -, h⟩ <;> rw [h]

@[simp] theorem endIfDue_committed : g.endIfDue.committed = g.committed := by
  rcases g.endIfDue_cases with h | ⟨s, -, -, -, h⟩ <;> rw [h]

@[simp] theorem endIfDue_active : g.endIfDue.active = g.active := by
  rcases g.endIfDue_cases with h | ⟨s, -, -, -, h⟩ <;> rw [h]

@[simp] theorem endIfDue_hooks : g.endIfDue.hooks = g.hooks := by
  rcases g.endIfDue_cases with h | ⟨s, -, -, -, h⟩ <;> rw [h]

@[simp] theorem endIfDue_terminated : g.endIfDue.terminated = g.terminated := by
  rcases g.endIfDue_cases with h | ⟨s, -, -, -, h⟩ <;> rw [h]

@[simp] theorem endIfDue_removed : g.endIfDue.removed = g.removed := by
  rcases g.endIfDue_cases with h | ⟨s, -, -, -, h⟩ <;> rw [h]

end Fields

/-- A successful allocation: the end of the flow has not begun, and the stage is added. -/
theorem allocate_eq_ok {g g' : Graph} {s : Stage} {id : StageId}
    (h : g.allocate s = .ok (g', id)) :
    g.terminating = false ∧ id = stageName g.stages.length ∧
      g' = { g with
        stages := g.stages ++ [s]
        active := if s.phase.outcome?.isSome then g.active else g.active + 1 } := by
  unfold allocate at h
  cases ht : g.terminating with
  | true => simp [ht] at h
  | false =>
      simp only [ht, Bool.false_eq_true, if_false, Except.ok.injEq, Prod.mk.injEq] at h
      exact ⟨rfl, h.2.symm, h.1.symm⟩

/-- A successful commit is the first one. -/
theorem commit_eq_ok {g g' : Graph} {s : FlowState} (h : g.commit s = .ok g') :
    g.committed = none ∧ g' = { g with committed := some s }.endIfDue := by
  unfold commit at h
  cases hc : g.committed with
  | some s' => simp [hc] at h
  | none =>
      simp only [hc, Option.isSome_none, Bool.false_eq_true, if_false, Except.ok.injEq] at h
      exact ⟨rfl, h.symm⟩

/-- A hook is registered, and a drain is started for it if the registry asks for one. -/
theorem addHook_eq (g : Graph) (closure : Closure) :
    g.addHook closure =
      { g with
        hooks := (g.hooks.register closure).1
        hookTasks := g.hookTasks ++
          if (g.hooks.register closure).2.2 then [.draining .fresh none] else [] } := by
  unfold addHook
  split <;> simp_all

/-- A call keeps the stages that are there as they are. -/
theorem Call.stage {g g' : Graph} {d : Option Deed} (h : Call g d g') {n : Nat} {s : Stage}
    (hs : g.stages[n]? = some s) : g'.stages[n]? = some s := by
  cases h with
  | allocate _ h =>
      obtain ⟨-, -, rfl⟩ := allocate_eq_ok h
      exact List.getElem?_append_left (List.getElem?_eq_some_iff.mp hs).1 ▸ hs
  | addHook closure => rw [addHook_eq]; exact hs
  | commit h =>
      obtain ⟨-, rfl⟩ := commit_eq_ok h
      simpa using hs
  | remove _ => exact hs

/-- A call keeps the tasks that run hooks as they are. -/
theorem Call.hookTask {g g' : Graph} {d : Option Deed} (h : Call g d g') {k : Nat} {t : HookTask}
    (ht : g.hookTasks[k]? = some t) : g'.hookTasks[k]? = some t := by
  have append (l : List HookTask) : (g.hookTasks ++ l)[k]? = some t :=
    List.getElem?_append_left (List.getElem?_eq_some_iff.mp ht).1 ▸ ht
  cases h with
  | allocate _ h =>
      obtain ⟨-, -, rfl⟩ := allocate_eq_ok h
      exact ht
  | addHook closure => rw [addHook_eq]; exact append _
  | @commit _ s h =>
      obtain ⟨-, rfl⟩ := commit_eq_ok h
      rcases endIfDue_cases { g with committed := some s } with h | ⟨_, -, -, -, h⟩
      · rw [h]; exact ht
      · rw [h]; exact append _
  | remove _ => exact ht

/-! ## What moves do -/

/-- The stages after one of them has come into another phase. -/
theorem setPhase_stages {g : Graph} {n : Nat} {s : Stage} (hs : g.stages[n]? = some s)
    (p : Phase) : (g.setPhase n p).stages = g.stages.set n { s with phase := p } := by
  refine List.ext_getElem? ?_
  intro m
  simp only [setPhase, List.getElem?_modify, List.getElem?_set]
  by_cases h : n = m
  · subst h
    obtain ⟨hlt, rfl⟩ := List.getElem?_eq_some_iff.mp hs
    simp [hlt]
  · simp [h]

section MoveFields

variable (c : Completer) (g : Graph) (n : Nat) (m : Move)

@[simp] theorem move_id : (g.move c n m).id = g.id := by
  cases m <;> simp [Graph.move, finish, setPhase]

@[simp] theorem move_stages_length : (g.move c n m).stages.length = g.stages.length := by
  cases m <;> simp [Graph.move, finish, setPhase]

@[simp] theorem move_committed : (g.move c n m).committed = g.committed := by
  cases m <;> simp [Graph.move, finish, setPhase]

@[simp] theorem move_hooks : (g.move c n m).hooks = g.hooks := by
  cases m <;> simp [Graph.move, finish, setPhase]

@[simp] theorem move_terminated : (g.move c n m).terminated = g.terminated := by
  cases m <;> simp [Graph.move, finish, setPhase]

@[simp] theorem move_removed : (g.move c n m).removed = g.removed := by
  cases m <;> simp [Graph.move, finish, setPhase]

end MoveFields

/-- A resolved stage ends, or runs its body. -/
theorem resolve_cases (s : Stage) (inputs : List Outcome) :
    (∃ o, s.resolve inputs = .finish o) ∨
      ∃ closure args forward, s.resolve inputs = .launch closure args forward := by
  unfold Stage.resolve Stage.launch
  cases s.operation.resolve inputs with
  | error e => exact .inl ⟨_, rfl⟩
  | ok r =>
      cases r with
      | complete o => exact .inl ⟨_, rfl⟩
      | invoke args =>
          cases s.closure with
          | none => exact .inl ⟨_, rfl⟩
          | some closure => exact .inr ⟨_, _, _, rfl⟩
      | observe args forward =>
          cases s.closure with
          | none => exact .inl ⟨_, rfl⟩
          | some closure => exact .inr ⟨_, _, _, rfl⟩

/-- A stage whose body has ended ends, or adopts another stage. -/
theorem conclude_cases (g : Graph) (s : Stage) (forward : Option Outcome) (o : Outcome) :
    (∃ o', g.conclude s forward o = .finish o') ∨
      ∃ target, g.conclude s forward o = .turn (.adopting target) := by
  unfold conclude
  cases forward with
  | some f => exact .inl ⟨_, rfl⟩
  | none =>
      by_cases hadopts : s.operation.adopts = true
      · simp only [if_pos hadopts]
        cases o.compose with
        | complete o' => exact .inl ⟨_, rfl⟩
        | adopt stage =>
            cases hslot : g.slot? stage with
            | error e => exact .inl ⟨(Report.ofFlow e).toOutcome, by simp [hslot]⟩
            | ok target => exact .inr ⟨target, by simp [hslot]⟩
      · exact .inl ⟨_, if_neg hadopts⟩

/-- A stage that makes a move is not terminal. -/
theorem Moves.outcome? {g : Graph} {s : Stage} {m : Move} (h : Moves g s m) :
    s.phase.outcome? = none := by
  cases h <;> simp_all [Phase.outcome?]

/-- A move ends its stage, or brings it into a phase that is not terminal. -/
theorem Moves.move_cases {g : Graph} {s : Stage} {m : Move} (h : Moves g s m) (c : Completer)
    (n : Nat) :
    (∃ o, m = .finish o) ∨ ∃ p, p.outcome? = none ∧ g.move c n m = g.setPhase n p := by
  have launched (inputs : List Outcome) : (∃ o, s.resolve inputs = .finish o) ∨
      ∃ p, p.outcome? = none ∧ g.move c n (s.resolve inputs) = g.setPhase n p := by
    rcases resolve_cases s inputs with h | ⟨closure, args, forward, h⟩
    · exact .inl h
    · exact .inr ⟨_, rfl, by rw [h]; rfl⟩
  cases h with
  | wake _ => exact .inl ⟨_, rfl⟩
  | gather _ _ => exact .inr ⟨_, rfl, rfl⟩
  | @resolve got _ => exact launched got
  | @choose o _ _ => exact launched [o]
  | think _ _ _ => exact .inr ⟨_, rfl, rfl⟩
  | @conclude _ forward _ o _ _ _ =>
      rcases conclude_cases g s forward o with h | ⟨target, h⟩
      · exact .inl h
      · exact .inr ⟨.adopting target, rfl, by rw [h]; rfl⟩
  | adopt _ _ => exact .inl ⟨_, rfl⟩

/-! ## Changes of the hooks alone -/

/-- The same stages and the same record of the life of a flow. -/
structure SameLife (g g' : Graph) : Prop where
  id : g'.id = g.id
  stages : g'.stages = g.stages
  committed : g'.committed = g.committed
  active : g'.active = g.active
  terminating : g'.terminating = g.terminating

/-- A change adds a stage, commits the flow, moves a stage, or is about hooks only. -/
theorem Change.life_cases {c : Completer} {g g' : Graph} {d : Option Deed}
    (h : Change c g d g') :
    (∃ s id, s.Fresh g ∧ g.allocate s = .ok (g', id) ∧ d = none) ∨
      (∃ s, g.commit s = .ok g' ∧ d = some (.committed s)) ∨
      (∃ n s m, g.stages[n]? = some s ∧ Moves g s m ∧ g' = g.move c n m ∧ d = m.deed? g n) ∨
      SameLife g g' ∧ ∀ n o k, d ≠ some (.ended n o k) := by
  cases h with
  | call h =>
      cases h with
      | allocate hfresh h => exact .inl ⟨_, _, hfresh, h, rfl⟩
      | addHook closure =>
          rw [addHook_eq]
          exact .inr (.inr (.inr ⟨⟨rfl, rfl, rfl, rfl, rfl⟩, by simp⟩))
      | commit h => exact .inr (.inl ⟨_, h, rfl⟩)
      | remove _ => exact .inr (.inr (.inr ⟨⟨rfl, rfl, rfl, rfl, rfl⟩, by simp⟩))
  | move hs hm => exact .inr (.inr (.inl ⟨_, _, _, hs, hm, rfl, rfl⟩))
  | begin _ _ => exact .inr (.inr (.inr ⟨⟨rfl, rfl, rfl, rfl, rfl⟩, by simp⟩))
  | skip _ _ => exact .inr (.inr (.inr ⟨⟨rfl, rfl, rfl, rfl, rfl⟩, by simp⟩))
  | @drain _ s _ m _ _ =>
      refine .inr (.inr (.inr ?_))
      cases m with
      | leave =>
          refine ⟨⟨rfl, rfl, rfl, rfl, rfl⟩, ?_⟩
          intro n o k
          cases s <;> simp [DrainMove.deed?]
      | _ => exact ⟨⟨rfl, rfl, rfl, rfl, rfl⟩, by simp [DrainMove.deed?]⟩

end Graph

end StageGraph
