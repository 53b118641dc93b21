/-
# `StageGraph.Proofs.BodyArguments` — bodies get the arguments that they take

The arguments of a body are put together by the rules, from the results that its
stage has waited for, and are taken apart again in front of the body.  The two
ends only share a list of outcomes: a slot with a value, a slot with a failure, a
pair of slots of which one is empty.

`BodyKind.Fits` is what they have to agree on.  If the rules ask for the body of an
operation, they ask with arguments that fit the kind of its bodies (`Asks.fits`), and
whatever fits is read as it was meant (`TypedBody.run_of_fits`): captured data first,
then the values in the order of the inputs, or the failure, or the state.  What may
still go wrong is that one of these cannot be decoded; the shape never is.

The state is the argument of hooks, whose arguments are put together elsewhere.
-/
import StageGraph.Proofs.Invocation

namespace StageGraph

open StageGraph.Continuation (Body stageReference)
open StageGraph.Wire (HasCodec)

/-! ## Bodies with their types -/

/-- The kind of the bodies of an operation. -/
def Operation.bodyKind? : Operation → Option BodyKind
  | supply => some .supplier
  | thenApply | applyToEither => some .function
  | thenCompose => some .composer
  | exceptionally => some .recovery
  | exceptionallyCompose => some .recoveryComposer
  | handle | whenComplete => some .handler
  | thenCombine => some .combiner
  | terminationHook => some .hook
  | allOf | anyOf | delay | completedValue => none

/-- A body, and the types of what it captures, takes and gives. -/
inductive TypedBody : Type 1
  | supplier {C R : Type} [HasCodec C] [HasCodec R] (body : C → Body R)
  | function {C A R : Type} [HasCodec C] [HasCodec A] [HasCodec R] (body : C → A → Body R)
  | composer {C A : Type} [HasCodec C] [HasCodec A] (body : C → A → Body Handle)
  | recovery {C R : Type} [HasCodec C] [HasCodec R] (body : C → FlowError → Body R)
  | recoveryComposer {C : Type} [HasCodec C] (body : C → FlowError → Body Handle)
  | combiner {C A B R : Type} [HasCodec C] [HasCodec A] [HasCodec B] [HasCodec R]
      (body : C → A → B → Body R)
  | handler {C A R : Type} [HasCodec C] [HasCodec A] [HasCodec R]
      (body : C → Except FlowError A → Body R)
  | hook {C : Type} [HasCodec C] (body : C → FlowState → Body Unit)

namespace TypedBody

def kind : TypedBody → BodyKind
  | supplier _ => .supplier
  | function _ => .function
  | composer _ => .composer
  | recovery _ => .recovery
  | recoveryComposer _ => .recoveryComposer
  | combiner _ => .combiner
  | handler _ => .handler
  | hook _ => .hook

/-- The body as it is registered. -/
def continuation : TypedBody → Continuation
  | supplier body => .supplier body
  | function body => .function body
  | composer body => .composer body
  | recovery body => .recovery body
  | recoveryComposer body => .recoveryComposer body
  | combiner body => .combiner body
  | handler body => .handler body
  | hook body => .hook body

@[simp] theorem continuation_kind (b : TypedBody) : b.continuation.kind = b.kind := by
  cases b <;> rfl

/-- A body that gives a value. -/
def gives {R : Type} [HasCodec R] (p : Body R) : Body Datum := do return .ofTyped (← p)

/-- On these results a body reads something first, and goes on as a program if all of it can be
decoded. -/
inductive Reads (closure : Closure) :
    TypedBody → List Outcome → Except FlowError (Body Datum) → Prop
  | supplier {C R : Type} [HasCodec C] [HasCodec R] (body : C → Body R) :
      Reads closure (.supplier body) [] do
        let x ← closure.capturedAs C
        return gives (body x)
  | function {C A R : Type} [HasCodec C] [HasCodec A] [HasCodec R] (body : C → A → Body R)
      (d : Datum) :
      Reads closure (.function body) [.success d] do
        let x ← closure.capturedAs C
        let a ← d.decode A
        return gives (body x a)
  | composer {C A : Type} [HasCodec C] [HasCodec A] (body : C → A → Body Handle) (d : Datum) :
      Reads closure (.composer body) [.success d] do
        let x ← closure.capturedAs C
        let a ← d.decode A
        return body x a >>= stageReference
  | recovery {C R : Type} [HasCodec C] [HasCodec R] (body : C → FlowError → Body R) (d : Datum) :
      Reads closure (.recovery body) [.failure d] do
        let x ← closure.capturedAs C
        return gives (body x (.stageFailure d))
  | recoveryComposer {C : Type} [HasCodec C] (body : C → FlowError → Body Handle) (d : Datum) :
      Reads closure (.recoveryComposer body) [.failure d] do
        let x ← closure.capturedAs C
        return body x (.stageFailure d) >>= stageReference
  | combiner {C A B R : Type} [HasCodec C] [HasCodec A] [HasCodec B] [HasCodec R]
      (body : C → A → B → Body R) (d e : Datum) :
      Reads closure (.combiner body) [.success d, .success e] do
        let x ← closure.capturedAs C
        let a ← d.decode A
        let b ← e.decode B
        return gives (body x a b)
  | handlerOfSuccess {C A R : Type} [HasCodec C] [HasCodec A] [HasCodec R]
      (body : C → Except FlowError A → Body R) (d : Datum) :
      Reads closure (.handler body) [.success d] do
        let x ← closure.capturedAs C
        let a ← d.decode A
        return gives (body x (.ok a))
  | handlerOfFailure {C A R : Type} [HasCodec C] [HasCodec A] [HasCodec R]
      (body : C → Except FlowError A → Body R) (d : Datum) :
      Reads closure (.handler body) [.failure d] do
        let x ← closure.capturedAs C
        return gives (body x (.error (.stageFailure d)))
  /-- A hook is given a state in place of results. -/
  | hook {C : Type} [HasCodec C] (body : C → FlowState → Body Unit) (s : FlowState) :
      Reads closure (.hook body) [.success (.state s)] do
        let x ← closure.capturedAs C
        return body x s >>= fun _ => pure .empty

end TypedBody

/-! ## Arguments that fit -/

/-- The arguments by which the results that a stage has waited for are handed to a body. -/
inductive BodyKind.Fits : BodyKind → List Outcome → List Outcome → Prop
  | supplier : Fits .supplier [] []
  | function (d : Datum) : Fits .function [.success d] [.success d]
  | composer (d : Datum) : Fits .composer [.success d] [.success d]
  | recovery (d : Datum) : Fits .recovery [.failure d] [.failure d]
  | recoveryComposer (d : Datum) : Fits .recoveryComposer [.failure d] [.failure d]
  | combiner (d e : Datum) :
      Fits .combiner [.success d, .success e] [.success d, .success e]
  | handlerOfSuccess (d : Datum) : Fits .handler [.success d] [.success d, .empty]
  | handlerOfFailure (d : Datum) : Fits .handler [.failure d] [.empty, .failure d]
  | hook (s : FlowState) : Fits .hook [.success (.state s)] [.success (.state s)]

theorem BodyKind.Fits.arity {k : BodyKind} {inputs args : List Outcome} (h : k.Fits inputs args) :
    args.length = k.arity := by
  cases h <;> rfl

namespace Operation

variable {op : Operation} {count : Nat} {inputs args : List Outcome}

theorem fits_outcomeArgs (o : Outcome) : BodyKind.Fits .handler [o] (outcomeArgs o) := by
  cases o with
  | success d => exact .handlerOfSuccess d
  | failure d => exact .handlerOfFailure d

/-- If the rules ask for a body, they ask with arguments that fit it. -/
theorem Asks.fits {k : BodyKind} (h : op.Asks inputs args) (hsupplies : op.Supplies count inputs)
    (hkind : op.bodyKind? = some k) : k.Fits inputs args := by
  cases h with
  | observe o h =>
      obtain ⟨rfl, rfl, rfl⟩ := of_observe h
      cases hkind
      exact fits_outcomeArgs o
  | invoke h =>
      cases rule_of_resolve h with
      | supply =>
          obtain rfl : inputs = [] := hsupplies
          cases hkind
          exact .supplier
      | apply hop hp =>
          obtain ⟨d, rfl⟩ := Outcome.exists_of_isSuccess hp
          simp only [List.mem_cons, List.not_mem_nil, or_false] at hop
          rcases hop with rfl | rfl
          · cases hkind
            exact .function d
          · cases hkind
            exact .composer d
      | recover hop hp =>
          obtain ⟨d, rfl⟩ := Outcome.exists_of_isFailure hp
          simp only [List.mem_cons, List.not_mem_nil, or_false] at hop
          rcases hop with rfl | rfl
          · cases hkind
            exact .recovery d
          · cases hkind
            exact .recoveryComposer d
      | handle p =>
          cases hkind
          exact fits_outcomeArgs p
      | combine hlen hall =>
          obtain ⟨o, o', rfl⟩ := List.length_eq_two.mp hlen
          obtain ⟨d, rfl⟩ := Outcome.exists_of_isSuccess (hall o (by simp))
          obtain ⟨e, rfl⟩ := Outcome.exists_of_isSuccess (hall o' (by simp))
          cases hkind
          exact .combiner d e
      | either rest hp =>
          obtain ⟨d, rfl⟩ := Outcome.exists_of_isSuccess hp
          obtain rfl : rest = [] := List.length_eq_zero_iff.mp (Nat.succ.inj hsupplies)
          cases hkind
          exact .function d

end Operation

namespace TypedBody

variable {b : TypedBody} {inputs args : List Outcome}

/-- A body that goes on as the program, if everything could be read. -/
def play (read : Except FlowError (Body Datum)) : Body Datum := BodyM.ofExcept read >>= id

theorem play_bind {α : Type} (r : Except FlowError α) (f : α → Except FlowError (Body Datum)) :
    play (r >>= f) = BodyM.ofExcept r >>= fun x => play (f x) := by
  cases r <;> rfl

theorem play_pure (p : Body Datum) : play (pure p) = p := rfl

/-- Whatever fits is read as it was meant. -/
theorem run_of_fits (h : b.kind.Fits inputs args) (closure : Closure) :
    ∃ read, b.Reads closure inputs read ∧ b.continuation.run closure args = play read := by
  cases b with
  | supplier body =>
      cases h
      exact ⟨_, .supplier body, by simp only [play_bind, play_pure]; rfl⟩
  | function body =>
      cases h with
      | function d => exact ⟨_, .function body d, by simp only [play_bind, play_pure]; rfl⟩
  | composer body =>
      cases h with
      | composer d => exact ⟨_, .composer body d, by simp only [play_bind, play_pure]; rfl⟩
  | recovery body =>
      cases h with
      | recovery d => exact ⟨_, .recovery body d, by simp only [play_bind, play_pure]; rfl⟩
  | recoveryComposer body =>
      cases h with
      | recoveryComposer d =>
          exact ⟨_, .recoveryComposer body d, by simp only [play_bind, play_pure]; rfl⟩
  | combiner body =>
      cases h with
      | combiner d e => exact ⟨_, .combiner body d e, by simp only [play_bind, play_pure]; rfl⟩
  | @handler C A R _ _ _ body =>
      cases h with
      | handlerOfSuccess d =>
          refine ⟨_, .handlerOfSuccess body d, ?_⟩
          simp only [play_bind, play_pure]
          show (BodyM.ofExcept (closure.capturedAs C) >>= fun x =>
            BodyM.ofExcept ((d.decode A).map .ok) >>= fun o => gives (body x o)) = _
          cases d.decode A <;> rfl
      | handlerOfFailure d =>
          exact ⟨_, .handlerOfFailure body d, by simp only [play_bind, play_pure]; rfl⟩
  | hook body =>
      cases h with
      | hook s => exact ⟨_, .hook body s, by simp only [play_bind, play_pure]; rfl⟩

/-- Reading that can only fail because something cannot be decoded. -/
def Decodes {α : Type} (r : Except FlowError α) : Prop := ∀ e, r = .error e → ∃ u, e = .codec u

theorem decodes_pure {α : Type} (a : α) : Decodes (pure a : Except FlowError α) := by
  intro e h
  cases h

theorem decodes_bind {α β : Type} {r : Except FlowError α} {f : α → Except FlowError β}
    (hr : Decodes r) (hf : ∀ a, Decodes (f a)) : Decodes (r >>= f) := by
  intro e h
  cases r with
  | error e' =>
      cases h
      exact hr e rfl
  | ok a => exact hf a e h

theorem decodes_captured (closure : Closure) (α : Type) [HasCodec α] :
    Decodes (closure.capturedAs α) := by
  intro e h
  unfold Closure.capturedAs at h
  cases hr : (HasCodec.codec (α := α)).ofValue closure.captured with
  | ok a => rw [hr] at h; cases h
  | error f =>
      rw [hr] at h
      cases h
      exact ⟨_, rfl⟩

theorem decodes_decode (d : Datum) (α : Type) [HasCodec α] : Decodes (d.decode α) := by
  intro e h
  unfold Datum.decode Datum.decodeWith at h
  split at h
  · cases hr : (HasCodec.codec (α := α)).ofValue .null <;> rw [hr] at h <;> cases h
    exact ⟨_, rfl⟩
  · split at h
    · next b _ =>
        cases hr : (HasCodec.codec (α := α)).decode b.data <;> rw [hr] at h <;> cases h
        exact ⟨_, rfl⟩
    · cases h
      exact ⟨_, rfl⟩
  · cases h
    exact ⟨_, rfl⟩

theorem Reads.decodes {closure : Closure} {read : Except FlowError (Body Datum)}
    (h : b.Reads closure inputs read) : Decodes read := by
  cases h with
  | supplier | recovery | recoveryComposer | handlerOfFailure | hook =>
      exact decodes_bind (decodes_captured closure _) fun _ => decodes_pure _
  | function _ d | composer _ d | handlerOfSuccess _ d =>
      refine decodes_bind (decodes_captured closure _) fun _ => ?_
      exact decodes_bind (decodes_decode d _) fun _ => decodes_pure _
  | combiner _ d e =>
      refine decodes_bind (decodes_captured closure _) fun _ => ?_
      refine decodes_bind (decodes_decode d _) fun _ => ?_
      exact decodes_bind (decodes_decode e _) fun _ => decodes_pure _

end TypedBody

/-! ## Running a body -/

/-- What running a body comes to: something cannot be decoded, or the body is run once in its flow,
and its end is recorded. -/
inductive Catalog.Plays (k : Catalog) (r : Invocation) : Except FlowError (Body Datum) → Prop
  | unread (u : Unreadable) : k.invoke r = .done (Report.ofFlow (.codec u)).toOutcome →
      Plays k r (.error (.codec u))
  | run (p : Body Datum) :
      k.invoke r = ((FlowProgram.scope r.flow p.run).attempt.bind fun ended =>
        .done (Catalog.recorded ended)) →
      Plays k r (.ok p)

/-- A body that is registered is run with arguments that fit. -/
theorem Catalog.plays_of_fits {k : Catalog} {r : Invocation} {b : TypedBody}
    {inputs : List Outcome} (hentry : k.find? r.closure.entry = some b.continuation)
    (h : b.kind.Fits inputs r.args) : ∃ read, b.Reads r.closure inputs read ∧ k.Plays r read := by
  obtain ⟨read, hread, hrun⟩ := b.run_of_fits h r.closure
  have hlen : r.args.length = b.continuation.kind.arity := by
    rw [b.continuation_kind]
    exact h.arity
  have hinvoke : k.invoke r =
      (FlowProgram.scope r.flow (TypedBody.play read).run).attempt.bind fun ended =>
        .done (Catalog.recorded ended) := by
    simp only [Catalog.invoke, hentry, if_pos hlen, hrun]
  refine ⟨read, hread, ?_⟩
  cases read with
  | ok p => exact .run p hinvoke
  | error e =>
      obtain ⟨u, rfl⟩ := hread.decodes e rfl
      exact .unread u hinvoke

/-! ## Hooks -/

/-- The position of a hook that starts. -/
def Deed.hookStarted? : Deed → Option Nat
  | hookStarted index _ => some index
  | _ => none

namespace Graph

variable {c : Completer} {g g' : Graph} {a : Hooks.Activity}

/-- How many hooks have been taken by drains. -/
def taken (g : Graph) : Nat := g.hooks.registered - g.hooks.pending.length

/-- A drain starts the first hook that has not been taken, and takes it. -/
theorem Orderly.taken_of_start (h : g.Orderly a) {k : Nat} {dr : Hooks.Drain BodyThread}
    {state : Option FlowState} {p : Hooks.Pending Closure}
    (hk : g.hookTasks[k]? = some (.draining dr state)) (hr : dr.running = none)
    (hnext : g.hooks.next?.2 = some p) :
    p.index = g.taken ∧
      g.hooks.next?.1.registered - g.hooks.next?.1.pending.length = g.taken + 1 := by
  have hbetween := h.between hk hr
  obtain ⟨-, hindex, hpending⟩ := hbetween.start hnext
  have hcount := hbetween.count
  rw [hpending, List.length_cons, Hooks.Activity.count_between] at hcount
  rw [Hooks.Registry.next?_registered, taken, hpending, List.length_cons]
  omega

/-- A change takes the next hook, with the state of the commit as its argument, or takes none. -/
theorem Orderly.taken_cases {d : Option Deed} (h : g.Orderly a) (hchange : Change c g d g') :
    (d.bind Deed.hookStarted? = none ∧ g'.taken = g.taken) ∨
      ∃ s r, d = some (.hookStarted g.taken r) ∧ g'.taken = g.taken + 1 ∧
        g.committed = some s ∧ r.args = [.success (.state s)] ∧ r.flow = g.id := by
  have same {hooks : Hooks.Registry Closure} (hpending : hooks.pending = g.hooks.pending)
      (hregistered : hooks.registered = g.hooks.registered) :
      hooks.registered - hooks.pending.length = g.taken := by
    rw [hpending, hregistered]
    rfl
  cases hchange with
  | call hcall =>
      cases hcall with
      | allocate _ hg' =>
          obtain ⟨-, -, rfl⟩ := allocate_eq_ok hg'
          exact .inl ⟨rfl, rfl⟩
      | addHook closure =>
          refine .inl ⟨rfl, ?_⟩
          rw [addHook_eq]
          simp [taken, Hooks.Registry.register]
      | commit hg' =>
          obtain ⟨-, rfl⟩ := commit_eq_ok hg'
          exact .inl ⟨rfl, by simp [taken]⟩
      | remove _ => exact .inl ⟨rfl, rfl⟩
  | @move n s m _ _ =>
      exact .inl ⟨by cases m <;> rfl, by simp [taken]⟩
  | begin _ _ =>
      exact .inl ⟨rfl, same (Hooks.Registry.terminate_pending _ _)
        (Hooks.Registry.terminate_registered _ _)⟩
  | skip _ _ =>
      exact .inl ⟨rfl, same (Hooks.Registry.terminate_pending _ _)
        (Hooks.Registry.terminate_registered _ _)⟩
  | @drain k state d m hk hm =>
      cases hm with
      | @start p limit hr hnext =>
          obtain ⟨hindex, htaken⟩ := h.taken_of_start hk hr hnext
          obtain ⟨s, -, hcommitted, hstate, -⟩ := h.draining hk
          refine .inr ⟨s, g.hookInvocation p.body, ?_, htaken, hcommitted, ?_, rfl⟩
          · rw [← hindex]
            rfl
          · simp [hookInvocation, Hooks.Registry.state, hstate]
      | turn hr => exact .inl ⟨rfl, rfl⟩
      | finish e hr => exact .inl ⟨rfl, rfl⟩
      | leave hr hnext =>
          have hpending : g.hooks.pending = [] := by
            cases hp : g.hooks.pending with
            | nil => rfl
            | cons p rest => simp [Hooks.Registry.next?, hp] at hnext
          refine .inl ⟨by cases state <;> rfl, same ?_ (Hooks.Registry.next?_registered _)⟩
          show g.hooks.next?.1.pending = g.hooks.pending
          simp [Hooks.Registry.next?, hpending]

/-- Hooks are started once each, in the order of their registration, and with the state of the
commit. -/
theorem hooks_of_changes {id : FlowId} {ds : List Deed} (h : Changes c (.new id) ds g) :
    ds.filterMap Deed.hookStarted? = List.range g.taken ∧
      ∀ index r, .hookStarted index r ∈ ds →
        ∃ s, g.committed = some s ∧ r.args = [.success (.state s)] ∧ r.flow = g.id := by
  induction h with
  | refl => exact ⟨rfl, by simp⟩
  | @tail g₁ g₂ ds d hchain hchange ih =>
      obtain ⟨hstarted, hgiven⟩ := ih
      obtain ⟨a, horderly⟩ := (orderly_new id).changes hchain
      have hid : g₂.id = g₁.id := hchange.keeps.1.id
      have hcommitted (s : FlowState) (hs : g₁.committed = some s) : g₂.committed = some s := by
        rcases horderly.record_cases hchange with
          hsame | ⟨s', -, hnone, -⟩ | ⟨s', -, -, -, hsame, -⟩
        · exact hsame.committed.trans hs
        · rw [hs] at hnone
          cases hnone
        · exact hsame.trans hs
      have hkept (index : Nat) (r : Invocation) (hr : .hookStarted index r ∈ ds) :
          ∃ s, g₂.committed = some s ∧ r.args = [.success (.state s)] ∧ r.flow = g₂.id := by
        obtain ⟨s, hs, hargs, hflow⟩ := hgiven index r hr
        exact ⟨s, hcommitted s hs, hargs, hflow.trans hid.symm⟩
      rw [List.filterMap_append, hstarted]
      rcases horderly.taken_cases hchange with
        ⟨hnone, htaken⟩ | ⟨s, r, rfl, htaken, hs, hargs, hflow⟩
      · rw [htaken]
        refine ⟨?_, ?_⟩
        · cases d with
          | none => exact List.append_nil _
          | some d => simp [show d.hookStarted? = none from hnone]
        · intro index r hr
          rcases List.mem_append.mp hr with hr | hr
          · exact hkept index r hr
          · obtain rfl := Option.mem_toList.mp hr
            cases hnone
      · rw [htaken, List.range_succ]
        refine ⟨rfl, ?_⟩
        intro index r' hr
        rcases List.mem_append.mp hr with hr | hr
        · exact hkept index r' hr
        · cases List.mem_singleton.mp hr
          exact ⟨s, hcommitted s hs, hargs, hflow.trans hid.symm⟩

end Graph

namespace World

open StageGraph.Graph (Ready)

variable {c : Completer} {w : World} {es : List Event} {flow : Nat} {g : Graph}

/-- What bodies are given.
* Whenever the rules ask for the body of an operation, on whatever results its stages may wait for,
  and a body of the right kind is registered: the arguments are as many as it takes, and it reads
  those results as they were meant, or stops because something cannot be decoded.
* In a run such a body is run once for its stage, on the results that the stage has waited for.
* Hooks are started once each and read the state in which their flow was committed. -/
theorem arguments_fit (hrun : World.empty.run c es = some w) (hg : w.graph? flow = some g) :
    (∀ (op : Operation) (count : Nat) (inputs args : List Outcome) (b : TypedBody) (k : Catalog)
      (id : FlowId) (stage : StageId) (closure : Closure),
      op.Takes count → op.Supplies count inputs → op.Asks inputs args →
      op.bodyKind? = some b.kind → k.find? closure.entry = some b.continuation →
      args.length = b.continuation.kind.arity ∧
        ∃ read, b.Reads closure inputs read ∧ k.Plays ⟨id, stage, closure, args⟩ read) ∧
    (∀ (n : Nat) (s : Stage) (inputs args : List Outcome) (b : TypedBody) (closure : Closure),
      g.stages[n]? = some s → ResolvedIn c es flow n inputs → s.operation.Asks inputs args →
      s.closure = some closure → s.operation.bodyKind? = some b.kind →
      c.catalog.find? closure.entry = some b.continuation →
      invocations n (deedsAt flow (World.empty.history c es)) = [g.invocation n closure args] ∧
        Ready g s.recipe inputs ∧ args.length = b.continuation.kind.arity ∧
        ∃ read, b.Reads closure inputs read ∧ c.catalog.Plays (g.invocation n closure args) read) ∧
    ((deedsAt flow (World.empty.history c es)).filterMap Deed.hookStarted?).Nodup ∧
    ∀ (index : Nat) (r : Invocation) (b : TypedBody),
      .hookStarted index r ∈ deedsAt flow (World.empty.history c es) → b.kind = .hook →
      c.catalog.find? r.closure.entry = some b.continuation →
      ∃ s, g.committed = some s ∧ r.flow = g.id ∧ r.args.length = b.continuation.kind.arity ∧
        ∃ read, b.Reads r.closure [.success (.state s)] read ∧ c.catalog.Plays r read := by
  have hchanges := changes_of_fresh hrun rfl hg
  obtain ⟨hstarted, hgiven⟩ := Graph.hooks_of_changes hchanges
  refine ⟨?_, ?_, ?_, ?_⟩
  · intro op count inputs args b k id stage closure _ hsupplies hasks hkind hentry
    have hfits := hasks.fits hsupplies hkind
    refine ⟨by rw [b.continuation_kind]; exact hfits.arity, ?_⟩
    exact Catalog.plays_of_fits (r := ⟨id, stage, closure, args⟩) hentry hfits
  · intro n s inputs args b closure hs hinputs hasks hclosure hkind hentry
    obtain ⟨hown, hready⟩ := hinputs.ready hrun hg hs
    have htakes := takes_of_reachable ⟨es, hrun⟩ ((stage?_of_graph hg).trans hs) hown
    have hfits := hasks.fits (supplies_of_ready htakes hready) hkind
    have hmem : g.invocation n closure args ∈
        invocations n (deedsAt flow (World.empty.history c es)) :=
      (invoked_iff hrun hg hs).mpr ⟨inputs, closure, args, hinputs, hclosure, hasks, rfl⟩
    refine ⟨?_, hready, by rw [b.continuation_kind]; exact hfits.arity,
      Catalog.plays_of_fits (r := g.invocation n closure args) hentry hfits⟩
    have honce := (Graph.invocations_once hchanges n).1
    have hpos := List.length_pos_of_mem hmem
    obtain ⟨r, hr⟩ := List.length_eq_one_iff.mp (Nat.le_antisymm honce hpos)
    rw [hr] at hmem ⊢
    rw [List.mem_singleton.mp hmem]
  · rw [hstarted]
    exact List.nodup_range
  · intro index r b hr hkind hentry
    obtain ⟨s, hcommitted, hargs, hflow⟩ := hgiven index r hr
    have hfits : b.kind.Fits [.success (.state s)] r.args := by
      rw [hkind, hargs]
      exact .hook s
    exact ⟨s, hcommitted, hflow, by rw [b.continuation_kind]; exact hfits.arity,
      Catalog.plays_of_fits hentry hfits⟩

end World

/-- A body that notes how its parent has ended. -/
def TypedBody.noting : TypedBody :=
  .handler fun (_ : Json.Value) (o : Except FlowError Json.Value) =>
    match o with
    | .ok v => pure v
    | .error e => pure (.string e.message)

/-- A hook that does nothing. -/
def TypedBody.idle : TypedBody := .hook fun (_ : Json.Value) (_ : FlowState) => pure ()

/-- A completer with these two bodies. -/
def Completer.noting : Completer :=
  { plain with catalog :=
      ⟨[("idle", TypedBody.idle.continuation), ("note", TypedBody.noting.continuation)]⟩ }

namespace World

/-- A stage notes how its failed parent has ended, and a hook is run at the end. -/
def notingRun : List Event :=
  [.call (.createFlow "f"), .call (.addCompleted ⟨"0"⟩ (.failure .empty)),
    .call (.addStage ⟨"0"⟩ ⟨.handle, some (.bare "note"), [⟨"0"⟩]⟩),
    .call (.addHook ⟨"0"⟩ (.bare "idle")), .call (.commit ⟨"0"⟩ .failed), .task (.stage 0 1),
    .task (.stage 0 1), .task (.stage 0 1), .task (.hooks 0 0), .task (.hooks 0 0)]

/-- The state after the first events of `notingRun`. -/
def notingState (count : Nat) : World :=
  (World.empty.run .noting (notingRun.take count)).getD .empty

/-- Its graph. -/
def notingGraph (count : Nat) : Graph := ((notingState count).graph? 0).getD (.new ⟨"0"⟩)

theorem arguments_fit_noting :
    World.empty.run .noting notingRun = some (notingState 10) ∧
      invocations 1 (deedsAt 0 (World.empty.history .noting notingRun)) =
        [⟨⟨"0"⟩, ⟨"1"⟩, .bare "note", [.empty, .failure .empty]⟩] ∧
      (∃ read, TypedBody.noting.Reads (.bare "note") [.failure .empty] read ∧
        Completer.noting.catalog.Plays
          ⟨⟨"0"⟩, ⟨"1"⟩, .bare "note", [.empty, .failure .empty]⟩ read) ∧
      ∃ s, (notingGraph 10).committed = some s ∧ ∃ read,
        TypedBody.idle.Reads (.bare "idle") [.success (.state s)] read := by
  have hrun : World.empty.run .noting notingRun = some (notingState 10) := rfl
  have hg : (notingState 10).graph? 0 = some (notingGraph 10) := rfl
  obtain ⟨-, hstages, -, hhooks⟩ := arguments_fit hrun hg
  have hinputs : ResolvedIn .noting notingRun 0 1 [.failure .empty] := by
    refine ⟨notingState 6, notingGraph 6,
      ⟨.handle, some (.bare "note"), [0], .gathering [.failure .empty] []⟩,
      .launch (.bare "note") [.empty, .failure .empty] none, notingState 7, ?_, .all rfl⟩
    exact ⟨notingRun.take 6, notingRun.drop 7, rfl, rfl, rfl, rfl, rfl, ⟨_, rfl⟩, rfl⟩
  obtain ⟨honce, -, -, hread⟩ := hstages 1 _ _ [.empty, .failure .empty] .noting (.bare "note") rfl
    hinputs (.invoke rfl) rfl rfl rfl
  refine ⟨hrun, honce, hread, ?_⟩
  have hmem : .hookStarted 0 ⟨⟨"0"⟩, hookStage, .bare "idle", [.success (.state .failed)]⟩ ∈
      deedsAt 0 (World.empty.history .noting notingRun) :=
    List.mem_of_getElem?
      (show (deedsAt 0 (World.empty.history .noting notingRun))[3]? = some _ from rfl)
  obtain ⟨s, hs, -, -, read, hreads, -⟩ := hhooks 0 _ .idle hmem rfl rfl
  exact ⟨s, hs, read, hreads⟩

end World

end StageGraph
