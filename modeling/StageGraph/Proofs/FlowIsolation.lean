/-
# `StageGraph.Proofs.FlowIsolation` — stages of other flows are never taken

Stages are named by numbers that start anew in every flow, so the name of a stage of
one flow is also that of a stage of another.  Nothing in a completer could tell which
of them was meant: by the time a name arrives there, the flow is that of the call.

What keeps flows apart is that a handle carries its flow, and that every way from a
handle to a name looks at it.  There are two such ways.  Where several handles go into
one stage, all are compared with the flow before anything is sent (`Builder.foreign`).
Where a body gives a handle to be adopted, it is compared with the flow of the stage
that the body is run for, which is the current one at the end of the body whatever
scopes the body has gone through (`Catalog.Composes.invoke`).

So inputs and adopted stages are what the handles say.  For adoption this is followed
through a run (`World.Composing`): the body goes on in the steps of its stage, and the
handle that it returns in the last of them is the one that is looked at.
-/
import StageGraph.Proofs.BodyArguments
import StageGraph.Proofs.FailureRelay
import StageGraph.Proofs.Conduct

namespace StageGraph

open StageGraph.Continuation (Body stageReference)
open StageGraph.Wire (HasCodec)

/-! ## Several handles -/

section Handles

variable {E : Signature} {α : Type} {flow : FlowId} {op : Operation} {body : Option Closure}
  {hs before after : List Handle} {h : Handle}

theorem ownStage_eq_ok {stage : StageId} :
    flow.ownStage h = .ok stage ↔ h.flow = flow ∧ stage = h.stage := by
  unfold FlowId.ownStage
  split <;> simp_all [eq_comm]

theorem ownStage_of_ne (hne : h.flow ≠ flow) :
    flow.ownStage h = .error (.invalidArgument (.foreignStage h.stage h.flow flow)) :=
  if_neg hne

/-- The first handle of another flow is named. -/
theorem join_of_foreign (htakes : op.Takes (before ++ h :: after).length)
    (hown : ∀ b ∈ before, b.flow = flow) (hforeign : h.flow ≠ flow) :
    (flow.join op body (before ++ h :: after) : FlowM E Handle) =
      FlowM.ofExcept (.error (.invalidArgument (.foreignStage h.stage h.flow flow))) := by
  have hinputs := (op.checkInputs_ok_iff _).mpr htakes
  have hfirst : (before ++ h :: after).mapM flow.ownStage =
      .error (.invalidArgument (.foreignStage h.stage h.flow flow)) := by
    refine mapM_eq_error.mpr ⟨before, h, after, rfl, ?_, ownStage_of_ne hforeign⟩
    intro b hb
    exact ⟨b.stage, ownStage_eq_ok.mpr ⟨hown b hb, rfl⟩⟩
  simp only [FlowId.join, FlowId.dependencies, hinputs, bind, Except.bind, hfirst]
  rfl

/-- A program that takes handles of several flows fails, and asks nothing. -/
theorem Builder.foreign {p : FlowM E α}
    (hp : Builder flow op body (before ++ h :: after) p)
    (htakes : op.Takes (before ++ h :: after).length) (hown : ∀ b ∈ before, b.flow = flow)
    (hforeign : h.flow ≠ flow) :
    p = FlowM.ofExcept (.error (.invalidArgument (.foreignStage h.stage h.flow flow))) := by
  have single {h' : Handle} (hsplit : [h'] = before ++ h :: after) (hself : h'.flow = flow) :
      False := by
    cases before with
    | nil => cases hsplit; exact hforeign hself
    | cons b before => cases before <;> cases hsplit
  generalize hhs : before ++ h :: after = hs at hp htakes
  cases hp with
  | supply b => cases before <;> cases hhs
  | thenApply h' b => exact (single hhs.symm rfl).elim
  | thenCompose h' b => exact (single hhs.symm rfl).elim
  | exceptionally h' b => exact (single hhs.symm rfl).elim
  | exceptionallyCompose h' b => exact (single hhs.symm rfl).elim
  | handle h' b => exact (single hhs.symm rfl).elim
  | whenComplete h' b => exact (single hhs.symm rfl).elim
  | thenCombine h' other b =>
      rw [Handle.thenCombine, ← hhs]
      exact join_of_foreign (hhs ▸ htakes) hown hforeign
  | applyToEither h' other b =>
      rw [Handle.applyToEither, ← hhs]
      exact join_of_foreign (hhs ▸ htakes) hown hforeign
  | allOf =>
      rw [FlowId.allOf, ← hhs]
      exact join_of_foreign (hhs ▸ htakes) hown hforeign
  | anyOf =>
      rw [FlowId.anyOf, ← hhs]
      exact join_of_foreign (hhs ▸ htakes) hown hforeign
  | allResults =>
      rw [FlowId.allResults, FlowId.allOf, ← hhs, join_of_foreign (hhs ▸ htakes) hown hforeign]
      rfl

/-- A stage over several handles is sent for if all of them belong to the flow; otherwise nothing is
sent. -/
theorem join_cases (E : Signature) (flow : FlowId) (op : Operation) (body : Option Closure)
    (hs : List Handle) :
    (∃ e, (flow.join op body hs : FlowM E Handle) = FlowM.ofExcept (.error e)) ∨
      (∀ h ∈ hs, h.flow = flow) ∧ (flow.join op body hs : FlowM E Handle) =
        flow.addStage ⟨op, body, hs.map Handle.stage⟩ := by
  by_cases htakes : op.Takes hs.length
  · cases hdeps : hs.mapM flow.ownStage with
    | error e =>
        have hinputs := (op.checkInputs_ok_iff hs.length).mpr htakes
        refine .inl ⟨e, ?_⟩
        simp only [FlowId.join, FlowId.dependencies, hinputs, bind, Except.bind, hdeps]
        rfl
    | ok stages =>
        have hown : ∀ h ∈ hs, h.flow = flow := by
          intro h hh
          obtain ⟨stage, hstage⟩ := ok_of_mapM hdeps h hh
          exact (ownStage_eq_ok.mp hstage).1
        exact .inr ⟨hown, join_of_takes hown htakes⟩
  · exact .inl (join_of_not_takes E flow body htakes)

section First

variable {f : FlowId} {r r' : StageRequest}

theorem addStage_first
    {next : Except FlowError StageId → FlowProgram bodySignature (Except FlowError Handle)}
    (hask : (flow.addStage r' : FlowM bodySignature Handle).run =
      .ask (.call (.addStage f r)) next) : f = flow ∧ r = r' := by
  rw [run_addStage] at hask
  cases hask
  exact ⟨rfl, rfl⟩

theorem join_first
    {next : Except FlowError StageId → FlowProgram bodySignature (Except FlowError Handle)}
    (hask : (flow.join op body hs : FlowM bodySignature Handle).run =
      .ask (.call (.addStage f r)) next) :
    f = flow ∧ r = ⟨op, body, hs.map Handle.stage⟩ ∧ ∀ h ∈ hs, h.flow = flow := by
  rcases join_cases bodySignature flow op body hs with ⟨e, he⟩ | ⟨hown, hjoin⟩
  · rw [he] at hask
    cases hask
  · rw [hjoin] at hask
    obtain ⟨rfl, rfl⟩ := addStage_first hask
    exact ⟨rfl, rfl, hown⟩

/-- The first request of a program that builds a stage names what its handles name. -/
theorem Builder.first {p : FlowM bodySignature α} (hp : Builder flow op body hs p)
    {next : Except FlowError StageId → FlowProgram bodySignature (Except FlowError α)}
    (hask : p.run = .ask (.call (.addStage f r)) next) :
    f = flow ∧ r = ⟨op, body, hs.map Handle.stage⟩ ∧ ∀ h ∈ hs, h.flow = flow := by
  have single {hs : List Handle} {op : Operation} {body : Option Closure} {flow : FlowId}
      {next : Except FlowError StageId → FlowProgram bodySignature (Except FlowError Handle)}
      (hown : ∀ h ∈ hs, h.flow = flow)
      (hask : (flow.addStage ⟨op, body, hs.map Handle.stage⟩ : FlowM bodySignature Handle).run =
        .ask (.call (.addStage f r)) next) :
      f = flow ∧ r = ⟨op, body, hs.map Handle.stage⟩ ∧ ∀ h ∈ hs, h.flow = flow := by
    obtain ⟨rfl, rfl⟩ := addStage_first hask
    exact ⟨rfl, rfl, hown⟩
  cases hp with
  | supply b => exact single (by simp) hask
  | thenApply h b => exact single (List.forall_mem_singleton.mpr rfl) hask
  | thenCompose h b => exact single (List.forall_mem_singleton.mpr rfl) hask
  | exceptionally h b => exact single (List.forall_mem_singleton.mpr rfl) hask
  | exceptionallyCompose h b => exact single (List.forall_mem_singleton.mpr rfl) hask
  | handle h b => exact single (List.forall_mem_singleton.mpr rfl) hask
  | whenComplete h b => exact single (List.forall_mem_singleton.mpr rfl) hask
  | thenCombine h other b => exact join_first hask
  | applyToEither h other b => exact join_first hask
  | allOf => exact join_first hask
  | anyOf => exact join_first hask
  | allResults =>
      rcases join_cases bodySignature flow .allOf none hs with ⟨e, he⟩ | ⟨hown, hjoin⟩
      · rw [FlowId.allResults, FlowId.allOf, he] at hask
        cases hask
      · rw [FlowId.allResults, FlowId.allOf, hjoin, run_addStage_bind] at hask
        cases hask
        exact ⟨rfl, rfl, hown⟩

end First

end Handles

/-! ## Programs and their ends -/

namespace Program

variable {S : Signature} {α β : Type}

/-- The program may end with a value, depending on the answers that it gets. -/
inductive MayReturn : Program S α → α → Prop
  | done (a : α) : MayReturn (.done a) a
  | ask {q : S.Question} {next : S.Answer q → Program S α} {a : α} (x : S.Answer q) :
      MayReturn (next x) a → MayReturn (.ask q next) a

theorem mayReturn_of_bind {p : Program S α} {f : α → Program S β} {b : β}
    (h : (p.bind f).MayReturn b) : ∃ a, p.MayReturn a ∧ (f a).MayReturn b := by
  induction p with
  | done a => exact ⟨a, .done a, h⟩
  | panic m => cases h
  | ask q next ih =>
      cases h with
      | ask x h =>
          obtain ⟨a, ha, hb⟩ := ih x h
          exact ⟨a, .ask x ha, hb⟩

theorem mayReturn_of_answering {known : (q : S.Question) → Option (S.Answer q)} {p : Program S α}
    {a : α} (h : (p.answering known).MayReturn a) : p.MayReturn a := by
  induction p with
  | done b => exact h
  | panic m => cases h
  | ask q next ih =>
      unfold answering at h
      cases hknown : known q with
      | some x =>
          rw [hknown] at h
          exact .ask x (ih x h)
      | none =>
          rw [hknown] at h
          cases h with
          | ask x h => exact .ask x (ih x h)

end Program

namespace BodyM

variable {E : Signature} {α β : Type}

theorem mayReturn_of_bind {m : BodyM E α} {f : α → BodyM E β} {b : β}
    (h : (m >>= f).run.MayReturn (.ok b)) :
    ∃ a, m.run.MayReturn (.ok a) ∧ (f a).run.MayReturn (.ok b) := by
  obtain ⟨r, hr, h⟩ := Program.mayReturn_of_bind h
  cases r with
  | ok a => exact ⟨a, hr, h⟩
  | error e => cases h

theorem mayReturn_ofExcept {r : Except FlowError α} {a : α}
    (h : (BodyM.ofExcept r : BodyM E α).run.MayReturn (.ok a)) : r = .ok a := by
  cases r with
  | ok b => cases h; rfl
  | error e => cases h

end BodyM

namespace FlowProgram

variable {α : Type}

/-- A program with the result that is recorded for its end. -/
def recording (f : Except Panic α → Outcome) (p : FlowProgram bodySignature α) :
    FlowProgram bodySignature Outcome :=
  p.attempt.bind fun ended => .done (f ended)

variable {f : Except Panic α → Outcome}

theorem recording_ask (q : Question bodySignature)
    (next : q.Answer → FlowProgram bodySignature α) :
    recording f (.ask q next) = .ask q fun x => recording f (next x) := rfl

theorem canGive_recording {p : FlowProgram bodySignature α} {o : Outcome}
    (h : CanGive (recording f p) o) :
    (∃ a, p.MayReturn a ∧ o = f (.ok a)) ∨ ∃ m, o = f (.error m) := by
  induction p with
  | done a =>
      cases h
      exact .inl ⟨a, .done a, rfl⟩
  | panic m =>
      cases h
      exact .inr ⟨m, rfl⟩
  | ask q next ih =>
      cases h with
      | ask x h =>
          rcases ih x h with ⟨a, ha, ho⟩ | hm
          · exact .inl ⟨a, .ask x ha, ho⟩
          · exact .inr hm

theorem runIn_recording {σ : Type} {answer : (q : Question bodySignature) → σ → q.Answer × σ}
    (p : FlowProgram bodySignature α) (s : σ) :
    (recording f p).runIn answer s = (.ok (f (p.runIn answer s).1), (p.runIn answer s).2) := by
  rw [recording, Program.runIn_bind, Program.runIn_attempt]
  rfl

end FlowProgram

/-! ## Bodies that name a stage -/

/-- What is recorded if a handle is to be adopted that does not belong to the flow. -/
def Handle.foreignFailure (h : Handle) (flow : FlowId) : Outcome :=
  let message := (FlowError.invalidArgument (.foreignStage h.stage h.flow flow)).message
  .failure (.traced .userError message message)

namespace Catalog

/-- What is recorded at the end of a body that names a stage to adopt. -/
def named (flow : FlowId) : Except Panic (Except Report Handle) → Outcome
  | .ok (.ok h) =>
    if h.flow = flow then .success (.stageRef h.stage) else h.foreignFailure flow
  | .ok (.error r) => r.toOutcome
  | .error p => p.toOutcome

/-- The body `body` is run for a stage, and names the stage to adopt: everything that it reads could
be read. -/
inductive Composes (k : Catalog) (r : Invocation) : Body Handle → Prop
  | composer {C A : Type} [HasCodec C] [HasCodec A] {body : C → A → Body Handle} {x : C} {a : A}
      {d : Datum} : k.find? r.closure.entry = some (.composer body) → r.args = [.success d] →
      r.closure.capturedAs C = .ok x → d.decode A = .ok a → Composes k r (body x a)
  | recoveryComposer {C : Type} [HasCodec C] {body : C → FlowError → Body Handle} {x : C}
      {d : Datum} : k.find? r.closure.entry = some (.recoveryComposer body) →
      r.args = [.failure d] → r.closure.capturedAs C = .ok x →
      Composes k r (body x (.stageFailure d))

variable {k : Catalog} {r : Invocation} {body : Body Handle}

/-- The flow that a handle is compared with is that of the scope around the whole body. -/
theorem scope_stageReference (flow : FlowId) (h : Handle) :
    FlowProgram.scope flow (stageReference h).run =
      .done (((flow.ownStage h).map Datum.stageRef).mapError Report.ofFlow) := by
  show FlowProgram.scope flow (ExceptT.run (do
    let stage ← BodyM.ofExcept (flow.ownStage h)
    return Datum.stageRef stage : Body Datum)) = _
  cases flow.ownStage h <;> rfl

/-- So it makes no difference in which scopes the body has got the handle. -/
theorem recording_reference (flow : FlowId) (p : FlowProgram bodySignature (Except Report Handle)) :
    FlowProgram.recording recorded
        (FlowProgram.scope flow (p.bind (ExceptT.bindCont stageReference))) =
      FlowProgram.recording (named flow) (FlowProgram.scope flow p) := by
  induction p with
  | done ended =>
      cases ended with
      | error r => rfl
      | ok h =>
          show FlowProgram.recording recorded (FlowProgram.scope flow (stageReference h).run) =
            Program.done (if h.flow = flow then _ else _)
          rw [scope_stageReference]
          split
          · next hown => rw [ownStage_eq_ok.mpr ⟨hown, rfl⟩]; rfl
          · next hown => rw [ownStage_of_ne hown]; rfl
  | panic m => rfl
  | ask q next ih =>
      simp only [FlowProgram.scope, Program.bind, Program.answering] at ih ⊢
      cases FlowProgram.currentIs (some flow) q with
      | some x => exact ih x
      | none =>
          simp only [FlowProgram.recording_ask]
          congr 1
          funext x
          exact ih x

/-- A body that names a stage is run with what is recorded for its end. -/
theorem Composes.invoke (h : k.Composes r body) :
    k.invoke r =
      FlowProgram.recording (named r.flow) (FlowProgram.scope r.flow body.run) := by
  rw [← recording_reference]
  cases h with
  | @composer C A _ _ body x a d hentry hargs hx ha =>
      have hrun : (Continuation.composer body).run r.closure r.args = body x a >>= stageReference := by
        show (do
          let x ← BodyM.ofExcept (r.closure.capturedAs C)
          let a ← BodyM.ofExcept (Argument.value r.args.head?)
          let h ← body x a
          stageReference h : Body Datum) = _
        rw [hargs, hx]
        show (do
          let a ← BodyM.ofExcept (d.decode A)
          let h ← body x a
          stageReference h : Body Datum) = _
        rw [ha]
        rfl
      have hlen : r.args.length = (Continuation.composer body).kind.arity := by rw [hargs]; rfl
      simp only [Catalog.invoke, hentry, if_pos hlen, hrun]
      rfl
  | @recoveryComposer C _ body x d hentry hargs hx =>
      have hrun : (Continuation.recoveryComposer body).run r.closure r.args =
          body x (.stageFailure d) >>= stageReference := by
        show (do
          let x ← BodyM.ofExcept (r.closure.capturedAs C)
          let e ← BodyM.ofExcept (Argument.failure r.args)
          let h ← body x e
          stageReference h : Body Datum) = _
        rw [hargs, hx]
        rfl
      have hlen : r.args.length = (Continuation.recoveryComposer body).kind.arity := by
        rw [hargs]; rfl
      simp only [Catalog.invoke, hentry, if_pos hlen, hrun]
      rfl

/-- Wherever such a body is run: if it returns a handle of another flow, a failure is recorded. -/
theorem Composes.runIn {σ : Type} {answer : (q : Question bodySignature) → σ → q.Answer × σ} {s : σ}
    {h : Handle} (hbody : k.Composes r body)
    (hreturns : ((FlowProgram.scope r.flow body.run).runIn answer s).1 = .ok (.ok h))
    (hforeign : h.flow ≠ r.flow) :
    ((k.invoke r).runIn answer s).1 = .ok (h.foreignFailure r.flow) := by
  rw [hbody.invoke, FlowProgram.runIn_recording, hreturns]
  simp only [named, if_neg hforeign]

/-- Data of values never name a stage. -/
theorem not_mayReturn_ofTyped {R : Type} [HasCodec R] (a : R) {stage : StageId} :
    ¬(pure (.ofTyped a) : Body Datum).run.MayReturn (.ok (.stageRef stage)) := by
  intro h
  generalize hd : Datum.ofTyped a = d at h
  cases h
  unfold Datum.ofTyped Datum.ofValue at hd
  split at hd <;> cases hd

/-- A registered body that may leave the name of a stage is one that names it by a handle. -/
theorem composes_of_canGive {b : TypedBody} {stage : StageId}
    (hentry : k.find? r.closure.entry = some b.continuation)
    (h : CanGive (k.invoke r) (.success (.stageRef stage))) : ∃ body, k.Composes r body := by
  simp only [Catalog.invoke, hentry] at h
  split at h
  · next hlen =>
      have hreturn : (b.continuation.run r.closure r.args).run.MayReturn (.ok (.stageRef stage)) := by
        rcases FlowProgram.canGive_recording h with ⟨ended, hended, ho⟩ | ⟨m, ho⟩
        · cases ended with
          | error e => cases ho
          | ok d => cases ho; exact Program.mayReturn_of_answering hended
        · cases ho
      cases b with
      | supplier body =>
          obtain ⟨x, -, h⟩ := BodyM.mayReturn_of_bind hreturn
          obtain ⟨a, -, h⟩ := BodyM.mayReturn_of_bind h
          exact absurd h (not_mayReturn_ofTyped a)
      | function body =>
          obtain ⟨x, -, h⟩ := BodyM.mayReturn_of_bind hreturn
          obtain ⟨a, -, h⟩ := BodyM.mayReturn_of_bind h
          obtain ⟨b, -, h⟩ := BodyM.mayReturn_of_bind h
          exact absurd h (not_mayReturn_ofTyped b)
      | @composer C A _ _ body =>
          obtain ⟨x, hx, h⟩ := BodyM.mayReturn_of_bind hreturn
          obtain ⟨a, ha, h⟩ := BodyM.mayReturn_of_bind h
          have hx := BodyM.mayReturn_ofExcept hx
          have ha := BodyM.mayReturn_ofExcept ha
          obtain ⟨o, ho⟩ := List.length_eq_one_iff.mp hlen
          rw [ho] at ha
          cases o with
          | success d => exact ⟨_, .composer hentry ho hx ha⟩
          | failure d => cases ha
      | recovery body =>
          obtain ⟨x, -, h⟩ := BodyM.mayReturn_of_bind hreturn
          obtain ⟨e, -, h⟩ := BodyM.mayReturn_of_bind h
          obtain ⟨a, -, h⟩ := BodyM.mayReturn_of_bind h
          exact absurd h (not_mayReturn_ofTyped a)
      | @recoveryComposer C _ body =>
          obtain ⟨x, hx, h⟩ := BodyM.mayReturn_of_bind hreturn
          obtain ⟨e, he, h⟩ := BodyM.mayReturn_of_bind h
          have hx := BodyM.mayReturn_ofExcept hx
          have he := BodyM.mayReturn_ofExcept he
          obtain ⟨o, ho⟩ := List.length_eq_one_iff.mp hlen
          rw [ho] at he
          cases o with
          | success d => cases he
          | failure d => exact ⟨_, .recoveryComposer hentry ho hx⟩
      | combiner body =>
          obtain ⟨x, -, h⟩ := BodyM.mayReturn_of_bind hreturn
          obtain ⟨a, -, h⟩ := BodyM.mayReturn_of_bind h
          obtain ⟨b, -, h⟩ := BodyM.mayReturn_of_bind h
          obtain ⟨a', -, h⟩ := BodyM.mayReturn_of_bind h
          exact absurd h (not_mayReturn_ofTyped a')
      | handler body =>
          obtain ⟨x, -, h⟩ := BodyM.mayReturn_of_bind hreturn
          obtain ⟨o, -, h⟩ := BodyM.mayReturn_of_bind h
          obtain ⟨a, -, h⟩ := BodyM.mayReturn_of_bind h
          exact absurd h (not_mayReturn_ofTyped a)
      | hook body =>
          obtain ⟨x, -, h⟩ := BodyM.mayReturn_of_bind hreturn
          obtain ⟨s, -, h⟩ := BodyM.mayReturn_of_bind h
          obtain ⟨u, -, h⟩ := BodyM.mayReturn_of_bind h
          cases h
  · cases h

theorem named_eq_stageRef {flow : FlowId} {ended : Except Panic (Except Report Handle)}
    {stage : StageId} (h : named flow ended = .success (.stageRef stage)) :
    ∃ h, ended = .ok (.ok h) ∧ h.flow = flow ∧ h.stage = stage := by
  unfold named at h
  split at h
  · next h' =>
      split at h
      · next hown => cases h; exact ⟨h', rfl, hown, rfl⟩
      · cases h
  · cases h
  · cases h

end Catalog

/-! ## A completer -/

namespace Thread

variable {κ μ ν : Type}

theorem map_map (g : μ → ν) (f : κ → μ) (t : Thread κ) :
    (t.map f).map g = t.map fun k => g (f k) := by
  cases t with
  | going k => rfl
  | onStage flow stage next alarm => cases alarm <;> rfl
  | asleep a => rfl

theorem resume?_map (t : Thread κ) (f : κ → μ) (outcome? : Nat → Nat → Option Outcome)
    (clock : Nat) : (t.map f).resume? outcome? clock = (t.resume? outcome? clock).map f := by
  have fired (a : Alarm κ) : (a.map f).fired? clock = (a.fired? clock).map f := by
    by_cases hdue : a.moment ≤ clock <;> simp [Alarm.fired?, Alarm.isDue, Alarm.map, hdue]
  cases t with
  | going k => rfl
  | onStage flow stage next alarm =>
      simp only [map, resume?]
      cases outcome? flow stage with
      | some o => rfl
      | none => cases alarm with
        | none => rfl
        | some a => exact fired a
  | asleep a => exact fired a

end Thread

namespace Graph

variable {c : Completer} {g g' : Graph} {ds : List Deed}

/-- A body that has ended leads to adoption only by naming a stage that is there. -/
theorem conclude_eq_adopting {s : Stage} {o : Outcome} {target : Nat}
    (h : g.conclude s none o = .turn (.adopting target)) :
    ∃ stage, o = .success (.stageRef stage) ∧ g.slot? stage = .ok target := by
  unfold conclude at h
  cases hadopts : s.operation.adopts with
  | false => simp [hadopts] at h
  | true =>
      simp only [hadopts, if_true] at h
      cases o with
      | failure d => cases h
      | success d =>
          cases d with
          | stageRef stage =>
              refine ⟨stage, rfl, ?_⟩
              simp only [Outcome.compose] at h
              cases hslot : g.slot? stage with
              | error e => simp [hslot] at h
              | ok t => simpa [hslot] using h
          | _ => cases h

/-- A name stands for the same stage ever after. -/
theorem Changes.slot? {stage : StageId} {n : Nat} (h : Changes c g ds g')
    (hslot : g.slot? stage = .ok n) : g'.slot? stage = .ok n := by
  obtain ⟨hread, hlt⟩ := slot?_eq_ok hslot
  obtain ⟨s', hs', -⟩ := h.recipe (List.getElem?_eq_getElem hlt)
  simp only [Graph.slot?, hread, if_pos (List.getElem?_eq_some_iff.mp hs').1]

/-- The results of all inputs are one list only. -/
theorem Ready.unique {k : Recipe} {inputs inputs' : List Outcome}
    (hall : k.operation.readiness ≠ .firstInput) (h : Ready g k inputs) (h' : Ready g k inputs') :
    inputs = inputs' := by
  cases h with
  | first hfirst => exact absurd hfirst hall
  | all _ hinputs =>
      cases h' with
      | first hfirst => exact absurd hfirst hall
      | all _ hinputs' =>
          exact List.map_injective_iff.mpr (fun _ _ => Option.some.inj)
            (hinputs.symm.trans hinputs')

end Graph

namespace World

open StageGraph.Graph (Changes)

variable {c : Completer} {w w' : World} {flow n : Nat} {g : Graph} {s : Stage} {id : FlowId}
  {body : Body Handle} {h : Handle}

theorem resume?_map {κ μ : Type} (w : World) (f : κ → μ) (t : Thread κ) :
    w.resume? (t.map f) = (w.resume? t).map f :=
  t.resume?_map f w.outcome? w.clock

theorem Steps.of_ask {m : Move} {t : BodyThread} {forward : Option Outcome}
    {q : Question bodySignature} {next : q.Answer → FlowProgram bodySignature Outcome}
    (hsteps : Steps c flow n w g s m w') (hphase : s.phase = .running t forward)
    (hresume : w.resume? t = some (.ask q next)) :
    m = .turn (.running ((w.pose c q).2.map next) forward) :=
  hsteps.move_eq (.ask hphase hresume)

theorem Steps.of_done {m : Move} {t : BodyThread} {forward : Option Outcome} {o : Outcome}
    (hsteps : Steps c flow n w g s m w') (hphase : s.phase = .running t forward)
    (hresume : w.resume? t = some (.done o)) : m = g.conclude s forward o :=
  hsteps.move_eq (.conclude hphase hresume (.done o))

/-- As long as a program is conducted by the body of a stage, the stage is where the program is. -/
theorem Comes.phase {α : Type} {f : Except Panic α → Outcome} {w₀ : World} {s₀ : Stage}
    {t₀ t : Thread (FlowProgram bodySignature α)} {xs : List Exchange}
    (h : Comes c (.stage flow n) w₀ t₀ xs w t) (hs₀ : w₀.stage? flow n = some s₀)
    (hphase₀ : s₀.phase = .running (t₀.map (FlowProgram.recording f)) none) :
    ∃ s, w.stage? flow n = some s ∧ s.recipe = s₀.recipe ∧
      s.phase = .running (t.map (FlowProgram.recording f)) none := by
  induction h with
  | start => exact ⟨s₀, hs₀, rfl, hphase₀⟩
  | other _ hfire hother ih =>
      obtain ⟨s, hs, hs'⟩ := ih
      exact ⟨s, stage?_of_fire hfire (fun he => hother (congrArg some he)) hs, hs'⟩
  | asks _ hresume hasks ih =>
      obtain ⟨s, hs, hrecipe, hphase⟩ := ih
      cases hasks with
      | stage _ _ _ hfire =>
          obtain ⟨g, m, hsteps⟩ := steps_of_step hs hfire
          have hresume' := (resume?_map _ (FlowProgram.recording f) _).trans
            (congrArg (Option.map _) hresume)
          refine ⟨_, hsteps.landing, hrecipe, ?_⟩
          rw [hsteps.of_ask hphase hresume', Thread.map_map]
          rfl

/-- In the step that has led to this state, the body was run for the stage. -/
inductive Begins (c : Completer) (flow n : Nat) (id : FlowId) (body : Body Handle) : World → Prop
  | intro {w w' : World} {g : Graph} {s : Stage} {closure : Closure} {args : List Outcome} :
      w.Reachable c → w.fire c (.task (.stage flow n)) = some w' →
      Steps c flow n w g s (.launch closure args none) w' → g.id = id →
      c.catalog.Composes (g.invocation n closure args) body → Begins c flow n id body w'

/-- The body, run for the stage before, has come to a point. -/
def Under (c : Completer) (flow n : Nat) (id : FlowId) (body : Body Handle) (w : World)
    (t : Thread (FlowProgram bodySignature (Except Report Handle))) : Prop :=
  ∃ w₀ xs, Begins c flow n id body w₀ ∧
    Comes c (.stage flow n) w₀ (.going (FlowProgram.scope id body.run)) xs w t

/-- In the step from one state to the other, the body returns a handle. -/
def Gets (c : Completer) (flow n : Nat) (id : FlowId) (body : Body Handle) (h : Handle)
    (w w' : World) : Prop :=
  ∃ t, Under c flow n id body w t ∧ w.resume? t = some (.done (.ok h)) ∧
    w.fire c (.task (.stage flow n)) = some w'

theorem Under.phase {t : Thread (FlowProgram bodySignature (Except Report Handle))}
    (h : Under c flow n id body w t) :
    ∃ s, w.stage? flow n = some s ∧
      s.phase = .running (t.map (FlowProgram.recording (Catalog.named id))) none := by
  obtain ⟨w₀, xs, ⟨-, -, hsteps, rfl, hbody⟩, hcomes⟩ := h
  have hphase := hbody.invoke
  obtain ⟨s, hs, -, hs'⟩ := hcomes.phase (f := Catalog.named _) hsteps.landing
    (by simp only [Graph.landing, hphase]; rfl)
  exact ⟨s, hs, hs'⟩

/-- A handle of another flow ends the stage with a failure, in the step in which it is returned. -/
theorem Gets.foreign (hgets : Gets c flow n id body h w w') (hforeign : h.flow ≠ id) :
    w'.outcome? flow n = some (h.foreignFailure id) := by
  obtain ⟨t, hunder, hresume, hfire⟩ := hgets
  obtain ⟨s, hs, hphase⟩ := hunder.phase
  obtain ⟨g, m, hsteps⟩ := steps_of_step hs hfire
  have hresume' : w.resume? (t.map (FlowProgram.recording (Catalog.named id))) =
      some (.done (Catalog.named id (.ok (.ok h)))) := by rw [resume?_map, hresume]; rfl
  have hm : m = .finish (h.foreignFailure id) := by
    rw [hsteps.of_done hphase hresume', Catalog.named, if_neg hforeign]
    exact conclude_failure g s _
  rw [outcome?_of_stage hsteps.landing, hm]
  rfl

/-- Where a stage has come for which such a body is run: it adopts nothing but what the handle
stands for that the body has returned. -/
inductive Composing (c : Completer) (flow n : Nat) (id : FlowId) (body : Body Handle) (w : World) :
    Phase → Prop
  | running {t : Thread (FlowProgram bodySignature (Except Report Handle))} :
      Under c flow n id body w t →
      Composing c flow n id body w
        (.running (t.map (FlowProgram.recording (Catalog.named id))) none)
  | adopting {w₁ w₂ : World} {h : Handle} {g : Graph} {target : Nat} {es : List Event} :
      Gets c flow n id body h w₁ w₂ → w₂.run c es = some w → h.flow = id →
      w.graph? flow = some g → g.slot? h.stage = .ok target →
      Composing c flow n id body w (.adopting target)
  | ended (o : Outcome) : Composing c flow n id body w (.ended o)

theorem Composing.kept {e : Event} {p : Phase} (h : Composing c flow n id body w p)
    (hfire : w.fire c e = some w') (hne : e ≠ .task (.stage flow n)) :
    Composing c flow n id body w' p := by
  cases h with
  | running hunder =>
      obtain ⟨w₀, xs, hbegins, hcomes⟩ := hunder
      exact .running ⟨w₀, xs, hbegins, hcomes.other hfire fun h => hne (Option.some.inj h)⟩
  | @adopting w₁ w₂ h g target es hgets hrun hown hg hslot =>
      obtain ⟨g', hg', hchanges⟩ := changes_of_run (run_fire hfire) hg
      exact .adopting hgets (run_trans hrun (run_fire hfire)) hown hg' (hchanges.slot? hslot)
  | ended o => exact .ended o

/-- A step of the stage takes its body on. -/
theorem Composing.step {m : Move} (h : Composing c flow n id body w s.phase)
    (hfire : w.fire c (.task (.stage flow n)) = some w') (hsteps : Steps c flow n w g s m w') :
    Composing c flow n id body w' (g.landing c n m) := by
  have hs : w.stage? flow n = some s := (stage?_of_graph hsteps.graph).trans hsteps.stage
  generalize hphase : s.phase = p at h
  cases h with
  | ended o => exact absurd (hphase ▸ .nothing o) hsteps.not_waits
  | adopting _ _ _ _ _ =>
      obtain ⟨o, -, rfl⟩ := hsteps.of_adopting hphase
      exact .ended o
  | @running t hunder =>
      -- The end of the body, whichever it is.
      have concluded {ended : Except Panic (Except Report Handle)}
          (hresume : w.resume? (t.map (FlowProgram.recording (Catalog.named id))) =
            some (.done (Catalog.named id ended)))
          (hended : ∀ h, ended = .ok (.ok h) → w.resume? t = some (.done (.ok h))) :
          Composing c flow n id body w' (g.landing c n m) := by
        rw [hsteps.of_done hphase hresume]
        rcases Graph.conclude_cases g s none (Catalog.named id ended) with ⟨o, ho⟩ | ⟨target, htarget⟩
        · rw [ho]
          exact .ended o
        · obtain ⟨stage, hnamed, hslot⟩ := Graph.conclude_eq_adopting htarget
          obtain ⟨h, rfl, hown, rfl⟩ := Catalog.named_eq_stageRef hnamed
          obtain ⟨g', hg', hchanges⟩ := changes_of_run (run_fire hfire) hsteps.graph
          rw [htarget]
          exact .adopting ⟨t, hunder, hended h rfl, hfire⟩ (show w'.run c [] = some w' from rfl)
            hown hg' (hchanges.slot? hslot)
      cases hresume : w.resume? t with
      | none =>
          have hnone : w.resume? (t.map (FlowProgram.recording (Catalog.named id))) = none := by
            rw [resume?_map, hresume]; rfl
          exact absurd (hphase ▸ .body none hnone) hsteps.not_waits
      | some p =>
          have hsome : w.resume? (t.map (FlowProgram.recording (Catalog.named id))) =
              some (FlowProgram.recording (Catalog.named id) p) := by
            rw [resume?_map, hresume]; rfl
          cases p with
          | done ended =>
              refine concluded hsome ?_
              rintro h ⟨⟩
              exact hresume
          | panic m => exact concluded hsome fun h hended => by cases hended
          | ask q next =>
              obtain ⟨w₀, xs, hbegins, hcomes⟩ := hunder
              rw [hsteps.of_ask hphase hsome]
              have hasks : w.Asks c q (.stage flow n) w' := .stage hs hphase hsome hfire
              show Composing c flow n id body w' (.running
                ((w.pose c q).2.map fun x => FlowProgram.recording (Catalog.named id) (next x)) none)
              rw [← Thread.map_map (FlowProgram.recording (Catalog.named id)) next]
              exact .running ⟨w₀, _, hbegins, hcomes.asks hresume hasks⟩

/-- From the step in which the body is run to any later state. -/
theorem composing_of_run {w₀ : World} {es : List Event} (hbegins : Begins c flow n id body w₀)
    (hrun : w₀.run c es = some w) :
    ∃ s, w.stage? flow n = some s ∧ Composing c flow n id body w s.phase := by
  have hunder : Under c flow n id body w₀ (.going (FlowProgram.scope id body.run)) :=
    ⟨w₀, [], hbegins, .start⟩
  obtain ⟨s₀, hs₀, hphase₀⟩ := hunder.phase
  refine run_stage_own (P := fun w s => Composing c flow n id body w s.phase) ?_ ?_ hrun hs₀
    (hphase₀ ▸ .running hunder)
  · intro w e w' s h hfire hne
    exact h.kept hfire hne
  · intro w g s m w' h hfire hsteps
    exact h.step hfire hsteps

/-- A stage that adopts another one has run a body that has returned a handle of its flow, and
adopts what the handle stands for. -/
theorem adopting_of_reachable {target : Nat} {closure : Closure} {b : TypedBody}
    (hreach : w.Reachable c) (hg : w.graph? flow = some g) (hs : g.stages[n]? = some s)
    (hphase : s.phase = .adopting target) (hclosure : s.closure = some closure)
    (hentry : c.catalog.find? closure.entry = some b.continuation) :
    ∃ body h w₁ w₂ es, Gets c flow n g.id body h w₁ w₂ ∧ w₂.run c es = some w ∧
      h.flow = g.id ∧ g.slot? h.stage = .ok target := by
  obtain ⟨es, hrun⟩ := hreach
  cases (traced_of_reachable ⟨es, hrun⟩ hg).stands hs hphase with
  | @adopting inputs args o stage _ hown hready hresolve hadopts hgives hcompose _ =>
      -- The body that may name a stage on these arguments does it by a handle.
      obtain ⟨closure', hclosure', hgives⟩ := hgives
      obtain rfl := Option.some.inj (hclosure.symm.trans hclosure')
      obtain rfl : o = .success (.stageRef stage) := by
        cases o with
        | failure d => cases hcompose
        | success d => cases d <;> cases hcompose; rfl
      obtain ⟨body, hbody⟩ :=
        Catalog.composes_of_canGive (r := g.invocation n closure args) hentry hgives
      -- And it was run on these arguments.
      have hs' : w.stage? flow n = some s := (stage?_of_graph hg).trans hs
      obtain ⟨inputs', hresolved⟩ := resolved_of_left hrun hs' hown (by rw [hphase]; rfl)
      have hall := (Operation.of_allInputs (Operation.of_adopts hadopts)).2
      obtain rfl := hready.unique hall (hresolved.ready hrun hg hs).2
      obtain ⟨w₁, g₁, s₁, w₂, hstep⟩ := hresolved.step hrun hg hs
      have hlaunch : s.resolve inputs = .launch closure args none := by
        have hresolve : s.operation.resolve inputs = .ok (.invoke args) := hresolve
        simp [Stage.resolve, hresolve, Stage.launch, hclosure]
      rw [hlaunch] at hstep
      have hid := (hstep.keeps hrun hg hs).1.id
      obtain ⟨hreach₁, rest, hrest, -⟩ := hstep.run hrun
      obtain ⟨-, -, -, -, hfire, hsteps⟩ := hstep
      rw [Graph.invocation_eq hid] at hbody
      obtain ⟨s', hs'', hcomposing⟩ := composing_of_run (.intro hreach₁ hfire hsteps rfl hbody) hrest
      obtain rfl := Option.some.inj (hs'.symm.trans hs'')
      rw [hphase] at hcomposing
      cases hcomposing with
      | @adopting w₃ w₄ h g' _ es' hgets hrun' hown' hg' hslot =>
          obtain rfl := Option.some.inj (hg.symm.trans hg')
          exact ⟨body, h, w₃, w₄, es', hid ▸ hgets, hrun', hown'.trans hid.symm, hslot⟩

/-- A stage that was built from handles has as inputs what the handles stand for, in every later
state. -/
theorem inputs_of_builder {α : Type} {who : Conductor} {op : Operation} {body : Option Closure}
    {hs : List Handle} {p : FlowM bodySignature α} {f : FlowId} {r : StageRequest}
    {next : Except FlowError StageId → FlowProgram bodySignature (Except FlowError α)}
    {stage : StageId} {w'' : World} {es : List Event} (hp : Builder id op body hs p)
    (hask : p.run = .ask (.call (.addStage f r)) next)
    (hasks : w.Asks c (.call (.addStage f r)) who w') (hok : (w.addStage f r).2 = .ok stage)
    (hrun : w'.run c es = some w'') :
    ∃ flow g k s, w''.graph? flow = some g ∧ g.id = id ∧ g.stages[k]? = some s ∧
      stage = Graph.stageName k ∧ s.operation = op ∧
      List.Forall₂ (fun h d => h.flow = g.id ∧ g.slot? h.stage = .ok d) hs s.deps := by
  obtain ⟨rfl, rfl, hown⟩ := hp.first hask
  obtain ⟨flow, g, deps, hfind, -, hdeps, hname, hadds⟩ := hasks.adds hok
  obtain ⟨hg, rfl, -⟩ := graph?_of_find hfind
  obtain ⟨es', hfirst⟩ := hasks.run
  obtain ⟨g', hg', hs'⟩ := stage?_eq_some.mp hadds.stage
  obtain ⟨g'', hg'', hchanges⟩ := changes_of_run hrun hg'
  obtain ⟨s, hs, hrecipe⟩ := hchanges.recipe hs'
  obtain ⟨g₂, hg₂, hgrown⟩ := changes_of_run (run_trans hfirst hrun) hg
  obtain rfl := Option.some.inj (hg''.symm.trans hg₂)
  have hid : g''.id = g.id := hgrown.grows.id
  refine ⟨flow, g'', g.stages.length, s, hg'', hid, hs, hname, congrArg Recipe.operation hrecipe, ?_⟩
  rw [show s.deps = deps from congrArg Recipe.deps hrecipe, hid]
  refine (List.forall₂_and_left _ _).mpr ⟨hown, ?_⟩
  exact (List.forall₂_map_left_iff.mp hdeps).imp fun h d hslot => hgrown.slot? hslot

/-- A body that can go on goes on in the next step of its stage. -/
theorem Under.fire {t : Thread (FlowProgram bodySignature (Except Report Handle))}
    {p : FlowProgram bodySignature (Except Report Handle)} (h : Under c flow n id body w t)
    (hresume : w.resume? t = some p) : ∃ w', w.fire c (.task (.stage flow n)) = some w' := by
  obtain ⟨s, hs, hphase⟩ := h.phase
  obtain ⟨g, hg, hs⟩ := stage?_eq_some.mp hs
  have hsome : w.resume? (t.map (FlowProgram.recording (Catalog.named id))) =
      some (FlowProgram.recording (Catalog.named id) p) := by rw [resume?_map, hresume]; rfl
  refine Option.ne_none_iff_exists'.mp fun hnone => ?_
  have hwaits := move?_eq_none_iff.mp ((step_stage_eq_none_iff hg hs).mp hnone)
  rw [hphase] at hwaits
  cases hwaits with
  | body _ hresting =>
      rw [hsome] at hresting
      cases hresting

/-- No stage waits for a stage of another flow, or adopts one, though their names are the same.
* Of a valid number of handles the first one of another flow is refused, by every program that
  builds a stage from several handles, and before anything is asked.
* Whoever answers the questions of a body: where it returns a handle of another flow, the result
  is a failure of the user; what scopes the body has gone through makes no difference.
* In a completer, the stage ends with this failure in the very step in which the body returns the
  handle, and has this result in every later state.
* A stage that adopts another one has run a body that has returned a handle of its own flow, and
  adopts what the handle stands for.
* A stage that was built from handles has as inputs what the handles stand for, all in its own
  flow, and has them in every later state. -/
theorem flows_stay_apart (c : Completer) :
    (∀ (E : Signature) (α : Type) (id : FlowId) (op : Operation) (closure : Option Closure)
      (before after : List Handle) (h : Handle) (p : FlowM E α),
      Builder id op closure (before ++ h :: after) p →
      op.Takes (before ++ h :: after).length → (∀ b ∈ before, b.flow = id) → h.flow ≠ id →
      p = FlowM.ofExcept (.error (.invalidArgument (.foreignStage h.stage h.flow id)))) ∧
    (∀ (k : Catalog) (r : Invocation) (body : Body Handle) (σ : Type)
      (answer : (q : Question bodySignature) → σ → q.Answer × σ) (s : σ) (h : Handle),
      k.Composes r body →
      ((FlowProgram.scope r.flow body.run).runIn answer s).1 = .ok (.ok h) → h.flow ≠ r.flow →
      ((k.invoke r).runIn answer s).1 = .ok (h.foreignFailure r.flow)) ∧
    (∀ (flow n : Nat) (id : FlowId) (body : Body Handle) (h : Handle) (w : World)
      (t : Thread (FlowProgram bodySignature (Except Report Handle))),
      Under c flow n id body w t → w.resume? t = some (.done (.ok h)) → h.flow ≠ id →
      ∃ w', w.fire c (.task (.stage flow n)) = some w' ∧
        ∀ es w'', w'.run c es = some w'' →
          w''.outcome? flow n = some (h.foreignFailure id)) ∧
    (∀ (w : World) (flow n target : Nat) (g : Graph) (s : Stage) (closure : Closure)
      (b : TypedBody), w.Reachable c → w.graph? flow = some g → g.stages[n]? = some s →
      s.phase = .adopting target → s.closure = some closure →
      c.catalog.find? closure.entry = some b.continuation →
      ∃ body h w₁ w₂ es, Gets c flow n g.id body h w₁ w₂ ∧ w₂.run c es = some w ∧
        h.flow = g.id ∧ g.slot? h.stage = .ok target) ∧
    ∀ (α : Type) (who : Conductor) (id f : FlowId) (op : Operation) (closure : Option Closure)
      (hs : List Handle) (p : FlowM bodySignature α) (r : StageRequest)
      (next : Except FlowError StageId → FlowProgram bodySignature (Except FlowError α))
      (stage : StageId) (w w' w'' : World) (es : List Event), Builder id op closure hs p →
      p.run = .ask (.call (.addStage f r)) next → w.Asks c (.call (.addStage f r)) who w' →
      (w.addStage f r).2 = .ok stage → w'.run c es = some w'' →
      ∃ flow g k s, w''.graph? flow = some g ∧ g.id = id ∧ g.stages[k]? = some s ∧
        stage = Graph.stageName k ∧ s.operation = op ∧
        List.Forall₂ (fun h d => h.flow = g.id ∧ g.slot? h.stage = .ok d) hs s.deps := by
  refine ⟨?_, ?_, ?_, ?_, ?_⟩
  · intro E α id op closure before after h p hp htakes hown hforeign
    exact hp.foreign htakes hown hforeign
  · intro k r body σ answer s h hbody hreturns hforeign
    exact hbody.runIn hreturns hforeign
  · intro flow n id body h w t hunder hresume hforeign
    obtain ⟨w', hfire⟩ := hunder.fire hresume
    refine ⟨w', hfire, ?_⟩
    intro es w'' hrun
    have hgets : Gets c flow n id body h w w' := ⟨t, hunder, hresume, hfire⟩
    exact outcome?_of_run hrun (hgets.foreign hforeign)
  · intro w flow n target g s closure b hreach hg hs hphase hclosure hentry
    exact adopting_of_reachable hreach hg hs hphase hclosure hentry
  · intro α who id f op closure hs p r next stage w w' w'' es hp hask hasks hok hrun
    exact inputs_of_builder hp hask hasks hok hrun

end World

/-- A body that returns the first stage of another flow. -/
def Continuation.strayBody (_ _ : Json.Value) : Body Handle := pure ⟨⟨"1"⟩, ⟨"0"⟩⟩

/-- A completer with this body. -/
def Completer.stray : Completer :=
  { plain with catalog := ⟨[("stray", .composer Continuation.strayBody)]⟩ }

namespace World

/-- Two flows with a stage of the same name, and a stage that is to adopt the wrong one. -/
def strayRun : List Event :=
  [.call (.createFlow "f"), .call (.createFlow "g"), .call (.addCompleted ⟨"0"⟩ .empty),
    .call (.addCompleted ⟨"1"⟩ (.success (.state .killed))),
    .call (.addStage ⟨"0"⟩ ⟨.thenCompose, some (.bare "stray"), [⟨"0"⟩]⟩), .task (.stage 0 1),
    .task (.stage 0 1)]

/-- The state after the first events of `strayRun`. -/
def strayState (count : Nat) : World :=
  (World.empty.run .stray (strayRun.take count)).getD .empty

theorem flows_stay_apart_stray :
    (FlowId.allOf ⟨"0"⟩ [⟨⟨"0"⟩, ⟨"0"⟩⟩, ⟨⟨"1"⟩, ⟨"0"⟩⟩] : FlowM bodySignature Handle) =
        FlowM.ofExcept (.error (.invalidArgument (.foreignStage ⟨"0"⟩ ⟨"1"⟩ ⟨"0"⟩))) ∧
      ∃ w, (strayState 7).fire .stray (.task (.stage 0 1)) = some w ∧
        w.outcome? 0 1 = some (Handle.foreignFailure ⟨⟨"1"⟩, ⟨"0"⟩⟩ ⟨"0"⟩) := by
  obtain ⟨hjoins, -, hstage, -, -⟩ := flows_stay_apart .stray
  refine ⟨?_, ?_⟩
  · exact hjoins bodySignature Handle ⟨"0"⟩ .allOf none [⟨⟨"0"⟩, ⟨"0"⟩⟩] [] ⟨⟨"1"⟩, ⟨"0"⟩⟩ _
      (.allOf _ _) (Nat.le_add_left 1 1) (by simp) (by decide)
  · have hbegins : Begins .stray 0 1 ⟨"0"⟩ (Continuation.strayBody .null .null)
        (strayState 7) := by
      have hsteps : Steps .stray 0 1 (strayState 6) (((strayState 6).graph? 0).getD (.new ⟨"0"⟩))
          ⟨.thenCompose, some (.bare "stray"), [0], .gathering [.empty] []⟩
          (.launch (.bare "stray") [.empty] none) (strayState 7) :=
        ⟨rfl, rfl, ⟨_, rfl⟩, rfl⟩
      have hbody : Completer.stray.catalog.Composes
          ⟨⟨"0"⟩, Graph.stageName 1, .bare "stray", [.empty]⟩ (Continuation.strayBody .null .null) :=
        .composer rfl rfl rfl rfl
      exact .intro ⟨strayRun.take 6, rfl⟩ rfl hsteps rfl hbody
    obtain ⟨w, hfire, hended⟩ := hstage 0 1 ⟨"0"⟩ _ ⟨⟨"1"⟩, ⟨"0"⟩⟩ (strayState 7) _
      ⟨_, _, hbegins, .start⟩ rfl (by decide)
    exact ⟨w, hfire, hended [] w rfl⟩

end World

end StageGraph
