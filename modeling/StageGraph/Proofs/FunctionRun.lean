/-
# `StageGraph.Proofs.FunctionRun` — a flow is committed once, at the end of its function

A run of a function is a conversation of three parts: the flow is created, the body talks
to whomever it wants to, and the flow is committed.  The claim is that nothing else is
possible, whatever the answers are: no creation means no body and no commit, and however
the body ends, there is exactly one commit after it.  `FunctionRun.Stands` lists the points
that a run may have reached, with what has been said so far.

What the run makes of the end of its body and of the answer to the commit is
`FunctionRun.Concludes`: an error of the body outweighs one of the commit.

Over an in-process completer the answer to the commit is known as well.  It depends on one
thing: whether somebody has committed the flow already, which may have been the body, or
anybody else that knows the name of the flow.
-/
import StageGraph.Flow.FunctionRun
import StageGraph.Proofs.Conversation
import StageGraph.Proofs.DocumentInvocation
import StageGraph.Proofs.Collection

namespace StageGraph

/-! ## Surroundings of a scope -/

namespace Program

variable {S : Signature} {α β σ : Type} {answer : (q : S.Question) → σ → S.Answer q × σ}

/-- Surroundings in which some of the questions are answered on the spot. -/
def knowing (known : (q : S.Question) → Option (S.Answer q))
    (answer : (q : S.Question) → σ → S.Answer q × σ) (q : S.Question) (s : σ) : S.Answer q × σ :=
  match known q with
  | some x => (x, s)
  | none => answer q s

variable {known : (q : S.Question) → Option (S.Answer q)}

theorem runIn_answering (p : Program S α) (s : σ) :
    (p.answering known).runIn answer s = p.runIn (knowing known answer) s := by
  induction p generalizing s with
  | done a => rfl
  | panic m => rfl
  | ask q next ih =>
      cases hknown : known q with
      | some x => simp only [answering, runIn, knowing, hknown, ih]
      | none => simp only [answering, runIn, knowing, hknown, ih]

/-- What is answered on the spot is not asked. -/
theorem asked_answering (p : Program S α) (s : σ) :
    (p.answering known).asked answer s =
      (p.asked (knowing known answer) s).filter fun q => (known q).isNone := by
  induction p generalizing s with
  | done a => rfl
  | panic m => rfl
  | ask q next ih =>
      cases hknown : known q with
      | some x => simp [answering, asked, knowing, hknown, ih]
      | none => simp [answering, asked, knowing, hknown, ih]

theorem asked_attempt (p : Program S α) (s : σ) :
    p.attempt.asked answer s = p.asked answer s := by
  induction p generalizing s with
  | done a => rfl
  | panic m => rfl
  | ask q next ih => exact congrArg (q :: ·) (ih (answer q s).1 (answer q s).2)

/-- A second program asks after the first one has ended. -/
theorem asked_bind {f : α → Program S β} {a : α} {s s' : σ} (p : Program S α)
    (h : p.runIn answer s = (.ok a, s')) :
    (p.bind f).asked answer s = p.asked answer s ++ (f a).asked answer s' := by
  induction p generalizing s with
  | done b =>
      cases h
      rfl
  | panic m => cases h
  | ask q next ih => exact congrArg (q :: ·) (ih (answer q s).1 h)

end Program

namespace FunctionRun

open StageGraph.FlowProgram (currentIs)
open StageGraph.Program (Informed unanswered ending knowing)

variable {E : Signature} {α σ : Type} {function : String} {body : BodyM E α} {flow : FlowId}
  {answer : (q : Question E) → σ → q.Answer × σ} {s : σ}

/-! ## The three parts of a run -/

/-- The commit of a body that has ended, and the result. -/
def closing (flow : FlowId) (ended : Except Panic (Except Report α)) :
    FlowProgram E (Except FlowError (FunctionRun α)) :=
  .ask (.call (.commit flow (finalState (ofBody ended)))) fun committed =>
    .done (.ok ⟨flow, afterCommit (ofBody ended) committed⟩)

/-- A body in the scope of its flow, and the commit. -/
def working (flow : FlowId) (p : FlowProgram E (Except Report α)) :
    FlowProgram E (Except FlowError (FunctionRun α)) :=
  (FlowProgram.scope flow p).attempt.bind (closing flow)

/-- A run asks for a flow, and has its body work in it. -/
theorem run_start (function : String) (body : BodyM E α) :
    (start function body).run =
      .ask (.call (.createFlow function)) fun
        | .ok flow => working flow body.run
        | .error e => .done (.error e) := by
  show Program.ask _ _ = _
  congr 1
  funext created
  cases created with
  | error e => rfl
  | ok flow =>
      show ((FlowProgram.scope flow body.run).attempt.bind fun ended =>
        Program.done (Except.ok ended)).bind _ = _
      rw [Program.bind_assoc]
      rfl

/-- What a run makes of the end of its body, and of the answer to its commit. -/
structure Concludes (ended : Except Panic (Except Report α)) (state : FlowState)
    (committed : Except FlowError Unit) (result : Except Report α) : Prop where
  succeeded : (∃ a, ended = .ok (.ok a)) → state = .succeeded
  failed : (¬∃ a, ended = .ok (.ok a)) → state = .failed
  /-- There is a value exactly if the body gave it and the commit succeeded. -/
  value : ∀ a, result = .ok a ↔ ended = .ok (.ok a) ∧ committed = .ok ()
  refused : ∀ a e, ended = .ok (.ok a) → committed = .error e → result = .error (.ofFlow e)
  /-- The error of the body is kept as it is, whatever becomes of the commit. -/
  error : ∀ r, ended = .ok (.error r) → result = .error r
  panic : ∀ p : Panic, ended = .error p →
    result = .error (.ofText s!"invocation body panicked: {p.message}")

theorem concludes (ended : Except Panic (Except Report α)) (committed : Except FlowError Unit) :
    Concludes ended (finalState (ofBody ended)) committed
      (afterCommit (ofBody ended) committed) := by
  rcases ended with p | r | a <;> rcases committed with e | ⟨⟩ <;>
    exact ⟨by simp [ofBody, finalState], by simp [ofBody, finalState],
      by simp [ofBody, afterCommit], by simp [ofBody, afterCommit], by simp [ofBody, afterCommit],
      by simp [ofBody, afterCommit]⟩

/-! ## Any surroundings -/

/-- The surroundings of a body whose flow is the current one. -/
abbrev within (flow : FlowId) (answer : (q : Question E) → σ → q.Answer × σ) :
    (q : Question E) → σ → q.Answer × σ :=
  knowing (S := flowSignature E) (currentIs (some flow)) answer

theorem runIn_working {p : FlowProgram E (Except Report α)}
    {ended : Except Panic (Except Report α)} {s₁ : σ}
    (h : p.runIn (within flow answer) s = (ended, s₁)) :
    (working flow p).runIn answer s = (closing flow ended).runIn answer s₁ := by
  unfold working FlowProgram.scope
  rw [Program.runIn_bind, Program.runIn_attempt, Program.runIn_answering, h]

theorem asked_working {p : FlowProgram E (Except Report α)}
    {ended : Except Panic (Except Report α)} {s₁ : σ}
    (h : p.runIn (within flow answer) s = (ended, s₁)) :
    (working flow p).asked answer s =
      ((p.asked (within flow answer) s).filter fun q => (currentIs (some flow) q).isNone) ++
        [.call (.commit flow (finalState (ofBody ended)))] := by
  have hscope : (FlowProgram.scope flow p).attempt.runIn answer s = (.ok ended, s₁) := by
    unfold FlowProgram.scope
    rw [Program.runIn_attempt, Program.runIn_answering, h]
  unfold working
  rw [Program.asked_bind _ hscope, Program.asked_attempt, FlowProgram.scope,
    Program.asked_answering]
  rfl

/-! ## Any conversation -/

/-- The points that a run of a function may have reached, with what has been said until then. -/
inductive Stands (function : String) (body : BodyM E α) :
    List (Reply (flowSignature E)) → FlowProgram E (Except FlowError (FunctionRun α)) → Prop
  | begun : Stands function body [] (start function body).run
  /-- There is no flow. -/
  | refused (e : FlowError) :
      Stands function body [⟨.call (.createFlow function), .error e⟩] (.done (.error e))
  /-- There is a flow, and a conversation has led the body to `p`: whenever it asked which flow is
  the current one, it was told this one. -/
  | working {rs : List (Reply (flowSignature E))} {p : FlowProgram E (Except Report α)}
      (flow : FlowId) : body.run.Leads rs p → Informed (currentIs (some flow)) rs →
      Stands function body
        (⟨.call (.createFlow function), .ok flow⟩ :: unanswered (currentIs (some flow)) rs)
        (working flow p)
  /-- The body has ended, the flow is committed, and the run has ended. -/
  | committed {rs : List (Reply (flowSignature E))} {ended : Except Panic (Except Report α)}
      {state : FlowState} {committed : Except FlowError Unit} {result : Except Report α}
      (flow : FlowId) : body.run.Leads rs (ending ended) → Informed (currentIs (some flow)) rs →
      Concludes ended state committed result →
      Stands function body
        (⟨.call (.createFlow function), .ok flow⟩ ::
          (unanswered (currentIs (some flow)) rs ++ [⟨.call (.commit flow state), committed⟩]))
        (.done (.ok ⟨flow, result⟩))

/-- Once there is a flow, the body is under way, or it has ended and the flow is committed. -/
theorem leads_working {p₀ : FlowProgram E (Except Report α)}
    {t : FlowProgram E (Except FlowError (FunctionRun α))} {rs : List (Reply (flowSignature E))}
    (h : (working flow p₀).Leads rs t) :
    (∃ ys p, p₀.Leads ys p ∧ Informed (currentIs (some flow)) ys ∧
      rs = unanswered (currentIs (some flow)) ys ∧ t = working flow p) ∨
    ∃ ys ended committed, p₀.Leads ys (ending ended) ∧ Informed (currentIs (some flow)) ys ∧
      rs = unanswered (currentIs (some flow)) ys ++
        [⟨.call (.commit flow (finalState (ofBody ended))), committed⟩] ∧
      t = .done (.ok ⟨flow, afterCommit (ofBody ended) committed⟩) := by
  rcases h.of_bind with ⟨p', hp', -, rfl⟩ | ⟨ended, first, rest, rfl, hp, hclosing⟩
  · obtain ⟨q, hq, rfl⟩ := hp'.of_attempt
    obtain ⟨ys, p, hp, rfl, rfl, hinformed, -⟩ := hq.of_answering
    exact .inl ⟨ys, p, hp, hinformed, rfl, rfl⟩
  · obtain ⟨q, hq, hended⟩ := hp.of_attempt
    obtain rfl := Program.eq_ending_of_attempt hended.symm
    obtain ⟨ys, p, hp, -, rfl, hinformed, hend⟩ := hq.of_answering
    obtain rfl := hend ended rfl
    rcases hclosing.of_ask with ⟨rfl, rfl⟩ | ⟨committed, rest', rfl, hdone⟩
    · refine .inl ⟨ys, ending ended, hp, hinformed, List.append_nil _, ?_⟩
      cases ended <;> rfl
    · obtain ⟨rfl, rfl⟩ := hdone.of_done
      exact .inr ⟨ys, ended, committed, hp, hinformed, rfl, rfl⟩

theorem stands_of_leads {t : FlowProgram E (Except FlowError (FunctionRun α))}
    {rs : List (Reply (flowSignature E))} (h : (start function body).run.Leads rs t) :
    Stands function body rs t := by
  rw [run_start] at h
  rcases h.of_ask with ⟨rfl, rfl⟩ | ⟨created, rest, rfl, hrest⟩
  · rw [← run_start]
    exact .begun
  · cases created with
    | error e =>
        obtain ⟨rfl, rfl⟩ := hrest.of_done
        exact .refused e
    | ok flow =>
        rcases leads_working hrest with
          ⟨ys, p, hp, hinformed, rfl, rfl⟩ | ⟨ys, ended, committed, hp, hinformed, rfl, rfl⟩
        · exact .working flow hp hinformed
        · exact .committed flow hp hinformed (concludes ended committed)

end FunctionRun

/-! ## In a run of a completer -/

namespace Graph

variable {c : Completer} {g g' : Graph} {s : FlowState}

/-- The state of a commit stays, and it is the one in which the flow ends. -/
theorem Changes.committed {ds : List Deed} {a : Hooks.Activity} (h : Changes c g ds g')
    (horderly : g.Orderly a) (hs : g.committed = some s) :
    g'.committed = some s ∧ ∀ s', g'.terminated = some s' → s' = s := by
  obtain ⟨⟨a', horderly'⟩, hs'⟩ := h.preserves
    (P := fun g => (∃ a, g.Orderly a) ∧ g.committed = some s)
    (fun {g d g'} ⟨⟨a, horderly⟩, hs⟩ hchange => by
      refine ⟨horderly.change hchange, ?_⟩
      rcases horderly.record_cases hchange with
        hsame | ⟨s', -, hnone, -⟩ | ⟨s', -, -, -, hsame, -⟩
      · exact hsame.committed.trans hs
      · rw [hs] at hnone
        cases hnone
      · exact hsame.trans hs) ⟨⟨a, horderly⟩, hs⟩
  refine ⟨hs', ?_⟩
  intro s' hended
  exact Option.some.inj ((horderly'.terminated hended).1.symm.trans hs')

end Graph

namespace World

open StageGraph.Graph (Changes)

variable {c : Completer} {w w' w₀ : World} {who : Conductor} {α : Type}
  {q : Question bodySignature} {n : Nat}

/-- The last question of a program, between what was there before and after it. -/
theorem Comes.last {t₀ t : Thread (FlowProgram bodySignature α)} {xs ys : List Exchange}
    {x : Exchange} (h : Comes c who w₀ t₀ xs w t) (hxs : xs = ys ++ [x]) :
    (∃ es, w₀.run c es = some x.before) ∧ x.before.Asks c x.question who x.after ∧
      ∃ es, x.after.run c es = some w := by
  induction h with
  | start => simp at hxs
  | other _ hfire _ ih =>
      obtain ⟨hbefore, hasks, es, hafter⟩ := ih hxs
      exact ⟨hbefore, hasks, _, run_trans hafter (run_fire hfire)⟩
  | asks hcomes _ hasks _ =>
      obtain ⟨-, rfl⟩ := List.append_inj' hxs rfl |>.imp_right List.singleton_inj.mp
      exact ⟨hcomes.run, hasks, [], rfl⟩

/-! ### The answer to a commit -/

variable {g : Graph}

/-- A flow that has not been committed can be. -/
theorem commit_of_open (hinj : Function.Injective c.flowName) (hreach : w.Reachable c)
    (hg : w.graph? n = some g) (hopen : g.committed = none) (s : FlowState) :
    (w.commit (c.flowName n) s).2 = .ok () ∧
      ∃ g', (w.commit (c.flowName n) s).1.graph? n = some g' ∧ g'.committed = some s := by
  obtain ⟨ds, hchanges⟩ := changes_of_reachable hreach hg
  obtain ⟨a, horderly⟩ := (Graph.orderly_new _).changes hchanges
  -- A flow that has been forgotten has come to its end, and so it has been committed.
  have hknown : g.removed = false := by
    cases hremoved : g.removed with
    | false => rfl
    | true =>
        obtain ⟨s', hs'⟩ := terminated_of_removed hreach hg hremoved
        have hcommitted := (horderly.terminated hs').1
        rw [hopen] at hcommitted
        cases hcommitted
  have hfind := find_of_known hinj hreach hg hknown
  rw [id_of_reachable hreach hg] at hfind
  have hcommit : g.commit s = .ok { g with committed := some s }.endIfDue := by
    simp [Graph.commit, hopen]
  have hw : w.commit (c.flowName n) s =
      (w.setGraph n { g with committed := some s }.endIfDue, .ok ()) := by
    simp [commit, change, hfind, hcommit, Except.map]
  rw [hw]
  exact ⟨rfl, _, graph?_setGraph_self hg _, by simp⟩

/-- A flow that has been committed cannot be committed again. -/
theorem commit_of_committed (hinj : Function.Injective c.flowName) (hreach : w.Reachable c)
    (hg : w.graph? n = some g) {s' : FlowState} (hs' : g.committed = some s') (s : FlowState) :
    (w.commit (c.flowName n) s).1 = w ∧ ∃ e, (w.commit (c.flowName n) s).2 = .error e ∧
      (e = .invalidArgument (.alreadyCommitted (c.flowName n)) ∨
        e = .unknownFlow (c.flowName n)) := by
  rcases w.change_cases (c.flowName n) fun g => (g.commit s).map fun g' => (g', ()) with
    ⟨hw, e, he⟩ | ⟨m, g₁, g', u, hfind, hcommit, -⟩
  · refine ⟨hw, e, he, ?_⟩
    cases (perform_eq_error (k := .commit s)).mp he with
    | unknownFlow _ _ => exact .inr rfl
    | ending _ hmakes _ _ _ => cases hmakes
    | committed _ _ => exact .inl rfl
  · obtain ⟨hg₁, hid, -⟩ := graph?_of_find hfind
    obtain rfl : m = n := hinj ((id_of_reachable hreach hg₁).symm.trans hid)
    obtain rfl : g₁ = g := Option.some.inj (hg₁.symm.trans hg)
    simp [Graph.commit, hs', Except.map] at hcommit

/-- The flow at a position has been committed in a state, and stays so; if it ends, it ends in this
state. -/
def CommittedAs (c : Completer) (w : World) (n : Nat) (s : FlowState) : Prop :=
  ∀ es w', w.run c es = some w' → ∃ g, w'.graph? n = some g ∧ g.committed = some s ∧
    ∀ s', g.terminated = some s' → s' = s

theorem committedAs (hreach : w.Reachable c) (hg : w.graph? n = some g) {s : FlowState}
    (hs : g.committed = some s) : w.CommittedAs c n s := by
  intro es w' hrun
  obtain ⟨ds, hchanges⟩ := changes_of_reachable hreach hg
  obtain ⟨a, horderly⟩ := (Graph.orderly_new _).changes hchanges
  obtain ⟨g', hg', hlater⟩ := changes_of_run hrun hg
  exact ⟨g', hg', hlater.committed horderly hs⟩

end World

theorem Completer.plain_flowName_injective : Function.Injective Completer.plain.flowName := by
  intro a b h
  exact Graph.stageName_injective (congrArg (fun id : FlowId => (⟨id.text⟩ : StageId)) h)

namespace FunctionRun

open StageGraph.World (Gave Returns Comes CommittedAs)
open StageGraph.FlowProgram (currentIs)
open StageGraph.Program (Informed unanswered ending)

variable {c : Completer} {who : Conductor} {w₀ w : World} {α : Type} {function : String}
  {body : BodyM bodySignature α} {xs : List World.Exchange} {r : Except FlowError (FunctionRun α)}

/-! ### The whole run -/

/-- A run of a function in a completer has asked for a flow, then its body has asked, and then it has
committed the flow; anything may have happened in between. -/
structure Went (c : Completer) (who : Conductor) (function : String)
    (body : BodyM bodySignature α) (created : World.Exchange) (between : List World.Exchange)
    (closed : World.Exchange) (ended : Except Panic (Except Report α)) (state : FlowState)
    (committed : Except FlowError Unit) (out : FunctionRun α) : Prop where
  creates : created.question = .call (.createFlow function) ∧
    created.before.Asks c created.question who created.after
  /-- The flow is a new one. -/
  fresh : created.before.graph? created.before.graphs.length = none ∧
    out.flow = c.flowName created.before.graphs.length ∧
    created.after.graph? created.before.graphs.length = some (.new out.flow)
  /-- Whenever the body has asked which flow is the current one, it was told this one. -/
  asks : ∃ rs, body.run.Leads rs (ending ended) ∧ Informed (currentIs (some out.flow)) rs ∧
    List.Forall₂ (Gave c) between (unanswered (currentIs (some out.flow)) rs)
  meanwhile : ∃ es, created.after.run c es = some closed.before
  closes : closed.question = .call (.commit out.flow state) ∧
    closed.before.Asks c closed.question who closed.after
  answered : (closed.before.commit out.flow state).2 = committed
  concludes : Concludes ended state committed out.result

theorem working_ne_done {E : Signature} (flow : FlowId) (p : FlowProgram E (Except Report α))
    (r : Except FlowError (FunctionRun α)) : working flow p ≠ .done r := by
  unfold working
  cases (FlowProgram.scope flow p) <;> nofun

theorem went_of_returns (h : Returns c who w₀ (.going (start function body).run) xs w r) :
    ∃ created between closed ended state committed out,
      r = .ok out ∧ xs = created :: (between ++ [closed]) ∧
      (∃ es, w₀.run c es = some created.before) ∧ (∃ es, closed.after.run c es = some w) ∧
      Went c who function body created between closed ended state committed out := by
  rw [run_start] at h
  obtain ⟨w₁, w₂, xs', hbefore, hasks, rfl, hrest⟩ := h.of_ask
  have hworking : Returns c who w₂
      (.going (working (c.flowName w₁.graphs.length) body.run)) xs' w r := hrest
  obtain ⟨rs, hrs, hleads⟩ := hworking.leads
  rcases leads_working hleads with
    ⟨-, p, -, -, -, hdone⟩ | ⟨ys, ended, committed, hbody, hinformed, rfl, hdone⟩
  · exact absurd hdone.symm (working_ne_done _ _ _)
  · -- The last question is the commit.
    obtain ⟨between, ⟨w₃, q₃, w₄⟩, rfl, hbetween, a, hreply, hoffers⟩ := forall₂_concat hrs
    cases hreply
    obtain ⟨_, _, hanswer⟩ := hoffers
    obtain ⟨t, hcomes, -⟩ := hworking
    obtain ⟨hmeanwhile, hcloses, hafter⟩ := hcomes.last rfl
    have hnone : w₁.graph? w₁.graphs.length = none := List.getElem?_eq_none (Nat.le_refl _)
    have hnew : w₂.graph? w₁.graphs.length = some (.new (c.flowName w₁.graphs.length)) := by
      rw [hasks.graph? (hasks.caller hnone)]
      exact List.getElem?_concat_length
    cases hdone
    exact ⟨⟨w₁, _, w₂⟩, between, ⟨w₃, _, w₄⟩, ended, _, committed, _, rfl, rfl, hbefore, hafter,
      ⟨rfl, hasks⟩, ⟨hnone, rfl, hnew⟩, ⟨ys, hbody, hinformed, hbetween⟩, hmeanwhile,
      ⟨rfl, hcloses⟩, Option.some.inj hanswer, concludes ended committed⟩

/-- What becomes of the flow of a run.  If nobody has committed it before the run does, the commit
succeeds, and the flow stays committed in that state; otherwise the commit fails, and the flow stays
committed in the state in which it was. -/
theorem Went.record {created closed : World.Exchange} {between : List World.Exchange}
    {ended : Except Panic (Except Report α)} {state : FlowState} {committed : Except FlowError Unit}
    {out : FunctionRun α} {es : List Event}
    (h : Went c who function body created between closed ended state committed out)
    (hinj : Function.Injective c.flowName) (hreach : created.before.Reachable c)
    (hes : created.after.run c es = some closed.before) :
    ((∀ s, (created.before.graphs.length, .committed s) ∉ created.after.history c es) →
      committed = .ok () ∧ CommittedAs c closed.after created.before.graphs.length state) ∧
    ∀ s, (created.before.graphs.length, .committed s) ∈ created.after.history c es →
      (∃ e, committed = .error e ∧
        (e = .invalidArgument (.alreadyCommitted out.flow) ∨ e = .unknownFlow out.flow)) ∧
      CommittedAs c closed.after created.before.graphs.length s := by
  obtain ⟨hnone, hname, hnew⟩ := h.fresh
  generalize created.before.graphs.length = n at hnone hname hnew ⊢
  obtain ⟨-, hcloses⟩ := h.closes
  have hanswered := h.answered
  have hother : who.flow? ≠ some n := h.creates.2.caller hnone
  obtain ⟨es₁, hcreated⟩ := h.creates.2.run
  obtain ⟨es₂, hclosed⟩ := hcloses.run
  have hreach₃ : closed.before.Reachable c := (hreach.run hcreated).run hes
  have hreach₄ : closed.after.Reachable c := hreach₃.run hclosed
  obtain ⟨g, hg, hchanges⟩ := World.changes_of_run hes hnew
  have honce : _ = g.committed.toList := (Graph.once_of_changes hchanges).1
  have hafter : closed.after.graph? n = (closed.before.commit out.flow state).1.graph? n := by
    rw [hcloses.graph? hother, h.closes.1]
    rfl
  rw [hname] at hanswered hafter ⊢
  refine ⟨?_, ?_⟩
  · intro hnobody
    have hopen : g.committed = none := by
      rw [← Option.toList_eq_nil_iff, ← honce, List.filterMap_eq_nil_iff]
      intro d hd
      cases d with
      | committed s => exact absurd (mem_deedsAt.mp hd) (hnobody s)
      | _ => rfl
    obtain ⟨hok, g', hg', hs⟩ := World.commit_of_open hinj hreach₃ hg hopen state
    exact ⟨hanswered.symm.trans hok, World.committedAs hreach₄ (hafter.trans hg') hs⟩
  · intro s hmem
    have hs : g.committed = some s := by
      rw [← Option.mem_toList, ← honce]
      exact List.mem_filterMap.mpr ⟨_, mem_deedsAt.mpr hmem, rfl⟩
    obtain ⟨hw, e, he, hcause⟩ := World.commit_of_committed hinj hreach₃ hg hs state
    rw [hw] at hafter
    exact ⟨⟨e, hanswered.symm.trans he, hcause⟩,
      World.committedAs hreach₄ (hafter.trans hg) hs⟩

/-- A run of a function commits its flow exactly once, at the end, and in the right state.
* In any surroundings, that may answer what they want: if there is no flow, the run fails with the
  error, and nothing else is asked.  If there is one, the body runs with it as the current flow;
  what is asked is the creation, then what the body asks, then one commit of this flow; and the run
  gives the flow, with the result that `Concludes` describes.
* At any point of any conversation, also of one that breaks off, the run stands at one of the points
  that `Stands` lists.
* In a completer, whoever conducts the run and whatever else goes on, it goes as `Went` describes,
  and it does not fail.  If nobody has committed the flow before, the commit succeeds, and the flow
  stays committed in this state for ever; otherwise the commit fails and changes nothing. -/
theorem run_commits_once :
    (∀ (E : Signature) (α σ : Type) (function : String) (body : BodyM E α)
      (answer : (q : Question E) → σ → q.Answer × σ) (s s₁ : σ),
      (∀ e, answer (.call (.createFlow function)) s = (.error e, s₁) →
        (start function body).run.runIn answer s = (.ok (.error e), s₁) ∧
        (start function body).run.asked answer s = [.call (.createFlow function)]) ∧
      ∀ flow, answer (.call (.createFlow function)) s = (.ok flow, s₁) →
        ∃ ended s₂ state committed s₃ result,
          body.run.runIn (within flow answer) s₁ = (ended, s₂) ∧
          answer (.call (.commit flow state)) s₂ = (committed, s₃) ∧
          (start function body).run.runIn answer s = (.ok (.ok ⟨flow, result⟩), s₃) ∧
          (start function body).run.asked answer s =
            .call (.createFlow function) ::
              ((body.run.asked (within flow answer) s₁).filter
                (fun q => (currentIs (some flow) q).isNone) ++ [.call (.commit flow state)]) ∧
          Concludes ended state committed result) ∧
    (∀ (E : Signature) (α : Type) (function : String) (body : BodyM E α) rs t,
      (start function body).run.Leads rs t → Stands function body rs t) ∧
    ∀ (c : Completer) (who : Conductor) (w₀ w : World) (α : Type) (function : String)
      (body : BodyM bodySignature α) xs r, Function.Injective c.flowName → w₀.Reachable c →
      Returns c who w₀ (.going (start function body).run) xs w r →
      ∃ created between closed ended state committed out,
        r = .ok out ∧ xs = created :: (between ++ [closed]) ∧
        (∃ es, w₀.run c es = some created.before) ∧ (∃ es, closed.after.run c es = some w) ∧
        Went c who function body created between closed ended state committed out ∧
        ∀ es, created.after.run c es = some closed.before →
          ((∀ s, (created.before.graphs.length, .committed s) ∉ created.after.history c es) →
            committed = .ok () ∧ CommittedAs c closed.after created.before.graphs.length state) ∧
          ∀ s, (created.before.graphs.length, .committed s) ∈ created.after.history c es →
            (∃ e, committed = .error e ∧
              (e = .invalidArgument (.alreadyCommitted out.flow) ∨ e = .unknownFlow out.flow)) ∧
            CommittedAs c closed.after created.before.graphs.length s := by
  refine ⟨?_, fun E α function body rs t h => stands_of_leads h, ?_⟩
  · intro E α σ function body answer s s₁
    refine ⟨?_, ?_⟩
    · intro e hcreate
      rw [run_start]
      simp only [Program.runIn, Program.asked, hcreate, and_self]
    · intro flow hcreate
      refine ⟨(body.run.runIn (within flow answer) s₁).1, _, _, _, _, _, rfl, rfl, ?_, ?_,
        concludes _ _⟩
      · rw [run_start]
        simp only [Program.runIn, hcreate]
        exact runIn_working rfl
      · rw [run_start]
        simp only [Program.asked, hcreate]
        exact congrArg _ (asked_working rfl)
  · intro c who w₀ w α function body xs r hinj hreach hreturns
    obtain ⟨created, between, closed, ended, state, committed, out, hr, hxs, ⟨es₀, hbefore⟩, hafter,
      hwent⟩ := went_of_returns hreturns
    exact ⟨created, between, closed, ended, state, committed, out, hr, hxs, ⟨es₀, hbefore⟩, hafter,
      hwent, fun es hes => hwent.record hinj (hreach.run hbefore) hes⟩

/-- A body that panics. -/
def breaking : BodyM bodySignature Unit := BodyM.panic (.text "late")

theorem run_commits_once_breaking :
    Function.Injective Completer.plain.flowName ∧ World.empty.Reachable .plain ∧
      ∃ xs w, Returns .plain .outside .empty (.going (start "f" breaking).run) xs w
          (.ok ⟨⟨"0"⟩, .error (.ofText "invocation body panicked: late")⟩) ∧
        xs.map World.Exchange.question =
          [.call (.createFlow "f"), .call (.commit ⟨"0"⟩ .failed)] ∧
        CommittedAs .plain w 0 .failed := by
  have hinj := Completer.plain_flowName_injective
  have hreach : World.empty.Reachable .plain := ⟨[], rfl⟩
  have hreturns : Returns .plain .outside .empty (.going (start "f" breaking).run) _ _
      (.ok ⟨⟨"0"⟩, .error (.ofText "invocation body panicked: late")⟩) :=
    ⟨_, (Comes.start.asks rfl .outside).asks rfl .outside, rfl⟩
  refine ⟨hinj, hreach, _, _, hreturns, rfl, ?_⟩
  obtain ⟨created, between, closed, ended, state, committed, out, -, hxs, -, -, hwent, hrecord⟩ :=
    run_commits_once.2.2 _ _ _ _ _ _ _ _ _ hinj hreach hreturns
  obtain ⟨rfl, hrest⟩ := List.cons.inj hxs
  obtain ⟨rfl, hlast⟩ := List.append_inj' (show [] ++ [_] = between ++ [closed] from hrest) rfl
  obtain rfl := List.singleton_inj.mp hlast
  obtain rfl : FlowState.failed = state :=
    (Request.commit.inj (Question.call.inj hwent.closes.1)).2
  exact ((hrecord [] rfl).1 nofun).2

end FunctionRun

end StageGraph
