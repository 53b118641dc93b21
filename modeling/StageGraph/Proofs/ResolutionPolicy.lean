/-
# `StageGraph.Proofs.ResolutionPolicy` — results are neither invented nor lost

A stage is resolved from the results of its inputs.  It ends with one of them, or hands all of them
to its body (`Operation.Conserves`); a result of its own has only the barrier that is there to be
waited for.  This holds for every stage that is let in, on whatever it may get.

Which results a body gets depends on how they are: some bodies run on successes, others on
failures.  Where a body runs on either, it is told which slot is filled, from which the result can
be had back (`Outcome.ofSlots`).

All of this is read off the rules (`Operation.Rule`), one by one.  No rule applies to a number of
results that is not what a stage waits for, unless the operation does not look at its results, or
at the first one only (`Operation.ResolvesFrom`); and then the stage is refused.
-/
import StageGraph.Proofs.Invocation

namespace StageGraph

variable {op : Operation} {inputs args : List Outcome} {o p : Outcome} {res : Resolution}

/-! ## Arguments -/

/-- The arguments are all of the results, in their order, with any number of empty slots between
them. -/
inductive Slotted : List Outcome → List Outcome → Prop
  | nil : Slotted [] []
  | result (o : Outcome) {results args : List Outcome} : Slotted results args →
      Slotted (o :: results) (o :: args)
  | slot {results args : List Outcome} : Slotted results args → Slotted results (.empty :: args)

theorem slotted_self (results : List Outcome) : Slotted results results := by
  induction results with
  | nil => exact .nil
  | cons o results ih => exact .result o ih

theorem slotted_outcomeArgs (o : Outcome) : Slotted [o] (Operation.outcomeArgs o) := by
  unfold Operation.outcomeArgs
  split
  · exact .result o (.slot .nil)
  · exact .slot (.result o .nil)

/-- The result that stands in one of two slots. -/
def Outcome.ofSlots : List Outcome → Outcome
  | [value, error] => if error.isFailure then error else value
  | _ => .empty

theorem ofSlots_outcomeArgs (o : Outcome) : Outcome.ofSlots (Operation.outcomeArgs o) = o := by
  cases o <;> rfl

namespace Operation

/-! ## Refusals -/

theorem checkInputs_of_parent {e : FlowError} (hkind : op.kind = .transform)
    (h : op.parent inputs = .error e) : op.checkInputs inputs.length = .error e := by
  have hrefused : inputs.length ≠ 1 ∧ .invalidArgument (.needsOneInput op inputs.length) = e := by
    rcases inputs with _ | ⟨p, _ | ⟨q, rest⟩⟩
    · exact ⟨nofun, Except.error.inj h⟩
    · cases h
    · exact ⟨nofun, Except.error.inj h⟩
  obtain ⟨hlen, rfl⟩ := hrefused
  cases op <;> cases hkind <;> exact if_neg hlen

/-- Where all inputs are waited for, a wrong number of results is refused with the words with which
a request with so many inputs is. -/
theorem checkInputs_of_error {e : FlowError} (hall : op.readiness = .allInputs)
    (h : op.resolve inputs = .error e) : op.checkInputs inputs.length = .error e := by
  cases op with
  | allOf => cases h
  | thenCombine =>
      cases hchecked : thenCombine.checkInputs inputs.length with
      | error e' =>
          rw [resolve, hchecked] at h
          exact congrArg Except.error (Except.error.inj h)
      | ok =>
          rw [resolve_combine ((checkInputs_ok_iff _ _).mp hchecked)] at h
          cases h
  | thenApply | thenCompose | exceptionally | exceptionallyCompose | handle | whenComplete =>
      refine checkInputs_of_parent rfl ?_
      unfold resolve at h
      cases hp : parent _ inputs with
      | error e' =>
          rw [hp] at h
          exact congrArg Except.error (Except.error.inj h)
      | ok p =>
          rw [hp] at h
          cases h
  | _ => cases hall

/-! ## What becomes of the results -/

/-- What becomes of the results from which a stage is resolved. -/
inductive Conserves (op : Operation) (inputs : List Outcome) : Resolution → Prop
  | complete {o : Outcome} : op ≠ .allOf → o ∈ inputs → Conserves op inputs (.complete o)
  | barrier : op = .allOf → Conserves op inputs (.complete .empty)
  | invoke {args : List Outcome} : op.hasBody = true → Slotted inputs args →
      Conserves op inputs (.invoke args)
  | observe {args : List Outcome} {o : Outcome} : op.hasBody = true → Slotted inputs args →
      o ∈ inputs → Conserves op inputs (.observe args o)

theorem ne_allOf_of_hasBody (h : op.hasBody = true) : op ≠ .allOf := by
  rintro rfl
  cases h

theorem Rule.conserves {count : Nat} (h : Rule op inputs res)
    (hsupplies : op.Supplies count inputs) : op.Conserves inputs res := by
  have body {ops : List Operation} (hop : op ∈ ops) (hbodies : ∀ op ∈ ops, op.hasBody = true) :
      op.hasBody = true := hbodies op hop
  cases h with
  | supply =>
      obtain rfl : inputs = [] := hsupplies
      exact .invoke rfl .nil
  | apply hop | recover hop => exact .invoke (body hop (by decide)) (slotted_self _)
  | notApply hop | notRecover hop =>
      exact .complete (ne_allOf_of_hasBody (body hop (by decide))) List.mem_cons_self
  | handle p => exact .invoke rfl (slotted_outcomeArgs p)
  | whenComplete p => exact .observe rfl (slotted_outcomeArgs p) List.mem_cons_self
  | combine => exact .invoke rfl (slotted_self _)
  | notCombine => exact .complete nofun List.mem_append_cons_self
  | either rest =>
      -- The rule drops later results, but only the first one is ever waited for.
      obtain rfl : rest = [] := List.length_eq_zero_iff.mp (Nat.succ.inj hsupplies)
      exact .invoke rfl (slotted_self _)
  | notEither | anyOf => exact .complete nofun List.mem_cons_self
  | allOf => exact .barrier rfl

/-- A body that runs on successes gets nothing else. -/
theorem Asks.successes (h : op.Asks inputs args)
    (hop : op ∈ [.thenApply, .thenCompose, .applyToEither, .thenCombine]) :
    ∀ o ∈ args, o.isSuccess = true := by
  cases h with
  | invoke h =>
      cases rule_of_resolve h with
      | apply _ hp | either _ hp => exact List.forall_mem_singleton.mpr hp
      | combine _ hall => exact hall
      | recover hop' =>
          have hdisjoint : ∀ op ∈ [exceptionally, exceptionallyCompose],
              op ∉ [thenApply, thenCompose, applyToEither, thenCombine] := by decide
          exact absurd hop (hdisjoint op hop')
      | supply | handle => exact absurd hop (by decide)
  | observe o h =>
      obtain ⟨rfl, -, -⟩ := of_observe h
      exact absurd hop (by decide)

/-- A body that runs on failures gets nothing else. -/
theorem Asks.failures (h : op.Asks inputs args)
    (hop : op ∈ [.exceptionally, .exceptionallyCompose]) : ∀ o ∈ args, o.isFailure = true := by
  cases h with
  | invoke h =>
      cases rule_of_resolve h with
      | recover _ hp => exact List.forall_mem_singleton.mpr hp
      | apply hop' =>
          have hdisjoint : ∀ op ∈ [thenApply, thenCompose],
              op ∉ [exceptionally, exceptionallyCompose] := by decide
          exact absurd hop (hdisjoint op hop')
      | either | combine | supply | handle => exact absurd hop (by decide)
  | observe o h =>
      obtain ⟨rfl, -, -⟩ := of_observe h
      exact absurd hop (by decide)

/-- From the arguments of a body that runs on either, the result can be had back. -/
theorem Asks.ofSlots (h : op.Asks inputs args) (hop : op ∈ [.handle, .whenComplete]) :
    inputs = [Outcome.ofSlots args] := by
  cases h with
  | invoke h =>
      cases rule_of_resolve h with
      | handle p => rw [ofSlots_outcomeArgs]
      | apply hop' | recover hop' =>
          simp only [List.mem_cons, List.not_mem_nil, or_false] at hop'
          rcases hop' with rfl | rfl <;> exact absurd hop (by decide)
      | either | combine | supply => exact absurd hop (by decide)
  | observe o h =>
      obtain ⟨rfl, rfl, rfl⟩ := of_observe h
      rw [ofSlots_outcomeArgs]

/-- Of the two operations, one runs its body on the result of the parent, and the other one ends
with it. -/
def Alternate (op op' : Operation) (p : Outcome) : Prop :=
  op.resolve [p] = .ok (.invoke [p]) ∧ op'.resolve [p] = .ok (.complete p) ∨
    op.resolve [p] = .ok (.complete p) ∧ op'.resolve [p] = .ok (.invoke [p])

theorem alternate {op' : Operation} (hop : op ∈ [.thenApply, .thenCompose])
    (hop' : op' ∈ [.exceptionally, .exceptionallyCompose]) (p : Outcome) : Alternate op op' p := by
  by_cases hp : p.isSuccess = true
  · exact .inl ⟨(Rule.apply hop hp).resolve_eq, (Rule.notRecover hop' hp).resolve_eq⟩
  · have hp := isFailure_iff.mpr hp
    exact .inr ⟨(Rule.notApply hop hp).resolve_eq, (Rule.recover hop' hp).resolve_eq⟩

theorem combine_complete_iff : thenCombine.resolve inputs = .ok (.complete o) ↔
    inputs.length = 2 ∧ ∃ before after, inputs = before ++ o :: after ∧
      (∀ p ∈ before, p.isSuccess = true) ∧ o.isFailure = true := by
  constructor
  · intro h
    cases rule_of_resolve h with
    | notCombine hlen hbefore ho => exact ⟨hlen, _, _, rfl, hbefore, ho⟩
    | notApply hop | notRecover hop => exact absurd hop (by decide)
  · rintro ⟨hlen, before, after, rfl, hbefore, ho⟩
    exact (Rule.notCombine hlen hbefore ho).resolve_eq

end Operation

open Operation (Alternate)

/-- The rules by which stages are resolved neither invent nor lose a result. -/
structure Conservative : Prop where
  /-- A stage that is let in is resolved from what it waits for, whatever that is: it ends with one
  of the results, or all of them go to its body. -/
  resolved : ∀ {r : StageRequest} {inputs : List Outcome}, World.checkRequest r = .ok () →
    r.operation.Supplies r.deps.length inputs →
    ∃ res, r.operation.resolve inputs = .ok res ∧ r.operation.Conserves inputs res
  /-- It is not resolved from another number of results, -/
  refused : ∀ {op : Operation} {inputs : List Outcome},
    (∃ e, op.resolve inputs = .error e) ↔ ¬op.ResolvesFrom inputs.length
  /-- which is refused with the words with which a request with so many inputs is. -/
  complaint : ∀ {op : Operation} {inputs : List Outcome} {e : FlowError},
    op.readiness = .allInputs → op.resolve inputs = .error e →
    op.checkInputs inputs.length = .error e
  /-- Some bodies get only successes, -/
  successes : ∀ {op : Operation} {inputs args : List Outcome}, op.Asks inputs args →
    op ∈ [.thenApply, .thenCompose, .applyToEither, .thenCombine] →
    ∀ o ∈ args, o.isSuccess = true
  /-- others only failures. -/
  failures : ∀ {op : Operation} {inputs args : List Outcome}, op.Asks inputs args →
    op ∈ [.exceptionally, .exceptionallyCompose] → ∀ o ∈ args, o.isFailure = true
  /-- One of the former and one of the latter complement one another. -/
  alternate : ∀ {op op' : Operation}, op ∈ [.thenApply, .thenCompose] →
    op' ∈ [.exceptionally, .exceptionallyCompose] → ∀ p, Alternate op op' p
  /-- Of two results that cannot be combined the first failure stands for both. -/
  combined : ∀ {inputs : List Outcome} {o : Outcome},
    Operation.thenCombine.resolve inputs = .ok (.complete o) ↔
      inputs.length = 2 ∧ ∃ before after, inputs = before ++ o :: after ∧
        (∀ p ∈ before, p.isSuccess = true) ∧ o.isFailure = true
  /-- Other bodies get any result, -/
  asked : ∀ {op : Operation}, op ∈ [.handle, .whenComplete] → ∀ p, ∃ args, op.Asks [p] args
  /-- which they can tell from their arguments. -/
  recovered : ∀ {op : Operation} {inputs args : List Outcome}, op.Asks inputs args →
    op ∈ [.handle, .whenComplete] → inputs = [Outcome.ofSlots args]

/-- Whatever a stage is resolved from is neither lost nor mixed with anything else. -/
theorem resolution_conservative : Conservative where
  resolved := by
    intro r inputs hchecked hsupplies
    have hr := (World.checkRequest_ok_iff r).mp hchecked
    have hown : r.operation.hasOwnCall = false := by
      rw [← Bool.not_eq_true, Operation.hasOwnCall_iff]
      exact hr.operation
    obtain ⟨res, hres, -⟩ := Operation.resolve_ok hown hr.inputs hsupplies
    exact ⟨res, hres, (Operation.rule_of_resolve hres).conserves hsupplies⟩
  refused := by
    intro op inputs
    rw [Operation.resolve_eq_error_iff, Operation.exists_rule_iff]
  complaint := Operation.checkInputs_of_error
  successes := Operation.Asks.successes
  failures := Operation.Asks.failures
  alternate := Operation.alternate
  combined := Operation.combine_complete_iff
  asked := by
    intro op hop p
    simp only [List.mem_cons, List.not_mem_nil, or_false] at hop
    rcases hop with rfl | rfl
    · exact ⟨_, .invoke (Operation.Rule.handle p).resolve_eq⟩
    · exact ⟨_, .observe p (Operation.Rule.whenComplete p).resolve_eq⟩
  recovered := Operation.Asks.ofSlots

/-- A success and a failure are not combined.  The failure is what there is to end with. -/
theorem resolution_conservative_combine :
    let r : StageRequest := ⟨.thenCombine, some (.bare "sum"), [⟨"0"⟩, ⟨"1"⟩]⟩
    let inputs : List Outcome := [.empty, .failure .empty]
    World.checkRequest r = .ok () ∧ r.operation.Supplies r.deps.length inputs ∧
      (∃ res, r.operation.resolve inputs = .ok res ∧ r.operation.Conserves inputs res) ∧
      r.operation.resolve inputs = .ok (.complete (.failure .empty)) := by
  intro r inputs
  have hchecked : World.checkRequest r = .ok () := rfl
  have hsupplies : r.operation.Supplies r.deps.length inputs := rfl
  refine ⟨hchecked, hsupplies, resolution_conservative.resolved hchecked hsupplies, ?_⟩
  exact resolution_conservative.combined.mpr
    ⟨rfl, [.empty], [], rfl, List.forall_mem_singleton.mpr rfl, rfl⟩

end StageGraph
