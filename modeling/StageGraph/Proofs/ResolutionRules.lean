/-
# `StageGraph.Proofs.ResolutionRules` — the rules by which stages are resolved

What follows from the results that a stage has waited for is computed by
`Operation.resolve`.  `Operation.Rule` says the same rule by rule, with the conditions under
which each rule applies, and the two agree (`Operation.resolve_eq_ok_iff`).  So whatever is true
of all resolutions is shown by cases on the rule that was applied.

A rule applies exactly if the number of results is one that the operation is resolved from
(`Operation.exists_rule_iff`).
-/
import StageGraph.Resolution

namespace StageGraph

variable {op : Operation} {inputs args : List Outcome} {o p : Outcome} {res : Resolution}

theorem Outcome.exists_of_isSuccess (h : o.isSuccess = true) : ∃ d, o = .success d := by
  cases o with
  | success d => exact ⟨d, rfl⟩
  | failure d => cases h

theorem Outcome.exists_of_isFailure (h : o.isFailure = true) : ∃ d, o = .failure d := by
  cases o with
  | success d => cases h
  | failure d => exact ⟨d, rfl⟩

namespace Operation

/-! ## Numbers of inputs -/

/-- How many inputs stages of an operation have. -/
def Takes : Operation → Nat → Prop
  | supply, n | delay, n | completedValue, n | terminationHook, n => n = 0
  | thenApply, n | thenCompose, n | exceptionally, n | exceptionallyCompose, n | handle, n
  | whenComplete, n => n = 1
  | thenCombine, n | applyToEither, n => n = 2
  | allOf, n | anyOf, n => 1 ≤ n

theorem checkInputs_ok_iff (op : Operation) (n : Nat) : op.checkInputs n = .ok () ↔ op.Takes n := by
  cases op <;> simp [checkInputs, kind, Takes, Nat.one_le_iff_ne_zero]

/-! ## Rules -/

/-- How a stage is resolved from results. -/
inductive Rule : Operation → List Outcome → Resolution → Prop
  | supply (inputs : List Outcome) : Rule .supply inputs (.invoke [])
  | apply {op : Operation} {p : Outcome} : op ∈ [.thenApply, .thenCompose] →
      p.isSuccess = true → Rule op [p] (.invoke [p])
  | notApply {op : Operation} {p : Outcome} : op ∈ [.thenApply, .thenCompose] →
      p.isFailure = true → Rule op [p] (.complete p)
  | recover {op : Operation} {p : Outcome} : op ∈ [.exceptionally, .exceptionallyCompose] →
      p.isFailure = true → Rule op [p] (.invoke [p])
  | notRecover {op : Operation} {p : Outcome} : op ∈ [.exceptionally, .exceptionallyCompose] →
      p.isSuccess = true → Rule op [p] (.complete p)
  | handle (p : Outcome) : Rule .handle [p] (.invoke (outcomeArgs p))
  | whenComplete (p : Outcome) : Rule .whenComplete [p] (.observe (outcomeArgs p) p)
  | combine {inputs : List Outcome} : inputs.length = 2 → (∀ o ∈ inputs, o.isSuccess = true) →
      Rule .thenCombine inputs (.invoke inputs)
  | notCombine {before after : List Outcome} {o : Outcome} :
      (before ++ o :: after).length = 2 → (∀ p ∈ before, p.isSuccess = true) →
      o.isFailure = true → Rule .thenCombine (before ++ o :: after) (.complete o)
  | either {p : Outcome} (rest : List Outcome) : p.isSuccess = true →
      Rule .applyToEither (p :: rest) (.invoke [p])
  | notEither {p : Outcome} (rest : List Outcome) : p.isFailure = true →
      Rule .applyToEither (p :: rest) (.complete p)
  | allOf (inputs : List Outcome) : Rule .allOf inputs (.complete .empty)
  | anyOf (p : Outcome) (rest : List Outcome) : Rule .anyOf (p :: rest) (.complete p)

theorem parent_bind_eq_ok_iff {f : Outcome → Except FlowError Resolution} :
    (op.parent inputs >>= f) = .ok res ↔ ∃ p, inputs = [p] ∧ f p = .ok res := by
  rcases inputs with _ | ⟨p, _ | ⟨q, rest⟩⟩ <;> simp [parent, bind, Except.bind]

/-- Two results are combined unless a failure is found among them. -/
theorem resolve_combine (hlen : inputs.length = 2) : thenCombine.resolve inputs =
    .ok ((inputs.find? Outcome.isFailure).elim (.invoke inputs) .complete) := by
  have hchecked := (checkInputs_ok_iff .thenCombine inputs.length).mpr hlen
  simp only [resolve, hchecked, bind, Except.bind]
  cases inputs.find? Outcome.isFailure <;> rfl

theorem length_of_combine (h : thenCombine.resolve inputs = .ok res) : inputs.length = 2 := by
  cases hchecked : thenCombine.checkInputs inputs.length with
  | error e =>
      rw [resolve, hchecked] at h
      cases h
  | ok => exact (checkInputs_ok_iff _ _).mp hchecked

theorem isSuccess_iff : o.isSuccess = true ↔ ¬o.isFailure = true := by simp [Outcome.isFailure]

theorem isFailure_iff : o.isFailure = true ↔ ¬o.isSuccess = true := by simp [Outcome.isFailure]

theorem no_failure_iff :
    inputs.find? Outcome.isFailure = none ↔ ∀ o ∈ inputs, o.isSuccess = true := by
  simp [List.find?_eq_none, Outcome.isFailure]

theorem first_failure_iff : inputs.find? Outcome.isFailure = some o ↔
    o.isFailure = true ∧ ∃ before after, inputs = before ++ o :: after ∧
      ∀ p ∈ before, p.isSuccess = true := by
  simp [List.find?_eq_some_iff_append, Outcome.isFailure]

theorem resolve_apply (hop : op ∈ [.thenApply, .thenCompose]) (p : Outcome) :
    op.resolve [p] = .ok (if p.isFailure then .complete p else .invoke [p]) := by
  simp only [List.mem_cons, List.not_mem_nil, or_false] at hop
  rcases hop with rfl | rfl <;> rfl

theorem resolve_recover (hop : op ∈ [.exceptionally, .exceptionallyCompose]) (p : Outcome) :
    op.resolve [p] = .ok (if p.isSuccess then .complete p else .invoke [p]) := by
  simp only [List.mem_cons, List.not_mem_nil, or_false] at hop
  rcases hop with rfl | rfl <;> rfl

theorem Rule.resolve_eq (h : Rule op inputs res) : op.resolve inputs = .ok res := by
  cases h with
  | supply | handle | whenComplete | allOf | anyOf => rfl
  | apply hop hp => rw [resolve_apply hop, if_neg (isSuccess_iff.mp hp)]
  | notApply hop hp => rw [resolve_apply hop, if_pos hp]
  | recover hop hp => rw [resolve_recover hop, if_neg (isFailure_iff.mp hp)]
  | notRecover hop hp => rw [resolve_recover hop, if_pos hp]
  | combine hlen hall =>
      rw [resolve_combine hlen, no_failure_iff.mpr hall]
      rfl
  | notCombine hlen hbefore ho =>
      rw [resolve_combine hlen, first_failure_iff.mpr ⟨ho, _, _, rfl, hbefore⟩]
      rfl
  | either rest hp => rw [resolve, if_neg (isSuccess_iff.mp hp)]
  | notEither rest hp => rw [resolve, if_pos hp]

/-- A result is passed on or handed to the body, by whether it has a property. -/
theorem rule_of_split {b : Bool} {r r' : Resolution} (hres : Except.ok (if b then r else r') =
    (.ok res : Except FlowError Resolution)) (h : b = true → Rule op inputs r)
    (h' : ¬b = true → Rule op inputs r') : Rule op inputs res := by
  obtain rfl := Except.ok.inj hres
  split
  · exact h ‹_›
  · exact h' ‹_›

theorem rule_of_resolve (h : op.resolve inputs = .ok res) : Rule op inputs res := by
  cases op with
  | supply =>
      obtain rfl := Except.ok.inj h
      exact .supply inputs
  | thenApply | thenCompose =>
      obtain ⟨p, rfl, hres⟩ := parent_bind_eq_ok_iff.mp h
      exact rule_of_split hres (.notApply (by decide))
        fun hp => .apply (by decide) (isSuccess_iff.mpr hp)
  | exceptionally | exceptionallyCompose =>
      obtain ⟨p, rfl, hres⟩ := parent_bind_eq_ok_iff.mp h
      exact rule_of_split hres (.notRecover (by decide))
        fun hp => .recover (by decide) (isFailure_iff.mpr hp)
  | handle | whenComplete =>
      obtain ⟨p, rfl, hres⟩ := parent_bind_eq_ok_iff.mp h
      obtain rfl := Except.ok.inj hres
      constructor
  | thenCombine =>
      have hlen := length_of_combine h
      rw [resolve_combine hlen] at h
      obtain rfl := Except.ok.inj h
      cases hfind : inputs.find? Outcome.isFailure with
      | none => exact .combine hlen (no_failure_iff.mp hfind)
      | some o =>
          obtain ⟨ho, before, after, rfl, hbefore⟩ := first_failure_iff.mp hfind
          exact .notCombine hlen hbefore ho
  | applyToEither =>
      cases inputs with
      | nil => cases h
      | cons p rest =>
          exact rule_of_split h (.notEither rest)
            fun hp => .either rest (isSuccess_iff.mpr hp)
  | allOf =>
      obtain rfl := Except.ok.inj h
      exact .allOf inputs
  | anyOf =>
      cases inputs with
      | nil => cases h
      | cons p rest =>
          obtain rfl := Except.ok.inj h
          exact .anyOf p rest
  | delay | completedValue | terminationHook => cases h

/-- These are the rules. -/
theorem resolve_eq_ok_iff : op.resolve inputs = .ok res ↔ Rule op inputs res :=
  ⟨rule_of_resolve, Rule.resolve_eq⟩

/-- Either a rule applies to the results, or they are refused. -/
theorem resolve_eq_error_iff :
    (∃ e, op.resolve inputs = .error e) ↔ ¬∃ res, Rule op inputs res := by
  simp only [← resolve_eq_ok_iff]
  cases op.resolve inputs <;> simp

/-- A rule ends the stage, unless there are bodies for it to run. -/
theorem Rule.ends_or_hasBody (h : Rule op inputs res) :
    (∃ o, res = .complete o) ∨ op.hasBody = true := by
  cases h with
  | notApply | notRecover | notCombine | notEither | allOf | anyOf => exact .inl ⟨_, rfl⟩
  | supply | handle | whenComplete | combine | either => exact .inr rfl
  | apply hop | recover hop =>
      simp only [List.mem_cons, List.not_mem_nil, or_false] at hop
      rcases hop with rfl | rfl <;> exact .inr rfl

/-! ## Numbers of results -/

/-- The numbers of results from which stages of an operation are resolved. -/
def ResolvesFrom : Operation → Nat → Prop
  | supply, _ | allOf, _ => True
  | thenApply, n | thenCompose, n | exceptionally, n | exceptionallyCompose, n | handle, n
  | whenComplete, n => n = 1
  | thenCombine, n => n = 2
  | applyToEither, n | anyOf, n => n ≠ 0
  | delay, _ | completedValue, _ | terminationHook, _ => False

theorem Rule.resolvesFrom (h : Rule op inputs res) : op.ResolvesFrom inputs.length := by
  cases h with
  | supply | allOf => trivial
  | handle | whenComplete => rfl
  | either | notEither | anyOf => exact Nat.succ_ne_zero _
  | combine hlen | notCombine hlen => exact hlen
  | apply hop | notApply hop | recover hop | notRecover hop =>
      simp only [List.mem_cons, List.not_mem_nil, or_false] at hop
      rcases hop with rfl | rfl <;> rfl

theorem exists_rule_iff : (∃ res, Rule op inputs res) ↔ op.ResolvesFrom inputs.length := by
  constructor
  · rintro ⟨res, h⟩
    exact h.resolvesFrom
  · intro h
    have one (hlen : inputs.length = 1) : ∃ p, inputs = [p] := List.length_eq_one_iff.mp hlen
    cases op with
    | supply => exact ⟨_, .supply inputs⟩
    | allOf => exact ⟨_, .allOf inputs⟩
    | thenCombine => exact ⟨_, rule_of_resolve (resolve_combine h)⟩
    | thenApply | thenCompose | exceptionally | exceptionallyCompose | handle | whenComplete =>
        obtain ⟨p, rfl⟩ := one h
        exact ⟨_, rule_of_resolve rfl⟩
    | applyToEither | anyOf =>
        cases inputs with
        | nil => exact absurd rfl h
        | cons p rest => exact ⟨_, rule_of_resolve rfl⟩
    | delay | completedValue | terminationHook => cases h

end Operation

end StageGraph
