/-
# `StageGraph.Proofs.Expectation` — what it means that an expectation is met

`Assertion.Holds` says for each expectation what is expected, by the form of the outcome or error
that is there.  A check passes exactly when this is the case (`Assertion.check_eq_ok_iff`), with one
exception.  A failure without an error record, and an error that is no failure of a stage, are taken
for failures with an empty message.  A message that is to contain nothing in particular is then
found where there is none.
-/
import StageGraph.Assertion
import Mathlib.Data.List.Infix

namespace StageGraph

namespace Assertion

/-- What is expected is there. -/
inductive Holds : Assertion → Prop where
  | success (d : Datum) : Holds (.success (.success d))
  | failure (d : Datum) : Holds (.failure (.failure d))
  | failureType (r : ErrorRecord) : Holds (.failureType (.failure (.error r)) r.type)
  | stageFailure (d : Datum) : Holds (.stageFailure (.stageFailure d) d)
  | failureMessage (r : ErrorRecord) (before needle after : String)
      (message : r.message = before ++ needle ++ after) :
      Holds (.failureMessage (.stageFailure (.error r)) needle)

/-- No text in particular is expected in a message, and there is no message. -/
inductive Vacuous : Assertion → Prop where
  | noMessage (e : FlowError) (noRecord : ∀ r, e ≠ .stageFailure (.error r)) :
      Vacuous (.failureMessage e "")

/-! ## Messages -/

theorem occursIn_iff (needle text : List Char) :
    occursIn needle text = true ↔ needle <:+: text := by
  induction text with
  | nil => rw [occursIn, List.isEmpty_iff, List.infix_nil]
  | cons c rest ih =>
      rw [occursIn, Bool.or_eq_true, ih, List.isPrefixOf_iff_prefix, List.infix_cons_iff]

/-- A text occurs in another one if this consists of it, what is before it and what is after it. -/
theorem occursIn_toList_iff (needle text : String) :
    occursIn needle.toList text.toList = true ↔
      ∃ before after, text = before ++ needle ++ after := by
  rw [occursIn_iff]
  constructor
  · rintro ⟨before, after, htext⟩
    refine ⟨.ofList before, .ofList after, String.toList_injective ?_⟩
    simp only [String.toList_append, String.toList_ofList, htext]
  · rintro ⟨before, after, rfl⟩
    exact ⟨before.toList, after.toList, by simp only [String.toList_append]⟩

/-- In no text, only the empty one occurs. -/
theorem occursIn_empty_iff (needle : String) :
    occursIn needle.toList "".toList = true ↔ needle = "" := by
  rw [occursIn_iff, String.toList_empty, List.infix_nil, String.toList_eq_nil_iff]

/-! ## One expectation at a time -/

theorem check_success_iff (o : Outcome) : (success o).check = .ok () ↔ (success o).Holds := by
  constructor
  · intro h
    cases o with
    | success d => exact .success d
    | failure d => cases h
  · rintro ⟨d⟩
    rfl

theorem check_failure_iff (o : Outcome) : (failure o).check = .ok () ↔ (failure o).Holds := by
  constructor
  · intro h
    cases o with
    | success d => cases h
    | failure d => exact .failure d
  · rintro ⟨d⟩
    rfl

/-- A category is that of the error record. -/
theorem typeOf_eq_some_iff (o : Outcome) (expected : ErrorType) :
    typeOf o = some expected ↔ ∃ r, o.datum = .error r ∧ r.type = expected := by
  rw [typeOf, Option.map_eq_some_iff]
  cases o.datum <;> simp [Datum.record?]

theorem check_failureType_iff (o : Outcome) (expected : ErrorType) :
    (failureType o expected).check = .ok () ↔ (failureType o expected).Holds := by
  constructor
  · intro h
    cases o with
    | success d => cases h
    | failure d =>
        simp only [check, Outcome.isSuccess, Bool.false_eq_true, if_false] at h
        split at h
        · next htype =>
          obtain ⟨r, rfl, rfl⟩ := (typeOf_eq_some_iff _ _).mp htype
          exact .failureType r
        · cases h
  · rintro ⟨⟩
    exact if_pos rfl

theorem check_stageFailure_iff (e : FlowError) (expected : Datum) :
    (stageFailure e expected).check = .ok () ↔ (stageFailure e expected).Holds := by
  constructor
  · intro h
    cases e with
    | stageFailure d =>
        simp only [check, FlowError.failureDatum?] at h
        split at h
        · next hd =>
          subst hd
          exact .stageFailure d
        · cases h
    | _ => cases h
  · rintro ⟨⟩
    exact if_pos rfl

/-- Whether a message is as expected depends on the text that stands for it. -/
theorem check_failureMessage_eq_ok (e : FlowError) (needle : String) :
    (failureMessage e needle).check = .ok () ↔
      occursIn needle.toList (messageOf e).toList = true := by
  rw [check]
  split <;> simp_all

/-- Either there is an error record with the message, or there is no text. -/
theorem messageOf_cases (e : FlowError) :
    (∃ r, e = .stageFailure (.error r) ∧ messageOf e = r.message) ∨
      (∀ r, e ≠ .stageFailure (.error r)) ∧ messageOf e = "" := by
  cases e with
  | stageFailure d =>
      cases d with
      | error r => exact .inl ⟨r, rfl, rfl⟩
      | _ => exact .inr ⟨by simp, rfl⟩
  | _ => exact .inr ⟨by simp, rfl⟩

theorem check_failureMessage_iff (e : FlowError) (needle : String) :
    (failureMessage e needle).check = .ok () ↔
      (failureMessage e needle).Holds ∨ (failureMessage e needle).Vacuous := by
  rw [check_failureMessage_eq_ok]
  rcases messageOf_cases e with ⟨r, rfl, hmessage⟩ | ⟨hnone, hmessage⟩
  · rw [hmessage, occursIn_toList_iff]
    constructor
    · rintro ⟨before, after, htext⟩
      exact .inl (.failureMessage r before needle after htext)
    · rintro (hholds | ⟨_, hnone⟩)
      · cases hholds with
        | failureMessage _ before _ after htext => exact ⟨before, after, htext⟩
      · exact absurd rfl (hnone r)
  · -- What stands for the missing message is the empty text, in which only the empty one occurs.
    rw [hmessage, occursIn_empty_iff]
    constructor
    · rintro rfl
      exact .inr (.noMessage e hnone)
    · rintro (hholds | ⟨-, -⟩)
      · cases hholds with
        | failureMessage r => exact absurd rfl (hnone r)
      · rfl

/-- A check passes if what is expected is there, and otherwise only if nothing in particular is
expected in a message that is missing. -/
theorem check_eq_ok_iff (a : Assertion) :
    (a.check = .ok () ↔ a.Holds ∨ a.Vacuous) ∧ ¬(a.Holds ∧ a.Vacuous) := by
  constructor
  · have only {b : Assertion} (hcheck : b.check = .ok () ↔ b.Holds) (hb : ¬b.Vacuous) :
        b.check = .ok () ↔ b.Holds ∨ b.Vacuous := by
      rw [or_iff_left hb, hcheck]
    cases a with
    | success o => exact only (check_success_iff o) nofun
    | failure o => exact only (check_failure_iff o) nofun
    | failureType o expected => exact only (check_failureType_iff o expected) nofun
    | stageFailure e expected => exact only (check_stageFailure_iff e expected) nofun
    | failureMessage e needle => exact check_failureMessage_iff e needle
  · rintro ⟨hholds, ⟨e, hnone⟩⟩
    cases hholds with
    | failureMessage r => exact hnone r rfl

/-- Where no flow is active, nothing has failed.  Still this passes for a failure. -/
example : (failureMessage .noActiveFlow "").check = .ok () := by decide

end Assertion

end StageGraph
