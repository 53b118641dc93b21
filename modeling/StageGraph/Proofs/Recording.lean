/-
# `StageGraph.Proofs.Recording` — what is recorded for an error

An error of a body is a chain: contexts, the error itself, its sources.  Recording
walks down the chain twice, once for the failure of a stage and once for a flow
error, and both walks pass over the contexts.  This file says what the walks find in
terms of the chain alone.

If a cause carries the datum of a failed stage, the outermost one decides, even where
a flow error of another kind stands further out.  If none does, an error record is
made: its category is that of the outermost flow error, its message the whole chain
(`Report.texts_foldl_wrap`).

What has been recorded once is a fixed point: raised again as the failure of a stage,
by any number of bodies, with any contexts, written and read on its way or not, it
is recorded as it is (`Hop.foldlM_record`).
-/
import StageGraph.Proofs.FailureRelay

namespace StageGraph

open StageGraph.Wire (Codec)

/-! ## The causes of a report -/

/-- The cause is the failure of a stage, on its own or as a flow error. -/
inductive Cause.Carries : Cause → Datum → Prop
  | failure (d : Datum) : Carries (.failure d) d
  | flow (d : Datum) : Carries (.flow (.stageFailure d)) d

theorem Cause.carries_iff {x : Cause} {d : Datum} : x.Carries d ↔ x.failureDatum? = some d := by
  constructor
  · intro h
    cases h <;> rfl
  · intro h
    cases x with
    | text m => cases h
    | failure d' =>
        cases h
        exact .failure d
    | flow e =>
        cases e with
        | stageFailure d' =>
            cases h
            exact .flow d
        | _ => cases h

namespace Report

/-- Of the causes with a property `x` is the outermost. -/
def Outermost (r : Report) (P : Cause → Prop) (x : Cause) : Prop :=
  ∃ outer inner, r.causes = outer ++ x :: inner ∧ P x ∧ ∀ y ∈ outer, ¬ P y

/-- The category that a report falls under. -/
inductive Category (r : Report) : ErrorType → Prop
  | flow {f : FlowError} : r.Outermost (fun x => ∃ f, x = .flow f) (.flow f) →
      Category r f.errorType
  | user : (∀ x ∈ r.causes, ∀ f, x ≠ .flow f) → Category r .userError

variable {r : Report}

theorem Outermost.holds {P : Cause → Prop} {x : Cause} (h : r.Outermost P x) : P x := by
  obtain ⟨outer, inner, -, hx, -⟩ := h
  exact hx

/-- Where there are causes with a property, there is an outermost. -/
theorem exists_outermost {P : Cause → Prop} (h : ∃ x ∈ r.causes, P x) :
    ∃ x, r.Outermost P x := by
  classical
  obtain ⟨x, hx, hP⟩ := h
  cases hfind : r.causes.find? fun y => decide (P y) with
  | none =>
      rw [List.find?_eq_none] at hfind
      exact absurd (decide_eq_true hP) (hfind x hx)
  | some y =>
      obtain ⟨hy, outer, inner, hcauses, houter⟩ := List.find?_eq_some_iff_append.mp hfind
      exact ⟨y, outer, inner, hcauses, of_decide_eq_true hy, fun z hz => by simpa using houter z hz⟩

/-! ## What the walks find -/

section Walk

variable {β : Type} {find : Cause → Option β} {P : Cause → Prop}
  (hfind : ∀ x, (∃ b, find x = some b) ↔ P x)

include hfind

theorem find_eq_none {x : Cause} (hx : ¬ P x) : find x = none :=
  Option.eq_none_iff_forall_ne_some.mpr fun b hb => hx ((hfind x).mp ⟨b, hb⟩)

theorem findSome?_of_outermost {x : Cause} {b : β} (h : r.Outermost P x) (hb : find x = some b) :
    r.causes.findSome? find = some b := by
  obtain ⟨outer, inner, hcauses, -, houter⟩ := h
  exact List.findSome?_eq_some_iff.mpr
    ⟨outer, x, inner, hcauses, hb, fun y hy => find_eq_none hfind (houter y hy)⟩

theorem findSome?_of_none (h : ∀ x ∈ r.causes, ¬ P x) : r.causes.findSome? find = none :=
  List.findSome?_eq_none_iff.mpr fun x hx => find_eq_none hfind (h x hx)

end Walk

/-! ## What is recorded -/

theorem carries_datum (x : Cause) : (∃ d, x.failureDatum? = some d) ↔ ∃ d, x.Carries d :=
  exists_congr fun _ => Cause.carries_iff.symm

/-- The outermost cause that carries a datum is recorded with it. -/
theorem toDatum_of_outermost {x : Cause} {d : Datum}
    (h : r.Outermost (fun y => ∃ d, y.Carries d) x) (hd : x.Carries d) : r.toDatum = d := by
  simp only [toDatum, findSome?_of_outermost carries_datum h (Cause.carries_iff.mp hd)]

theorem toDatum_of_none (h : ∀ x ∈ r.causes, ¬ ∃ d, x.Carries d) :
    r.toDatum = .traced r.errorType r.message r.trace := by
  simp only [toDatum, findSome?_of_none carries_datum h]

/-- The category of a report is found by the walk for a flow error. -/
theorem errorType_eq_iff {type : ErrorType} : r.errorType = type ↔ r.Category type := by
  have hflow : ∀ x : Cause, (∃ f, x.flowError? = some f) ↔ ∃ f, x = .flow f := by
    intro x
    cases x <;> simp [Cause.flowError?]
  constructor
  · rintro rfl
    by_cases hsome : ∃ x ∈ r.causes, ∃ f, x = .flow f
    · obtain ⟨x, hx⟩ := exists_outermost hsome
      obtain ⟨f, rfl⟩ := hx.holds
      rw [errorType, findSome?_of_outermost hflow hx rfl]
      exact .flow hx
    · have hnone : ∀ x ∈ r.causes, ¬ ∃ f, x = .flow f := fun x hx hf => hsome ⟨x, hx, hf⟩
      rw [errorType, findSome?_of_none hflow hnone]
      exact .user fun x hx f hf => hnone x hx ⟨f, hf⟩
  · intro h
    cases h with
    | flow hx => rw [errorType, findSome?_of_outermost hflow hx rfl]
    | user hnone => rw [errorType, findSome?_of_none hflow fun x hx ⟨f, hf⟩ => hnone x hx f hf]

/-- Contexts stand in front of the texts, the last one first. -/
theorem texts_foldl_wrap (contexts : List Context) (r : Report) :
    (contexts.foldl wrap r).texts = contexts.reverse.map Context.message ++ r.texts := by
  induction contexts generalizing r with
  | nil => rfl
  | cons context contexts ih =>
      rw [List.foldl_cons, ih]
      simp [texts, wrap, causes]

end Report

/-! ## Recorded again -/

namespace Hop

/-- What arrives of a recorded datum. -/
def carry (hop : Hop) (d : Datum) : Except FlowError Datum :=
  if hop.wired then Datum.ofBytes d.toBytes else .ok d

/-- A recorded datum is raised as the failure of a stage, wrapped, and recorded again. -/
def record (hop : Hop) (d : Datum) : Except FlowError Datum :=
  (hop.carry d).map fun d =>
    (hop.contexts.foldl Report.wrap (.ofFlow (.stageFailure d))).toDatum

theorem carry_eq (hop : Hop) (d : Datum) : hop.carry d = .ok d := by
  unfold carry
  cases hop.wired with
  | false => rfl
  | true =>
      rw [if_pos rfl, Datum.ofBytes, Datum.toBytes, Codec.decode_encode (d.readsBack 125)]
      rfl

theorem record_eq (hop : Hop) (d : Datum) : hop.record d = .ok d := by
  have hrecorded := Report.toOutcome_stageFailure hop.contexts d
  rw [record, carry_eq]
  exact congrArg Except.ok (Outcome.failure.inj hrecorded)

theorem foldlM_record (hops : List Hop) (d : Datum) :
    hops.foldlM (fun d hop => hop.record d) d = .ok d := by
  induction hops with
  | nil => rfl
  | cons hop hops ih =>
      rw [List.foldlM_cons, record_eq]
      exact ih

end Hop

/-! ## The result -/

/-- What is recorded for an error `e` with contexts around it, innermost first.

If causes of `e` carry data, it is the datum of the outermost of them, the same as for `e` alone.
Otherwise it is an error record with a trace.  Its category is that of `e` alone and does not
depend on the contexts; its message is the chain from the outermost context to the last source.

Whatever has been recorded, raised again and wrapped, by one body or by one after the other, is
recorded as it is; and the error that it is raised as has its category, whether it has been
written and read on its way or not. -/
theorem Report.recorded_of_causes (e : Report) (contexts : List Context) :
    let wrapped := contexts.foldl wrap e
    ((∃ x ∈ e.causes, ∃ d, x.Carries d) →
      ∃ x d, e.Outermost (fun y => ∃ d, y.Carries d) x ∧ x.Carries d ∧
        wrapped.toDatum = d ∧ e.toDatum = d) ∧
    ((∀ x ∈ e.causes, ∀ d, ¬ x.Carries d) →
      ∃ type, e.Category type ∧
        (∃ trace, wrapped.toDatum = .error
          ⟨type,
            ": ".intercalate (contexts.reverse.map Context.message ++
              (e.contexts.map Context.message ++ e.causes.map Cause.message)),
            some trace⟩) ∧
        ∃ message trace, e.toDatum = .error ⟨type, message, some trace⟩) ∧
    ∀ d : Datum,
      (∀ hops : List Hop, hops.foldlM (fun d hop => hop.record d) d = .ok d) ∧
      ∀ hop : Hop, ∃ d', hop.carry d = .ok d' ∧
        (∀ record, d = .error record → (FlowError.stageFailure d').errorType = record.type) ∧
        ((∀ record, d ≠ .error record) → (FlowError.stageFailure d').errorType = .userError) := by
  refine ⟨?_, ?_, ?_⟩
  · intro hsome
    obtain ⟨x, hx⟩ := exists_outermost hsome
    obtain ⟨d, hd⟩ := hx.holds
    have hwrapped : (contexts.foldl wrap e).Outermost (fun y => ∃ d, y.Carries d) x := by
      rw [Outermost, causes_foldl_wrap]
      exact hx
    exact ⟨x, d, hx, hd, toDatum_of_outermost hwrapped hd, toDatum_of_outermost hx hd⟩
  · intro hnone
    have hnone : ∀ x ∈ e.causes, ¬ ∃ d, x.Carries d := fun x hx ⟨d, hd⟩ => hnone x hx d hd
    have htype : (contexts.foldl wrap e).errorType = e.errorType := by
      simp only [errorType, causes_foldl_wrap]
    refine ⟨e.errorType, errorType_eq_iff.mp rfl, ⟨(contexts.foldl wrap e).trace, ?_⟩,
      e.message, e.trace, toDatum_of_none hnone⟩
    have hwrapped := toDatum_of_none (r := contexts.foldl wrap e) (by
      rw [causes_foldl_wrap]
      exact hnone)
    rw [hwrapped, Datum.traced, htype, message, texts_foldl_wrap]
    rfl
  · intro d
    refine ⟨fun hops => Hop.foldlM_record hops d, ?_⟩
    intro hop
    refine ⟨d, hop.carry_eq d, ?_, ?_⟩
    · rintro record rfl
      rfl
    · intro hnone
      cases d with
      | error record => exact absurd rfl (hnone record)
      | _ => rfl

end StageGraph
