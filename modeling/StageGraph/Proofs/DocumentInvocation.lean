/-
# `StageGraph.Proofs.DocumentInvocation` — bodies run from documents

A body may be run on values, or on a document that says which body, on what, and for which
stage.  The two are the same program (`Catalog.invokeDocument_agrees`): it asks the same
questions in the same order, so the same bodies run and do the same, and it ends with the
document of the same result.  A document that is none is refused before anything is asked,
and this is the only error there is.

What has to be known for it is that an invocation comes back from its document
(`Invocation.readsBack`).  Its parts are records, so this follows from their codecs, and for
the captured value from `Json.Value.Exact`.  The document has two pairs of brackets around
that value, which leaves 125 of those that may be open.
-/
import StageGraph.Proofs.ValueRoundTrip
import StageGraph.Continuation.Catalog

namespace StageGraph

open StageGraph.Wire (Codec)

/-! ## Documents of invocations and results -/

theorem Wire.Codec.ReadsBack.flowId (room : Nat) (f : FlowId) : flowId.ReadsBack room f :=
  (ReadsBack.string room f.text).map rfl

theorem Closure.readsBack {c : Closure} {room : Nat} (h : c.captured.Exact room) :
    codec.ReadsBack (room + 1) c :=
  .record (((Wire.Fields.Says.none Closure.mk).given (by simp) (.string room c.entry)).given
    (by simp) (.value h))

theorem Outcome.list_readsBack (os : List Outcome) (room : Nat) :
    codec.list.ReadsBack (room + 4) os :=
  .list (fun o _ => o.readsBack room) fun o _ => Json.opens (v := codec.toValue o) nofun

/-- An invocation comes back from its document if the captured value does. -/
theorem Invocation.readsBack (r : Invocation) {room : Nat}
    (h : r.closure.captured.Exact (room + 3)) : codec.ReadsBack (room + 5) r :=
  .record (((((Wire.Fields.Says.none Invocation.mk).given (by simp) (.flowId _ r.flow)).given
    (by simp) (.stageId _ r.stage)).given (by simp) (Closure.readsBack h)).given (by simp)
      (Outcome.list_readsBack r.args room))

/-- A message with one field comes back if its content does. -/
theorem Message.single_readsBack {α : Type} {record field : String} {c : Codec α} {room : Nat}
    {a : α} (h : c.ReadsBack room a) : (single record field c).ReadsBack (room + 1) a :=
  .record ((Wire.Fields.Says.none id).given (by simp) h)

theorem Invocation.decode_encode {r : Invocation} (h : r.closure.captured.Exact 125) :
    codec.decode (codec.encode r) = .ok r :=
  Codec.decode_encode (r.readsBack h)

theorem Message.invoked_decode_encode (o : Outcome) :
    invoked.decode (invoked.encode o) = .ok o :=
  Codec.decode_encode (single_readsBack (o.readsBack 123))

/-! ## What a program asks -/

namespace Program

variable {S : Signature} {α β σ : Type} {answer : (q : S.Question) → σ → S.Answer q × σ}

/-- The questions that a program asks, in their order, in surroundings that keep a state and answer
every question at once. -/
def asked (answer : (q : S.Question) → σ → S.Answer q × σ) : Program S α → σ → List S.Question
  | .done _, _ => []
  | .panic _, _ => []
  | .ask q next, s => q :: (next (answer q s).1).asked answer (answer q s).2

theorem asked_bind_done (p : Program S α) (f : α → β) (s : σ) :
    (p.bind fun a => .done (f a)).asked answer s = p.asked answer s := by
  induction p generalizing s with
  | done a => rfl
  | panic m => rfl
  | ask q next ih => exact congrArg (q :: ·) (ih (answer q s).1 (answer q s).2)

end Program

/-! ## Two ways to run a body -/

namespace Catalog

variable {k : Catalog} {r : Invocation} {document : Bytes} {f : Json.Refusal}

theorem invokeDocument_ok (k : Catalog) (h : Invocation.codec.decode document = .ok r) :
    (k.invokeDocument document).run =
      (k.invoke r).bind fun o => .done (.ok (Message.invoked.encode o)) := by
  unfold invokeDocument
  rw [h]
  exact Program.bind_assoc (k.invoke r) (fun o => .done (Except.ok o))
    (ExceptT.bindCont fun o => pure (Message.invoked.encode o))

theorem invokeDocument_error (k : Catalog) (h : Invocation.codec.decode document = .error f) :
    (k.invokeDocument document).run = .done (.error (.codec (.invocation f))) := by
  unfold invokeDocument
  rw [h]
  rfl

/-- To run a body does not fail, and does not panic, whoever answers its questions. -/
theorem runIn_invoke {σ : Type} (k : Catalog) (r : Invocation)
    (answer : (q : Question bodySignature) → σ → q.Answer × σ) (s : σ) :
    ∃ o, ((k.invoke r).runIn answer s).1 = .ok o := by
  unfold invoke
  cases k.find? r.closure.entry with
  | none => exact ⟨_, rfl⟩
  | some c =>
      by_cases harity : r.args.length = c.kind.arity
      · simp only [if_pos harity, Program.runIn_bind, Program.runIn_attempt]
        exact ⟨_, rfl⟩
      · simp only [if_neg harity]
        exact ⟨_, rfl⟩

/-- Where a document is an invocation, its result is put into a document, and nothing else is
different. -/
theorem runIn_invokeDocument {σ : Type} (k : Catalog)
    (h : Invocation.codec.decode document = .ok r)
    (answer : (q : Question bodySignature) → σ → q.Answer × σ) (s : σ) :
    ∃ o, (k.invoke r).runIn answer s = (.ok o, ((k.invoke r).runIn answer s).2) ∧
      (k.invokeDocument document).run.runIn answer s =
        (.ok (.ok (Message.invoked.encode o)), ((k.invoke r).runIn answer s).2) := by
  obtain ⟨o, ho⟩ := k.runIn_invoke r answer s
  have hinvoke : (k.invoke r).runIn answer s = (.ok o, ((k.invoke r).runIn answer s).2) :=
    Prod.ext ho rfl
  refine ⟨o, hinvoke, ?_⟩
  rw [k.invokeDocument_ok h, Program.runIn_bind, hinvoke]
  rfl

/-- A body that is run on a document is the body that is run on what the document says.
* The document of an invocation, whose captured value is kept by its text and nested at most 125
  deep, is run as the invocation itself: the program is the same, and only its result is put into a
  document.
* In any surroundings, this asks the same questions, leaves the same state behind, and ends with
  the document of the result, from which the result comes back.
* A document that is refused ends in an error that says so, and nothing is asked, whatever bodies
  there are.
* So this is the only error: where a document is an invocation, the result is a document. -/
theorem invokeDocument_agrees (k : Catalog) :
    (∀ r : Invocation, r.closure.captured.Exact 125 →
      (k.invokeDocument (Invocation.codec.encode r)).run =
        ((k.invoke r).bind fun o => .done (.ok (Message.invoked.encode o))) ∧
      ∀ (σ : Type) (answer : (q : Question bodySignature) → σ → q.Answer × σ) (s : σ),
        ∃ o, (k.invoke r).runIn answer s = (.ok o, ((k.invoke r).runIn answer s).2) ∧
          (k.invokeDocument (Invocation.codec.encode r)).run.runIn answer s =
            (.ok (.ok (Message.invoked.encode o)), ((k.invoke r).runIn answer s).2) ∧
          (k.invokeDocument (Invocation.codec.encode r)).run.asked answer s =
            (k.invoke r).asked answer s ∧
          Message.invoked.decode (Message.invoked.encode o) = .ok o) ∧
    ∀ document : Bytes,
      (∃ f, Invocation.codec.decode document = .error f ∧
        (k.invokeDocument document).run = .done (.error (.codec (.invocation f)))) ∨
      ∃ r, Invocation.codec.decode document = .ok r ∧
        ∀ (σ : Type) (answer : (q : Question bodySignature) → σ → q.Answer × σ) (s : σ),
          ∃ o, ((k.invoke r).runIn answer s).1 = .ok o ∧
            ((k.invokeDocument document).run.runIn answer s).1 =
              .ok (.ok (Message.invoked.encode o)) := by
  refine ⟨?_, ?_⟩
  · intro r hr
    have hdecode := Invocation.decode_encode hr
    have hrun := k.invokeDocument_ok hdecode
    refine ⟨hrun, ?_⟩
    intro σ answer s
    obtain ⟨o, hinvoke, hdocument⟩ := k.runIn_invokeDocument hdecode answer s
    refine ⟨o, hinvoke, hdocument, ?_, Message.invoked_decode_encode o⟩
    rw [hrun, Program.asked_bind_done]
  · intro document
    cases hdecode : Invocation.codec.decode document with
    | error f => exact .inl ⟨f, rfl, k.invokeDocument_error hdecode⟩
    | ok r =>
        refine .inr ⟨r, rfl, ?_⟩
        intro σ answer s
        obtain ⟨o, hinvoke, hdocument⟩ := k.runIn_invokeDocument hdecode answer s
        exact ⟨o, congrArg Prod.fst hinvoke, congrArg Prod.fst hdocument⟩

/-- An invocation of the built-in entry with brackets and integers in what is captured. -/
def nestedInvocation : Invocation where
  flow := ⟨"f"⟩
  stage := ⟨"1"⟩
  closure := ⟨Closure.capturedEntry,
    .array [.int (-7), .object [("left", .array []), ("right", .string "x")]]⟩
  args := [.empty]

theorem invokeDocument_agrees_nested :
    nestedInvocation.closure.captured.Exact 125 ∧
      (Catalog.initial.invokeDocument (Invocation.codec.encode nestedInvocation)).run =
        .done (.ok (Message.invoked.encode
          (.success (.ofValue nestedInvocation.closure.captured)))) := by
  have hexact : nestedInvocation.closure.captured.Exact 125 := by
    refine .array ?_
    simp only [List.mem_cons, List.not_mem_nil, or_false, forall_eq_or_imp, forall_eq]
    refine ⟨.int (by decide), .object (by decide) ?_⟩
    simp only [List.mem_cons, List.not_mem_nil, or_false, forall_eq_or_imp, forall_eq]
    exact ⟨.array (by simp), .string "x"⟩
  obtain ⟨hrun, -⟩ := (invokeDocument_agrees .initial).1 nestedInvocation hexact
  exact ⟨hexact, hrun⟩

end Catalog

end StageGraph
