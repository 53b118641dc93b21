/-
# `StageGraph.Proofs.Conversation` — programs and what they are told

Whoever answers the questions of a program, and whatever else goes on meanwhile, the
program sees nothing but the answers.  `Program.Leads` says to what point a list of
questions and answers leads it.  The list need not be complete: the program may have
ended after it, or wait for its next answer.

A conversation of a compound program is put together from conversations of its parts: of
the two programs of a sequence (`Leads.of_bind`), of the program whose end is observed
(`Leads.of_attempt`), and of a program inside a scope, where the conversation goes on with
some of the questions left out, because they were answered on the spot
(`Leads.of_answering`).

A program that is conducted in a run holds a conversation, too (`World.Comes.leads`), in
which every answer is one that the completer has given.
-/
import StageGraph.Proofs.Conduct

namespace StageGraph

/-- A question with an answer to it. -/
structure Reply (S : Signature) where
  question : S.Question
  answer : S.Answer question

namespace Program

variable {S : Signature} {α β : Type}

/-- The conversation leads the program to a point. -/
inductive Leads : Program S α → List (Reply S) → Program S α → Prop
  | here (p : Program S α) : Leads p [] p
  | ask {q : S.Question} {next : S.Answer q → Program S α} {rs : List (Reply S)}
      {p : Program S α} (x : S.Answer q) : Leads (next x) rs p →
      Leads (.ask q next) (⟨q, x⟩ :: rs) p

/-- The end of a program. -/
def ending : Except Panic α → Program S α
  | .ok a => .done a
  | .error p => .panic p

variable {p p' t : Program S α} {rs : List (Reply S)}

theorem Leads.snoc {q : S.Question} {next : S.Answer q → Program S α}
    (h : p.Leads rs (.ask q next)) (x : S.Answer q) : p.Leads (rs ++ [⟨q, x⟩]) (next x) := by
  generalize ht : Program.ask q next = t at h
  induction h with
  | here p =>
      subst ht
      exact .ask x (.here _)
  | ask y _ ih => exact .ask y (ih ht)

theorem Leads.of_nil (h : p.Leads [] t) : t = p := by
  cases h
  rfl

theorem Leads.of_done {a : α} (h : (Program.done a).Leads rs t) : rs = [] ∧ t = .done a := by
  cases h
  exact ⟨rfl, rfl⟩

theorem Leads.of_ask {q : S.Question} {next : S.Answer q → Program S α}
    (h : (Program.ask q next).Leads rs t) :
    (rs = [] ∧ t = .ask q next) ∨ ∃ x rs', rs = ⟨q, x⟩ :: rs' ∧ (next x).Leads rs' t := by
  cases h with
  | here _ => exact .inl ⟨rfl, rfl⟩
  | ask x h => exact .inr ⟨x, _, rfl, h⟩

/-- The first program of a sequence is under way, or it has given a value, with which the second
one has gone on. -/
theorem Leads.of_bind {f : α → Program S β} {t : Program S β} (h : (p.bind f).Leads rs t) :
    (∃ p', p.Leads rs p' ∧ (∀ a, p' ≠ .done a) ∧ t = p'.bind f) ∨
      ∃ a first rest, rs = first ++ rest ∧ p.Leads first (.done a) ∧ (f a).Leads rest t := by
  induction p generalizing rs with
  | done a => exact .inr ⟨a, [], rs, rfl, .here _, h⟩
  | panic m =>
      cases h
      exact .inl ⟨.panic m, .here _, nofun, rfl⟩
  | ask q next ih =>
      rcases h.of_ask with ⟨rfl, rfl⟩ | ⟨x, rs', rfl, hrest⟩
      · exact .inl ⟨.ask q next, .here _, nofun, rfl⟩
      · rcases ih x hrest with ⟨p', hp', hne, ht⟩ | ⟨a, first, rest, rfl, hp, hf⟩
        · exact .inl ⟨p', .ask x hp', hne, ht⟩
        · exact .inr ⟨a, ⟨q, x⟩ :: first, rest, rfl, .ask x hp, hf⟩

/-- A program whose end is observed holds the conversation that it would hold anyway. -/
theorem Leads.of_attempt {t : Program S (Except Panic α)} (h : p.attempt.Leads rs t) :
    ∃ p', p.Leads rs p' ∧ t = p'.attempt := by
  induction p generalizing rs with
  | done a =>
      cases h
      exact ⟨.done a, .here _, rfl⟩
  | panic m =>
      cases h
      exact ⟨.panic m, .here _, rfl⟩
  | ask q next ih =>
      rcases h.of_ask with ⟨rfl, rfl⟩ | ⟨x, rs', rfl, hrest⟩
      · exact ⟨.ask q next, .here _, rfl⟩
      · obtain ⟨p', hp', ht⟩ := ih x hrest
        exact ⟨p', .ask x hp', ht⟩

/-- An observed program that has ended. -/
theorem eq_ending_of_attempt {ended : Except Panic α} (h : p.attempt = .done ended) :
    p = ending ended := by
  cases p with
  | done a => cases h; rfl
  | panic m => cases h; rfl
  | ask q next => cases h

/-- The questions of a conversation that somebody else has to answer. -/
def unanswered (known : (q : S.Question) → Option (S.Answer q)) (rs : List (Reply S)) :
    List (Reply S) :=
  rs.filter fun r => (known r.question).isNone

/-- Every answer that is known on the spot is the one that is given. -/
def Informed (known : (q : S.Question) → Option (S.Answer q)) (rs : List (Reply S)) : Prop :=
  ∀ r ∈ rs, ∀ x, known r.question = some x → r.answer = x

/-- Behind a program some of whose questions are answered on the spot stands a conversation of the
program itself, with these answers; where the one has ended, the other has. -/
theorem Leads.of_answering {known : (q : S.Question) → Option (S.Answer q)}
    (h : (p.answering known).Leads rs t) :
    ∃ rs' p', p.Leads rs' p' ∧ t = p'.answering known ∧ rs = unanswered known rs' ∧
      Informed known rs' ∧ ∀ ended, t = ending ended → p' = ending ended := by
  induction p generalizing rs with
  | done a =>
      cases h
      exact ⟨[], .done a, .here _, rfl, rfl, nofun, fun _ h => h⟩
  | panic m =>
      cases h
      exact ⟨[], .panic m, .here _, rfl, rfl, nofun, fun _ h => h⟩
  | ask q next ih =>
      cases hknown : known q with
      | some x =>
          simp only [answering, hknown] at h
          obtain ⟨rs', p', hp', ht, hrs, hinformed, hend⟩ := ih x h
          refine ⟨⟨q, x⟩ :: rs', p', .ask x hp', ht, ?_,
            List.forall_mem_cons.mpr ⟨?_, hinformed⟩, hend⟩
          · simpa [unanswered, hknown] using hrs
          · exact fun y hy => Option.some.inj (hknown.symm.trans hy)
      | none =>
          simp only [answering, hknown] at h
          rcases h.of_ask with ⟨rfl, rfl⟩ | ⟨x, rest, rfl, hrest⟩
          · refine ⟨[], .ask q next, .here _, by simp only [answering, hknown], rfl, nofun, ?_⟩
            intro ended hended
            cases ended <;> cases hended
          · obtain ⟨rs', p', hp', ht, hrs, hinformed, hend⟩ := ih x hrest
            refine ⟨⟨q, x⟩ :: rs', p', .ask x hp', ht, ?_,
            List.forall_mem_cons.mpr ⟨?_, hinformed⟩, hend⟩
            · simp [unanswered, hknown, hrs]
            · intro y hy
              rw [hknown] at hy
              cases hy

/-- A conversation with these answers is also one of the program that has them on the spot. -/
theorem Leads.answering {known : (q : S.Question) → Option (S.Answer q)} (h : p.Leads rs p')
    (hinformed : Informed known rs) :
    (p.answering known).Leads (unanswered known rs) (p'.answering known) := by
  induction h with
  | here p => exact .here _
  | @ask q next rs p x _ ih =>
      obtain ⟨hx, hrest⟩ := List.forall_mem_cons.mp hinformed
      cases hknown : known q with
      | some y =>
          obtain rfl : x = y := hx y hknown
          simpa [Program.answering, unanswered, hknown] using ih hrest
      | none =>
          simpa [Program.answering, unanswered, hknown] using Leads.ask x (ih hrest)

end Program

/-! ## Conversations in a run -/

namespace Thread

variable {κ μ : Type}

/-- Whatever a thread goes on with, it offers. -/
theorem within_offers : ∀ t : Thread κ, t.Within t.Offers
  | going _ => ⟨fun _ _ => none, 0, rfl⟩
  | onStage _ _ next alarm => by
      refine ⟨fun o => ⟨fun _ _ => some o, 0, rfl⟩, ?_⟩
      rintro a rfl
      exact ⟨fun _ _ => none, a.moment, by simp [resume?, Alarm.fired?, Alarm.isDue]⟩
  | asleep a => ⟨fun _ _ => none, a.moment, by simp [resume?, Alarm.fired?, Alarm.isDue]⟩

theorem Within.mono {P Q : κ → Prop} (hPQ : ∀ k, P k → Q k) :
    ∀ {t : Thread κ}, t.Within P → t.Within Q
  | going _, h => hPQ _ h
  | onStage _ _ _ _, h => ⟨fun o => hPQ _ (h.1 o), fun a ha => hPQ _ (h.2 a ha)⟩
  | asleep _, h => hPQ _ h

theorem Within.map {P : κ → Prop} {Q : μ → Prop} {f : κ → μ} (hf : ∀ k, P k → Q (f k)) :
    ∀ {t : Thread κ}, t.Within P → (t.map f).Within Q
  | going k, h => hf k h
  | onStage _ _ next alarm, h => by
      refine ⟨fun o => hf _ (h.1 o), ?_⟩
      intro a ha
      obtain ⟨a', ha', rfl⟩ := Option.map_eq_some_iff.mp ha
      exact hf _ (h.2 a' ha')
  | asleep a, h => hf _ h

end Thread

namespace World

variable {c : Completer} {w w₀ : World} {who : Conductor} {α : Type} {xs : List Exchange}
  {p : FlowProgram bodySignature α} {t : Thread (FlowProgram bodySignature α)}

/-- The question was asked in an exchange, and the completer has given this answer to it: at once,
or to somebody who was waiting for it. -/
def Gave (c : Completer) (x : Exchange) (r : Reply (flowSignature bodySignature)) : Prop :=
  ∃ a, r = ⟨x.question, a⟩ ∧ (x.before.pose c x.question).2.Offers a

/-- A program that is conducted in a run holds a conversation in which it has asked these questions
and was given answers of the completer. -/
theorem Comes.leads (h : Comes c who w₀ (.going p) xs w t) :
    t.Within fun p' => ∃ rs, List.Forall₂ (Gave c) xs rs ∧ p.Leads rs p' := by
  induction h with
  | start => exact ⟨[], .nil, .here p⟩
  | other _ _ _ ih => exact ih
  | asks _ hresume _ ih =>
      obtain ⟨rs, hrs, hleads⟩ := ih.offers ⟨_, _, hresume⟩
      refine Thread.Within.map ?_ (Thread.within_offers _)
      intro a ha
      exact ⟨rs ++ [⟨_, a⟩], List.rel_append hrs (.cons ⟨a, rfl, ha⟩ .nil), hleads.snoc a⟩

theorem Returns.leads {a : α} (h : Returns c who w₀ (.going p) xs w a) :
    ∃ rs, List.Forall₂ (Gave c) xs rs ∧ p.Leads rs (.done a) := by
  obtain ⟨t, hcomes, hresume⟩ := h
  exact hcomes.leads.offers ⟨_, _, hresume⟩

end World

end StageGraph
