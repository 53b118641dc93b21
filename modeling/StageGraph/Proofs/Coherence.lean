/-
# `StageGraph.Proofs.Coherence` — the ways to retrieve a result agree

The four retrievals of a stage ask the completer the same question, with a time limit or without
one, and differ only in what they make of the answer.  A default in particular is given where the
answer is that the time was over, and for no other reason; it is the *kind* of the answer that
decides, so it has to be shown that nothing a stage can end with looks like this answer
(`Retrieval.conclude_ok`).  A stage that has failed because some time was over is no exception: its
failure is a datum, and is retrieved as a failure of the stage.

Whoever waits for a stage within a while stands beside the completer and has a moment of his own.
He attends to it if no time passes while he could go on, nor beyond that moment: this is a punctual
run of the completer with him as its only task (`World.beside`).  Then the clock does not leave his
moment behind before he has gone on, and all that is left to compare is whether the stage ended in
time.
-/
import StageGraph.Proofs.Collection
import StageGraph.Proofs.PunctualRun
import StageGraph.Proofs.RemoteRetrieval

namespace StageGraph

open StageGraph.Wire (Codec)

/-! ## What is made of a result -/

section Results

variable {α : Type}

/-- A datum holds a value, or it cannot be read as one. -/
theorem Datum.decodeWith_cases (codec : Codec α) (d : Datum) :
    (∃ a, d.decodeWith codec = .ok a) ∨ ∃ u, d.decodeWith codec = .error (.codec u) := by
  cases d with
  | empty =>
      simp only [Datum.decodeWith]
      cases codec.ofValue .null with
      | ok a => exact .inl ⟨a, rfl⟩
      | error e => exact .inr ⟨_, rfl⟩
  | blob b =>
      simp only [Datum.decodeWith]
      split
      · cases codec.decode b.data with
        | ok a => exact .inl ⟨a, rfl⟩
        | error e => exact .inr ⟨_, rfl⟩
      · exact .inr ⟨_, rfl⟩
  | _ => exact .inr ⟨_, rfl⟩

/-- What a stage has ended with never looks like a stage that is still pending. -/
theorem Outcome.retrieve_ne_timeout (codec : Codec α) (o : Outcome) (stage : StageId) :
    o.retrieve codec ≠ .error (.timeout stage) := by
  intro h
  cases o with
  | success d =>
      rcases d.decodeWith_cases codec with ⟨a, ha⟩ | ⟨u, hu⟩
      · cases ha.symm.trans h
      · cases hu.symm.trans h
  | failure d => cases h

/-- What a retrieval gives of a stage that has ended: the result, or what is read out of it. -/
def Retrieval.gives : {α : Type} → Retrieval α → Outcome → Except FlowError α
  | _, .result, o => .ok o
  | _, .get codec, o | _, .getTimeout _ codec, o | _, .getNow _ codec, o => o.retrieve codec

/-- A default does not stand in for anything that a stage has ended with. -/
theorem Retrieval.conclude_ok (x : Retrieval α) (o : Outcome) : x.conclude (.ok o) = x.gives o := by
  cases x with
  | getNow default codec =>
      show Handle.orDefault default (o.retrieve codec) = o.retrieve codec
      cases hr : o.retrieve codec with
      | ok a => rfl
      | error e =>
          cases e with
          | timeout stage => exact absurd hr (o.retrieve_ne_timeout codec stage)
          | _ => rfl
  | _ => rfl

end Results

/-! ## A handle at later times -/

section Later

open StageGraph.Graph (Change Changes)

variable {c : Completer} {g g' : Graph} {w w' : World} {h : Handle} {flow n : Nat}
  {es : List Event}

/-- A flow that has been forgotten stays so. -/
theorem Graph.Change.staysRemoved {d : Option Deed} (hchange : Change c g d g')
    (hg : g.removed = true) : g'.removed = true := by
  cases hchange with
  | call hcall =>
      cases hcall with
      | allocate _ hg' =>
          obtain ⟨-, -, rfl⟩ := allocate_eq_ok hg'
          exact hg
      | addHook closure =>
          rw [addHook_eq]
          exact hg
      | commit hg' =>
          obtain ⟨-, rfl⟩ := commit_eq_ok hg'
          simpa using hg
      | remove _ => rfl
  | move _ _ => simpa using hg
  | begin _ _ => exact hg
  | skip _ _ => exact hg
  | @drain _ state d m _ _ => cases m <;> exact hg

/-- A handle stands for its stage as long as the flow is known. -/
theorem World.Finds.run (hfinds : w.Finds h flow n) (hrun : w.run c es = some w')
    (hknown : w'.Known flow) : w'.Finds h flow n := by
  obtain ⟨g, hfind, hslot⟩ := hfinds
  obtain ⟨hg, hid, -, hfirst⟩ := World.find_eq_ok.mp hfind
  obtain ⟨g', hg', hchanges⟩ := World.changes_of_run hrun hg
  obtain ⟨g'', hg'', hremoved⟩ := hknown
  obtain rfl := Option.some.inj (hg'.symm.trans hg'')
  refine ⟨g', World.find_eq_ok.mpr ⟨hg', hchanges.grows.id.trans hid, hremoved, ?_⟩,
    hchanges.slot? hslot⟩
  intro k gk' hk hgk' hidk
  -- There are as many graphs before this one as there were, each with its name.
  have hlt : k < w.graphs.length := Nat.lt_trans hk (List.getElem?_eq_some_iff.mp hg).1
  have hgk : w.graph? k = some w.graphs[k] := List.getElem?_eq_getElem hlt
  obtain ⟨gk'', hgk'', hkept⟩ := World.changes_of_run hrun hgk
  obtain rfl := Option.some.inj (hgk''.symm.trans hgk')
  exact hkept.preserves (fun hremoved hchange => hchange.staysRemoved hremoved)
    (hfirst k _ hk hgk (hkept.grows.id.symm.trans hidk))

end Later

/-! ## What a question leaves alone -/

namespace World

variable {c : Completer} {w w' u v : World} {who : Conductor} {q : Question bodySignature}
  {h : Handle} {flow n : Nat} {α : Type}

/-- From one state to the other nothing has changed, except that the body of who asks has gone
on. -/
inductive GoesOn (w : World) : Conductor → World → Prop
  | outside : GoesOn w .outside w
  | stage {flow n : Nat} {g : Graph} {s : Stage} {t t' : BodyThread} {forward : Option Outcome} :
      w.graph? flow = some g → g.stages[n]? = some s → s.phase = .running t forward →
      GoesOn w (.stage flow n) (w.setGraph flow (g.setPhase n (.running t' forward)))
  | hook {flow k : Nat} {g : Graph} {d : Hooks.Drain BodyThread} {publish : Option FlowState}
      {r : Hooks.Running BodyThread} {t' : BodyThread} :
      w.graph? flow = some g → g.hookTasks[k]? = some (.draining d publish) →
      d.running = some r →
      GoesOn w (.hook flow k)
        (w.setGraph flow (g.setHookTask k (.draining (d.run { r with thread := t' }) publish)))

/-- Where the answer to a question changes nothing, asking it lets a body go on and does nothing
else. -/
theorem Asks.goesOn (hasks : w.Asks c q who w') (hpose : (w.pose c q).1 = w) : w.GoesOn who w' := by
  cases hasks with
  | outside =>
      rw [hpose]
      exact .outside
  | stage hs hphase hresume hfire =>
      obtain ⟨g, hg, hs⟩ := stage?_eq_some.mp hs
      obtain ⟨g₁, hacts, rfl⟩ := (StageDoes.ask hphase hresume).fires hg hs hfire
      rw [hpose] at hacts ⊢
      obtain rfl := Option.some.inj (hg.symm.trans hacts.graph₁)
      exact .stage hg hs hphase
  | hook hg hk hrunning hresume hfire =>
      obtain ⟨g₁, hacts, rfl⟩ := (DrainDoes.ask hrunning hresume).fires hg hk hfire
      rw [hpose] at hacts ⊢
      obtain rfl := Option.some.inj (hg.symm.trans hacts.graph₁)
      exact .hook hg hk hrunning

/-! ## Who waits beside a completer -/

/-- The completer from the state `w` on, with somebody beside it who waits; it is attended to by him
in its punctual runs. -/
abbrev beside {κ : Type} (c : Completer) (w : World) (t : Thread κ) : Clockwork World Event :=
  { clockwork c with
    start := w
    Idle := fun v => v.resume? t = none
    Waits := fun _ m => m ∈ t.alarm?.map Alarm.moment }

/-- How somebody waits who makes the call of a retrieval in the state `w`, and what he goes on
with. -/
def retrieving (c : Completer) (w : World) (x : Retrieval α) (h : Handle) :
    Thread (Except FlowError α) :=
  (w.pose c (.call (x.request h))).2.map x.conclude

theorem resume?_retrieving {x : Retrieval α} {a : Except FlowError α}
    (hfinds : w.Finds h flow n) : v.resume? (w.retrieving c x h) = some a ↔
      (∃ o, v.outcome? flow n = some o ∧ a = x.gives o) ∨
        v.outcome? flow n = none ∧ (∃ d ∈ x.timeout, w.after d ≤ v.clock) ∧
          a = x.conclude (.error (.timeout h.stage)) := by
  have hdone : v.resume? ((w.pose c (.call (x.request h))).2.map fun a =>
      (.done (x.conclude a) : FlowProgram bodySignature (Except FlowError α))) =
        some (.done a) ↔ v.resume? (w.retrieving c x h) = some a := by
    rw [retrieving, resume?_map, resume?_map]
    cases v.resume? (w.pose c (.call (x.request h))).2 <;> simp
  rw [← hdone, hfinds.pose c x, resume?_onStage]
  simp only [x.conclude_ok, Program.done.injEq]

/-- To retrieve something is to make the call, and to go on in some later state. -/
theorem retrieves_iff {x : Retrieval α} {a : Except FlowError α} (hfinds : w.Finds h flow n) :
    Retrieves c x h w w' a ↔
      ∃ es, w.run c es = some w' ∧ w'.resume? (w.retrieving c x h) = some a := by
  constructor
  · intro hret
    obtain ⟨⟨es, hrun⟩, hcases⟩ := hret.cases hfinds
    simp only [x.conclude_ok] at hcases
    exact ⟨es, hrun, (resume?_retrieving hfinds).mpr hcases⟩
  · rintro ⟨es, hrun, hresume⟩
    refine retrieves_of_resume hfinds hrun ?_
    rw [hfinds.pose c x, resume?_onStage]
    simpa only [x.conclude_ok, Program.done.injEq] using (resume?_retrieving hfinds).mp hresume

/-- The clock does not leave the moment of somebody behind who attends to it. -/
theorem clock_le_of_beside {κ : Type} {t : Thread κ} {alarm : Alarm κ} {es : List Event}
    (ht : t.alarm? = some alarm) (hstart : w.clock ≤ alarm.moment)
    (hpunctual : (w.beside c t).Punctual w es) (hrun : w.run c es = some v) :
    v.clock ≤ alarm.moment := by
  refine Nat.le_of_not_lt fun hlt => ?_
  obtain ⟨-, -, u, -, -, -, -, -, hwaits⟩ := hpunctual.settles hrun hstart hlt
  have hmoment : alarm.moment ∈ t.alarm?.map Alarm.moment := by simp [ht]
  exact Nat.lt_irrefl _ (hwaits _ hmoment)

theorem retrieving_alarm? {x : Retrieval α} {d : Duration} (hfinds : w.Finds h flow n)
    (htimeout : x.timeout = some d) : ∃ alarm, (w.retrieving c x h).alarm? = some alarm ∧
      alarm.moment = w.after d := by
  rw [retrieving, hfinds.pose c x, htimeout]
  exact ⟨_, rfl, rfl⟩

/-! ## The promise -/

/-- What is promised about the retrievals of the stage at a position, for which a handle stands in
the state `w`. -/
structure Coherent (c : Completer) (w : World) (h : Handle) (flow n : Nat) : Prop where
  /-- What there is to be retrieved of a result: the value of a success, an error that tells that it
  cannot be read, or the failure with its datum. -/
  results : ∀ {α : Type} (codec : Codec α) (o : Outcome),
    (∃ d, o = .success d ∧ o.retrieve codec = d.decodeWith codec ∧
      ((∃ a, o.retrieve codec = .ok a) ∨ ∃ e, o.retrieve codec = .error (.codec e))) ∨
    ∃ d, o = .failure d ∧ o.retrieve codec = .error (.stageFailure d)
  /-- To retrieve is to make the call, and to go on in some later state. -/
  retrieves : ∀ {α : Type} (x : Retrieval α) (w' : World) (a : Except FlowError α),
    Retrieves c x h w w' a ↔
      ∃ es, w.run c es = some w' ∧ w'.resume? (w.retrieving c x h) = some a
  /-- Once the stage has ended, and as long as the flow is known, every retrieval gives what it
  makes of the result, at once and whenever the caller goes on. -/
  ended : ∀ {o : Outcome}, w.outcome? flow n = some o → ∀ {es : List Event} {w' : World},
    w.run c es = some w' → w'.Known flow → ∀ {α : Type} (x : Retrieval α),
      Retrieves c x h w' w' (x.gives o) ∧
        ∀ w'' a, Retrieves c x h w' w'' a → a = x.gives o
  /-- As long as the stage is pending, the default is there at once. -/
  now : w.outcome? flow n = none → ∀ {α : Type} (default : α) (codec : Codec α)
    (a : Except FlowError α), Retrieves c (.getNow default codec) h w w a ↔ a = .ok default
  /-- Whose stage ends before the time is over retrieves its result, whenever he goes on. -/
  before : ∀ {α : Type} (d : Duration) (codec : Codec α) {es : List Event} {u v : World}
    {a : Except FlowError α} {o : Outcome},
    (w.beside c (w.retrieving c (.getTimeout d codec) h)).Visits es u →
    (w.beside c (w.retrieving c (.getTimeout d codec) h)).Visits es v →
    u.resume? (w.retrieving c (.getTimeout d codec) h) = some a →
    v.outcome? flow n = some o → v.clock < w.after d → a = o.retrieve codec
  /-- Whose stage is still pending after the time is over retrieves a timeout, if he has attended to
  it until he has gone on. -/
  late : ∀ {α : Type} (d : Duration) (codec : Codec α) {first rest : List Event} {u v : World}
    {a : Except FlowError α},
    (w.beside c (w.retrieving c (.getTimeout d codec) h)).Punctual w first →
    w.run c first = some u → u.resume? (w.retrieving c (.getTimeout d codec) h) = some a →
    (w.beside c (w.retrieving c (.getTimeout d codec) h)).Visits (first ++ rest) v →
    v.outcome? flow n = none → w.after d < v.clock → a = .error (.timeout h.stage)
  /-- Who attends to it can go on when the stage has ended, or else when the time is over, and the
  clock does not get further before he does. -/
  prompt : ∀ {α : Type} (d : Duration) (codec : Codec α) {es : List Event} {v : World},
    (w.beside c (w.retrieving c (.getTimeout d codec) h)).Punctual w es →
    w.run c es = some v → v.clock ≤ w.after d ∧
      ((∃ o, v.outcome? flow n = some o) ∨ v.clock = w.after d →
        ∃ a, v.resume? (w.retrieving c (.getTimeout d codec) h) = some a)
  /-- To make the call of a retrieval lets a body go on, and changes nothing else. -/
  inert : ∀ {α : Type} (x : Retrieval α) {who : Conductor} {w' : World},
    Asks c w (.call (x.request h)) who w' → GoesOn w who w'

/-- The retrievals of a stage that is there agree with one another. -/
theorem retrievals_coherent (c : Completer) (w : World) (h : Handle) (flow n : Nat)
    (hfinds : w.Finds h flow n) : Coherent c w h flow n where
  results := by
    intro α codec o
    cases o with
    | success d => exact .inl ⟨d, rfl, rfl, d.decodeWith_cases codec⟩
    | failure d => exact .inr ⟨d, rfl, rfl⟩
  retrieves _ _ _ := retrieves_iff hfinds
  ended := by
    intro o ho es w' hrun hknown α x
    have hiff (a : Except FlowError α) := retrieves_iff_of_outcome (c := c) (x := x) (a := a)
      (hfinds.run hrun hknown) (outcome?_of_run hrun ho)
    rw [x.conclude_ok] at hiff
    refine ⟨(retrieves_iff (hfinds.run hrun hknown)).mpr ⟨[], rfl, ?_⟩,
      fun w'' a hret => (hiff a).mp ⟨w'', hret⟩⟩
    exact (resume?_retrieving (hfinds.run hrun hknown)).mpr
      (.inl ⟨o, outcome?_of_run hrun ho, rfl⟩)
  now := by
    intro hpending α default codec a
    have hrun : w.run c [] = some w := rfl
    exact retrieves_iff_of_pending hfinds hrun hpending rfl (Nat.le_refl _)
  before := by
    intro α d codec es u v a o hu hv hresume ho hclock
    -- The caller has gone on before the stage ended, or he goes on afterwards.
    rcases hu.linked hv with hpasses | hpasses
    · rcases (resume?_retrieving hfinds).mp hresume with ⟨o', ho', ha⟩ | ⟨-, ⟨d', hd', hover⟩, -⟩
      · obtain ⟨es', hrun⟩ := hpasses.run
        obtain rfl := Option.some.inj ((outcome?_of_run hrun ho').symm.trans ho)
        exact ha
      · obtain rfl := Option.some.inj hd'
        exact absurd hpasses.clock_le (Nat.not_le_of_lt (Nat.lt_of_lt_of_le hclock hover))
    · obtain ⟨es', hrun⟩ := hpasses.run
      rcases (resume?_retrieving hfinds).mp hresume with ⟨o', ho', ha⟩ | ⟨hnone, -, -⟩
      · obtain rfl := Option.some.inj ((outcome?_of_run hrun ho).symm.trans ho')
        exact ha
      · cases (outcome?_of_run hrun ho).symm.trans hnone
  late := by
    intro α d codec first rest u v a hpunctual hrun hresume hv hpending hclock
    obtain ⟨alarm, halarm, hmoment⟩ := retrieving_alarm? (c := c)
      (x := .getTimeout d codec) hfinds rfl
    have hle : u.clock ≤ alarm.moment := by
      refine clock_le_of_beside halarm ?_ hpunctual hrun
      rw [hmoment]
      exact Nat.le_add_right _ _
    have hu : (w.beside c (w.retrieving c (.getTimeout d codec) h)).Visits (first ++ rest) u :=
      ⟨first, rest, rfl, hrun⟩
    have hlt : u.clock < v.clock := Nat.lt_of_le_of_lt (hmoment ▸ hle) hclock
    obtain ⟨es', hrun'⟩ := (hu.passes_of_lt hv hlt).run
    rcases (resume?_retrieving hfinds).mp hresume with ⟨o, ho, -⟩ | ⟨-, -, ha⟩
    · cases (outcome?_of_run hrun' ho).symm.trans hpending
    · exact ha
  prompt := by
    intro α d codec es v hpunctual hrun
    obtain ⟨alarm, halarm, hmoment⟩ := retrieving_alarm? (c := c)
      (x := .getTimeout d codec) hfinds rfl
    have hle : v.clock ≤ alarm.moment := by
      refine clock_le_of_beside halarm ?_ hpunctual hrun
      rw [hmoment]
      exact Nat.le_add_right _ _
    refine ⟨hmoment ▸ hle, ?_⟩
    intro hready
    cases ho : v.outcome? flow n with
    | some o => exact ⟨_, (resume?_retrieving hfinds).mpr (.inl ⟨o, ho, rfl⟩)⟩
    | none =>
        rcases hready with ⟨o, ho'⟩ | hdue
        · cases ho.symm.trans ho'
        · exact ⟨_, (resume?_retrieving hfinds).mpr (.inr ⟨ho, ⟨d, rfl, hdue.ge⟩, rfl⟩)⟩
  inert := by
    intro α x who w' hasks
    exact hasks.goesOn rfl

/-- A flow with a stage that has failed because some time was over, and one that waits a second. -/
def lateAndWaiting : List Event :=
  [.call (.createFlow "f"),
    .call (.addCompleted ⟨"0"⟩ (.failure (.failure .stageTimeout "too late"))),
    .call (.addDelay ⟨"0"⟩ (.ofSeconds 1))]

@[inherit_doc lateAndWaiting]
def lateAndWaitingState : World := (World.empty.run .plain lateAndWaiting).getD .empty

/-- A stage that has failed with a timeout of its own gives this failure, and not the default; a
stage that is pending gives the default. -/
theorem retrievals_coherent_late :
    lateAndWaitingState.Finds ⟨⟨"0"⟩, ⟨"0"⟩⟩ 0 0 ∧
      Retrieves .plain (.getNow true .bool) ⟨⟨"0"⟩, ⟨"0"⟩⟩ lateAndWaitingState
        lateAndWaitingState (.error (.stageFailure (.failure .stageTimeout "too late"))) ∧
      lateAndWaitingState.Finds ⟨⟨"0"⟩, ⟨"1"⟩⟩ 0 1 ∧
      Retrieves .plain (.getNow true .bool) ⟨⟨"0"⟩, ⟨"1"⟩⟩ lateAndWaitingState
        lateAndWaitingState (.ok true) := by
  have hlate : lateAndWaitingState.Finds ⟨⟨"0"⟩, ⟨"0"⟩⟩ 0 0 := ⟨_, rfl, rfl⟩
  have hwaiting : lateAndWaitingState.Finds ⟨⟨"0"⟩, ⟨"1"⟩⟩ 0 1 := ⟨_, rfl, rfl⟩
  have hrun : lateAndWaitingState.run .plain [] = some lateAndWaitingState := rfl
  refine ⟨hlate, ?_, hwaiting, ?_⟩
  · exact ((retrievals_coherent .plain _ _ 0 0 hlate).ended rfl hrun ⟨_, rfl, rfl⟩
      (.getNow true .bool)).1
  · exact ((retrievals_coherent .plain _ _ 0 1 hwaiting).now rfl true .bool (.ok true)).mpr rfl

end World

end StageGraph
