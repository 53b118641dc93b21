/-
# `StageGraph.Proofs.StageNames` — which strings name the stages of a flow

A stage is named by its position, printed in decimal, and a name is looked up by reading a
number from it.  Reading is more generous than printing: a plus sign and zeros before the
number do no harm.  So the stages of a flow are in order the stages that its successful calls
have made (`World.granted_of_run`), every string that is made up from one of the names in this
way stands for the same stage as the name does (`StageId.Spells`), and no other string stands
for anything.  Among the strings without a plus sign and idle zeros a stage has one name only.

There are three ways to look a name up: to wait for a stage, to make it the input of another
one, and to give it as the stage to be adopted.  They agree (`World.LooksUp`).

A position is read into 64 bits.  There are no more stages in a flow than that.
-/
import StageGraph.Proofs.OtherFlows
import StageGraph.Proofs.Collection
import Mathlib.Data.List.Nodup

namespace StageGraph

/-! ## Numerals -/

namespace Integer

theorem isDigit_of_digit? {c : Char} {d : Nat} (h : digit? c = some d) : c.isDigit := by
  obtain ⟨hc, -⟩ := Option.ite_none_right_eq_some.mp h
  simp only [Char.isDigit, Bool.and_eq_true, decide_eq_true_eq]
  exact hc

theorem isDigit_of_readDigits {limit n k : Nat} {tooFar : Fault} {cs : List Char}
    (h : readDigits limit tooFar n cs = .ok k) : ∀ c ∈ cs, c.isDigit := by
  induction cs generalizing n with
  | nil => exact fun c hc => absurd hc List.not_mem_nil
  | cons c cs ih =>
      rw [readDigits] at h
      cases hd : digit? c with
      | none => rw [hd] at h; cases h
      | some d =>
          simp only [hd] at h
          intro c' hc'
          rcases List.mem_cons.mp hc' with rfl | hc'
          · exact isDigit_of_digit? hd
          · split at h
            · cases h
            · exact ih h c' hc'

theorem foldl_digits (cs : List Char) :
    (cs.map fun c => c.toNat - 48).foldl (fun n d => n * 10 + d) 0 = Nat.ofDigitChars 10 cs 0 := by
  rw [Nat.ofDigitChars_eq_foldl, List.foldl_map]
  simp only [Nat.mul_comm, show '0'.toNat = 48 from rfl]

/-- Digits are what is printed for their value, after some zeros. -/
theorem digits_eq {cs : List Char} (hdigits : ∀ c ∈ cs, c.isDigit) (hne : cs ≠ []) :
    ∃ zeros, cs = List.replicate zeros '0' ++ Nat.toDigits 10 (Nat.ofDigitChars 10 cs 0) := by
  induction cs using List.reverseRecOn with
  | nil => exact absurd rfl hne
  | append_singleton cs c ih =>
      have hc : c.isDigit := hdigits c (by simp)
      obtain ⟨hlow, hhigh⟩ := Json.toNat_of_isDigit hc
      have hsmall : c.toNat - 48 < 10 := by omega
      have hchar : (c.toNat - 48).digitChar = c := by
        have hvalue : ∀ d < 10, (Nat.digitChar d).toNat = 48 + d := by decide
        refine Char.toNat_inj.mp ?_
        rw [hvalue _ hsmall]
        omega
      have hlast : Nat.toDigits 10 (c.toNat - 48) = [c] := by
        rw [Nat.toDigits_of_lt_base hsmall, hchar]
      have hvalue : Nat.ofDigitChars 10 (cs ++ [c]) 0 =
          10 * Nat.ofDigitChars 10 cs 0 + (c.toNat - 48) := by
        simp [Nat.ofDigitChars_append, Nat.ofDigitChars_cons, Nat.ofDigitChars_nil]
      rw [hvalue]
      cases cs with
      | nil => exact ⟨0, by simp [Nat.ofDigitChars_nil, hlast]⟩
      | cons d ds =>
          obtain ⟨zeros, hzeros⟩ := ih (fun c hc => hdigits c (List.mem_append_left _ hc))
            (List.cons_ne_nil d ds)
          generalize Nat.ofDigitChars 10 (d :: ds) 0 = v at hzeros
          rw [hzeros]
          rcases Nat.eq_zero_or_pos v with rfl | hpos
          · -- What stands before the last digit is another zero.
            refine ⟨zeros + 1, ?_⟩
            rw [Nat.mul_zero, Nat.zero_add, hlast, Nat.toDigits_zero, List.replicate_succ']
          · refine ⟨zeros, ?_⟩
            rw [← Nat.toDigits_append_toDigits (by decide) hpos hsmall, hlast, List.append_assoc]

/-- A number of 64 bits is read from the strings that print it after some zeros. -/
theorem readNumeral_eq_some {cs : List Char} {n : Nat} (hne : cs ≠ []) :
    (readDigits (Nat.pow 2 64 - 1) .tooLarge 0 cs).toOption = some n ↔
      n < Nat.pow 2 64 ∧ ∃ zeros, cs = List.replicate zeros '0' ++ Nat.toDigits 10 n := by
  have hword : 0 < Nat.pow 2 64 := by decide
  have hread (hdigits : ∀ c ∈ cs, c.isDigit) :=
    readDigits_digits (Nat.pow 2 64 - 1) .tooLarge hdigits (Nat.zero_le _)
  constructor
  · intro h
    obtain ⟨k, hk⟩ : ∃ k, readDigits (Nat.pow 2 64 - 1) .tooLarge 0 cs = .ok k := by
      cases hk : readDigits (Nat.pow 2 64 - 1) .tooLarge 0 cs with
      | error e => rw [hk] at h; cases h
      | ok k => exact ⟨k, rfl⟩
    have hdigits := isDigit_of_readDigits hk
    rw [hread hdigits, foldl_digits] at h
    split at h
    · next hle =>
        obtain rfl := Option.some.inj h
        exact ⟨by omega, digits_eq hdigits hne⟩
    · cases h
  · rintro ⟨hn, zeros, rfl⟩
    have hdigits : ∀ c ∈ List.replicate zeros '0' ++ Nat.toDigits 10 n, c.isDigit := by
      intro c hc
      rcases List.mem_append.mp hc with hc | hc
      · rw [List.eq_of_mem_replicate hc]
        rfl
      · exact Json.isDigit_of_mem_toDigits n c hc
    have hvalue : Nat.ofDigitChars 10 (List.replicate zeros '0' ++ Nat.toDigits 10 n) 0 = n := by
      rw [Nat.ofDigitChars_append, Nat.ofDigitChars_replicate_zero]
      simp
    rw [hread hdigits, foldl_digits, hvalue, if_pos (by omega)]
    rfl

/-- The strings from which an index is read: a plus sign or none, zeros or none, and what is
printed for it. -/
theorem readIndex?_eq_some {cs : List Char} {n : Nat} :
    readIndex? cs = some n ↔ n < Nat.pow 2 64 ∧ ∃ plus zeros, (plus = [] ∨ plus = ['+']) ∧
      cs = plus ++ (List.replicate zeros '0' ++ Nat.toDigits 10 n) := by
  -- What follows an optional plus sign is not empty and begins with no plus sign.
  obtain ⟨d, ds, hprint, hdigit, -⟩ := Json.toDigits_cons n
  have hfirst (zeros : Nat) : ∃ c cs, c ≠ '+' ∧
      List.replicate zeros '0' ++ Nat.toDigits 10 n = c :: cs := by
    cases zeros with
    | zero =>
        refine ⟨d, ds, ?_, hprint⟩
        rintro rfl
        cases hdigit
    | succ zeros => exact ⟨'0', _, by decide, rfl⟩
  have hplain {c : Char} {rest : List Char} (hc : c ≠ '+') : readIndex? (c :: rest) =
      (readDigits (Nat.pow 2 64 - 1) .tooLarge 0 (c :: rest)).toOption := by
    unfold readIndex?
    split
    · next h => cases h
    · next h => cases h; exact absurd rfl hc
    · next h => cases h; exact absurd rfl hc
    · next h => rfl
  constructor
  · intro h
    cases cs with
    | nil => cases h
    | cons c rest =>
        by_cases hc : c = '+'
        · subst hc
          cases rest with
          | nil => cases h
          | cons d ds =>
              obtain ⟨hn, zeros, hzeros⟩ := (readNumeral_eq_some (List.cons_ne_nil d ds)).mp h
              exact ⟨hn, ['+'], zeros, .inr rfl, by rw [← hzeros]; rfl⟩
        · rw [hplain hc] at h
          obtain ⟨hn, zeros, hzeros⟩ := (readNumeral_eq_some (List.cons_ne_nil c rest)).mp h
          exact ⟨hn, [], zeros, .inl rfl, hzeros⟩
  · rintro ⟨hn, plus, zeros, hplus, rfl⟩
    obtain ⟨c, rest, hc, hcons⟩ := hfirst zeros
    have hread := (readNumeral_eq_some (n := n) (List.cons_ne_nil c rest)).mpr
      ⟨hn, zeros, hcons.symm⟩
    rcases hplus with rfl | rfl
    · rw [List.nil_append, hcons, hplain hc]
      exact hread
    · rw [hcons]
      exact hread

end Integer

/-! ## Spellings -/

namespace StageId

/-- The string is `id`, perhaps after a plus sign and zeros. -/
def Spells (s id : StageId) : Prop :=
  ∃ plus zeros, (plus = [] ∨ plus = ['+']) ∧
    s.text.toList = plus ++ (List.replicate zeros '0' ++ id.text.toList)

/-- The string has no plus sign in front, and no zero unless it is nothing else. -/
def Plain (s : StageId) : Prop :=
  s.text.toList.head? ≠ some '+' ∧ (s.text.toList.head? = some '0' → s.text.toList = ['0'])

theorem Spells.refl (s : StageId) : s.Spells s := ⟨[], 0, .inl rfl, rfl⟩

theorem eq_of_toList {s t : StageId} (h : s.text.toList = t.text.toList) : s = t := by
  cases s
  cases t
  exact congrArg StageId.mk (String.toList_inj.mp h)

end StageId

namespace Graph

variable {g : Graph} {n k : Nat} {s : StageId}

theorem stageName_plain (n : Nat) : (stageName n).Plain := by
  rw [StageId.Plain, toList_stageName]
  obtain ⟨c, cs, hprint, hdigit, hlead⟩ := Json.toDigits_cons n
  rw [hprint]
  refine ⟨?_, ?_⟩
  · rintro ⟨rfl⟩
    cases hdigit
  · rintro ⟨rfl⟩
    rcases Nat.eq_zero_or_pos n with rfl | hpos
    · rw [← hprint, Nat.toDigits_zero]
    · exact absurd rfl (hlead hpos)

/-- A plain string spells a name only if it is the name. -/
theorem spells_stageName (hplain : s.Plain) : s.Spells (stageName n) ↔ s = stageName n := by
  refine ⟨?_, fun h => h ▸ .refl s⟩
  rintro ⟨plus, zeros, hplus, hs⟩
  refine StageId.eq_of_toList ?_
  rcases hplus with rfl | rfl
  · rw [List.nil_append] at hs
    cases zeros with
    | zero => exact hs
    | succ zeros =>
        -- A zero in front would have to be the whole string, but a digit follows.
        have hzero : s.text.toList = ['0'] := hplain.2 (by rw [hs]; rfl)
        rw [hs, toList_stageName] at hzero
        simp [List.replicate_succ, Nat.toDigits_ne_nil] at hzero
  · exact absurd (by rw [hs]; rfl) hplain.1

/-- A name stands for a stage that is there, if it spells the stage's own name. -/
theorem slot?_iff (hfits : g.stages.length ≤ Nat.pow 2 64) :
    g.slot? s = .ok k ↔ k < g.stages.length ∧ s.Spells (stageName k) := by
  simp only [StageId.Spells, toList_stageName]
  constructor
  · intro h
    obtain ⟨hread, hlt⟩ := slot?_eq_ok h
    exact ⟨hlt, (Integer.readIndex?_eq_some.mp hread).2⟩
  · rintro ⟨hlt, hspells⟩
    have hread := Integer.readIndex?_eq_some.mpr ⟨Nat.lt_of_lt_of_le hlt hfits, hspells⟩
    simp only [slot?, hread, if_pos hlt]

/-- A name that stands for no stage is unknown, and the flow and the name are told. -/
theorem slot?_of_unknown (h : ∀ k, g.slot? s ≠ .ok k) :
    g.slot? s = .error (.unknownStage g.id s) := by
  cases hslot : g.slot? s with
  | ok k => exact absurd hslot (h k)
  | error e => rw [(slot?_eq_error hslot).1]

end Graph

/-! ## The calls that make stages -/

namespace World

variable {c : Completer} {w w' : World} {flow n k : Nat} {g g' : Graph} {id : StageId}
  {r : Request} {e : Event} {es : List Event}

/-- The body that a task runs, if it runs one. -/
def body? (w : World) : TaskId → Option BodyThread
  | .stage flow n =>
    match w.stage? flow n with
    | some ⟨_, _, _, .running t _⟩ => some t
    | _ => none
  | .hooks flow k => w.hookThread? flow k

/-- The call that is made in an event. -/
def request? (w : World) : Event → Option Request
  | .call r => some r
  | .task id =>
    match (w.body? id).bind w.resume? with
    | some (.ask (.call r) _) => some r
    | _ => none
  | _ => none

/-- The position of a flow, and the name given to a stage that has been made. -/
def named? (found : Except FlowError (Nat × Graph)) (answer : Except FlowError StageId) :
    Option (Nat × StageId) :=
  match found, answer with
  | .ok (flow, _), .ok id => some (flow, id)
  | _, _ => none

/-- The flow for which a call makes a stage, and the name that it returns. -/
def grant? (w : World) : Request → Option (Nat × StageId)
  | .addStage flow r => named? (w.find flow) (w.addStage flow r).2
  | .addCompleted flow o => named? (w.find flow) (w.addCompleted flow o).2
  | .addDelay flow d => named? (w.find flow) (w.addDelay flow d).2
  | _ => none

/-- The names that an event returns for new stages of the flow at a position. -/
def grants (w : World) (flow : Nat) (e : Event) : List StageId :=
  match (w.request? e).bind w.grant? with
  | some (flow', id) => if flow' = flow then [id] else []
  | none => []

/-- The names that a run returns for new stages of the flow at a position, in their order. -/
def granted (c : Completer) (flow : Nat) (w : World) : List Event → List StageId
  | [] => []
  | e :: es =>
    w.grants flow e ++
      match w.fire c e with
      | some w' => w'.granted c flow es
      | none => []

/-- The stage that a call asks for. -/
inductive Wants (w : World) (g : Graph) : Request → Stage → Prop
  | resolved {flow : FlowId} {r : StageRequest} {deps : List Nat} :
      List.Forall₂ (fun d n => g.slot? d = .ok n) r.deps deps →
      Wants w g (.addStage flow r) ⟨r.operation, r.closure, deps, .initial r.operation deps⟩
  | completed (flow : FlowId) (o : Outcome) :
      Wants w g (.addCompleted flow o) ⟨.completedValue, none, [], .ended o⟩
  | delay (flow : FlowId) (d : Duration) :
      Wants w g (.addDelay flow d) ⟨.delay, none, [], .delayed (w.after d)⟩

theorem named?_eq_some {found : Except FlowError (Nat × Graph)}
    {answer : Except FlowError StageId} (h : named? found answer = some (flow, id)) :
    (∃ g, found = .ok (flow, g)) ∧ answer = .ok id := by
  unfold named? at h
  split at h
  · cases h
    exact ⟨⟨_, rfl⟩, rfl⟩
  · cases h

/-- A call that has made a stage: the stage that was asked for has been added to its graph. -/
theorem grant?_eq_some (c : Completer) (h : w.grant? r = some (flow, id)) :
    ∃ g s g', w.graph? flow = some g ∧ w.Wants g r s ∧ g.allocate s = .ok (g', id) ∧
      (w.call c r).1 = w.setGraph flow g' := by
  have allocated {fid : FlowId} {s : Stage} (hok : ∃ g, w.find fid = .ok (flow, g))
      (hanswer : (w.change fid fun g => g.allocate s).2 = .ok id) :
      ∃ g g', w.graph? flow = some g ∧ g.allocate s = .ok (g', id) ∧
        (w.change fid fun g => g.allocate s).1 = w.setGraph flow g' := by
    obtain ⟨g, hfind⟩ := hok
    rcases w.change_cases fid (fun g => g.allocate s) with
      ⟨-, e, he⟩ | ⟨flow', g₁, g', id', hfind', hallocate, hw⟩
    · rw [he] at hanswer
      cases hanswer
    · rw [hfind] at hfind'
      cases hfind'
      rw [hw] at hanswer ⊢
      cases hanswer
      exact ⟨g, g', (graph?_of_find hfind).1, hallocate, rfl⟩
  cases r with
  | addStage fid r =>
      obtain ⟨⟨g, hfind⟩, hanswer⟩ := named?_eq_some h
      obtain ⟨flow', g₁, deps, g', hfind', -, hdeps, hallocate, hw⟩ := addStage_eq_ok hanswer
      rw [hfind] at hfind'
      cases hfind'
      exact ⟨g, _, g', (graph?_of_find hfind).1, .resolved (mapM_eq_ok.mp hdeps), hallocate, hw⟩
  | addCompleted fid o =>
      obtain ⟨hfind, hanswer⟩ := named?_eq_some h
      obtain ⟨g, g', hg, hallocate, hw⟩ := allocated hfind hanswer
      exact ⟨g, _, g', hg, .completed fid o, hallocate, hw⟩
  | addDelay fid d =>
      obtain ⟨hfind, hanswer⟩ := named?_eq_some h
      obtain ⟨g, g', hg, hallocate, hw⟩ := allocated hfind hanswer
      exact ⟨g, _, g', hg, .delay fid d, hallocate, hw⟩
  | createFlow function => cases h
  | awaitStage fid stage timeout => cases h
  | addHook fid closure => cases h
  | commit fid s => cases h

/-! ## Events that make no stage -/

theorem size_setGraph (hg : w.graph? flow = some g)
    (hlength : g'.stages.length = g.stages.length) (m : Nat) :
    (w.setGraph flow g').size m = w.size m := by
  by_cases hm : flow = m
  · subst hm
    rw [size, size, graph?_setGraph_self hg, hg, Option.map_some, Option.map_some, hlength]
  · rw [size, size, graph?_setGraph_ne hm]

theorem size_change {α : Type} {fid : FlowId} {f : Graph → Except FlowError (Graph × α)}
    (hf : ∀ {g g' a}, f g = .ok (g', a) → g'.stages.length = g.stages.length) (m : Nat) :
    (w.change fid f).1.size m = w.size m := by
  rcases w.change_cases fid f with ⟨hw, -⟩ | ⟨n, g, g', a, hfind, hfg, hw⟩
  · rw [hw]
  · rw [hw, size_setGraph (graph?_of_find hfind).1 (hf hfg)]

theorem size_removeFlow (w : World) (fid : FlowId) (m : Nat) :
    (w.removeFlow fid).1.size m = w.size m := by
  refine size_change ?_ m
  intro g g' a h
  split at h
  · cases h; rfl
  · cases h

/-- A step of a task makes stages only by a question of its body. -/
theorem size_of_task {task : TaskId} (h : w.fire c (.task task) = some w') :
    (∀ m, w'.size m = w.size m) ∨
      ∃ who q, who.event? = some (.task task) ∧ w.Asks c q who w' := by
  cases fire_eq_some_iff.mp h with
  | @stage flow n _ g₁ _ m _ hacts =>
      cases move?_eq_some_iff.mp hacts.move with
      | ask hphase hresume =>
          have hs := (stage?_of_graph hacts.graph).trans hacts.stage
          exact .inr ⟨.stage flow n, _, rfl, .stage hs hphase hresume h⟩
      | _ => exact .inl (size_setGraph hacts.graph₁ (Graph.move_stages_length c g₁ n _))
  | begin hg | skip hg => exact .inl (size_setGraph hg rfl)
  | @drain flow k _ _ _ _ m _ hacts =>
      cases drainMove?_eq_some_iff.mp hacts.move with
      | ask hrunning hresume =>
          exact .inr ⟨.hook flow k, _, rfl, .hook hacts.graph hacts.task hrunning hresume h⟩
      | _ => exact .inl (size_setGraph hacts.graph₁ rfl)

theorem request?_of_asks {who : Conductor} (h : w.Asks c (.call r) who w')
    (he : who.event? = some e) : w.request? e = some r := by
  cases h with
  | outside => cases he
  | @stage flow n s t forward next w' hs hphase hresume hfire =>
      cases he
      obtain ⟨op, closure, deps, phase⟩ := s
      obtain rfl : phase = .running t forward := hphase
      simp only [request?, body?, hs, Option.bind_some, hresume]
  | hook hg hk hrunning hresume hfire =>
      cases he
      have hbody := (hookThread?_of_graph hg).trans (Graph.hookThread?_of_draining hk hrunning)
      simp only [request?, body?, hbody, Option.bind_some, hresume]

/-- The call that is made in an event is a question of somebody. -/
theorem asks_of_request? (h : w.fire c e = some w') (hr : w.request? e = some r) :
    ∃ who, w.Asks c (.call r) who w' := by
  cases e with
  | call r' =>
      obtain rfl := Option.some.inj hr
      obtain rfl := Option.some.inj h
      exact ⟨.outside, .outside⟩
  | task task =>
      simp only [request?] at hr
      split at hr
      case h_2 => cases hr
      next r' next hbody =>
      obtain rfl := Option.some.inj hr
      obtain ⟨t, ht, hresume⟩ := Option.bind_eq_some_iff.mp hbody
      cases task with
      | stage flow n =>
          simp only [body?] at ht
          split at ht
          case h_2 => cases ht
          next op closure deps t' forward hs =>
          obtain rfl := Option.some.inj ht
          exact ⟨_, .stage hs rfl hresume h⟩
      | hooks flow k =>
          obtain ⟨g, hg, ht⟩ := Option.bind_eq_some_iff.mp ht
          obtain ⟨task, hk, ht⟩ := Option.bind_eq_some_iff.mp ht
          cases task with
          | due s => cases ht
          | finished => cases ht
          | draining d publish =>
              obtain ⟨running, hrunning, rfl⟩ := Option.map_eq_some_iff.mp ht
              exact ⟨_, .hook hg hk hrunning hresume h⟩
  | removeFlow fid => cases hr
  | clock moment => cases hr
  | log line => cases hr
  | ran entry => cases hr

/-! ## Counting stages along a run -/

/-- How many stages the flow at a position has, if it is there. -/
def total (w : World) (flow : Nat) : Nat := (w.size flow).getD 0

theorem total_of_graph (hg : w.graph? flow = some g) : w.total flow = g.stages.length := by
  rw [total, size, hg]
  rfl

theorem SameStages.size {who : Conductor} (h : SameStages who w w') (m : Nat) :
    w'.size m = w.size m := by
  cases hg : w.graph? m with
  | none => rw [World.size, World.size, hg, h.fresh m hg]
  | some g =>
      obtain ⟨g', hg', -, hlength, -⟩ := h.old m g hg
      rw [World.size, World.size, hg, hg', Option.map_some, Option.map_some, hlength]

theorem total_createFlow (c : Completer) (w : World) (m : Nat) :
    (w.createFlow c).1.total m = w.total m := by
  simp only [total, size, graph?, createFlow]
  by_cases hm : m < w.graphs.length
  · rw [List.getElem?_append_left hm]
  · have hnone : w.graphs[m]? = none := List.getElem?_eq_none (Nat.not_lt.mp hm)
    rw [List.getElem?_append_right (Nat.not_lt.mp hm), hnone]
    cases m - w.graphs.length <;> rfl

/-- A call that returns no name of a new stage has made none. -/
theorem total_of_no_grant (c : Completer) (h : w.grant? r = none) (m : Nat) :
    (w.call c r).1.total m = w.total m := by
  have failed {fid : FlowId} {f : Graph → Except FlowError (Graph × StageId)}
      (h : named? (w.find fid) (w.change fid f).2 = none) : (w.change fid f).1 = w := by
    rcases w.change_cases fid f with ⟨hw, -⟩ | ⟨n, g, g', id, hfind, -, hw⟩
    · exact hw
    · rw [hfind, hw] at h
      cases h
  cases r with
  | createFlow function => exact total_createFlow c w m
  | addStage fid r =>
      have hsame : (w.addStage fid r).1 = w := by
        simp only [grant?, addStage] at h ⊢
        cases hr : checkRequest r with
        | error e => rfl
        | ok u =>
            rw [hr] at h
            exact failed h
      exact congrArg (total · m) hsame
  | addCompleted fid o => exact congrArg (total · m) (failed h)
  | addDelay fid d => exact congrArg (total · m) (failed h)
  | awaitStage fid stage timeout => rfl
  | addHook fid closure =>
      have hsize : (w.addHook fid closure).1.size m = w.size m := by
        refine size_change ?_ m
        intro g g' a h
        cases h
        rw [Graph.addHook_eq]
      exact congrArg (Option.getD · 0) hsize
  | commit fid s =>
      have hsize : (w.commit fid s).1.size m = w.size m := by
        refine size_change ?_ m
        intro g g' a h
        cases hcommit : g.commit s with
        | error e => rw [hcommit] at h; cases h
        | ok g₁ =>
            rw [hcommit] at h
            cases h
            rw [(Graph.commit_eq_ok hcommit).2, Graph.endIfDue_stages]
      exact congrArg (Option.getD · 0) hsize

/-- An event in which no call is made makes no stage. -/
theorem size_of_no_request (h : w.fire c e = some w') (hr : w.request? e = none) (m : Nat) :
    w'.size m = w.size m := by
  cases e with
  | call r => cases hr
  | removeFlow fid =>
      obtain rfl := Option.some.inj h
      exact size_removeFlow w fid m
  | clock | log | ran =>
      cases fire_eq_some_iff.mp h
      rfl
  | task task =>
      rcases size_of_task h with hsame | ⟨who, q, hevent, hasks⟩
      · exact hsame m
      · rw [hasks.sameStages.size m]
        cases q with
        | call r =>
            rw [request?_of_asks hasks hevent] at hr
            cases hr
        | other q => cases q with | removeFlow fid => exact size_removeFlow w fid m
        | _ => rfl

/-- The names that an event returns are those of the stages that it makes. -/
theorem grants_of_fire (h : w.fire c e = some w') (flow : Nat) :
    (w.grants flow e = [] ∧ w'.total flow = w.total flow) ∨
      (w.grants flow e = [Graph.stageName (w.total flow)] ∧
        w'.total flow = w.total flow + 1) := by
  cases hr : w.request? e with
  | none => exact .inl ⟨by simp [grants, hr], by rw [total, size_of_no_request h hr, total]⟩
  | some r =>
      obtain ⟨who, hasks⟩ := asks_of_request? h hr
      cases hgrant : w.grant? r with
      | none =>
          refine .inl ⟨by simp [grants, hr, hgrant], ?_⟩
          rw [total, hasks.sameStages.size]
          exact total_of_no_grant c hgrant flow
      | some p =>
          obtain ⟨flow', id⟩ := p
          obtain ⟨g, s, g', hg, -, hallocate, hw⟩ := grant?_eq_some c hgrant
          obtain ⟨-, rfl, hg'⟩ := Graph.allocate_eq_ok hallocate
          have hadds : w.Adds w' flow' g.stages.length s := hasks.adds_of_set hw hg (by rw [hg'])
          have hgrants : w.grants flow e =
              if flow' = flow then [Graph.stageName g.stages.length] else [] := by
            simp [grants, hr, hgrant]
          by_cases hflow : flow' = flow
          · subst hflow
            rw [hgrants, if_pos rfl]
            refine .inr ⟨by rw [total_of_graph hg], ?_⟩
            rw [total, hadds.size, total_of_graph hg, size, hg]
            simp
          · rw [hgrants, if_neg hflow]
            refine .inl ⟨rfl, ?_⟩
            have hne : ¬flow = flow' := fun h => hflow h.symm
            rw [total, hadds.size, total]
            simp [hne]

/-- The names that a run returns are those of the stages that it makes, in their order. -/
theorem granted_of_run (h : w.run c es = some w') :
    (List.range (w.total flow)).map Graph.stageName ++ w.granted c flow es =
      (List.range (w'.total flow)).map Graph.stageName := by
  induction es generalizing w with
  | nil =>
      obtain rfl := Option.some.inj h
      exact List.append_nil _
  | cons e es ih =>
      obtain ⟨w₁, hfire, hrun⟩ := Option.bind_eq_some_iff.mp h
      rw [← ih hrun]
      simp only [granted, hfire]
      rcases grants_of_fire hfire flow with ⟨hgrants, htotal⟩ | ⟨hgrants, htotal⟩
      · rw [hgrants, htotal, List.nil_append]
      · rw [hgrants, htotal, List.range_succ, List.map_append, List.append_assoc]
        rfl

/-- On a flow with as many stages, a run from the beginning has returned their names. -/
theorem granted_of_graph (h : World.empty.run c es = some w) (hg : w.graph? flow = some g) :
    World.empty.granted c flow es = (List.range g.stages.length).map Graph.stageName := by
  rw [← total_of_graph hg, ← granted_of_run h]
  rfl

/-! ## Looking a name up -/

/-- Whichever way the name `s` is looked up in the graph of a flow, the answer is `a`. -/
structure LooksUp (w : World) (flow : Nat) (g : Graph) (s : StageId)
    (a : Except FlowError Nat) : Prop where
  /-- To wait for the stage. -/
  await : ∀ {fid : FlowId}, w.find fid = .ok (flow, g) → ∀ timeout, w.awaitStage fid s timeout =
    match a with
    | .ok k => .onStage flow k .ok (timeout.map fun d => ⟨w.after d, .error (.timeout s)⟩)
    | .error e => .going (.error e)
  /-- To make it an input of a new stage; the inputs before it are there. -/
  input : ∀ {fid : FlowId} {r : StageRequest} {before after : List StageId},
    w.find fid = .ok (flow, g) → r.Admissible → r.deps = before ++ s :: after →
    (∀ d ∈ before, ∃ k, g.slot? d = .ok k) →
    match a with
    | .ok k => (w.addStage fid r).2 ≠ .error (.unknownStage fid s) ∧
        ∀ id, (w.addStage fid r).2 = .ok id → ∃ new,
          (w.addStage fid r).1.stage? flow g.stages.length = some new ∧
            new.deps[before.length]? = some k
    | .error e => w.addStage fid r = (w, .error e)
  /-- To have it adopted, by a stage whose body has given it. -/
  adopt : ∀ {new : Stage}, new.operation.adopts →
    g.conclude new none (.success (.stageRef s)) =
      match a with
      | .ok k => .turn (.adopting k)
      | .error e => .finish (Report.ofFlow e).toOutcome

variable {s : StageId}

theorem looksUp_of_ok (hslot : g.slot? s = .ok k) : w.LooksUp flow g s (.ok k) where
  await hfind timeout := by simp only [awaitStage, hfind, hslot]
  input := by
    intro fid r before after hfind _ hdeps _
    refine ⟨?_, ?_⟩
    · intro herror
      cases addStage_eq_error.mp herror with
      | unknownStage _ hfind' _ _ hnone =>
          rw [hfind] at hfind'
          cases hfind'
          exact hnone k hslot
    · intro id hok
      obtain ⟨flow', g₁, deps, g', hfind', -, hmap, hallocate, hw⟩ := addStage_eq_ok hok
      rw [hfind] at hfind'
      cases hfind'
      obtain ⟨hg, -, -⟩ := graph?_of_find hfind
      obtain ⟨-, -, hg'⟩ := Graph.allocate_eq_ok hallocate
      refine ⟨⟨r.operation, r.closure, deps, .initial r.operation deps⟩, ?_, ?_⟩
      · rw [hw, stage?_of_graph (graph?_setGraph_self hg g'), hg']
        simp
      · have hall : List.Forall₂ (fun d n => g.slot? d = .ok n) (before ++ s :: after) deps :=
          hdeps ▸ mapM_eq_ok.mp hmap
        have hlt : before.length < (before ++ s :: after).length := by simp
        have hlt' : before.length < deps.length := hall.length_eq ▸ hlt
        have hposition : g.slot? s = .ok deps[before.length] := by
          simpa using hall.get hlt hlt'
        rw [List.getElem?_eq_getElem hlt', ← Except.ok.inj (hslot.symm.trans hposition)]
  adopt hadopts := by
    simp only [Graph.conclude, if_pos hadopts, Outcome.compose, hslot]

theorem looksUp_of_unknown (hnone : ∀ k, g.slot? s ≠ .ok k) :
    w.LooksUp flow g s (.error (.unknownStage g.id s)) where
  await hfind timeout := by
    simp only [awaitStage, hfind, Graph.slot?_of_unknown hnone]
  input := by
    intro fid r before after hfind hr hdeps hbefore
    obtain ⟨-, rfl, -⟩ := graph?_of_find hfind
    exact perform_of_refused (.unknownStage hr hfind hdeps hbefore hnone)
  adopt hadopts := by
    simp only [Graph.conclude, if_pos hadopts, Outcome.compose, Graph.slot?_of_unknown hnone]

/-! ## The names of a flow's stages -/

/-- Where `ids` are the names that a run has returned for the stages of a flow: which strings
name which of its stages. -/
structure Naming (c : Completer) (es : List Event) (w : World) (flow : Nat) (g : Graph)
    (ids : List StageId) : Prop where
  count : ids.length = g.stages.length
  distinct : ids.Nodup
  /-- The call that returned a name has made the stage at the position of this name. -/
  made : ∀ {first rest : List Event} {e : Event} {w₁ : World} {id : StageId},
    es = first ++ e :: rest → World.empty.run c first = some w₁ → id ∈ w₁.grants flow e →
    ∃ g₁ r s w₂ s', w₁.graph? flow = some g₁ ∧ w₁.request? e = some r ∧ w₁.Wants g₁ r s ∧
      w₁.fire c e = some w₂ ∧ w₁.Adds w₂ flow g₁.stages.length s ∧
      ids[g₁.stages.length]? = some id ∧
      g.stages[g₁.stages.length]? = some s' ∧ s'.recipe = s.recipe
  /-- A string that spells a name finds the stage of this name. -/
  found : ∀ {s id : StageId} {k : Nat}, ids[k]? = some id → s.Spells id →
    w.LooksUp flow g s (.ok k)
  /-- A string that spells no name finds nothing. -/
  unknown : ∀ {s : StageId}, (∀ id ∈ ids, ¬s.Spells id) →
    w.LooksUp flow g s (.error (.unknownStage g.id s))
  /-- The names are plain, and a plain string spells no name but itself. -/
  plain : ∀ id ∈ ids, id.Plain ∧ ∀ s : StageId, s.Plain → (s.Spells id ↔ s = id)

/-- An event that returns a name has made the stage of this name, as it was asked for. -/
theorem made_of_grants (hfire : w.fire c e = some w') (hid : id ∈ w.grants flow e) :
    ∃ g r s, w.graph? flow = some g ∧ w.request? e = some r ∧ w.Wants g r s ∧
      id = Graph.stageName g.stages.length ∧ w.Adds w' flow g.stages.length s := by
  cases hr : w.request? e with
  | none => simp [grants, hr] at hid
  | some r =>
      cases hgrant : w.grant? r with
      | none => simp [grants, hr, hgrant] at hid
      | some p =>
          obtain ⟨flow', id'⟩ := p
          simp only [grants, hr, hgrant, Option.bind_some, List.mem_ite_nil_right,
            List.mem_singleton] at hid
          obtain ⟨rfl, rfl⟩ := hid
          obtain ⟨who, hasks⟩ := asks_of_request? hfire hr
          obtain ⟨g, s, g', hg, hwants, hallocate, hw⟩ := grant?_eq_some c hgrant
          obtain ⟨-, rfl, hg'⟩ := Graph.allocate_eq_ok hallocate
          exact ⟨g, r, s, hg, rfl, hwants, rfl, hasks.adds_of_set hw hg (by rw [hg'])⟩

/-- In every state, the strings that name stages of a flow are those that spell a name which was
returned for one, and they name the stage that was made by the call which returned it. -/
theorem naming_of_run (hrun : World.empty.run c es = some w) (hg : w.graph? flow = some g)
    (hfits : g.stages.length ≤ Nat.pow 2 64) :
    Naming c es w flow g (World.empty.granted c flow es) := by
  have hids := granted_of_graph hrun hg
  have hat (k : Nat) (id : StageId) : (World.empty.granted c flow es)[k]? = some id ↔
      k < g.stages.length ∧ id = Graph.stageName k := by
    rw [hids, List.getElem?_map, Option.map_eq_some_iff]
    constructor
    · rintro ⟨k', hk', rfl⟩
      obtain ⟨hlt, rfl⟩ := List.getElem?_eq_some_iff.mp hk'
      simp only [List.length_range] at hlt
      simp [hlt]
    · rintro ⟨hlt, rfl⟩
      exact ⟨k, List.getElem?_range hlt, rfl⟩
  refine ⟨?count, ?distinct, ?made, ?found, ?unknown, ?plain⟩
  case count => rw [hids, List.length_map, List.length_range]
  case distinct =>
    rw [hids]
    exact List.Nodup.map Graph.stageName_injective List.nodup_range
  case made =>
    rintro first rest e w₁ id rfl hfirst hid
    rw [run_append, hfirst, Option.bind_some] at hrun
    obtain ⟨w₂, hfire, hrest⟩ := Option.bind_eq_some_iff.mp hrun
    obtain ⟨g₁, r, s, hg₁, hr, hwants, rfl, hadds⟩ := made_of_grants hfire hid
    obtain ⟨s', hs', hrecipe⟩ := recipe_of_run hrest hadds.stage
    rw [stage?_of_graph hg] at hs'
    have hlt := (List.getElem?_eq_some_iff.mp hs').1
    exact ⟨g₁, r, s, w₂, s', hg₁, hr, hwants, hfire, hadds, (hat _ _).mpr ⟨hlt, rfl⟩, hs', hrecipe⟩
  case found =>
    intro s id k hid hspells
    obtain ⟨hlt, rfl⟩ := (hat k id).mp hid
    exact looksUp_of_ok ((Graph.slot?_iff hfits).mpr ⟨hlt, hspells⟩)
  case unknown =>
    intro s hnone
    refine looksUp_of_unknown ?_
    intro k hslot
    obtain ⟨hlt, hspells⟩ := (Graph.slot?_iff hfits).mp hslot
    exact hnone _ (List.mem_of_getElem? ((hat k _).mpr ⟨hlt, rfl⟩)) hspells
  case plain =>
    intro id hid
    obtain ⟨k, hk⟩ := List.mem_iff_getElem?.mp hid
    obtain ⟨-, rfl⟩ := (hat k id).mp hk
    exact ⟨Graph.stageName_plain k, fun _ => Graph.spells_stageName⟩

/-- A flow with two stages, the second of which waits a second. -/
def twoStages : List Event :=
  [.call (.createFlow "f"), .call (.addCompleted ⟨"0"⟩ .empty),
    .call (.addDelay ⟨"0"⟩ (.ofSeconds 1))]

/-- With a plus sign or another zero the name of the first stage still names it, and with a minus
sign it does not. -/
theorem naming_of_run_twoStages :
    ∃ w g, World.empty.run .plain twoStages = some w ∧ w.graph? 0 = some g ∧
      g.stages.length ≤ Nat.pow 2 64 ∧ World.empty.granted .plain 0 twoStages = [⟨"0"⟩, ⟨"1"⟩] ∧
      w.LooksUp 0 g ⟨"+0"⟩ (.ok 0) ∧ w.LooksUp 0 g ⟨"00"⟩ (.ok 0) ∧
      w.LooksUp 0 g ⟨"-0"⟩ (.error (.unknownStage ⟨"0"⟩ ⟨"-0"⟩)) := by
  have hrun : World.empty.run .plain twoStages = some _ := rfl
  have hids : World.empty.granted .plain 0 twoStages = [⟨"0"⟩, ⟨"1"⟩] := by decide
  have hnaming := naming_of_run hrun (show World.graph? _ 0 = some _ from rfl) (by decide)
  rw [hids] at hnaming
  refine ⟨_, _, hrun, rfl, by decide, hids, ?_, ?_, ?_⟩
  · exact hnaming.found (k := 0) rfl ⟨['+'], 0, .inr rfl, rfl⟩
  · exact hnaming.found (k := 0) rfl ⟨[], 1, .inl rfl, rfl⟩
  · refine hnaming.unknown ?_
    intro id hid
    have hid : id = ⟨"0"⟩ ∨ id = ⟨"1"⟩ := by simpa using hid
    -- Neither the sign nor a zero of a spelling is a minus.
    rintro ⟨plus, zeros, hplus, hs⟩
    have hminus : '-' ∈ plus ++ (List.replicate zeros '0' ++ id.text.toList) := by
      rw [← hs]
      decide
    simp only [List.mem_append, List.mem_replicate] at hminus
    rcases hplus with rfl | rfl <;> rcases hid with rfl | rfl <;> simp at hminus

end World

end StageGraph
