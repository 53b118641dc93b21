/-
# `StageGraph.Proofs.Lists` — what the other modules use of lists

Facts about lists alone, which modules on calls, on runs and on documents have in common.
-/
import Mathlib.Data.List.Forall2

namespace StageGraph

/-! ## Going through a list -/

/-- The first element that is not as it should be, with those before it. -/
theorem exists_first {α : Type} {as : List α} {p : α → Prop} [DecidablePred p]
    (h : ∃ a ∈ as, ¬p a) :
    ∃ before a after, as = before ++ a :: after ∧ ¬p a ∧ ∀ b ∈ before, p b := by
  obtain ⟨a, ha⟩ : ∃ a, as.find? (fun a => !decide (p a)) = some a := by
    rw [← Option.isSome_iff_exists, List.find?_isSome]
    simpa using h
  obtain ⟨hnot, before, after, rfl, hbefore⟩ := List.find?_eq_some_iff_append.mp ha
  exact ⟨before, a, after, rfl, by simpa using hnot, by simpa using hbefore⟩

section Fallible

variable {α β ε : Type} {f : α → Except ε β} {l : List α} {ys : List β}

/-- A list is gone through up to the first element that fails. -/
theorem mapM_eq_error {e : ε} :
    l.mapM f = .error e ↔
      ∃ before x after, l = before ++ x :: after ∧ (∀ b ∈ before, ∃ y, f b = .ok y) ∧
        f x = .error e := by
  induction l with
  | nil => simp [pure, Except.pure]
  | cons y l ih =>
      rw [List.mapM_cons]
      simp only [List.cons_eq_append_iff]
      cases hy : f y with
      | error e' =>
          constructor
          · intro h
            cases h
            exact ⟨[], y, l, .inl ⟨rfl, rfl⟩, by simp, hy⟩
          · rintro ⟨before, x, after, ⟨rfl, h⟩ | ⟨before, rfl, -⟩, hbefore, hx⟩
            · cases h
              cases hy.symm.trans hx
              rfl
            · obtain ⟨z, hz⟩ := hbefore y List.mem_cons_self
              rw [hy] at hz
              cases hz
      | ok z =>
          have hrest : (do let ys ← l.mapM f; pure (z :: ys)) = Except.error e ↔
              l.mapM f = .error e := by
            cases l.mapM f <;> simp [bind, Except.bind, pure, Except.pure]
          refine hrest.trans (ih.trans ⟨?_, ?_⟩)
          · rintro ⟨before, x, after, rfl, hbefore, hx⟩
            refine ⟨y :: before, x, after, .inr ⟨before, rfl, rfl⟩, ?_, hx⟩
            intro b hb
            rcases List.mem_cons.mp hb with rfl | hb
            · exact ⟨z, hy⟩
            · exact hbefore b hb
          · rintro ⟨before, x, after, ⟨rfl, h⟩ | ⟨before, rfl, rfl⟩, hbefore, hx⟩
            · cases h
              rw [hy] at hx
              cases hx
            · exact ⟨before, x, after, rfl, fun b hb => hbefore b (List.mem_cons_of_mem _ hb), hx⟩

/-- Where nothing fails, every element has its result. -/
theorem mapM_eq_ok :
    l.mapM f = .ok ys ↔ List.Forall₂ (fun x y => f x = .ok y) l ys := by
  induction l generalizing ys with
  | nil => simp [pure, Except.pure, eq_comm]
  | cons x l ih =>
      rw [List.mapM_cons, List.forall₂_cons_left_iff]
      simp only [← ih]
      cases hx : f x with
      | error e => simp [bind, Except.bind]
      | ok y =>
          cases hl : l.mapM f with
          | error e => simp [bind, Except.bind]
          | ok zs => simp [bind, Except.bind, pure, Except.pure, eq_comm]

theorem ok_of_mapM (h : l.mapM f = .ok ys) : ∀ x ∈ l, ∃ y, f x = .ok y := by
  have hall := (mapM_eq_ok.mp h).imp fun x y hxy =>
    (⟨⟨y, hxy⟩, hxy⟩ : (∃ y, f x = .ok y) ∧ f x = .ok y)
  exact ((List.forall₂_and_left _ _).mp hall).1

end Fallible

/-! ## Single elements -/

/-- What goes with a list that has a last element. -/
theorem forall₂_concat {β γ : Type} {R : β → γ → Prop} {l : List β} {ys : List γ} {y : γ}
    (h : List.Forall₂ R l (ys ++ [y])) :
    ∃ xs x, l = xs ++ [x] ∧ List.Forall₂ R xs ys ∧ R x y := by
  have hfirst := List.forall₂_take_append l ys [y] h
  have hlast := List.forall₂_drop_append l ys [y] h
  obtain ⟨x, rest, hx, hrest, hdrop⟩ := List.forall₂_cons_right_iff.mp hlast
  obtain rfl := List.forall₂_nil_right_iff.mp hrest
  refine ⟨l.take ys.length, x, ?_, hfirst, hx⟩
  rw [← hdrop, List.take_append_drop]

/-- Where a list has only one element that counts, replacing it leaves only the new one. -/
theorem filterMap_set {α β : Type} {f : α → Option β} {l : List α} {k : Nat} {x y : α} {b : β}
    (hl : l.filterMap f = [b]) (hk : l[k]? = some x) (hx : (f x).isSome) :
    (l.set k y).filterMap f = (f y).toList := by
  induction l generalizing k with
  | nil => cases hk
  | cons z rest ih =>
      cases k with
      | zero =>
          obtain rfl : z = x := Option.some.inj hk
          obtain ⟨b', hb'⟩ := Option.isSome_iff_exists.mp hx
          simp only [List.filterMap_cons, hb', List.cons.injEq] at hl
          cases hy : f y <;> simp [hy, hl.2]
      | succ k =>
          have hrest : rest.filterMap f ≠ [] := by
            intro h
            have := List.filterMap_eq_nil_iff.mp h x (List.mem_of_getElem? hk)
            simp [this] at hx
          cases hz : f z with
          | some b' => simp [hz, hrest] at hl
          | none =>
              simp only [List.filterMap_cons, hz] at hl
              simp only [List.set_cons_succ, List.filterMap_cons, hz]
              exact ih hl hk

end StageGraph
