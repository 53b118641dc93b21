/-
# `StageGraph.Proofs.JsonSkipping` — the skipper goes by whole values

The skipper keeps the open brackets in a list and has no recursion, so nothing in it
says that a bracket is skipped from its beginning to its end.  It follows from one fact
about the list: what is done with some brackets open is done just the same with more of
them open further out (`skipParts_append`).  So the value inside a bracket can be looked
at on its own, as if nothing were open around it.

From this come the rules by which values are put together (`Skips.bracket`,
`SkipsInside.last`, `SkipsInside.more`), and that more rounds than needed change nothing
(`Skips.unique`): a text ends where it ends, whoever reads it.
-/
import StageGraph.Proofs.JsonRoundTrip

namespace StageGraph.Json

theorem bind_eq_ok {ε α β : Type} {x : Except ε α} {f : α → Except ε β} {b : β} :
    (x >>= f) = .ok b ↔ ∃ a, x = .ok a ∧ f a = .ok b := by
  cases x <;> simp [bind, Except.bind]

/-! ## Blanks -/

@[simp] theorem skipBlanks_skipBlanks (s : Bytes) : skipBlanks (skipBlanks s) = skipBlanks s := by
  induction s with
  | nil => rfl
  | cons b s ih =>
      by_cases hb : isBlank b
      · simpa [skipBlanks, hb] using ih
      · simp [skipBlanks, hb]

/-- What blanks are skipped to has none in front. -/
theorem skipBlanks_eq_self {s rest : Bytes} {b : UInt8} (h : skipBlanks s = b :: rest) :
    skipBlanks (b :: rest) = b :: rest := by
  rw [← h, skipBlanks_skipBlanks]

/-! ## Rounds of the skipper -/

/-- Goes on behind a finished part, with the brackets that are still open. -/
def skipNext (fuel : Nat) (p : List Bracket × Bytes) : Except Stop Bytes :=
  match p.1 with
  | [] => .ok p.2
  | b :: _ => skipName b p.2 >>= skipParts fuel p.1

/-- The byte that opens a bracket. -/
def Bracket.opening : Bracket → UInt8
  | .square => byte '['
  | .curly => byte '\x7b'

theorem skipParts_scalar {s rest : Bytes} {b : UInt8} (h : skipBlanks s = b :: rest)
    (hsquare : b ≠ byte '[') (hcurly : b ≠ byte '\x7b') (fuel : Nat) (brackets : List Bracket) :
    skipParts (fuel + 1) brackets s =
      (skipScalar b rest >>= fun rest => skipClosing brackets rest >>= skipNext fuel) := by
  simp only [skipParts, h, if_neg hsquare, if_neg hcurly]
  rfl

theorem skipParts_opening {b : Bracket} {s rest : Bytes} (h : skipBlanks s = b.opening :: rest)
    (fuel : Nat) (brackets : List Bracket) :
    skipParts (fuel + 1) brackets s =
      match skipBlanks rest with
      | [] => stop b.unfinished []
      | c :: after =>
        if c = b.close then skipClosing brackets after >>= skipNext fuel
        else skipNext fuel (b :: brackets, c :: after) := by
  have hne : byte '\x7b' ≠ byte '[' := by decide
  cases b with
  | square =>
      simp only [skipParts, h, Bracket.opening, if_true]
      rfl
  | curly =>
      simp only [skipParts, h, Bracket.opening, if_neg hne, if_true]
      rfl

theorem skipParts_nil {s : Bytes} (h : skipBlanks s = []) (fuel : Nat) (brackets : List Bracket) :
    skipParts (fuel + 1) brackets s = stop .endOfValue [] := by
  simp only [skipParts, h]

/-- A round begins with the first byte that is no blank. -/
theorem skipParts_congr {n : Nat} {brackets : List Bracket} {s s' r : Bytes}
    (h : skipParts n brackets s = .ok r) (hs : skipBlanks s = skipBlanks s') :
    skipParts n brackets s' = .ok r := by
  cases n with
  | zero => cases h
  | succ n =>
      simp only [skipParts, hs] at h ⊢
      exact h

/-- A byte that opens a bracket, or one that a scalar begins with. -/
theorem opening_or (b : UInt8) :
    (∃ bracket : Bracket, b = bracket.opening) ∨ (b ≠ byte '[' ∧ b ≠ byte '\x7b') := by
  by_cases hsquare : b = byte '['
  · exact .inl ⟨.square, hsquare⟩
  by_cases hcurly : b = byte '\x7b'
  · exact .inl ⟨.curly, hcurly⟩
  · exact .inr ⟨hsquare, hcurly⟩

/-! ## Brackets further out -/

/-- Brackets are closed from the inside, and only then those further out. -/
theorem skipClosing_append (inner outer : List Bracket) (s : Bytes) :
    skipClosing (inner ++ outer) s =
      skipClosing inner s >>= fun p =>
        match p.1 with
        | [] => skipClosing outer p.2
        | b :: bs => .ok (b :: bs ++ outer, p.2) := by
  induction inner generalizing s with
  | nil => rfl
  | cons b inner ih =>
      cases hblanks : skipBlanks s with
      | nil => simp only [List.cons_append, skipClosing, hblanks, stop, bind, Except.bind]
      | cons c rest =>
          by_cases hcomma : c = byte ','
          · simp only [List.cons_append, skipClosing, hblanks, if_pos hcomma, bind, Except.bind]
          by_cases hclose : c = b.close
          · simp only [List.cons_append, skipClosing, hblanks, if_neg hcomma, if_pos hclose, ih]
          · simp only [List.cons_append, skipClosing, hblanks, if_neg hcomma, if_neg hclose, stop,
              bind, Except.bind]

/-- What is skipped with some brackets open is skipped in the same way with more of them open
further out, and then it goes on with those.  How many rounds are left by then is not said, so it
has to go on with any number of them. -/
theorem skipParts_append {n : Nat} {inner : List Bracket} {s r : Bytes}
    (h : skipParts n inner s = .ok r) (outer : List Bracket) (fuel : Nat) {last : Bytes}
    (hlast : ∀ m, fuel ≤ m → (skipClosing outer r >>= skipNext m) = .ok last) :
    skipParts (fuel + n) (inner ++ outer) s = .ok last := by
  induction n generalizing inner s with
  | zero => cases h
  | succ n ih =>
      -- The two ways in which a round goes on: with a part inside, and behind a finished value.
      have inside {b : Bracket} {bs : List Bracket} {s : Bytes}
          (h : skipNext n (b :: bs, s) = .ok r) :
          skipNext (fuel + n) (b :: bs ++ outer, s) = .ok last := by
        obtain ⟨s', hname, hrest⟩ := bind_eq_ok.mp h
        exact bind_eq_ok.mpr ⟨s', hname, ih hrest⟩
      have behind {s : Bytes} (h : (skipClosing inner s >>= skipNext n) = .ok r) :
          (skipClosing (inner ++ outer) s >>= skipNext (fuel + n)) = .ok last := by
        obtain ⟨⟨left, s'⟩, hclosing, hrest⟩ := bind_eq_ok.mp h
        rw [skipClosing_append, hclosing]
        cases left with
        | nil =>
            cases hrest
            exact hlast (fuel + n) (Nat.le_add_right fuel n)
        | cons b bs => exact inside hrest
      cases hblanks : skipBlanks s with
      | nil =>
          rw [skipParts_nil hblanks] at h
          cases h
      | cons b rest =>
          obtain ⟨bracket, rfl⟩ | ⟨hsquare, hcurly⟩ := opening_or b
          · rw [skipParts_opening hblanks] at h
            rw [← Nat.add_assoc, skipParts_opening hblanks]
            cases hfirst : skipBlanks rest with
            | nil =>
                rw [hfirst] at h
                cases h
            | cons c after =>
                simp only [hfirst] at h ⊢
                by_cases hclose : c = bracket.close
                · rw [if_pos hclose] at h ⊢
                  exact behind h
                · rw [if_neg hclose] at h ⊢
                  exact inside h
          · rw [skipParts_scalar hblanks hsquare hcurly] at h
            obtain ⟨s', hscalar, hrest⟩ := bind_eq_ok.mp h
            rw [← Nat.add_assoc, skipParts_scalar hblanks hsquare hcurly, hscalar]
            exact behind hrest

/-- More rounds than needed change nothing. -/
theorem skipParts_mono {n m : Nat} {brackets : List Bracket} {s r : Bytes}
    (h : skipParts n brackets s = .ok r) (hm : n ≤ m) : skipParts m brackets s = .ok r := by
  have hmore := skipParts_append h [] (m - n) fun _ _ => rfl
  rwa [List.append_nil, Nat.sub_add_cancel hm] at hmore

theorem skipNext_mono {n m : Nat} {p : List Bracket × Bytes} {r : Bytes}
    (h : skipNext n p = .ok r) (hm : n ≤ m) : skipNext m p = .ok r := by
  obtain ⟨brackets, s⟩ := p
  cases brackets with
  | nil => exact h
  | cons b bs =>
      obtain ⟨s', hname, hrest⟩ := bind_eq_ok.mp h
      exact bind_eq_ok.mpr ⟨s', hname, skipParts_mono hrest hm⟩

/-! ## Values -/

/-- A value is skipped in so many rounds. -/
def Skips (n : Nat) (s r : Bytes) : Prop := skipParts n [] s = .ok r

/-- The parts that are left inside a bracket are skipped, with the end of the bracket. -/
def SkipsInside (b : Bracket) (n : Nat) (s r : Bytes) : Prop :=
  (skipName b s >>= skipParts n [b]) = .ok r

theorem Skips.unique {n m : Nat} {s r r' : Bytes} (h : Skips n s r) (h' : Skips m s r') :
    r = r' := by
  have hr := skipParts_mono h (Nat.le_max_left n m)
  rw [skipParts_mono h' (Nat.le_max_right n m)] at hr
  exact (Except.ok.inj hr).symm

theorem Skips.congr {n : Nat} {s s' r : Bytes} (h : Skips n s r)
    (hs : skipBlanks s = skipBlanks s') : Skips n s' r :=
  skipParts_congr h hs

/-- A value is skipped as the value of an unknown field is, if it does not take too many rounds. -/
theorem Skips.skipValue {n : Nat} {s r : Bytes} (h : Skips n s r) (hn : n ≤ s.length) :
    skipValue s = .ok r :=
  skipParts_mono h (Nat.le_succ_of_le hn)

theorem skips_of_skipValue {s r : Bytes} (h : skipValue s = .ok r) : Skips (s.length + 1) s r := h

theorem Skips.scalar {s rest r : Bytes} {b : UInt8} (h : skipBlanks s = b :: rest)
    (hscalar : skipScalar b rest = .ok r) : Skips 1 s r := by
  have hsquare : b ≠ byte '[' := by
    rintro rfl
    cases hscalar
  have hcurly : b ≠ byte '\x7b' := by
    rintro rfl
    cases hscalar
  rw [Skips, skipParts_scalar h hsquare hcurly, hscalar]
  rfl

theorem Skips.empty {s rest r : Bytes} (b : Bracket) (h : skipBlanks s = b.opening :: rest)
    (hclose : skipBlanks rest = b.close :: r) : Skips 1 s r := by
  rw [Skips, skipParts_opening h]
  simp only [hclose, if_true]
  rfl

/-- The parts of a bracket do not begin with its end. -/
theorem SkipsInside.begins {b : Bracket} {n : Nat} {s r : Bytes} (h : SkipsInside b n s r) :
    ∃ c rest, skipBlanks s = c :: rest ∧ c ≠ b.close := by
  obtain ⟨s', hname, hrest⟩ := bind_eq_ok.mp h
  cases b with
  | square =>
      cases hname
      cases n with
      | zero => cases hrest
      | succ n =>
          cases hblanks : skipBlanks s with
          | nil =>
              rw [skipParts_nil hblanks] at hrest
              cases hrest
          | cons c rest =>
              refine ⟨c, rest, rfl, ?_⟩
              rintro rfl
              rw [skipParts_scalar hblanks (by decide) (by decide)] at hrest
              cases hrest
  | curly =>
      cases hblanks : skipBlanks s with
      | nil =>
          rw [skipName, hblanks] at hname
          cases hname
      | cons c rest =>
          refine ⟨c, rest, rfl, ?_⟩
          rintro rfl
          rw [skipName, hblanks] at hname
          cases hname

theorem SkipsInside.congr {b : Bracket} {n : Nat} {s s' r : Bytes} (h : SkipsInside b n s r)
    (hs : skipBlanks s = skipBlanks s') : SkipsInside b n s' r := by
  cases b with
  | square => exact skipParts_congr h hs
  | curly =>
      rw [SkipsInside, skipName, ← hs]
      exact h

/-- A bracket is skipped with what is inside. -/
theorem Skips.bracket {b : Bracket} {n : Nat} {s rest r : Bytes}
    (h : skipBlanks s = b.opening :: rest) (hinside : SkipsInside b n rest r) :
    Skips (n + 1) s r := by
  obtain ⟨c, after, hfirst, hne⟩ := hinside.begins
  have hstripped : SkipsInside b n (c :: after) r := by
    refine hinside.congr ?_
    rw [← hfirst, skipBlanks_skipBlanks]
  rw [Skips, skipParts_opening h]
  simp only [hfirst, if_neg hne]
  exact hstripped

/-- The last part of a bracket is skipped with the end behind it. -/
theorem SkipsInside.last {b : Bracket} {n : Nat} {s s₁ s₂ r : Bytes} (hname : skipName b s = .ok s₁)
    (hvalue : Skips n s₁ s₂) (hclose : skipBlanks s₂ = b.close :: r) : SkipsInside b n s r := by
  have hcomma : b.close ≠ byte ',' := by cases b <;> decide
  have hbehind (m : Nat) : (skipClosing [b] s₂ >>= skipNext m) = .ok r := by
    simp only [skipClosing, hclose, if_neg hcomma, if_true]
    rfl
  have hend := skipParts_append hvalue [b] 0 fun m _ => hbehind m
  rw [List.nil_append, Nat.zero_add] at hend
  rw [SkipsInside, hname]
  exact hend

/-- A part of a bracket is skipped, and then those behind the comma. -/
theorem SkipsInside.more {b : Bracket} {n m : Nat} {s s₁ s₂ rest r : Bytes}
    (hname : skipName b s = .ok s₁) (hvalue : Skips n s₁ s₂)
    (hcomma : skipBlanks s₂ = byte ',' :: rest) (hrest : SkipsInside b m rest r) :
    SkipsInside b (m + n) s r := by
  have hbehind (k : Nat) (hk : m ≤ k) : (skipClosing [b] s₂ >>= skipNext k) = .ok r := by
    simp only [skipClosing, hcomma, if_true]
    exact skipNext_mono (p := ([b], rest)) hrest hk
  have hend := skipParts_append hvalue [b] m hbehind
  rw [List.nil_append] at hend
  rw [SkipsInside, hname]
  exact hend

end StageGraph.Json
