/-
# `StageGraph.Proofs.JsonReading` — what is read of a document can be skipped

The readers of strings and numbers are stricter than the skipper: a string has to be made of
characters, and a number has to fit.  But what they accept they read up to where the skipper
would stop (`readFound_cases`).  The same is true of arrays and objects whose parts are read one
after the other (`readItems_ends`, `readFields_ends`), and so of free values
(`readValue_whole`).

How a bracket goes on is described by `Ends`: its end is next, or a part comes and then it
goes on again.
-/
import StageGraph.Proofs.JsonGrammar

namespace StageGraph.Json

/-! ## Strings -/

/-- A string that is read is skipped up to the same place. -/
theorem skipString_of_readStringBytes {acc s bs r : Bytes}
    (h : readStringBytes acc s = .ok (bs, r)) : skipString s = .ok r := by
  -- Only the end, a plain byte and the three kinds of escapes go on; at all else the reader stops.
  fun_induction readStringBytes acc s with
  | case2 =>
      cases h
      rw [skipString.eq_def]
      exact if_pos rfl
  | case4 acc b rest hquote hcontrol hbackslash ih =>
      rw [skipString_plain ⟨hquote, hbackslash, hcontrol⟩, ih h]
  | case6 acc b _ _ hbackslash e rest hu x hescape ih =>
      obtain rfl := not_not.mp hbackslash
      rw [skipString_short hu (by rw [hescape]; rfl), ih h]
  | case10 acc b _ _ hbackslash e hu p q r s rest n hhex _ _ ih =>
      obtain rfl := not_not.mp hbackslash
      obtain rfl := not_not.mp hu
      rw [skipString_hex (by rw [hhex]; rfl), ih h]
  | case17 acc b _ _ hbackslash e hu p q r s n hhex _ _ b' e' hbackslash' hu' p' q' r' s' rest m
      hhex' _ ih =>
      obtain rfl := not_not.mp hbackslash
      obtain rfl := not_not.mp hu
      obtain rfl := not_not.mp hbackslash'
      obtain rfl := not_not.mp hu'
      rw [skipString_hex (by rw [hhex]; rfl), skipString_hex (by rw [hhex']; rfl), ih h]
  | _ => cases h

theorem skipString_of_readString {s r : Bytes} {x : String} (h : readString s = .ok (x, r)) :
    skipString s = .ok r := by
  obtain ⟨⟨bs, rest⟩, hbytes, hrest⟩ := bind_eq_ok.mp h
  cases htext : Utf8.toString? bs with
  | none =>
      simp only [htext] at hrest
      cases hrest
  | some text =>
      simp only [htext] at hrest
      cases hrest
      exact skipString_of_readStringBytes hbytes

/-! ## Numbers -/

theorem eq_of_decimalNumber {negative : Bool} {n : Nat} {e : Int} {s r : Bytes} {x : Number}
    (h : decimalNumber negative n e s = .ok (x, r)) : r = s := by
  rw [decimalNumber] at h
  cases hx : Binary64.ofDecimal? negative n e with
  | none =>
      simp only [hx] at h
      cases h
  | some y =>
      simp only [hx] at h
      cases h
      rfl

theorem skipExponent_of_readExponent {negative : Bool} {n : Nat} {e : Int} {mark : UInt8}
    (hmark : mark = byte 'e' ∨ mark = byte 'E') {s r : Bytes} {x : Number}
    (h : readExponent negative n e s = .ok (x, r)) : skipExponent (mark :: s) = .ok r := by
  rw [readExponent.eq_def] at h
  -- Both look for digits at `s'`, behind the sign.
  split at h
  next down s' hsign =>
  obtain ⟨d, ds, hdigits⟩ : ∃ d ds, takeDigits s' = (d :: ds, r) := by
    rcases htaken : takeDigits s' with ⟨_ | ⟨d, ds⟩, rest⟩
    · cases rest with
      | nil =>
          simp only [htaken] at h
          cases h
      | cons b rest =>
          simp only [htaken] at h
          cases h
    · refine ⟨d, ds, ?_⟩
      simp only [htaken] at h
      cases hfar : digitsTooFar? 0 (d :: ds) with
      | none =>
          simp only [hfar] at h
          rw [eq_of_decimalNumber h]
      | some taken =>
          simp only [hfar] at h
          split at h <;> cases h
          rfl
  cases s with
  | nil =>
      cases hsign
      cases hdigits
  | cons c s =>
      by_cases hminus : c = byte '-'
      · simp only [if_pos hminus] at hsign
        cases hsign
        simp only [skipExponent, if_pos hmark, if_pos (Or.inr hminus : c = byte '+' ∨ _), hdigits]
      by_cases hplus : c = byte '+'
      · simp only [if_neg hminus, if_pos hplus] at hsign
        cases hsign
        simp only [skipExponent, if_pos hmark, if_pos (Or.inl hplus : _ ∨ c = byte '-'), hdigits]
      · simp only [if_neg hminus, if_neg hplus] at hsign
        cases hsign
        simp only [skipExponent, if_pos hmark, if_neg (not_or.mpr ⟨hplus, hminus⟩), hdigits]

theorem skipNumberTail_of_readNumberTail {negative : Bool} {n dropped : Nat} {s r : Bytes}
    {x : Number} (h : readNumberTail negative n dropped s = .ok (x, r)) :
    skipNumberTail s = .ok r := by
  unfold readNumberTail at h
  have isMark {b : UInt8} (hb : (b == byte 'e' || b == byte 'E') = true) :
      b = byte 'e' ∨ b = byte 'E' := by simpa using hb
  have plain {rest : Bytes} (h : (if dropped ≠ 0 then decimalNumber negative n dropped rest
      else if !negative then .ok (.int n, rest)
      else if n = 0 ∨ Nat.pow 2 63 < n then .ok (.float (Binary64.ofNat n).negate, rest)
      else .ok (.int (-(n : Int)), rest) : Except Stop (Number × Bytes)) = .ok (x, r)) :
      r = rest := by
    by_cases hdropped : dropped ≠ 0
    · rw [if_pos hdropped] at h
      exact eq_of_decimalNumber h
    · rw [if_neg hdropped] at h
      split at h
      · cases h
        rfl
      split at h <;> cases h <;> rfl
  cases s with
  | nil =>
      rw [plain h]
      rfl
  | cons b rest =>
      by_cases hpoint : b = byte '.'
      · rw [skipNumberTail, if_pos hpoint]
        rcases htaken : takeDigits rest with ⟨_ | ⟨d, ds⟩, rest'⟩
        · simp only [if_pos hpoint, htaken] at h
          cases rest' <;> cases h
        · simp only [if_pos hpoint, htaken] at h ⊢
          cases rest' with
          | nil =>
              rw [eq_of_decimalNumber h]
              rfl
          | cons c after =>
              by_cases hmark : (c == byte 'e' || c == byte 'E') = true
              · simp only [if_pos hmark] at h
                exact skipExponent_of_readExponent (isMark hmark) h
              · simp only [if_neg hmark] at h
                rw [eq_of_decimalNumber h]
                exact if_neg fun hc => hmark (by simpa using hc)
      · rw [skipNumberTail, if_neg hpoint]
        by_cases hmark : (b == byte 'e' || b == byte 'E') = true
        · simp only [if_neg hpoint, if_pos hmark] at h
          exact skipExponent_of_readExponent (isMark hmark) h
        · simp only [if_neg hpoint, if_neg hmark] at h
          rw [plain h]
          exact if_neg fun hb => hmark (by simpa using hb)

theorem skipUnsigned_of_readUnsigned {negative : Bool} {s r : Bytes} {x : Number}
    (h : readUnsigned negative s = .ok (x, r)) : skipUnsigned s = .ok r := by
  cases s with
  | nil => cases h
  | cons b rest =>
      by_cases hzero : b = byte '0'
      · cases rest with
        | nil =>
            simp only [readUnsigned, if_pos hzero] at h
            simp only [skipUnsigned, if_pos hzero, skipNumberTail_of_readNumberTail h]
        | cons c after =>
            by_cases hc : isDigit c
            · simp only [readUnsigned, if_pos hzero, hc, if_true] at h
              cases h
            · simp only [readUnsigned, if_pos hzero, if_neg hc] at h
              simp only [skipUnsigned, if_pos hzero, if_neg hc,
                skipNumberTail_of_readNumberTail h]
      · by_cases hb : isDigit b
        · simp only [readUnsigned, if_neg hzero, if_pos hb] at h
          have htaken : takeDigits (b :: rest) =
              ((b.toNat - 48) :: (takeDigits rest).1, (takeDigits rest).2) := by
            simp only [takeDigits, hb, if_true]
          rw [htaken] at h
          simp only [skipUnsigned, if_neg hzero, htaken, skipNumberTail_of_readNumberTail h]
        · simp only [readUnsigned, if_neg hzero, if_neg hb] at h
          cases h

/-! ## Scalars -/

theorem skipScalar_of_readNumber {b : UInt8} {rest r : Bytes} {x : Number}
    (hb : b = byte '-' ∨ isDigit b) (h : readNumber (b :: rest) = .ok (x, r)) :
    skipScalar b rest = .ok r := by
  by_cases hminus : b = byte '-'
  · subst hminus
    rw [readNumber, if_pos rfl] at h
    exact skipUnsigned_of_readUnsigned h
  · rw [readNumber, if_neg hminus] at h
    rw [skipScalar_digit (hb.resolve_left hminus)]
    exact skipUnsigned_of_readUnsigned h

/-- What was found is a scalar that is skipped, or a bracket that is open now. -/
theorem readFound_cases {s r : Bytes} {found : Found} (h : readFound s = .ok (found, r)) :
    (found = .sequence ∧ skipBlanks s = Bracket.square.opening :: r) ∨
      (found = .map ∧ skipBlanks s = Bracket.curly.opening :: r) ∨
      ((∃ v, found.scalar? = some v) ∧ Skips 1 s r) := by
  have word {w : List UInt8} {rest : Bytes} {f : Found}
      (h : (readWord w rest).map (fun r => (f, r)) = .ok (found, r)) :
      f = found ∧ readWord w rest = .ok r := by
    cases hword : readWord w rest with
    | error => rw [hword] at h; cases h
    | ok => rw [hword] at h; cases h; exact ⟨rfl, rfl⟩
  cases hblanks : skipBlanks s with
  | nil =>
      rw [readFound, hblanks] at h
      cases h
  | cons b rest =>
      -- A scalar is skipped from its first byte on.
      have scalar {f : Found} {v : Value} (hf : f = found) (hv : f.scalar? = some v)
          (hscalar : skipScalar b rest = .ok r) :
          (∃ v, found.scalar? = some v) ∧ Skips 1 s r := by
        subst hf
        exact ⟨⟨v, hv⟩, .scalar hblanks hscalar⟩
      simp only [readFound, hblanks] at h
      by_cases hn : b = byte 'n'
      · rw [if_pos hn] at h
        obtain ⟨hf, hword⟩ := word h
        exact .inr (.inr (scalar hf rfl (by rw [skipScalar, if_pos hn, hword])))
      by_cases ht : b = byte 't'
      · rw [if_neg hn, if_pos ht] at h
        obtain ⟨hf, hword⟩ := word h
        exact .inr (.inr (scalar hf rfl (by rw [skipScalar, if_neg hn, if_pos ht, hword])))
      by_cases hfalse : b = byte 'f'
      · rw [if_neg hn, if_neg ht, if_pos hfalse] at h
        obtain ⟨hf, hword⟩ := word h
        exact .inr (.inr (scalar hf rfl
          (by rw [skipScalar, if_neg hn, if_neg ht, if_pos hfalse, hword])))
      rw [if_neg hn, if_neg ht, if_neg hfalse] at h
      by_cases hnumber : b = byte '-' ∨ isDigit b
      · rw [if_pos hnumber] at h
        obtain ⟨⟨x, rest'⟩, hread, hfound⟩ := bind_eq_ok.mp h
        have hscalar := skipScalar_of_readNumber hnumber hread
        cases x with
        | int n =>
            cases hfound
            exact .inr (.inr (scalar rfl rfl hscalar))
        | float y =>
            cases hfound
            exact .inr (.inr (scalar rfl rfl hscalar))
      rw [if_neg hnumber] at h
      by_cases hquote : b = byte '"'
      · rw [if_pos hquote] at h
        cases hread : readString rest with
        | error => rw [hread] at h; cases h
        | ok p =>
            rw [hread] at h
            cases h
            subst hquote
            exact .inr (.inr (scalar rfl rfl (skipString_of_readString hread)))
      rw [if_neg hquote] at h
      by_cases hsquare : b = byte '['
      · rw [if_pos hsquare] at h
        cases h
        exact .inl ⟨rfl, by rw [hsquare]; rfl⟩
      by_cases hcurly : b = byte '\x7b'
      · rw [if_neg hsquare, if_pos hcurly] at h
        cases h
        exact .inr (.inl ⟨rfl, by rw [hcurly]; rfl⟩)
      · rw [if_neg hsquare, if_neg hcurly] at h
        cases h

/-! ## Parts -/

/-- Where the next part of a bracket begins: behind a comma, unless it is the first. -/
def Starts (first : Bool) (s start : Bytes) : Prop :=
  if first then start = s else skipBlanks s = byte ',' :: start

/-- The rest of a bracket is skipped with its end, which is next or comes behind more parts. -/
inductive Ends (b : Bracket) (first : Bool) (s r : Bytes) : Prop
  | close (h : skipBlanks s = b.close :: r)
  | parts {n : Nat} {start : Bytes} (hstart : Starts first s start) (h : SkipsInside b n start r)

/-- A part with the rest of its bracket behind it. -/
theorem Ends.part {b : Bracket} {n : Nat} {s s₁ s₂ r : Bytes} (h : Ends b false s₂ r)
    (hname : skipName b s = .ok s₁) (hvalue : Skips n s₁ s₂) : ∃ m, SkipsInside b m s r := by
  cases h with
  | close hclose => exact ⟨_, .last hname hvalue hclose⟩
  | parts hcomma hrest => exact ⟨_, .more hname hvalue hcomma hrest⟩

/-- A bracket that has been opened and is skipped from there on. -/
theorem Ends.skips {b : Bracket} {s rest r : Bytes} (h : Ends b true rest r)
    (hopening : skipBlanks s = b.opening :: rest) : ∃ n, Skips n s r := by
  cases h with
  | close hclose => exact ⟨1, .empty b hopening hclose⟩
  | parts hstart hinside =>
      cases hstart
      exact ⟨_, .bracket hopening hinside⟩

/-- The next item is looked for at the end of the array or at the start of a part. -/
theorem nextItem_cases {first more : Bool} {s s' : Bytes}
    (h : nextItem first s = .ok (more, s')) :
    (more = false ∧ ∃ rest, skipBlanks s = Bracket.square.close :: rest ∧ s' = byte ']' :: rest) ∨
      (more = true ∧ ∃ start, Starts first s start ∧ s' = skipBlanks start) := by
  rw [nextItem] at h
  cases hblanks : skipBlanks s with
  | nil => rw [hblanks] at h; cases h
  | cons b rest =>
      simp only [hblanks] at h
      by_cases hclose : b = byte ']'
      · rw [if_pos hclose] at h
        cases h
        exact .inl ⟨rfl, rest, by rw [hclose]; rfl, by rw [hclose]⟩
      rw [if_neg hclose] at h
      cases first with
      | true =>
          cases h
          exact .inr ⟨rfl, s, rfl, hblanks.symm⟩
      | false =>
          rw [if_neg (by decide)] at h
          by_cases hcomma : b = byte ','
          · rw [if_pos hcomma] at h
            subst hcomma
            cases hnext : skipBlanks rest with
            | nil => rw [hnext] at h; cases h
            | cons c rest' =>
                simp only [hnext] at h
                split at h <;> cases h
                exact .inr ⟨rfl, rest, hblanks, hnext.symm⟩
          · rw [if_neg hcomma] at h
            cases h

/-- The next name is looked for at the end of the object or at the start of a part. -/
theorem nextName_cases {first : Bool} {s s' : Bytes} {name? : Option String}
    (h : nextName first s = .ok (name?, s')) :
    (name? = none ∧ skipBlanks s = Bracket.curly.close :: s') ∨
      (name?.isSome ∧ ∃ start rest, Starts first s start ∧ skipBlanks start = byte '"' :: rest ∧
        skipString rest = .ok s') := by
  have read {rest : Bytes} (h : (readString rest >>= fun p => .ok (some p.1, p.2)) =
      (.ok (name?, s') : Except Stop _)) : name?.isSome ∧ skipString rest = .ok s' := by
    obtain ⟨⟨k, rest'⟩, hread, hk⟩ := bind_eq_ok.mp h
    cases hk
    exact ⟨rfl, skipString_of_readString hread⟩
  rw [nextName] at h
  cases hblanks : skipBlanks s with
  | nil => rw [hblanks] at h; cases h
  | cons b rest =>
      simp only [hblanks] at h
      by_cases hclose : b = byte '\x7d'
      · rw [if_pos hclose] at h
        cases h
        exact .inl ⟨rfl, by rw [hclose]; rfl⟩
      rw [if_neg hclose] at h
      cases first with
      | true =>
          rw [if_pos rfl] at h
          split at h
          · next hquote =>
              obtain ⟨hsome, hname⟩ := read h
              exact .inr ⟨hsome, s, rest, rfl, by rw [hblanks, hquote], hname⟩
          · cases h
      | false =>
          rw [if_neg (by decide)] at h
          by_cases hcomma : b = byte ','
          · rw [if_pos hcomma] at h
            subst hcomma
            cases hnext : skipBlanks rest with
            | nil => rw [hnext] at h; cases h
            | cons c rest' =>
                simp only [hnext] at h
                split at h
                · next hquote =>
                    obtain ⟨hsome, hname⟩ := read h
                    exact .inr ⟨hsome, rest, rest', hblanks, by rw [hnext, hquote], hname⟩
                · split at h <;> cases h
          · rw [if_neg hcomma] at h
            cases h

theorem readColon_eq {s r : Bytes} (h : readColon s = .ok r) : skipBlanks s = byte ':' :: r := by
  rw [readColon] at h
  cases hblanks : skipBlanks s with
  | nil => rw [hblanks] at h; cases h
  | cons c rest =>
      simp only [hblanks] at h
      split at h
      · next hc =>
          cases h
          rw [hc]
      · cases h

theorem skipName_curly {s rest s₁ s₂ : Bytes} (h : skipBlanks s = byte '"' :: rest)
    (hname : skipString rest = .ok s₁) (hcolon : skipBlanks s₁ = byte ':' :: s₂) :
    skipName .curly s = .ok s₂ := by
  simp only [skipName, h, ne_eq, not_true_eq_false, if_false, hname, bind, Except.bind, hcolon,
    if_true]

theorem endItems_eq {s r : Bytes} (h : endItems s = .ok r) :
    skipBlanks s = Bracket.square.close :: r := by
  rw [endItems] at h
  cases hblanks : skipBlanks s with
  | nil => rw [hblanks] at h; cases h
  | cons c rest =>
      simp only [hblanks] at h
      split at h
      · next hc =>
          cases h
          rw [hc]
          rfl
      · split at h
        · split at h <;> cases h
        · cases h

/-! ## Items and fields -/

/-- What a reader takes is one value. -/
def WholeReader {α : Type} (read : Reader α) : Prop :=
  ∀ s a r, read s = .ok (a, r) → ∃ n, Skips n s r

/-- On a text of the grammar a reader of whole values either fails or ends where the text ends. -/
theorem WholeReader.ends {α : Type} {read : Reader α} (h : WholeReader read) {t s rest r : Bytes}
    {a : α} (ht : Text t) (hrest : Delimited rest) (hs : skipBlanks s = skipBlanks (t ++ rest))
    (hread : read s = .ok (a, r)) : r = rest := by
  obtain ⟨n, hskips⟩ := h s a r hread
  obtain ⟨m, -, htext⟩ := ht.skipsWhole
  exact (hskips.congr hs).unique (htext rest hrest)

/-- An item with the rest of its array behind it. -/
theorem Ends.item {first : Bool} {n : Nat} {s s₁ s₂ r : Bytes} (h : Ends .square false s₂ r)
    (hnext : nextItem first s = .ok (true, s₁)) (hvalue : Skips n s₁ s₂) :
    Ends .square first s r := by
  obtain ⟨⟨⟩, -⟩ | ⟨-, start, hstart, rfl⟩ := nextItem_cases hnext
  obtain ⟨m, hpart⟩ := h.part (b := .square) rfl (hvalue.congr (skipBlanks_skipBlanks start))
  exact .parts hstart hpart

/-- A field with the rest of its object behind it. -/
theorem Ends.field {first : Bool} {n : Nat} {s s₁ s₂ s₃ r : Bytes} {name : String}
    (h : Ends .curly false s₃ r) (hname : nextName first s = .ok (some name, s₁))
    (hcolon : readColon s₁ = .ok s₂) (hvalue : Skips n s₂ s₃) : Ends .curly first s r := by
  obtain ⟨⟨⟩, -⟩ | ⟨-, start, rest, hstart, hquote, hskip⟩ := nextName_cases hname
  obtain ⟨m, hinside⟩ := h.part (skipName_curly hquote hskip (readColon_eq hcolon)) hvalue
  exact .parts hstart hinside

theorem ends_of_nextName {first : Bool} {s r : Bytes} (h : nextName first s = .ok (none, r)) :
    Ends .curly first s r := by
  obtain ⟨-, hclose⟩ | ⟨⟨⟩, -⟩ := nextName_cases h
  exact .close hclose

theorem readItems_ends {α : Type} {item : Reader α} (hitem : WholeReader item) {fuel : Nat}
    {first : Bool} {s r : Bytes} {as : List α} (h : readItems item fuel first s = .ok (as, r)) :
    Ends .square first s r := by
  induction fuel generalizing first s as with
  | zero => cases h
  | succ fuel ih =>
      obtain ⟨⟨more, s₁⟩, hnext, h⟩ := bind_eq_ok.mp h
      cases more with
      | false =>
          cases h
          obtain ⟨-, rest, hclose, rfl⟩ | ⟨⟨⟩, -⟩ := nextItem_cases hnext
          exact .close hclose
      | true =>
          simp only [if_true] at h
          obtain ⟨⟨a, s₂⟩, ha, h⟩ := bind_eq_ok.mp h
          obtain ⟨⟨rest, s₃⟩, hrest, h⟩ := bind_eq_ok.mp h
          cases h
          obtain ⟨n, hvalue⟩ := hitem _ _ _ ha
          exact (ih hrest).item hnext hvalue

theorem readFields_ends {α : Type} {value : Reader α} (hvalue : WholeReader value) {fuel : Nat}
    {first : Bool} {s r : Bytes} {fields : List (String × α)}
    (h : readFields value fuel first s = .ok (fields, r)) : Ends .curly first s r := by
  induction fuel generalizing first s fields with
  | zero => cases h
  | succ fuel ih =>
      obtain ⟨⟨name, s₁⟩, hnext, h⟩ := bind_eq_ok.mp h
      cases name with
      | none =>
          cases h
          exact ends_of_nextName hnext
      | some name =>
          obtain ⟨s₂, hcolon, h⟩ := bind_eq_ok.mp h
          obtain ⟨⟨a, s₃⟩, ha, h⟩ := bind_eq_ok.mp h
          obtain ⟨⟨rest, s₄⟩, hrest, h⟩ := bind_eq_ok.mp h
          cases h
          obtain ⟨n, hskips⟩ := hvalue _ _ _ ha
          exact (ih hrest).field hnext hcolon hskips

/-- A free value is read as it is skipped, as far as there is room. -/
theorem readValue_whole (room : Nat) : WholeReader (readValue room) := by
  induction room with
  | zero =>
      intro s v r h
      obtain ⟨⟨found, rest⟩, hfound, h⟩ := bind_eq_ok.mp h
      obtain ⟨rfl, -⟩ | ⟨rfl, -⟩ | ⟨⟨w, hw⟩, hskips⟩ := readFound_cases hfound
      · cases h
      · cases h
      · simp only [hw] at h
        cases h
        exact ⟨1, hskips⟩
  | succ room ih =>
      intro s v r h
      obtain ⟨⟨found, rest⟩, hfound, h⟩ := bind_eq_ok.mp h
      obtain ⟨rfl, hopening⟩ | ⟨rfl, hopening⟩ | ⟨⟨w, hw⟩, hskips⟩ := readFound_cases hfound
      · obtain ⟨⟨items, rest'⟩, hitems, h⟩ := bind_eq_ok.mp h
        cases h
        exact (readItems_ends ih hitems).skips hopening
      · obtain ⟨⟨fields, rest'⟩, hfields, h⟩ := bind_eq_ok.mp h
        cases h
        exact (readFields_ends ih hfields).skips hopening
      · simp only [hw] at h
        cases h
        exact ⟨1, hskips⟩

end StageGraph.Json
