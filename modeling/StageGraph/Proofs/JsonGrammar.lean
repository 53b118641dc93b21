/-
# `StageGraph.Proofs.JsonGrammar` — which texts are JSON, and that they are skipped

`Json.Text` is the grammar of JSON values: words, numbers of any size, strings with any
escapes, arrays and objects of any depth, with blanks in front of every token.  Nothing is
said about what a text means.  `Json.Text.skipValue`: every text of the grammar is skipped
as one value, up to where it ends.

Inside a bracket stand parts with commas between them.  A part of an object has a name in
front of its value and a part of an array has none, and apart from that the two are the
same; so there is one form for both (`bracketText`), and one proof.
-/
import StageGraph.Proofs.JsonSkipping
import StageGraph.Proofs.ValueRoundTrip

namespace StageGraph.Json

/-! ## Blanks -/

/-- Nothing but blanks. -/
def Blanks (ws : Bytes) : Prop := ∀ b ∈ ws, isBlank b

theorem Blanks.nil : Blanks [] := by
  intro b hb
  cases hb

@[simp] theorem Blanks.skipBlanks_append {ws : Bytes} (h : Blanks ws) (s : Bytes) :
    skipBlanks (ws ++ s) = skipBlanks s := by
  induction ws with
  | nil => rfl
  | cons b ws ih =>
      rw [List.cons_append, skipBlanks, if_pos (h b List.mem_cons_self)]
      exact ih fun c hc => h c (List.mem_cons_of_mem b hc)

/-- Blanks are skipped up to a byte that is none. -/
theorem Blanks.skipBlanks_cons {ws : Bytes} (h : Blanks ws) {b : UInt8} (hb : isBlank b = false)
    (s : Bytes) : skipBlanks (ws ++ b :: s) = b :: s := by
  rw [h.skipBlanks_append, Json.skipBlanks_cons hb]

/-- A number ends in front of a blank. -/
theorem Blanks.delimited {ws : Bytes} (h : Blanks ws) {s : Bytes} (hs : Delimited s) :
    Delimited (ws ++ s) := by
  cases ws with
  | nil => exact hs
  | cons b ws =>
      refine delimited_cons ?_ (ws ++ s)
      have hb := h b List.mem_cons_self
      simp only [isBlank, Bool.or_eq_true, beq_iff_eq] at hb
      obtain ((rfl | rfl) | rfl) | rfl := hb <;> decide

theorem Blanks.delimited_self {ws : Bytes} (h : Blanks ws) : Delimited ws := by
  rw [← List.append_nil ws]
  exact h.delimited delimited_nil

/-! ## Numbers -/

/-- One digit or more. -/
def Digits (ds : Bytes) : Prop := ds ≠ [] ∧ ∀ d ∈ ds, isDigit d

/-- Digits without a needless zero in front. -/
inductive IntegerText : Bytes → Prop
  | zero : IntegerText [byte '0']
  | digits {d : UInt8} {ds : Bytes} (h : Digits (d :: ds)) (hd : d ≠ byte '0') :
      IntegerText (d :: ds)

/-- The digits behind a point, if there are any. -/
inductive FractionText : Bytes → Prop
  | none : FractionText []
  | digits {ds : Bytes} (h : Digits ds) : FractionText (byte '.' :: ds)

/-- The sign and the digits of an exponent, if there is one. -/
inductive ExponentText : Bytes → Prop
  | none : ExponentText []
  | digits {mark : UInt8} {sign ds : Bytes} (hmark : mark = byte 'e' ∨ mark = byte 'E')
      (hsign : sign = [] ∨ sign = [byte '+'] ∨ sign = [byte '-']) (h : Digits ds) :
      ExponentText (mark :: (sign ++ ds))

/-- A number without its sign. -/
inductive UnsignedText : Bytes → Prop
  | mk {i f e : Bytes} (hi : IntegerText i) (hf : FractionText f) (he : ExponentText e) :
      UnsignedText (i ++ (f ++ e))

/-- No digit follows. -/
def NoDigit (rest : Bytes) : Prop := ∀ b ∈ rest.head?, isDigit b = false

theorem Delimited.noDigit {rest : Bytes} (h : Delimited rest) : NoDigit rest :=
  fun b hb => (h b hb).1

/-- All digits are taken, up to where none follows. -/
theorem takeDigits_append {ds rest : Bytes} (h : ∀ d ∈ ds, isDigit d) (hrest : NoDigit rest) :
    takeDigits (ds ++ rest) = (ds.map fun d => d.toNat - 48, rest) := by
  induction ds with
  | nil =>
      cases rest with
      | nil => rfl
      | cons b rest => simp [takeDigits, hrest b rfl]
  | cons d ds ih =>
      have hd := h d List.mem_cons_self
      simp [takeDigits, hd, ih fun e he => h e (List.mem_cons_of_mem d he)]

theorem Digits.takeDigits_cons {ds rest : Bytes} (h : Digits ds) (hrest : NoDigit rest) :
    ∃ n ns, takeDigits (ds ++ rest) = (n :: ns, rest) := by
  obtain ⟨hne, hall⟩ := h
  obtain ⟨d, ds, rfl⟩ := List.exists_cons_of_ne_nil hne
  exact ⟨_, _, takeDigits_append hall hrest⟩

theorem not_of_isDigit {d c : UInt8} (hd : isDigit d) (hc : isDigit c = false) : d ≠ c := by
  rintro rfl
  rw [hc] at hd
  cases hd

/-- Behind the digits of an exponent nothing is left of it. -/
theorem ExponentText.skip {e rest : Bytes} (h : ExponentText e) (hrest : Delimited rest) :
    skipExponent (e ++ rest) = .ok rest := by
  cases h with
  | none =>
      cases rest with
      | nil => rfl
      | cons b rest =>
          obtain ⟨-, -, hsmall, hlarge⟩ := hrest b rfl
          exact if_neg (not_or.mpr ⟨hsmall, hlarge⟩)
  | @digits mark sign ds hmark hsign hdigits =>
      obtain ⟨n, ns, htaken⟩ := hdigits.takeDigits_cons hrest.noDigit
      obtain ⟨hne, hall⟩ := hdigits
      obtain ⟨d, ds, rfl⟩ := List.exists_cons_of_ne_nil hne
      have hd := hall d List.mem_cons_self
      have hunsigned : ¬(d = byte '+' ∨ d = byte '-') :=
        not_or.mpr ⟨not_of_isDigit hd (by decide), not_of_isDigit hd (by decide)⟩
      rw [List.cons_append] at htaken
      obtain rfl | rfl | rfl := hsign
      · simp only [List.nil_append, List.cons_append, skipExponent, if_pos hmark,
          if_neg hunsigned, htaken]
      · simp only [List.cons_append, List.nil_append, skipExponent, if_pos hmark, true_or, if_true,
          htaken]
      · simp only [List.cons_append, List.nil_append, skipExponent, if_pos hmark, or_true, if_true,
          htaken]

theorem ExponentText.noDigit {e rest : Bytes} (h : ExponentText e) (hrest : Delimited rest) :
    NoDigit (e ++ rest) := by
  cases h with
  | none => exact hrest.noDigit
  | digits hmark =>
      rintro b ⟨⟩
      obtain rfl | rfl := hmark <;> decide

/-- Behind a fraction and an exponent nothing is left of a number. -/
theorem FractionText.skip {f e rest : Bytes} (hf : FractionText f) (he : ExponentText e)
    (hrest : Delimited rest) : skipNumberTail (f ++ (e ++ rest)) = .ok rest := by
  have hexponent := he.skip hrest
  cases hf with
  | none =>
      rw [List.nil_append]
      cases he with
      | none =>
          cases rest with
          | nil => rfl
          | cons b rest =>
              rw [List.nil_append] at hexponent ⊢
              rw [skipNumberTail, if_neg (hrest b rfl).2.1]
              exact hexponent
      | @digits mark _ _ hmark =>
          have hpoint : mark ≠ byte '.' := by obtain rfl | rfl := hmark <;> decide
          rw [List.cons_append] at hexponent ⊢
          rw [skipNumberTail, if_neg hpoint]
          exact hexponent
  | digits hdigits =>
      obtain ⟨n, ns, htaken⟩ := hdigits.takeDigits_cons (he.noDigit hrest)
      simp only [List.cons_append, skipNumberTail, if_true, htaken]
      exact hexponent

theorem FractionText.noDigit {f e rest : Bytes} (hf : FractionText f) (he : ExponentText e)
    (hrest : Delimited rest) : NoDigit (f ++ (e ++ rest)) := by
  cases hf with
  | none => exact he.noDigit hrest
  | digits =>
      rintro b ⟨⟩
      decide

theorem UnsignedText.skip {t rest : Bytes} (h : UnsignedText t) (hrest : Delimited rest) :
    skipUnsigned (t ++ rest) = .ok rest := by
  obtain ⟨hi, hf, he⟩ := h
  have htail := hf.skip he hrest
  have hnoDigit := hf.noDigit he hrest
  rw [List.append_assoc, List.append_assoc]
  cases hi with
  | zero =>
      rw [List.cons_append, List.nil_append]
      cases hrest' : _ ++ (_ ++ rest) with
      | nil =>
          rw [hrest'] at htail
          exact htail
      | cons b s =>
          rw [hrest'] at htail hnoDigit
          simp only [skipUnsigned, if_true, hnoDigit b rfl]
          exact htail
  | digits hdigits hd =>
      obtain ⟨n, ns, htaken⟩ := hdigits.takeDigits_cons hnoDigit
      rw [List.cons_append] at htaken ⊢
      simp only [skipUnsigned, if_neg hd, htaken]
      exact htail

/-! ## Strings -/

/-- What may stand between quotation marks: bytes that mean themselves, and escapes. -/
inductive Interior : Bytes → Prop
  | nil : Interior []
  | plain {b : UInt8} {t : Bytes} (hb : Plain b) (ht : Interior t) : Interior (b :: t)
  | short {e : UInt8} {t : Bytes} (he : e ∈ "\"\\/bfnrt".toList.map byte) (ht : Interior t) :
      Interior (byte '\\' :: e :: t)
  | hex {p q r s : UInt8} {t : Bytes} (h : ∀ d ∈ [p, q, r, s], (hexValue? d).isSome)
      (ht : Interior t) : Interior (byte '\\' :: byte 'u' :: p :: q :: r :: s :: t)

theorem hexValue?_isSome {p q r s : UInt8} {n : Nat} (h : hex4? p q r s = some n) :
    ∀ d ∈ [p, q, r, s], (hexValue? d).isSome := by
  simp only [hex4?, Option.bind_eq_bind, Option.bind_eq_some_iff] at h
  obtain ⟨k, hp, l, hq, m, hr, n, hs, -⟩ := h
  simp [hp, hq, hr, hs]

theorem mem_of_shortEscape? {e x : UInt8} (h : shortEscape? e = some x) :
    e ∈ "\"\\/bfnrt".toList.map byte := by
  by_contra hmem
  have hne : e ≠ 34 ∧ e ≠ 92 ∧ e ≠ 47 ∧ e ≠ 98 ∧ e ≠ 102 ∧ e ≠ 110 ∧ e ≠ 114 ∧ e ≠ 116 := by
    simpa [byte] using hmem
  have hnone : shortEscape? e = none := by simp [shortEscape?, byte, hne]
  rw [hnone] at h
  cases h

theorem Interior.plain_append {bs u : Bytes} (h : ∀ b ∈ bs, Plain b) (hu : Interior u) :
    Interior (bs ++ u) := by
  induction bs with
  | nil => exact hu
  | cons b bs ih =>
      rw [List.forall_mem_cons] at h
      exact .plain h.1 (ih h.2)

/-- The text of a character may stand in front of any other. -/
theorem CharText.interior_append {c : Char} {t u : Bytes} (h : CharText c t) (hu : Interior u) :
    Interior (t ++ u) := by
  cases h with
  | plain h => exact .plain_append h hu
  | short h => exact .short (mem_of_shortEscape? h) hu
  | hex h => exact .hex (hexValue?_isSome h) hu
  | pair hhi _ hlo => exact .hex (hexValue?_isSome hhi) (.hex (hexValue?_isSome hlo) hu)

/-- The texts of strings may stand between quotation marks. -/
theorem StringText.interior {cs : List Char} {t : Bytes} (h : StringText cs t) : Interior t := by
  induction h with
  | nil => exact .nil
  | cons h _ ih => exact h.interior_append ih

theorem hex4?_isSome {p q r s : UInt8} (h : ∀ d ∈ [p, q, r, s], (hexValue? d).isSome) :
    (hex4? p q r s).isSome := by
  simp only [List.forall_mem_cons, Option.isSome_iff_exists] at h
  obtain ⟨⟨k, hp⟩, ⟨l, hq⟩, ⟨m, hr⟩, ⟨n, hs⟩, -⟩ := h
  simp [hex4?, hp, hq, hr, hs]

theorem shortEscape?_isSome : ∀ e ∈ "\"\\/bfnrt".toList.map byte,
    e ≠ byte 'u' ∧ (shortEscape? e).isSome := by
  simp [byte, shortEscape?]

theorem skipString_plain {b : UInt8} (h : Plain b) (rest : Bytes) :
    skipString (b :: rest) = skipString rest := by
  rw [skipString.eq_def]
  simp only [if_neg h.quote, if_neg h.control, if_pos h.backslash]

theorem skipString_short {e : UInt8} (hu : e ≠ byte 'u') (h : (shortEscape? e).isSome)
    (rest : Bytes) : skipString (byte '\\' :: e :: rest) = skipString rest := by
  have hmark : byte '\\' ≠ byte '"' := by decide
  have hcontrol : ¬byte '\\' < 0x20 := by decide
  rw [skipString.eq_def]
  simp only [if_neg hmark, if_neg hcontrol, ne_eq, not_true_eq_false, if_false, hu,
    not_false_eq_true, if_true, h]

theorem skipString_hex {p q r s : UInt8} (h : (hex4? p q r s).isSome) (rest : Bytes) :
    skipString (byte '\\' :: byte 'u' :: p :: q :: r :: s :: rest) = skipString rest := by
  have hmark : byte '\\' ≠ byte '"' := by decide
  have hcontrol : ¬byte '\\' < 0x20 := by decide
  rw [skipString.eq_def]
  simp only [if_neg hmark, if_neg hcontrol, ne_eq, not_true_eq_false, if_false, h, if_true]

/-- A string is skipped with its closing mark. -/
theorem Interior.skip {t : Bytes} (h : Interior t) (rest : Bytes) :
    skipString (t ++ byte '"' :: rest) = .ok rest := by
  induction h with
  | nil =>
      rw [List.nil_append, skipString.eq_def]
      exact if_pos rfl
  | plain hb _ ih => rw [List.cons_append, skipString_plain hb, ih]
  | short he _ ih =>
      obtain ⟨hu, hsome⟩ := shortEscape?_isSome _ he
      rw [List.cons_append, List.cons_append, skipString_short hu hsome, ih]
  | hex hdigits _ ih =>
      simp only [List.cons_append]
      rw [skipString_hex (hex4?_isSome hdigits), ih]

/-! ## Brackets -/

/-- A part of an array or object: what stands in front of its value, the value, and the blanks
behind it. -/
structure Part where
  name : Bytes
  value : Bytes
  after : Bytes

/-- The text of a part. -/
def Part.text (p : Part) : Bytes := p.name ++ (p.value ++ p.after)

/-- The texts of parts, with commas between them. -/
def partsText : Bool → List Part → Bytes
  | _, [] => []
  | first, p :: ps => separator first ++ (p.text ++ partsText false ps)

/-- An array or object, with blanks in front of it and in front of its end. -/
def bracketText (b : Bracket) (lead : Bytes) (ps : List Part) (pad : Bytes) : Bytes :=
  lead ++ b.opening :: (partsText true ps ++ (pad ++ [b.close]))

/-- The name of a field with its colon, and blanks in front of either. -/
def nameText (before spelling gap : Bytes) : Bytes :=
  before ++ byte '"' :: (spelling ++ byte '"' :: (gap ++ [byte ':']))

/-- What stands in front of a value inside a bracket. -/
inductive NameText : Bracket → Bytes → Prop
  | item : NameText .square []
  | field {before spelling gap : Bytes} (hbefore : Blanks before) (h : Interior spelling)
      (hgap : Blanks gap) : NameText .curly (nameText before spelling gap)

theorem NameText.skip {b : Bracket} {name : Bytes} (h : NameText b name) (rest : Bytes) :
    skipName b (name ++ rest) = .ok rest := by
  cases h with
  | item => rfl
  | field hbefore h hgap =>
      simp only [nameText, List.append_assoc, List.cons_append, List.nil_append, skipName,
        hbefore.skipBlanks_cons (b := byte '"') (by decide), h.skip,
        hgap.skipBlanks_cons (b := byte ':') (by decide), bind, Except.bind]
      rfl

/-- What is left of a bracket behind a value. -/
def restText (b : Bracket) (ps : List Part) (pad rest : Bytes) : Bytes :=
  partsText false ps ++ (pad ++ b.close :: rest)

theorem bracketText_append (b : Bracket) (lead : Bytes) (ps : List Part) (pad rest : Bytes) :
    bracketText b lead ps pad ++ rest =
      lead ++ b.opening :: (partsText true ps ++ (pad ++ b.close :: rest)) := by
  simp only [bracketText, List.append_assoc, List.cons_append, List.nil_append]

theorem isBlank_opening (b : Bracket) : isBlank b.opening = false := by
  cases b <;> decide

theorem isBlank_close (b : Bracket) : isBlank b.close = false := by
  cases b <;> decide

/-- A value ends in front of the comma or the end of its bracket. -/
theorem delimited_restText (b : Bracket) (ps : List Part) {pad : Bytes} (hpad : Blanks pad)
    (rest : Bytes) : Delimited (restText b ps pad rest) := by
  cases ps with
  | nil => exact hpad.delimited (delimited_cons (by cases b <;> decide) rest)
  | cons p ps => exact delimited_cons (by decide) _

/-- Behind the last value comes the end of its bracket. -/
theorem skipBlanks_restText_nil (b : Bracket) {pad : Bytes} (hpad : Blanks pad) (rest : Bytes) :
    skipBlanks (restText b [] pad rest) = b.close :: rest :=
  hpad.skipBlanks_cons (isBlank_close b) rest

/-- Behind any other value comes a comma. -/
theorem skipBlanks_restText_cons (b : Bracket) (p : Part) (ps : List Part) (pad rest : Bytes) :
    skipBlanks (restText b (p :: ps) pad rest) =
      byte ',' :: (p.name ++ (p.value ++ (p.after ++ restText b ps pad rest))) := by
  simp only [restText, partsText, separator, Part.text, Bool.false_eq_true, if_false,
    List.append_assoc, List.cons_append, List.nil_append]
  rw [skipBlanks_cons (by decide)]

/-! ## Texts -/

/-- The texts of JSON values, with blanks in front of every token. -/
inductive Text : Bytes → Prop
  | word {lead w : Bytes} (hlead : Blanks lead)
      (hw : w ∈ ["null", "true", "false"].map fun w => w.toList.map byte) : Text (lead ++ w)
  | number {lead t : Bytes} (hlead : Blanks lead) (negative : Bool) (h : UnsignedText t) :
      Text (lead ++ ((if negative then [byte '-'] else []) ++ t))
  | string {lead t : Bytes} (hlead : Blanks lead) (h : Interior t) :
      Text (lead ++ byte '"' :: (t ++ [byte '"']))
  | bracket (b : Bracket) {lead pad : Bytes} {ps : List Part} (hlead : Blanks lead)
      (hpad : Blanks pad) (hname : ∀ p ∈ ps, NameText b p.name)
      (hvalue : ∀ p ∈ ps, Text p.value) (hafter : ∀ p ∈ ps, Blanks p.after) :
      Text (bracketText b lead ps pad)

/-- What is skipped in so many rounds as it has bytes, whatever a number would end at follows. -/
def SkipsWhole (t : Bytes) : Prop :=
  ∃ n ≤ t.length, ∀ rest, Delimited rest → Skips n (t ++ rest) rest

/-- The parts of a bracket are skipped with its end, if their values are. -/
theorem skipsInside_parts {b : Bracket} {pad : Bytes} (hpad : Blanks pad) {p : Part}
    {ps : List Part} (hname : ∀ q ∈ p :: ps, NameText b q.name)
    (hvalue : ∀ q ∈ p :: ps, SkipsWhole q.value) (hafter : ∀ q ∈ p :: ps, Blanks q.after) :
    ∃ n ≤ (partsText true (p :: ps)).length, ∀ rest,
      SkipsInside b n (p.name ++ (p.value ++ (p.after ++ restText b ps pad rest))) rest := by
  induction ps generalizing p with
  | nil =>
      obtain ⟨n, hn, hskips⟩ := hvalue p List.mem_cons_self
      refine ⟨n, ?_, fun rest => ?_⟩
      · simp only [partsText, Part.text, List.length_append]
        omega
      · have hp := hafter p List.mem_cons_self
        refine .last ((hname p List.mem_cons_self).skip _) (hskips _ ?_) ?_
        · exact hp.delimited (delimited_restText b [] hpad rest)
        · rw [hp.skipBlanks_append, skipBlanks_restText_nil b hpad]
  | cons q ps ih =>
      obtain ⟨n, hn, hskips⟩ := hvalue p List.mem_cons_self
      obtain ⟨m, hm, hrest⟩ := ih (fun q hq => hname q (List.mem_cons_of_mem p hq))
        (fun q hq => hvalue q (List.mem_cons_of_mem p hq))
        fun q hq => hafter q (List.mem_cons_of_mem p hq)
      refine ⟨m + n, ?_, fun rest => ?_⟩
      · simp only [partsText, separator, Part.text, List.length_append] at hm ⊢
        simp only [if_true, List.length_nil] at hm
        omega
      · have hp := hafter p List.mem_cons_self
        refine .more ((hname p List.mem_cons_self).skip _) (hskips _ ?_) ?_ (hrest rest)
        · exact hp.delimited (delimited_restText b (q :: ps) hpad rest)
        · rw [hp.skipBlanks_append, skipBlanks_restText_cons]

theorem skipScalar_word {w : Bytes}
    (h : w ∈ ["null", "true", "false"].map fun w => w.toList.map byte) :
    ∃ b s, w = b :: s ∧ isBlank b = false ∧ ∀ rest, skipScalar b (s ++ rest) = .ok rest := by
  simp only [List.map_cons, List.map_nil, List.mem_cons, List.not_mem_nil, or_false] at h
  obtain rfl | rfl | rfl := h <;> exact ⟨_, _, rfl, by decide, fun _ => rfl⟩

theorem skipScalar_digit {d : UInt8} (hd : isDigit d) (rest : Bytes) :
    skipScalar d rest = skipUnsigned (d :: rest) := by
  have not {c : Char} (hc : isDigit (byte c) = false) : d ≠ byte c := not_of_isDigit hd hc
  rw [skipScalar, if_neg (not (by decide)), if_neg (not (by decide)), if_neg (not (by decide)),
    if_neg (not (by decide)), if_pos hd]

/-- A number begins with a sign or a digit. -/
theorem skipScalar_number (negative : Bool) {t : Bytes} (h : UnsignedText t) :
    ∃ b s, (if negative then [byte '-'] else []) ++ t = b :: s ∧ isBlank b = false ∧
      ∀ rest, Delimited rest → skipScalar b (s ++ rest) = .ok rest := by
  cases negative with
  | true => exact ⟨byte '-', t, rfl, by decide, fun rest hrest => h.skip hrest⟩
  | false =>
      obtain ⟨d, s, rfl, hd⟩ : ∃ d s, t = d :: s ∧ isDigit d := by
        obtain ⟨hi, -, -⟩ := h
        cases hi with
        | zero => exact ⟨_, _, rfl, by decide⟩
        | digits hdigits => exact ⟨_, _, rfl, hdigits.2 _ List.mem_cons_self⟩
      refine ⟨d, s, rfl, isBlank_of_sign (.inr hd), fun rest hrest => ?_⟩
      rw [skipScalar_digit hd]
      exact h.skip hrest

/-- A scalar is skipped in one round, behind its blanks. -/
theorem skipsWhole_scalar {lead t s : Bytes} {b : UInt8} (hlead : Blanks lead) (ht : t = b :: s)
    (hb : isBlank b = false)
    (hskip : ∀ rest, Delimited rest → skipScalar b (s ++ rest) = .ok rest) :
    SkipsWhole (lead ++ t) := by
  subst ht
  refine ⟨1, ?_, fun rest hrest => ?_⟩
  · rw [List.length_append, List.length_cons]
    omega
  · have hblanks : skipBlanks (lead ++ b :: s ++ rest) = b :: (s ++ rest) := by
      rw [List.append_assoc, hlead.skipBlanks_append, List.cons_append, skipBlanks_cons hb]
    exact .scalar hblanks (hskip rest hrest)

/-- Every text of the grammar is skipped, in no more rounds than it has bytes: one for each scalar
and one for each bracket. -/
theorem Text.skipsWhole {t : Bytes} (h : Text t) : SkipsWhole t := by
  induction h with
  | word hlead hw =>
      obtain ⟨b, s, hw, hb, hskip⟩ := skipScalar_word hw
      exact skipsWhole_scalar hlead hw hb fun rest _ => hskip rest
  | number hlead negative h =>
      obtain ⟨b, s, ht, hb, hskip⟩ := skipScalar_number negative h
      exact skipsWhole_scalar hlead ht hb hskip
  | @string lead t hlead h =>
      refine skipsWhole_scalar hlead rfl (by decide) fun rest _ => ?_
      rw [List.append_assoc]
      exact h.skip rest
  | @bracket b lead pad ps hlead hpad hname _ hafter ih =>
      have hopening (rest : Bytes) : skipBlanks (bracketText b lead ps pad ++ rest) =
          b.opening :: (partsText true ps ++ (pad ++ b.close :: rest)) := by
        rw [bracketText_append, hlead.skipBlanks_cons (isBlank_opening b)]
      cases ps with
      | nil =>
          refine ⟨1, ?_, fun rest _ => .empty b (hopening rest) ?_⟩
          · simp only [bracketText, List.length_append, List.length_cons]
            omega
          · exact hpad.skipBlanks_cons (isBlank_close b) rest
      | cons p ps =>
          obtain ⟨n, hn, hinside⟩ := skipsInside_parts hpad hname ih hafter
          refine ⟨n + 1, ?_, fun rest _ => .bracket (hopening rest) ?_⟩
          · simp only [bracketText, List.length_append, List.length_cons]
            omega
          · simpa only [partsText, separator, Part.text, restText, if_true, List.nil_append,
              List.append_assoc] using hinside rest

/-- Every text of the grammar is skipped as one value. -/
theorem Text.skipValue {t rest : Bytes} (h : Text t) (hrest : Delimited rest) :
    skipValue (t ++ rest) = .ok rest := by
  obtain ⟨n, hn, hskips⟩ := h.skipsWhole
  refine (hskips rest hrest).skipValue ?_
  rw [List.length_append]
  omega

end StageGraph.Json
