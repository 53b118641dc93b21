/-
# `StageGraph.Proofs.ValueRoundTrip` — free values and lists, read as printed

What a closure captures is a free value, and it comes back from its text as it is
(`Json.Value.Exact.readsBack`) if it is made of null, truth values, integers of 64 bits,
strings, arrays and objects, and is not nested too deep.  Floating point numbers are left
out, since their shortest text is not looked at here.

An integer ends where no digit follows, so reading it back is the one place at which it
matters what stands behind a value.  Arrays and objects go by their parts; the reader
sorts the fields of an object, and the names of a value are in order already.
-/
import StageGraph.Proofs.WireRoundTrip
import Mathlib.Data.String.Basic

namespace StageGraph

namespace Json

/-! ## Integers -/

theorem toNat_of_isDigit {c : Char} (h : c.isDigit) : 48 ≤ c.toNat ∧ c.toNat ≤ 57 := by
  rw [Char.isDigit, Bool.and_eq_true, decide_eq_true_eq, decide_eq_true_eq] at h
  exact h

theorem toNat_byte {c : Char} (h : c.isDigit) : (byte c).toNat = c.toNat :=
  toNat_ofNat_of_lt (by have := toNat_of_isDigit h; omega)

theorem isDigit_byte {c : Char} (h : c.isDigit) : isDigit (byte c) = true := by
  have hbounds := toNat_of_isDigit h
  rw [← toNat_byte h] at hbounds
  rw [isDigit, Bool.and_eq_true, decide_eq_true_eq, decide_eq_true_eq, UInt8.le_iff_toNat_le,
    UInt8.le_iff_toNat_le]
  exact hbounds

theorem encode_digits {cs : List Char} (h : ∀ c ∈ cs, c.isDigit) :
    Utf8.encode cs = cs.map byte := by
  induction cs with
  | nil => rfl
  | cons c cs ih =>
      have hc := toNat_of_isDigit (h c List.mem_cons_self)
      rw [Utf8.encode_cons, ih fun d hd => h d (List.mem_cons_of_mem c hd), Utf8.encodeChar,
        if_pos (by omega)]
      rfl

/-- All digits are taken, up to where none follows. -/
theorem takeDigits_digits {cs : List Char} (h : ∀ c ∈ cs, c.isDigit) {rest : Bytes}
    (hrest : Delimited rest) :
    takeDigits (cs.map byte ++ rest) = (cs.map fun c => c.toNat - 48, rest) := by
  induction cs with
  | nil =>
      cases rest with
      | nil => rfl
      | cons b rest => simp [takeDigits, (hrest b rfl).1]
  | cons c cs ih =>
      have hc := h c List.mem_cons_self
      simp [takeDigits, isDigit_byte hc, ih fun d hd => h d (List.mem_cons_of_mem c hd),
        toNat_byte hc]

theorem le_foldl_digits (ds : List Nat) (n : Nat) : n ≤ ds.foldl (fun n d => n * 10 + d) n := by
  induction ds generalizing n with
  | nil => exact Nat.le_refl n
  | cons d ds ih => exact Nat.le_trans (by omega) (ih (n * 10 + d))

/-- A number that fits 64 bits uses all of its digits. -/
theorem accumulate_eq (ds : List Nat) {n : Nat}
    (h : ds.foldl (fun n d => n * 10 + d) n < Nat.pow 2 64) :
    accumulate n ds = (ds.foldl (fun n d => n * 10 + d) n, ds.length) := by
  induction ds generalizing n with
  | nil => rfl
  | cons d ds ih =>
      have hfits : n * 10 + d < Nat.pow 2 64 :=
        Nat.lt_of_le_of_lt (le_foldl_digits ds (n * 10 + d)) h
      rw [accumulate, if_pos hfits, ih h]
      rfl

/-- The digits of a number are its value. -/
theorem foldl_toDigits (n : Nat) :
    ((Nat.toDigits 10 n).map fun c => c.toNat - 48).foldl (fun n d => n * 10 + d) 0 = n := by
  have hvalue : Nat.ofDigitChars 10 (Nat.toDigits 10 n) 0 = n := Nat.ofDigitChars_ten_toDigits
  rw [Nat.ofDigitChars_eq_foldl] at hvalue
  rw [List.foldl_map]
  simpa only [Nat.mul_comm, show '0'.toNat = 48 from rfl] using hvalue

theorem isDigit_of_mem_toDigits (n : Nat) : ∀ c ∈ Nat.toDigits 10 n, c.isDigit :=
  fun _ hc => Nat.isDigit_of_mem_toDigits (by decide) (by decide) hc

/-- Only zero begins with a zero. -/
theorem toDigits_cons (n : Nat) :
    ∃ c cs, Nat.toDigits 10 n = c :: cs ∧ c.isDigit ∧ (0 < n → c ≠ '0') := by
  obtain ⟨c, cs, hdigits⟩ := List.exists_cons_of_ne_nil (Nat.toDigits_ne_nil (n := n) (b := 10))
  refine ⟨c, cs, hdigits, isDigit_of_mem_toDigits n c (by simp [hdigits]), ?_⟩
  intro hn
  induction n using Nat.base_induction 10 (by decide) generalizing c cs with
  | single m hm =>
      rw [Nat.toDigits_of_lt_base hm] at hdigits
      cases hdigits
      rw [Ne, Nat.digitChar_eq_zero]
      omega
  | digit m k hk hm ih =>
      rw [← Nat.toDigits_append_toDigits (by decide) hm hk] at hdigits
      obtain ⟨d, ds, hm'⟩ := List.exists_cons_of_ne_nil (Nat.toDigits_ne_nil (n := m) (b := 10))
      rw [hm'] at hdigits
      cases hdigits
      exact ih _ _ hm' hm

/-- The digits are read as their value, up to a fraction or an exponent. -/
theorem readUnsigned_digits (negative : Bool) {n : Nat} (hn : n < Nat.pow 2 64) {rest : Bytes}
    (hrest : Delimited rest) :
    readUnsigned negative ((Nat.toDigits 10 n).map byte ++ rest) =
      readNumberTail negative n 0 rest := by
  cases Nat.eq_zero_or_pos n with
  | inl hzero =>
      subst hzero
      cases rest with
      | nil => rfl
      | cons b rest =>
          rw [Nat.toDigits_zero, readUnsigned.eq_def]
          simp [(hrest b rfl).1]
  | inr hpos =>
      obtain ⟨c, cs, heq, hdigit, hc⟩ := toDigits_cons n
      have htaken := takeDigits_digits (isDigit_of_mem_toDigits n) hrest
      have hused := accumulate_eq ((Nat.toDigits 10 n).map fun c => c.toNat - 48) (n := 0)
        (by rwa [foldl_toDigits])
      rw [foldl_toDigits] at hused
      have hzero : byte c ≠ byte '0' := by
        intro h
        have hnat : c.toNat = '0'.toNat := by
          rw [← toNat_byte hdigit, h]
          rfl
        exact hc hpos (by rw [← Char.ofNat_toNat c, hnat]; rfl)
      rw [heq, List.map_cons, List.cons_append] at htaken ⊢
      rw [heq] at hused
      simp only [readUnsigned, if_neg hzero, isDigit_byte hdigit, if_true, htaken, hused,
        Nat.sub_self]

theorem readNumberTail_delimited (negative : Bool) {n : Nat} {rest : Bytes}
    (hrest : Delimited rest) (hn : negative = true → 0 < n ∧ n ≤ Nat.pow 2 63) :
    readNumberTail negative n 0 rest = .ok (.int (if negative then -n else n), rest) := by
  have hplain : (if (0 : Nat) ≠ 0 then decimalNumber negative n 0 rest
      else if !negative then .ok (.int n, rest)
      else if n = 0 ∨ Nat.pow 2 63 < n then .ok (.float (Binary64.ofNat n).negate, rest)
      else .ok (.int (-(n : Int)), rest) : Except Stop (Number × Bytes)) =
      .ok (.int (if negative then -n else n), rest) := by
    cases negative with
    | false => rfl
    | true =>
        obtain ⟨hpos, hfits⟩ := hn rfl
        simp [show n ≠ 0 by omega, show ¬Nat.pow 2 63 < n by omega]
  cases rest with
  | nil => exact hplain
  | cons b rest =>
      obtain ⟨-, hpoint, hsmall, hlarge⟩ := hrest b rfl
      have hmark : (b == byte 'e' || b == byte 'E') = false := by simp [hsmall, hlarge]
      rw [readNumberTail.eq_def]
      simp only [if_neg hpoint, hmark, Bool.false_eq_true, if_false]
      exact hplain

theorem encode_printInt (n : Int) :
    Utf8.encode (printInt n) =
      (if n < 0 then [byte '-'] else []) ++ (Nat.toDigits 10 n.natAbs).map byte := by
  cases n with
  | ofNat n => exact encode_digits (isDigit_of_mem_toDigits n)
  | negSucc n =>
      rw [printInt, Utf8.encode_cons, encode_digits (isDigit_of_mem_toDigits (n + 1)),
        if_pos (Int.negSucc_lt_zero n)]
      rfl

/-- The text of an integer begins with its sign or with a digit. -/
theorem encode_printInt_cons (n : Int) :
    ∃ b text, Utf8.encode (printInt n) = b :: text ∧ (b = byte '-' ∨ isDigit b) := by
  obtain ⟨c, cs, hdigits, hdigit, -⟩ := toDigits_cons n.natAbs
  rw [encode_printInt, hdigits]
  by_cases hneg : n < 0
  · rw [if_pos hneg]
    exact ⟨_, _, rfl, .inl rfl⟩
  · rw [if_neg hneg]
    exact ⟨_, _, rfl, .inr (isDigit_byte hdigit)⟩

theorem isWord_iff (n : Int) : isWord n ↔ -Nat.pow 2 63 ≤ n ∧ n < Nat.pow 2 64 := by
  rw [isWord, Bool.and_eq_true, decide_eq_true_eq, decide_eq_true_eq]
  exact Iff.rfl

/-- An integer of 64 bits is read back. -/
theorem readNumber_printInt {n : Int} (hn : isWord n) {rest : Bytes} (hrest : Delimited rest) :
    readNumber (Utf8.encode (printInt n) ++ rest) = .ok (.int n, rest) := by
  obtain ⟨hleast, hgreatest⟩ := (isWord_iff n).mp hn
  have hwider : Nat.pow 2 63 < Nat.pow 2 64 := by decide
  have hunsigned := readUnsigned_digits (decide (n < 0)) (n := n.natAbs) (by omega) hrest
  rw [readNumberTail_delimited _ hrest (by rw [decide_eq_true_eq]; omega)] at hunsigned
  by_cases hneg : n < 0
  · rw [decide_eq_true hneg, if_pos rfl, show -(n.natAbs : Int) = n by omega] at hunsigned
    rw [encode_printInt, if_pos hneg, List.cons_append, List.cons_append, List.nil_append,
      readNumber, if_pos rfl]
    exact hunsigned
  · rw [decide_eq_false hneg, if_neg (by decide), show (n.natAbs : Int) = n by omega] at hunsigned
    have htext : Utf8.encode (printInt n) = (Nat.toDigits 10 n.natAbs).map byte := by
      rw [encode_printInt, if_neg hneg, List.nil_append]
    obtain ⟨c, cs, hdigits, hdigit, -⟩ := toDigits_cons n.natAbs
    have hminus : byte c ≠ byte '-' := by
      intro h
      have := isDigit_byte hdigit
      rw [h] at this
      exact absurd this (by decide)
    rw [htext]
    rw [hdigits, List.map_cons, List.cons_append] at hunsigned ⊢
    rw [readNumber, if_neg hminus]
    exact hunsigned

/-! ## Where a value begins -/

/-- The text of a value begins with a byte that is neither a blank nor the end of an array. -/
def Opens (v : Value) : Prop :=
  ∃ b text, v.encode = b :: text ∧ isBlank b = false ∧ b ≠ byte ']'

theorem not_of_sign {b c : UInt8} (h : b = byte '-' ∨ isDigit b)
    (hc : c ≠ byte '-' ∧ isDigit c = false) : b ≠ c := by
  rintro rfl
  rcases h with h | h
  · exact hc.1 h
  · rw [hc.2] at h
    cases h

theorem isBlank_of_sign {b : UInt8} (h : b = byte '-' ∨ isDigit b) : isBlank b = false := by
  simp [isBlank, not_of_sign h (c := 32) (by decide), not_of_sign h (c := 10) (by decide),
    not_of_sign h (c := 9) (by decide), not_of_sign h (c := 13) (by decide)]

theorem opens {v : Value} (h : ∀ x, v ≠ .float x) : Opens v := by
  cases v with
  | null => exact ⟨_, _, rfl, by decide, by decide⟩
  | bool b => cases b <;> exact ⟨_, _, rfl, by decide, by decide⟩
  | int n =>
      obtain ⟨b, text, htext, hb⟩ := encode_printInt_cons n
      exact ⟨b, text, htext, isBlank_of_sign hb, not_of_sign hb (by decide)⟩
  | float x => exact absurd rfl (h x)
  | string s => exact ⟨_, _, encode_string s, by decide, by decide⟩
  | array items => exact ⟨_, _, rfl, by decide, by decide⟩
  | object fields => exact ⟨_, _, encode_object fields, by decide, by decide⟩

/-- Where an integer begins, it is found. -/
theorem readFound_int {n : Int} (hn : isWord n) {rest : Bytes} (hrest : Delimited rest) :
    readFound ((Value.int n).encode ++ rest) = .ok (.int n, rest) := by
  have hread := readNumber_printInt hn hrest
  obtain ⟨b, text, htext, hb⟩ := encode_printInt_cons n
  show readFound (Utf8.encode (printInt n) ++ rest) = .ok (.int n, rest)
  rw [htext, List.cons_append] at hread ⊢
  simp only [readFound, skipBlanks_cons (isBlank_of_sign hb),
    if_neg (not_of_sign hb (c := byte 'n') (by decide)),
    if_neg (not_of_sign hb (c := byte 't') (by decide)),
    if_neg (not_of_sign hb (c := byte 'f') (by decide)), if_pos hb, hread, bind, Except.bind]

theorem readFound_bracket (rest : Bytes) :
    readFound (byte '[' :: rest) = .ok (.sequence, rest) := by
  rw [readFound, skipBlanks_cons (by decide)]
  simp [byte, isDigit]

/-! ## Arrays -/

/-- The text of the items of an array, without brackets. -/
def itemsText : Bool → List Value → Bytes
  | _, [] => []
  | first, v :: rest => separator first ++ (v.encode ++ itemsText false rest)

theorem encode_joinedItems (items : List Value) :
    Utf8.encode (joined (printItems items)) = itemsText true items := by
  suffices h : ∀ v items, Utf8.encode (joined (printItems (v :: items))) =
      itemsText true (v :: items) by
    cases items with
    | nil => rfl
    | cons v items => exact h v items
  intro v items
  induction items generalizing v with
  | nil =>
      simp only [printItems, joined, itemsText, separator, if_true, List.nil_append,
        List.append_nil]
      rfl
  | cons w items ih =>
      have hsplit : joined (printItems (v :: w :: items)) =
          print v ++ ',' :: joined (printItems (w :: items)) := rfl
      have hcomma : Utf8.encodeChar ',' ++ itemsText true (w :: items) =
          itemsText false (w :: items) := rfl
      rw [hsplit, Utf8.encode_append, Utf8.encode_cons, ih w, hcomma]
      rfl

theorem encode_array (items : List Value) :
    (Value.array items).encode = byte '[' :: (itemsText true items ++ [byte ']']) := by
  rw [Value.encode, print, Utf8.encode_append, Utf8.encode_cons, encode_joinedItems]
  rfl

theorem encode_array_append (items : List Value) (rest : Bytes) :
    (Value.array items).encode ++ rest = byte '[' :: (itemsText true items ++ byte ']' :: rest) := by
  rw [encode_array, List.cons_append, List.append_assoc, List.cons_append, List.nil_append]

/-- An item takes at least one byte. -/
theorem length_le_itemsText {items : List Value} (h : ∀ v ∈ items, Opens v) (first : Bool) :
    items.length ≤ (itemsText first items).length := by
  induction items generalizing first with
  | nil => exact Nat.le_refl _
  | cons v items ih =>
      obtain ⟨b, text, htext, -⟩ := h v List.mem_cons_self
      have hrest := ih (fun w hw => h w (List.mem_cons_of_mem v hw)) false
      simp only [itemsText, htext, List.length_cons, List.length_append]
      omega

/-- So the length of what is left of a text is fuel enough for its items. -/
theorem length_lt_itemsText {items : List Value} (h : ∀ v ∈ items, Opens v) (rest : Bytes) :
    items.length < (itemsText true items ++ rest).length + 1 := by
  have hlength := length_le_itemsText h true
  rw [List.length_append]
  omega

theorem delimited_itemsText (items : List Value) (rest : Bytes) :
    Delimited (itemsText false items ++ byte ']' :: rest) := by
  cases items with
  | nil => exact delimited_cons (by decide) rest
  | cons v items => exact delimited_cons (by decide) _

theorem nextItem_end (first : Bool) (rest : Bytes) :
    nextItem first (byte ']' :: rest) = .ok (false, byte ']' :: rest) := by
  rw [nextItem, skipBlanks_cons (by decide)]
  simp

theorem nextItem_item {v : Value} (h : Opens v) (first : Bool) (rest : Bytes) :
    nextItem first (separator first ++ (v.encode ++ rest)) = .ok (true, v.encode ++ rest) := by
  obtain ⟨b, text, htext, hblank, hend⟩ := h
  have hcomma : byte ',' ≠ byte ']' := by decide
  rw [htext]
  cases first with
  | true =>
      simp only [separator, if_true, List.nil_append, List.cons_append, nextItem,
        skipBlanks_cons hblank, if_neg hend]
  | false =>
      simp (disch := decide) only [separator, List.cons_append, List.nil_append, nextItem,
        skipBlanks_cons, Bool.false_eq_true, if_false, if_neg hcomma]
      simp only [if_true, skipBlanks_cons hblank, if_neg hend]

/-- Items that are read back one by one are read back together. -/
theorem readItems_itemsText {α : Type} {item : Reader α} {toValue : α → Value} {as : List α}
    (hread : ∀ a ∈ as, ∀ rest, Delimited rest →
      item ((toValue a).encode ++ rest) = .ok (a, rest))
    (hopens : ∀ a ∈ as, Opens (toValue a)) (rest : Bytes) (fuel : Nat) (first : Bool)
    (hfuel : as.length < fuel) :
    readItems item fuel first (itemsText first (as.map toValue) ++ byte ']' :: rest) =
      .ok (as, rest) := by
  induction as generalizing fuel first with
  | nil =>
      cases fuel with
      | zero => exact absurd hfuel (Nat.not_lt_zero _)
      | succ fuel =>
          simp only [List.map_nil, itemsText, List.nil_append, readItems, nextItem_end, bind,
            Except.bind, Bool.false_eq_true, if_false, List.drop_succ_cons, List.drop_zero]
  | cons a as ih =>
      cases fuel with
      | zero => exact absurd hfuel (Nat.not_lt_zero _)
      | succ fuel =>
          have hrest := ih (fun b hb => hread b (List.mem_cons_of_mem a hb))
            (fun b hb => hopens b (List.mem_cons_of_mem a hb)) fuel false
            (Nat.lt_of_succ_lt_succ hfuel)
          have hitem := hread a List.mem_cons_self _ (delimited_itemsText (as.map toValue) rest)
          simp only [List.map_cons, itemsText, List.append_assoc, readItems,
            nextItem_item (hopens a List.mem_cons_self), hitem, hrest, bind, Except.bind, if_true]

/-! ## Objects -/

/-- Fields whose values are read back one by one are read back together. -/
theorem readFields_fieldsText {value : Reader Value} {fields : List (String × Value)}
    (hread : ∀ f ∈ fields, ∀ rest, Delimited rest →
      value (f.2.encode ++ rest) = .ok (f.2, rest))
    (rest : Bytes) (fuel : Nat) (first : Bool) (hfuel : fields.length < fuel) :
    readFields value fuel first (fieldsText first fields ++ byte '\x7d' :: rest) =
      .ok (fields, rest) := by
  induction fields generalizing fuel first with
  | nil =>
      cases fuel with
      | zero => exact absurd hfuel (Nat.not_lt_zero _)
      | succ fuel =>
          simp only [fieldsText, List.nil_append, readFields, nextName_end, bind, Except.bind]
  | cons f fields ih =>
      cases fuel with
      | zero => exact absurd hfuel (Nat.not_lt_zero _)
      | succ fuel =>
          have hrest := ih (fun g hg => hread g (List.mem_cons_of_mem f hg)) fuel false
            (Nat.lt_of_succ_lt_succ hfuel)
          have hvalue := hread f List.mem_cons_self _ (delimited_fieldsText fields rest)
          simp only [fieldsText, List.append_assoc, List.cons_append, readFields, nextName_name,
            readColon_cons, hvalue, hrest, bind, Except.bind]

/-- A field whose name comes after all others is put last. -/
theorem insert_last {name : String} {fields : List (String × Value)}
    (h : ∀ f ∈ fields, f.1 < name) (v : Value) :
    insert name v fields = fields ++ [(name, v)] := by
  induction fields with
  | nil => rfl
  | cons f fields ih =>
      have hlt : f.1 < name := h f List.mem_cons_self
      rw [insert, if_neg (lt_asymm hlt), if_neg (ne_of_gt hlt),
        ih fun g hg => h g (List.mem_cons_of_mem f hg)]
      rfl

/-- Fields in the order of their names stay as they are. -/
theorem ofFields_of_sorted {fields : List (String × Value)}
    (h : (fields.map Prod.fst).Pairwise (· < ·)) : ofFields fields = .object fields := by
  suffices hfold : ∀ taken, ((taken ++ fields).map Prod.fst).Pairwise (· < ·) →
      fields.foldl (fun sorted f => insert f.1 f.2 sorted) taken = taken ++ fields by
    rw [ofFields, hfold [] h, List.nil_append]
  clear h
  induction fields with
  | nil =>
      intro taken _
      rw [List.append_nil]
      rfl
  | cons f fields ih =>
      intro taken hsorted
      have hlast : ∀ g ∈ taken, g.1 < f.1 := by
        intro g hg
        rw [List.map_append, List.pairwise_append] at hsorted
        exact hsorted.2.2 g.1 (List.mem_map_of_mem hg) f.1 List.mem_cons_self
      rw [List.foldl_cons, insert_last hlast]
      rw [List.append_cons taken f fields] at hsorted ⊢
      exact ih (taken ++ [f]) hsorted

/-! ## Free values -/

/-- A value that is kept by its text: null, truth values, integers of 64 bits, strings, and arrays
and objects of such values, nested so deep at most.  The names of an object are in ascending
order. -/
inductive Value.Exact : Nat → Value → Prop
  | null {depth : Nat} : Exact depth .null
  | bool {depth : Nat} (b : Bool) : Exact depth (.bool b)
  | int {depth : Nat} {n : Int} (hn : isWord n) : Exact depth (.int n)
  | string {depth : Nat} (s : String) : Exact depth (.string s)
  | array {depth : Nat} {items : List Value} (h : ∀ v ∈ items, Exact depth v) :
      Exact (depth + 1) (.array items)
  | object {depth : Nat} {fields : List (String × Value)}
      (hsorted : (fields.map Prod.fst).Pairwise (· < ·)) (h : ∀ f ∈ fields, Exact depth f.2) :
      Exact (depth + 1) (.object fields)

theorem Value.Exact.opens {depth : Nat} {v : Value} (h : v.Exact depth) : Opens v :=
  Json.opens fun x hx => by rw [hx] at h; cases h

theorem readValue_scalar {f : Found} {v : Value} (hv : f.scalar? = some v) (room : Nat)
    {s rest : Bytes} (h : readFound s = .ok (f, rest)) : readValue room s = .ok (v, rest) := by
  cases room <;> simp only [readValue, h, hv, bind, Except.bind]

/-- Such a value is read back as it is. -/
theorem Value.Exact.readValue {depth : Nat} {v : Value} (h : v.Exact depth) {rest : Bytes}
    (hrest : Delimited rest) : readValue depth (v.encode ++ rest) = .ok (v, rest) := by
  induction h generalizing rest with
  | null => exact readValue_scalar (f := .null) rfl _ rfl
  | bool b => exact readValue_scalar (f := .bool b) rfl _ (by cases b <;> rfl)
  | int hn => exact readValue_scalar rfl _ (readFound_int hn hrest)
  | string s =>
      rw [encode_string_append]
      exact readValue_scalar rfl _ (readFound_string s rest)
  | @array depth items h ih =>
      have hopens : ∀ v ∈ items, Opens v := fun v hv => (h v hv).opens
      have hitems := readItems_itemsText (fun v hv rest => @ih v hv rest) hopens rest _ true
        (length_lt_itemsText hopens (byte ']' :: rest))
      rw [List.map_id'] at hitems
      rw [encode_array_append]
      simp only [Json.readValue, readFound_bracket, Found.scalar?, hitems, bind, Except.bind]
  | @object depth fields hsorted h ih =>
      have hfields := readFields_fieldsText (fun f hf rest => @ih f hf rest) rest _ true
        (length_lt_fieldsText fields (byte '\x7d' :: rest))
      rw [encode_object_append]
      simp only [Json.readValue, readFound_brace, Found.scalar?, hfields, ofFields_of_sorted hsorted,
        bind, Except.bind]

end Json

namespace Wire.Codec

variable {α : Type}

theorem ReadsBack.value {room : Nat} {v : Json.Value} (h : v.Exact room) :
    value.ReadsBack room v := by
  intro rest hrest
  exact h.readValue hrest

/-- A list is read back from its items. -/
theorem ReadsBack.list {c : Codec α} {room : Nat} {as : List α} (h : ∀ a ∈ as, c.ReadsBack room a)
    (hopens : ∀ a ∈ as, Json.Opens (c.toValue a)) : c.list.ReadsBack (room + 1) as := by
  intro rest _
  have hopens' : ∀ v ∈ as.map c.toValue, Json.Opens v := List.forall_mem_map.mpr hopens
  have hfuel := Json.length_lt_itemsText hopens' (Json.byte ']' :: rest)
  rw [List.length_map] at hfuel
  have hitems := Json.readItems_itemsText h hopens rest _ true hfuel
  show c.list.read (room + 1) ((Json.Value.array (as.map c.toValue)).encode ++ rest) =
    .ok (as, rest)
  rw [Json.encode_array_append]
  simp only [Codec.list, Json.readFound_bracket, Codec.insideArray, Codec.inside, hitems,
    Json.settle, bind, Except.bind]

end Wire.Codec

end StageGraph
