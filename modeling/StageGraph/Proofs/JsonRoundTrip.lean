/-
# `StageGraph.Proofs.JsonRoundTrip` — strings and the parts of objects, read as printed

What the printer writes, the reader takes off the front of the bytes, and it leaves
what follows.  For a string this is `Json.readString_inner`.  The reader takes more than
the printer writes: `Json.StringText` has all ways of writing the characters of a string, as
they stand or by an escape, and `Json.readString_text` says that each of them is read as
this string.

Of arrays and objects only single steps are needed: to the next name, over the
colon, to the closing brace.
-/
import StageGraph.Proofs.TextRoundTrip
import StageGraph.Json.Reader
import StageGraph.Json.Printer

namespace StageGraph.Json

/-! ## Bytes inside a string -/

/-- A byte that means nothing but itself inside a string. -/
structure Plain (b : UInt8) : Prop where
  quote : b ≠ byte '"'
  backslash : b ≠ byte '\\'
  control : ¬b < 0x20

theorem readStringBytes_plain {bs : Bytes} (h : ∀ b ∈ bs, Plain b) (acc rest : Bytes) :
    readStringBytes acc (bs ++ rest) = readStringBytes (bs.reverse ++ acc) rest := by
  induction bs generalizing acc with
  | nil => rfl
  | cons b bs ih =>
      obtain ⟨hquote, hbackslash, hcontrol⟩ := h b List.mem_cons_self
      have hstep : readStringBytes acc (b :: (bs ++ rest)) =
          readStringBytes (b :: acc) (bs ++ rest) := by
        rw [readStringBytes.eq_def]
        simp only [if_neg hquote, if_neg hcontrol, if_pos hbackslash]
      rw [List.cons_append, hstep, ih fun b' hb' => h b' (List.mem_cons_of_mem b hb')]
      simp

theorem readStringBytes_short {e x : UInt8} (h : shortEscape? e = some x) (hu : e ≠ byte 'u')
    (acc rest : Bytes) :
    readStringBytes acc (byte '\\' :: e :: rest) = readStringBytes (x :: acc) rest := by
  rw [readStringBytes.eq_def]
  simp [byte, h, show e ≠ 117 from hu]

theorem readStringBytes_hex {p q r s : UInt8} {n : Nat} (h : hex4? p q r s = some n)
    (htrailing : isTrailing n = false) (hleading : isLeading n = false) (acc rest : Bytes) :
    readStringBytes acc (byte '\\' :: byte 'u' :: p :: q :: r :: s :: rest) =
      readStringBytes (push (Char.ofNat n) acc) rest := by
  rw [readStringBytes.eq_def]
  simp [byte, h, htrailing, hleading]

theorem readStringBytes_pair {p q r s p' q' r' s' : UInt8} {hi lo : Nat}
    (hhi : hex4? p q r s = some hi) (hleading : isLeading hi)
    (hlo : hex4? p' q' r' s' = some lo) (htrailing : isTrailing lo) (acc rest : Bytes) :
    readStringBytes acc (byte '\\' :: byte 'u' :: p :: q :: r :: s ::
        byte '\\' :: byte 'u' :: p' :: q' :: r' :: s' :: rest) =
      readStringBytes (push (joinPair hi lo) acc) rest := by
  have hhalf : isTrailing hi = false := by
    simp only [isLeading, isTrailing, Bool.and_eq_true, Bool.and_eq_false_iff, decide_eq_true_eq,
      decide_eq_false_iff_not] at hleading ⊢
    omega
  rw [readStringBytes.eq_def]
  simp [byte, hhi, hlo, hleading, htrailing, hhalf]

theorem plain_of_toNat {b : UInt8} (h : b.toNat ≠ 34 ∧ b.toNat ≠ 92 ∧ 0x20 ≤ b.toNat) :
    Plain b where
  quote := by
    rintro rfl
    exact h.1 rfl
  backslash := by
    rintro rfl
    exact h.2.1 rfl
  control := by
    rw [UInt8.lt_iff_toNat_lt]
    exact Nat.not_lt.mpr h.2.2

/-- All bytes of the forms with more than one byte lie above the ASCII range. -/
theorem high_of_encodeChar {c : Char} (hc : 0x80 ≤ c.toNat) :
    ∀ b ∈ Utf8.encodeChar c, 0x80 ≤ b.toNat := by
  have hmax := toNat_lt_of_char c
  have high {n : Nat} (h : 0x80 ≤ n ∧ n < 256) : 0x80 ≤ (UInt8.ofNat n).toNat := by
    rw [toNat_ofNat_of_lt h.2]
    exact h.1
  have tail (n : Nat) : 0x80 ≤ (UInt8.ofNat (0x80 + n % 64)).toNat := high (by omega)
  intro b hb
  rw [Utf8.encodeChar, if_neg (Nat.not_lt.mpr hc)] at hb
  by_cases htwo : c.toNat < 0x800
  · simp only [if_pos htwo, List.mem_cons, List.not_mem_nil, or_false] at hb
    rcases hb with rfl | rfl
    · exact high (by omega)
    · exact tail _
  by_cases hthree : c.toNat < 0x10000
  · simp only [if_neg htwo, if_pos hthree, List.mem_cons, List.not_mem_nil, or_false] at hb
    rcases hb with rfl | rfl | rfl
    · exact high (by omega)
    · exact tail _
    · exact tail _
  · simp only [if_neg htwo, if_neg hthree, List.mem_cons, List.not_mem_nil, or_false] at hb
    rcases hb with rfl | rfl | rfl | rfl
    · exact high (by omega)
    · exact tail _
    · exact tail _
    · exact tail _

/-- Every byte of a character that needs no escape is plain. -/
theorem plain_of_encodeChar {c : Char} (hquote : c ≠ '"') (hbackslash : c ≠ '\\')
    (hcontrol : 0x20 ≤ c.toNat) : ∀ b ∈ Utf8.encodeChar c, Plain b := by
  intro b hb
  by_cases hascii : c.toNat < 0x80
  · rw [Utf8.encodeChar, if_pos hascii] at hb
    obtain rfl := List.mem_singleton.mp hb
    have hne (d : Char) (hd : c ≠ d) : c.toNat ≠ d.toNat := by
      intro h
      exact hd (by rw [← Char.ofNat_toNat c, h, Char.ofNat_toNat])
    refine plain_of_toNat ?_
    rw [toNat_ofNat_of_lt (by omega)]
    exact ⟨hne '"' hquote, hne '\\' hbackslash, hcontrol⟩
  · have hhigh := high_of_encodeChar (Nat.not_lt.mp hascii) b hb
    exact plain_of_toNat (by omega)

/-! ## Escapes -/

theorem hexValue?_hexDigit : ∀ n < 16, hexValue? (byte (hexDigit n)) = some n := by decide

theorem encodeChar_hexDigit : ∀ n < 16, Utf8.encodeChar (hexDigit n) = [byte (hexDigit n)] := by
  decide

theorem encode_hexEscape {n : Nat} (h : n < 256) :
    Utf8.encode ['\\', 'u', '0', '0', hexDigit (n / 16), hexDigit (n % 16)] =
      [byte '\\', byte 'u', byte '0', byte '0', byte (hexDigit (n / 16)),
        byte (hexDigit (n % 16))] := by
  simp only [Utf8.encode_cons, Utf8.encode_nil, encodeChar_hexDigit (n / 16) (by omega),
    encodeChar_hexDigit (n % 16) (by omega)]
  rfl

theorem hex4?_hexDigit {n : Nat} (h : n < 256) :
    hex4? (byte '0') (byte '0') (byte (hexDigit (n / 16))) (byte (hexDigit (n % 16))) =
      some n := by
  have hzero : hexValue? (byte '0') = some 0 := rfl
  have hn : (0 * 16 + 0) * 16 + n / 16 = n / 16 := by omega
  simp only [hex4?, hzero, hexValue?_hexDigit (n / 16) (by omega),
    hexValue?_hexDigit (n % 16) (by omega), Option.bind_eq_bind, Option.bind_some, hn,
    Nat.div_add_mod']

/-- The ways in which a character may be written inside a string: as it is, by the letter of an
escape, by its number, or by the two halves of a pair. -/
inductive CharText (c : Char) : Bytes → Prop
  | plain (h : ∀ b ∈ Utf8.encodeChar c, Plain b) : CharText c (Utf8.encodeChar c)
  | short {e x : UInt8} (h : shortEscape? e = some x) (hc : Utf8.encodeChar c = [x]) :
      CharText c [byte '\\', e]
  | hex {p q r s : UInt8} (h : hex4? p q r s = some c.toNat) :
      CharText c [byte '\\', byte 'u', p, q, r, s]
  | pair {p q r s p' q' r' s' : UInt8} {hi lo : Nat} (hhi : hex4? p q r s = some hi)
      (hleading : isLeading hi) (hlo : hex4? p' q' r' s' = some lo) (htrailing : isTrailing lo)
      (hc : joinPair hi lo = c) :
      CharText c [byte '\\', byte 'u', p, q, r, s, byte '\\', byte 'u', p', q', r', s']

/-- No character is half of a pair. -/
theorem not_half_of_char (c : Char) : isTrailing c.toNat = false ∧ isLeading c.toNat = false := by
  have hvalid : c.toNat < 0xD800 ∨ 0xDFFF < c.toNat ∧ c.toNat < 0x110000 := c.valid
  simp only [isTrailing, isLeading, Bool.and_eq_false_iff, decide_eq_false_iff_not]
  omega

/-- A character is read back from any of its texts. -/
theorem CharText.read {c : Char} {t : Bytes} (h : CharText c t) (acc rest : Bytes) :
    readStringBytes acc (t ++ rest) = readStringBytes (push c acc) rest := by
  cases h with
  | plain h => exact readStringBytes_plain h acc rest
  | @short e x h hc =>
      have hu : e ≠ byte 'u' := by
        rintro rfl
        cases h
      rw [push, hc]
      exact readStringBytes_short h hu acc rest
  | hex h =>
      obtain ⟨htrailing, hleading⟩ := not_half_of_char c
      have hread := readStringBytes_hex h htrailing hleading acc rest
      rw [Char.ofNat_toNat] at hread
      exact hread
  | pair hhi hleading hlo htrailing hc =>
      have hread := readStringBytes_pair hhi hleading hlo htrailing acc rest
      rw [hc] at hread
      exact hread

/-- A character is written in one of these ways. -/
theorem charText_escapeChar (c : Char) : CharText c (Utf8.encode (escapeChar c)) := by
  have short {e x : Char} (hbytes : Utf8.encode ['\\', e] = [byte '\\', byte e])
      (hescape : shortEscape? (byte e) = some (byte x)) (hx : Utf8.encodeChar x = [byte x]) :
      CharText x (Utf8.encode ['\\', e]) := by
    rw [hbytes]
    exact .short hescape hx
  have named {n : Nat} (h : c.toNat = n) : c = Char.ofNat n := by rw [← h, Char.ofNat_toNat]
  unfold escapeChar
  split
  · next h =>
      subst h
      exact short rfl rfl rfl
  split
  · next h =>
      subst h
      exact short rfl rfl rfl
  next hquote hbackslash =>
  split
  · next hcontrol =>
      rw [Utf8.encode_cons, Utf8.encode_nil, List.append_nil]
      exact .plain (plain_of_encodeChar hquote hbackslash hcontrol)
  next hcontrol =>
  split
  · next h => exact named h ▸ short rfl rfl rfl
  split
  · next h => exact named h ▸ short rfl rfl rfl
  split
  · next h => exact named h ▸ short rfl rfl rfl
  split
  · next h => exact named h ▸ short rfl rfl rfl
  split
  · next h => exact named h ▸ short rfl rfl rfl
  · have hbyte : c.toNat < 256 := by omega
    rw [encode_hexEscape hbyte]
    exact .hex (hex4?_hexDigit hbyte)

/-! ## Strings -/

/-- The bytes of a string between its quotation marks. -/
def inner (s : String) : Bytes := Utf8.encode (s.toList.flatMap escapeChar)

theorem encode_printString (s : String) :
    Utf8.encode (printString s) = byte '"' :: (inner s ++ [byte '"']) := by
  rw [printString, Utf8.encode_append, Utf8.encode_cons]
  rfl

/-- The texts of a string between its quotation marks. -/
inductive StringText : List Char → Bytes → Prop
  | nil : StringText [] []
  | cons {c : Char} {cs : List Char} {t ts : Bytes} (h : CharText c t) (hs : StringText cs ts) :
      StringText (c :: cs) (t ++ ts)

/-- What is printed is one of them. -/
theorem stringText_inner (s : String) : StringText s.toList (inner s) := by
  unfold inner
  induction s.toList with
  | nil => exact .nil
  | cons c cs ih =>
      rw [List.flatMap_cons, Utf8.encode_append]
      exact .cons (charText_escapeChar c) ih

theorem StringText.read {cs : List Char} {t : Bytes} (h : StringText cs t) (acc rest : Bytes) :
    readStringBytes acc (t ++ byte '"' :: rest) = .ok (acc.reverse ++ Utf8.encode cs, rest) := by
  induction h generalizing acc with
  | nil =>
      rw [List.nil_append, Utf8.encode_nil, List.append_nil, readStringBytes.eq_def]
      rfl
  | cons h _ ih =>
      rw [List.append_assoc, h.read, ih, Utf8.encode_cons, push]
      simp

/-- A string is read back from any of its texts. -/
theorem readString_text {s : String} {t : Bytes} (h : StringText s.toList t) (rest : Bytes) :
    readString (t ++ byte '"' :: rest) = .ok (s, rest) := by
  simp only [readString, h.read, bind, Except.bind, List.reverse_nil, List.nil_append,
    Utf8.toString?_encode]

/-- A string is read back as it was printed. -/
theorem readString_inner (s : String) (rest : Bytes) :
    readString (inner s ++ byte '"' :: rest) = .ok (s, rest) :=
  readString_text (stringText_inner s) rest

/-! ## Behind a value -/

/-- What follows cannot be taken for a part of a number that ends here. -/
def Delimited (rest : Bytes) : Prop :=
  ∀ b ∈ rest.head?, isDigit b = false ∧ b ≠ byte '.' ∧ b ≠ byte 'e' ∧ b ≠ byte 'E'

theorem delimited_nil : Delimited [] := by
  intro b hb
  cases hb

theorem delimited_cons {b : UInt8}
    (h : isDigit b = false ∧ b ≠ byte '.' ∧ b ≠ byte 'e' ∧ b ≠ byte 'E') (rest : Bytes) :
    Delimited (b :: rest) := by
  intro c hc
  obtain rfl := Option.some.inj hc
  exact h

/-! ## Steps -/

theorem skipBlanks_cons {b : UInt8} (h : isBlank b = false) (rest : Bytes) :
    skipBlanks (b :: rest) = b :: rest := by
  simp [skipBlanks, h]

theorem readFound_string (s : String) (rest : Bytes) :
    readFound (byte '"' :: (inner s ++ byte '"' :: rest)) = .ok (.string s, rest) := by
  have hread : readString (inner s ++ 34 :: rest) = .ok (s, rest) := readString_inner s rest
  rw [readFound, skipBlanks_cons (by decide)]
  simp [byte, hread, Except.map, isDigit]

theorem readFound_brace (rest : Bytes) : readFound (byte '\x7b' :: rest) = .ok (.map, rest) := by
  rw [readFound, skipBlanks_cons (by decide)]
  simp [byte, isDigit]

theorem readColon_cons (rest : Bytes) : readColon (byte ':' :: rest) = .ok rest := by
  rw [readColon, skipBlanks_cons (by decide)]
  simp

/-- What stands between two fields of an object: nothing before the first one. -/
def separator (first : Bool) : Bytes := if first then [] else [byte ',']

theorem nextName_name (first : Bool) (name : String) (rest : Bytes) :
    nextName first (separator first ++ byte '"' :: (inner name ++ byte '"' :: rest)) =
      .ok (some name, rest) := by
  have hread : readString (inner name ++ 34 :: rest) = .ok (name, rest) :=
    readString_inner name rest
  cases first with
  | true =>
      simp (disch := decide) only [separator, if_true, List.nil_append, nextName, skipBlanks_cons]
      simp [hread, bind, Except.bind, byte]
  | false =>
      simp (disch := decide) only [separator, nextName, skipBlanks_cons, List.cons_append,
        List.nil_append, Bool.false_eq_true, if_false]
      simp [hread, bind, Except.bind, byte]

theorem nextName_end (first : Bool) (rest : Bytes) :
    nextName first (byte '\x7d' :: rest) = .ok (none, rest) := by
  rw [nextName, skipBlanks_cons (by decide)]
  simp

end StageGraph.Json
