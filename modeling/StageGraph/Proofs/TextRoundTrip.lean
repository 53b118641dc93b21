/-
# `StageGraph.Proofs.TextRoundTrip` — characters and bytes come back as they were

Two ways of writing things as bytes, and for each the proof that reading gives
back what was written: UTF-8 for characters (`Utf8.decode?_encode`) and base64 for
bytes (`Base64.decode_encode`).

UTF-8 goes by one character at a time, whatever follows it, so a single lemma
about a character with the bytes behind it carries the induction.  Base64 goes by
groups of three bytes; the reader treats the last group on its own, whether it is
full or not, so the induction has to know whether anything follows a group.
-/
import StageGraph.Text.Base64

namespace StageGraph

theorem toNat_ofNat_of_lt {n : Nat} (h : n < 256) : (UInt8.ofNat n).toNat = n := by
  rw [UInt8.toNat_ofNat']
  omega

/-- A byte is given by its number, and by any other number that ends in the same eight bits. -/
theorem ofNat_eq_of_mod {n : Nat} {b : UInt8} (h : n % 256 = b.toNat) : UInt8.ofNat n = b := by
  refine UInt8.toNat_inj.mp ?_
  rw [UInt8.toNat_ofNat']
  exact h

theorem toNat_lt_of_char (c : Char) : c.toNat < 0x110000 := by
  have hvalid : c.toNat.isValidChar := c.valid
  unfold Nat.isValidChar at hvalid
  omega

namespace Utf8

/-! ## Characters -/

@[simp] theorem encode_nil : encode [] = [] := rfl

@[simp] theorem encode_cons (c : Char) (cs : List Char) :
    encode (c :: cs) = encodeChar c ++ encode cs := rfl

@[simp] theorem encode_append (cs ds : List Char) : encode (cs ++ ds) = encode cs ++ encode ds := by
  simp [encode]

theorem tail?_ofNat {n : Nat} (h : n < 64) : tail? (UInt8.ofNat (0x80 + n)) = some n := by
  have hbyte : (UInt8.ofNat (0x80 + n)).toNat = 0x80 + n := toNat_ofNat_of_lt (by omega)
  rw [tail?, hbyte, if_pos (by omega), Nat.add_sub_cancel_left]

theorem scalar?_toNat {least n : Nat} {c : Char} (hn : n = c.toNat) (h : least ≤ c.toNat) :
    scalar? least n = some c := by
  have hvalid : c.toNat.isValidChar := c.valid
  rw [scalar?, hn, if_pos ⟨h, hvalid⟩, Char.ofNat_toNat]

section Forms

variable {a b c d : UInt8} {k l m : Nat} {ch : Char}

theorem decode?_one (ha : a.toNat < 0x80) (rest : Bytes) :
    decode? (a :: rest) = (decode? rest).map (Char.ofNat a.toNat :: ·) := by
  rw [decode?.eq_def]
  exact if_pos ha

theorem decode?_two (ha : 0xC0 ≤ a.toNat ∧ a.toNat < 0xE0) (hb : tail? b = some k)
    (hch : scalar? 0x80 ((a.toNat - 0xC0) * 64 + k) = some ch) (rest : Bytes) :
    decode? (a :: b :: rest) = (decode? rest).map (ch :: ·) := by
  rw [decode?, if_neg (by omega), if_neg (by omega), if_pos ha.2]
  simp [two?, hb, hch]

theorem decode?_three (ha : 0xE0 ≤ a.toNat ∧ a.toNat < 0xF0) (hb : tail? b = some k)
    (hc : tail? c = some l)
    (hch : scalar? 0x800 (((a.toNat - 0xE0) * 64 + k) * 64 + l) = some ch) (rest : Bytes) :
    decode? (a :: b :: c :: rest) = (decode? rest).map (ch :: ·) := by
  rw [decode?, if_neg (by omega), if_neg (by omega), if_neg (by omega), if_pos ha.2]
  simp [three?, hb, hc, hch]

theorem decode?_four (ha : 0xF0 ≤ a.toNat ∧ a.toNat < 0xF8) (hb : tail? b = some k)
    (hc : tail? c = some l) (hd : tail? d = some m)
    (hch : scalar? 0x10000 ((((a.toNat - 0xF0) * 64 + k) * 64 + l) * 64 + m) = some ch)
    (rest : Bytes) :
    decode? (a :: b :: c :: d :: rest) = (decode? rest).map (ch :: ·) := by
  rw [decode?, if_neg (by omega), if_neg (by omega), if_neg (by omega), if_neg (by omega),
    if_pos ha.2]
  simp [four?, hb, hc, hd, hch]

end Forms

/-- One character is read off the front of the bytes, whatever follows. -/
theorem decode?_encodeChar (c : Char) (rest : Bytes) :
    decode? (encodeChar c ++ rest) = (decode? rest).map (c :: ·) := by
  have hmax := toNat_lt_of_char c
  have htail (m : Nat) : tail? (UInt8.ofNat (0x80 + m % 64)) = some (m % 64) :=
    tail?_ofNat (Nat.mod_lt m (by decide))
  unfold encodeChar
  -- The form is chosen by the number of the character.
  by_cases h₁ : c.toNat < 0x80
  · have ha : (UInt8.ofNat c.toNat).toNat = c.toNat := toNat_ofNat_of_lt (by omega)
    rw [if_pos h₁, List.cons_append, List.nil_append, decode?_one (by omega), ha, Char.ofNat_toNat]
  by_cases h₂ : c.toNat < 0x800
  · have ha : (UInt8.ofNat (0xC0 + c.toNat / 64)).toNat = 0xC0 + c.toNat / 64 :=
      toNat_ofNat_of_lt (by omega)
    rw [if_neg h₁, if_pos h₂]
    exact decode?_two (by omega) (htail _) (scalar?_toNat (by omega) (by omega)) rest
  by_cases h₃ : c.toNat < 0x10000
  · have ha : (UInt8.ofNat (0xE0 + c.toNat / 4096)).toNat = 0xE0 + c.toNat / 4096 :=
      toNat_ofNat_of_lt (by omega)
    rw [if_neg h₁, if_neg h₂, if_pos h₃]
    exact decode?_three (by omega) (htail _) (htail _) (scalar?_toNat (by omega) (by omega)) rest
  · have ha : (UInt8.ofNat (0xF0 + c.toNat / 262144)).toNat = 0xF0 + c.toNat / 262144 :=
      toNat_ofNat_of_lt (by omega)
    rw [if_neg h₁, if_neg h₂, if_neg h₃]
    exact decode?_four (by omega) (htail _) (htail _) (htail _)
      (scalar?_toNat (by omega) (by omega)) rest

theorem decode?_encode (cs : List Char) : decode? (encode cs) = some cs := by
  induction cs with
  | nil => rfl
  | cons c cs ih => rw [encode_cons, decode?_encodeChar, ih, Option.map_some]

theorem toString?_encode (s : String) : toString? (encode s.toList) = some s := by
  rw [toString?, decode?_encode, Option.map_some, String.ofList_toList]

end Utf8

namespace Base64

/-! ## Symbols -/

/-- The byte of a symbol. -/
def symbolByte (n : Nat) : UInt8 := UInt8.ofNat (symbol n).toNat

theorem encodeChar_symbol : ∀ n < 64, Utf8.encodeChar (symbol n) = [symbolByte n] := by decide

theorem sextet?_symbolByte : ∀ n < 64, sextet? (symbolByte n) = some n := by decide

theorem symbolByte_ne_pad : ∀ n < 64, symbolByte n ≠ pad := by decide

theorem encodeChar_pad : Utf8.encodeChar '=' = [pad] := by decide

theorem sextet_symbolByte (offset : Nat) {n : Nat} (h : n < 64) :
    sextet offset (symbolByte n) = .ok n := by
  rw [sextet, sextet?_symbolByte n h]

/-! ## Groups -/

section Groups

variable {x y z w : Nat} (start : Nat)

/-- A full group that is the last one. -/
theorem decodeFrom_full (hx : x < 64) (hy : y < 64) (hz : z < 64) (hw : w < 64) :
    decodeFrom start [symbolByte x, symbolByte y, symbolByte z, symbolByte w] =
      .ok [UInt8.ofNat ((((x * 64 + y) * 64 + z) * 64 + w) / 65536),
        UInt8.ofNat ((((x * 64 + y) * 64 + z) * 64 + w) / 256),
        UInt8.ofNat (((x * 64 + y) * 64 + z) * 64 + w)] := by
  simp [decodeFrom, readGroup, symbolByte_ne_pad _ hx, symbolByte_ne_pad _ hy,
    symbolByte_ne_pad _ hz, symbolByte_ne_pad _ hw, sextet_symbolByte _ hx, sextet_symbolByte _ hy,
    sextet_symbolByte _ hz, sextet_symbolByte _ hw, Group.bytes, bind, Except.bind]

/-- A full group that something follows. -/
theorem decodeFrom_more (hx : x < 64) (hy : y < 64) (hz : z < 64) (hw : w < 64) {rest : Bytes}
    (hrest : rest ≠ []) :
    decodeFrom start (symbolByte x :: symbolByte y :: symbolByte z :: symbolByte w :: rest) =
      (decodeFrom (start + 4) rest).map fun more =>
        UInt8.ofNat ((((x * 64 + y) * 64 + z) * 64 + w) / 65536) ::
          UInt8.ofNat ((((x * 64 + y) * 64 + z) * 64 + w) / 256) ::
            UInt8.ofNat (((x * 64 + y) * 64 + z) * 64 + w) :: more := by
  cases rest with
  | nil => exact absurd rfl hrest
  | cons e rest =>
      simp only [decodeFrom, sextet_symbolByte _ hx, sextet_symbolByte _ hy, sextet_symbolByte _ hz,
        sextet_symbolByte _ hw, bind, Except.bind]
      cases decodeFrom (start + 4) (e :: rest) <;> rfl

/-- A last group of three symbols, which stand for two bytes. -/
theorem decodeFrom_two (hx : x < 64) (hy : y < 64) (hz : z < 64) (hlast : z % 4 = 0) :
    decodeFrom start [symbolByte x, symbolByte y, symbolByte z, pad] =
      .ok [UInt8.ofNat (((x * 64 + y) * 64 + z) / 4 / 256),
        UInt8.ofNat (((x * 64 + y) * 64 + z) / 4)] := by
  simp [decodeFrom, readGroup, symbolByte_ne_pad _ hx, symbolByte_ne_pad _ hy,
    symbolByte_ne_pad _ hz, sextet_symbolByte _ hx, sextet_symbolByte _ hy, sextet_symbolByte _ hz,
    Group.bytes, bind, Except.bind, hlast]

/-- A last group of two symbols, which stand for one byte. -/
theorem decodeFrom_one (hx : x < 64) (hy : y < 64) (hlast : y % 16 = 0) :
    decodeFrom start [symbolByte x, symbolByte y, pad, pad] =
      .ok [UInt8.ofNat ((x * 64 + y) / 16)] := by
  simp [decodeFrom, readGroup, symbolByte_ne_pad _ hx, symbolByte_ne_pad _ hy,
    sextet_symbolByte _ hx, sextet_symbolByte _ hy, Group.bytes, bind, Except.bind, hlast]

end Groups

/-! ## Texts -/

/-- The bytes of a text. -/
def encodeBytes (bs : Bytes) : Bytes := Utf8.encode (encode bs)

theorem encodeBytes_nil : encodeBytes [] = [] := rfl

theorem encodeBytes_one (a : UInt8) :
    encodeBytes [a] =
      [symbolByte (a.toNat * 16 / 64), symbolByte (a.toNat * 16 % 64), pad, pad] := by
  have ha := a.toNat_lt
  simp [encodeBytes, encode, encodeChar_symbol _ (show a.toNat * 16 / 64 < 64 by omega),
    encodeChar_symbol _ (show a.toNat * 16 % 64 < 64 by omega), encodeChar_pad]

theorem encodeBytes_two (a b : UInt8) :
    encodeBytes [a, b] =
      [symbolByte ((a.toNat * 256 + b.toNat) * 4 / 4096),
        symbolByte ((a.toNat * 256 + b.toNat) * 4 / 64 % 64),
        symbolByte ((a.toNat * 256 + b.toNat) * 4 % 64), pad] := by
  have ha := a.toNat_lt
  have hb := b.toNat_lt
  simp [encodeBytes, encode,
    encodeChar_symbol _ (show (a.toNat * 256 + b.toNat) * 4 / 4096 < 64 by omega),
    encodeChar_symbol _ (show (a.toNat * 256 + b.toNat) * 4 / 64 % 64 < 64 by omega),
    encodeChar_symbol _ (show (a.toNat * 256 + b.toNat) * 4 % 64 < 64 by omega), encodeChar_pad]

theorem encodeBytes_three (a b c : UInt8) (rest : Bytes) :
    encodeBytes (a :: b :: c :: rest) =
      symbolByte (((a.toNat * 256 + b.toNat) * 256 + c.toNat) / 262144) ::
        symbolByte (((a.toNat * 256 + b.toNat) * 256 + c.toNat) / 4096 % 64) ::
        symbolByte (((a.toNat * 256 + b.toNat) * 256 + c.toNat) / 64 % 64) ::
        symbolByte (((a.toNat * 256 + b.toNat) * 256 + c.toNat) % 64) :: encodeBytes rest := by
  have ha := a.toNat_lt
  have hb := b.toNat_lt
  have hc := c.toNat_lt
  simp [encodeBytes, encode, encodeChar_symbol _
      (show ((a.toNat * 256 + b.toNat) * 256 + c.toNat) / 262144 < 64 by omega),
    encodeChar_symbol _
      (show ((a.toNat * 256 + b.toNat) * 256 + c.toNat) / 4096 % 64 < 64 by omega),
    encodeChar_symbol _
      (show ((a.toNat * 256 + b.toNat) * 256 + c.toNat) / 64 % 64 < 64 by omega),
    encodeChar_symbol _
      (show ((a.toNat * 256 + b.toNat) * 256 + c.toNat) % 64 < 64 by omega)]

theorem length_encodeBytes (bs : Bytes) : (encodeBytes bs).length % 4 = 0 := by
  fun_induction encode bs with
  | case1 a b c rest ih => rw [encodeBytes_three]; simp only [List.length_cons]; omega
  | case2 a b => rw [encodeBytes_two]; simp
  | case3 a => rw [encodeBytes_one]; simp
  | case4 => rfl

theorem encodeBytes_ne_nil {bs : Bytes} (h : bs ≠ []) : encodeBytes bs ≠ [] := by
  fun_induction encode bs with
  | case1 a b c rest ih => rw [encodeBytes_three]; simp
  | case2 a b => rw [encodeBytes_two]; simp
  | case3 a => rw [encodeBytes_one]; simp
  | case4 => exact absurd rfl h

theorem decodeFrom_encodeBytes (start : Nat) (bs : Bytes) :
    decodeFrom start (encodeBytes bs) = .ok bs := by
  fun_induction encode bs generalizing start with
  | case1 a b c rest n ih =>
      have ha := a.toNat_lt
      have hb := b.toNat_lt
      have hc := c.toNat_lt
      rw [encodeBytes_three]
      have hx : n / 262144 < 64 := by omega
      have hy : n / 4096 % 64 < 64 := by omega
      have hz : n / 64 % 64 < 64 := by omega
      have hw : n % 64 < 64 := by omega
      have hn : ((n / 262144 * 64 + n / 4096 % 64) * 64 + n / 64 % 64) * 64 + n % 64 = n := by omega
      have hbytes : UInt8.ofNat (n / 65536) = a ∧ UInt8.ofNat (n / 256) = b ∧ UInt8.ofNat n = c :=
        ⟨ofNat_eq_of_mod (by omega), ofNat_eq_of_mod (by omega), ofNat_eq_of_mod (by omega)⟩
      obtain ⟨hfirst, hsecond, hthird⟩ := hbytes
      cases rest with
      | nil =>
          rw [encodeBytes_nil, decodeFrom_full start hx hy hz hw, hn, hfirst, hsecond, hthird]
      | cons d rest =>
          rw [decodeFrom_more start hx hy hz hw (encodeBytes_ne_nil (by simp)), ih, hn, hfirst,
            hsecond, hthird]
          rfl
  | case2 a b n =>
      have ha := a.toNat_lt
      have hb := b.toNat_lt
      rw [encodeBytes_two, decodeFrom_two start (by omega) (by omega) (by omega) (by omega)]
      congr 2
      · exact ofNat_eq_of_mod (by omega)
      · congr 1
        exact ofNat_eq_of_mod (by omega)
  | case3 a n =>
      have ha := a.toNat_lt
      rw [encodeBytes_one, decodeFrom_one start (by omega) (by omega) (by omega)]
      congr 2
      exact ofNat_eq_of_mod (by omega)
  | case4 => rfl

theorem decode_encode (bs : Bytes) : decode (Utf8.encode (encode bs)) = .ok bs := by
  show decode (encodeBytes bs) = .ok bs
  have hlength := length_encodeBytes bs
  have hdecode := decodeFrom_encodeBytes 0 bs
  unfold decode
  cases hlast : (encodeBytes bs).getLast? with
  | none =>
      rw [List.getLast?_eq_none_iff.mp hlast] at hdecode
      exact hdecode
  | some b =>
      simp only
      rw [if_neg (by omega)]
      exact hdecode

end Base64

end StageGraph
