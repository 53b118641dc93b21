/-
# `StageGraph.Proofs.DatumRoundTrip` — values come back out of their data

A value travels inside a datum: as the empty datum if it is written as null, and as a blob of JSON
otherwise.  So it comes back in one of two ways.  Out of the empty datum it is made of null, without
any text; out of a blob it is read from its text, as a message is.

Whether a value is null is a matter of how its type writes it.  The unit and an optional value that
is missing are, an integer and a string never are, and a free value may be.  `DatumHolds` says what
follows for any of them, and `holds_of_readsBack` reduces it to reading back; what is left is one
lemma for each type.  Free values are the only ones that can be nested, and the printer does not mind
how deep; the reader has room for `Json.maxDepth` brackets, and refuses the others.

What is not a blob of JSON is no value of any type.
-/
import StageGraph.Proofs.MessageRoundTrip

namespace StageGraph

open StageGraph.Json (Value byte)
open StageGraph.Wire (Codec HasCodec)

/-! ## Tuples and integers -/

namespace Json

theorem endItems_cons (rest : Bytes) : endItems (byte ']' :: rest) = .ok rest := by
  rw [endItems, skipBlanks_cons (by decide)]
  simp

end Json

namespace Wire.Codec

variable {α β : Type} {c : Codec α} {d : Codec β} {room : Nat} {a : α} {b : β}

/-- A part of a tuple is read where its text stands. -/
theorem nextPart_eq (ha : c.ReadsBack room a) (hopens : Json.Opens (c.toValue a)) (first : Bool)
    (position : Nat) (expected : Json.Expected) {rest : Bytes} (hrest : Json.Delimited rest) :
    nextPart c room first position expected
      (Json.separator first ++ ((c.toValue a).encode ++ rest)) = .ok (a, rest) := by
  simp only [nextPart, Json.nextItem_item hopens, ha rest hrest, bind, Except.bind, if_true]

/-- A pair is read back from its two parts. -/
theorem ReadsBack.pair (ha : c.ReadsBack room a) (hb : d.ReadsBack room b)
    (hopens : Json.Opens (c.toValue a)) (hopens' : Json.Opens (d.toValue b)) :
    (c.pair d).ReadsBack (room + 1) (a, b) := by
  intro rest _
  have hdelimited : Json.Delimited
      (Json.separator false ++ ((d.toValue b).encode ++ byte ']' :: rest)) :=
    Json.delimited_cons (by decide) _
  have hfirst := nextPart_eq ha hopens true 0 (.tuple 2) hdelimited
  have hsecond := nextPart_eq hb hopens' false 1 (.tuple 2)
    (Json.delimited_cons (b := byte ']') (by decide) rest)
  show (c.pair d).read (room + 1)
    ((Value.array [c.toValue a, d.toValue b]).encode ++ rest) = .ok ((a, b), rest)
  rw [Json.encode_array]
  simp only [Json.itemsText, List.append_nil, List.cons_append, List.append_assoc,
    List.nil_append, Codec.pair, Json.readFound_bracket, insideArray, inside, hfirst, hsecond,
    Json.endItems_cons, Json.settle, bind, Except.bind]

theorem ReadsBack.int64 (room : Nat) (n : Int64) : Codec.int64.ReadsBack room n := by
  have hleast : -9223372036854775808 ≤ n.toInt := n.le_toInt
  have hgreatest : n.toInt < 9223372036854775808 := n.toInt_lt
  have hpow : Int.pow 2 63 = 9223372036854775808 := by decide
  have hword : (Nat.pow 2 63 : Int) = 9223372036854775808 ∧
      (Nat.pow 2 64 : Int) = 18446744073709551616 := by decide
  refine ReadsBack.map (b := n) (.intBetween .i64 ?_ ?_) (by simp)
  · rw [Json.isWord_iff]
    omega
  · rw [hpow]
    omega

theorem ReadsBack.uint8 (room : Nat) (n : UInt8) : Codec.uint8.ReadsBack room n := by
  have hbound := n.toNat_lt
  have hpow : Int.pow 2 8 = 256 := by decide
  have hword : (Nat.pow 2 63 : Int) = 9223372036854775808 ∧
      (Nat.pow 2 64 : Int) = 18446744073709551616 := by decide
  refine ReadsBack.map (b := n) (.intBetween .u8 ?_ ?_) (by simp)
  · rw [Json.isWord_iff]
    omega
  · rw [hpow]
    omega

/-- An integer is not null. -/
theorem ReadsBack.optionInt64 (room : Nat) (n : Int64) :
    Codec.int64.option.ReadsBack room (some n) := by
  intro rest hrest
  obtain ⟨b, text, htext, hb⟩ := Json.encode_printInt_cons n.toInt
  rw [option_read (c := Codec.int64) htext (Json.isBlank_of_sign hb)
    (Json.not_of_sign hb (by decide)), ReadsBack.int64 room n rest hrest]
  rfl

end Wire.Codec

/-! ## Values in data -/

section Values

variable {α : Type} [HasCodec α]

/-- How a value is put into a datum: it is the empty datum if and only if the value is written as
null, and a blob of JSON otherwise. -/
structure DatumCarries (a : α) : Prop where
  empty : Datum.ofTyped a = .empty ↔ (HasCodec.codec (α := α)).toValue a = .null
  blob : Datum.ofTyped a ≠ .empty → ∃ data, Datum.ofTyped a = .blob ⟨Datum.jsonType, data⟩

/-- A datum carries the value, and it is the value that is read out of it. -/
structure DatumHolds (a : α) : Prop extends DatumCarries a where
  decoded : (Datum.ofTyped a).decode α = .ok a

theorem isNull_iff {v : Value} : v.isNull = true ↔ v = .null := by
  cases v <;> simp [Json.Value.isNull]

theorem ofTyped_of_null {a : α} (h : (HasCodec.codec (α := α)).toValue a = .null) :
    Datum.ofTyped a = .empty :=
  if_pos (isNull_iff.mpr h)

theorem ofTyped_of_ne {a : α} (h : (HasCodec.codec (α := α)).toValue a ≠ .null) :
    Datum.ofTyped a = .blob ⟨Datum.jsonType, (HasCodec.codec (α := α)).encode a⟩ :=
  if_neg fun hnull => h (isNull_iff.mp hnull)

/-- Every value is carried by some datum. -/
theorem datumCarries (a : α) : DatumCarries a := by
  by_cases h : (HasCodec.codec (α := α)).toValue a = .null
  · have hempty := ofTyped_of_null h
    exact ⟨⟨fun _ => h, fun _ => hempty⟩, fun hne => absurd hempty hne⟩
  · have hblob := ofTyped_of_ne h
    refine ⟨⟨fun hempty => ?_, fun hnull => absurd hnull h⟩, fun _ => ⟨_, hblob⟩⟩
    rw [hblob] at hempty
    cases hempty

/-- A value that is null is made of null, and any other one is read back from its text. -/
theorem holds_of_readsBack {a : α}
    (hnull : (HasCodec.codec (α := α)).toValue a = .null →
      (HasCodec.codec (α := α)).ofValue .null = .ok a)
    (hread : (HasCodec.codec (α := α)).toValue a ≠ .null →
      (HasCodec.codec (α := α)).ReadsBack Json.maxDepth a) : DatumHolds a := by
  refine ⟨datumCarries a, ?_⟩
  by_cases h : (HasCodec.codec (α := α)).toValue a = .null
  · rw [ofTyped_of_null h]
    simp only [Datum.decode, Datum.decodeWith, hnull h]
    rfl
  · rw [ofTyped_of_ne h]
    simp only [Datum.decode, Datum.decodeWith, if_true, Codec.decode_encode (hread h)]
    rfl

end Values

theorem datumHolds_option (n : Option Int64) : DatumHolds n := by
  cases n with
  | none => exact holds_of_readsBack (fun _ => rfl) fun hne => absurd rfl hne
  | some n => exact holds_of_readsBack nofun fun _ => .optionInt64 _ n

theorem datumHolds_list (ns : List Int64) : DatumHolds ns := by
  refine holds_of_readsBack nofun fun _ => ?_
  exact .list (fun n _ => .int64 126 n) fun n _ => Json.opens (v := .int n.toInt) nofun

theorem datumHolds_pair (p : String × Int64) : DatumHolds p := by
  refine holds_of_readsBack nofun fun _ => ?_
  exact .pair (.string 126 p.1) (.int64 126 p.2) (Json.opens (v := .string p.1) nofun)
    (Json.opens (v := .int p.2.toInt) nofun)

theorem datumHolds_value {v : Value} (h : v.Kept) (hdepth : v.nesting ≤ Json.maxDepth) :
    DatumHolds v :=
  holds_of_readsBack (fun hnull => congrArg Except.ok hnull.symm)
    fun _ => .value (h.exact hdepth)

/-- A value for which there is no room is refused when its datum is read, for its depth. -/
theorem decode_tooDeep {v : Value} (h : v.Kept) (hdeep : Json.maxDepth < v.nesting) :
    ∃ p, (Datum.ofTyped v).decode Value = .error (.codec (.blob ⟨.tooDeep, some p⟩)) := by
  have hne : v ≠ .null := by
    rintro rfl
    exact absurd hdeep (Nat.not_lt_zero _)
  obtain ⟨p, hp⟩ := Codec.decode_stops (Codec.Stops.value h hdeep)
  refine ⟨p, ?_⟩
  rw [ofTyped_of_ne hne]
  simp only [Datum.decode, Datum.decodeWith, if_true]
  exact congrArg (Except.mapError fun r => FlowError.codec (.blob r)) hp

/-- What a datum holds that is not empty and not a blob of JSON cannot be read at any type. -/
theorem decode_foreign {α : Type} [HasCodec α] {d : Datum} (hempty : d ≠ .empty)
    (hblob : ∀ data, d ≠ .blob ⟨Datum.jsonType, data⟩) : ∃ u, d.decode α = .error (.codec u) := by
  cases d with
  | empty => exact absurd rfl hempty
  | blob b =>
      have htype : b.contentType ≠ Datum.jsonType := by
        intro htype
        exact hblob b.data (by rw [← htype])
      exact ⟨_, if_neg htype⟩
  | _ => exact ⟨_, rfl⟩

/-- Every value comes back out of the datum that carries it.
* A value of one of these types does without exception: the integers, truth values, strings, the
  unit, optional integers, lists of integers, and strings with an integer.
* A free value does if it is nested at most 127 deep.  A deeper one is carried just the same, and is
  refused when it is read.
* At no type can anything be read out of a blob that is not JSON, an error record, a reference to a
  stage, or the state of a flow. -/
theorem datum_round_trip :
    (∀ n : Int64, DatumHolds n) ∧ (∀ n : UInt8, DatumHolds n) ∧ (∀ n : UInt64, DatumHolds n) ∧
    (∀ b : Bool, DatumHolds b) ∧ (∀ s : String, DatumHolds s) ∧ DatumHolds () ∧
    (∀ n : Option Int64, DatumHolds n) ∧ (∀ ns : List Int64, DatumHolds ns) ∧
    (∀ p : String × Int64, DatumHolds p) ∧
    (∀ v : Value, v.Kept →
      (v.nesting ≤ 127 → DatumHolds v) ∧
      (127 < v.nesting → DatumCarries v ∧
        ∃ p, (Datum.ofTyped v).decode Value = .error (.codec (.blob ⟨.tooDeep, some p⟩)))) ∧
    (∀ (α : Type) [HasCodec α],
      (∀ b : Blob, b.contentType ≠ Datum.jsonType →
        ∃ u, (Datum.blob b).decode α = .error (.codec u)) ∧
      (∀ e : ErrorRecord, ∃ u, (Datum.error e).decode α = .error (.codec u)) ∧
      (∀ stage : StageId, ∃ u, (Datum.stageRef stage).decode α = .error (.codec u)) ∧
      ∀ s : FlowState, ∃ u, (Datum.state s).decode α = .error (.codec u)) := by
  refine ⟨?_, ?_, ?_, ?_, ?_, ?_, datumHolds_option, datumHolds_list, datumHolds_pair, ?value,
    ?foreign⟩
  · intro n
    exact holds_of_readsBack nofun fun _ => .int64 _ n
  · intro n
    exact holds_of_readsBack nofun fun _ => .uint8 _ n
  · intro n
    exact holds_of_readsBack nofun fun _ => .uint64 _ n
  · intro b
    exact holds_of_readsBack nofun fun _ => .bool _ b
  · intro s
    exact holds_of_readsBack nofun fun _ => .string _ s
  · exact holds_of_readsBack (fun _ => rfl) fun hne => absurd rfl hne
  case value =>
    intro v hkept
    refine ⟨datumHolds_value hkept, ?_⟩
    intro hdeep
    exact ⟨datumCarries v, decode_tooDeep hkept hdeep⟩
  case foreign =>
    intro α _
    refine ⟨?_, ?_, ?_, ?_⟩
    · intro b htype
      refine decode_foreign nofun ?_
      rintro data ⟨⟩
      exact htype rfl
    · intro e
      exact decode_foreign nofun nofun
    · intro stage
      exact decode_foreign nofun nofun
    · intro s
      exact decode_foreign nofun nofun

/-- The limit is met by arrays inside one another: 127 of them come back, and 128 do not.  A text
that is not JSON is no string. -/
theorem datum_round_trip_limit :
    (Value.tower 127).Kept ∧ (Value.tower 128).Kept ∧ DatumHolds (Value.tower 127) ∧
      DatumCarries (Value.tower 128) ∧
      (∃ p, (Datum.ofTyped (Value.tower 128)).decode Value =
        .error (.codec (.blob ⟨.tooDeep, some p⟩))) ∧
      ∃ u, (Datum.blob ⟨"text/plain", []⟩).decode String = .error (.codec u) := by
  obtain ⟨-, -, -, -, -, -, -, -, -, hvalue, hforeign⟩ := datum_round_trip
  have hkept (n : Nat) : (Value.tower n).Kept := ⟨n, Value.exact_tower n⟩
  obtain ⟨hcarries, hdeep⟩ :=
    (hvalue _ (hkept 128)).2 (by rw [Value.nesting_tower]; exact Nat.lt_succ_self 127)
  exact ⟨hkept 127, hkept 128, (hvalue _ (hkept 127)).1 (Value.nesting_tower 127).le, hcarries,
    hdeep, (hforeign String).1 _ (by decide)⟩

end StageGraph
