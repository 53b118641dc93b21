/-
# `StageGraph.Proofs.MessageRoundTrip` — messages come back from the wire, up to a depth

`message_round_trip`: every message of the protocol is read back from its own document.
There is one limit.  What a closure captures is a free value, nested as deep as one likes, and
the printer does not mind; but a document is read with `Json.maxDepth` brackets open at most,
and the messages that hold a closure open two before its value begins.  So 125 levels come
back, and deeper ones are refused, for their depth and for nothing else: no deep value is
ever taken for another one.

How far a value is nested is `Json.Value.nesting`.  A value that is too deep stops its reader
at the first bracket for which there is no room left (`Json.Value.Exact.readValue_tooDeep`), and
a reader that stops stops everything around it.  The latter is proved as reading back is: once for
every way in which codecs are made, here of parts, records and options (`Codec.Stops`).
-/
import StageGraph.Proofs.DocumentInvocation
import StageGraph.Proofs.Lists

namespace StageGraph

open StageGraph.Json (Fault Value Reader byte)

namespace Json

/-! ## How deep a value is nested -/

mutual

/-- How many arrays and objects stand inside one another at the deepest place of a value. -/
def Value.nesting : Value → Nat
  | .array items => itemsNesting items + 1
  | .object fields => fieldsNesting fields + 1
  | _ => 0

/-- The nesting of the deepest item. -/
def itemsNesting : List Value → Nat
  | [] => 0
  | v :: rest => max v.nesting (itemsNesting rest)

/-- The nesting of the deepest field. -/
def fieldsNesting : List (String × Value) → Nat
  | [] => 0
  | (_, v) :: rest => max v.nesting (fieldsNesting rest)

end

/-- A value that its text keeps, however deep it is nested: no floating point numbers, integers of
64 bits, the names of every object in ascending order. -/
def Value.Kept (v : Value) : Prop := ∃ depth, v.Exact depth

theorem itemsNesting_le {items : List Value} {n : Nat} :
    itemsNesting items ≤ n ↔ ∀ v ∈ items, v.nesting ≤ n := by
  induction items with
  | nil => simp [itemsNesting]
  | cons v items ih => rw [itemsNesting, Nat.max_le, ih, List.forall_mem_cons]

theorem fieldsNesting_le {fields : List (String × Value)} {n : Nat} :
    fieldsNesting fields ≤ n ↔ ∀ f ∈ fields, f.2.nesting ≤ n := by
  induction fields with
  | nil => simp [fieldsNesting]
  | cons f fields ih => rw [fieldsNesting, Nat.max_le, ih, List.forall_mem_cons]

/-- The depth at which a value is kept is its nesting, and every greater one. -/
theorem Value.Exact.iff_nesting {depth : Nat} {v : Value} (h : v.Exact depth) (room : Nat) :
    v.Exact room ↔ v.nesting ≤ room := by
  induction h generalizing room with
  | null => exact ⟨fun _ => Nat.zero_le room, fun _ => .null⟩
  | bool b => exact ⟨fun _ => Nat.zero_le room, fun _ => .bool b⟩
  | int hn => exact ⟨fun _ => Nat.zero_le room, fun _ => .int hn⟩
  | string s => exact ⟨fun _ => Nat.zero_le room, fun _ => .string s⟩
  | array _ ih =>
      constructor
      · intro hroom
        cases hroom with
        | array hitems =>
            exact Nat.succ_le_succ (itemsNesting_le.mpr fun v hv => (ih v hv _).mp (hitems v hv))
      · intro hroom
        cases room with
        | zero => exact absurd hroom (Nat.not_succ_le_zero _)
        | succ room =>
            have hitems := itemsNesting_le.mp (Nat.le_of_succ_le_succ hroom)
            exact .array fun v hv => (ih v hv room).mpr (hitems v hv)
  | object hsorted _ ih =>
      constructor
      · intro hroom
        cases hroom with
        | object _ hfields =>
            exact Nat.succ_le_succ (fieldsNesting_le.mpr fun f hf => (ih f hf _).mp (hfields f hf))
      · intro hroom
        cases room with
        | zero => exact absurd hroom (Nat.not_succ_le_zero _)
        | succ room =>
            have hfields := fieldsNesting_le.mp (Nat.le_of_succ_le_succ hroom)
            exact .object hsorted fun f hf => (ih f hf room).mpr (hfields f hf)

theorem Value.Kept.exact {v : Value} (h : v.Kept) {room : Nat} (hroom : v.nesting ≤ room) :
    v.Exact room := by
  obtain ⟨depth, h⟩ := h
  exact (h.iff_nesting room).mpr hroom

/-! ## Where a part cannot be read -/

/-- An array is read up to the first item at which its reader stops. -/
theorem readItems_stop {item : Reader Value} {fault : Fault} {before : List Value} {v : Value}
    (after : List Value)
    (hread : ∀ u ∈ before, ∀ rest, Delimited rest → item (u.encode ++ rest) = .ok (u, rest))
    (hopens : ∀ u ∈ before, Opens u) (hv : Opens v)
    (hstop : ∀ rest, Delimited rest → ∃ s, item (v.encode ++ rest) = stop fault s) (rest : Bytes)
    (fuel : Nat) (first : Bool) (hfuel : before.length < fuel) :
    ∃ s, readItems item fuel first
      (itemsText first (before ++ v :: after) ++ byte ']' :: rest) = stop fault s := by
  induction before generalizing fuel first with
  | nil =>
      cases fuel with
      | zero => exact absurd hfuel (Nat.not_lt_zero _)
      | succ fuel =>
          obtain ⟨s, hs⟩ := hstop _ (delimited_itemsText after rest)
          refine ⟨s, ?_⟩
          simp only [List.nil_append, itemsText, List.append_assoc, readItems, nextItem_item hv,
            hs, bind, Except.bind, if_true, stop]
  | cons u before ih =>
      cases fuel with
      | zero => exact absurd hfuel (Nat.not_lt_zero _)
      | succ fuel =>
          obtain ⟨s, hs⟩ := ih (fun w hw => hread w (List.mem_cons_of_mem u hw))
            (fun w hw => hopens w (List.mem_cons_of_mem u hw)) fuel false
            (Nat.lt_of_succ_lt_succ hfuel)
          have hu := hread u List.mem_cons_self _
            (delimited_itemsText (before ++ v :: after) rest)
          refine ⟨s, ?_⟩
          simp only [List.cons_append, itemsText, List.append_assoc, readItems,
            nextItem_item (hopens u List.mem_cons_self), hu, hs, bind, Except.bind, if_true, stop]

/-- An object is read up to the first field at which the reader of its values stops. -/
theorem readFields_stop {value : Reader Value} {fault : Fault}
    {before : List (String × Value)} {f : String × Value} (after : List (String × Value))
    (hread : ∀ g ∈ before, ∀ rest, Delimited rest → value (g.2.encode ++ rest) = .ok (g.2, rest))
    (hstop : ∀ rest, Delimited rest → ∃ s, value (f.2.encode ++ rest) = stop fault s) (rest : Bytes)
    (fuel : Nat) (first : Bool) (hfuel : before.length < fuel) :
    ∃ s, readFields value fuel first
      (fieldsText first (before ++ f :: after) ++ byte '\x7d' :: rest) = stop fault s := by
  induction before generalizing fuel first with
  | nil =>
      cases fuel with
      | zero => exact absurd hfuel (Nat.not_lt_zero _)
      | succ fuel =>
          obtain ⟨s, hs⟩ := hstop _ (delimited_fieldsText after rest)
          refine ⟨s, ?_⟩
          simp only [List.nil_append, fieldsText, List.append_assoc, List.cons_append, readFields,
            nextName_name, readColon_cons, hs, bind, Except.bind, stop]
  | cons g before ih =>
      cases fuel with
      | zero => exact absurd hfuel (Nat.not_lt_zero _)
      | succ fuel =>
          obtain ⟨s, hs⟩ := ih (fun w hw => hread w (List.mem_cons_of_mem g hw)) fuel false
            (Nat.lt_of_succ_lt_succ hfuel)
          have hg := hread g List.mem_cons_self _
            (delimited_fieldsText (before ++ f :: after) rest)
          refine ⟨s, ?_⟩
          simp only [List.cons_append, fieldsText, List.append_assoc, readFields, nextName_name,
            readColon_cons, hg, hs, bind, Except.bind, stop]

/-- A value that is nested deeper than there is room for is refused for that. -/
theorem Value.Exact.readValue_tooDeep {depth room : Nat} {v : Value} (h : v.Exact depth)
    (hdeep : room < v.nesting) {rest : Bytes} (hrest : Delimited rest) :
    ∃ s, Json.readValue room (v.encode ++ rest) = stop .tooDeep s := by
  induction h generalizing room rest with
  | null => exact absurd hdeep (Nat.not_lt_zero _)
  | bool b => exact absurd hdeep (Nat.not_lt_zero _)
  | int hn => exact absurd hdeep (Nat.not_lt_zero _)
  | string s => exact absurd hdeep (Nat.not_lt_zero _)
  | @array depth items h ih =>
      rw [encode_array_append]
      cases room with
      | zero =>
          refine ⟨itemsText true items ++ byte ']' :: rest, ?_⟩
          simp only [Json.readValue, readFound_bracket, Found.scalar?, bind, Except.bind]
      | succ room =>
          have hsome : ∃ v ∈ items, ¬v.nesting ≤ room := by
            by_contra hall
            push Not at hall
            exact absurd (itemsNesting_le.mpr hall) (Nat.not_le.mpr (Nat.lt_of_succ_lt_succ hdeep))
          obtain ⟨before, v, after, rfl, hv, hbefore⟩ := exists_first hsome
          have hmem {u : Value} (hu : u ∈ before) : u ∈ before ++ v :: after :=
            List.mem_append_left _ hu
          have hvmem : v ∈ before ++ v :: after := by simp
          have hfuel := length_lt_itemsText (fun u hu => (h u hu).opens) (byte ']' :: rest)
          obtain ⟨s, hs⟩ := readItems_stop after
            (fun u hu rest hrest => (((h u (hmem hu)).iff_nesting room).mpr
              (hbefore u hu)).readValue hrest)
            (fun u hu => (h u (hmem hu)).opens) (h v hvmem).opens
            (fun rest hrest => ih v hvmem (Nat.lt_of_not_le hv) hrest) rest _ true
            (Nat.lt_of_le_of_lt (List.sublist_append_left before _).length_le hfuel)
          refine ⟨s, ?_⟩
          simp only [Json.readValue, readFound_bracket, Found.scalar?, hs, bind, Except.bind, stop]
  | @object depth fields hsorted h ih =>
      rw [encode_object_append]
      cases room with
      | zero =>
          refine ⟨fieldsText true fields ++ byte '\x7d' :: rest, ?_⟩
          simp only [Json.readValue, readFound_brace, Found.scalar?, bind, Except.bind]
      | succ room =>
          have hsome : ∃ f ∈ fields, ¬f.2.nesting ≤ room := by
            by_contra hall
            push Not at hall
            exact absurd (fieldsNesting_le.mpr fun f hf => hall f hf)
              (Nat.not_le.mpr (Nat.lt_of_succ_lt_succ hdeep))
          obtain ⟨before, f, after, rfl, hf, hbefore⟩ := exists_first hsome
          have hmem {g : String × Value} (hg : g ∈ before) : g ∈ before ++ f :: after :=
            List.mem_append_left _ hg
          have hfmem : f ∈ before ++ f :: after := by simp
          have hfuel := length_lt_fieldsText (before ++ f :: after) (byte '\x7d' :: rest)
          obtain ⟨s, hs⟩ := readFields_stop after
            (fun g hg rest hrest => (((h g (hmem hg)).iff_nesting room).mpr
              (hbefore g hg)).readValue hrest)
            (fun rest hrest => ih f hfmem (Nat.lt_of_not_le hf) hrest) rest _ true
            (Nat.lt_of_le_of_lt (List.sublist_append_left before _).length_le hfuel)
          refine ⟨s, ?_⟩
          simp only [Json.readValue, readFound_brace, Found.scalar?, hs, bind, Except.bind, stop]

end Json

namespace Wire

variable {α β : Type}

/-- In front of anything that a number would end at, the reader of the codec stops inside the text of
the value. -/
def Codec.Stops (c : Codec α) (room : Nat) (fault : Fault) (a : α) : Prop :=
  ∀ rest, Json.Delimited rest →
    ∃ s, c.read room ((c.toValue a).encode ++ rest) = Json.stop fault s

namespace Codec

/-- A document whose reader stops is refused, at a place of the document. -/
theorem decode_stops {c : Codec α} {a : α} {fault : Fault} (h : c.Stops Json.maxDepth fault a) :
    ∃ p, c.decode (c.encode a) = .error ⟨fault, some p⟩ := by
  obtain ⟨s, hs⟩ := h [] Json.delimited_nil
  rw [List.append_nil] at hs
  rw [decode, encode, Json.readDocument, hs]
  exact ⟨_, rfl⟩

theorem Stops.value {room : Nat} {v : Value} (h : v.Kept) (hdeep : room < v.nesting) :
    value.Stops room .tooDeep v := by
  obtain ⟨depth, h⟩ := h
  intro rest hrest
  exact h.readValue_tooDeep hdeep hrest

/-! ## Options -/

/-- A value is not null if its text begins with another letter. -/
theorem option_read {c : Codec α} {room : Nat} {a : α} {b : UInt8} {text : Bytes}
    (htext : (c.toValue a).encode = b :: text) (hblank : Json.isBlank b = false)
    (hnull : b ≠ byte 'n') (rest : Bytes) :
    c.option.read room ((c.option.toValue (some a)).encode ++ rest) =
      (c.read room ((c.toValue a).encode ++ rest)).map fun p => (some p.1, p.2) := by
  show c.option.read room ((c.toValue a).encode ++ rest) = _
  rw [htext, List.cons_append]
  simp only [option, Json.skipBlanks_cons hblank, if_neg hnull]
  cases c.read room (b :: (text ++ rest)) <;> rfl

/-- What is written as an object is not null. -/
theorem ReadsBack.option {c : Codec α} {room : Nat} {a : α} {fields : List (String × Value)}
    (h : c.ReadsBack room a) (hobject : c.toValue a = .object fields) :
    c.option.ReadsBack room (some a) := by
  intro rest hrest
  rw [option_read (by rw [hobject, Json.encode_object]) (by decide) (by decide), h rest hrest]
  rfl

@[inherit_doc ReadsBack.option]
theorem Stops.option {c : Codec α} {room : Nat} {fault : Fault} {a : α}
    {fields : List (String × Value)} (h : c.Stops room fault a)
    (hobject : c.toValue a = .object fields) : c.option.Stops room fault (some a) := by
  intro rest hrest
  obtain ⟨s, hs⟩ := h rest hrest
  refine ⟨s, ?_⟩
  rw [option_read (by rw [hobject, Json.encode_object]) (by decide) (by decide), hs]
  rfl

end Codec

/-! ## Records -/

namespace Fields

/-- Fields of an object that are taken one after the other, up to one at which the reading stops. -/
inductive Breaks (fs : Fields α) (room : Nat) (fault : Fault) :
    fs.Slots → List (String × Value) → Prop
  | here {slots : fs.Slots} {name : String} {v : Value} {fields : List (String × Value)}
      {read : Nat → Reader fs.Slots} {ofValue : Value → Except Fault fs.Slots}
      (hstep : fs.step name slots = .take read ofValue)
      (hstop : ∀ rest, Json.Delimited rest → ∃ s, read room (v.encode ++ rest) = Json.stop fault s) :
      Breaks fs room fault slots ((name, v) :: fields)
  | later {slots next : fs.Slots} {name : String} {v : Value} {fields : List (String × Value)}
      {read : Nat → Reader fs.Slots} {ofValue : Value → Except Fault fs.Slots}
      (hstep : fs.step name slots = .take read ofValue)
      (hread : ∀ rest, Json.Delimited rest → read room (v.encode ++ rest) = .ok (next, rest))
      (hfields : Breaks fs room fault next fields) :
      Breaks fs room fault slots ((name, v) :: fields)

theorem Breaks.readObject {fs : Fields α} {room : Nat} {fault : Fault} {slots : fs.Slots}
    {fields : List (String × Value)} (h : fs.Breaks room fault slots fields) (rest : Bytes) :
    ∀ (fuel : Nat) (first : Bool), fields.length < fuel →
      ∃ s, fs.readObject room fuel first slots
        (Json.fieldsText first fields ++ byte '\x7d' :: rest) = Json.stop fault s := by
  induction h with
  | @here _ _ _ fields _ _ hstep hstop =>
      intro fuel first hfuel
      cases fuel with
      | zero => exact absurd hfuel (Nat.not_lt_zero _)
      | succ fuel =>
          obtain ⟨s, hs⟩ := hstop _ (Json.delimited_fieldsText fields rest)
          refine ⟨s, ?_⟩
          simp only [Json.fieldsText, List.append_assoc, List.cons_append, Fields.readObject,
            Json.nextName_name, hstep, Json.readColon_cons, hs, bind, Except.bind, Json.stop]
  | @later _ _ _ _ fields _ _ hstep hread _ ih =>
      intro fuel first hfuel
      cases fuel with
      | zero => exact absurd hfuel (Nat.not_lt_zero _)
      | succ fuel =>
          obtain ⟨s, hs⟩ := ih fuel false (Nat.lt_of_succ_lt_succ hfuel)
          refine ⟨s, ?_⟩
          simp only [Json.fieldsText, List.append_assoc, List.cons_append, Fields.readObject,
            Json.nextName_name, hstep, Json.readColon_cons,
            hread _ (Json.delimited_fieldsText fields rest), bind, Except.bind]
          exact hs

theorem Fills.breaks {fs : Fields α} {room : Nat} {fault : Fault} {slots next : fs.Slots}
    {fields more : List (String × Value)} (h : fs.Fills room slots fields next)
    (hmore : fs.Breaks room fault next more) : fs.Breaks room fault slots (fields ++ more) := by
  induction h with
  | nil => exact hmore
  | cons hstep hread _ ih => exact .later hstep hread (ih hmore)

/-- What stops the reading of the earlier fields of a record stops that of the whole record, whatever
comes behind. -/
theorem Breaks.widen {earlier : Fields (β → α)} {room : Nat} {fault : Fault}
    {slots : earlier.Slots} {fields : List (String × Value)}
    (h : earlier.Breaks room fault slots fields) {n : String} (hnew : n ∉ fields.map Prod.fst)
    (codec : Codec β) (fallback read : Option β) (more : List (String × Value)) :
    (Fields.field earlier n codec fallback).Breaks room fault (slots, read) (fields ++ more) := by
  have wide {name : String} (hname : name ≠ n) (slots : earlier.Slots) :
      (Fields.field earlier n codec fallback).step name (slots, read) =
        (earlier.step name slots).widen fun earlierRead => (earlierRead, read) :=
    if_neg hname
  induction h with
  | @here slots _ _ _ _ _ hstep hstop =>
      rw [List.map_cons, List.mem_cons, not_or] at hnew
      have hwide := wide (Ne.symm hnew.1) slots
      rw [hstep] at hwide
      refine .here hwide ?_
      intro rest hrest
      obtain ⟨s, hs⟩ := hstop rest hrest
      refine ⟨s, ?_⟩
      simp only [hs, bind, Except.bind, Json.stop]
      rfl
  | @later slots _ _ _ _ _ _ hstep hread _ ih =>
      rw [List.map_cons, List.mem_cons, not_or] at hnew
      have hwide := wide (Ne.symm hnew.1) slots
      rw [hstep] at hwide
      refine .later hwide ?_ (ih hnew.2)
      intro rest hrest
      simp only [hread rest hrest, bind, Except.bind]
      rfl

/-- The reading of a record stops at its last field, if the earlier ones say something. -/
theorem Says.breaks {earlier : Fields (β → α)} {room : Nat} {fault : Fault}
    {fields : List (String × Value)} {f : β → α} (h : earlier.Says room fields f) {n : String}
    {codec : Codec β} {b : β} (hnew : n ∉ fields.map Prod.fst) (hb : codec.Stops room fault b)
    (fallback : Option β) :
    (Fields.field earlier n codec fallback).Breaks room fault
      (Fields.field earlier n codec fallback).start (fields ++ [(n, codec.toValue b)]) := by
  obtain ⟨last, hfills, -⟩ := h.fills
  have hstep : (Fields.field earlier n codec fallback).step n (last, Option.none) =
      .take _ _ := if_pos rfl
  refine (hfills.widen hnew codec fallback Option.none).breaks (.here hstep ?_)
  intro rest hrest
  obtain ⟨s, hs⟩ := hb rest hrest
  refine ⟨s, ?_⟩
  simp only [hs, bind, Except.bind, Json.stop]

end Fields

/-- A record cannot be read where one of its fields cannot. -/
theorem Codec.Stops.record {name : String} {fs : Fields α}
    {toFields : α → List (String × Value)} {room : Nat} {fault : Fault} {a : α}
    (h : fs.Breaks room fault fs.start (toFields a)) :
    (Codec.record name fs toFields).Stops (room + 1) fault a := by
  intro rest _
  have hfuel := Json.length_lt_fieldsText (toFields a) (byte '\x7d' :: rest)
  obtain ⟨s, hs⟩ := h.readObject rest _ true hfuel
  refine ⟨s, ?_⟩
  show (Codec.record name fs toFields).read (room + 1)
    ((Value.object (toFields a)).encode ++ rest) = Json.stop fault s
  rw [Json.encode_object_append]
  simp only [Codec.record, Json.readFound_brace, bind, Except.bind, Codec.insideObject, Codec.inside,
    hs, Json.settle, Json.stop, Bool.false_eq_true, if_false]

/-! ## Words -/

/-- An integer is read back as it is, if it is a word and lies between the bounds. -/
theorem Codec.ReadsBack.intBetween {least greatest n : Int} {room : Nat} (expected : Json.Expected)
    (hword : Json.isWord n) (hfits : least ≤ n ∧ n ≤ greatest) :
    (intBetween least greatest expected).ReadsBack room n := by
  intro rest hrest
  show (Codec.intBetween least greatest expected).read room ((Value.int n).encode ++ rest) =
    .ok (n, rest)
  simp only [Codec.intBetween, scalar, Json.readFound_int hword hrest, bind, Except.bind,
    if_pos hfits]

/-- An unsigned integer of 64 bits is a word within the bounds of its codec. -/
theorem isWord_uint64 (n : UInt64) :
    Json.isWord n.toNat ∧ 0 ≤ (n.toNat : Int) ∧ (n.toNat : Int) ≤ Int.pow 2 64 - 1 := by
  have hbound := n.toNat_lt
  have hpow : Int.pow 2 64 = 18446744073709551616 := by decide
  refine ⟨?_, Int.natCast_nonneg _, by rw [hpow]; omega⟩
  rw [Json.isWord_iff]
  exact ⟨by omega, by exact_mod_cast hbound⟩

/-- An integer of 64 bits is read back as such. -/
theorem Codec.ReadsBack.uint64 (room : Nat) (n : UInt64) : uint64.ReadsBack room n :=
  .map (b := n) (.intBetween .u64 (isWord_uint64 n).1 (isWord_uint64 n).2) (by simp)

end Wire

open Wire (Codec Fields)

/-! ## Messages -/

theorem Operation.named : Wire.Named all tag :=
  ⟨by intro op; cases op <;> decide, by decide⟩

theorem Operation.readsBack (op : Operation) (room : Nat) : codec.ReadsBack room op :=
  .names named none op room

theorem StageId.list_readsBack (ids : List StageId) (room : Nat) :
    Codec.stageId.list.ReadsBack (room + 1) ids :=
  .list (fun id _ => .stageId room id) fun id _ => Json.opens (v := Codec.stageId.toValue id) nofun

/-- A closure whose captured value is too deep is too deep, by the object around that value. -/
theorem Closure.stops {c : Closure} {room : Nat} (h : c.captured.Kept)
    (hdeep : room < c.captured.nesting) : codec.Stops (room + 1) .tooDeep c :=
  .record (((Fields.Says.none Closure.mk).given (by simp) (.string room c.entry)).breaks (by simp)
    (.value h hdeep) _)

namespace Message

variable {α : Type} {record field : String} {c : Codec α} {room : Nat} {a : α}

theorem single_stops {fault : Fault} (h : c.Stops room fault a) :
    (single record field c).Stops (room + 1) fault a :=
  .record ((Fields.Says.none id).breaks (by simp) h _)

end Message

namespace StageRequest

/-- The operation is always the first field. -/
theorem says_operation (op : Operation) (room : Nat) :
    ((Fields.none StageRequest.mk).required "operation" Operation.codec).Says room
      [("operation", .string op.tag)] (StageRequest.mk op) :=
  (Fields.Says.none StageRequest.mk).given (by simp) (op.readsBack room)

theorem readsBack {r : StageRequest} {room : Nat}
    (h : ∀ c ∈ r.closure, c.captured.Exact room) : codec.ReadsBack (room + 2) r := by
  obtain ⟨op, closure, deps⟩ := r
  cases closure with
  | none =>
      exact .record (((says_operation op (room + 1)).omitted (by simp)).given (by simp)
        (StageId.list_readsBack deps room))
  | some c =>
      have hclosure := (Closure.readsBack (h c rfl)).option rfl
      exact .record (((says_operation op (room + 1)).given (by simp) hclosure).given (by simp)
        (StageId.list_readsBack deps room))

theorem stops {r : StageRequest} {room : Nat} {c : Closure} (hc : c ∈ r.closure)
    (h : c.captured.Kept) (hdeep : room < c.captured.nesting) :
    codec.Stops (room + 2) .tooDeep r := by
  obtain ⟨op, closure, deps⟩ := r
  obtain rfl : closure = some c := hc
  have hclosure := (Closure.stops h hdeep).option rfl
  exact .record (((says_operation op (room + 1)).breaks (by simp) hclosure _).widen (by simp) _ _ _
    [("deps", Codec.stageId.list.toValue deps)])

end StageRequest

theorem Invocation.stops (r : Invocation) {room : Nat} (h : r.closure.captured.Kept)
    (hdeep : room < r.closure.captured.nesting) : codec.Stops (room + 2) .tooDeep r :=
  .record (((((Fields.Says.none Invocation.mk).given (by simp) (.flowId _ r.flow)).given (by simp)
    (.stageId _ r.stage)).breaks (by simp) (Closure.stops h hdeep) _).widen (by simp) _ _ _
      [("args", Outcome.codec.list.toValue r.args)])

/-- Every message comes back from its document.
* A message with a closure does if what is captured is nested at most 125 deep, and if it is nested
  deeper the document is refused, for its depth: a new stage, whose closure may be missing, a hook
  and the run of a body.
* All other messages always do: those that make a flow, a completed stage or a delay, that commit a
  flow, and the answers that name a flow or a stage or bring an outcome. -/
theorem message_round_trip :
    (∀ r : StageRequest, (∀ c ∈ r.closure, c.captured.Kept) →
      ((∀ c ∈ r.closure, c.captured.nesting ≤ 125) →
        StageRequest.codec.decode (StageRequest.codec.encode r) = .ok r) ∧
      ((∃ c ∈ r.closure, 125 < c.captured.nesting) →
        ∃ p, StageRequest.codec.decode (StageRequest.codec.encode r) =
          .error ⟨.tooDeep, some p⟩)) ∧
    (∀ c : Closure, c.captured.Kept →
      (c.captured.nesting ≤ 125 → Message.addHook.decode (Message.addHook.encode c) = .ok c) ∧
      (125 < c.captured.nesting →
        ∃ p, Message.addHook.decode (Message.addHook.encode c) = .error ⟨.tooDeep, some p⟩)) ∧
    (∀ r : Invocation, r.closure.captured.Kept →
      (r.closure.captured.nesting ≤ 125 →
        Invocation.codec.decode (Invocation.codec.encode r) = .ok r) ∧
      (125 < r.closure.captured.nesting →
        ∃ p, Invocation.codec.decode (Invocation.codec.encode r) = .error ⟨.tooDeep, some p⟩)) ∧
    (∀ function : String,
      Message.createFlow.decode (Message.createFlow.encode function) = .ok function) ∧
    (∀ flow : FlowId, Message.flowCreated.decode (Message.flowCreated.encode flow) = .ok flow) ∧
    (∀ o : Outcome, Message.addCompleted.decode (Message.addCompleted.encode o) = .ok o) ∧
    (∀ ms : UInt64, Message.addDelay.decode (Message.addDelay.encode ms) = .ok ms) ∧
    (∀ s : FlowState, Message.commit.decode (Message.commit.encode s) = .ok s) ∧
    (∀ stage : StageId, Message.stageAdded.decode (Message.stageAdded.encode stage) = .ok stage) ∧
    (∀ o : Outcome, Message.stageAwaited.decode (Message.stageAwaited.encode o) = .ok o) ∧
    ∀ o : Outcome, Message.invoked.decode (Message.invoked.encode o) = .ok o := by
  refine ⟨?stage, ?hook, ?invocation, ?_, ?_, ?_, ?_, ?_, ?_, ?_, ?_⟩
  case stage =>
    intro r hkept
    refine ⟨?_, ?_⟩
    · intro hnesting
      exact Codec.decode_encode (StageRequest.readsBack fun c hc =>
        (hkept c hc).exact (hnesting c hc))
    · rintro ⟨c, hc, hdeep⟩
      exact Codec.decode_stops (StageRequest.stops hc (hkept c hc) hdeep)
  case hook =>
    intro c hkept
    refine ⟨?_, ?_⟩
    · intro hnesting
      exact Codec.decode_encode
        (Message.single_readsBack (Closure.readsBack (hkept.exact hnesting)))
    · intro hdeep
      exact Codec.decode_stops (Message.single_stops (Closure.stops hkept hdeep))
  case invocation =>
    intro r hkept
    refine ⟨?_, ?_⟩
    · intro hnesting
      exact Invocation.decode_encode (hkept.exact hnesting)
    · intro hdeep
      exact Codec.decode_stops (r.stops hkept hdeep)
  · intro function
    exact Codec.decode_encode (Message.single_readsBack (.string 126 function))
  · intro flow
    exact Codec.decode_encode (Message.single_readsBack (.flowId 126 flow))
  · intro o
    exact Codec.decode_encode (Message.single_readsBack (o.readsBack 123))
  · intro ms
    exact Codec.decode_encode (Message.single_readsBack (.uint64 126 ms))
  · intro s
    exact Codec.decode_encode (Message.single_readsBack (s.readsBack 126))
  · intro stage
    exact Codec.decode_encode (Message.single_readsBack (.stageId 126 stage))
  · intro o
    exact Codec.decode_encode (Message.single_readsBack (o.readsBack 123))
  · exact Message.invoked_decode_encode

/-- Arrays inside one another, so many. -/
def Json.Value.tower : Nat → Json.Value
  | 0 => .null
  | n + 1 => .array [tower n]

theorem Json.Value.exact_tower (n : Nat) : (tower n).Exact n := by
  induction n with
  | zero => exact .null
  | succ n ih => exact .array (List.forall_mem_singleton.mpr ih)

theorem Json.Value.nesting_tower (n : Nat) : (tower n).nesting = n := by
  induction n with
  | zero => rfl
  | succ n ih => simp [tower, nesting, itemsNesting, ih]

/-- A hook, and a new stage with an input, that capture so many arrays inside one another. -/
def Json.Value.towerClosure (n : Nat) : Closure := ⟨"e", tower n⟩

@[inherit_doc Json.Value.towerClosure]
def Json.Value.towerStage (n : Nat) : StageRequest :=
  ⟨.thenApply, some (towerClosure n), [⟨"0"⟩]⟩

theorem message_round_trip_limit :
    (Json.Value.tower 125).nesting = 125 ∧ (Json.Value.tower 126).nesting = 126 ∧
      (∀ n, (Json.Value.tower n).Kept) ∧
      StageRequest.codec.decode (StageRequest.codec.encode (Json.Value.towerStage 125)) =
        .ok (Json.Value.towerStage 125) ∧
      (∃ p, StageRequest.codec.decode (StageRequest.codec.encode (Json.Value.towerStage 126)) =
        .error ⟨.tooDeep, some p⟩) ∧
      Message.addHook.decode (Message.addHook.encode (Json.Value.towerClosure 125)) =
        .ok (Json.Value.towerClosure 125) ∧
      ∃ p, Message.addHook.decode (Message.addHook.encode (Json.Value.towerClosure 126)) =
        .error ⟨.tooDeep, some p⟩ := by
  have hkept (n : Nat) : (Json.Value.tower n).Kept := ⟨n, Json.Value.exact_tower n⟩
  have hnesting (n : Nat) : (Json.Value.towerClosure n).captured.nesting = n :=
    Json.Value.nesting_tower n
  have hstages (n : Nat) : ∀ c ∈ (Json.Value.towerStage n).closure, c.captured.Kept := by
    rintro _ ⟨⟩
    exact hkept n
  obtain ⟨hstage, hhook, -⟩ := message_round_trip
  refine ⟨hnesting 125, hnesting 126, hkept, (hstage _ (hstages 125)).1 ?_,
    (hstage _ (hstages 126)).2 ?_, (hhook _ (hkept 125)).1 (hnesting 125).le,
    (hhook _ (hkept 126)).2 (by rw [hnesting]; decide)⟩
  · rintro _ ⟨⟩
    exact (hnesting 125).le
  · exact ⟨Json.Value.towerClosure 126, rfl, by rw [hnesting]; decide⟩

end StageGraph
