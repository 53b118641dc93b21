/-
# `StageGraph.Proofs.WireRoundTrip` — data and outcomes come back from the wire

`wire_round_trip`: the bytes of a datum are read as that datum, and the bytes of an
outcome as that outcome, whatever strings and bytes they hold.

A codec *reads back* a value when it takes the text of the value, and no more, off
the front of the bytes (`Codec.ReadsBack`).  What follows is arbitrary as far as a
number would end in front of it, since the parts of a record and the content of a case
stand in front of a comma or a brace.
Reading back is proved once for each way of making codecs: scalars, records
(`Codec.ReadsBack.record`), and the two kinds of cases (`Codec.ReadsBack.bare`,
`Codec.ReadsBack.holding`).  Every pair of braces takes one of the brackets that may be
open; an outcome needs three of the `Json.maxDepth`.
-/
import StageGraph.Proofs.JsonRoundTrip
import StageGraph.Error.FlowError

namespace StageGraph

open StageGraph.Json (Fault Stop Value Reader byte)

namespace Json

/-! ## The texts of objects -/

/-- The text of the fields of an object, without braces. -/
def fieldsText : Bool → List (String × Value) → Bytes
  | _, [] => []
  | first, (name, v) :: rest =>
      separator first ++ byte '"' :: (inner name ++ byte '"' :: byte ':' ::
        (v.encode ++ fieldsText false rest))

theorem encode_string (s : String) :
    (Value.string s).encode = byte '"' :: (inner s ++ [byte '"']) :=
  encode_printString s

theorem encode_string_append (s : String) (rest : Bytes) :
    (Value.string s).encode ++ rest = byte '"' :: (inner s ++ byte '"' :: rest) := by
  rw [encode_string, List.cons_append, List.append_assoc, List.cons_append, List.nil_append]

theorem encode_field (name : String) (v : Value) :
    Utf8.encode (printString name ++ ':' :: print v) =
      byte '"' :: (inner name ++ byte '"' :: byte ':' :: v.encode) := by
  rw [Utf8.encode_append, encode_printString, Utf8.encode_cons, Value.encode]
  simp only [List.cons_append, List.append_assoc, List.nil_append]
  rfl

theorem encode_joined (fields : List (String × Value)) :
    Utf8.encode (joined (printFields fields)) = fieldsText true fields := by
  suffices h : ∀ f fields, Utf8.encode (joined (printFields (f :: fields))) =
      fieldsText true (f :: fields) by
    cases fields with
    | nil => rfl
    | cons f fields => exact h f fields
  intro f fields
  induction fields generalizing f with
  | nil =>
      simp only [printFields, joined, encode_field, fieldsText, separator, if_true, List.nil_append,
        List.append_nil]
  | cons g fields ih =>
      have hsplit : joined (printFields (f :: g :: fields)) =
          (printString f.1 ++ ':' :: print f.2) ++ ',' :: joined (printFields (g :: fields)) := rfl
      have hcomma : Utf8.encodeChar ',' ++ fieldsText true (g :: fields) =
          fieldsText false (g :: fields) := rfl
      rw [hsplit, Utf8.encode_append, encode_field, Utf8.encode_cons, ih g, hcomma]
      simp only [List.cons_append, List.append_assoc]
      rfl

theorem encode_object (fields : List (String × Value)) :
    (Value.object fields).encode = byte '\x7b' :: (fieldsText true fields ++ [byte '\x7d']) := by
  rw [Value.encode, print, Utf8.encode_append, Utf8.encode_cons, encode_joined]
  rfl

theorem encode_object_append (fields : List (String × Value)) (rest : Bytes) :
    (Value.object fields).encode ++ rest =
      byte '\x7b' :: (fieldsText true fields ++ byte '\x7d' :: rest) := by
  rw [encode_object, List.cons_append, List.append_assoc, List.cons_append, List.nil_append]

/-- A field takes at least one byte. -/
theorem length_le_fieldsText (first : Bool) (fields : List (String × Value)) :
    fields.length ≤ (fieldsText first fields).length := by
  induction fields generalizing first with
  | nil => exact Nat.le_refl _
  | cons f fields ih =>
      have hrest := ih false
      simp only [fieldsText, List.length_cons, List.length_append]
      omega

/-- So the length of what is left of a text is fuel enough for its fields. -/
theorem length_lt_fieldsText (fields : List (String × Value)) (rest : Bytes) :
    fields.length < (fieldsText true fields ++ rest).length + 1 := by
  have hlength := length_le_fieldsText true fields
  rw [List.length_append]
  omega

/-- Behind a field comes a comma or the closing brace. -/
theorem delimited_fieldsText (fields : List (String × Value)) (rest : Bytes) :
    Delimited (fieldsText false fields ++ byte '\x7d' :: rest) := by
  cases fields with
  | nil => exact delimited_cons (by decide) rest
  | cons f fields => exact delimited_cons (by decide) _

end Json

namespace Wire

variable {α β : Type}

/-- From the text of a value, in front of anything that a number would end at, the codec reads the
value and nothing more. -/
def Codec.ReadsBack (c : Codec α) (room : Nat) (a : α) : Prop :=
  ∀ rest, Json.Delimited rest → c.read room ((c.toValue a).encode ++ rest) = .ok (a, rest)

namespace Codec

theorem decode_encode {c : Codec α} {a : α} (h : c.ReadsBack Json.maxDepth a) :
    c.decode (c.encode a) = .ok a := by
  have hread := h [] Json.delimited_nil
  rw [List.append_nil] at hread
  rw [decode, encode, Json.readDocument, hread]
  rfl

/-! ## Scalars -/

theorem ReadsBack.string (room : Nat) (s : String) : Codec.string.ReadsBack room s := by
  intro rest _
  show Codec.string.read room ((Value.string s).encode ++ rest) = .ok (s, rest)
  rw [Json.encode_string_append]
  simp only [Codec.string, scalar, Json.readFound_string, bind, Except.bind]

theorem ReadsBack.bool (room : Nat) (b : Bool) : bool.ReadsBack room b := by
  intro rest _
  cases b <;> rfl

/-- A value that is written as another one is read back if it can be made from that one. -/
theorem ReadsBack.map {c : Codec α} {f : α → Except Fault β} {g : β → α} {room : Nat} {b : β}
    (h : c.ReadsBack room (g b)) (hf : f (g b) = .ok b) : (c.map f g).ReadsBack room b := by
  intro rest hrest
  simp only [Codec.map, h rest hrest, hf, bind, Except.bind]

theorem ReadsBack.base64 (room : Nat) (bs : Bytes) : base64.ReadsBack room bs := by
  refine (ReadsBack.string room _).map ?_
  rw [Utf8.ofString, String.toList_ofList, Base64.decode_encode]
  rfl

theorem ReadsBack.stageId (room : Nat) (s : StageId) : stageId.ReadsBack room s :=
  (ReadsBack.string room s.text).map rfl

/-- A string is not null. -/
theorem ReadsBack.optionString (room : Nat) (s : String) :
    Codec.string.option.ReadsBack room (some s) := by
  intro rest hrest
  have hread : Codec.string.read room ((Value.string s).encode ++ rest) = .ok (s, rest) :=
    ReadsBack.string room s rest hrest
  show Codec.string.option.read room ((Value.string s).encode ++ rest) = .ok (some s, rest)
  rw [Json.encode_string, List.cons_append] at hread ⊢
  simp (disch := decide) only [option, Json.skipBlanks_cons]
  rw [if_neg (by decide), hread]
  rfl

end Codec

/-! ## Records -/

namespace Fields

/-- Fields of an object that are taken one after the other and bring the slots of a record from
one state to another. -/
inductive Fills (fs : Fields α) (room : Nat) :
    fs.Slots → List (String × Value) → fs.Slots → Prop
  | nil (slots : fs.Slots) : Fills fs room slots [] slots
  | cons {slots next last : fs.Slots} {name : String} {v : Value} {fields : List (String × Value)}
      {read : Nat → Reader fs.Slots} {ofValue : Value → Except Fault fs.Slots}
      (hstep : fs.step name slots = .take read ofValue)
      (hread : ∀ rest, Json.Delimited rest → read room (v.encode ++ rest) = .ok (next, rest))
      (hfields : Fills fs room next fields last) :
      Fills fs room slots ((name, v) :: fields) last

/-- The text of fields that fill a record up is read as the record. -/
theorem Fills.readObject {fs : Fields α} {room : Nat} {slots last : fs.Slots}
    {fields : List (String × Value)} {a : α} (h : fs.Fills room slots fields last)
    (hfinish : fs.finish last = .ok a) (rest : Bytes) :
    ∀ (fuel : Nat) (first : Bool), fields.length < fuel →
      fs.readObject room fuel first slots
        (Json.fieldsText first fields ++ byte '\x7d' :: rest) = .ok (a, rest) := by
  induction h with
  | nil slots =>
      intro fuel first hfuel
      cases fuel with
      | zero => exact absurd hfuel (Nat.not_lt_zero _)
      | succ fuel =>
          simp only [Json.fieldsText, List.nil_append, Fields.readObject, Json.nextName_end, hfinish,
            bind, Except.bind]
  | @cons _ _ _ _ _ fields _ _ hstep hread _ ih =>
      intro fuel first hfuel
      cases fuel with
      | zero => exact absurd hfuel (Nat.not_lt_zero _)
      | succ fuel =>
          have hrest := ih hfinish fuel false (Nat.lt_of_succ_lt_succ hfuel)
          simp only [Json.fieldsText, List.append_assoc, List.cons_append, Fields.readObject,
            Json.nextName_name, hstep, Json.readColon_cons,
            hread _ (Json.delimited_fieldsText fields rest), bind, Except.bind]
          exact hrest

theorem Fills.append {fs : Fields α} {room : Nat} {slots next last : fs.Slots}
    {fields more : List (String × Value)} (h : fs.Fills room slots fields next)
    (hmore : fs.Fills room next more last) : fs.Fills room slots (fields ++ more) last := by
  induction h with
  | nil => exact hmore
  | cons hstep hread _ ih => exact .cons hstep hread (ih hmore)

/-- What fills the earlier fields of a record fills them in the whole record, as long as the last
field is not named. -/
theorem Fills.widen {earlier : Fields (β → α)} {room : Nat} {slots last : earlier.Slots}
    {fields : List (String × Value)} (h : earlier.Fills room slots fields last) {n : String}
    (hnew : n ∉ fields.map Prod.fst) (codec : Codec β) (fallback read : Option β) :
    (Fields.field earlier n codec fallback).Fills room (slots, read) fields (last, read) := by
  induction h with
  | nil slots => exact @Fills.nil _ (.field earlier n codec fallback) room (slots, read)
  | @cons slots next _ name _ _ _ _ hstep hread _ ih =>
      rw [List.map_cons, List.mem_cons, not_or] at hnew
      have hwide : (Fields.field earlier n codec fallback).step name (slots, read) =
          (earlier.step name slots).widen fun earlierRead => (earlierRead, read) :=
        if_neg (Ne.symm hnew.1)
      rw [hstep] at hwide
      refine .cons hwide ?_ (ih hnew.2)
      intro rest hrest
      simp only [hread rest hrest, bind, Except.bind]
      rfl

/-- The fields of an object that say what a record is, in the order of the record; a field may be
left out when its fallback is meant. -/
inductive Says (room : Nat) : {α : Type} → Fields α → List (String × Value) → α → Prop
  | none {α : Type} (a : α) : Says room (.none a) [] a
  | given {α β : Type} {earlier : Fields (β → α)} {fields : List (String × Value)} {f : β → α}
      {n : String} {codec : Codec β} {fallback : Option β} {b : β} (h : Says room earlier fields f)
      (hnew : n ∉ fields.map Prod.fst) (hb : codec.ReadsBack room b) :
      Says room (.field earlier n codec fallback) (fields ++ [(n, codec.toValue b)]) (f b)
  | omitted {α β : Type} {earlier : Fields (β → α)} {fields : List (String × Value)} {f : β → α}
      {n : String} {codec : Codec β} {b : β} (h : Says room earlier fields f)
      (hnew : n ∉ fields.map Prod.fst) :
      Says room (.field earlier n codec (some b)) fields (f b)

theorem Says.fills {room : Nat} {fs : Fields α} {fields : List (String × Value)} {a : α}
    (h : fs.Says room fields a) :
    ∃ last, fs.Fills room fs.start fields last ∧ fs.finish last = .ok a := by
  induction h with
  | none a => exact ⟨(), @Fills.nil _ (.none a) room (), rfl⟩
  | @given _ _ earlier fields f n codec fallback b _ hnew hb ih =>
      obtain ⟨last, hfills, hfinish⟩ := ih
      have hstep : (Fields.field earlier n codec fallback).step n (last, Option.none) =
          .take _ _ := if_pos rfl
      refine ⟨(last, some b), (hfills.widen hnew codec fallback Option.none).append
        (.cons hstep ?_ (@Fills.nil _ (.field earlier n codec fallback) room (last, some b))), ?_⟩
      · intro rest hrest
        simp only [hb rest hrest, bind, Except.bind]
      · simp only [finish, hfinish, bind, Except.bind]
  | @omitted _ _ earlier fields f n codec b _ hnew ih =>
      obtain ⟨last, hfills, hfinish⟩ := ih
      refine ⟨(last, Option.none), hfills.widen hnew codec (some b) Option.none, ?_⟩
      simp only [finish, hfinish, bind, Except.bind]

end Fields

/-- A record is read back from fields that say what it is. -/
theorem Codec.ReadsBack.record {name : String} {fs : Fields α}
    {toFields : α → List (String × Value)} {room : Nat} {a : α}
    (h : fs.Says room (toFields a) a) : (Codec.record name fs toFields).ReadsBack (room + 1) a := by
  intro rest _
  obtain ⟨last, hfills, hfinish⟩ := h.fills
  have hfuel := Json.length_lt_fieldsText (toFields a) (byte '\x7d' :: rest)
  have hread := hfills.readObject hfinish rest _ true hfuel
  show (Codec.record name fs toFields).read (room + 1)
    ((Value.object (toFields a)).encode ++ rest) = .ok (a, rest)
  rw [Json.encode_object_append]
  simp only [Codec.record, Json.readFound_brace, bind, Except.bind, Codec.insideObject, Codec.inside,
    hread, Json.settle]

/-! ## Choices -/

section Choices

variable {cases : List (Case α)} {other : Option (Case α)} {toValue : α → Value}

/-- A case without content is read back from its name. -/
theorem Codec.ReadsBack.bare (name : String) {n : String} {a : α}
    (hname : Case.named? cases other name = some (.bare n a)) (hvalue : toValue a = .string name)
    (room : Nat) : (Codec.choice cases other toValue).ReadsBack room a := by
  intro rest _
  show (Codec.choice cases other toValue).read room ((toValue a).encode ++ rest) = .ok (a, rest)
  rw [hvalue, Json.encode_string_append]
  simp (disch := decide) only [Codec.choice, Json.skipBlanks_cons, if_true, Case.readAlone,
    Json.readString_inner, hname, Case.alone, bind, Except.bind]

/-- A case with content is read back from its name and the content. -/
theorem Codec.ReadsBack.holding (name : String) {n : String} {c : Codec β} {wrap : β → α} {b : β}
    {room : Nat} (hname : Case.named? cases other name = some (.holding n c wrap))
    (hvalue : toValue (wrap b) = .object [(name, c.toValue b)]) (hb : c.ReadsBack room b) :
    (Codec.choice cases other toValue).ReadsBack (room + 1) (wrap b) := by
  intro rest _
  have hne : byte '\x7b' ≠ byte '"' := by decide
  have hcontent := hb (byte '\x7d' :: rest) (Json.delimited_cons (by decide) rest)
  show (Codec.choice cases other toValue).read (room + 1) ((toValue (wrap b)).encode ++ rest) =
    .ok (wrap b, rest)
  rw [hvalue, Json.encode_object]
  simp (disch := decide) only [Json.fieldsText, Json.separator, if_true, List.nil_append,
    List.append_nil, List.cons_append, List.append_assoc, Codec.choice, Json.skipBlanks_cons,
    if_neg hne, Codec.inside, Case.readHolding, Json.readString_inner, hname, Json.readColon_cons,
    Case.readContent, hcontent, Case.endHolding, bind, Except.bind]

/-- Every value of a type is listed and has a name of its own. -/
structure Named (all : List α) (name : α → String) : Prop where
  complete : ∀ a, a ∈ all
  distinct : ∀ a ∈ all, ∀ b ∈ all, name b = name a → b = a

/-- The case of a value's own name is that value. -/
theorem Named.named?_eq {all : List α} {name : α → String} (h : Named all name)
    (other : Option α) (a : α) :
    Case.named? (all.map fun a => .bare (name a) a) (other.map fun a => .bare (name a) a) (name a) =
      some (.bare (name a) a) := by
  suffices hfind : ∀ rest : List α, a ∈ rest → (∀ b ∈ rest, name b = name a → b = a) →
      (rest.map fun a => Case.bare (name a) a).find? (fun c => c.name = name a) =
        some (.bare (name a) a) by
    rw [Case.named?, hfind all (h.complete a) (h.distinct a (h.complete a))]
    rfl
  intro rest ha hname
  induction rest with
  | nil => exact absurd ha List.not_mem_nil
  | cons b rest ih =>
      rw [List.map_cons, List.find?_cons]
      by_cases hb : name b = name a
      · obtain rfl := hname b List.mem_cons_self hb
        simp [Case.name]
      · have hmem : a ∈ rest := by
          rcases List.mem_cons.mp ha with rfl | hmem
          · exact absurd rfl hb
          · exact hmem
        simp only [Case.name, hb, decide_false]
        exact ih hmem fun c hc => hname c (List.mem_cons_of_mem b hc)

/-- A name is read back if no two values of the choice share one. -/
theorem Codec.ReadsBack.names {all : List α} {name : α → String} (h : Named all name)
    (other : Option α) (a : α) (room : Nat) : (Codec.names all name other).ReadsBack room a :=
  .bare (name a) (h.named?_eq other a) (by rfl) room

end Choices

end Wire

open Wire (Codec)

/-! ## Data and outcomes -/

theorem ErrorType.named : Wire.Named all tag :=
  ⟨by intro t; cases t <;> decide, by decide⟩

theorem FlowState.named : Wire.Named all tag :=
  ⟨by intro s; cases s <;> decide, by decide⟩

theorem ErrorType.readsBack (t : ErrorType) (room : Nat) : codec.ReadsBack room t :=
  .names named (some unknownError) t room

theorem FlowState.readsBack (s : FlowState) (room : Nat) : codec.ReadsBack room s :=
  .names named none s room

theorem Blob.readsBack (b : Blob) (room : Nat) : codec.ReadsBack (room + 1) b :=
  .record (((Wire.Fields.Says.none _).given (by simp) (.string room b.contentType)).given
    (by simp) (.base64 room b.data))

theorem ErrorRecord.readsBack (e : ErrorRecord) (room : Nat) : codec.ReadsBack (room + 1) e := by
  obtain ⟨type, message, trace⟩ := e
  have hgiven : (((Wire.Fields.none fun t m r => ErrorRecord.mk t m r).required "type"
      ErrorType.codec).required "message" Codec.string).Says room
      [("type", .string type.tag), ("message", .string message)] (ErrorRecord.mk type message) :=
    ((Wire.Fields.Says.none _).given (by simp) (type.readsBack room)).given (by simp)
      (.string room message)
  refine .record ?_
  cases trace with
  | none => exact hgiven.omitted (by simp)
  | some text => exact hgiven.given (by simp) (.optionString room text)

theorem Datum.stageRef_readsBack (s : StageId) (room : Nat) :
    stageRefCodec.ReadsBack (room + 1) s :=
  .record ((Wire.Fields.Says.none id).given (by simp) (.stageId room s))

theorem Datum.readsBack (d : Datum) (room : Nat) : codec.ReadsBack (room + 2) d := by
  cases d with
  | empty => exact .bare "empty" (by rfl) (by rfl) _
  | blob b => exact .holding "blob" (by rfl) (by rfl) (b.readsBack room)
  | error e => exact .holding "error" (by rfl) (by rfl) (e.readsBack room)
  | stageRef s => exact .holding "stage_ref" (by rfl) (by rfl) (stageRef_readsBack s room)
  | state s => exact .holding "state" (by rfl) (by rfl) (s.readsBack (room + 1))

theorem Outcome.readsBack (o : Outcome) (room : Nat) : codec.ReadsBack (room + 3) o := by
  have hparts (successful : Bool) (d : Datum) : fields.Says (room + 2)
      [("successful", .bool successful), ("datum", d.toValue)] (ofParts successful d) :=
    ((Wire.Fields.Says.none ofParts).given (by simp) (.bool _ successful)).given (by simp)
      (d.readsBack room)
  cases o with
  | success d => exact .record (hparts true d)
  | failure d => exact .record (hparts false d)

/-- What is written is read back: every datum and every outcome comes back from its bytes. -/
theorem wire_round_trip :
    (∀ d : Datum, Datum.ofBytes d.toBytes = .ok d) ∧
      ∀ o : Outcome, Outcome.ofBytes o.toBytes = .ok o := by
  constructor
  · intro d
    rw [Datum.ofBytes, Datum.toBytes, Codec.decode_encode (d.readsBack 125)]
    rfl
  · intro o
    rw [Outcome.ofBytes, Outcome.toBytes, Codec.decode_encode (o.readsBack 124)]
    rfl

end StageGraph
