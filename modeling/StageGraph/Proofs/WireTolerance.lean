/-
# `StageGraph.Proofs.WireTolerance` — which texts are read as a message

`wire_tolerance`: a message is read from every text that differs from its own document in
what does not matter, and no message is read from an object with a fault.

What does not matter is in `Codec.Variant`: blanks between tokens, the order of the fields of
a struct, fields of unknown names with any JSON in them, and fields left out that hold their
default.  The document itself is one of these texts, which is shown codec by codec, as reading
back is.  What is a fault is in `Broken`: a field of a struct given twice, a required one
missing, a second key in the object of a datum, and any of these further inside.
-/
import StageGraph.Proofs.FaultyReading
import StageGraph.Proofs.MessageRoundTrip

namespace StageGraph

open StageGraph.Json (Value Part Blanks IsObject IsArray byte)
open StageGraph.Wire (Codec Case Fields Entry)

/-! ## Documents as texts for their messages -/

section Written

variable {room : Nat}

theorem Wire.Codec.Variant.stageId_encode (s : StageId) :
    Codec.stageId.Variant room s (Codec.stageId.encode s) :=
  .map (Codec.Variant.string_encode s.text) rfl

theorem Wire.Codec.Variant.flowId_encode (f : FlowId) :
    Codec.flowId.Variant room f (Codec.flowId.encode f) :=
  .map (Codec.Variant.string_encode f.text) rfl

theorem Wire.Codec.Variant.base64_encode (b : Bytes) :
    Codec.base64.Variant room b (Codec.base64.encode b) := by
  refine .map (Codec.Variant.string_encode _) ?_
  rw [Utf8.ofString, String.toList_ofList, Base64.decode_encode]
  rfl

theorem Wire.Codec.Variant.uint64_encode (n : UInt64) :
    Codec.uint64.Variant room n (Codec.uint64.encode n) := by
  obtain ⟨hword, hfits⟩ := Wire.isWord_uint64 n
  exact .map (.scalar_encode (.int hword) (if_pos hfits)) (by simp)

theorem Wire.Codec.Variant.names_encode {α : Type} {all : List α} {name : α → String}
    (h : Wire.Named all name) (other : Option α) (a : α) :
    (Codec.names all name other).Variant room a ((Codec.names all name other).encode a) :=
  .bare_encode (name a) (h.named?_eq other a) rfl

theorem Blob.variant_encode (b : Blob) : codec.Variant (room + 1) b (codec.encode b) :=
  .record_encode (((Fields.Gives.none _).given (by simp)).given (by simp)) rfl
    (List.forall_mem_cons.mpr ⟨.string_encode b.contentType,
      List.forall_mem_singleton.mpr (.base64_encode b.data)⟩)

theorem ErrorRecord.variant_encode (e : ErrorRecord) :
    codec.Variant (room + 1) e (codec.encode e) := by
  obtain ⟨type, message, trace⟩ := e
  have hgives : (((Fields.none fun t m r => ErrorRecord.mk t m r).required "type"
      ErrorType.codec).required "message" Codec.string).Gives
      [⟨"type", ErrorType.codec, type⟩, ⟨"message", Codec.string, message⟩]
      (ErrorRecord.mk type message) :=
    ((Fields.Gives.none _).given (by simp)).given (by simp)
  have htype : ErrorType.codec.Variant room type (ErrorType.codec.encode type) :=
    .names_encode ErrorType.named (some .unknownError) type
  cases trace with
  | none =>
      exact .record_encode (hgives.omitted (by simp)) rfl
        (List.forall_mem_cons.mpr ⟨htype, List.forall_mem_singleton.mpr (.string_encode _)⟩)
  | some text =>
      have hall : fields.Gives [⟨"type", ErrorType.codec, type⟩, ⟨"message", Codec.string, message⟩,
          ⟨"trace", Codec.string.option, some text⟩] (ErrorRecord.mk type message (some text)) :=
        hgives.given (by simp)
      refine .record_encode hall rfl (List.forall_mem_cons.mpr ⟨htype,
        List.forall_mem_cons.mpr ⟨.string_encode _, List.forall_mem_singleton.mpr ?_⟩⟩)
      exact .some (.string_encode text) nofun

theorem Message.variant_encode {α : Type} {record field : String} {c : Codec α} {a : α}
    (h : c.Variant room a (c.encode a)) :
    (single record field c).Variant (room + 1) a ((single record field c).encode a) :=
  .record_encode ((Fields.Gives.none id).given (by simp)) rfl (List.forall_mem_singleton.mpr h)

theorem Datum.stageRef_variant_encode (s : StageId) :
    stageRefCodec.Variant (room + 1) s (stageRefCodec.encode s) :=
  Message.variant_encode (.stageId_encode s)

theorem Datum.variant_encode (d : Datum) : codec.Variant (room + 2) d (codec.encode d) := by
  cases d with
  | empty => exact .bare_encode "empty" (by rfl) (by rfl)
  | blob b => exact .holding_encode "blob" (by rfl) (by rfl) b.variant_encode
  | error e => exact .holding_encode "error" (by rfl) (by rfl) e.variant_encode
  | stageRef s => exact .holding_encode "stage_ref" (by rfl) (by rfl) (stageRef_variant_encode s)
  | state s =>
      exact .holding_encode "state" (by rfl) (by rfl) (.names_encode FlowState.named none s)

theorem Outcome.variant_encode (o : Outcome) : codec.Variant (room + 3) o (codec.encode o) := by
  have hgives (successful : Bool) (d : Datum) : fields.Gives
      [⟨"successful", Codec.bool, successful⟩, ⟨"datum", Datum.codec, d⟩] (ofParts successful d) :=
    ((Fields.Gives.none ofParts).given (by simp)).given (by simp)
  cases o with
  | success d =>
      exact .record_encode (hgives true d) rfl (List.forall_mem_cons.mpr ⟨.bool_encode true,
        List.forall_mem_singleton.mpr d.variant_encode⟩)
  | failure d =>
      exact .record_encode (hgives false d) rfl (List.forall_mem_cons.mpr ⟨.bool_encode false,
        List.forall_mem_singleton.mpr d.variant_encode⟩)

theorem Closure.variant_encode {c : Closure} (h : c.captured.Exact room) :
    codec.Variant (room + 1) c (codec.encode c) :=
  .record_encode (((Fields.Gives.none Closure.mk).given (by simp)).given (by simp)) rfl
    (List.forall_mem_cons.mpr ⟨.string_encode c.entry,
      List.forall_mem_singleton.mpr (.value h h.spelled)⟩)

theorem StageRequest.variant_encode {r : StageRequest}
    (h : ∀ c ∈ r.closure, c.captured.Exact room) :
    codec.Variant (room + 2) r (codec.encode r) := by
  obtain ⟨op, closure, deps⟩ := r
  have hoperation : ((Fields.none StageRequest.mk).required "operation" Operation.codec).Gives
      [⟨"operation", Operation.codec, op⟩] (StageRequest.mk op) :=
    (Fields.Gives.none _).given (by simp)
  have hop : Operation.codec.Variant (room + 1) op (Operation.codec.encode op) :=
    .names_encode Operation.named none op
  have hdeps : Codec.stageId.list.Variant (room + 1) deps (Codec.stageId.list.encode deps) :=
    .list_encode fun s _ => .stageId_encode s
  cases closure with
  | none =>
      exact .record_encode ((hoperation.omitted (by simp)).given
        (by simp)) rfl
        (List.forall_mem_cons.mpr ⟨hop, List.forall_mem_singleton.mpr hdeps⟩)
  | some c =>
      have hclosure : (((Fields.none StageRequest.mk).required "operation" Operation.codec).optional
          "closure" Closure.codec.option none).Gives
          [⟨"operation", Operation.codec, op⟩, ⟨"closure", Closure.codec.option, some c⟩]
          (StageRequest.mk op (some c)) := hoperation.given (by simp)
      refine .record_encode (hclosure.given (by simp)) rfl
        (List.forall_mem_cons.mpr ⟨hop, List.forall_mem_cons.mpr ⟨?_,
          List.forall_mem_singleton.mpr hdeps⟩⟩)
      exact .some (Closure.variant_encode (h c rfl)) nofun

theorem Invocation.variant_encode {r : Invocation} (h : r.closure.captured.Exact (room + 3)) :
    codec.Variant (room + 5) r (codec.encode r) := by
  have hargs : Outcome.codec.list.Variant (room + 4) r.args (Outcome.codec.list.encode r.args) :=
    .list_encode fun o _ => o.variant_encode
  exact .record_encode
    (((((Fields.Gives.none Invocation.mk).given (by simp)).given
      (by simp)).given (by simp)).given (by simp)) rfl
    (List.forall_mem_cons.mpr ⟨.flowId_encode _, List.forall_mem_cons.mpr ⟨.stageId_encode _,
      List.forall_mem_cons.mpr ⟨Closure.variant_encode h,
        List.forall_mem_singleton.mpr hargs⟩⟩⟩)

end Written

/-! ## Structs -/

/-- The field of a struct that has only one. -/
inductive OnlyField : {α : Type} → String → Codec α → Prop
  | function : OnlyField "function_id" Codec.string
  | flow : OnlyField "flow_id" Codec.flowId
  | stage : OnlyField "stage_id" Codec.stageId
  | delay : OnlyField "delay_ms" Codec.uint64
  | state : OnlyField "state" FlowState.codec
  | closure : OnlyField "closure" Closure.codec
  | result : OnlyField "result" Outcome.codec

/-- The structs of the protocol, by their fields. -/
inductive Struct : {α : Type} → Fields α → Prop
  | blob : Struct Blob.fields
  | error : Struct ErrorRecord.fields
  | outcome : Struct Outcome.fields
  | closure : Struct Closure.fields
  | stageRequest : Struct StageRequest.fields
  | invocation : Struct Invocation.fields
  | single {α : Type} {field : String} {c : Codec α} (h : OnlyField field c) :
      Struct ((Fields.none id).required field c)

theorem Wire.Codec.Whole.stageId : Codec.stageId.Whole := .map .string _ _

theorem Wire.Codec.Whole.flowId : Codec.flowId.Whole := .map .string _ _

theorem Wire.Codec.Whole.uint64 : Codec.uint64.Whole := .map (.intBetween _ _ _) _ _

theorem Wire.Codec.Whole.base64 : Codec.base64.Whole := .map .string _ _

theorem Blob.fields_whole : fields.Whole := ⟨⟨trivial, .string⟩, .base64⟩

theorem ErrorRecord.fields_whole : fields.Whole :=
  ⟨⟨⟨trivial, .names _ _ _⟩, .string⟩, .option .string⟩

theorem Closure.fields_whole : fields.Whole := ⟨⟨trivial, .string⟩, .value⟩

theorem Closure.whole : codec.Whole := .record fields_whole _ _

theorem Datum.stageRef_whole : stageRefCodec.Whole :=
  .record (show ((Fields.none id).required "stage_id" Codec.stageId).Whole from
    ⟨trivial, .stageId⟩) _ _

/-- What the cases of a datum hold is read as one value. -/
theorem Datum.cases_whole : ∀ c ∈ ([.bare "empty" empty, .holding "blob" Blob.codec blob,
    .holding "error" ErrorRecord.codec error, .holding "stage_ref" stageRefCodec stageRef,
    .holding "state" FlowState.codec state] : List (Case Datum)), c.Whole := by
  simp only [List.forall_mem_cons]
  exact ⟨trivial, .record Blob.fields_whole _ _, .record ErrorRecord.fields_whole _ _,
    stageRef_whole, .names _ _ _, nofun⟩

theorem Datum.other_whole : ∀ c ∈ (none : Option (Case Datum)), c.Whole := by
  simp

theorem Datum.whole : codec.Whole := .choice cases_whole other_whole _

theorem Outcome.fields_whole : fields.Whole := ⟨⟨trivial, .bool⟩, Datum.whole⟩

theorem Outcome.whole : codec.Whole := .record fields_whole _ _

theorem OnlyField.whole {α : Type} {field : String} {c : Codec α} (h : OnlyField field c) :
    c.Whole := by
  cases h with
  | function => exact .string
  | flow => exact .flowId
  | stage => exact .stageId
  | delay => exact .uint64
  | state => exact .names _ _ _
  | closure => exact Closure.whole
  | result => exact Outcome.whole

theorem Struct.whole {α : Type} {fs : Fields α} (h : Struct fs) : fs.Whole := by
  cases h with
  | blob => exact Blob.fields_whole
  | error => exact ErrorRecord.fields_whole
  | outcome => exact Outcome.fields_whole
  | closure => exact Closure.fields_whole
  | stageRequest => exact ⟨⟨⟨trivial, .names _ _ _⟩, .option Closure.whole⟩, .list .stageId⟩
  | invocation =>
      exact ⟨⟨⟨⟨trivial, .flowId⟩, .stageId⟩, Closure.whole⟩, .list Outcome.whole⟩
  | single h => exact ⟨trivial, h.whole⟩

/-! ## Faults -/

/-- The texts with a fault from which nothing is read.
* In an object that stands for a struct a field comes twice, or one is missing that is required.
* The object that stands for a datum has a second field.
* There is such a fault further inside: in a field of a struct, in what a case holds, in one of the
  results that a body is given, or in an optional value.
All that is not said here may be any JSON. -/
inductive Broken : {α : Type} → Codec α → Bytes → Prop
  | repeated {α : Type} {fs : Fields α} {struct name : String}
      {toFields : α → List (String × Value)}
      {ms : List (String × Part)} {t : Bytes} (hfs : Struct fs) (ht : IsObject ms t)
      (hname : name ∈ fs.names) (htwice : 2 ≤ (ms.map Prod.fst).count name) :
      Broken (Codec.record struct fs toFields) t
  | missing {α : Type} {fs : Fields α} {struct name : String} {toFields : α → List (String × Value)}
      {ms : List (String × Part)} {t : Bytes} (hfs : Struct fs) (ht : IsObject ms t)
      (hname : fs.Requires name) (hmissing : name ∉ ms.map Prod.fst) :
      Broken (Codec.record struct fs toFields) t
  | second {ms : List (String × Part)} {t : Bytes} (ht : IsObject ms t) (hms : 2 ≤ ms.length) :
      Broken Datum.codec t
  | field {α β : Type} {fs : Fields α} {struct name : String} {toFields : α → List (String × Value)}
      {codec : Codec β} {ms : List (String × Part)} {t : Bytes} {p : Part} (hfs : Struct fs)
      (ht : IsObject ms t) (hhas : fs.Has name codec) (hp : (name, p) ∈ ms)
      (h : Broken codec p.value) : Broken (Codec.record struct fs toFields) t
  | content {α β : Type} {cases : List (Case α)} {other : Option (Case α)} {toValue : α → Value}
      {name n : String} {c : Codec β} {wrap : β → α} {t : Bytes} {p : Part}
      (hcase : Case.named? cases other name = some (.holding n c wrap))
      (ht : IsObject [(name, p)] t) (h : Broken c p.value) :
      Broken (Codec.choice cases other toValue) t
  | result {ps : List Part} {t : Bytes} {p : Part} (ht : IsArray ps t) (hp : p ∈ ps)
      (h : Broken Outcome.codec p.value) : Broken Outcome.codec.list t
  | some {α : Type} {c : Codec α} {t : Bytes} (h : Broken c t) : Broken c.option t

variable {α : Type}

theorem Json.IsObject.begins {ms : List (String × Part)} {t : Bytes} (h : IsObject ms t) :
    Json.Begins t (byte '\x7b') := by
  obtain ⟨hlead, -, -⟩ := h
  exact Json.begins_bracketText .curly hlead _ _

/-- A fault is in an object or an array, so its text does not begin as null does. -/
theorem Broken.begins {c : Codec α} {t : Bytes} (h : Broken c t) :
    ∃ b, Json.Begins t b ∧ b ≠ byte 'n' := by
  induction h with
  | repeated _ ht => exact ⟨_, ht.begins, by decide⟩
  | missing _ ht => exact ⟨_, ht.begins, by decide⟩
  | second ht => exact ⟨_, ht.begins, by decide⟩
  | field _ ht => exact ⟨_, ht.begins, by decide⟩
  | content _ ht => exact ⟨_, ht.begins, by decide⟩
  | result ht =>
      obtain ⟨hlead, -, -⟩ := ht
      exact ⟨_, Json.begins_bracketText .square hlead _ _, by decide⟩
  | some _ ih => exact ih

/-- A text with a fault is still JSON. -/
theorem Broken.text {c : Codec α} {t : Bytes} (h : Broken c t) : Json.Text t := by
  induction h with
  | repeated _ ht => exact ht.text
  | missing _ ht => exact ht.text
  | second ht => exact ht.text
  | field _ ht => exact ht.text
  | content _ ht => exact ht.text
  | result ht => exact ht.text
  | some _ ih => exact ih

/-- Nothing is read from a text with a fault. -/
theorem Broken.refuses {c : Codec α} {t : Bytes} (h : Broken c t) (room : Nat) :
    Json.Refuses (c.read room) t := by
  induction h generalizing room with
  | repeated hfs ht hname htwice =>
      refine Wire.Codec.refuses_record ht (fun room => ?_) room
      obtain ⟨-, -, hms⟩ := ht
      exact .repeated hfs.whole hms hname htwice
  | missing hfs ht hname hmissing =>
      refine Wire.Codec.refuses_record ht (fun room => ?_) room
      obtain ⟨-, -, hms⟩ := ht
      exact .missing hfs.whole hms hname (Fields.not_filled_start _) hmissing
  | second ht hms =>
      exact Wire.Codec.refuses_second Datum.cases_whole Datum.other_whole hms ht room
  | field hfs ht hhas hp _ ih =>
      refine Wire.Codec.refuses_record ht (fun room => ?_) room
      obtain ⟨-, -, hms⟩ := ht
      exact .field hfs.whole hms hhas hp (ih room)
  | content hcase ht _ ih => exact Wire.Codec.refuses_holding hcase ht ih room
  | result ht hp _ ih => exact Wire.Codec.refuses_list Outcome.whole ht hp ih room
  | some h ih =>
      obtain ⟨b, hb, hne⟩ := h.begins
      exact Wire.Codec.refuses_option hb hne room (ih room)

/-- A document with a fault is refused. -/
theorem Broken.decode {c : Codec α} {t pad : Bytes} (h : Broken c t) (hpad : Blanks pad) :
    ∃ e, c.decode (t ++ pad) = .error e := by
  cases hread : c.read Json.maxDepth (t ++ pad) with
  | ok found => exact absurd hread (h.refuses _ _ pad hpad.delimited_self rfl found.1 found.2)
  | error e =>
      refine ⟨e.refusal (t ++ pad), ?_⟩
      simp only [Codec.decode, Json.readDocument, hread]
      rfl

/-! ## Messages -/

/-- A value is read from the document that is written for it and from every variant of this
document. -/
structure Tolerates (c : Codec α) (a : α) : Prop where
  written : c.Variant Json.maxDepth a (c.encode a)
  decode : ∀ t pad, c.Variant Json.maxDepth a t → Blanks pad → c.decode (t ++ pad) = .ok a

theorem tolerates {c : Codec α} {a : α} (h : c.Variant Json.maxDepth a (c.encode a)) :
    Tolerates c a :=
  ⟨h, fun _ _ ht hpad => ht.decode hpad⟩

/-- Messages are read as they are meant and never with a fault.
* Every datum, every outcome and every message of the protocol is read from all variants of its
  document.  In a message with a closure the captured value is one that its text keeps, nested at
  most 125 deep.
* A document with a fault is JSON, and it is refused. -/
theorem wire_tolerance :
    (∀ d : Datum, Tolerates Datum.codec d) ∧
    (∀ o : Outcome, Tolerates Outcome.codec o) ∧
    (∀ r : StageRequest, (∀ c ∈ r.closure, c.captured.Kept ∧ c.captured.nesting ≤ 125) →
      Tolerates StageRequest.codec r) ∧
    (∀ c : Closure, c.captured.Kept → c.captured.nesting ≤ 125 → Tolerates Message.addHook c) ∧
    (∀ r : Invocation, r.closure.captured.Kept → r.closure.captured.nesting ≤ 125 →
      Tolerates Invocation.codec r) ∧
    (∀ function : String, Tolerates Message.createFlow function) ∧
    (∀ flow : FlowId, Tolerates Message.flowCreated flow) ∧
    (∀ o : Outcome, Tolerates Message.addCompleted o) ∧
    (∀ ms : UInt64, Tolerates Message.addDelay ms) ∧
    (∀ s : FlowState, Tolerates Message.commit s) ∧
    (∀ stage : StageId, Tolerates Message.stageAdded stage) ∧
    (∀ o : Outcome, Tolerates Message.stageAwaited o) ∧
    (∀ o : Outcome, Tolerates Message.invoked o) ∧
    ∀ (α : Type) (c : Codec α) (t : Bytes), Broken c t →
      Json.Text t ∧ ∀ pad, Blanks pad → ∃ e, c.decode (t ++ pad) = .error e := by
  refine ⟨?_, ?_, ?_, ?_, ?_, ?_, ?_, ?_, ?_, ?_, ?_, ?_, ?_, ?_⟩
  · intro d
    exact tolerates d.variant_encode
  · intro o
    exact tolerates o.variant_encode
  · intro r h
    have hexact (c : Closure) (hc : c ∈ r.closure) : c.captured.Exact 125 :=
      (h c hc).1.exact (h c hc).2
    exact tolerates (StageRequest.variant_encode hexact)
  · intro c hkept hnesting
    exact tolerates (Message.variant_encode (Closure.variant_encode (hkept.exact hnesting)))
  · intro r hkept hnesting
    exact tolerates (Invocation.variant_encode (hkept.exact hnesting))
  · intro function
    exact tolerates (Message.variant_encode (.string_encode function))
  · intro flow
    exact tolerates (Message.variant_encode (.flowId_encode flow))
  · intro o
    exact tolerates (Message.variant_encode o.variant_encode)
  · intro ms
    exact tolerates (Message.variant_encode (.uint64_encode ms))
  · intro s
    exact tolerates (Message.variant_encode (.names_encode FlowState.named none s))
  · intro stage
    exact tolerates (Message.variant_encode (.stageId_encode stage))
  · intro o
    exact tolerates (Message.variant_encode o.variant_encode)
  · intro o
    exact tolerates (Message.variant_encode o.variant_encode)
  · intro α c t h
    exact ⟨h.text, fun _ hpad => h.decode hpad⟩

/-- A field with a blank in front of its name and one behind its value. -/
def Json.spacedField (f : String × Bytes) : String × Part :=
  (f.1, ⟨Json.nameText [byte ' '] (Json.inner f.1) [], f.2, [byte ' ']⟩)

/-- The text of an object with such fields. -/
def Json.spacedObject (fs : List (String × Bytes)) : Bytes :=
  Json.bracketText .curly [] ((fs.map Json.spacedField).map Prod.snd) []

theorem Json.names_spaced (f : String × Bytes) : Json.Names f.1 (Json.spacedField f).2.name :=
  .mk (List.forall_mem_singleton.mpr rfl) (Json.stringText_inner f.1) .nil

theorem Json.blanks_spaced (f : String × Bytes) : Blanks (Json.spacedField f).2.after :=
  List.forall_mem_singleton.mpr rfl

theorem Json.isObject_spaced {fs : List (String × Bytes)} (h : ∀ f ∈ fs, Json.Text f.2) :
    IsObject (fs.map Json.spacedField) (Json.spacedObject fs) :=
  .mk .nil .nil (List.forall_mem_map.mpr fun f hf =>
    ⟨Json.names_spaced f, h f hf, Json.blanks_spaced f⟩)

theorem Wire.Codec.Variant.spaced {room : Nat} {name : String} {fs : Fields α}
    {toFields : α → List (String × Value)} {a : α} {given : List (Entry × Bytes)}
    {unknown ms : List (String × Bytes)} (hgives : fs.Gives (given.map Prod.fst) a)
    (hgiven : ∀ g ∈ given, Codec.Variant room g.1.codec g.1.value g.2)
    (hnames : ∀ m ∈ unknown, m.1 ∉ fs.names) (hunknown : ∀ m ∈ unknown, Json.Text m.2)
    (hms : ms.Perm (given.map (fun g => (g.1.name, g.2)) ++ unknown)) :
    (Codec.record name fs toFields).Variant (room + 1) a (Json.spacedObject ms) := by
  refine @Codec.Variant.record room α name fs toFields a [] []
    (given.map fun g => (g.1, (Json.spacedField (g.1.name, g.2)).2))
    (unknown.map Json.spacedField) (ms.map Json.spacedField) .nil .nil ?gives
    (List.forall_mem_map.mpr hgiven) (List.forall_mem_map.mpr hnames)
    (List.forall_mem_map.mpr hunknown) ?perm
    (List.forall_mem_map.mpr fun m _ => Json.names_spaced m)
    (List.forall_mem_map.mpr fun m _ => Json.blanks_spaced m)
  case gives =>
    rw [List.map_map]
    exact hgives
  case perm =>
    have hperm := hms.map Json.spacedField
    rw [List.map_append, List.map_map] at hperm
    rw [List.map_map]
    exact hperm

/-- The entry of a body, a field that no struct has with a number that is out of range, and the
fields of a request with both of them. -/
def Json.entryField : String × Bytes := ("entry", (Value.string "e").encode)

@[inherit_doc Json.entryField]
def Json.byField : String × Bytes :=
  ("by", [byte '-', byte '1', byte 'e', byte '9', byte '9', byte '9'])

@[inherit_doc Json.entryField]
def Json.requestFields : List (String × Bytes) :=
  [Json.byField, ("closure", Json.spacedObject [Json.entryField]),
    ("operation", Operation.codec.encode .thenApply)]

theorem Json.text_entryField : Json.Text Json.entryField.2 := by
  rw [Json.entryField, Json.encode_string]
  exact .string .nil (Json.stringText_inner "e").interior

theorem Json.text_byField : Json.Text Json.byField.2 := by
  have hone : Json.IntegerText [byte '1'] :=
    .digits ⟨by simp, List.forall_mem_singleton.mpr rfl⟩ (by decide)
  have hnines : Json.Digits [byte '9', byte '9', byte '9'] :=
    ⟨by simp, by simp only [List.forall_mem_cons]; exact ⟨rfl, rfl, rfl, nofun⟩⟩
  have hexponent : Json.ExponentText (byte 'e' :: ([] ++ [byte '9', byte '9', byte '9'])) :=
    .digits (.inl rfl) (.inl rfl) hnines
  exact .number .nil true (.mk hone .none hexponent)

theorem Closure.variant_spaced :
    codec.Variant 126 (.bare "e") (Json.spacedObject [Json.entryField]) :=
  @Codec.Variant.spaced _ 125 _ _ _ _ [(⟨"entry", Codec.string, "e"⟩, _)] [] [Json.entryField]
    (((Fields.Gives.none Closure.mk).given (by simp)).omitted (by simp))
    (List.forall_mem_singleton.mpr (.string_encode "e")) nofun nofun (.refl _)

theorem StageRequest.variant_spaced :
    codec.Variant Json.maxDepth ⟨.thenApply, some (.bare "e"), []⟩
      (Json.spacedObject Json.requestFields) :=
  @Codec.Variant.spaced _ 126 _ _ _ _
    [(⟨"operation", Operation.codec, .thenApply⟩, _),
      (⟨"closure", Closure.codec.option, some (.bare "e")⟩, _)] [Json.byField] Json.requestFields
    ((((Fields.Gives.none StageRequest.mk).given (by simp)).given (by simp)).omitted (by simp))
    (List.forall_mem_cons.mpr ⟨.names_encode Operation.named none .thenApply,
      List.forall_mem_singleton.mpr (.some Closure.variant_spaced nofun)⟩)
    (List.forall_mem_singleton.mpr (by decide)) (List.forall_mem_singleton.mpr Json.text_byField)
    (List.reverse_perm [_, _, _])

/-- A request that is spread out, as it may be sent. -/
def Json.requestText : Bytes := Utf8.ofString
  "\x7b \"by\":-1e999 , \"closure\":\x7b \"entry\":\"e\" \x7d , \"operation\":\"thenApply\" \x7d\n"

theorem Json.requestText_eq : requestText = spacedObject requestFields ++ [byte '\n'] := by
  decide +kernel

/-- A request of a stage is read with its fields the other way round, one that the struct does not
have, blanks, and neither inputs nor captured data; a field that comes twice, one that is missing,
and a second key are faults. -/
theorem wire_tolerance_spaced :
    StageRequest.codec.decode Json.requestText = .ok ⟨.thenApply, some (.bare "e"), []⟩ ∧
      (∃ e, Closure.codec.decode (Utf8.ofString "\x7b \"entry\":\"e\" , \"entry\":\"e\" \x7d") =
        .error e) ∧
      (∃ e, Closure.codec.decode (Utf8.ofString "\x7b \"by\":-1e999 \x7d") = .error e) ∧
      ∃ e, Datum.codec.decode (Utf8.ofString "\x7b \"entry\":\"e\" , \"by\":-1e999 \x7d") =
        .error e := by
  obtain ⟨-, -, hrequest, -, -, -, -, -, -, -, -, -, -, hbroken⟩ := wire_tolerance
  have htolerates := hrequest ⟨.thenApply, some (.bare "e"), []⟩ (by
    rintro _ ⟨⟩
    exact ⟨⟨0, .null⟩, Nat.zero_le 125⟩)
  have hobject (fs : List (String × Bytes)) (h : ∀ f ∈ fs, f = Json.entryField ∨ f = Json.byField) :
      IsObject (fs.map Json.spacedField) (Json.spacedObject fs) := by
    refine Json.isObject_spaced fun f hf => ?_
    obtain rfl | rfl := h f hf
    · exact Json.text_entryField
    · exact Json.text_byField
  refine ⟨?request, ?repeated, ?missing, ?second⟩
  case request =>
    rw [Json.requestText_eq]
    exact htolerates.decode _ _ StageRequest.variant_spaced (List.forall_mem_singleton.mpr rfl)
  case repeated =>
    have htext : Utf8.ofString "\x7b \"entry\":\"e\" , \"entry\":\"e\" \x7d" =
        Json.spacedObject [Json.entryField, Json.entryField] ++ [] := by decide +kernel
    have htwice : 2 ≤ (([Json.entryField, Json.entryField].map Json.spacedField).map
      Prod.fst).count "entry" := by decide
    rw [htext]
    exact (hbroken _ _ _
      (.repeated .closure (hobject _ (by simp)) (by simp [Closure.fields]) htwice)).2 [] .nil
  case missing =>
    have htext : Utf8.ofString "\x7b \"by\":-1e999 \x7d" =
        Json.spacedObject [Json.byField] ++ [] := by decide +kernel
    have hrequires : Closure.fields.Requires "entry" := rfl
    rw [htext]
    exact (hbroken _ _ _ (.missing .closure (hobject _ (by simp)) hrequires (by decide))).2 [] .nil
  case second =>
    have htext : Utf8.ofString "\x7b \"entry\":\"e\" , \"by\":-1e999 \x7d" =
        Json.spacedObject [Json.entryField, Json.byField] ++ [] := by decide +kernel
    rw [htext]
    exact (hbroken _ _ _ (.second (hobject _ (by simp)) (by decide))).2 [] .nil

end StageGraph
