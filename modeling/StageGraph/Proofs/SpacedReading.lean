/-
# `StageGraph.Proofs.SpacedReading` — blanks between tokens change nothing

A text that was printed has no blanks.  Here they may stand in front of every token, and the
readers take them as if they were not there: the items of an array (`readItems_parts`), the
fields of an object (`readFields_parts`), and free values (`Value.Spelled.reads`).

Between two steps of a reader the text may begin with blanks or they may be gone already, so
what is known of it is only from the next token on.  `Stands` says where in a bracket the
reader is by this much.
-/
import StageGraph.Proofs.JsonGrammar

namespace StageGraph.Json

/-! ## Where a text begins -/

/-- The first byte of a text that is no blank. -/
def Begins (t : Bytes) (b : UInt8) : Prop :=
  ∃ s, ∀ rest, skipBlanks (t ++ rest) = b :: (s ++ rest)

theorem Begins.of_cons {lead : Bytes} (hlead : Blanks lead) {b : UInt8} (hb : isBlank b = false)
    (s : Bytes) : Begins (lead ++ b :: s) b := by
  refine ⟨s, fun rest => ?_⟩
  rw [List.append_assoc, List.cons_append, hlead.skipBlanks_cons hb]

theorem begins_bracketText (b : Bracket) {lead : Bytes} (hlead : Blanks lead) (ps : List Part)
    (pad : Bytes) : Begins (bracketText b lead ps pad) b.opening :=
  .of_cons hlead (isBlank_opening b) _

/-- The text of a scalar begins as null does only for null. -/
theorem Value.Exact.begins {v : Value} (h : v.Exact 0) {lead : Bytes} (hlead : Blanks lead) :
    ∃ b, Begins (lead ++ v.encode) b ∧ b ≠ byte ']' ∧ (b = byte 'n' → v = .null) := by
  cases h with
  | null => exact ⟨byte 'n', .of_cons hlead (by decide) _, by decide, fun _ => rfl⟩
  | bool b =>
      cases b with
      | true => exact ⟨byte 't', .of_cons hlead (by decide) _, by decide, nofun⟩
      | false => exact ⟨byte 'f', .of_cons hlead (by decide) _, by decide, nofun⟩
  | @int _ n hn =>
      obtain ⟨b, text, htext, hb⟩ := encode_printInt_cons n
      have hencode : (Value.int n).encode = b :: text := htext
      rw [hencode]
      exact ⟨b, .of_cons hlead (isBlank_of_sign hb) text, not_of_sign hb (by decide),
        fun hn => absurd hn (not_of_sign hb (by decide))⟩
  | string s =>
      rw [encode_string]
      exact ⟨byte '"', .of_cons hlead (by decide) _, by decide, nofun⟩

/-- From a text a reader takes a value and nothing more, whatever blanks there are in front and
whatever a number would end at follows. -/
def Reads {α : Type} (read : Reader α) (a : α) (t : Bytes) : Prop :=
  ∀ s rest, Delimited rest → skipBlanks s = skipBlanks (t ++ rest) → read s = .ok (a, rest)

/-- What a reader finds depends on where the blanks end. -/
theorem readFound_congr {s s' : Bytes} (h : skipBlanks s = skipBlanks s') :
    readFound s = readFound s' := by
  simp only [readFound, h]

theorem Reads.readFound_opening {b : Bracket} {lead : Bytes} (hlead : Blanks lead)
    {ps : List Part} {pad s rest : Bytes}
    (hs : skipBlanks s = skipBlanks (bracketText b lead ps pad ++ rest)) :
    readFound s = .ok (match b with | .square => .sequence | .curly => .map,
      partsText true ps ++ (pad ++ b.close :: rest)) := by
  rw [readFound_congr hs, bracketText_append, readFound, hlead.skipBlanks_cons (isBlank_opening b)]
  cases b <;> rfl

/-! ## Parts -/

/-- A name in front of a value, written with any escapes. -/
inductive Names (name : String) : Bytes → Prop
  | mk {before spelling gap : Bytes} (hbefore : Blanks before)
      (h : StringText name.toList spelling) (hgap : Blanks gap) :
      Names name (nameText before spelling gap)

theorem Names.reads {name : String} {head : Bytes} (h : Names name head) (rest : Bytes) :
    ∃ s s', skipBlanks (head ++ rest) = byte '"' :: s ∧ readString s = .ok (name, s') ∧
      readColon s' = .ok rest := by
  cases h with
  | @mk before spelling gap hbefore h hgap =>
      refine ⟨spelling ++ byte '"' :: (gap ++ byte ':' :: rest), gap ++ byte ':' :: rest, ?_,
        readString_text h _, ?_⟩
      · simp only [nameText, List.append_assoc, List.cons_append, List.nil_append]
        exact hbefore.skipBlanks_cons (by decide) _
      · simp only [readColon, hgap.skipBlanks_cons (b := byte ':') (by decide), if_true]

theorem Names.nameText {name : String} {head : Bytes} (h : Names name head) :
    NameText .curly head := by
  obtain ⟨hbefore, h, hgap⟩ := h
  exact .field hbefore h.interior hgap

/-- The parts that are left of a bracket are next, behind any blanks. -/
def Stands (b : Bracket) (first : Bool) (ps : List Part) (pad rest s : Bytes) : Prop :=
  skipBlanks s = skipBlanks (partsText first ps ++ (pad ++ b.close :: rest))

theorem Stands.of_opening (b : Bracket) (ps : List Part) (pad rest : Bytes) :
    Stands b true ps pad rest (partsText true ps ++ (pad ++ b.close :: rest)) := rfl

/-- Behind a value the parts after it are left. -/
theorem Stands.after {b : Bracket} {after : Bytes} (h : Blanks after) (ps : List Part)
    (pad rest : Bytes) : Stands b false ps pad rest (after ++ restText b ps pad rest) :=
  h.skipBlanks_append _

section Steps

variable {b : Bracket} {p : Part} {ps : List Part} {pad rest s : Bytes}

theorem Stands.first (h : Stands b true (p :: ps) pad rest s) :
    skipBlanks s = skipBlanks (p.name ++ (p.value ++ (p.after ++ restText b ps pad rest))) := by
  rw [h]
  simp only [partsText, separator, Part.text, if_true, List.nil_append, List.append_assoc, restText]

theorem Stands.later (h : Stands b false (p :: ps) pad rest s) :
    skipBlanks s = byte ',' :: (p.name ++ (p.value ++ (p.after ++ restText b ps pad rest))) :=
  h.trans (skipBlanks_restText_cons b p ps pad rest)

theorem Stands.close {first : Bool} (h : Stands b first [] pad rest s) (hpad : Blanks pad) :
    skipBlanks s = b.close :: rest :=
  h.trans (hpad.skipBlanks_cons (isBlank_close b) rest)

variable {first : Bool}

theorem Stands.nextItem_nil (h : Stands .square first [] pad rest s) (hpad : Blanks pad) :
    nextItem first s = .ok (false, byte ']' :: rest) := by
  simp only [nextItem, h.close hpad, Bracket.close, if_true]

theorem Stands.nextItem_cons (h : Stands .square first (p :: ps) pad rest s) (hname : p.name = [])
    {b : UInt8} (hb : Begins p.value b) (hne : b ≠ byte ']') :
    ∃ s', nextItem first s = .ok (true, s') ∧
      skipBlanks s' = skipBlanks (p.value ++ (p.after ++ restText .square ps pad rest)) := by
  obtain ⟨text, htext⟩ := hb
  have hvalue := htext (p.after ++ restText .square ps pad rest)
  have hcomma : byte ',' ≠ byte ']' := by decide
  refine ⟨b :: (text ++ (p.after ++ restText .square ps pad rest)), ?_, ?_⟩
  · cases first with
    | true =>
        have hs := h.first
        rw [hname, List.nil_append, hvalue] at hs
        simp only [nextItem, hs, if_neg hne, if_true]
    | false =>
        have hs := h.later
        rw [hname, List.nil_append] at hs
        simp only [nextItem, hs, if_neg hcomma, Bool.false_eq_true, if_false, if_true, hvalue,
          if_neg hne]
  · rw [hvalue, skipBlanks_eq_self hvalue]

theorem Stands.nextName_nil (h : Stands .curly first [] pad rest s) (hpad : Blanks pad) :
    nextName first s = .ok (none, rest) := by
  simp only [nextName, h.close hpad, Bracket.close, if_true]

theorem Stands.nextName_cons (h : Stands .curly first (p :: ps) pad rest s) {name : String}
    (hname : Names name p.name) :
    ∃ s', nextName first s = .ok (some name, s') ∧
      readColon s' = .ok (p.value ++ (p.after ++ restText .curly ps pad rest)) := by
  obtain ⟨s₁, s₂, hquote, hread, hcolon⟩ :=
    hname.reads (p.value ++ (p.after ++ restText .curly ps pad rest))
  have hbrace : byte '"' ≠ byte '\x7d' := by decide
  have hcomma : byte ',' ≠ byte '\x7d' := by decide
  refine ⟨s₂, ?_, hcolon⟩
  cases first with
  | true =>
      simp only [nextName, h.first, hquote, if_neg hbrace, if_true, hread, bind, Except.bind]
  | false =>
      simp only [nextName, h.later, if_neg hcomma, Bool.false_eq_true, if_false, if_true, hquote,
        hread, bind, Except.bind]

end Steps

/-- The rest of a bracket has a byte for each of its parts. -/
theorem length_le_partsText (ps : List Part) :
    ps.length ≤ (partsText false ps).length := by
  induction ps with
  | nil => exact Nat.le_refl _
  | cons p ps ih =>
      simp only [partsText, separator, List.length_cons, List.length_append, Bool.false_eq_true,
        if_false]
      omega

/-- Behind the opening byte there is fuel enough for all parts. -/
theorem length_lt_bracket (b : Bracket) (ps : List Part) (pad rest : Bytes) :
    ps.length < (partsText true ps ++ (pad ++ b.close :: rest)).length + 1 := by
  cases ps with
  | nil => exact Nat.succ_pos _
  | cons p ps =>
      have hrest := length_le_partsText ps
      simp only [partsText, List.length_cons, List.length_append]
      omega

/-- Items that are read one by one are read together, whatever blanks there are. -/
theorem readItems_parts {α : Type} {item : Reader α} {pad : Bytes} (hpad : Blanks pad)
    (rest : Bytes) {es : List (α × Part)} (hname : ∀ e ∈ es, e.2.name = [])
    (hbegins : ∀ e ∈ es, ∃ b, Begins e.2.value b ∧ b ≠ byte ']')
    (hread : ∀ e ∈ es, Reads item e.1 e.2.value) (hafter : ∀ e ∈ es, Blanks e.2.after)
    {fuel : Nat} {first : Bool} {s : Bytes} (hfuel : es.length < fuel)
    (hs : Stands .square first (es.map Prod.snd) pad rest s) :
    readItems item fuel first s = .ok (es.map Prod.fst, rest) := by
  induction es generalizing fuel first s with
  | nil =>
      cases fuel with
      | zero => exact absurd hfuel (Nat.not_lt_zero _)
      | succ fuel =>
          simp only [readItems, hs.nextItem_nil hpad, bind, Except.bind]
          rfl
  | cons e es ih =>
      cases fuel with
      | zero => exact absurd hfuel (Nat.not_lt_zero _)
      | succ fuel =>
          simp only [List.forall_mem_cons] at hname hbegins hread hafter
          obtain ⟨b, hb, hne⟩ := hbegins.1
          obtain ⟨s', hnext, hs'⟩ := hs.nextItem_cons hname.1 hb hne
          have hvalue := hread.1 s' (e.2.after ++ restText .square (es.map Prod.snd) pad rest)
            (hafter.1.delimited (delimited_restText .square _ hpad rest)) hs'
          have hrest := ih hname.2 hbegins.2 hread.2 hafter.2 (Nat.lt_of_succ_lt_succ hfuel)
            (.after hafter.1 (es.map Prod.snd) pad rest)
          simp only [readItems, hnext, hvalue, hrest, bind, Except.bind, if_true, List.map_cons]

/-- Fields that are read one by one are read together, whatever blanks there are. -/
theorem readFields_parts {α : Type} {value : Reader α} {pad : Bytes} (hpad : Blanks pad)
    (rest : Bytes) {es : List ((String × α) × Part)} (hname : ∀ e ∈ es, Names e.1.1 e.2.name)
    (hread : ∀ e ∈ es, Reads value e.1.2 e.2.value) (hafter : ∀ e ∈ es, Blanks e.2.after)
    {fuel : Nat} {first : Bool} {s : Bytes} (hfuel : es.length < fuel)
    (hs : Stands .curly first (es.map Prod.snd) pad rest s) :
    readFields value fuel first s = .ok (es.map Prod.fst, rest) := by
  induction es generalizing fuel first s with
  | nil =>
      cases fuel with
      | zero => exact absurd hfuel (Nat.not_lt_zero _)
      | succ fuel =>
          simp only [readFields, hs.nextName_nil hpad, bind, Except.bind]
          rfl
  | cons e es ih =>
      cases fuel with
      | zero => exact absurd hfuel (Nat.not_lt_zero _)
      | succ fuel =>
          simp only [List.forall_mem_cons] at hname hread hafter
          obtain ⟨s', hnext, hcolon⟩ := hs.nextName_cons hname.1
          have hvalue := hread.1 _ (e.2.after ++ restText .curly (es.map Prod.snd) pad rest)
            (hafter.1.delimited (delimited_restText .curly _ hpad rest)) rfl
          have hrest := ih hname.2 hread.2 hafter.2 (Nat.lt_of_succ_lt_succ hfuel)
            (.after hafter.1 (es.map Prod.snd) pad rest)
          simp only [readFields, hnext, hcolon, hvalue, hrest, bind, Except.bind, List.map_cons]

/-! ## Free values -/

/-- The text of a value, with blanks in front of any token. -/
inductive Value.Spelled : Value → Bytes → Prop
  | scalar {v : Value} {lead : Bytes} (hlead : Blanks lead) (hv : v.Exact 0) :
      Spelled v (lead ++ v.encode)
  | array {es : List (Value × Part)} {lead pad : Bytes} (hlead : Blanks lead) (hpad : Blanks pad)
      (hname : ∀ e ∈ es, e.2.name = []) (hvalue : ∀ e ∈ es, Spelled e.1 e.2.value)
      (hafter : ∀ e ∈ es, Blanks e.2.after) :
      Spelled (.array (es.map Prod.fst)) (bracketText .square lead (es.map Prod.snd) pad)
  | object {es : List ((String × Value) × Part)} {lead pad : Bytes} (hlead : Blanks lead)
      (hpad : Blanks pad) (hname : ∀ e ∈ es, Names e.1.1 e.2.name)
      (hvalue : ∀ e ∈ es, Spelled e.1.2 e.2.value) (hafter : ∀ e ∈ es, Blanks e.2.after) :
      Spelled (.object (es.map Prod.fst)) (bracketText .curly lead (es.map Prod.snd) pad)

/-- A scalar is found where its text stands. -/
theorem Value.Exact.readFound {v : Value} (h : v.Exact 0) {rest : Bytes} (hrest : Delimited rest) :
    readFound (v.encode ++ rest) = .ok (Found.of v, rest) ∧ (Found.of v).scalar? = some v := by
  cases h with
  | null => exact ⟨rfl, rfl⟩
  | bool b => cases b <;> exact ⟨rfl, rfl⟩
  | int hn => exact ⟨readFound_int hn hrest, rfl⟩
  | string s =>
      rw [encode_string_append]
      exact ⟨readFound_string s rest, rfl⟩

theorem Value.Exact.readFound_spaced {v : Value} (h : v.Exact 0) {lead s rest : Bytes}
    (hlead : Blanks lead) (hrest : Delimited rest)
    (hs : skipBlanks s = skipBlanks (lead ++ v.encode ++ rest)) :
    Json.readFound s = .ok (Found.of v, rest) := by
  rw [List.append_assoc, hlead.skipBlanks_append] at hs
  rw [readFound_congr hs]
  exact (h.readFound hrest).1

theorem Value.Spelled.begins {v : Value} {t : Bytes} (h : v.Spelled t) :
    ∃ b, Begins t b ∧ b ≠ byte ']' ∧ (b = byte 'n' → v = .null) := by
  cases h with
  | scalar hlead hv => exact hv.begins hlead
  | array hlead => exact ⟨_, begins_bracketText .square hlead _ _, by decide, nofun⟩
  | object hlead => exact ⟨_, begins_bracketText .curly hlead _ _, by decide, nofun⟩

/-- A value is read from its text with blanks in it, as far as there is room. -/
theorem Value.Spelled.reads {v : Value} {t : Bytes} (h : v.Spelled t) {room : Nat}
    (hv : v.Exact room) : Reads (readValue room) v t := by
  induction h generalizing room with
  | scalar hlead hscalar =>
      intro s rest hrest hs
      exact readValue_scalar (hscalar.readFound hrest).2 room
        (hscalar.readFound_spaced hlead hrest hs)
  | @array es lead pad hlead hpad hname hvalue hafter ih =>
      intro s rest hrest hs
      cases hv with
      | @array room _ hitems =>
          have hbegins : ∀ e ∈ es, ∃ b, Begins e.2.value b ∧ b ≠ byte ']' := by
            intro e he
            obtain ⟨b, hb, hne, -⟩ := (hvalue e he).begins
            exact ⟨b, hb, hne⟩
          have hread : ∀ e ∈ es, Reads (readValue room) e.1 e.2.value := fun e he =>
            ih e he (hitems e.1 (List.mem_map_of_mem he))
          have hfuel := length_lt_bracket .square (es.map Prod.snd) pad rest
          rw [List.length_map] at hfuel
          have hparts := readItems_parts hpad rest hname hbegins hread hafter hfuel
            (.of_opening .square (es.map Prod.snd) pad rest)
          simp only [readValue, Reads.readFound_opening hlead hs, Found.scalar?, hparts, bind,
            Except.bind]
  | @object es lead pad hlead hpad hname hvalue hafter ih =>
      intro s rest hrest hs
      cases hv with
      | @object room _ hsorted hfields =>
          have hread : ∀ e ∈ es, Reads (readValue room) e.1.2 e.2.value := fun e he =>
            ih e he (hfields e.1 (List.mem_map_of_mem he))
          have hfuel := length_lt_bracket .curly (es.map Prod.snd) pad rest
          rw [List.length_map] at hfuel
          have hparts := readFields_parts hpad rest hname hread hafter hfuel
            (.of_opening .curly (es.map Prod.snd) pad rest)
          simp only [readValue, Reads.readFound_opening hlead hs, Found.scalar?, hparts,
            ofFields_of_sorted hsorted, bind, Except.bind]

/-! ## Without blanks -/

/-- A value as a part of an array, and a field as a part of an object, without blanks. -/
def itemPart (v : Value) : Part := ⟨[], v.encode, []⟩

@[inherit_doc itemPart]
def fieldPart (f : String × Value) : Part := ⟨nameText [] (inner f.1) [], f.2.encode, []⟩

theorem names_fieldPart (f : String × Value) : Names f.1 (fieldPart f).name :=
  .mk .nil (stringText_inner f.1) .nil

theorem partsText_items (first : Bool) (items : List Value) :
    partsText first (items.map itemPart) = itemsText first items := by
  induction items generalizing first with
  | nil => rfl
  | cons v items ih =>
      simp only [List.map_cons, partsText, itemsText, Part.text, itemPart, List.nil_append,
        List.append_nil, ih]

theorem partsText_fields (first : Bool) (fields : List (String × Value)) :
    partsText first (fields.map fieldPart) = fieldsText first fields := by
  induction fields generalizing first with
  | nil => rfl
  | cons f fields ih =>
      simp only [List.map_cons, partsText, fieldsText, Part.text, fieldPart, nameText,
        List.nil_append, List.append_nil, List.cons_append, List.append_assoc, ih]

theorem encode_array_parts (items : List Value) :
    (Value.array items).encode = bracketText .square [] (items.map itemPart) [] := by
  rw [encode_array, bracketText, partsText_items]
  rfl

theorem encode_object_parts (fields : List (String × Value)) :
    (Value.object fields).encode = bracketText .curly [] (fields.map fieldPart) [] := by
  rw [encode_object, bracketText, partsText_fields]
  rfl

theorem Value.Spelled.of_scalar {v : Value} (h : v.Exact 0) : v.Spelled v.encode :=
  show v.Spelled ([] ++ v.encode) from .scalar .nil h

/-- What is printed has blanks nowhere. -/
theorem Value.Exact.spelled {room : Nat} {v : Value} (h : v.Exact room) : v.Spelled v.encode := by
  induction h with
  | null => exact .of_scalar .null
  | bool b => exact .of_scalar (.bool b)
  | int hn => exact .of_scalar (.int hn)
  | string s => exact .of_scalar (.string s)
  | @array _ items _ ih =>
      have hspelled := @Spelled.array (items.map fun v => (v, itemPart v)) [] []
        .nil .nil (List.forall_mem_map.mpr fun v _ => rfl) (List.forall_mem_map.mpr ih)
        (List.forall_mem_map.mpr fun _ _ => .nil)
      simp only [List.map_map, Function.comp_def, List.map_id'] at hspelled
      rw [encode_array_parts]
      exact hspelled
  | @object _ fields hsorted _ ih =>
      have hspelled := @Spelled.object (fields.map fun f => (f, fieldPart f)) [] []
        .nil .nil (List.forall_mem_map.mpr fun f _ => names_fieldPart f)
        (List.forall_mem_map.mpr ih) (List.forall_mem_map.mpr fun _ _ => .nil)
      simp only [List.map_map, Function.comp_def, List.map_id'] at hspelled
      rw [encode_object_parts]
      exact hspelled

end StageGraph.Json
