/-
# `StageGraph.Proofs.FaultyReading` — objects that no record and no case is read from

A record is not read from an object in which one of its fields stands twice
(`Fields.Refuses.repeated`), one that it needs is missing (`Fields.Refuses.missing`), or
holds what its codec does not read (`Fields.Refuses.field`).  All else in the object may be
any JSON at all.  A case is not read from an object with a second field.

The reader goes through the fields from the left and has to get past all that comes before
the fault; it does so because what a codec reads is one whole value, so that it stands where the
next field begins or has stopped already (`Fields.Refuses.cons`).
-/
import StageGraph.Proofs.SpacedReading
import StageGraph.Proofs.WholeReading
import StageGraph.Proofs.TolerantReading

namespace StageGraph

open StageGraph.Json (Value Reader WholeReader Found Fault Part Bracket Blanks Names Begins Stands
  bind_eq_ok restText bracketText partsText byte skipBlanks)

namespace Json

/-- No value is read from a text, wherever a number would end behind it. -/
def Refuses {α : Type} (read : Reader α) (t : Bytes) : Prop :=
  ∀ s rest, Delimited rest → skipBlanks s = skipBlanks (t ++ rest) →
    ∀ a r, read s ≠ .ok (a, r)

/-- A field of an object, whose value is any JSON. -/
structure IsField (m : String × Part) : Prop where
  name : Names m.1 m.2.name
  value : Text m.2.value
  after : Blanks m.2.after

/-- An item of an array, which is any JSON. -/
structure IsItem (p : Part) : Prop where
  name : p.name = []
  value : Text p.value
  after : Blanks p.after

/-- The text of an object with these fields. -/
inductive IsObject (ms : List (String × Part)) : Bytes → Prop
  | mk {lead pad : Bytes} (hlead : Blanks lead) (hpad : Blanks pad) (h : ∀ m ∈ ms, IsField m) :
      IsObject ms (bracketText .curly lead (ms.map Prod.snd) pad)

/-- The text of an array with these items. -/
inductive IsArray (ps : List Part) : Bytes → Prop
  | mk {lead pad : Bytes} (hlead : Blanks lead) (hpad : Blanks pad) (h : ∀ p ∈ ps, IsItem p) :
      IsArray ps (bracketText .square lead ps pad)

theorem IsObject.text {ms : List (String × Part)} {t : Bytes} (h : IsObject ms t) : Text t := by
  obtain ⟨hlead, hpad, hms⟩ := h
  exact .bracket .curly hlead hpad
    (List.forall_mem_map.mpr fun m hm => (hms m hm).name.nameText)
    (List.forall_mem_map.mpr fun m hm => (hms m hm).value)
    (List.forall_mem_map.mpr fun m hm => (hms m hm).after)

theorem IsArray.text {ps : List Part} {t : Bytes} (h : IsArray ps t) : Text t := by
  obtain ⟨hlead, hpad, hps⟩ := h
  refine .bracket .square hlead hpad (fun p hp => ?_) (fun p hp => (hps p hp).value)
    fun p hp => (hps p hp).after
  rw [(hps p hp).name]
  exact .item

/-- Behind the value of a field a number would end. -/
theorem IsField.delimited {m : String × Part} (h : IsField m) (ps : List Part) {pad : Bytes}
    (hpad : Blanks pad) (rest : Bytes) :
    Delimited (m.2.after ++ restText .curly ps pad rest) :=
  h.after.delimited (delimited_restText .curly ps hpad rest)

/-- No text of a value begins with the end of an array. -/
theorem Text.begins {t : Bytes} (h : Text t) : ∃ b, Begins t b ∧ b ≠ byte ']' := by
  cases h with
  | word hlead hw =>
      simp only [List.map_cons, List.map_nil, List.mem_cons, List.not_mem_nil, or_false] at hw
      obtain rfl | rfl | rfl := hw <;> exact ⟨_, .of_cons hlead (by decide) _, by decide⟩
  | number hlead negative h =>
      cases negative with
      | true => exact ⟨byte '-', .of_cons hlead (by decide) _, by decide⟩
      | false =>
          obtain ⟨hi, -, -⟩ := h
          cases hi with
          | zero => exact ⟨byte '0', .of_cons hlead (by decide) _, by decide⟩
          | digits hdigits =>
              have hd := hdigits.2 _ List.mem_cons_self
              exact ⟨_, .of_cons hlead (isBlank_of_sign (.inr hd)) _, not_of_isDigit hd (by decide)⟩
  | string hlead => exact ⟨_, .of_cons hlead (by decide) _, by decide⟩
  | bracket b hlead =>
      exact ⟨_, begins_bracketText b hlead _ _, by cases b <;> decide⟩

/-- No items are read from an array with one that is refused. -/
theorem readItems_refuses {α : Type} {item : Reader α} (hitem : WholeReader item) {pad : Bytes}
    (hpad : Blanks pad) (rest : Bytes) {ps : List Part} (hps : ∀ p ∈ ps, IsItem p) {p : Part}
    (hp : p ∈ ps) (h : Refuses item p.value) {fuel : Nat} {first : Bool} {s : Bytes}
    (hs : Stands .square first ps pad rest s) (as : List α) (r : Bytes) :
    readItems item fuel first s ≠ .ok (as, r) := by
  intro hread
  induction ps generalizing fuel first s as with
  | nil => exact absurd hp List.not_mem_nil
  | cons q ps ih =>
      rw [List.forall_mem_cons] at hps
      obtain ⟨hname, hvalue, hafter⟩ := hps.1
      cases fuel with
      | zero => cases hread
      | succ fuel =>
          obtain ⟨b, hb, hne⟩ := hvalue.begins
          obtain ⟨s', hnext, hs'⟩ := hs.nextItem_cons hname hb hne
          have hdelimited := hafter.delimited (delimited_restText .square ps hpad rest)
          simp only [readItems, hnext, bind, Except.bind, if_true] at hread
          cases hq : item s' with
          | error e =>
              rw [hq] at hread
              cases hread
          | ok found =>
              obtain ⟨a, tail⟩ := found
              obtain rfl := hitem.ends hvalue hdelimited hs' hq
              rcases List.mem_cons.mp hp with rfl | hp
              · exact h s' _ hdelimited hs' a _ hq
              · rw [hq] at hread
                obtain ⟨⟨as', r'⟩, hrest, hread⟩ := bind_eq_ok.mp hread
                cases hread
                exact ih hps.2 hp (.after hafter ps pad rest) as' hrest

end Json

open Json (IsField IsItem IsObject IsArray)

namespace Wire

variable {α β : Type}

namespace Fields

/-! ## Slots -/

/-- A field has been read. -/
def Filled (fs : Fields α) (name : String) (slots : fs.Slots) : Prop :=
  fs.step name slots = .duplicate

/-- A field has to be given. -/
def Requires : {α : Type} → Fields α → String → Prop
  | _, .none _, _ => False
  | _, .field earlier n _ fallback, name =>
    if name = n then fallback = Option.none else Requires earlier name

/-- The codec of a field. -/
inductive Has (name : String) {β : Type} (codec : Codec β) : {α : Type} → Fields α → Prop
  | last {α : Type} (earlier : Fields (β → α)) (fallback : Option β) :
      Has name codec (.field earlier name codec fallback)
  | earlier {α γ : Type} {earlier : Fields (γ → α)} (h : Has name codec earlier) {n : String}
      (hne : name ≠ n) (last : Codec γ) (fallback : Option γ) :
      Has name codec (.field earlier n last fallback)

theorem Has.mem_names {fs : Fields α} {name : String} {codec : Codec β}
    (h : fs.Has name codec) : name ∈ fs.names := by
  induction h with
  | last => exact List.mem_append_right _ List.mem_cons_self
  | earlier _ _ _ _ ih => exact List.mem_append_left _ ih

section Slots

variable {earlier : Fields (β → α)} {n : String} {codec : Codec β} {fallback last : Option β}
  {slots : earlier.Slots}

theorem filled_last :
    (Fields.field earlier n codec fallback).Filled n (slots, last) ↔ last.isSome := by
  unfold Filled
  rw [step_self]
  cases last <;> simp

theorem filled_earlier {name : String} (hne : name ≠ n) :
    (Fields.field earlier n codec fallback).Filled name (slots, last) ↔
      earlier.Filled name slots := by
  unfold Filled
  rw [step_other earlier codec fallback slots last hne]
  cases earlier.step name slots with
  | unknown => exact ⟨nofun, nofun⟩
  | duplicate => exact ⟨fun _ => rfl, fun _ => rfl⟩
  | take read ofValue => exact ⟨nofun, nofun⟩

end Slots

theorem not_filled_start {fs : Fields α} (name : String) : ¬fs.Filled name fs.start := by
  induction fs with
  | none a => nofun
  | field earlier n codec fallback ih =>
      by_cases hname : name = n
      · rw [hname]
        exact fun h => absurd (filled_last.mp h) (by simp)
      · exact fun h => ih ((filled_earlier hname).mp h)

theorem step_ne_unknown {fs : Fields α} {name : String} (h : name ∈ fs.names) (slots : fs.Slots) :
    fs.step name slots ≠ .unknown := by
  induction fs with
  | none a => exact absurd h List.not_mem_nil
  | field earlier n codec fallback ih =>
      obtain ⟨slots, last⟩ := slots
      intro hstep
      by_cases hname : name = n
      · subst hname
        rw [step_self] at hstep
        split at hstep <;> cases hstep
      · rw [Fields.names, List.mem_append, List.mem_singleton] at h
        rw [step_other earlier codec fallback slots last hname] at hstep
        cases hwide : earlier.step name slots with
        | unknown => exact ih (h.resolve_right hname) slots hwide
        | duplicate => rw [hwide] at hstep; cases hstep
        | take read ofValue => rw [hwide] at hstep; cases hstep

/-- Taking a field fills its slot and leaves the others as they are. -/
theorem filled_of_take {fs : Fields α} {n : String} {slots slots' : fs.Slots}
    {read : Nat → Reader fs.Slots} {ofValue : Value → Except Fault fs.Slots}
    (hstep : fs.step n slots = .take read ofValue) {room : Nat} {s r : Bytes}
    (hread : read room s = .ok (slots', r)) (name : String) :
    fs.Filled name slots' ↔ name = n ∨ fs.Filled name slots := by
  induction fs with
  | none a => cases hstep
  | field earlier m codec fallback ih =>
      obtain ⟨slots, last⟩ := slots
      obtain ⟨rfl, b, -, rfl⟩ | ⟨hn, read', ofValue', next, hstep', hread', rfl⟩ :=
        take_cases hstep hread
      · by_cases hname : name = n
        · subst hname
          exact ⟨fun _ => .inl rfl, fun _ => filled_last.mpr rfl⟩
        · rw [filled_earlier hname, filled_earlier hname]
          exact ⟨.inr, fun h => h.resolve_left hname⟩
      · by_cases hname : name = m
        · subst hname
          rw [filled_last, filled_last]
          exact ⟨.inr, fun h => h.resolve_left (Ne.symm hn)⟩
        · rw [filled_earlier hname, filled_earlier hname]
          exact ih hstep' hread'

/-- A field is read by its codec. -/
theorem Has.read {fs : Fields α} {name : String} {codec : Codec β} (h : fs.Has name codec)
    {slots slots' : fs.Slots} {read : Nat → Reader fs.Slots}
    {ofValue : Value → Except Fault fs.Slots} (hstep : fs.step name slots = .take read ofValue)
    {room : Nat} {s r : Bytes} (hread : read room s = .ok (slots', r)) :
    ∃ b, codec.read room s = .ok (b, r) := by
  induction h with
  | last earlier fallback =>
      obtain ⟨slots, last⟩ := slots
      obtain ⟨-, b, hb, -⟩ | ⟨hne, -⟩ := take_cases hstep hread
      · exact ⟨b, hb⟩
      · exact absurd rfl hne
  | earlier _ hne _ _ ih =>
      obtain ⟨slots, last⟩ := slots
      obtain ⟨rfl, -⟩ | ⟨-, read', ofValue', next, hstep', hread', -⟩ := take_cases hstep hread
      · exact absurd rfl hne
      · exact ih hstep' hread'

/-- Without a field that has to be given there is no record. -/
theorem Requires.finish {fs : Fields α} {name : String} (h : fs.Requires name) {slots : fs.Slots}
    (hfilled : ¬fs.Filled name slots) (a : α) : fs.finish slots ≠ .ok a := by
  induction fs with
  | none b => exact h.elim
  | field earlier n codec fallback ih =>
      obtain ⟨slots, last⟩ := slots
      intro hfinish
      obtain ⟨f, hearlier, hfinish⟩ := bind_eq_ok.mp hfinish
      by_cases hname : name = n
      · subst hname
        rw [Requires, if_pos rfl] at h
        rw [filled_last] at hfilled
        cases last with
        | some b => exact hfilled rfl
        | none =>
            subst h
            cases hfinish
      · rw [Requires, if_neg hname] at h
        rw [filled_earlier hname] at hfilled
        exact ih h hfilled f hearlier

/-! ## Objects -/

/-- With these slots, no record is read from an object with these fields. -/
def Refuses (fs : Fields α) (room : Nat) (slots : fs.Slots) (ms : List (String × Part)) : Prop :=
  ∀ pad rest, Blanks pad → ∀ fuel first s, Stands .curly first (ms.map Prod.snd) pad rest s →
    ∀ a r, fs.readObject room fuel first slots s ≠ .ok (a, r)

variable {fs : Fields α} {room : Nat} {slots : fs.Slots} {m : String × Part}
  {ms : List (String × Part)} {name : String}

/-- Where the first field is no fault, the others have to be refused with what is in the slots
then. -/
theorem Refuses.cons (hfs : fs.Whole) (hm : IsField m)
    (hunknown : fs.step m.1 slots = .unknown → fs.Refuses room slots ms)
    (htake : ∀ read ofValue slots' tail, fs.step m.1 slots = .take read ofValue →
      Json.Delimited tail → read room (m.2.value ++ tail) = .ok (slots', tail) →
      fs.Refuses room slots' ms) : fs.Refuses room slots (m :: ms) := by
  intro pad rest hpad fuel first s hs a r hread
  cases fuel with
  | zero => cases hread
  | succ fuel =>
      obtain ⟨s', hnext, hcolon⟩ := hs.nextName_cons hm.name
      have hdelimited := hm.delimited (ms.map Prod.snd) hpad rest
      have hafter := Stands.after (b := .curly) hm.after (ms.map Prod.snd) pad rest
      simp only [Fields.readObject, hnext] at hread
      cases hstep : fs.step m.1 slots with
      | duplicate =>
          simp only [bind, Except.bind, hstep] at hread
          cases hread
      | unknown =>
          simp only [bind, Except.bind, hstep, hcolon, hm.value.skipValue hdelimited] at hread
          exact hunknown hstep pad rest hpad fuel false _ hafter a r hread
      | take read ofValue =>
          simp only [bind, Except.bind, hstep, hcolon] at hread
          cases hvalue : read room
              (m.2.value ++ (m.2.after ++ restText .curly (ms.map Prod.snd) pad rest)) with
          | error e =>
              simp only [hvalue] at hread
              cases hread
          | ok p =>
              obtain ⟨slots', tail⟩ := p
              obtain ⟨n, hskips⟩ := hfs.step hstep hvalue
              obtain ⟨k, -, htext⟩ := hm.value.skipsWhole
              obtain rfl := hskips.unique (htext _ hdelimited)
              simp only [hvalue] at hread
              exact htake read ofValue slots' _ hstep hdelimited hvalue pad rest hpad fuel false _
                hafter a r hread

/-- A field that has been read must not come again. -/
theorem Refuses.filled (hfs : fs.Whole) (hms : ∀ m ∈ ms, IsField m)
    (hfilled : fs.Filled name slots) (hmem : name ∈ ms.map Prod.fst) :
    fs.Refuses room slots ms := by
  induction ms generalizing slots with
  | nil => exact absurd hmem List.not_mem_nil
  | cons m ms ih =>
      rw [List.forall_mem_cons] at hms
      rw [List.map_cons, List.mem_cons] at hmem
      refine .cons hfs hms.1 ?_ ?_
      · intro hstep
        refine ih hms.2 hfilled (hmem.resolve_left ?_)
        rintro rfl
        rw [hfilled] at hstep
        cases hstep
      · intro read ofValue slots' tail hstep _ hread
        refine ih hms.2 ((filled_of_take hstep hread name).mpr (.inr hfilled))
          (hmem.resolve_left ?_)
        rintro rfl
        rw [hfilled] at hstep
        cases hstep

/-- No field of the record may come twice. -/
theorem Refuses.repeated (hfs : fs.Whole) (hms : ∀ m ∈ ms, IsField m) (hname : name ∈ fs.names)
    (htwice : 2 ≤ (ms.map Prod.fst).count name) : fs.Refuses room slots ms := by
  induction ms generalizing slots with
  | nil => exact absurd htwice (by simp)
  | cons m ms ih =>
      rw [List.forall_mem_cons] at hms
      rw [List.map_cons, List.count_cons] at htwice
      refine .cons hfs hms.1 ?_ ?_
      · intro hstep
        have hne : m.1 ≠ name := by
          rintro rfl
          exact step_ne_unknown hname slots hstep
        rw [if_neg (by simpa using hne)] at htwice
        exact ih hms.2 htwice
      · intro read ofValue slots' tail hstep _ hread
        by_cases hm : m.1 = name
        · rw [if_pos (by simpa using hm)] at htwice
          refine .filled hfs hms.2 ((filled_of_take hstep hread name).mpr (.inl hm.symm)) ?_
          exact List.count_pos_iff.mp (by omega)
        · rw [if_neg (by simpa using hm)] at htwice
          exact ih hms.2 htwice

/-- A field that has to be given must not be missing. -/
theorem Refuses.missing (hfs : fs.Whole) (hms : ∀ m ∈ ms, IsField m) (hname : fs.Requires name)
    (hfilled : ¬fs.Filled name slots) (hmissing : name ∉ ms.map Prod.fst) :
    fs.Refuses room slots ms := by
  induction ms generalizing slots with
  | nil =>
      intro pad rest hpad fuel first s hs a r hread
      cases fuel with
      | zero => cases hread
      | succ fuel =>
          simp only [Fields.readObject, hs.nextName_nil hpad, bind, Except.bind] at hread
          cases hfinish : fs.finish slots with
          | error f =>
              simp only [hfinish] at hread
              cases hread
          | ok b => exact hname.finish hfilled b hfinish
  | cons m ms ih =>
      rw [List.forall_mem_cons] at hms
      rw [List.map_cons, List.mem_cons, not_or] at hmissing
      refine .cons hfs hms.1 (fun _ => ih hms.2 hfilled hmissing.2) ?_
      intro read ofValue slots' tail hstep _ hread
      refine ih hms.2 ?_ hmissing.2
      rw [filled_of_take hstep hread name]
      exact not_or.mpr ⟨hmissing.1, hfilled⟩

/-- What the codec of a field does not read must not be its value. -/
theorem Refuses.field {codec : Codec β} (hfs : fs.Whole) (hms : ∀ m ∈ ms, IsField m)
    (hhas : fs.Has name codec) {p : Part} (hp : (name, p) ∈ ms)
    (hrefuses : Json.Refuses (codec.read room) p.value) : fs.Refuses room slots ms := by
  induction ms generalizing slots with
  | nil => exact absurd hp List.not_mem_nil
  | cons m ms ih =>
      rw [List.forall_mem_cons] at hms
      rcases List.mem_cons.mp hp with rfl | hp
      · refine .cons hfs hms.1 (fun hstep => ?_) ?_
        · exact absurd hstep (step_ne_unknown hhas.mem_names slots)
        · intro read ofValue slots' tail hstep htail hread
          obtain ⟨b, hb⟩ := hhas.read hstep hread
          exact absurd hb (hrefuses _ tail htail rfl b tail)
      · refine .cons hfs hms.1 (fun _ => ih hms.2 hp) ?_
        intro read ofValue slots' tail _ _ _
        exact ih hms.2 hp

end Fields

open Json (Refuses)

namespace Codec

/-- No record is read from the text of an object whose fields are refused. -/
theorem refuses_record {fs : Fields α} {name : String} {toFields : α → List (String × Value)}
    {ms : List (String × Part)} {t : Bytes} (ht : IsObject ms t)
    (h : ∀ room, fs.Refuses room fs.start ms) (room : Nat) :
    Refuses ((Codec.record name fs toFields).read room) t := by
  obtain ⟨hlead, hpad, -⟩ := ht
  intro s rest _ hs a r hread
  simp only [Codec.record, Json.Reads.readFound_opening hlead hs, bind, Except.bind] at hread
  obtain ⟨room, rfl, hobject⟩ := inside_eq_ok hread
  exact h room _ rest hpad _ true _ (.of_opening .curly (ms.map Prod.snd) _ rest) a r hobject

/-- No list is read from the text of an array with an item that is refused. -/
theorem refuses_list {c : Codec α} (hc : c.Whole) {ps : List Part} {t : Bytes} (ht : IsArray ps t)
    {p : Part} (hp : p ∈ ps) (h : ∀ room, Refuses (c.read room) p.value) (room : Nat) :
    Refuses (c.list.read room) t := by
  obtain ⟨hlead, hpad, hps⟩ := ht
  intro s rest _ hs as r hread
  simp only [Codec.list, Json.Reads.readFound_opening hlead hs, bind, Except.bind] at hread
  obtain ⟨room, rfl, hitems⟩ := inside_eq_ok hread
  exact Json.readItems_refuses (hc room) hpad rest hps hp (h room)
    (.of_opening .square ps _ rest) as r hitems

/-- An optional value that is not null is read as the value is. -/
theorem refuses_option {c : Codec α} {t : Bytes} {b : UInt8} (hb : Begins t b) (hn : b ≠ byte 'n')
    (room : Nat) (h : Refuses (c.read room) t) : Refuses (c.option.read room) t := by
  obtain ⟨text, htext⟩ := hb
  intro s rest hrest hs a r hread
  simp only [Codec.option, hs, htext, if_neg hn] at hread
  obtain ⟨⟨b', r'⟩, hb', hread⟩ := bind_eq_ok.mp hread
  exact h _ rest hrest ((Json.skipBlanks_eq_self (htext rest)).trans (htext rest).symm) b' r' hb'

section Choices

variable {cases : List (Case α)} {other : Option (Case α)} {toValue : α → Value}

/-- A case is read from an object whose only field has its name, and its content is read from the
value of the field. -/
theorem choice_eq_ok {m : String × Part} {ms : List (String × Part)} {lead pad s rest : Bytes}
    (hlead : Blanks lead) (hm : IsField m)
    (hs : skipBlanks s = skipBlanks (bracketText .curly lead ((m :: ms).map Prod.snd) pad ++ rest))
    {room : Nat} {a : α} {r : Bytes}
    (hread : (Codec.choice cases other toValue).read room s = .ok (a, r)) :
    ∃ room' c s', Case.named? cases other m.1 = some c ∧
      c.readContent room' (m.2.value ++ (m.2.after ++ restText .curly (ms.map Prod.snd) pad rest)) =
        .ok (a, s') ∧ skipBlanks s' = Bracket.curly.close :: r := by
  have hbrace : byte '\x7b' ≠ byte '"' := by decide
  have hopening : skipBlanks s = byte '\x7b' ::
      (partsText true ((m :: ms).map Prod.snd) ++ (pad ++ Bracket.curly.close :: rest)) := by
    rw [hs, Json.bracketText_append]
    exact hlead.skipBlanks_cons (by decide) _
  have hfirst := (Stands.of_opening .curly ((m :: ms).map Prod.snd) pad rest).first
  obtain ⟨s₁, s₂, hquote, hname, hcolon⟩ :=
    hm.name.reads (m.2.value ++ (m.2.after ++ restText .curly (ms.map Prod.snd) pad rest))
  rw [hquote] at hfirst
  simp only [Codec.choice, hopening, if_neg hbrace, if_true] at hread
  cases room with
  | zero => cases hread
  | succ room =>
      obtain ⟨⟨a', s'⟩, hholding, hread⟩ := bind_eq_ok.mp hread
      obtain ⟨r', hend, hread⟩ := bind_eq_ok.mp hread
      cases hread
      simp only [Case.readHolding, hfirst, if_true, hname, bind, Except.bind] at hholding
      cases hcase : Case.named? cases other m.1 with
      | none =>
          simp only [hcase] at hholding
          cases hholding
      | some c =>
          simp only [hcase, hcolon] at hholding
          exact ⟨room, c, s', rfl, hholding, Case.endHolding_eq hend⟩

/-- No case is read from an object with a second field. -/
theorem refuses_second (hcases : ∀ c ∈ cases, c.Whole) (hother : ∀ c ∈ other, c.Whole)
    {ms : List (String × Part)} (hms : 2 ≤ ms.length) {t : Bytes} (ht : IsObject ms t)
    (room : Nat) : Refuses ((Codec.choice cases other toValue).read room) t := by
  obtain ⟨hlead, hpad, h⟩ := ht
  obtain _ | ⟨m, _ | ⟨m', ms⟩⟩ := ms
  · exact absurd hms (by simp)
  · exact absurd hms (by simp)
  intro s rest _ hs a r hread
  have hm := h m List.mem_cons_self
  obtain ⟨room', c, s', hcase, hcontent, hend⟩ := choice_eq_ok hlead hm hs hread
  have hwhole : WholeReader (c.readContent room') := fun _ _ _ hread =>
    (Case.whole_of_named? hcases hother hcase).readContent hread
  obtain rfl := hwhole.ends hm.value (hm.delimited ((m' :: ms).map Prod.snd) hpad rest) rfl hcontent
  -- Behind the content stands a comma where the object would have to end.
  rw [hm.after.skipBlanks_append, List.map_cons, Json.skipBlanks_restText_cons] at hend
  exact absurd (List.cons.inj hend).1 (by decide)

/-- No case is read whose content is refused. -/
theorem refuses_holding {name n : String} {c : Codec β} {wrap : β → α}
    (hcase : Case.named? cases other name = some (.holding n c wrap)) {p : Part} {t : Bytes}
    (ht : IsObject [(name, p)] t) (h : ∀ room, Refuses (c.read room) p.value) (room : Nat) :
    Refuses ((Codec.choice cases other toValue).read room) t := by
  obtain ⟨hlead, hpad, hms⟩ := ht
  intro s rest _ hs a r hread
  have hm := hms (name, p) List.mem_cons_self
  obtain ⟨room', c', s', hcase', hcontent, -⟩ := choice_eq_ok hlead hm hs hread
  rw [hcase] at hcase'
  cases hcase'
  obtain ⟨⟨b, tail⟩, hb, -⟩ := bind_eq_ok.mp hcontent
  exact h room' _ _ (hm.delimited [] hpad rest) rfl b tail hb

end Choices

end Codec

end Wire

end StageGraph
