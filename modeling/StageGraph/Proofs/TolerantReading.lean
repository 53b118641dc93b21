/-
# `StageGraph.Proofs.TolerantReading` — the texts that stand for a value

A value is written in one way and may be read from many texts.  `Codec.Variant` says which:
blanks may stand in front of any token, and in an object that stands for a record the
fields may come in any order, with fields of other names between them, and without those
whose fallback is meant.  `Codec.Variant.reads`: each of these texts is read as the value.

For a record the proof has to follow its slots through fields that come in any order.  What
they hold depends on which names have been read and not on the order of these, and
`Fields.Progress` gives the slots as a function of the names.
-/
import StageGraph.Proofs.SpacedReading
import StageGraph.Proofs.WholeReading
import Mathlib.Data.List.Nodup

namespace StageGraph.Wire

open StageGraph.Json (Value Reader Found Fault Part Bracket Blanks Names Begins Reads bracketText
  partsText byte skipBlanks)

variable {α β : Type}

/-! ## The fields of a record -/

/-- A field with its value. -/
structure Entry : Type 1 where
  {type : Type}
  name : String
  codec : Codec type
  value : type

namespace Fields

/-- The names of the fields, in order. -/
def names : {α : Type} → Fields α → List String
  | _, .none _ => []
  | _, .field earlier n _ _ => names earlier ++ [n]

@[simp] theorem names_none (a : α) : (Fields.none a).names = [] := rfl

@[simp] theorem names_field (earlier : Fields (β → α)) (n : String) (codec : Codec β)
    (fallback : Option β) :
    (Fields.field earlier n codec fallback).names = earlier.names ++ [n] := rfl

@[simp] theorem names_required (earlier : Fields (β → α)) (n : String) (codec : Codec β) :
    (earlier.required n codec).names = earlier.names ++ [n] := rfl

@[simp] theorem names_optional (earlier : Fields (β → α)) (n : String) (codec : Codec β)
    (fallback : β) : (earlier.optional n codec fallback).names = earlier.names ++ [n] := rfl

/-- The fields that say what a record is, in order; a field may be left out when its fallback is
meant. -/
inductive Gives : {α : Type} → Fields α → List Entry → α → Prop
  | none {α : Type} (a : α) : Gives (.none a) [] a
  | given {α β : Type} {earlier : Fields (β → α)} {es : List Entry} {f : β → α} {n : String}
      {codec : Codec β} {fallback : Option β} {b : β} (h : Gives earlier es f)
      (hnew : n ∉ earlier.names) :
      Gives (.field earlier n codec fallback) (es ++ [⟨n, codec, b⟩]) (f b)
  | omitted {α β : Type} {earlier : Fields (β → α)} {es : List Entry} {f : β → α} {n : String}
      {codec : Codec β} {b : β} (h : Gives earlier es f) (hnew : n ∉ earlier.names) :
      Gives (.field earlier n codec (some b)) es (f b)

theorem Gives.mem_names {fs : Fields α} {es : List Entry} {a : α} (h : fs.Gives es a) :
    ∀ e ∈ es, e.name ∈ fs.names := by
  induction h with
  | none => exact fun e he => absurd he List.not_mem_nil
  | given _ _ ih =>
      intro e he
      rw [Fields.names, List.mem_append, List.mem_singleton]
      rcases List.mem_append.mp he with he | he
      · exact .inl (ih e he)
      · rw [List.mem_singleton.mp he]
        exact .inr rfl
  | omitted _ _ ih => exact fun e he => List.mem_append_left _ (ih e he)

theorem Gives.nodup {fs : Fields α} {es : List Entry} {a : α} (h : fs.Gives es a) :
    (es.map Entry.name).Nodup := by
  induction h with
  | none => exact List.nodup_nil
  | @given _ _ _ es _ n _ _ _ h hnew ih =>
      rw [List.map_append, List.nodup_append]
      refine ⟨ih, List.nodup_singleton n, ?_⟩
      intro m hm m' hm'
      obtain ⟨e, he, rfl⟩ := List.mem_map.mp hm
      obtain rfl := List.mem_singleton.mp hm'
      rintro rfl
      exact hnew (h.mem_names e he)
  | omitted _ _ ih => exact ih

theorem step_unknown {fs : Fields α} {name : String} (h : name ∉ fs.names) (slots : fs.Slots) :
    fs.step name slots = .unknown := by
  induction fs with
  | none a => rfl
  | field earlier n codec fallback ih =>
      rw [Fields.names, List.mem_append, List.mem_singleton, not_or] at h
      rw [Fields.step, if_neg h.2, ih h.1]
      rfl

/-- How the slots of a record fill up as its fields are read: what they hold once the fields of
some names have been read. -/
structure Progress (fs : Fields α) (es : List Entry) (a : α) where
  slots : List String → fs.Slots
  start : slots [] = fs.start
  /-- A name that the record does not have changes nothing. -/
  stay : ∀ seen n, n ∉ fs.names → slots (n :: seen) = slots seen
  take : ∀ seen, ∀ e ∈ es, e.name ∉ seen → ∃ read ofValue,
    fs.step e.name (slots seen) = .take read ofValue ∧
      ∀ room s rest, e.codec.read room s = .ok (e.value, rest) →
        read room s = .ok (slots (e.name :: seen), rest)
  finish : ∀ seen, (∀ e ∈ es, e.name ∈ seen) → fs.finish (slots seen) = .ok a

/-- An earlier field is taken as it would be without the last one. -/
theorem step_earlier {earlier : Fields (β → α)} {n : String} (codec : Codec β)
    (fallback last : Option β) {name : String} (hne : name ≠ n) {slots : earlier.Slots}
    {read : Nat → Reader earlier.Slots}
    {ofValue : Value → Except Fault earlier.Slots}
    (h : earlier.step name slots = .take read ofValue) :
    ∃ read' ofValue',
      (Fields.field earlier n codec fallback).step name (slots, last) = .take read' ofValue' ∧
        ∀ room s slots' rest, read room s = .ok (slots', rest) →
          read' room s = .ok ((slots', last), rest) := by
  refine ⟨_, _, (step_other earlier codec fallback slots last hne).trans (by rw [h]; rfl),
    fun room s slots' rest hread => ?_⟩
  simp only [hread, bind, Except.bind]
  rfl

/-- The last field is taken if it has not been read. -/
theorem step_last {earlier : Fields (β → α)} (n : String) (codec : Codec β) (fallback : Option β)
    (slots : earlier.Slots) :
    ∃ read ofValue,
      (Fields.field earlier n codec fallback).step n (slots, Option.none) = .take read ofValue ∧
        ∀ room s b rest, codec.read room s = .ok (b, rest) →
          read room s = .ok ((slots, some b), rest) := by
  refine ⟨_, _, step_self earlier codec fallback slots Option.none n, fun room s b rest hread => ?_⟩
  simp only [hread, bind, Except.bind]

/-- What the slot of a field holds once the fields of some names have been read. -/
def slotAfter (n : String) (b : β) (seen : List String) : Option β :=
  if n ∈ seen then some b else Option.none

theorem slotAfter_of_mem {n : String} {b : β} {seen : List String} (h : n ∈ seen) :
    slotAfter n b seen = some b := if_pos h

theorem slotAfter_of_not_mem {n : String} {b : β} {seen : List String} (h : n ∉ seen) :
    slotAfter n b seen = Option.none := if_neg h

theorem slotAfter_cons {n m : String} {b : β} {seen : List String} (h : m ≠ n) :
    slotAfter n b (m :: seen) = slotAfter n b seen := by
  simp [slotAfter, Ne.symm h]

theorem Gives.progress {fs : Fields α} {es : List Entry} {a : α} (h : fs.Gives es a) :
    Nonempty (fs.Progress es a) := by
  induction h with
  | none a => exact ⟨⟨fun _ => (), rfl, fun _ _ _ => rfl, nofun, fun _ _ => rfl⟩⟩
  | @given α β earlier es f n codec fallback b h hnew ih =>
      obtain ⟨p⟩ := ih
      refine ⟨⟨fun seen => (p.slots seen, slotAfter n b seen), ?start, ?stay, ?take, ?finish⟩⟩
      case start =>
        simp only [p.start, slotAfter_of_not_mem List.not_mem_nil]
        rfl
      case stay =>
        intro seen m hm
        rw [Fields.names, List.mem_append, List.mem_singleton, not_or] at hm
        simp only [p.stay seen m hm.1, slotAfter_cons hm.2]
        rfl
      case take =>
        intro seen e he hseen
        rcases List.mem_append.mp he with he | he
        · have hne : e.name ≠ n := fun hname => hnew (hname ▸ h.mem_names e he)
          obtain ⟨read, ofValue, hstep, hread⟩ := p.take seen e he hseen
          obtain ⟨read', ofValue', hstep', hread'⟩ := step_earlier codec fallback
            (slotAfter n b seen) hne hstep
          refine ⟨read', ofValue', hstep', fun room s rest hvalue => ?_⟩
          simp only [slotAfter_cons hne]
          exact hread' room s _ rest (hread room s rest hvalue)
        · obtain rfl := List.mem_singleton.mp he
          obtain ⟨read, ofValue, hstep, hread⟩ := step_last n codec fallback (p.slots seen)
          refine ⟨read, ofValue, ?_, fun room s rest hvalue => ?_⟩
          · simp only [slotAfter_of_not_mem hseen]
            exact hstep
          · simp only [slotAfter_of_mem List.mem_cons_self, p.stay seen n hnew]
            exact hread room s b rest hvalue
      case finish =>
        intro seen hall
        have hn : n ∈ seen := hall ⟨n, codec, b⟩ (List.mem_append_right _ List.mem_cons_self)
        have hearlier := p.finish seen fun e he => hall e (List.mem_append_left _ he)
        simp only [Fields.finish, hearlier, slotAfter_of_mem hn, bind, Except.bind]
  | @omitted α β earlier es f n codec b h hnew ih =>
      obtain ⟨p⟩ := ih
      refine ⟨⟨fun seen => (p.slots seen, Option.none), ?start, ?stay, ?take, ?finish⟩⟩
      case start =>
        simp only [p.start]
        rfl
      case stay =>
        intro seen m hm
        rw [Fields.names, List.mem_append, not_or] at hm
        simp only [p.stay seen m hm.1]
        rfl
      case take =>
        intro seen e he hseen
        have hne : e.name ≠ n := fun hname => hnew (hname ▸ h.mem_names e he)
        obtain ⟨read, ofValue, hstep, hread⟩ := p.take seen e he hseen
        obtain ⟨read', ofValue', hstep', hread'⟩ := step_earlier codec (some b) Option.none
          hne hstep
        exact ⟨read', ofValue', hstep', fun room s rest hvalue =>
          hread' room s _ rest (hread room s rest hvalue)⟩
      case finish =>
        intro seen hall
        simp only [Fields.finish, p.finish seen hall, bind, Except.bind]

/-- A part of an object that a record reads in the right way: a field with the text of its value, or
a field of an unknown name. -/
inductive Fits (fs : Fields α) (es : List Entry) (room : Nat) (m : String × Part) : Prop
  | known (e : Entry) (he : e ∈ es) (hname : e.name = m.1)
      (hread : Reads (e.codec.read room) e.value m.2.value)
  | unknown (hname : m.1 ∉ fs.names) (hvalue : Json.Text m.2.value)

/-- The parts of an object are read as the record: every field of it once, in any order, and
anything under other names. -/
theorem Progress.readObject {fs : Fields α} {es : List Entry} {a : α} (p : fs.Progress es a)
    {room : Nat} {pad : Bytes} (hpad : Blanks pad) (rest : Bytes) {ms : List (String × Part)}
    (hgives : fs.Gives es a) (hname : ∀ m ∈ ms, Names m.1 m.2.name)
    (hafter : ∀ m ∈ ms, Blanks m.2.after) (hfits : ∀ m ∈ ms, fs.Fits es room m)
    (honce : ms.Pairwise fun m m' => m.1 ∈ fs.names → m.1 ≠ m'.1) {seen : List String}
    (hseen : ∀ m ∈ ms, m.1 ∈ fs.names → m.1 ∉ seen)
    (hall : ∀ e ∈ es, e.name ∈ seen ∨ e.name ∈ ms.map Prod.fst) {fuel : Nat} {first : Bool}
    {s : Bytes} (hfuel : ms.length < fuel)
    (hs : Json.Stands .curly first (ms.map Prod.snd) pad rest s) :
    fs.readObject room fuel first (p.slots seen) s = .ok (a, rest) := by
  induction ms generalizing fuel first s seen with
  | nil =>
      cases fuel with
      | zero => exact absurd hfuel (Nat.not_lt_zero _)
      | succ fuel =>
          have hfinish := p.finish seen fun e he => (hall e he).resolve_right List.not_mem_nil
          simp only [Fields.readObject, hs.nextName_nil hpad, hfinish, bind, Except.bind]
  | cons m ms ih =>
      cases fuel with
      | zero => exact absurd hfuel (Nat.not_lt_zero _)
      | succ fuel =>
          simp only [List.forall_mem_cons] at hname hafter hfits hseen
          obtain ⟨hdiffer, honce⟩ := List.pairwise_cons.mp honce
          obtain ⟨s', hnext, hcolon⟩ := hs.nextName_cons hname.1
          have hdelimited := hafter.1.delimited
            (Json.delimited_restText .curly (ms.map Prod.snd) hpad rest)
          -- What is left behind this part is read with its name among those seen.
          have hrest : fs.readObject room fuel false (p.slots (m.1 :: seen))
              (m.2.after ++ Json.restText .curly (ms.map Prod.snd) pad rest) = .ok (a, rest) := by
            refine ih hname.2 hafter.2 hfits.2 honce ?_ ?_ (Nat.lt_of_succ_lt_succ hfuel)
              (.after hafter.1 (ms.map Prod.snd) pad rest)
            · intro m' hm' hmem
              rw [List.mem_cons, not_or]
              exact ⟨fun heq => hdiffer m' hm' (heq ▸ hmem) heq.symm, hseen.2 m' hm' hmem⟩
            · intro e he
              rcases hall e he with hmem | hmem
              · exact .inl (List.mem_cons_of_mem _ hmem)
              · rw [List.map_cons, List.mem_cons] at hmem
                rcases hmem with heq | hmem
                · exact .inl (heq ▸ List.mem_cons_self)
                · exact .inr hmem
          cases hfits.1 with
          | known e he heq hread =>
              have hnew : e.name ∉ seen := heq ▸ hseen.1 (heq ▸ hgives.mem_names e he)
              obtain ⟨read, ofValue, hstep, htake⟩ := p.take seen e he hnew
              have hvalue := htake room _ _ (hread _ _ hdelimited rfl)
              rw [heq] at hstep hvalue
              simp only [Fields.readObject, hnext, hstep, hcolon, hvalue, hrest, bind, Except.bind]
          | unknown hunknown hvalue =>
              rw [p.stay seen m.1 hunknown] at hrest
              simp only [Fields.readObject, hnext, step_unknown hunknown, hcolon,
                hvalue.skipValue hdelimited, hrest, bind, Except.bind]

end Fields

/-! ## Variants -/

/-- The texts that stand for a value, with room for so many brackets.
* A scalar is written as it is, a free value with blanks in it, and the items of a list are texts
  that stand for the items.
* The parts of a record are its fields, each with a text that stands for its value, and unknown
  fields with any texts that are JSON; they come in any order.
* A case is its name, or an object with its name as the only field. -/
inductive Codec.Variant : Nat → {α : Type} → Codec α → α → Bytes → Prop
  | scalar {room : Nat} {α : Type} {accept : Found → Except Fault α} {toValue : α → Value} {a : α}
      {lead : Bytes} (hlead : Blanks lead) (hv : (toValue a).Exact 0)
      (haccept : accept (Found.of (toValue a)) = .ok a) :
      Variant room (Codec.scalar accept toValue) a (lead ++ (toValue a).encode)
  | value {room : Nat} {v : Value} {t : Bytes} (hv : v.Exact room) (ht : v.Spelled t) :
      Variant room Codec.value v t
  | map {room : Nat} {α β : Type} {c : Codec α} {f : α → Except Fault β} {g : β → α} {b : β}
      {t : Bytes} (h : Variant room c (g b) t) (hf : f (g b) = .ok b) :
      Variant room (c.map f g) b t
  | some {room : Nat} {α : Type} {c : Codec α} {a : α} {t : Bytes} (h : Variant room c a t)
      (hnull : c.toValue a ≠ .null) : Variant room c.option (some a) t
  | list {room : Nat} {α : Type} {c : Codec α} {es : List (α × Part)} {lead pad : Bytes}
      (hlead : Blanks lead) (hpad : Blanks pad) (hname : ∀ e ∈ es, e.2.name = [])
      (hvalue : ∀ e ∈ es, Variant room c e.1 e.2.value) (hafter : ∀ e ∈ es, Blanks e.2.after) :
      Variant (room + 1) c.list (es.map Prod.fst) (bracketText .square lead (es.map Prod.snd) pad)
  | record {room : Nat} {α : Type} {name : String} {fs : Fields α}
      {toFields : α → List (String × Value)} {a : α} {lead pad : Bytes}
      {given : List (Entry × Part)} {unknown ms : List (String × Part)} (hlead : Blanks lead)
      (hpad : Blanks pad) (hgives : fs.Gives (given.map Prod.fst) a)
      (hgiven : ∀ g ∈ given, Variant room g.1.codec g.1.value g.2.value)
      (hnames : ∀ m ∈ unknown, m.1 ∉ fs.names) (hunknown : ∀ m ∈ unknown, Json.Text m.2.value)
      (hms : ms.Perm (given.map (fun g => (g.1.name, g.2)) ++ unknown))
      (hname : ∀ m ∈ ms, Names m.1 m.2.name) (hafter : ∀ m ∈ ms, Blanks m.2.after) :
      Variant (room + 1) (Codec.record name fs toFields) a
        (bracketText .curly lead (ms.map Prod.snd) pad)
  | bare {room : Nat} {α : Type} {cases : List (Case α)} {other : Option (Case α)}
      {toValue : α → Value} {a : α} {name n : String} {lead : Bytes} (hlead : Blanks lead)
      (hcase : Case.named? cases other name = .some (.bare n a)) (hv : toValue a = .string name) :
      Variant room (Codec.choice cases other toValue) a (lead ++ (Value.string name).encode)
  | holding {room : Nat} {α β : Type} {cases : List (Case α)} {other : Option (Case α)}
      {toValue : α → Value} {name n : String} {c : Codec β} {wrap : β → α} {b : β}
      {lead pad : Bytes} {p : Part} (hlead : Blanks lead) (hpad : Blanks pad)
      (hcase : Case.named? cases other name = .some (.holding n c wrap))
      (hv : toValue (wrap b) = .object [(name, c.toValue b)]) (hname : Names name p.name)
      (hb : Variant room c b p.value) (hafter : Blanks p.after) :
      Variant (room + 1) (Codec.choice cases other toValue) (wrap b)
        (bracketText .curly lead [p] pad)

namespace Codec

/-- A text that stands for a value does not begin with the end of an array, and it begins as null
does only for null. -/
theorem Variant.begins {room : Nat} {c : Codec α} {a : α} {t : Bytes} (h : c.Variant room a t) :
    ∃ b, Begins t b ∧ b ≠ byte ']' ∧ (b = byte 'n' → c.toValue a = .null) := by
  induction h with
  | scalar hlead hv => exact hv.begins hlead
  | value _ ht => exact ht.begins
  | map _ _ ih => exact ih
  | some _ _ ih => exact ih
  | list hlead => exact ⟨_, Json.begins_bracketText .square hlead _ _, by decide, nofun⟩
  | record hlead => exact ⟨_, Json.begins_bracketText .curly hlead _ _, by decide, nofun⟩
  | @bare _ _ _ _ _ _ name _ _ hlead _ _ =>
      rw [Json.encode_string]
      exact ⟨byte '"', .of_cons hlead (by decide) _, by decide, nofun⟩
  | holding hlead => exact ⟨_, Json.begins_bracketText .curly hlead _ _, by decide, nofun⟩

/-- The record in the slots is found whatever the order of its parts. -/
theorem reads_record {room : Nat} {name : String} {fs : Fields α}
    {toFields : α → List (String × Value)} {a : α} {lead pad : Bytes}
    {given : List (Entry × Part)} {unknown ms : List (String × Part)} (hlead : Blanks lead)
    (hpad : Blanks pad) (hgives : fs.Gives (given.map Prod.fst) a)
    (hgiven : ∀ g ∈ given, Reads (g.1.codec.read room) g.1.value g.2.value)
    (hnames : ∀ m ∈ unknown, m.1 ∉ fs.names) (hunknown : ∀ m ∈ unknown, Json.Text m.2.value)
    (hms : ms.Perm (given.map (fun g => (g.1.name, g.2)) ++ unknown))
    (hname : ∀ m ∈ ms, Names m.1 m.2.name) (hafter : ∀ m ∈ ms, Blanks m.2.after) :
    Reads ((Codec.record name fs toFields).read (room + 1)) a
      (bracketText .curly lead (ms.map Prod.snd) pad) := by
  intro s rest hrest hs
  obtain ⟨p⟩ := hgives.progress
  have hnodup := hgives.nodup
  have hmem : ∀ g ∈ given, g.1.name ∈ fs.names := fun g hg =>
    hgives.mem_names g.1 (List.mem_map_of_mem hg)
  have hfits : ∀ m ∈ ms, fs.Fits (given.map Prod.fst) room m := by
    intro m hm
    rcases List.mem_append.mp (hms.mem_iff.mp hm) with hm | hm
    · obtain ⟨g, hg, rfl⟩ := List.mem_map.mp hm
      exact .known g.1 (List.mem_map_of_mem hg) rfl (hgiven g hg)
    · exact .unknown (hnames m hm) (hunknown m hm)
  have honce : ms.Pairwise fun m m' => m.1 ∈ fs.names → m.1 ≠ m'.1 := by
    have hsymm {m m' : String × Part} (h : m.1 ∈ fs.names → m.1 ≠ m'.1) :
        m'.1 ∈ fs.names → m'.1 ≠ m.1 := fun hm heq => h (heq ▸ hm) heq.symm
    rw [hms.pairwise_iff hsymm, List.pairwise_append]
    refine ⟨?_, ?_, ?_⟩
    · rw [List.pairwise_map]
      rw [List.map_map, List.Nodup, List.pairwise_map] at hnodup
      refine hnodup.imp ?_
      intro g g' hne _
      exact hne
    · exact List.pairwise_of_forall_mem_list fun m hm _ _ hmem => absurd hmem (hnames m hm)
    · intro m _ m' hm' hmem heq
      exact hnames m' hm' (heq ▸ hmem)
  have hall : ∀ e ∈ given.map Prod.fst,
      e.name ∈ ([] : List String) ∨ e.name ∈ ms.map Prod.fst := by
    intro e he
    obtain ⟨g, hg, rfl⟩ := List.mem_map.mp he
    refine .inr (List.mem_map.mpr ⟨(g.1.name, g.2), hms.mem_iff.mpr ?_, rfl⟩)
    exact List.mem_append_left _ (List.mem_map_of_mem hg)
  have hfuel := Json.length_lt_bracket .curly (ms.map Prod.snd) pad rest
  rw [List.length_map] at hfuel
  have hobject := p.readObject hpad rest hgives hname hafter hfits honce
    (fun _ _ _ => List.not_mem_nil) hall hfuel (.of_opening .curly (ms.map Prod.snd) pad rest)
  rw [p.start] at hobject
  simp only [Codec.record, Json.Reads.readFound_opening hlead hs, insideObject, inside, hobject,
    Json.settle, bind, Except.bind]

/-- Every text that stands for a value is read as that value. -/
theorem Variant.reads {room : Nat} {c : Codec α} {a : α} {t : Bytes} (h : c.Variant room a t) :
    Reads (c.read room) a t := by
  induction h with
  | scalar hlead hv haccept =>
      intro s rest hrest hs
      simp only [Codec.scalar, hv.readFound_spaced hlead hrest hs, haccept, bind, Except.bind]
  | value hv ht => exact ht.reads hv
  | map h hf ih =>
      intro s rest hrest hs
      simp only [Codec.map, ih s rest hrest hs, hf, bind, Except.bind]
  | some h hnull ih =>
      intro s rest hrest hs
      obtain ⟨b, ⟨text, htext⟩, -, hb⟩ := h.begins
      have hread := ih (b :: (text ++ rest)) rest hrest
        ((Json.skipBlanks_eq_self (htext rest)).trans (htext rest).symm)
      simp only [Codec.option, hs, htext, if_neg fun hn => hnull (hb hn), hread, bind, Except.bind]
  | @list room α c es lead pad hlead hpad hname hvalue hafter ih =>
      intro s rest hrest hs
      have hbegins : ∀ e ∈ es, ∃ b, Begins e.2.value b ∧ b ≠ byte ']' := by
        intro e he
        obtain ⟨b, hb, hne, -⟩ := (hvalue e he).begins
        exact ⟨b, hb, hne⟩
      have hfuel := Json.length_lt_bracket .square (es.map Prod.snd) pad rest
      rw [List.length_map] at hfuel
      have hparts := Json.readItems_parts hpad rest hname hbegins ih hafter hfuel
        (.of_opening .square (es.map Prod.snd) pad rest)
      simp only [Codec.list, Json.Reads.readFound_opening hlead hs, insideArray, inside, hparts,
        Json.settle, bind, Except.bind]
  | record hlead hpad hgives _ hnames hunknown hms hname hafter ih =>
      exact reads_record hlead hpad hgives ih hnames hunknown hms hname hafter
  | @bare room α cases other toValue a name n lead hlead hcase hv =>
      intro s rest hrest hs
      have hquote : skipBlanks s = byte '"' :: (Json.inner name ++ byte '"' :: rest) := by
        rw [hs, Json.encode_string]
        simp only [List.append_assoc, List.cons_append, List.nil_append]
        exact hlead.skipBlanks_cons (by decide) _
      simp only [Codec.choice, hquote, if_true, Case.readAlone, Json.readString_inner, hcase,
        Case.alone, bind, Except.bind]
  | @holding room α β cases other toValue name n c wrap b lead pad p hlead hpad hcase hv hname hb
      hafter ih =>
      intro s rest hrest hs
      have hbrace : byte '\x7b' ≠ byte '"' := by decide
      have hopening : skipBlanks s =
          byte '\x7b' :: (partsText true [p] ++ (pad ++ Bracket.curly.close :: rest)) := by
        rw [hs, Json.bracketText_append]
        exact hlead.skipBlanks_cons (by decide) _
      have hfirst := (Json.Stands.of_opening .curly [p] pad rest).first
      obtain ⟨s₁, s₂, hquote, hread, hcolon⟩ :=
        hname.reads (p.value ++ (p.after ++ Json.restText .curly [] pad rest))
      rw [hquote] at hfirst
      have hvalue := ih _ _ (hafter.delimited (Json.delimited_restText .curly [] hpad rest)) rfl
      have hend : skipBlanks (p.after ++ Json.restText .curly [] pad rest) = byte '\x7d' :: rest := by
        rw [hafter.skipBlanks_append]
        exact Json.skipBlanks_restText_nil .curly hpad rest
      simp only [Codec.choice, hopening, if_neg hbrace, if_true, inside, Case.readHolding, hfirst,
        hread, hcase, hcolon, Case.readContent, hvalue, Case.endHolding, hend, bind, Except.bind]

/-- A document whose text stands for a value, with blanks behind it, holds the value. -/
theorem Variant.decode {c : Codec α} {a : α} {t pad : Bytes}
    (h : c.Variant Json.maxDepth a t) (hpad : Blanks pad) : c.decode (t ++ pad) = .ok a := by
  have hend : skipBlanks pad = [] := by
    rw [← List.append_nil pad, hpad.skipBlanks_append]
    rfl
  simp only [Codec.decode, Json.readDocument, h.reads (t ++ pad) pad hpad.delimited_self rfl,
    Json.endDocument, hend, bind, Except.bind]
  rfl

/-! ## What is written -/

section Written

variable {room : Nat}

/-- A list stands as it is written for itself, if its items do. -/
theorem Variant.list_encode {c : Codec α} {as : List α}
    (h : ∀ a ∈ as, c.Variant room a (c.encode a)) :
    c.list.Variant (room + 1) as (c.list.encode as) := by
  have hlist := @Variant.list room α c (as.map fun a => (a, Json.itemPart (c.toValue a))) [] []
    .nil .nil (List.forall_mem_map.mpr fun _ _ => rfl) (List.forall_mem_map.mpr h)
    (List.forall_mem_map.mpr fun _ _ => .nil)
  simp only [List.map_map, Function.comp_def, List.map_id'] at hlist
  show c.list.Variant (room + 1) as (Value.array (as.map c.toValue)).encode
  rw [Json.encode_array_parts, List.map_map]
  exact hlist

/-- A record stands as it is written for itself, if the values of its fields do. -/
theorem Variant.record_encode {name : String} {fs : Fields α}
    {toFields : α → List (String × Value)} {a : α} {es : List Entry} (hgives : fs.Gives es a)
    (hfields : toFields a = es.map fun e => (e.name, e.codec.toValue e.value))
    (h : ∀ e ∈ es, e.codec.Variant room e.value (e.codec.encode e.value)) :
    (Codec.record name fs toFields).Variant (room + 1) a
      ((Codec.record name fs toFields).encode a) := by
  have hrecord := @Variant.record room α name fs toFields a [] []
    (es.map fun e => (e, Json.fieldPart (e.name, e.codec.toValue e.value))) []
    (es.map fun e => (e.name, Json.fieldPart (e.name, e.codec.toValue e.value))) .nil .nil
    (by simpa only [List.map_map, Function.comp_def, List.map_id'] using hgives)
    (List.forall_mem_map.mpr h) nofun nofun
    (by rw [List.map_map, List.append_nil]; rfl)
    (List.forall_mem_map.mpr fun e _ => Json.names_fieldPart (e.name, e.codec.toValue e.value))
    (List.forall_mem_map.mpr fun _ _ => .nil)
  show (Codec.record name fs toFields).Variant (room + 1) a (Value.object (toFields a)).encode
  rw [Json.encode_object_parts, hfields, List.map_map]
  rw [List.map_map] at hrecord
  exact hrecord

/-- A case stands as it is written for itself, if its content does. -/
theorem Variant.holding_encode {cases : List (Case α)} {other : Option (Case α)}
    {toValue : α → Value} (name : String) {n : String} {c : Codec β} {wrap : β → α} {b : β}
    (hcase : Case.named? cases other name = .some (.holding n c wrap))
    (hv : toValue (wrap b) = .object [(name, c.toValue b)])
    (h : c.Variant room b (c.encode b)) :
    (Codec.choice cases other toValue).Variant (room + 1) (wrap b)
      ((Codec.choice cases other toValue).encode (wrap b)) := by
  show (Codec.choice cases other toValue).Variant (room + 1) (wrap b) (toValue (wrap b)).encode
  rw [hv, Json.encode_object_parts]
  exact .holding .nil .nil hcase hv (Json.names_fieldPart (name, c.toValue b)) h .nil

theorem Variant.bare_encode {cases : List (Case α)} {other : Option (Case α)}
    {toValue : α → Value} (name : String) {n : String} {a : α}
    (hcase : Case.named? cases other name = .some (.bare n a)) (hv : toValue a = .string name) :
    (Codec.choice cases other toValue).Variant room a
      ((Codec.choice cases other toValue).encode a) := by
  show (Codec.choice cases other toValue).Variant room a (toValue a).encode
  rw [hv]
  show (Codec.choice cases other toValue).Variant room a ([] ++ (Value.string name).encode)
  exact .bare .nil hcase hv

theorem Variant.scalar_encode {accept : Found → Except Fault α} {toValue : α → Value} {a : α}
    (hv : (toValue a).Exact 0) (haccept : accept (Found.of (toValue a)) = .ok a) :
    (Codec.scalar accept toValue).Variant room a (toValue a).encode :=
  show (Codec.scalar accept toValue).Variant room a ([] ++ (toValue a).encode) from
    .scalar .nil hv haccept

theorem Variant.string_encode (s : String) : Codec.string.Variant room s (Codec.string.encode s) :=
  .scalar_encode (.string s) rfl

theorem Variant.bool_encode (b : Bool) : Codec.bool.Variant room b (Codec.bool.encode b) :=
  .scalar_encode (.bool b) rfl

end Written

end Codec

end StageGraph.Wire
