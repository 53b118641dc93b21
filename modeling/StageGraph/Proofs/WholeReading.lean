/-
# `StageGraph.Proofs.WholeReading` — what a codec reads is one whole value

Codecs differ in what they accept: one wants a string, another a record, and a free value
may be anything.  They do not differ in how far they go.  Whatever a codec reads, it takes
as many bytes as the skipper would (`Codec.Whole`), so on a text of the grammar it either
fails or ends where the text ends (`Json.WholeReader.ends`).

This is proved once for each way of making codecs.  A record can be read from an object and
from an array, and may leave fields of unknown names aside; in all cases it is the parts
of its bracket that are taken, one after the other.
-/
import StageGraph.Proofs.JsonReading
import StageGraph.Wire.Record
import StageGraph.Wire.Choice

namespace StageGraph.Wire

open StageGraph.Json (Reader Found Bracket Skips SkipsInside WholeReader Ends bind_eq_ok byte
  skipBlanks)

variable {α β : Type}

/-! ## Codecs -/

/-- What a codec reads is one value, with room for any number of brackets. -/
def Codec.Whole (c : Codec α) : Prop := ∀ room, WholeReader (c.read room)

namespace Codec

theorem Whole.scalar (accept : Found → Except Json.Fault α) (toValue : α → Json.Value)
    (hsequence : ∀ a, accept .sequence ≠ .ok a) (hmap : ∀ a, accept .map ≠ .ok a) :
    (Codec.scalar accept toValue).Whole := by
  intro room s a r hread
  obtain ⟨⟨found, rest⟩, hfound, hread⟩ := bind_eq_ok.mp hread
  cases haccept : accept found with
  | error f =>
      simp only [haccept] at hread
      cases hread
  | ok b =>
      simp only [haccept] at hread
      cases hread
      obtain ⟨rfl, -⟩ | ⟨rfl, -⟩ | ⟨-, hskips⟩ := Json.readFound_cases hfound
      · exact absurd haccept (hsequence _)
      · exact absurd haccept (hmap _)
      · exact ⟨1, hskips⟩

theorem Whole.unit : Codec.unit.Whole := .scalar _ _ nofun nofun

theorem Whole.bool : Codec.bool.Whole := .scalar _ _ nofun nofun

theorem Whole.string : Codec.string.Whole := .scalar _ _ nofun nofun

theorem Whole.intBetween (least greatest : Int) (expected : Json.Expected) :
    (Codec.intBetween least greatest expected).Whole := .scalar _ _ nofun nofun

theorem Whole.map {c : Codec α} (h : c.Whole) (f : α → Except Json.Fault β) (g : β → α) :
    (c.map f g).Whole := by
  intro room s b r hread
  obtain ⟨⟨a, rest⟩, ha, hread⟩ := bind_eq_ok.mp hread
  cases hf : f a with
  | error e =>
      simp only [hf] at hread
      cases hread
  | ok b' =>
      simp only [hf] at hread
      cases hread
      exact h room s a r ha

theorem Whole.value : Codec.value.Whole := Json.readValue_whole

theorem Whole.option {c : Codec α} (h : c.Whole) : c.option.Whole := by
  intro room s a r hread
  simp only [Codec.option] at hread
  cases hblanks : skipBlanks s with
  | nil =>
      simp only [hblanks] at hread
      obtain ⟨⟨b, rest⟩, hb, hread⟩ := bind_eq_ok.mp hread
      cases hread
      obtain ⟨n, hskips⟩ := h room [] b _ hb
      exact ⟨n, hskips.congr (by rw [hblanks]; rfl)⟩
  | cons b rest =>
      simp only [hblanks] at hread
      by_cases hn : b = byte 'n'
      · rw [if_pos hn] at hread
        obtain ⟨rest', hword, hread⟩ := bind_eq_ok.mp hread
        cases hread
        exact ⟨1, .scalar hblanks (by rw [Json.skipScalar, if_pos hn, hword])⟩
      · rw [if_neg hn] at hread
        obtain ⟨⟨b', rest'⟩, hb', hread⟩ := bind_eq_ok.mp hread
        cases hread
        obtain ⟨n, hskips⟩ := h room _ b' _ hb'
        exact ⟨n, hskips.congr (by rw [← hblanks, Json.skipBlanks_skipBlanks])⟩

/-- What is read inside a bracket is read with one bracket less. -/
theorem inside_eq_ok {leave : Bytes → Bytes} {room : Nat} {s r : Bytes} {body : Nat → Reader α}
    {a : α} (h : Json.settle leave (inside room s body) = .ok (a, r)) :
    ∃ room', room = room' + 1 ∧ body room' s = .ok (a, r) := by
  cases room with
  | zero => cases h
  | succ room =>
      refine ⟨room, rfl, ?_⟩
      rw [inside] at h
      cases hbody : body room s with
      | ok p =>
          rw [hbody] at h
          cases h
          rfl
      | error e =>
          rw [hbody] at h
          cases h

theorem Whole.list {c : Codec α} (h : c.Whole) : c.list.Whole := by
  intro room s as r hread
  obtain ⟨⟨found, rest⟩, hfound, hread⟩ := bind_eq_ok.mp hread
  obtain ⟨rfl, hopening⟩ | ⟨rfl, -⟩ | ⟨⟨v, hv⟩, -⟩ := Json.readFound_cases hfound
  · obtain ⟨room, rfl, hitems⟩ := inside_eq_ok hread
    exact (Json.readItems_ends (h room) hitems).skips hopening
  · cases hread
  · cases found <;> first | cases hread | cases hv

end Codec

/-! ## Records -/

namespace Fields

/-- The codecs of all fields read whole values. -/
def Whole : {α : Type} → Fields α → Prop
  | _, .none _ => True
  | _, .field earlier _ codec _ => Whole earlier ∧ codec.Whole

section LastField

variable (earlier : Fields (β → α)) (codec : Codec β) (fallback : Option β)
  (slots : earlier.Slots) (last : Option β)

theorem step_self (n : String) :
    (Fields.field earlier n codec fallback).step n (slots, last) =
      if last.isSome then .duplicate
      else .take
        (fun room s => do
          let (b, rest) ← codec.read room s
          .ok ((slots, some b), rest))
        fun v => (codec.ofValue v).map fun b => (slots, some b) :=
  if_pos rfl

theorem step_other {n name : String} (hne : name ≠ n) :
    (Fields.field earlier n codec fallback).step name (slots, last) =
      (earlier.step name slots).widen fun earlierRead => (earlierRead, last) :=
  if_neg hne

end LastField

/-- A field is taken by the codec of the last one into the slot of that, which was empty, or as it
would be without the last one. -/
theorem take_cases {earlier : Fields (β → α)} {n name : String} {codec : Codec β}
    {fallback last : Option β} {slots : earlier.Slots}
    {slots' : (Fields.field earlier n codec fallback).Slots}
    {read : Nat → Reader (Fields.field earlier n codec fallback).Slots}
    {ofValue : Json.Value → Except Json.Fault (Fields.field earlier n codec fallback).Slots}
    (hstep : (Fields.field earlier n codec fallback).step name (slots, last) = .take read ofValue)
    {room : Nat} {s r : Bytes} (hread : read room s = .ok (slots', r)) :
    (name = n ∧ ∃ b, codec.read room s = .ok (b, r) ∧ slots' = (slots, some b)) ∨
      (name ≠ n ∧ ∃ read' ofValue' next, earlier.step name slots = .take read' ofValue' ∧
        read' room s = .ok (next, r) ∧ slots' = (next, last)) := by
  by_cases hname : name = n
  · subst hname
    rw [step_self] at hstep
    split at hstep
    · cases hstep
    · cases hstep
      obtain ⟨⟨b, rest⟩, hb, hread⟩ := bind_eq_ok.mp hread
      cases hread
      exact .inl ⟨rfl, b, hb, rfl⟩
  · rw [step_other earlier codec fallback slots last hname] at hstep
    cases hwide : earlier.step name slots with
    | take read' ofValue' =>
        rw [hwide] at hstep
        cases hstep
        obtain ⟨⟨next, rest⟩, hnext, hread⟩ := bind_eq_ok.mp hread
        cases hread
        exact .inr ⟨hname, read', ofValue', next, rfl, hnext, rfl⟩
    | unknown => rw [hwide] at hstep; cases hstep
    | duplicate => rw [hwide] at hstep; cases hstep

/-- A field is read as one value. -/
theorem Whole.step {fs : Fields α} (h : fs.Whole) {name : String} {slots slots' : fs.Slots}
    {read : Nat → Reader fs.Slots} {ofValue : Json.Value → Except Json.Fault fs.Slots}
    (hstep : fs.step name slots = .take read ofValue) {room : Nat} {s r : Bytes}
    (hread : read room s = .ok (slots', r)) : ∃ n, Skips n s r := by
  induction fs with
  | none a => cases hstep
  | field earlier n codec fallback ih =>
      obtain ⟨hearlier, hcodec⟩ := h
      obtain ⟨slots, last⟩ := slots
      obtain ⟨-, b, hb, -⟩ | ⟨-, read', ofValue', next, hstep', hread', -⟩ :=
        take_cases hstep hread
      · exact hcodec room s b r hb
      · exact ih hearlier hstep' hread'

theorem Whole.readObject {fs : Fields α} (h : fs.Whole) {room fuel : Nat} {first : Bool}
    {slots : fs.Slots} {s r : Bytes} {a : α}
    (hread : fs.readObject room fuel first slots s = .ok (a, r)) : Ends .curly first s r := by
  induction fuel generalizing first slots s with
  | zero => cases hread
  | succ fuel ih =>
      obtain ⟨⟨name, s₁⟩, hnext, hread⟩ := bind_eq_ok.mp hread
      cases name with
      | none =>
          cases hfinish : fs.finish slots with
          | error f =>
              simp only [hfinish] at hread
              cases hread
          | ok b =>
              simp only [hfinish] at hread
              cases hread
              exact Json.ends_of_nextName hnext
      | some name =>
          cases hstep : fs.step name slots with
          | duplicate =>
              simp only [hstep] at hread
              cases hread
          | unknown =>
              simp only [hstep] at hread
              obtain ⟨s₂, hcolon, hread⟩ := bind_eq_ok.mp hread
              obtain ⟨s₃, hskip, hread⟩ := bind_eq_ok.mp hread
              exact (ih hread).field hnext hcolon (Json.skips_of_skipValue hskip)
          | take read ofValue =>
              simp only [hstep] at hread
              obtain ⟨s₂, hcolon, hread⟩ := bind_eq_ok.mp hread
              obtain ⟨⟨slots', s₃⟩, hvalue, hread⟩ := bind_eq_ok.mp hread
              obtain ⟨n, hskips⟩ := h.step hstep hvalue
              exact (ih hread).field hnext hcolon hskips

/-- Behind the fields that were read from an array comes what is left of it. -/
theorem Whole.readArray {fs : Fields α} (h : fs.Whole) {record : String} {total room : Nat}
    {s s' r : Bytes} {a : α} (hread : fs.readArray record total room s = .ok (a, s'))
    (hrest : Ends .square (fs.size = 0) s' r) : Ends .square true s r := by
  induction fs generalizing s' with
  | none b =>
      cases hread
      exact hrest
  | field earlier n codec fallback ih =>
      obtain ⟨hearlier, hcodec⟩ := h
      obtain ⟨⟨f, s₁⟩, hf, hread⟩ := bind_eq_ok.mp hread
      obtain ⟨⟨more, s₂⟩, hnext, hread⟩ := bind_eq_ok.mp hread
      refine ih hearlier hf ?_
      cases more with
      | true =>
          simp only [if_true] at hread
          obtain ⟨⟨b, s₃⟩, hb, hread⟩ := bind_eq_ok.mp hread
          cases hread
          obtain ⟨n, hskips⟩ := hcodec room s₂ b _ hb
          exact hrest.item hnext hskips
      | false =>
          cases fallback with
          | none => cases hread
          | some b =>
              cases hread
              obtain ⟨-, rest, hclose, rfl⟩ | ⟨⟨⟩, -⟩ := Json.nextItem_cases hnext
              cases hrest with
              | close hclose' =>
                  cases hclose'
                  exact .close hclose
              | parts hstart => cases hstart

end Fields

theorem Codec.Whole.record {fs : Fields α} (h : fs.Whole) (name : String)
    (toFields : α → List (String × Json.Value)) : (Codec.record name fs toFields).Whole := by
  intro room s a r hread
  obtain ⟨⟨found, rest⟩, hfound, hread⟩ := bind_eq_ok.mp hread
  obtain ⟨rfl, hopening⟩ | ⟨rfl, hopening⟩ | ⟨⟨v, hv⟩, -⟩ := Json.readFound_cases hfound
  · obtain ⟨room, rfl, hbody⟩ := inside_eq_ok hread
    obtain ⟨⟨b, s'⟩, harray, hbody⟩ := bind_eq_ok.mp hbody
    obtain ⟨s₁, hend, hbody⟩ := bind_eq_ok.mp hbody
    cases hbody
    exact (h.readArray harray (.close (Json.endItems_eq hend))).skips hopening
  · obtain ⟨room, rfl, hbody⟩ := inside_eq_ok hread
    exact (h.readObject hbody).skips hopening
  · cases found <;> first | cases hread | cases hv

/-! ## Choices -/

/-- The codec of what a case holds reads whole values. -/
def Case.Whole : Case α → Prop
  | .bare _ _ => True
  | .holding _ codec _ => codec.Whole

theorem Case.Whole.readContent {c : Case α} (h : c.Whole) {room : Nat} {s r : Bytes} {a : α}
    (hread : c.readContent room s = .ok (a, r)) : ∃ n, Skips n s r := by
  cases c with
  | bare name b =>
      obtain ⟨⟨u, rest⟩, hu, hread⟩ := bind_eq_ok.mp hread
      cases hread
      exact Codec.Whole.unit room s u _ hu
  | holding name codec wrap =>
      obtain ⟨⟨b, rest⟩, hb, hread⟩ := bind_eq_ok.mp hread
      cases hread
      exact h room s b _ hb

theorem Case.skipString_of_readAlone {cases : List (Case α)} {other : Option (Case α)} {s r : Bytes}
    {a : α} (h : readAlone cases other s = .ok (a, r)) : Json.skipString s = .ok r := by
  obtain ⟨⟨name, rest⟩, hname, h⟩ := bind_eq_ok.mp h
  cases hcase : named? cases other name with
  | none =>
      simp only [hcase] at h
      cases h
  | some c =>
      cases halone : c.alone with
      | error f =>
          simp only [hcase, halone] at h
          cases h
      | ok b =>
          simp only [hcase, halone] at h
          cases h
          exact Json.skipString_of_readString hname

theorem Case.endHolding_eq {s r : Bytes} (h : endHolding s = .ok r) :
    skipBlanks s = Bracket.curly.close :: r := by
  rw [endHolding] at h
  cases hblanks : skipBlanks s with
  | nil => rw [hblanks] at h; cases h
  | cons c rest =>
      simp only [hblanks] at h
      split at h
      · next hc =>
          cases h
          rw [hc]
          rfl
      · cases h

/-- A case that is named is one of the cases, or the one that stands for all unknown names. -/
theorem Case.whole_of_named? {cases : List (Case α)} {other : Option (Case α)}
    (hcases : ∀ c ∈ cases, c.Whole) (hother : ∀ c ∈ other, c.Whole) {name : String} {c : Case α}
    (h : named? cases other name = some c) : c.Whole := by
  rw [named?] at h
  cases hfind : cases.find? fun c => c.name = name with
  | some c' =>
      rw [hfind] at h
      cases h
      exact hcases c (List.mem_of_find?_eq_some hfind)
  | none =>
      rw [hfind] at h
      exact hother c h

/-- The only field of a case with content, and the end of the object. -/
theorem Case.skipsInside_of_readHolding {cases : List (Case α)} {other : Option (Case α)}
    (hcases : ∀ c ∈ cases, c.Whole) (hother : ∀ c ∈ other, c.Whole) {room : Nat} {s s' r : Bytes}
    {a : α} (h : readHolding cases other room s = .ok (a, s')) (hend : endHolding s' = .ok r) :
    ∃ n, SkipsInside .curly n s r := by
  rw [readHolding] at h
  cases hblanks : skipBlanks s with
  | nil => rw [hblanks] at h; cases h
  | cons b rest =>
      simp only [hblanks] at h
      by_cases hquote : b = byte '"'
      · rw [if_pos hquote] at h
        subst hquote
        obtain ⟨⟨name, s₁⟩, hname, h⟩ := bind_eq_ok.mp h
        cases hcase : named? cases other name with
        | none =>
            simp only [hcase] at h
            cases h
        | some c =>
            simp only [hcase] at h
            obtain ⟨s₂, hcolon, h⟩ := bind_eq_ok.mp h
            obtain ⟨n, hskips⟩ := (whole_of_named? hcases hother hcase).readContent h
            refine ⟨n, .last ?_ hskips (endHolding_eq hend)⟩
            exact Json.skipName_curly hblanks (Json.skipString_of_readString hname)
              (Json.readColon_eq hcolon)
      · rw [if_neg hquote] at h
        split at h <;> cases h

theorem Codec.Whole.choice {cases : List (Case α)} {other : Option (Case α)}
    (hcases : ∀ c ∈ cases, c.Whole) (hother : ∀ c ∈ other, c.Whole) (toValue : α → Json.Value) :
    (Codec.choice cases other toValue).Whole := by
  intro room s a r hread
  rw [Codec.choice] at hread
  cases hblanks : skipBlanks s with
  | nil =>
      simp only [hblanks] at hread
      cases hread
  | cons b rest =>
      simp only [hblanks] at hread
      by_cases hquote : b = byte '"'
      · rw [if_pos hquote] at hread
        subst hquote
        exact ⟨1, .scalar hblanks (Case.skipString_of_readAlone hread)⟩
      rw [if_neg hquote] at hread
      by_cases hcurly : b = byte '\x7b'
      · rw [if_pos hcurly] at hread
        subst hcurly
        cases room with
        | zero => cases hread
        | succ room =>
            obtain ⟨⟨a', s'⟩, hholding, hread⟩ := bind_eq_ok.mp hread
            obtain ⟨s'', hend, hread⟩ := bind_eq_ok.mp hread
            cases hread
            obtain ⟨n, hinside⟩ := Case.skipsInside_of_readHolding hcases hother hholding hend
            exact ⟨n + 1, .bracket (b := .curly) hblanks hinside⟩
      · rw [if_neg hcurly] at hread
        cases hread

/-- A name is read as one value. -/
theorem Codec.Whole.names (all : List α) (name : α → String) (other : Option α) :
    (Codec.names all name other).Whole := by
  refine .choice ?_ ?_ _
  · intro c hc
    obtain ⟨a, -, rfl⟩ := List.mem_map.mp hc
    trivial
  · intro c hc
    obtain ⟨a, -, rfl⟩ := Option.map_eq_some_iff.mp hc
    trivial

end StageGraph.Wire
