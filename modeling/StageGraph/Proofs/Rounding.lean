/-
# `StageGraph.Proofs.Rounding` — durations in whole milliseconds

A duration counts nanoseconds, while clocks tick and requests speak in milliseconds, so a
millisecond that has only been started must be counted or left out.

* A timer counts it (`Duration.roundsUp_ticks`).  In the same process a delay never ends before its
  time is over, and nobody is told before that he has waited long enough; either happens less than a
  millisecond after.
* A request leaves it out (`Duration.roundsDown_wholeMillis`).  What a service is asked for is what
  was wanted only if that is a whole number of milliseconds, and less otherwise: a delay may end,
  and a wait be given up, before its time, and of less than a millisecond nothing is left.

A request states no more than 64 bits hold, which is what becomes of all longer durations.
-/
import StageGraph.Proofs.CompletionTimes
import StageGraph.Proofs.Coherence
import StageGraph.Proofs.RequestIdentity

namespace StageGraph

open StageGraph.Wire (Codec)

/-! ## Rounding -/

namespace Duration

variable {d : Duration} {m n : Nat}

/-- So many milliseconds are not less than the duration, and not a whole millisecond more. -/
structure RoundsUp (d : Duration) (n : Nat) : Prop where
  le : d.nanos ≤ (ofMillis n).nanos
  lt : (ofMillis n).nanos < d.nanos + (ofMillis 1).nanos

/-- So many milliseconds are not more than the duration, and not a whole millisecond less. -/
structure RoundsDown (d : Duration) (n : Nat) : Prop where
  le : (ofMillis n).nanos ≤ d.nanos
  lt : d.nanos < (ofMillis n).nanos + (ofMillis 1).nanos

/-- The longest duration that a request can state. -/
def longest : Duration := .ofMillis (Nat.pow 2 64 - 1)

theorem roundsUp_ticks (d : Duration) : d.RoundsUp d.ticks := by
  constructor <;> simp only [ofMillis, ticks] <;> omega

theorem RoundsUp.unique (hm : d.RoundsUp m) (hn : d.RoundsUp n) : m = n := by
  obtain ⟨hm, hm'⟩ := hm
  obtain ⟨hn, hn'⟩ := hn
  simp only [ofMillis] at hm hm' hn hn'
  omega

/-- What is rounded down is rounded up, too, only if nothing is left out. -/
theorem RoundsDown.roundsUp_iff (h : d.RoundsDown n) : d.RoundsUp n ↔ d = .ofMillis n := by
  constructor
  · intro hup
    have hnanos : d.nanos = (ofMillis n).nanos := Nat.le_antisymm hup.le h.le
    cases d
    exact congrArg Duration.mk hnanos
  · rintro rfl
    exact ⟨Nat.le_refl _, Nat.lt_add_of_pos_right (by decide)⟩

/-- Otherwise rounding up gives one more. -/
theorem RoundsDown.roundsUp_succ (h : d.RoundsDown n) (hne : d ≠ .ofMillis n) :
    d.RoundsUp (n + 1) := by
  have hne : d.nanos ≠ (ofMillis n).nanos := by
    intro hnanos
    cases d
    exact hne (congrArg Duration.mk hnanos)
  obtain ⟨hle, hlt⟩ := h
  constructor <;> simp only [ofMillis] at hle hlt hne ⊢ <;> omega

/-- A duration that can be stated is rounded down. -/
theorem roundsDown_wholeMillis (h : d.nanos ≤ longest.nanos) : d.RoundsDown d.wholeMillis := by
  have hquotient : d.nanos / 1000000 ≤ Nat.pow 2 64 - 1 := by
    rw [longest, ofMillis] at h
    exact Nat.div_le_of_le_mul (by rwa [Nat.mul_comm])
  rw [wholeMillis, Nat.min_eq_left hquotient]
  constructor <;> simp only [ofMillis] <;> omega

theorem wholeMillis_of_longer (h : longest.nanos < d.nanos) :
    d.wholeMillis = Nat.pow 2 64 - 1 := by
  rw [longest, ofMillis] at h
  exact Nat.min_eq_right ((Nat.le_div_iff_mul_le (by decide)).mpr (Nat.le_of_lt h))

/-- The durations that are whole numbers of milliseconds are those that lose nothing. -/
theorem whole_iff (h : d.nanos ≤ longest.nanos) : d.Whole ↔ d = .ofMillis d.wholeMillis := by
  constructor
  · rintro ⟨ms, hms, rfl⟩
    rw [wholeMillis_ofMillis hms]
  · intro hd
    refine ⟨d.wholeMillis, ?_, hd⟩
    have hpos : 0 < Nat.pow 2 64 := by decide
    rw [wholeMillis]
    omega

end Duration

/-! ## In the same process -/

namespace World

/-- In the same process, what is to last for the duration lasts for so many ticks of the clock. -/
structure LastsFor (c : Completer) (d : Duration) (ticks : Nat) : Prop where
  /-- A delay is pending until then, and ends at this moment. -/
  delay : ∀ {es : List Event} {w₀ w₁ w : World} {e : Event} {flow n : Nat} {id : FlowId},
    Born c es flow n w₀ e w₁ → World.empty.Punctual c es → World.empty.run c es = some w →
    w₀.request? e = some (.addDelay id d) →
    (∀ v, Visits c es v → Present flow n v → v.clock < w₁.clock + ticks →
      v.outcome? flow n = none) ∧
    Scheduled c es w (Ended flow n) fun x => x = w₁.clock + ticks
  /-- Nobody is told before that his time is over, or while the stage is not pending. -/
  notEarly : ∀ {α : Type} {codec : Codec α} {w w' : World} {h : Handle} {flow n : Nat},
    w.Finds h flow n →
    Retrieves c (.getTimeout d codec) h w w' (.error (.timeout h.stage)) →
    w.clock + ticks ≤ w'.clock ∧ w'.outcome? flow n = none
  /-- Who attends to it goes on at this moment at the latest. -/
  notLate : ∀ {α : Type} {codec : Codec α} {w v : World} {h : Handle} {flow n : Nat}
    {es : List Event}, w.Finds h flow n →
    (w.beside c (w.retrieving c (.getTimeout d codec) h)).Punctual w es → w.run c es = some v →
    v.clock ≤ w.clock + ticks ∧ (v.clock = w.clock + ticks →
      ∃ a, v.resume? (w.retrieving c (.getTimeout d codec) h) = some a)

section Waiting

variable {c : Completer} {w v : World} {h : Handle} {flow n : Nat} {α : Type} {x : Retrieval α}
  {d : Duration} {es : List Event}

/-- Somebody who waits for a while, and attends to it, does not wait longer. -/
theorem clock_le_after (hfinds : w.Finds h flow n) (htimeout : x.timeout = some d)
    (hpunctual : (w.beside c (w.retrieving c x h)).Punctual w es) (hrun : w.run c es = some v) :
    v.clock ≤ w.after d := by
  obtain ⟨alarm, halarm, hmoment⟩ := retrieving_alarm? (c := c) hfinds htimeout
  have hstart : w.clock ≤ alarm.moment := by
    rw [hmoment]
    exact Nat.le_add_right _ _
  exact hmoment ▸ clock_le_of_beside halarm hstart hpunctual hrun

/-- When the while is over he can go on, whether or not the stage has ended. -/
theorem resume?_of_after (hfinds : w.Finds h flow n) (htimeout : x.timeout = some d)
    (hover : w.after d ≤ v.clock) : ∃ a, v.resume? (w.retrieving c x h) = some a := by
  cases ho : v.outcome? flow n with
  | some o => exact ⟨_, (resume?_retrieving hfinds).mpr (.inl ⟨o, ho, rfl⟩)⟩
  | none =>
      exact ⟨_, (resume?_retrieving hfinds).mpr (.inr ⟨ho, ⟨d, htimeout, hover⟩, rfl⟩)⟩

end Waiting

theorem lastsFor_ticks (c : Completer) (d : Duration) : LastsFor c d d.ticks where
  delay := by
    intro es w₀ w₁ w e flow n id hborn hpunctual hrun hr
    obtain ⟨hphases, hscheduled⟩ := hborn.delay_on_time hpunctual hrun hr
    exact ⟨fun v hv hpresent => (hphases v hv hpresent).1, hscheduled⟩
  notEarly := by
    intro α codec w w' h flow n hfinds hret
    rcases hret.cases hfinds with ⟨-, ⟨o, -, ha⟩ | ⟨hpending, ⟨d', hd', hover⟩, -⟩⟩
    · exact absurd ha.symm (o.retrieve_ne_timeout codec h.stage)
    · obtain rfl := Option.some.inj hd'
      exact ⟨hover, hpending⟩
  notLate := by
    intro α codec w v h flow n es hfinds hpunctual hrun
    refine ⟨clock_le_after hfinds rfl hpunctual hrun, ?_⟩
    intro hclock
    exact resume?_of_after hfinds rfl (Nat.le_of_eq hclock.symm)

end World

/-! ## Over a service -/

namespace Remote

/-- The requests for a delay, and for a wait, of the duration ask for so many milliseconds. -/
structure AsksFor (base : String) (d : Duration) (n : UInt64) : Prop where
  /-- The body of the one is read as this number. -/
  delay : ∀ flow, ∃ body, (request base (.addDelay flow d)).body = some body ∧
    Message.addDelay.decode body = .ok n
  /-- The query of the other gets a pair with this number. -/
  wait : ∀ flow stage, (request base (.awaitStage flow stage (some d))).address? =
    (request base (.awaitStage flow stage none)).address?.map fun address =>
      address.withPair "timeout_ms" (toString n.toNat)

theorem toNat_millis (d : Duration) : (millis d).toNat = d.wholeMillis := by
  have hfits : d.wholeMillis < 2 ^ 64 := by
    have hpow : 2 ^ 64 = Nat.pow 2 64 := rfl
    rw [Duration.wholeMillis, hpow]
    omega
  exact UInt64.toNat_ofNat_of_lt' hfits

theorem asksFor_millis (base : String) (d : Duration) : AsksFor base d (millis d) where
  delay flow := ⟨_, rfl, Codec.decode_encode (Message.single_readsBack (.uint64 126 _))⟩
  wait flow stage := by
    simp only [request, ServiceRequest.address?, Option.map_some, Option.map_map, toNat_millis]
    rfl

/-- How long a delay and a wait of any duration last.
* In the same process it is the duration, rounded up to the ticks of the clock.
* A service is asked for the duration, rounded down, if that can be stated: which is as many
  milliseconds if the duration is a whole number of them, and one less if it is not.
* For any longer duration a service is asked for all that can be stated. -/
theorem durations_rounded (base : String) (d : Duration) : ∃ (n : UInt64) (ticks : Nat),
    AsksFor base d n ∧ (∀ c, World.LastsFor c d ticks) ∧ d.RoundsUp ticks ∧
    (d.nanos ≤ Duration.longest.nanos → d.RoundsDown n.toNat ∧
      (d.Whole ∧ n.toNat = ticks ∨ ¬d.Whole ∧ n.toNat + 1 = ticks)) ∧
    (Duration.longest.nanos < d.nanos → n.toNat = Nat.pow 2 64 - 1) := by
  refine ⟨millis d, d.ticks, asksFor_millis base d, fun c => World.lastsFor_ticks c d,
    d.roundsUp_ticks, ?_, ?_⟩
  · intro hstated
    have hdown := Duration.roundsDown_wholeMillis hstated
    rw [toNat_millis]
    refine ⟨hdown, ?_⟩
    by_cases hwhole : d.Whole
    · have hup := hdown.roundsUp_iff.mpr ((Duration.whole_iff hstated).mp hwhole)
      exact .inl ⟨hwhole, hup.unique d.roundsUp_ticks⟩
    · have hup := hdown.roundsUp_succ fun hd => hwhole ((Duration.whole_iff hstated).mpr hd)
      exact .inr ⟨hwhole, hup.unique d.roundsUp_ticks⟩
  · intro hlonger
    rw [toNat_millis, Duration.wholeMillis_of_longer hlonger]

/-- Of one and a half milliseconds a timer makes two, and a request one. -/
example : (Duration.ofMicros 1500).ticks = 2 ∧ (millis (.ofMicros 1500)).toNat = 1 := by decide

end Remote

end StageGraph
