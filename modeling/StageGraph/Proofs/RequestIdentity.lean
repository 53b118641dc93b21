/-
# `StageGraph.Proofs.RequestIdentity` — which calls make the same request

A client puts a call to a service into a method, an address and a body.  The body says what is asked,
and can be read back, so it is the body of one value only.  The address says of which flow it is
asked: the name of the flow stands in it as it is, and names are any strings, so nothing keeps them
from looking like the parts of an address.

What is asked is told apart by the *last* segment of an address, which is fixed for each kind of
call; and since it holds no slash, it is the same last segment whatever the names before it hold
(`Remote.endpoint_eq`).  So no name turns a call into one of another kind, and a call that has only
the name of a flow in its address is a call to this flow.  To wait for a stage takes two names with
`/stages/` between them, and a text may be split at these letters in more than one place.  These
are the only calls that can be confused with others (`Remote.Confusable`), and only if a name holds
a slash.
-/
import StageGraph.Proofs.MessageRoundTrip
import StageGraph.Proofs.OtherFlows
import StageGraph.Client.Remote

namespace StageGraph

open StageGraph.Wire (Codec)

/-! ## Texts that determine what they say -/

namespace Wire.Codec

variable {α : Type} {c : Codec α} {a b : α}

/-- With room enough, the value is read back. -/
def Readable (c : Codec α) (a : α) : Prop := ∃ least, ∀ room, least ≤ room → c.ReadsBack room a

/-- Values that can be read back do not share a text. -/
theorem Readable.encode_inj (ha : c.Readable a) (hb : c.Readable b)
    (h : c.encode a = c.encode b) : a = b := by
  obtain ⟨m, hm⟩ := ha
  obtain ⟨n, hn⟩ := hb
  have hread := hm (max m n) (Nat.le_max_left m n) [] Json.delimited_nil
  have hread' := hn (max m n) (Nat.le_max_right m n) [] Json.delimited_nil
  rw [show (c.toValue a).encode = (c.toValue b).encode from h, hread'] at hread
  cases hread
  rfl

/-- What is readable in some room, and in every greater one, is readable. -/
theorem readable_of_add (least : Nat) (h : ∀ more, c.ReadsBack (more + least) a) : c.Readable a := by
  refine ⟨least, ?_⟩
  intro room hroom
  rw [← Nat.sub_add_cancel hroom]
  exact h (room - least)

end Wire.Codec

theorem Outcome.single_readable (o : Outcome) : Message.addCompleted.Readable o :=
  Codec.readable_of_add 4 fun more => Message.single_readsBack (o.readsBack more)

theorem FlowState.single_readable (s : FlowState) : Message.commit.Readable s :=
  Codec.readable_of_add 1 fun more => Message.single_readsBack (s.readsBack more)

theorem UInt64.single_readable (n : UInt64) : Message.addDelay.Readable n :=
  Codec.readable_of_add 1 fun more => Message.single_readsBack (.uint64 more n)

theorem Closure.single_readable {c : Closure} (h : c.captured.Kept) : Message.addHook.Readable c :=
  Codec.readable_of_add (c.captured.nesting + 2) fun more =>
    Message.single_readsBack (Closure.readsBack (h.exact (Nat.le_add_left _ more)))

theorem StageRequest.readable {r : StageRequest} (h : ∀ c ∈ r.closure, c.captured.Kept) :
    StageRequest.codec.Readable r := by
  cases hclosure : r.closure with
  | none =>
      refine Codec.readable_of_add 2 fun more => StageRequest.readsBack ?_
      rw [hclosure]
      nofun
  | some c =>
      refine Codec.readable_of_add (c.captured.nesting + 2) fun more => ?_
      have hexact : ∀ d ∈ r.closure, d.captured.Exact (more + c.captured.nesting) := by
        intro d hd
        obtain rfl : c = d := Option.some.inj (hclosure.symm.trans hd)
        exact (h c hclosure).exact (Nat.le_add_left _ more)
      exact StageRequest.readsBack hexact

/-! ## Durations -/

/-- So many whole milliseconds, and no more than 64 bits hold. -/
def Duration.Whole (d : Duration) : Prop := ∃ ms < Nat.pow 2 64, d = .ofMillis ms

theorem Duration.wholeMillis_ofMillis {ms : Nat} (h : ms < Nat.pow 2 64) :
    (Duration.ofMillis ms).wholeMillis = ms := by
  rw [wholeMillis, ofMillis, Nat.mul_div_cancel ms (by decide)]
  exact Nat.min_eq_left (Nat.le_sub_one_of_lt h)

/-- Whole milliseconds are what a request states of a duration, and all there is to it. -/
theorem Duration.Whole.wholeMillis_inj {d d' : Duration} (h : d.Whole) (h' : d'.Whole)
    (heq : d.wholeMillis = d'.wholeMillis) : d = d' := by
  obtain ⟨ms, hms, rfl⟩ := h
  obtain ⟨ms', hms', rfl⟩ := h'
  rw [wholeMillis_ofMillis hms, wholeMillis_ofMillis hms'] at heq
  rw [heq]

theorem Duration.Whole.millis_inj {d d' : Duration} (h : d.Whole) (h' : d'.Whole)
    (heq : Remote.millis d = Remote.millis d') : d = d' := by
  refine h.wholeMillis_inj h' ?_
  have hfits (d : Duration) : d.wholeMillis < 2 ^ 64 := by
    have hpow : 2 ^ 64 = Nat.pow 2 64 := rfl
    rw [wholeMillis, hpow]
    omega
  have hnat := congrArg UInt64.toNat heq
  rwa [Remote.millis, Remote.millis, UInt64.toNat_ofNat_of_lt' (hfits d),
    UInt64.toNat_ofNat_of_lt' (hfits d')] at hnat

/-! ## Addresses -/

namespace Remote

variable {base : String} {r r' : Request}

/-- The text is one segment of an address. -/
def Segment (s : String) : Prop := '/' ∉ s.toList

/-- Where the last segments of two addresses end, they begin. -/
theorem append_segment_inj {front front' last last' : List Char} (hlast : '/' ∉ last)
    (hlast' : '/' ∉ last') (h : front ++ '/' :: last = front' ++ '/' :: last') :
    front = front' ∧ last = last' := by
  rcases List.append_eq_append_iff.mp h with ⟨middle, rfl, hmiddle⟩ | ⟨middle, rfl, hmiddle⟩
  all_goals
    cases middle with
    | nil => simpa [eq_comm] using hmiddle
    | cons c middle =>
        obtain ⟨-, rfl⟩ := List.cons.inj hmiddle
        simp at hlast hlast'

@[inherit_doc append_segment_inj]
theorem segment_append_inj {first first' back back' : List Char} (hfirst : '/' ∉ first)
    (hfirst' : '/' ∉ first') (h : first ++ '/' :: back = first' ++ '/' :: back') :
    first = first' ∧ back = back' := by
  have hreverse : back.reverse ++ '/' :: first.reverse = back'.reverse ++ '/' :: first'.reverse := by
    simpa using congrArg List.reverse h
  obtain ⟨hback, hfirst⟩ := append_segment_inj (by simpa using hfirst) (by simpa using hfirst')
    hreverse
  exact ⟨List.reverse_inj.mp hfirst, List.reverse_inj.mp hback⟩

theorem flowUrl_toList (base : String) (flow : FlowId) (path : String) :
    (flowUrl base flow path).toList =
      (base.toList ++ "/v1/flows/".toList ++ flow.text.toList) ++ '/' :: path.toList := by
  simp [flowUrl, toString]

/-- The path behind the name of a flow by which a stage is waited for. -/
theorem awaitUrl_toList (base : String) (flow : FlowId) (stage : StageId) :
    (flowUrl base flow s!"stages/{stage}/await").toList =
      (base.toList ++ "/v1/flows/".toList ++
        (flow.text.toList ++ "/stages/".toList ++ stage.text.toList)) ++ '/' :: "await".toList := by
  rw [flowUrl_toList]
  simp [toString]

/-- The last segment of the address of a call. -/
def endpoint : Request → String
  | .createFlow _ => "flows"
  | .addStage .. => "stage"
  | .addCompleted .. => "value"
  | .addDelay .. => "delay"
  | .awaitStage .. => "await"
  | .addHook .. => "terminationHook"
  | .commit .. => "commit"

theorem segment_endpoint (r : Request) : Segment (endpoint r) := by
  cases r <;> simp only [Segment, endpoint] <;> decide

theorem url_endpoint (base : String) (hflow : r.flow?.isSome) : ∃ front,
    (request base r).url.toList = front ++ '/' :: (endpoint r).toList := by
  cases r with
  | createFlow function => cases hflow
  | awaitStage flow stage timeout => exact ⟨_, awaitUrl_toList base flow stage⟩
  | _ => exact ⟨_, flowUrl_toList base _ _⟩

/-- Calls with the same address are calls of the same kind. -/
theorem endpoint_eq (hflow : r.flow?.isSome) (hflow' : r'.flow?.isSome)
    (h : (request base r).url = (request base r').url) : endpoint r = endpoint r' := by
  obtain ⟨front, hfront⟩ := url_endpoint base hflow
  obtain ⟨front', hfront'⟩ := url_endpoint base hflow'
  rw [h, hfront'] at hfront
  exact String.toList_inj.mp
    (append_segment_inj (segment_endpoint r') (segment_endpoint r) hfront).2.symm

/-- What is sent to a flow is sent to this flow. -/
theorem post_inj {α : Type} {c : Codec α} {a a' : α} {flow flow' : FlowId} {path : String}
    (hpath : Segment path)
    (h : post (flowUrl base flow path) c a = post (flowUrl base flow' path) c a') :
    flow = flow' ∧ c.encode a = c.encode a' := by
  simp only [post, ServiceRequest.mk.injEq, Option.some.injEq] at h
  obtain ⟨-, hurl, -, hbody⟩ := h
  refine ⟨?_, hbody⟩
  have hlist := congrArg String.toList hurl
  rw [flowUrl_toList, flowUrl_toList] at hlist
  obtain ⟨hfront, -⟩ := append_segment_inj hpath hpath hlist
  exact congrArg FlowId.mk (String.toList_inj.mp (List.append_cancel_left hfront))

/-! ## The calls of a request -/

/-- A call that goes to a flow, and of which its request tells everything: what it captures is kept
by its text, and its durations are whole milliseconds. -/
def Stated : Request → Prop
  | .createFlow _ => False
  | .addStage _ r => ∀ c ∈ r.closure, c.captured.Kept
  | .addCompleted .. => True
  | .addDelay _ d => d.Whole
  | .awaitStage _ _ timeout => ∀ d ∈ timeout, d.Whole
  | .addHook _ c => c.captured.Kept
  | .commit .. => True

/-- The stage that a call waits for. -/
def awaited? : Request → Option StageId
  | .awaitStage _ stage _ => some stage
  | _ => none

/-- Calls that are the same, or that wait as long for stages whose two names make one text. -/
inductive Confusable : Request → Request → Prop
  | refl (r : Request) : Confusable r r
  | await {flow flow' : FlowId} {stage stage' : StageId} (timeout : Option Duration) :
      flow.text ++ "/stages/" ++ stage.text = flow'.text ++ "/stages/" ++ stage'.text →
      Confusable (.awaitStage flow stage timeout) (.awaitStage flow' stage' timeout)

theorem Stated.flow? (h : Stated r) : r.flow?.isSome := by
  cases r with
  | createFlow function => cases h
  | _ => rfl

theorem timeout_inj {timeout timeout' : Option Duration} (h : ∀ d ∈ timeout, d.Whole)
    (h' : ∀ d ∈ timeout', d.Whole)
    (heq : timeout.map Duration.wholeMillis = timeout'.map Duration.wholeMillis) :
    timeout = timeout' := by
  cases timeout with
  | none => exact (Option.map_eq_none_iff.mp heq.symm).symm
  | some d =>
      obtain ⟨d', rfl, hd⟩ := Option.map_eq_some_iff.mp heq.symm
      rw [(h' d' rfl).wholeMillis_inj (h d rfl) hd]

/-- Calls with the same request can only be confused in their names. -/
theorem confusable_of_request_eq (h : Stated r) (h' : Stated r')
    (heq : request base r = request base r') : Confusable r r' := by
  have hend : endpoint r = endpoint r' :=
    endpoint_eq h.flow? h'.flow? (congrArg ServiceRequest.url heq)
  have hsegment := segment_endpoint r
  -- The last segment leaves calls of one kind only.
  cases r with
  | createFlow function => cases h
  | addStage flow q =>
      cases r' with
      | addStage flow' q' =>
          obtain ⟨rfl, hbody⟩ := post_inj hsegment heq
          obtain rfl := (StageRequest.readable h).encode_inj (StageRequest.readable h') hbody
          exact .refl _
      | _ => simp [endpoint] at hend
  | addCompleted flow o =>
      cases r' with
      | addCompleted flow' o' =>
          obtain ⟨rfl, hbody⟩ := post_inj hsegment heq
          obtain rfl := o.single_readable.encode_inj o'.single_readable hbody
          exact .refl _
      | _ => simp [endpoint] at hend
  | addDelay flow d =>
      cases r' with
      | addDelay flow' d' =>
          obtain ⟨rfl, hbody⟩ := post_inj hsegment heq
          obtain rfl := Duration.Whole.millis_inj h h' ((UInt64.single_readable _).encode_inj
            (UInt64.single_readable _) hbody)
          exact .refl _
      | _ => simp [endpoint] at hend
  | awaitStage flow stage timeout =>
      cases r' with
      | awaitStage flow' stage' timeout' =>
          simp only [request, ServiceRequest.mk.injEq, true_and, and_true] at heq
          obtain ⟨hurl, htimeout⟩ := heq
          obtain rfl := timeout_inj h h' htimeout
          have hlist := congrArg String.toList hurl
          rw [awaitUrl_toList, awaitUrl_toList] at hlist
          obtain ⟨hfront, -⟩ := append_segment_inj hsegment hsegment hlist
          refine .await timeout (String.toList_inj.mp ?_)
          simpa using List.append_cancel_left hfront
      | _ => simp [endpoint] at hend
  | addHook flow c =>
      cases r' with
      | addHook flow' c' =>
          obtain ⟨rfl, hbody⟩ := post_inj hsegment heq
          obtain rfl := (Closure.single_readable h).encode_inj (Closure.single_readable h') hbody
          exact .refl _
      | _ => simp [endpoint] at hend
  | commit flow s =>
      cases r' with
      | commit flow' s' =>
          obtain ⟨rfl, hbody⟩ := post_inj hsegment heq
          obtain rfl := s.single_readable.encode_inj s'.single_readable hbody
          exact .refl _
      | _ => simp [endpoint] at hend

theorem Confusable.request_eq (h : Confusable r r') : request base r = request base r' := by
  cases h with
  | refl => rfl
  | @await flow other stage second timeout hnames =>
      have hurl : flowUrl base flow s!"stages/{stage}/await" =
          flowUrl base other s!"stages/{second}/await" := by
        refine String.toList_inj.mp ?_
        have hlist := congrArg String.toList hnames
        simp only [String.toList_append] at hlist
        rw [awaitUrl_toList, awaitUrl_toList, hlist]
      simp only [request, hurl]

/-- Names that are single segments, either those of both flows or those of both stages, are not
confused. -/
theorem Confusable.eq (h : Confusable r r')
    (hsegments : (∀ flow, r.flow? = some flow ∨ r'.flow? = some flow → Segment flow.text) ∨
      ∀ stage, awaited? r = some stage ∨ awaited? r' = some stage → Segment stage.text) :
    r = r' := by
  cases h with
  | refl => rfl
  | @await flow flow' stage stage' timeout hnames =>
      have hlist : flow.text.toList ++ '/' :: ("stages".toList ++ '/' :: stage.text.toList) =
          flow'.text.toList ++ '/' :: ("stages".toList ++ '/' :: stage'.text.toList) := by
        simpa using congrArg String.toList hnames
      obtain ⟨hflow, hstage⟩ : flow.text.toList = flow'.text.toList ∧
          stage.text.toList = stage'.text.toList := by
        rcases hsegments with hflows | hstages
        · obtain ⟨hflow, hrest⟩ := segment_append_inj (hflows flow (.inl rfl))
            (hflows flow' (.inr rfl)) hlist
          exact ⟨hflow, (List.cons.inj (List.append_cancel_left hrest)).2⟩
        · have hlast : (flow.text.toList ++ '/' :: "stages".toList) ++ '/' :: stage.text.toList =
              (flow'.text.toList ++ '/' :: "stages".toList) ++ '/' :: stage'.text.toList := by
            simpa using hlist
          obtain ⟨hfront, hstage⟩ := append_segment_inj (hstages stage (.inl rfl))
            (hstages stage' (.inr rfl)) hlast
          exact ⟨List.append_cancel_right hfront, hstage⟩
      have hflows : flow = flow' := congrArg FlowId.mk (String.toList_inj.mp hflow)
      have hstages : stage = stage' := congrArg StageId.mk (String.toList_inj.mp hstage)
      rw [hflows, hstages]

/-- What a request tells of the call that it has been made for, among the calls to a flow.
* Two calls make the same request, by method, address, query and body, if and only if they are the
  same, or both wait for a stage, as long as each other, and the names of their flows and stages are
  the same text once `/stages/` stands between them.
* So they are the same if the names of the flows, or those of the stages, are single segments of an
  address. -/
theorem request_identifies (base : String) (r r' : Request) (h : Stated r) (h' : Stated r') :
    (request base r = request base r' ↔ Confusable r r') ∧
      (((∀ flow, r.flow? = some flow ∨ r'.flow? = some flow → Segment flow.text) ∨
          ∀ stage, awaited? r = some stage ∨ awaited? r' = some stage → Segment stage.text) →
        request base r = request base r' → r = r') := by
  refine ⟨⟨confusable_of_request_eq h h', Confusable.request_eq⟩, ?_⟩
  intro hsegments heq
  exact (confusable_of_request_eq h h' heq).eq hsegments

/-- A flow whose name holds a slash shares its stages' addresses with another flow. -/
theorem request_identifies_slash :
    Stated (.awaitStage ⟨"a/stages/b"⟩ ⟨"c"⟩ none) ∧ Stated (.awaitStage ⟨"a"⟩ ⟨"b/stages/c"⟩ none) ∧
      request "http://server" (.awaitStage ⟨"a/stages/b"⟩ ⟨"c"⟩ none) =
        request "http://server" (.awaitStage ⟨"a"⟩ ⟨"b/stages/c"⟩ none) ∧
      Request.awaitStage ⟨"a/stages/b"⟩ ⟨"c"⟩ none ≠ .awaitStage ⟨"a"⟩ ⟨"b/stages/c"⟩ none := by
  have hstated (flow : FlowId) (stage : StageId) : Stated (.awaitStage flow stage none) := nofun
  refine ⟨hstated _ _, hstated _ _, ?_, ?_⟩
  · exact (request_identifies _ _ _ (hstated _ _) (hstated _ _)).1.mpr (.await none (by decide))
  · simp

end Remote

end StageGraph
