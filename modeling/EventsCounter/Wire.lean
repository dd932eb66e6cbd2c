import EventsCounter.EventAttribution
import EventsCounter.MonitorAlertText

/-!
# From the bytes of an event to the bytes of an alert

The pipeline with the texts that are really on the topics: the worker parses event payloads, the
counters topic holds what the writer wrote, the monitor's consumer parses and filters it, and the
alerts are the payloads of the monitor topic. RapidJSON is taken as documented (`Documented`).

Every run is one of `Pipeline` (`Refines`), where every call of `produce` is answered with
`ERR_NO_ERROR`: a message that librdkafka has refused, or the filter dropped, is one that is never
delivered there. So the statement about the accountant is one about bytes (`alerts_of_payloads`).
-/

namespace EventsCounter

open JsonText (Spells objectText)

/-- The uuid an event is counted for: the string under the key, up to its first NUL. -/
def eventUuid (parse : Parser) (jsonUuidKey payload : Bytes) : Option Bytes :=
  match (parse payload).bind fun json => json.child? jsonUuidKey with
  | some (.string content) => some (cStr content)
  | _ => none

structure Wiring where
  parse : Parser
  write : Writer
  jsonUuidKey : Bytes
  uuids : List Bytes
  limits : Counters
  period : UInt64
  offset : UInt64

structure Wire where
  counter : CounterSide
  /-- The counters topic. -/
  topic : List Bytes
  received : Option UUIDBytes
  monitor : UUIDCountersMonitor
  /-- The monitor topic, oldest first. -/
  alerts : List Bytes
  /-- What the monitor producer was given when librdkafka refused it, oldest first. -/
  refused : List UUIDBytes
  /-- The event payloads the worker has consumed, oldest first. -/
  events : List Bytes
  /-- The counter messages the filter has dropped, oldest first. -/
  dropped : List Bytes

inductive WireStep
  | event (payload : Bytes) (junk : Junk)
  | counter (l : CounterStep)
  | deliver (i : ℕ) (clock : Int64) (messageJunk junk : Junk)
  | check (now : UInt64) (produceRc : RdKafkaErrorCode)

/-- Steps of the counter side that the events do not take. -/
def CounterStep.ofMain : CounterStep → Bool
  | .count _ => false
  | _ => true

/-- The same step and the same call, answered with `ERR_NO_ERROR`. -/
def CounterStep.accept : CounterStep → CounterStep
  | .visit now _ => .visit now .errNoError
  | l => l

def ProduceCall.accept (call : ProduceCall) : ProduceCall := { call with produceRc := .errNoError }

def CounterSide.accept (s : CounterSide) : CounterSide := { s with calls := s.calls.map ProduceCall.accept }

/-- The text of a counter message. -/
def CounterMessage.text (write : Writer) (message : CounterMessage) : Bytes :=
  write (JSONCounterWritter.calls (.make message.uuid message.value) message.timestamp)

namespace Wire

def init (c : Wiring) : Wire :=
  ⟨.init c.uuids, [], none, ⟨⟨makeUuidCountersBoostrapDb c.uuids⟩, c.limits⟩, [], [], [], []⟩

/-- What some calls of `produce` put on the counters topic. -/
def texts (write : Writer) (calls : List ProduceCall) : List Bytes :=
  (calls.filter fun call => call.produceRc = .errNoError).map fun call => call.request.payload.text write

def step (c : Wiring) (w : Wire) : WireStep → Option Wire
  | .event payload junk =>
    match KafkaJSONUUIDConsumer.consume c.parse c.jsonUuidKey payload junk with
    | .ok data => some { w with counter := w.counter.run data, events := w.events ++ [payload] }
    | _ => none
  | .counter l =>
    if l.ofMain then
      (CounterSide.step c.uuids w.counter l).map fun counter =>
        { w with counter, topic := w.topic ++ texts c.write (w.counter.sends l) }
    else none
  | .deliver i clock messageJunk junk =>
    match w.received, w.topic[i]? with
    | none, some text =>
      match KafkaJSONCounterConsumer.consumePayload c.parse c.period c.offset text clock messageJunk junk with
      | .ok uuidBytes =>
        some (if uuidBytes.isEmpty then { w with topic := w.topic.eraseIdx i, dropped := w.dropped ++ [text] }
          else { w with topic := w.topic.eraseIdx i, received := some uuidBytes })
      | _ => none
    | _, _ => none
  | .check now produceRc =>
    match w.received with
    | some uuidBytes =>
      let (alert, monitor) := w.monitor.check uuidBytes.uuid uuidBytes.bytes
      let w := { w with received := none, monitor }
      some (
        if alert then
          let (request, _) := KafkaMonitorProducer.produce c.write uuidBytes now produceRc
          if produceRc = .errNoError then { w with alerts := w.alerts ++ [request.payload] }
          else { w with refused := w.refused ++ [uuidBytes] }
        else w)
    | none => none

/-- What is taken of RapidJSON: the writer writes an object of scalars as text, and the parser reads
every JSON text. -/
structure Documented (c : Wiring) (escape : UInt8 → Bytes) (double : Bytes → Option UInt64) : Prop where
  spells : ∀ b, Spells b (escape b)
  writes : ∀ ms, c.write (objectCalls ms) = objectText escape ms
  parses : ∀ text v, JsonText.document double text = some v → c.parse text = some v

/-- The bytes of the events of `u`. -/
def eventBytes (c : Wiring) (u : Bytes) (w : Wire) : ℕ :=
  Tally.tally (eventUuid c.parse c.jsonUuidKey) List.length (some u) w.events

def IsAlertFor (c : Wiring) (u : Bytes) (text : Bytes) : Prop :=
  ∃ counter now, counter.uuid = u ∧ c.parse text = some (JSONMonitorWritter.json counter now)

/-- Nothing of `u` is left on its way to the monitor, and none of its messages and alerts has been refused
or dropped. -/
structure Drained (c : Wiring) (u : Bytes) (w : Wire) : Prop where
  table : amount w.counter.db.counters u = 0
  round : w.counter.toWalk u = 0
  accepted : ∀ call ∈ w.counter.calls, call.request.payload.uuid = u → call.produceRc = .errNoError
  topic : ∀ message : CounterMessage, message.text c.write ∈ w.topic → message.uuid ≠ u
  dropped : ∀ message : CounterMessage, message.text c.write ∈ w.dropped → message.uuid ≠ u
  received : ∀ d, w.received = some d → d.uuid ≠ u
  refused : ∀ a ∈ w.refused, a.uuid ≠ u

variable {c : Wiring} {escape : UInt8 → Bytes} {double : Bytes → Option UInt64} {w w' : Wire} {p : Pipeline} {u : Bytes}
  {payload text : Bytes} {message : CounterMessage} {junk messageJunk : Junk} {l : WireStep}

/-! ### Events -/

/-- The value an event is counted as. -/
def eventData (c : Wiring) (payload : Bytes) : Option UUIDBytes :=
  (eventUuid c.parse c.jsonUuidKey payload).map fun u => .make u (UInt64.ofNat payload.length)

theorem consume_event (hkey : 0 ∉ c.jsonUuidKey) :
    KafkaJSONUUIDConsumer.consume c.parse c.jsonUuidKey payload junk =
      .ok ((eventData c payload).getD (UUIDBytes.none junk.bytes junk.timestamp)) := by
  by_cases hcarries : ∃ content, KafkaJSONUUIDConsumer.Carries c.parse c.jsonUuidKey payload content
  · obtain ⟨content, hcontent⟩ := hcarries
    rw [KafkaJSONUUIDConsumer.consume_of_carries hkey hcontent]
    obtain ⟨json, hjson, hchild⟩ := hcontent
    simp [eventData, eventUuid, hjson, hchild]
  · push Not at hcarries
    rw [KafkaJSONUUIDConsumer.consume_of_carries_none hkey hcarries]
    have hnone : eventUuid c.parse c.jsonUuidKey payload = none := by
      unfold eventUuid
      split
      · obtain ⟨json, hjson, hchild⟩ := Option.bind_eq_some_iff.1 ‹_›
        exact absurd ⟨json, hjson, hchild⟩ (hcarries _)
      · rfl
    rw [eventData, hnone]
    rfl

theorem counted_run (s : CounterSide) :
    (s.run ((eventData c payload).getD (UUIDBytes.none junk.bytes junk.timestamp))).counted =
      s.counted ++ (eventData c payload).toList := by
  unfold eventData
  cases eventUuid c.parse c.jsonUuidKey payload with
  | none => simp [CounterSide.run, UUIDBytes.none]
  | some u => simp [CounterSide.run, UUIDBytes.make]

/-- What is counted for `u` is the length of its events, as long as all of them fit in a word. -/
theorem countedBytes_eq (h : w.counter.counted = w.events.filterMap (eventData c)) (hlt : eventBytes c u w < 2 ^ 64) :
    w.counter.countedBytes u = eventBytes c u w := by
  have hwords : Tally.tally UUIDBytes.uuid (fun d => d.bytes.toNat) u (w.events.filterMap (eventData c)) =
      Tally.tally (eventUuid c.parse c.jsonUuidKey) (fun e => (UInt64.ofNat e.length).toNat) (some u) w.events := by
    induction w.events with
    | nil => rfl
    | cons e events ih =>
      rw [Tally.tally_cons, ← ih, List.filterMap_cons]
      cases he : eventUuid c.parse c.jsonUuidKey e with
      | none => simp [eventData, he]
      | some k => simp [eventData, he, UUIDBytes.make]
  rw [CounterSide.countedBytes, h, hwords]
  refine Tally.tally_congr_amount fun e he hu => ?_
  have hle := Tally.le_tally (eventUuid c.parse c.jsonUuidKey) List.length he
  rw [hu] at hle
  exact UInt64.toNat_ofNat_of_lt' (lt_of_le_of_lt hle hlt)

/-! ### Counter messages and alerts -/

theorem parse_text (hd : Documented c escape double) (message : CounterMessage) :
    c.parse (message.text c.write) = some (.object ((JSONCounterWritter.members
      (.make message.uuid message.value) message.timestamp).map fun m => (m.1, m.2.toJson))) :=
  hd.parses _ _ (KafkaJSONCounterConsumer.document_calls hd.spells hd.writes double _ _)

/-- A counter message is what the consumer makes of its text, unless the filter drops it. -/
theorem consumePayload_text (hd : Documented c escape double) (hperiod : c.period ≠ 0) (hnul : 0 ∉ message.uuid)
    (clock : Int64) :
    KafkaJSONCounterConsumer.consumePayload c.parse c.period c.offset (message.text c.write) clock messageJunk junk =
      .ok (consume c.period c.offset ⟨some (decode message), clock, junk.bytes, junk.timestamp⟩) := by
  refine KafkaJSONCounterConsumer.consumePayload_of_ok hperiod ?_
  rw [parse_text hd, KafkaJSONCounterConsumer.getMessageUuidBytes_of_fields
    (KafkaJSONCounterConsumer.fields_members (.make message.uuid message.value) message.timestamp)]
  rw [KafkaJSONCounterConsumer.getUint64_number, Outcome.ok_bind, KafkaJSONCounterConsumer.getUint64_number,
    Outcome.ok_bind]
  exact congrArg (fun uuid => Outcome.ok (UUIDBytes.make uuid message.value message.timestamp))
    (cStr_eq_self_iff.2 hnul)

theorem isAlertFor_iff (hd : Documented c escape double) (a : UUIDBytes) (now : UInt64) (produceRc : RdKafkaErrorCode) :
    IsAlertFor c u (KafkaMonitorProducer.produce c.write a now produceRc).1.payload ↔ a.uuid = u := by
  have hparse := hd.parses _ _ (@KafkaMonitorProducer.document_produce c.write escape double hd.spells hd.writes a now
    produceRc)
  constructor
  · rintro ⟨counter, now', rfl, hcounter⟩
    rw [hparse] at hcounter
    have hmember : (JSONMonitorWritter.json a now).child? (lit "uuid") =
        (JSONMonitorWritter.json counter now').child? (lit "uuid") :=
      congrArg (Json.child? · (lit "uuid")) (Option.some.inj hcounter)
    have hstring : some (Json.string a.uuid) = some (Json.string counter.uuid) := hmember
    exact Json.string.inj (Option.some.inj hstring)
  · intro hu
    exact ⟨a, now, hu, hparse⟩

/-! ### What a step can do -/

theorem step_cases (hkey : 0 ∉ c.jsonUuidKey) (h : step c w l = some w') :
    (∃ payload junk, l = .event payload junk ∧ w' =
      { w with
        counter := w.counter.run ((eventData c payload).getD (UUIDBytes.none junk.bytes junk.timestamp))
        events := w.events ++ [payload] }) ∨
    (∃ cl counter, l = .counter cl ∧ cl.ofMain = true ∧ CounterSide.step c.uuids w.counter cl = some counter ∧
      w' = { w with counter, topic := w.topic ++ texts c.write (w.counter.sends cl) }) ∨
    (∃ i clock messageJunk junk text uuidBytes, l = .deliver i clock messageJunk junk ∧ w.received = none ∧
      w.topic[i]? = some text ∧
      KafkaJSONCounterConsumer.consumePayload c.parse c.period c.offset text clock messageJunk junk = .ok uuidBytes ∧
      w' = if uuidBytes.isEmpty then { w with topic := w.topic.eraseIdx i, dropped := w.dropped ++ [text] }
        else { w with topic := w.topic.eraseIdx i, received := some uuidBytes }) ∨
    (∃ now rc d, l = .check now rc ∧ w.received = some d ∧ w' =
      if (w.monitor.check d.uuid d.bytes).1 then
        if rc = .errNoError then
          { w with
            received := none
            monitor := (w.monitor.check d.uuid d.bytes).2
            alerts := w.alerts ++ [(KafkaMonitorProducer.produce c.write d now rc).1.payload] }
        else
          { w with
            received := none
            monitor := (w.monitor.check d.uuid d.bytes).2
            refused := w.refused ++ [d] }
      else { w with received := none, monitor := (w.monitor.check d.uuid d.bytes).2 }) := by
  cases l with
  | event payload junk =>
    simp only [step, consume_event hkey, Option.some.injEq] at h
    exact .inl ⟨payload, junk, rfl, h.symm⟩
  | counter cl =>
    simp only [step] at h
    split at h
    · obtain ⟨counter, hc, rfl⟩ := Option.map_eq_some_iff.1 h
      exact .inr (.inl ⟨cl, counter, rfl, ‹_›, hc, rfl⟩)
    · cases h
  | deliver i clock messageJunk junk =>
    simp only [step] at h
    split at h
    · split at h
      · exact .inr (.inr (.inl ⟨i, clock, messageJunk, junk, _, _, rfl, ‹_›, ‹_›, ‹_›, (Option.some.inj h).symm⟩))
      · cases h
    · cases h
  | check now rc =>
    simp only [step] at h
    split at h
    · exact .inr (.inr (.inr ⟨now, rc, _, rfl, ‹_›, (Option.some.inj h).symm⟩))
    · cases h

/-! ### Answers of librdkafka -/

theorem visitEntry_accept (e : Bytes × UInt64) (now : UInt64) (rc : RdKafkaErrorCode) :
    (visitEntry e now .errNoError).1 = (visitEntry e now rc).1 ∧
      (visitEntry e now .errNoError).2 = (visitEntry e now rc).2.map ProduceCall.accept := by
  unfold visitEntry
  split <;> exact ⟨rfl, rfl⟩

/-- `main` does not look at the answers. -/
theorem step_accept {s s' : CounterSide} {l : CounterStep} (h : CounterSide.step c.uuids s l = some s') :
    CounterSide.step c.uuids s.accept l.accept = some s'.accept := by
  rcases CounterSide.step_cases h with ⟨data, rfl, hempty, rfl⟩ | ⟨data, rfl, hempty, rfl⟩ | ⟨rfl, hround, rfl⟩ |
    ⟨fresh, rfl, hround, rfl⟩ | ⟨now, rc, walked, e, pending, rfl, hround, rfl⟩ | ⟨walked, rfl, hround, rfl⟩
  · simp [CounterStep.accept, CounterSide.step, CounterSide.run, hempty]
  · simp [CounterStep.accept, CounterSide.step, CounterSide.run, CounterSide.accept, hempty]
  · simp [CounterStep.accept, CounterSide.step, CounterSide.accept, hround]
  · simp [CounterStep.accept, CounterSide.step, CounterSide.accept, hround, UUIDCountersDB.swap]
  · obtain ⟨hentry, hcalls⟩ := visitEntry_accept e now rc
    simp [CounterStep.accept, CounterSide.step, CounterSide.accept, hround, hentry, hcalls]
  · simp [CounterStep.accept, CounterSide.step, CounterSide.accept, hround]

theorem sends_accept (s : CounterSide) (l : CounterStep) :
    s.accept.sends l.accept = (s.sends l).map ProduceCall.accept := by
  unfold CounterSide.sends CounterSide.accept
  cases l with
  | visit now rc =>
    cases s.round with
    | idle => rfl
    | built fresh => rfl
    | walking walked pending =>
      cases pending with
      | nil => rfl
      | cons e pending => exact (visitEntry_accept e now rc).2
  | count data | build | swap | leave => rfl

/-! ### The wire and the pipeline -/

/-- The messages of the calls that librdkafka has refused. -/
def refusedMessages (calls : List ProduceCall) : List CounterMessage :=
  (calls.filter fun call => !decide (call.produceRc = .errNoError)).map fun call => call.request.payload

/-- The messages behind the texts: those on the topic, and those that will not get there any more. -/
structure Refines (c : Wiring) (w : Wire) (p : Pipeline) : Prop where
  counter : p.counter = w.counter.accept
  topic : ∃ live lost : List CounterMessage, w.topic = live.map (CounterMessage.text c.write) ∧
    w.dropped = lost.map (CounterMessage.text c.write) ∧
    p.topic.Perm (live ++ lost ++ refusedMessages w.counter.calls)
  uuids : ∀ message ∈ p.topic, message.uuid ∈ c.uuids
  received : p.received = w.received
  monitor : p.monitor = w.monitor
  alerts : ∃ sent, List.Forall₂
      (fun text a => ∃ now rc, text = (KafkaMonitorProducer.produce c.write a now rc).1.payload) w.alerts sent ∧
    p.alerts.Perm (sent ++ w.refused)
  events : w.counter.counted = w.events.filterMap (eventData c)

theorem refines_init : Refines c (init c) (.init c.uuids c.limits) := by
  refine ⟨rfl, ⟨[], [], rfl, rfl, List.Perm.refl _⟩, ?_, rfl, rfl, ⟨[], List.Forall₂.nil, List.Perm.refl _⟩, rfl⟩
  intro message hm
  cases hm

theorem refines_event (hR : Refines c w p) (payload : Bytes) (junk : Junk) :
    ∃ p', Pipeline.step c.uuids p
        (.counter (.count ((eventData c payload).getD (UUIDBytes.none junk.bytes junk.timestamp)))) = some p' ∧
      Refines c { w with
        counter := w.counter.run ((eventData c payload).getD (UUIDBytes.none junk.bytes junk.timestamp))
        events := w.events ++ [payload] } p' := by
  have hcalls : ∀ data, (w.counter.run data).calls = w.counter.calls := fun data => by
    unfold CounterSide.run
    split <;> rfl
  have haccept : ∀ data, w.counter.accept.run data = (w.counter.run data).accept := fun data => by
    unfold CounterSide.run
    split <;> rfl
  refine ⟨_, rfl, ⟨?_, ?_, ?_, hR.received, hR.monitor, hR.alerts, ?_⟩⟩
  · show p.counter.run _ = _
    rw [hR.counter, haccept]
  · simpa [CounterSide.sends, hcalls] using hR.topic
  · simpa [CounterSide.sends] using hR.uuids
  · show (w.counter.run _).counted = _
    rw [counted_run, hR.events, List.filterMap_append]
    cases heventData : eventData c payload <;> simp [heventData]

/-- A message goes to the topic or among the refused ones. -/
theorem messages_perm {topic live lost : List CounterMessage} {calls calls' : List ProduceCall}
    (h : topic.Perm (live ++ lost ++ refusedMessages calls)) :
    (topic ++ calls'.map fun call => call.request.payload).Perm
      ((live ++ (calls'.filter fun call => call.produceRc = .errNoError).map fun call => call.request.payload) ++
        lost ++ refusedMessages (calls ++ calls')) := by
  have hsplit := (List.filter_append_perm (fun call : ProduceCall => decide (call.produceRc = .errNoError)) calls').map
    fun call => call.request.payload
  rw [List.map_append] at hsplit
  refine List.perm_iff_count.2 fun message => ?_
  have hcount := h.count_eq message
  have hsplit' := hsplit.count_eq message
  simp only [refusedMessages, List.filter_append, List.map_append, List.count_append] at hcount hsplit' ⊢
  omega

theorem refines_counter (hi : p.counter.Inv c.uuids) (hR : Refines c w p) {cl : CounterStep} {counter : CounterSide}
    (hmain : cl.ofMain = true) (hc : CounterSide.step c.uuids w.counter cl = some counter) :
    ∃ p', Pipeline.step c.uuids p (.counter cl.accept) = some p' ∧
      Refines c { w with counter, topic := w.topic ++ texts c.write (w.counter.sends cl) } p' := by
  have hstep : CounterSide.step c.uuids p.counter cl.accept = some counter.accept := hR.counter ▸ step_accept hc
  have hpayloads : (p.counter.sends cl.accept).map (fun call => call.request.payload) =
      (w.counter.sends cl).map fun call => call.request.payload := by
    rw [hR.counter, sends_accept, List.map_map]
    rfl
  have haccepted : cl.accept.accepted := by cases cl <;> trivial
  have hcounted : counter.counted = w.counter.counted := by
    rcases CounterSide.step_cases hc with ⟨data, rfl, -, rfl⟩ | ⟨data, rfl, -, rfl⟩ | ⟨-, -, rfl⟩ | ⟨fresh, -, -, rfl⟩ |
      ⟨now, rc, walked, e, pending, -, -, rfl⟩ | ⟨walked, -, -, rfl⟩
    · cases hmain
    · cases hmain
    all_goals rfl
  refine ⟨{ p with counter := counter.accept, topic := p.topic ++ (p.counter.sends cl.accept).map fun call =>
    call.request.payload }, ?_, ⟨rfl, ?_, ?_, hR.received, hR.monitor, hR.alerts, hcounted.trans hR.events⟩⟩
  · rw [Pipeline.step, if_pos haccepted, hstep]
    rfl
  · obtain ⟨live, lost, hlive, hlost, hperm⟩ := hR.topic
    refine ⟨live ++ ((w.counter.sends cl).filter fun call => call.produceRc = .errNoError).map fun call =>
      call.request.payload, lost, ?_, hlost, ?_⟩
    · simp [hlive, texts]
    · show (p.topic ++ _).Perm (_ ++ refusedMessages counter.calls)
      rw [hpayloads, CounterSide.calls_eq_append_sends hc]
      exact messages_perm hperm
  · intro message hm
    rcases List.mem_append.1 hm with hm | hm
    · exact hR.uuids message hm
    · obtain ⟨call, hcall, rfl⟩ := List.mem_map.1 hm
      obtain ⟨now, hrequest⟩ := Pipeline.sends_made _ _ call hcall
      rw [hrequest]
      refine ((CounterSide.inv_step hi hstep).calls call ?_).1
      rw [CounterSide.calls_eq_append_sends hstep]
      exact List.mem_append_right _ hcall

theorem cons_eraseIdx_perm {messages : List CounterMessage} {i : ℕ} (h : messages[i]? = some message) :
    (message :: messages.eraseIdx i).Perm messages := by
  obtain ⟨hi, hget⟩ := List.getElem?_eq_some_iff.1 h
  exact hget ▸ List.getElem_cons_eraseIdx_perm hi

/-- A dropped message stays behind in the pipeline. -/
theorem messages_dropped_perm {topic live lost refused : List CounterMessage} {i : ℕ}
    (h : topic.Perm (live ++ lost ++ refused)) (hi : live[i]? = some message) :
    topic.Perm (live.eraseIdx i ++ (lost ++ [message]) ++ refused) := by
  refine List.perm_iff_count.2 fun m => ?_
  have hcount := h.count_eq m
  have hlive := (cons_eraseIdx_perm hi).count_eq m
  simp only [List.count_append, List.count_cons, List.count_nil] at hcount hlive ⊢
  omega

theorem messages_received_perm {topic live lost refused : List CounterMessage} {i j : ℕ}
    (h : topic.Perm (live ++ lost ++ refused)) (hi : live[i]? = some message) (hj : topic[j]? = some message) :
    (topic.eraseIdx j).Perm (live.eraseIdx i ++ lost ++ refused) := by
  refine List.perm_iff_count.2 fun m => ?_
  have hcount := h.count_eq m
  have hlive := (cons_eraseIdx_perm hi).count_eq m
  have htopic := (cons_eraseIdx_perm hj).count_eq m
  simp only [List.count_append, List.count_cons] at hcount hlive htopic ⊢
  omega

theorem refines_deliver (hd : Documented c escape double) (hperiod : c.period ≠ 0) (huuids : ∀ u ∈ c.uuids, 0 ∉ u)
    (hR : Refines c w p) {i : ℕ} {clock : Int64} {uuidBytes : UUIDBytes} (hreceived : w.received = none)
    (htext : w.topic[i]? = some text)
    (hok : KafkaJSONCounterConsumer.consumePayload c.parse c.period c.offset text clock messageJunk junk =
      .ok uuidBytes) :
    ∃ ks p', Runs.run (Pipeline.step c.uuids) p ks = some p' ∧ Refines c
      (if uuidBytes.isEmpty then { w with topic := w.topic.eraseIdx i, dropped := w.dropped ++ [text] }
        else { w with topic := w.topic.eraseIdx i, received := some uuidBytes }) p' := by
  obtain ⟨live, lost, hlive, hlost, hperm⟩ := hR.topic
  rw [hlive, List.getElem?_map] at htext
  obtain ⟨message, hmessage, rfl⟩ := Option.map_eq_some_iff.1 htext
  have hmem : message ∈ p.topic := hperm.mem_iff.2 (by simp [List.mem_of_getElem? hmessage])
  have herase : w.topic.eraseIdx i = (live.eraseIdx i).map (CounterMessage.text c.write) := by
    rw [hlive, List.eraseIdx_map]
  rw [consumePayload_text hd hperiod (huuids _ (hR.uuids _ hmem))] at hok
  cases hempty : uuidBytes.isEmpty with
  | true =>
    -- what is dropped is never delivered
    refine ⟨[], p, rfl, ⟨hR.counter, ⟨live.eraseIdx i, lost ++ [message], herase, ?_,
      messages_dropped_perm hperm hmessage⟩, hR.uuids, hR.received, hR.monitor, hR.alerts, hR.events⟩⟩
    simp [hlost]
  | false =>
    obtain ⟨hsome, -, -⟩ := consume_nonempty_iff.1 ⟨Outcome.ok.inj hok, hempty⟩
    obtain rfl : decode message = uuidBytes := Option.some.inj hsome
    obtain ⟨j, hj⟩ := List.getElem?_of_mem hmem
    have hstep : Pipeline.step c.uuids p (.deliver j) =
        some { p with topic := p.topic.eraseIdx j, received := some (decode message) } := by
      simp only [Pipeline.step, hR.received, hreceived, hj]
    refine ⟨[.deliver j], { p with topic := p.topic.eraseIdx j, received := some (decode message) },
      by rw [Runs.run_cons, hstep]; rfl,
      ⟨hR.counter, ⟨live.eraseIdx i, lost, herase, hlost, messages_received_perm hperm hmessage hj⟩, ?_, rfl,
        hR.monitor, hR.alerts, hR.events⟩⟩
    intro message' hm
    exact hR.uuids message' (List.mem_of_mem_eraseIdx hm)

theorem refines_check (hR : Refines c w p) {d : UUIDBytes} (hreceived : w.received = some d) (now : UInt64)
    (rc : RdKafkaErrorCode) :
    ∃ p', Pipeline.step c.uuids p .check = some p' ∧ Refines c
      (if (w.monitor.check d.uuid d.bytes).1 then
        if rc = .errNoError then
          { w with
            received := none
            monitor := (w.monitor.check d.uuid d.bytes).2
            alerts := w.alerts ++ [(KafkaMonitorProducer.produce c.write d now rc).1.payload] }
        else
          { w with
            received := none
            monitor := (w.monitor.check d.uuid d.bytes).2
            refused := w.refused ++ [d] }
      else { w with received := none, monitor := (w.monitor.check d.uuid d.bytes).2 }) p' := by
  obtain ⟨sent, hsent, hperm⟩ := hR.alerts
  refine ⟨{ p with
    received := none
    monitor := (w.monitor.check d.uuid d.bytes).2
    alerts := if (w.monitor.check d.uuid d.bytes).1 then p.alerts ++ [d] else p.alerts }, ?_, ?_⟩
  · simp only [Pipeline.step, hR.received, hreceived, hR.monitor]
  cases halert : (w.monitor.check d.uuid d.bytes).1 with
  | false => exact ⟨hR.counter, hR.topic, hR.uuids, rfl, rfl, ⟨sent, hsent, hperm⟩, hR.events⟩
  | true =>
    simp only [if_true]
    split
    · refine ⟨hR.counter, hR.topic, hR.uuids, rfl, rfl,
        ⟨sent ++ [d], List.rel_append hsent (.cons ⟨now, rc, rfl⟩ .nil), ?_⟩, hR.events⟩
      rw [List.append_assoc]
      exact (hperm.append_right _).trans (by rw [List.append_assoc]; exact List.perm_append_comm.append_left _)
    · refine ⟨hR.counter, hR.topic, hR.uuids, rfl, rfl, ⟨sent, hsent, ?_⟩, hR.events⟩
      rw [← List.append_assoc]
      exact hperm.append_right _

theorem refines_run (hd : Documented c escape double) (hperiod : c.period ≠ 0) (huuids : ∀ u ∈ c.uuids, 0 ∉ u)
    (hkey : 0 ∉ c.jsonUuidKey) {ls : List WireStep} (h : Runs.run (step c) (init c) ls = some w) :
    ∃ ks p, Runs.run (Pipeline.step c.uuids) (.init c.uuids c.limits) ks = some p ∧ Refines c w p := by
  refine Runs.run_induction (P := fun _ w => ∃ ks p,
    Runs.run (Pipeline.step c.uuids) (.init c.uuids c.limits) ks = some p ∧ Refines c w p)
    ⟨[], _, rfl, refines_init⟩ ?_ h
  rintro _ w l w' ⟨ks, p, hks, hR⟩ hl
  have hone {pl : PipelineStep} (hstep : ∃ p', Pipeline.step c.uuids p pl = some p' ∧ Refines c w' p') :
      ∃ ks p, Runs.run (Pipeline.step c.uuids) (.init c.uuids c.limits) ks = some p ∧ Refines c w' p := by
    obtain ⟨p', hp', hR'⟩ := hstep
    exact ⟨ks ++ [pl], p', (Runs.run_snoc_iff pl).2 ⟨p, hks, hp'⟩, hR'⟩
  rcases step_cases hkey hl with ⟨payload, junk, -, rfl⟩ | ⟨cl, counter, -, hmain, hc, rfl⟩ |
    ⟨i, clock, messageJunk, junk, text, uuidBytes, -, hreceived, htext, hok, rfl⟩ | ⟨now, rc, d, -, hreceived, rfl⟩
  · exact hone (refines_event hR payload junk)
  · exact hone (refines_counter (Pipeline.inv_run hks).counter hR hmain hc)
  · obtain ⟨ks', p', hks', hR'⟩ := refines_deliver hd hperiod huuids hR hreceived htext hok
    refine ⟨ks ++ ks', p', ?_, hR'⟩
    rw [Runs.run_append, hks]
    exact hks'
  · exact hone (refines_check hR hreceived now rc)

/-! ### In and out -/

/-- The pipeline's alerts are those on the monitor topic and those that have been refused. -/
theorem exists_alert_iff (hd : Documented c escape double) (hR : Refines c w p) :
    (∃ a ∈ p.alerts, a.uuid = u) ↔ (∃ text ∈ w.alerts, IsAlertFor c u text) ∨ ∃ a ∈ w.refused, a.uuid = u := by
  obtain ⟨sent, hboth, hperm⟩ := hR.alerts
  have hsent : (∃ text ∈ w.alerts, IsAlertFor c u text) ↔ ∃ a ∈ sent, a.uuid = u := by
    generalize w.alerts = texts at hboth
    clear hperm
    induction hboth with
    | nil => simp
    | cons h _ ih =>
      obtain ⟨now, rc, rfl⟩ := h
      simp only [List.mem_cons, exists_eq_or_imp, isAlertFor_iff hd, ih]
  rw [hsent]
  simp only [hperm.mem_iff, List.mem_append, or_and_right, exists_or]

/-- Nothing of `u` is on its way in the pipeline either. -/
theorem Drained.inFlight_eq_zero (hdrained : Drained c u w) (hR : Refines c w p) : Pipeline.inFlight u p = 0 := by
  obtain ⟨live, lost, hlive, hlost, hperm⟩ := hR.topic
  have htopic : Tally.tally CounterMessage.uuid (fun m => m.value.toNat) u p.topic = 0 := by
    refine Tally.tally_eq_zero fun message hm hu => ?_
    rcases List.mem_append.1 (hperm.mem_iff.1 hm) with hm | hm
    · rcases List.mem_append.1 hm with hm | hm
      · exact absurd hu (hdrained.topic message (hlive ▸ List.mem_map_of_mem hm))
      · exact absurd hu (hdrained.dropped message (hlost ▸ List.mem_map_of_mem hm))
    · obtain ⟨call, hcall, rfl⟩ := List.mem_map.1 hm
      obtain ⟨hcall, hrc⟩ := List.mem_filter.1 hcall
      simp [hdrained.accepted call hcall hu] at hrc
  have hreceived : Tally.tally UUIDBytes.uuid (fun d => d.bytes.toNat) u p.received.toList = 0 := by
    refine Tally.tally_eq_zero fun d hd hu => ?_
    rw [hR.received, Option.mem_toList] at hd
    exact absurd hu (hdrained.received d hd)
  rw [Pipeline.inFlight, htopic, hreceived]

/-- Whatever the interleaving, whatever the payloads and whatever librdkafka answers: an alert text for
`u` on the monitor topic means that the event payloads that are counted for `u` are longer together than
its limit; and once nothing of `u` is left on the way, and none of its messages and alerts has been
refused or dropped, there is one if they are. -/
theorem alerts_of_payloads (c : Wiring) (escape : UInt8 → Bytes) (double : Bytes → Option UInt64)
    (hd : Documented c escape double) (hperiod : c.period ≠ 0) (huuids : ∀ u ∈ c.uuids, 0 ∉ u)
    (hkey : 0 ∉ c.jsonUuidKey) (ls : List WireStep) (w : Wire) (h : Runs.run (step c) (init c) ls = some w) (u : Bytes) (hu : u ∈ c.uuids)
    (hlt : eventBytes c u w < 2 ^ 64) :
    ((∃ text ∈ w.alerts, IsAlertFor c u text) → ∃ l, c.limits[u]? = some l ∧ l.toNat < eventBytes c u w) ∧
    (Drained c u w →
      ((∃ text ∈ w.alerts, IsAlertFor c u text) ↔ ∃ l, c.limits[u]? = some l ∧ l.toNat < eventBytes c u w)) := by
  obtain ⟨ks, p, hks, hR⟩ := refines_run hd hperiod huuids hkey h
  have hi := Pipeline.inv_run hks
  have hcounted : p.counter.countedBytes u = eventBytes c u w := by
    rw [hR.counter]
    exact countedBytes_eq hR.events hlt
  have hexceeds : p.accountant.Exceeds c.limits u ↔ ∃ l, c.limits[u]? = some l ∧ l.toNat < eventBytes c u w := by
    rw [Accountant.Exceeds, Pipeline.total_accountant, hcounted]
  rw [← hexceeds]
  refine ⟨fun halert => hi.exceeds_of_alert hu (hcounted ▸ hlt) ((exists_alert_iff hd hR).2 (.inl halert)), ?_⟩
  intro hdrained
  have hnone : ¬ ∃ a ∈ w.refused, a.uuid = u := fun ⟨a, ha, hau⟩ => hdrained.refused a ha hau
  rw [← or_iff_left hnone (a := ∃ text ∈ w.alerts, IsAlertFor c u text), ← exists_alert_iff hd hR]
  refine hi.alert_iff_exceeds hu (hcounted ▸ hlt) ?_ ?_ (hdrained.inFlight_eq_zero hR)
  · rw [hR.counter]
    exact hdrained.table
  · rw [hR.counter]
    exact hdrained.round

/-- Whatever the payloads of the events are, the worker reads them; and the counter consumer reads
whatever is on the counters topic, at any clock. Neither call is ever undefined. -/
theorem consumers_defined (c : Wiring) (escape : UInt8 → Bytes) (double : Bytes → Option UInt64)
    (hd : Documented c escape double) (hperiod : c.period ≠ 0) (huuids : ∀ u ∈ c.uuids, 0 ∉ u)
    (hkey : 0 ∉ c.jsonUuidKey) (ls : List WireStep) (w : Wire) (h : Runs.run (step c) (init c) ls = some w) :
    (∀ payload junk, (step c w (.event payload junk)).isSome) ∧
    ∀ i text, w.topic[i]? = some text → w.received = none → ∀ clock messageJunk junk,
      ∃ message : CounterMessage, text = message.text c.write ∧ message.uuid ∈ c.uuids ∧
        step c w (.deliver i clock messageJunk junk) = some
          (if intervalStart c.period c.offset (systemSeconds clock) ≤ message.timestamp then
            { w with topic := w.topic.eraseIdx i, received := some (decode message) }
          else { w with topic := w.topic.eraseIdx i, dropped := w.dropped ++ [text] }) := by
  obtain ⟨ks, p, hks, hR⟩ := refines_run hd hperiod huuids hkey h
  refine ⟨fun payload junk => by simp [step, consume_event hkey], ?_⟩
  intro i text htext hreceived clock messageJunk junk
  obtain ⟨live, lost, hlive, -, hperm⟩ := hR.topic
  have hmapped := htext
  rw [hlive, List.getElem?_map] at hmapped
  obtain ⟨message, hmessage, rfl⟩ := Option.map_eq_some_iff.1 hmapped
  have hmem := hR.uuids message (hperm.mem_iff.2 (by simp [List.mem_of_getElem? hmessage]))
  refine ⟨message, rfl, hmem, ?_⟩
  simp only [step, hreceived, htext, consumePayload_text hd hperiod (huuids _ hmem)]
  have hread := @consume_nonempty_iff c.period c.offset ⟨some (decode message), clock, junk.bytes, junk.timestamp⟩
    (decode message)
  by_cases hcurrent : intervalStart c.period c.offset (systemSeconds clock) ≤ message.timestamp
  · obtain ⟨hok, hne⟩ := hread.2 ⟨rfl, rfl, hcurrent⟩
    rw [hok, hne, if_pos hcurrent]
    rfl
  · rw [if_neg hcurrent]
    have hempty :
        (consume c.period c.offset ⟨some (decode message), clock, junk.bytes, junk.timestamp⟩).isEmpty = true := by
      by_contra hne
      rw [Bool.not_eq_true] at hne
      obtain ⟨hsome, -, hstamp⟩ := consume_nonempty_iff.1 ⟨rfl, hne⟩
      rw [← Option.some.inj hsome] at hstamp
      exact hcurrent hstamp
    rw [hempty]
    rfl

/-! ### One event -/

open KafkaJSONCounterConsumer (plainEscape plainWriter spells_plainEscape plainWriter_objectCalls)

def plainWiring : Wiring :=
  ⟨JsonText.document fun _ => none, plainWriter 0, lit "uuid", [lit "a"], (∅ : Counters).insert (lit "a") 10, 60, 0⟩

theorem documented_plainWiring : Documented plainWiring plainEscape fun _ => none :=
  ⟨spells_plainEscape, plainWriter_objectCalls, fun _ _ h => h⟩

def plainSteps : List WireStep :=
  [.event (lit "\x7b\"uuid\":\"a\"\x7d") ⟨0, 0⟩, .counter .build, .counter .swap, .counter (.visit 100 .errNoError),
    .deliver 0 100000000000 ⟨0, 0⟩ ⟨0, 0⟩, .check 101 .errNoError]

/-- The message is read while the clock shows its own second. -/
theorem consumers_defined_plain : ∃ w, Runs.run (step plainWiring) (init plainWiring) (plainSteps.take 4) = some w ∧
    (step plainWiring w (.deliver 0 100000000000 ⟨0, 0⟩ ⟨0, 0⟩)).isSome := by
  have hrun : (Runs.run (step plainWiring) (init plainWiring) (plainSteps.take 4)).map
      (fun w => (w.topic.length, w.received)) = some (1, none) := by decide +kernel
  obtain ⟨w, hw, hv⟩ := Option.map_eq_some_iff.1 hrun
  obtain ⟨hlength, hreceived⟩ := Prod.mk.inj hv
  obtain ⟨text, htext⟩ : ∃ text, w.topic[0]? = some text := ⟨_, List.getElem?_eq_getElem (by omega)⟩
  obtain ⟨message, -, -, hstep⟩ := (consumers_defined plainWiring plainEscape _ documented_plainWiring (by decide)
    (by decide) (by decide) _ w hw).2 0 text htext hreceived 100000000000 ⟨0, 0⟩ ⟨0, 0⟩
  exact ⟨w, hw, by rw [hstep]; rfl⟩

/-- Twelve bytes of event against a limit of ten. -/
theorem alerts_of_payloads_plain : ∃ w, Runs.run (step plainWiring) (init plainWiring) plainSteps = some w ∧
    ∃ text ∈ w.alerts, IsAlertFor plainWiring (lit "a") text := by
  have hrun : (Runs.run (step plainWiring) (init plainWiring) plainSteps).map
      (fun w =>
        (eventBytes plainWiring (lit "a") w, amount w.counter.db.counters (lit "a"), w.counter.toWalk (lit "a"))) =
        some (12, 0, 0) := by decide +kernel
  have hempty : (Runs.run (step plainWiring) (init plainWiring) plainSteps).map
      (fun w => (w.topic, w.received, w.dropped)) = some ([], none, []) := by decide +kernel
  have hrefused : (Runs.run (step plainWiring) (init plainWiring) plainSteps).map
      (fun w => (w.counter.calls.all fun call => call.produceRc = .errNoError, w.refused)) = some (true, []) := by
    decide +kernel
  obtain ⟨w, hw, hv⟩ := Option.map_eq_some_iff.1 hrun
  rw [hw, Option.map_some, Option.some.injEq] at hempty hrefused
  simp only [Prod.mk.injEq] at hv hempty hrefused
  obtain ⟨hbytes, htable, hround⟩ := hv
  obtain ⟨htopic, hreceived, hdropped⟩ := hempty
  obtain ⟨haccepted, hrefused⟩ := hrefused
  have hdrained : Drained plainWiring (lit "a") w := by
    refine ⟨htable, hround, fun call hcall _ => ?_, ?_, ?_, ?_, ?_⟩
    · simpa using List.all_eq_true.1 haccepted call hcall
    · simp [htopic]
    · simp [hdropped]
    · simp [hreceived]
    · simp [hrefused]
  obtain ⟨-, hiff⟩ := alerts_of_payloads plainWiring plainEscape _ documented_plainWiring (by decide) (by decide)
    (by decide) plainSteps w hw (lit "a") (by decide) (by rw [hbytes]; decide)
  refine ⟨w, hw, (hiff hdrained).2 ⟨10, by decide, ?_⟩⟩
  rw [hbytes]
  decide

end Wire
end EventsCounter
