import EventsCounter.CounterMessageText

/-!
# The text of an alert

`KafkaMonitorProducer` writes an alert as `KafkaJSONCounterProducer` writes a counter message, with the
uuid and without the count. `monitor_alert_round_trip` says what a reader of the monitor topic finds in
it, for every uuid, and that a counter consumer that is given one by mistake takes it for nothing.
-/

namespace EventsCounter

open JsonText (Scalar Spells objectText)

namespace JSONMonitorWritter

/-- What the constructor calls. -/
def calls (uuidBytes : UUIDBytes) (currentUnixTimestamp : UInt64) : List WriterCall :=
  let strings := [(lit "type", lit "data"), (lit "monitor", lit "uuid_limit_reached"), (lit "uuid", uuidBytes.uuid)]
  let numbers := [(lit "timestamp", currentUnixTimestamp)]
  .startObject :: (JSONCounterWritter.dumpVars .string strings ++ JSONCounterWritter.dumpVars .uint64 numbers ++ [.endObject])

/-- The members of the alert. -/
def members (uuidBytes : UUIDBytes) (currentUnixTimestamp : UInt64) : List (Bytes × Scalar) :=
  [(lit "type", .string (lit "data")), (lit "monitor", .string (lit "uuid_limit_reached")),
    (lit "uuid", .string uuidBytes.uuid), (lit "timestamp", .uint64 currentUnixTimestamp)]

theorem calls_eq (uuidBytes : UUIDBytes) (now : UInt64) :
    calls uuidBytes now = objectCalls (members uuidBytes now) := rfl

/-- The value an alert stands for. -/
def json (uuidBytes : UUIDBytes) (now : UInt64) : Json := .object ((members uuidBytes now).map fun m => (m.1, m.2.toJson))

end JSONMonitorWritter

/-- The arguments of `RdKafka::Producer::produce` that depend on the alert. -/
structure MonitorRequest where
  payload : Bytes
  key : Option Bytes

namespace KafkaMonitorProducer

def produce (write : Writer) (counter : UUIDBytes) (now : UInt64) (produceRc : RdKafkaErrorCode) :
    MonitorRequest × ErrorCode :=
  (⟨write (JSONMonitorWritter.calls counter now), none⟩, produceErrorCode produceRc)

variable {write : Writer} {escape : UInt8 → Bytes} {double : Bytes → Option UInt64}

theorem document_produce (hescape : ∀ c, Spells c (escape c))
    (hwrite : ∀ ms, write (objectCalls ms) = objectText escape ms) (counter : UUIDBytes) (now : UInt64)
    (produceRc : RdKafkaErrorCode) :
    JsonText.document double (produce write counter now produceRc).1.payload =
      some (JSONMonitorWritter.json counter now) := by
  have hpayload : (produce write counter now produceRc).1.payload =
      objectText escape (JSONMonitorWritter.members counter now) := by
    rw [produce, JSONMonitorWritter.calls_eq]
    exact hwrite _
  rw [hpayload]
  exact JsonText.document_objectText hescape (List.cons_ne_nil _ _)

/-- There is no count in an alert. -/
theorem no_fields {counter : UUIDBytes} {now : UInt64} {uuid : Bytes} {value timestamp : Number} :
    ¬ KafkaJSONCounterConsumer.Fields (JSONMonitorWritter.json counter now) uuid value timestamp := by
  intro h
  have hvalue : (JSONMonitorWritter.json counter now).child? (lit "value") = none := rfl
  rw [h.value] at hvalue
  cases hvalue

open KafkaJSONCounterConsumer (getMessageUuidBytes getParsedUuidBytes getMessageUuidBytes_of_no_fields consumeParsed)

/-- The filter makes nothing of an empty value. -/
theorem consume_none (period offset : UInt64) (clock : Int64) (messageJunk junk : Junk) :
    (consume period offset ⟨some (UUIDBytes.none messageJunk.bytes messageJunk.timestamp), clock, junk.bytes,
      junk.timestamp⟩).isEmpty = true := by
  unfold consume
  dsimp only
  split <;> rfl

/-- For every uuid, of any bytes, and every time: what is produced is read back, out of a payload that is
not terminated, as the four members of an alert; and a counter consumer that reads it returns an empty
value, whatever the uninitialised fields hold and whatever its filter and clock are. -/
theorem monitor_alert_round_trip (write : Writer) (escape : UInt8 → Bytes) (hescape : ∀ c, Spells c (escape c))
    (hwrite : ∀ ms, write (objectCalls ms) = objectText escape ms) (double : Bytes → Option UInt64)
    (reader : JSON.Reader) (counter : UUIDBytes) (now : UInt64) (produceRc : RdKafkaErrorCode)
    (hreader : JSON.FollowsGrammar double reader (produce write counter now produceRc).1.payload) :
    ∃ dom buffer, JSON.Parses reader (produce write counter now produceRc).1.payload (some dom) buffer ∧
      dom.resolve (Dom.readBuffer buffer) = some (JSONMonitorWritter.json counter now) ∧
      (∀ document buffer junk, JSON.Parses reader (produce write counter now produceRc).1.payload document buffer →
        getParsedUuidBytes document buffer junk = .ok (UUIDBytes.none junk.bytes junk.timestamp)) ∧
      ∀ document buffer period offset clock messageJunk junk, period ≠ 0 →
        JSON.Parses reader (produce write counter now produceRc).1.payload document buffer →
        ∃ uuidBytes, consumeParsed period offset document buffer clock messageJunk junk = .ok uuidBytes ∧
          uuidBytes.isEmpty = true := by
  obtain ⟨dom, buffer, hparses, hdom⟩ :=
    JSON.parses_document hreader (document_produce hescape hwrite counter now produceRc)
  have hread : ∀ document buffer junk,
      JSON.Parses reader (produce write counter now produceRc).1.payload document buffer →
        getParsedUuidBytes document buffer junk = .ok (UUIDBytes.none junk.bytes junk.timestamp) := by
    intro document buffer' junk hparses'
    obtain ⟨rfl, rfl⟩ := hparses.unique hparses'
    rw [getParsedUuidBytes, hdom]
    refine getMessageUuidBytes_of_no_fields fun json uuid value timestamp hjson => ?_
    cases hjson
    exact no_fields
  refine ⟨dom, buffer, hparses, hdom, hread, ?_⟩
  intro document buffer' period offset clock messageJunk junk hperiod hparses'
  refine ⟨_, ?_, consume_none period offset clock messageJunk junk⟩
  rw [consumeParsed, hread document buffer' messageJunk hparses', Outcome.ok_bind, if_neg hperiod]

open KafkaJSONCounterConsumer (plainEscape plainWriter spells_plainEscape plainWriter_objectCalls readString)

/-- What the reader does on the alert for the uuid `a`, NUL, at the time 7. -/
def sampleOps : List (InSitu.Op UInt8) :=
  List.flatten [[.take], readString 2 (lit "type"), [.take], readString 9 (lit "data"), [.take],
    readString 16 (lit "monitor"), [.take], readString 26 (lit "uuid_limit_reached"), [.take],
    readString 47 (lit "uuid"), [.take, .take, .putBegin, .take, .put 97, .take, .take, .take, .take, .take, .take, .put 0,
      .take, .put 0, .putEnd 54], [.take], readString 64 (lit "timestamp"), [.take, .take, .peek, .take, .peek]]

def sampleDom : Dom :=
  .object [((2, 4), .string 9 4), ((16, 7), .string 26 18), ((47, 4), .string 54 2), ((64, 9), .number (.integer 7))]

theorem followsGrammar_sample : JSON.FollowsGrammar (fun _ => none) (Sessions.script sampleOps (some sampleDom))
    (produce (plainWriter 0) (.make [97, 0] 5) 7 .errNoError).1.payload := by
  intro v hv
  have hsession : (Sessions.performs (InSitu.Ideal.perform 0)
      (InSitu.Ideal.make (produce (plainWriter 0) (.make [97, 0] 5) 7 .errNoError).1.payload) sampleOps).map
        (fun session => session.2.completed) =
      some [(2, lit "type" ++ [0]), (9, lit "data" ++ [0]), (16, lit "monitor" ++ [0]),
        (26, lit "uuid_limit_reached" ++ [0]), (47, lit "uuid" ++ [0]), (54, [97, 0, 0]),
        (64, lit "timestamp" ++ [0])] := by decide +kernel
  obtain ⟨⟨answers, r⟩, hperforms, hcompleted⟩ := Option.map_eq_some_iff.1 hsession
  dsimp only at hcompleted
  refine ⟨sampleDom, r, Sessions.plays_script hperforms, ?_⟩
  rw [document_produce spells_plainEscape plainWriter_objectCalls] at hv
  rw [← hv, hcompleted]
  rfl

/-- A uuid that ends in a NUL keeps it; a counter consumer makes nothing of the alert. -/
theorem monitor_alert_round_trip_nul : ∃ dom buffer,
    JSON.Parses (Sessions.script sampleOps (some sampleDom))
      (produce (plainWriter 0) (.make [97, 0] 5) 7 .errNoError).1.payload (some dom) buffer ∧
    dom.resolve (Dom.readBuffer buffer) = some (JSONMonitorWritter.json (.make [97, 0] 5) 7) ∧
    ∃ uuidBytes, consumeParsed 60 0 (some dom) buffer 100000000000 ⟨0, 0⟩ ⟨0, 0⟩ = .ok uuidBytes ∧
      uuidBytes.isEmpty = true := by
  obtain ⟨dom, buffer, hparses, hdom, -, hconsume⟩ := monitor_alert_round_trip (plainWriter 0) plainEscape
    spells_plainEscape plainWriter_objectCalls (fun _ => none) _ (.make [97, 0] 5) 7 .errNoError followsGrammar_sample
  exact ⟨dom, buffer, hparses, hdom, hconsume (some dom) buffer 60 0 100000000000 ⟨0, 0⟩ ⟨0, 0⟩ (by decide) hparses⟩

end KafkaMonitorProducer
end EventsCounter
