import EventsCounter.CounterConsumer
import EventsCounter.JsonText

/-!
# What the counter consumer makes of a payload

`getMessageUuidBytes` reads the three fields of a parsed counter message. It asks for numbers and then
reads 64-bit integers: on a number of another kind the read is undefined. `accepts_exactly_iff` says
that this is all that goes wrong, for any payload and any parser.
-/

namespace EventsCounter

namespace KafkaJSONCounterConsumer

def getMessageUuidBytes (document : Option Json) (junk : Junk) : Outcome Empty UUIDBytes :=
  match document with
  | none => .ok (UUIDBytes.none junk.bytes junk.timestamp)
  | some json =>
    if json.getType ≠ .kObjectType then .ok (UUIDBytes.none junk.bytes junk.timestamp)
    else if !json.hasMember (lit "uuid") || !(json.child (lit "uuid")).isString then
      .ok (UUIDBytes.none junk.bytes junk.timestamp)
    else if !json.hasMember (lit "value") || !(json.child (lit "value")).isNumber then
      .ok (UUIDBytes.none junk.bytes junk.timestamp)
    else if !json.hasMember (lit "timestamp") || !(json.child (lit "timestamp")).isNumber then
      .ok (UUIDBytes.none junk.bytes junk.timestamp)
    else do
      let uuidStr ← (json.child (lit "uuid")).getString
      let bytesNumber ← (json.child (lit "value")).getUint64
      let timestampNumber ← (json.child (lit "timestamp")).getUint64
      .ok (.make uuidStr bytesNumber timestampNumber)

/-- `consume` of an error-free message. The remainder by a zero period is undefined; each of the empty
values made on the way has fields of its own. -/
def consumePayload (parse : Parser) (period offset : UInt64) (payload : Bytes) (clock : Int64)
    (messageJunk junk : Junk) : Outcome Empty UUIDBytes := do
  let uuidBytes ← getMessageUuidBytes (parse payload) messageJunk
  if period = 0 then .undefined
  else .ok (consume period offset ⟨some uuidBytes, clock, junk.bytes, junk.timestamp⟩)

/-- The fields of a counter message, as far as their kinds are asked for. -/
structure Fields (json : Json) (uuid : Bytes) (value timestamp : Number) : Prop where
  uuid : json.child? (lit "uuid") = some (.string uuid)
  value : json.child? (lit "value") = some (.number value)
  timestamp : json.child? (lit "timestamp") = some (.number timestamp)

def WellFormed (document : Option Json) (uuid : Bytes) (value timestamp : UInt64) : Prop :=
  ∃ json, document = some json ∧ json.getType = .kObjectType ∧
    Fields json uuid (.integer value.toNat) (.integer timestamp.toNat)

/-- `consume` returns a non-empty value exactly for a well-formed message stamped in the current interval
or later, and then the numbers of the message. -/
def AcceptsAt (parse : Parser) (payload : Bytes) (period offset : UInt64) (clock : Int64)
    (messageJunk junk : Junk) : Prop :=
  ∃ uuidBytes, consumePayload parse period offset payload clock messageJunk junk = .ok uuidBytes ∧
    (uuidBytes.isEmpty = false ↔ ∃ uuid value timestamp, WellFormed (parse payload) uuid value timestamp ∧
      intervalStart period offset (systemSeconds clock) ≤ timestamp) ∧
    ∀ uuid value timestamp, WellFormed (parse payload) uuid value timestamp →
      intervalStart period offset (systemSeconds clock) ≤ timestamp →
        uuidBytes.bytes = value ∧ uuidBytes.timestamp = timestamp

/-- So it does whatever the uninitialised fields hold. -/
def AcceptsExactly (parse : Parser) (payload : Bytes) (period offset : UInt64) (clock : Int64) : Prop :=
  ∀ messageJunk junk, AcceptsAt parse payload period offset clock messageJunk junk

variable {document : Option Json} {json : Json} {uuid : Bytes} {value timestamp : Number} {junk : Junk}

/-! ### The fields -/

theorem Fields.isObject (h : Fields json uuid value timestamp) : json.getType = .kObjectType :=
  Json.isObject_of_child? h.uuid

theorem Fields.unique {uuid' : Bytes} {value' timestamp' : Number} (h : Fields json uuid value timestamp)
    (h' : Fields json uuid' value' timestamp') : uuid = uuid' ∧ value = value' ∧ timestamp = timestamp' := by
  have huuid := Option.some.inj (h.uuid.symm.trans h'.uuid)
  have hvalue := Option.some.inj (h.value.symm.trans h'.value)
  have htimestamp := Option.some.inj (h.timestamp.symm.trans h'.timestamp)
  cases huuid
  cases hvalue
  cases htimestamp
  exact ⟨rfl, rfl, rfl⟩

/-- With the fields there, everything depends on the two numbers. -/
theorem getMessageUuidBytes_of_fields (h : Fields json uuid value timestamp) :
    getMessageUuidBytes (some json) junk = (do
      let bytesNumber ← (Json.number value).getUint64
      let timestampNumber ← (Json.number timestamp).getUint64
      .ok (.make (cStr uuid) bytesNumber timestampNumber)) := by
  have huuid := Json.hasString_iff.2 ⟨uuid, h.uuid⟩
  have hvalue := Json.hasNumber_iff.2 ⟨value, h.value⟩
  have htimestamp := Json.hasNumber_iff.2 ⟨timestamp, h.timestamp⟩
  have hchild : (json.child (lit "uuid")).getString = (.ok (cStr uuid) : Outcome Empty Bytes) := by
    rw [Json.child_eq_of_some h.uuid]
    rfl
  simp only [getMessageUuidBytes, h.isObject, huuid, hvalue, htimestamp, ne_eq, not_true_eq_false, if_false,
    Bool.false_eq_true]
  rw [hchild, Json.child_eq_of_some h.value, Json.child_eq_of_some h.timestamp, Outcome.ok_bind]

theorem getMessageUuidBytes_of_no_fields
    (h : ∀ json uuid value timestamp, document = some json → ¬ Fields json uuid value timestamp) :
    getMessageUuidBytes document junk = .ok (UUIDBytes.none junk.bytes junk.timestamp) := by
  unfold getMessageUuidBytes
  cases document with
  | none => rfl
  | some json =>
    dsimp only
    split_ifs with hobject huuid hvalue htimestamp
    · rfl
    · rfl
    · rfl
    · rfl
    · rw [Bool.not_eq_true] at huuid hvalue htimestamp
      obtain ⟨uuid, huuid⟩ := Json.hasString_iff.1 huuid
      obtain ⟨value, hvalue⟩ := Json.hasNumber_iff.1 hvalue
      obtain ⟨timestamp, htimestamp⟩ := Json.hasNumber_iff.1 htimestamp
      exact absurd ⟨huuid, hvalue, htimestamp⟩ (h json uuid value timestamp rfl)

theorem getUint64_number {n : UInt64} : (Json.number (.integer n.toNat)).getUint64 = (.ok n : Outcome Empty UInt64) := by
  have hn : (Json.number (.integer n.toNat)).isUint64 = true := Json.isUint64_iff.2 ⟨n, rfl⟩
  rw [Json.getUint64, if_pos hn]
  simp [Json.intValue]

theorem getUint64_undefined {v : Json} (h : v.isUint64 = false) : v.getUint64 = (.undefined : Outcome Empty UInt64) := by
  simp [Json.getUint64, h]

/-! ### What is accepted -/

variable {parse : Parser} {payload : Bytes} {period offset : UInt64} {clock : Int64} {messageJunk : Junk}

theorem consumePayload_of_ok {uuidBytes : UUIDBytes} (hperiod : period ≠ 0)
    (h : getMessageUuidBytes (parse payload) messageJunk = .ok uuidBytes) :
    consumePayload parse period offset payload clock messageJunk junk =
      .ok (consume period offset ⟨some uuidBytes, clock, junk.bytes, junk.timestamp⟩) := by
  rw [consumePayload, h, Outcome.ok_bind, if_neg hperiod]

theorem consumePayload_zero : consumePayload parse 0 offset payload clock messageJunk junk = .undefined := by
  unfold consumePayload
  cases getMessageUuidBytes (parse payload) messageJunk with
  | ok uuidBytes => rfl
  | throw e => cases e
  | undefined => rfl

theorem WellFormed.unique {v t : UInt64} (h : WellFormed (some json) uuid v t) {uuid' : Bytes} {value timestamp : Number}
    (hfields : Fields json uuid' value timestamp) : value = .integer v.toNat ∧ timestamp = .integer t.toNat := by
  obtain ⟨json', hjson, -, hfields'⟩ := h
  cases hjson
  exact (hfields.unique hfields').2

/-- A number of another kind makes the call undefined. -/
theorem getMessageUuidBytes_undefined (h : Fields json uuid value timestamp)
    (hkind : ¬ ((Json.number value).isUint64 = true ∧ (Json.number timestamp).isUint64 = true)) :
    getMessageUuidBytes (some json) junk = .undefined := by
  rw [getMessageUuidBytes_of_fields h]
  cases hvalue : (Json.number value).isUint64 with
  | false => rw [getUint64_undefined hvalue, Outcome.undefined_bind]
  | true =>
    cases htimestamp : (Json.number timestamp).isUint64 with
    | true => exact absurd ⟨hvalue, htimestamp⟩ hkind
    | false =>
      obtain ⟨n, hn⟩ := Json.isUint64_iff.1 hvalue
      rw [hn, getUint64_number, Outcome.ok_bind, getUint64_undefined htimestamp, Outcome.undefined_bind]

theorem number_of_isUint64 (h : (Json.number value).isUint64 = true) : ∃ n : UInt64, value = .integer n.toNat := by
  obtain ⟨n, hn⟩ := Json.isUint64_iff.1 h
  exact ⟨n, Json.number.inj hn⟩

theorem accepts_of_numbers {v t : UInt64} (hperiod : period ≠ 0) (hjson : parse payload = some json)
    (hfields : Fields json uuid (.integer v.toNat) (.integer t.toNat)) (messageJunk junk : Junk) :
    AcceptsAt parse payload period offset clock messageJunk junk := by
  have hok : getMessageUuidBytes (parse payload) messageJunk = .ok (.make (cStr uuid) v t) := by
    rw [hjson, getMessageUuidBytes_of_fields hfields, getUint64_number, Outcome.ok_bind, getUint64_number,
      Outcome.ok_bind]
  have hwell : WellFormed (parse payload) uuid v t := ⟨json, hjson, hfields.isObject, hfields⟩
  have hnumbers : ∀ uuid' v' t', WellFormed (parse payload) uuid' v' t' → v = v' ∧ t = t' := by
    intro uuid' v' t' h
    rw [hjson] at h
    obtain ⟨hv, ht⟩ := h.unique hfields
    exact ⟨UInt64.toNat_inj.1 (by simpa using hv), UInt64.toNat_inj.1 (by simpa using ht)⟩
  set fetched : Fetched := ⟨some (.make (cStr uuid) v t), clock, junk.bytes, junk.timestamp⟩ with hfetched
  have hcurrent (h : intervalStart period offset (systemSeconds clock) ≤ t) :
      consume period offset fetched = .make (cStr uuid) v t :=
    ((@consume_nonempty_iff period offset fetched (.make (cStr uuid) v t)).2 ⟨rfl, rfl, h⟩).1
  refine ⟨_, consumePayload_of_ok hperiod hok, ⟨?_, ?_⟩, ?_⟩
  · intro hne
    obtain ⟨hmessage, -, hle⟩ := consume_nonempty_iff.1 ⟨rfl, hne⟩
    rw [← Option.some.inj hmessage] at hle
    exact ⟨uuid, v, t, hwell, hle⟩
  · rintro ⟨uuid', v', t', hwell', hle⟩
    obtain ⟨-, rfl⟩ := hnumbers uuid' v' t' hwell'
    rw [hcurrent hle]
    rfl
  · intro uuid' v' t' hwell' hle
    obtain ⟨rfl, rfl⟩ := hnumbers uuid' v' t' hwell'
    rw [hcurrent hle]
    exact ⟨rfl, rfl⟩

theorem accepts_of_no_fields (hperiod : period ≠ 0)
    (h : ∀ json uuid value timestamp, parse payload = some json → ¬ Fields json uuid value timestamp)
    (messageJunk junk : Junk) : AcceptsAt parse payload period offset clock messageJunk junk := by
  have hill : ∀ uuid v t, ¬ WellFormed (parse payload) uuid v t := by
    rintro uuid v t ⟨json, hjson, -, hfields⟩
    exact h json uuid _ _ hjson hfields
  refine ⟨_, consumePayload_of_ok hperiod (getMessageUuidBytes_of_no_fields h), ⟨?_, ?_⟩, ?_⟩
  · intro hne
    obtain ⟨hmessage, hempty, -⟩ := consume_nonempty_iff.1 ⟨rfl, hne⟩
    rw [← Option.some.inj hmessage] at hempty
    cases hempty
  · rintro ⟨uuid, v, t, hwell, -⟩
    exact absurd hwell (hill uuid v t)
  · intro uuid v t hwell
    exact absurd hwell (hill uuid v t)

/-- Any payload, any parser, any period, offset and clock: `consume` accepts exactly the well-formed
current messages if and only if the period is not zero and the payload is not an object with a string
and two numbers in the fields, of which one is not a 64-bit natural number. -/
theorem accepts_exactly_iff (parse : Parser) (payload : Bytes) (period offset : UInt64) (clock : Int64) :
    AcceptsExactly parse payload period offset clock ↔
      period ≠ 0 ∧ ∀ json uuid value timestamp, parse payload = some json → Fields json uuid value timestamp →
        (Json.number value).isUint64 = true ∧ (Json.number timestamp).isUint64 = true := by
  constructor
  · intro h
    obtain ⟨uuidBytes, hok, -, -⟩ := h ⟨0, 0⟩ ⟨0, 0⟩
    refine ⟨?_, ?_⟩
    · rintro rfl
      rw [consumePayload_zero] at hok
      cases hok
    · intro json uuid value timestamp hjson hfields
      by_contra hkind
      rw [consumePayload, hjson, getMessageUuidBytes_undefined hfields hkind] at hok
      cases hok
  · rintro ⟨hperiod, hkinds⟩ messageJunk junk
    by_cases hfields : ∃ json uuid value timestamp, parse payload = some json ∧ Fields json uuid value timestamp
    · obtain ⟨json, uuid, value, timestamp, hjson, hfields⟩ := hfields
      obtain ⟨hvalue, htimestamp⟩ := hkinds json uuid value timestamp hjson hfields
      obtain ⟨v, rfl⟩ := number_of_isUint64 hvalue
      obtain ⟨t, rfl⟩ := number_of_isUint64 htimestamp
      exact accepts_of_numbers hperiod hjson hfields messageJunk junk
    · push Not at hfields
      exact accepts_of_no_fields hperiod hfields messageJunk junk

/-- A negative count is a number, but no 64-bit natural number. -/
theorem accepts_exactly_fails :
    ¬ AcceptsExactly (JsonText.document fun _ => none)
      (lit "\x7b\"unit\":\"bytes\",\"uuid\":\"a\",\"timestamp\":100,\"value\":-1\x7d") 60 0 100000000000 := by
  intro h
  obtain ⟨uuidBytes, hok, -⟩ := h ⟨0, 0⟩ ⟨0, 0⟩
  have hundefined : (consumePayload (JsonText.document fun _ => none) 60 0
      (lit "\x7b\"unit\":\"bytes\",\"uuid\":\"a\",\"timestamp\":100,\"value\":-1\x7d") 100000000000
      ⟨0, 0⟩ ⟨0, 0⟩).isUndefined = true := by decide +kernel
  rw [hok] at hundefined
  cases hundefined

end KafkaJSONCounterConsumer
end EventsCounter
