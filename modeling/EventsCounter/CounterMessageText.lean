import EventsCounter.CounterMessages
import EventsCounter.JsonZerocopy
import EventsCounter.Pipeline

/-!
# The text of a counter message

`JSONCounterWritter` makes the calls of RapidJSON's writer that write one counter message. The writer
is any function of its calls that writes an object of scalars as documented, whatever spelling it
chooses for each byte of a string; the reader is one that follows the grammar.
`counter_message_round_trip` says that the counter consumer gets back what was written.
-/

namespace EventsCounter

open InSitu (Op)
open JsonText (Scalar Spells objectText membersText memberText scalarText)

/-- The calls of `rapidjson::Writer`. -/
inductive WriterCall
  | startObject
  | string (str : Bytes)
  | uint64 (val : UInt64)
  | endObject

/-- The text in the buffer after the calls. -/
abbrev Writer := List WriterCall → Bytes

def WriterCall.ofScalar : Scalar → WriterCall
  | .string s => .string s
  | .uint64 n => .uint64 n

/-- The calls that write an object. -/
def objectCalls (ms : List (Bytes × Scalar)) : List WriterCall :=
  .startObject :: ((ms.flatMap fun m => [.string m.1, .ofScalar m.2]) ++ [.endObject])

namespace JSONCounterWritter

def dumpVars {α : Type} (addValue : α → WriterCall) (vars : List (Bytes × α)) : List WriterCall :=
  vars.flatMap fun itr => [.string itr.1, addValue itr.2]

/-- What the constructor calls. -/
def calls (uuidBytes : UUIDBytes) (currentUnixTimestamp : UInt64) : List WriterCall :=
  let strings := [(lit "unit", lit "bytes"), (lit "uuid", uuidBytes.uuid)]
  let numbers := [(lit "timestamp", currentUnixTimestamp), (lit "value", uuidBytes.bytes)]
  .startObject :: (dumpVars .string strings ++ dumpVars .uint64 numbers ++ [.endObject])

/-- The members of the message. -/
def members (uuidBytes : UUIDBytes) (currentUnixTimestamp : UInt64) : List (Bytes × Scalar) :=
  [(lit "unit", .string (lit "bytes")), (lit "uuid", .string uuidBytes.uuid),
    (lit "timestamp", .uint64 currentUnixTimestamp), (lit "value", .uint64 uuidBytes.bytes)]

theorem calls_eq (uuidBytes : UUIDBytes) (now : UInt64) : calls uuidBytes now = objectCalls (members uuidBytes now) := rfl

end JSONCounterWritter

namespace KafkaJSONCounterConsumer

open JSON (Reader)

/-- `get_message_uuid_bytes` on what the parse has left. A string is read up to its NUL. -/
def getParsedUuidBytes (document : Option Dom) (buffer : Bytes) (junk : Junk) : Outcome Empty UUIDBytes :=
  match document with
  | none => getMessageUuidBytes none junk
  | some dom =>
    match dom.resolve (Dom.readBuffer buffer) with
    | none => .undefined
    | some json => getMessageUuidBytes (some json) junk

/-- `consume` on what the parse has left. -/
def consumeParsed (period offset : UInt64) (document : Option Dom) (buffer : Bytes) (clock : Int64)
    (messageJunk junk : Junk) : Outcome Empty UUIDBytes := do
  let uuidBytes ← getParsedUuidBytes document buffer messageJunk
  if period = 0 then .undefined
  else .ok (consume period offset ⟨some uuidBytes, clock, junk.bytes, junk.timestamp⟩)

/-- The value `get_message_uuid_bytes` returns for the payload, whatever the uninitialised fields hold. -/
def Reads (reader : Reader) (payload : Bytes) (uuidBytes : UUIDBytes) : Prop :=
  (∃ document buffer, JSON.Parses reader payload document buffer) ∧
    ∀ document buffer junk, JSON.Parses reader payload document buffer →
      getParsedUuidBytes document buffer junk = .ok uuidBytes

/-- The fields of what is written. -/
theorem fields_members (uuidBytes : UUIDBytes) (now : UInt64) :
    Fields (.object ((JSONCounterWritter.members uuidBytes now).map fun m => (m.1, m.2.toJson))) uuidBytes.uuid
      (.integer uuidBytes.bytes.toNat) (.integer now.toNat) := ⟨rfl, rfl, rfl⟩

theorem reads_of_document {double : Bytes → Option UInt64} {reader : Reader} {payload : Bytes} {json : Json}
    {uuidBytes : UUIDBytes} (hreader : JSON.FollowsGrammar double reader payload)
    (hjson : JsonText.document double payload = some json)
    (hread : ∀ junk, getMessageUuidBytes (some json) junk = .ok uuidBytes) : Reads reader payload uuidBytes := by
  obtain ⟨dom, buffer, hparses, hdom⟩ := JSON.parses_document hreader hjson
  refine ⟨⟨some dom, buffer, hparses⟩, ?_⟩
  intro document buffer' junk hparses'
  obtain ⟨rfl, rfl⟩ := hparses.unique hparses'
  rw [getParsedUuidBytes, hdom]
  exact hread junk

/-- The value the text of a message stands for. -/
theorem document_calls {write : Writer} {escape : UInt8 → Bytes} (hescape : ∀ c, Spells c (escape c))
    (hwrite : ∀ ms, write (objectCalls ms) = objectText escape ms) (double : Bytes → Option UInt64)
    (uuidBytes : UUIDBytes) (now : UInt64) :
    JsonText.document double (write (JSONCounterWritter.calls uuidBytes now)) = some
      (.object ((JSONCounterWritter.members uuidBytes now).map fun m => (m.1, m.2.toJson))) := by
  rw [JSONCounterWritter.calls_eq, hwrite]
  exact JsonText.document_objectText hescape (List.cons_ne_nil _ _)

theorem reads_calls {write : Writer} {escape : UInt8 → Bytes} (hescape : ∀ c, Spells c (escape c))
    (hwrite : ∀ ms, write (objectCalls ms) = objectText escape ms) {double : Bytes → Option UInt64} {reader : Reader}
    {uuidBytes : UUIDBytes} {now : UInt64} (huuid : 0 ∉ uuidBytes.uuid)
    (hreader : JSON.FollowsGrammar double reader (write (JSONCounterWritter.calls uuidBytes now))) :
    Reads reader (write (JSONCounterWritter.calls uuidBytes now)) (.make uuidBytes.uuid uuidBytes.bytes now) := by
  refine reads_of_document hreader (document_calls hescape hwrite double uuidBytes now) fun junk => ?_
  have hcut : cStr uuidBytes.uuid = uuidBytes.uuid := cStr_eq_self_iff.2 huuid
  rw [getMessageUuidBytes_of_fields (fields_members uuidBytes now), getUint64_number, Outcome.ok_bind,
    getUint64_number, Outcome.ok_bind, hcut]

/-- The text of a message the counter producer hands over is read back as `decode` says. -/
theorem reads_decode {write : Writer} {escape : UInt8 → Bytes} (hescape : ∀ c, Spells c (escape c))
    (hwrite : ∀ ms, write (objectCalls ms) = objectText escape ms) {double : Bytes → Option UInt64} {reader : Reader}
    {counter : UUIDBytes} {now : UInt64} (produceRc : RdKafkaErrorCode) (huuid : 0 ∉ counter.uuid)
    (hreader : JSON.FollowsGrammar double reader (write (JSONCounterWritter.calls counter now))) :
    Reads reader (write (JSONCounterWritter.calls counter now)) (decode (produce counter now produceRc).1.payload) :=
  reads_calls hescape hwrite huuid hreader

/-- For every NUL-free uuid, every count and every time: what `JSONCounterWritter` writes is read back by
the counter consumer, out of a payload that is not terminated, with the same uuid, count and time. The
writer spells each byte of a string in some way JSON allows, and prints objects and numbers as
documented; the reader follows the grammar on this payload. -/
theorem counter_message_round_trip (write : Writer) (escape : UInt8 → Bytes) (hescape : ∀ c, Spells c (escape c))
    (hwrite : ∀ ms, write (objectCalls ms) = objectText escape ms) (double : Bytes → Option UInt64) (reader : Reader)
    (uuid : Bytes) (b t : UInt64) (huuid : 0 ∉ uuid)
    (hreader : JSON.FollowsGrammar double reader (write (JSONCounterWritter.calls (.make uuid b) t))) :
    Reads reader (write (JSONCounterWritter.calls (.make uuid b) t)) (.make uuid b t) :=
  reads_calls hescape hwrite huuid hreader

/-! ### A writer and a reader -/

def hexDigit (n : UInt8) : UInt8 := if n < 10 then 0x30 + n else 0x37 + n

def plainEscape (c : UInt8) : Bytes :=
  if c = 0x22 ∨ c = 0x5C then [0x5C, c]
  else if c < 0x20 then [0x5C, 0x75, 0x30, 0x30, hexDigit (c / 16), hexDigit (c % 16)]
  else [c]

theorem spells_plainEscape (c : UInt8) : Spells c (plainEscape c) := by
  unfold plainEscape
  split_ifs with hquoted hcontrol
  · exact .short c c (by rcases hquoted with rfl | rfl <;> rfl)
  · have hhex : ∀ n : Fin 32, JsonText.hex4 0x30 0x30 (hexDigit (UInt8.ofNat n / 16)) (hexDigit (UInt8.ofNat n % 16)) =
        some n := by decide
    have hlt : c.toNat < 32 := hcontrol
    refine .hex c _ _ _ _ ?_ (UInt8.lt_trans hcontrol (by decide))
    simpa using hhex ⟨c.toNat, hlt⟩
  · rw [not_or] at hquoted
    exact .raw c hquoted.1 hquoted.2 hcontrol

/-- The writer puts a colon or a comma before a value, depending on how many there are in the object. -/
def separator (valueCount : ℕ) : Bytes := if valueCount = 0 then [] else if valueCount % 2 = 0 then [0x2C] else [0x3A]

def plainWriter (valueCount : ℕ) : Writer
  | [] => []
  | .startObject :: calls => 0x7B :: plainWriter 0 calls
  | .string s :: calls =>
    separator valueCount ++ scalarText plainEscape (.string s) ++ plainWriter (valueCount + 1) calls
  | .uint64 n :: calls =>
    separator valueCount ++ scalarText plainEscape (.uint64 n) ++ plainWriter (valueCount + 1) calls
  | .endObject :: calls => 0x7D :: plainWriter (valueCount + 1) calls

theorem plainWriter_ofScalar (k : ℕ) (v : Scalar) (calls : List WriterCall) :
    plainWriter k (.ofScalar v :: calls) = separator k ++ scalarText plainEscape v ++ plainWriter (k + 1) calls := by
  cases v <;> rfl

theorem plainWriter_members (ms : List (Bytes × Scalar)) (j : ℕ) :
    plainWriter (2 * j) ((ms.flatMap fun m => [.string m.1, .ofScalar m.2]) ++ [.endObject]) =
      (if ms = [] then [] else separator (2 * j)) ++ (membersText plainEscape ms ++ [0x7D]) := by
  induction ms generalizing j with
  | nil => rfl
  | cons m ms ih =>
    have hcolon : separator (2 * j + 1) = [0x3A] := by
      rw [separator, if_neg (by omega), if_neg (by omega)]
    have hcomma : separator (2 * (j + 1)) = [0x2C] := by
      rw [separator, if_neg (by omega), if_pos (by omega)]
    have hcount : 2 * j + 1 + 1 = 2 * (j + 1) := rfl
    have hnext := ih (j + 1)
    rw [hcomma] at hnext
    rw [List.flatMap_cons, List.cons_append, List.singleton_append, List.cons_append, List.cons_append, plainWriter,
      plainWriter_ofScalar, hcolon, hcount, hnext]
    cases ms with
    | nil => simp [membersText, memberText]
    | cons m' ms => simp [JsonText.membersText_cons, memberText]

theorem plainWriter_objectCalls (ms : List (Bytes × Scalar)) :
    plainWriter 0 (objectCalls ms) = objectText plainEscape ms := by
  rw [objectCalls, plainWriter, plainWriter_members ms 0, objectText]
  simp [separator]

/-- A string without escapes that begins at `begin`, from its opening quote on. -/
def readString (begin : ℕ) (s : Bytes) : List (Op UInt8) :=
  .take :: .putBegin :: ((s.flatMap fun c => [.take, .put c]) ++ [.take, .put 0, .putEnd begin])

/-- What the reader does on the message of five bytes at the time 7 for the uuid `a"`. -/
def sampleOps : List (Op UInt8) :=
  List.flatten [[.take], readString 2 (lit "unit"), [.take], readString 9 (lit "bytes"), [.take],
    readString 17 (lit "uuid"), [.take, .take, .putBegin, .take, .put 97, .take, .take, .put 34, .take, .put 0, .putEnd 24],
    [.take], readString 30 (lit "timestamp"), [.take, .take, .peek, .take], readString 44 (lit "value"),
    [.take, .take, .peek, .take, .peek]]

def sampleDom : Dom :=
  .object [((2, 4), .string 9 5), ((17, 4), .string 24 2), ((30, 9), .number (.integer 7)),
    ((44, 5), .number (.integer 5))]

theorem followsGrammar_sample : JSON.FollowsGrammar (fun _ => none) (Sessions.script sampleOps (some sampleDom))
    (plainWriter 0 (JSONCounterWritter.calls (.make [97, 34] 5) 7)) := by
  intro v hv
  have hsession : (Sessions.performs (InSitu.Ideal.perform 0)
      (InSitu.Ideal.make (plainWriter 0 (JSONCounterWritter.calls (.make [97, 34] 5) 7))) sampleOps).map
        (fun session => session.2.completed) =
      some [(2, lit "unit" ++ [0]), (9, lit "bytes" ++ [0]), (17, lit "uuid" ++ [0]), (24, [97, 34, 0]),
        (30, lit "timestamp" ++ [0]), (44, lit "value" ++ [0])] := by decide +kernel
  obtain ⟨⟨answers, r⟩, hperforms, hcompleted⟩ := Option.map_eq_some_iff.1 hsession
  dsimp only at hcompleted
  refine ⟨sampleDom, r, Sessions.plays_script hperforms, ?_⟩
  rw [document_calls spells_plainEscape plainWriter_objectCalls] at hv
  rw [← hv, hcompleted]
  rfl

/-- The uuid `a"`, five bytes, at the time 7. -/
theorem counter_message_round_trip_quote :
    Reads (Sessions.script sampleOps (some sampleDom)) (plainWriter 0 (JSONCounterWritter.calls (.make [97, 34] 5) 7))
      (.make [97, 34] 5 7) :=
  counter_message_round_trip (plainWriter 0) plainEscape spells_plainEscape plainWriter_objectCalls (fun _ => none) _
    [97, 34] 5 7 (by decide) followsGrammar_sample

end KafkaJSONCounterConsumer
end EventsCounter
