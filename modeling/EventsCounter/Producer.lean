import EventsCounter.Data

/-!
# `KafkaJSONCounterProducer`

`produce` writes one counter message and hands it to librdkafka, whose answer is the environment's.
The Kafka call gets no key: the key the `JSONKafkaMessage` is built with stays in the message.
-/

namespace EventsCounter

/-- `RdKafka::ErrorCode`: the codes the producers name, and all others. -/
inductive RdKafkaErrorCode
  | errNoError
  | errQueueFull
  | errMsgSizeTooLarge
  | errUnknownPartition
  | errUnknownTopic
  | other (code : ℤ)
deriving DecidableEq, Repr

inductive ErrorCode
  | noError
  | errQueueFull
  | errMsgTooLarge
deriving DecidableEq, Repr

structure CounterMessage where
  unit : Bytes
  uuid : Bytes
  timestamp : UInt64
  value : UInt64
deriving DecidableEq, Repr

def jsonCounterWritter (uuidBytes : UUIDBytes) (currentUnixTimestamp : UInt64) : CounterMessage :=
  ⟨lit "bytes", uuidBytes.uuid, currentUnixTimestamp, uuidBytes.bytes⟩

structure JSONKafkaMessage where
  kafkaKey : Bytes
  payload : CounterMessage

/-- The arguments of `RdKafka::Producer::produce` that depend on the message; the partition is
always `PARTITION_UA`. -/
structure ProduceRequest where
  payload : CounterMessage
  key : Option Bytes
deriving DecidableEq, Repr

/-- The `switch` on librdkafka's answer: two errors are reported, every other one is `NO_ERROR`. -/
def produceErrorCode : RdKafkaErrorCode → ErrorCode
  | .errQueueFull => .errQueueFull
  | .errMsgSizeTooLarge => .errMsgTooLarge
  | .errUnknownPartition => .noError
  | .errUnknownTopic => .noError
  | .errNoError => .noError
  | .other _ => .noError

def produce (counter : UUIDBytes) (now : UInt64) (produceRc : RdKafkaErrorCode) :
    ProduceRequest × ErrorCode :=
  let message : JSONKafkaMessage := ⟨counter.uuid, jsonCounterWritter counter now⟩
  (⟨message.payload, none⟩, produceErrorCode produceRc)

end EventsCounter
