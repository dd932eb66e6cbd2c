import EventsCounter.Data
import EventsCounter.NextTick

/-!
# The configuration `main` runs with

The structures of `config.hpp`. A `Config` is what the three accessors of the abstract class return.
-/

namespace EventsCounter

abbrev KafkaConfList := List (Bytes × Bytes)

/-- `kafka_config_s`: the settings for the global and the topic `Conf` of a consumer and of a producer. -/
structure KafkaConfig where
  consumerRkConfV : KafkaConfList
  consumerRktConfV : KafkaConfList
  producerRkConfV : KafkaConfList
  producerRktConfV : KafkaConfList
deriving DecidableEq, Repr

structure UuidCounterConfig where
  kafkaConfig : KafkaConfig
  readTopics : List Bytes
  writeTopic : Bytes
  uuidKey : Bytes
  updatePeriod : Seconds

structure CountersMonitorConfig where
  kafkaConfig : KafkaConfig
  readTopic : Bytes
  writeTopic : Bytes
  period : Seconds
  offset : Seconds
  limits : Counters

structure Config where
  countersUuids : List Bytes
  uuidCounterConfig : UuidCounterConfig
  countersMonitorConfig : CountersMonitorConfig

end EventsCounter
