import EventsCounter.ConfigDocument

/-!
# The Kafka clients of `main`

Four clients are created from the configuration, each with a global and a topic `Conf`. Here a `Conf`
is the settings made on it, in order: whether librdkafka takes a setting is only complained about.
-/

namespace EventsCounter

structure Conf where
  settings : KafkaConfList
deriving DecidableEq, Repr

def Conf.set (conf : Conf) (itr : Bytes × Bytes) : Conf := ⟨conf.settings ++ [itr]⟩

def rdkafkaSetConfVector (confParameters : KafkaConfList) (conf : Conf) : Conf := confParameters.foldl Conf.set conf

structure ClientConf where
  conf : Conf
  tconf : Conf
deriving DecidableEq, Repr

def KafkaUUIDConsumerFactory.create (consumerRkConfV consumerRktConfV : KafkaConfList) : ClientConf :=
  let tconf := rdkafkaSetConfVector consumerRktConfV ⟨[]⟩
  let conf := rdkafkaSetConfVector consumerRkConfV ⟨[]⟩
  ⟨conf, tconf⟩

namespace KafkaJSONCounterProducerFactory

def rdkafkaSetConfVector (confParameters : KafkaConfList) (conf : Conf) : Conf := confParameters.foldl Conf.set conf

def create (uuidCounterConfig : UuidCounterConfig) : ClientConf :=
  let conf := rdkafkaSetConfVector uuidCounterConfig.kafkaConfig.consumerRkConfV ⟨[]⟩
  let tconf := rdkafkaSetConfVector uuidCounterConfig.kafkaConfig.consumerRktConfV ⟨[]⟩
  ⟨conf, tconf⟩

end KafkaJSONCounterProducerFactory

def KafkaJSONCounterConsumer.create (rkConfV rktConfV : KafkaConfList) : ClientConf :=
  let conf := rdkafkaSetConfVector rkConfV ⟨[]⟩
  let tconf := rdkafkaSetConfVector rktConfV ⟨[]⟩
  ⟨conf, tconf⟩

def KafkaMonitorProducer.create (config : CountersMonitorConfig) : ClientConf :=
  let conf := rdkafkaSetConfVector config.kafkaConfig.producerRkConfV ⟨[]⟩
  let tconf := rdkafkaSetConfVector config.kafkaConfig.producerRktConfV ⟨[]⟩
  ⟨conf, tconf⟩

inductive Client
  | uuidConsumer
  | counterProducer
  | counterConsumer
  | monitorProducer
deriving DecidableEq, Repr

def clientConf (config : Config) : Client → ClientConf
  | .uuidConsumer =>
    KafkaUUIDConsumerFactory.create config.uuidCounterConfig.kafkaConfig.consumerRkConfV
      config.uuidCounterConfig.kafkaConfig.consumerRktConfV
  | .counterProducer => KafkaJSONCounterProducerFactory.create config.uuidCounterConfig
  | .counterConsumer =>
    KafkaJSONCounterConsumer.create config.countersMonitorConfig.kafkaConfig.consumerRkConfV
      config.countersMonitorConfig.kafkaConfig.consumerRktConfV
  | .monitorProducer => KafkaMonitorProducer.create config.countersMonitorConfig

/-! ### Whose settings they should get -/

open JsonConfig Outcome

def ownSection (d : Json) : Client → Json
  | .uuidConsumer => ((d.child (lit "counters_config")).child (lit "rdkafka")).child (lit "read")
  | .counterProducer => ((d.child (lit "counters_config")).child (lit "rdkafka")).child (lit "write")
  | .counterConsumer => ((d.child (lit "monitor_config")).child (lit "rdkafka")).child (lit "read")
  | .monitorProducer => ((d.child (lit "monitor_config")).child (lit "rdkafka")).child (lit "write")

/-- The string-valued properties of the section, in document order; there are none without it. -/
def ownProperties (d : Json) (client : Client) : KafkaConfList := properties (ownSection d client).members

/-- Keys that start with `topic.` go to the topic `Conf`, all others to the global one. -/
def split (ps : KafkaConfList) : ClientConf :=
  ⟨⟨ps.filter (fun p => !isRktProp p.1)⟩, ⟨ps.filter (fun p => isRktProp p.1)⟩⟩

def configuredFrom : Client → Client
  | .uuidConsumer => .uuidConsumer
  | .counterProducer => .uuidConsumer
  | .counterConsumer => .counterConsumer
  | .monitorProducer => .monitorProducer

variable {compiler : Compiler} {parse : Parser} {textConfig : Bytes} {config : Config} {d : Json} {client : Client}

@[simp] theorem rdkafkaSetConfVector_settings (ps : KafkaConfList) (conf : Conf) :
    (rdkafkaSetConfVector ps conf).settings = conf.settings ++ ps := by
  unfold rdkafkaSetConfVector
  induction ps generalizing conf with
  | nil => simp
  | cons p ps ih => simp [ih, Conf.set]

theorem factory_rdkafkaSetConfVector_eq (ps : KafkaConfList) (conf : Conf) :
    KafkaJSONCounterProducerFactory.rdkafkaSetConfVector ps conf = rdkafkaSetConfVector ps conf := rfl

theorem rdkafkaSetConfVector_new (ps : KafkaConfList) : rdkafkaSetConfVector ps ⟨[]⟩ = ⟨ps⟩ := by
  have h := rdkafkaSetConfVector_settings ps ⟨[]⟩
  rw [List.nil_append] at h
  exact congrArg Conf.mk h

theorem reported_of_ok (h : jsonConfig compiler parse textConfig = .ok config) :
    reported (document parse textConfig) = config :=
  ((performs_ofDocument compiler _).met_of_eq_ok h).2

/-- Where the settings of a client come from: the producer of the counters gets those of the
consumer of the events. -/
theorem clientConf_eq (h : jsonConfig compiler parse textConfig = .ok config) (client : Client) :
    clientConf config client =
      split ((ownProperties (document parse textConfig) (configuredFrom client)).map asCStr) := by
  rw [← reported_of_ok h]
  cases client
  all_goals
    simp only [clientConf, KafkaUUIDConsumerFactory.create, KafkaJSONCounterProducerFactory.create,
      KafkaJSONCounterConsumer.create, KafkaMonitorProducer.create, factory_rdkafkaSetConfVector_eq,
      rdkafkaSetConfVector_new, reported, countersField, monitorField, kafkaField, jsonParseKafkaProps_eq, List.nil_append]
    rfl

theorem split_asCStr_iff (ps : KafkaConfList) : split (ps.map asCStr) = split ps ↔ ∀ p ∈ ps, 0 ∉ p.1 ∧ 0 ∉ p.2 := by
  simp only [split, ClientConf.mk.injEq, Conf.mk.injEq, filter_asCStr_iff, asCStr_eq_self_iff]

theorem mem_split {p : Bytes × Bytes} {ps : KafkaConfList} :
    p ∈ (split ps).conf.settings ++ (split ps).tconf.settings ↔ p ∈ ps := by
  cases hp : isRktProp p.1 <;> simp [split, hp]

/-- For every accepted document: each client gets the settings of its own section if and only if no
setting is cut off at a NUL and the two sections of the counters say the same. Of two documents that
differ in one section only, the other clients are configured alike unless it is the one the events
are read with, and then if its settings are the same. -/
theorem settings_reach_their_client_iff (compiler : Compiler) (parse : Parser) (textConfig textConfig' : Bytes)
    (config config' : Config) (h : jsonConfig compiler parse textConfig = .ok config)
    (h' : jsonConfig compiler parse textConfig' = .ok config') :
    ((∀ client, clientConf config client = split (ownProperties (document parse textConfig) client)) ↔
      (∀ client, ∀ p ∈ ownProperties (document parse textConfig) client, 0 ∉ p.1 ∧ 0 ∉ p.2) ∧
        split (ownProperties (document parse textConfig) .counterProducer) =
          split (ownProperties (document parse textConfig) .uuidConsumer)) ∧
    ∀ changed, (∀ other, other ≠ changed →
        ownSection (document parse textConfig) other = ownSection (document parse textConfig') other) →
      ((∀ other, other ≠ changed → clientConf config other = clientConf config' other) ↔
        (changed = .uuidConsumer →
          split ((ownProperties (document parse textConfig) .uuidConsumer).map asCStr) =
            split ((ownProperties (document parse textConfig') .uuidConsumer).map asCStr))) := by
  have hconf := clientConf_eq h
  have hconf' := clientConf_eq h'
  refine ⟨⟨?_, ?_⟩, fun changed hother => ⟨?_, ?_⟩⟩
  · intro hown
    have hnul : ∀ client, configuredFrom client = client →
        ∀ p ∈ ownProperties (document parse textConfig) client, 0 ∉ p.1 ∧ 0 ∉ p.2 := fun client hfrom => by
      rw [← split_asCStr_iff, ← hown client, hconf client, hfrom]
    have hread := hnul .uuidConsumer rfl
    have hsame : split (ownProperties (document parse textConfig) .counterProducer) =
        split (ownProperties (document parse textConfig) .uuidConsumer) := by
      rw [← hown .counterProducer, hconf]
      exact (split_asCStr_iff _).2 hread
    refine ⟨?_, hsame⟩
    intro client
    cases client with
    | counterProducer =>
      intro p hp
      rw [← mem_split, hsame, mem_split] at hp
      exact hread p hp
    | uuidConsumer => exact hread
    | counterConsumer => exact hnul _ rfl
    | monitorProducer => exact hnul _ rfl
  · rintro ⟨hnul, hsame⟩ client
    rw [hconf, (split_asCStr_iff _).2 (hnul _)]
    cases client with
    | counterProducer => exact hsame.symm
    | _ => rfl
  · intro hall hread
    have hproducer := hall .counterProducer (by rw [hread]; decide)
    rwa [hconf, hconf'] at hproducer
  · intro hread other hne
    rw [hconf, hconf']
    by_cases hfrom : configuredFrom other = changed
    · have hchanged : changed = .uuidConsumer := by
        cases other with
        | counterProducer => exact hfrom.symm
        | _ => exact absurd hfrom hne
      rw [hfrom, hchanged]
      exact hread hchanged
    · unfold ownProperties
      rw [hother _ hfrom]

/-! ### A configuration -/

/-- A configuration with settings to read events with and settings to produce alerts with. -/
def sampleText (read write : String) : Bytes :=
  lit "\x7b\"uuids\":[]," ++
  lit "\"counters_config\":\x7b" ++
    lit "\"rdkafka\":\x7b\"read\":\x7b" ++ lit read ++ lit "\x7d\x7d," ++
    lit "\"update_interval\":1," ++
    lit "\"json_read_uuid_key\":\"k\"," ++
    lit "\"read_topics\":[]," ++
    lit "\"write_topic\":\"w\"\x7d," ++
  lit "\"monitor_config\":\x7b" ++
    lit "\"rdkafka\":\x7b\"write\":\x7b" ++ lit write ++ lit "\x7d\x7d," ++
    lit "\"timer_seconds\":" ++ lit "\x7b\"period\":5,\"offset\":4\x7d," ++
    lit "\"read_topic\":\"w\"," ++
    lit "\"write_topic\":\"a\"," ++
    lit "\"limits\":[]\x7d\x7d"

def sampleDocument (read write : List (Bytes × Json)) : Json :=
  .object [
    (lit "uuids", .array []),
    (lit "counters_config", .object [
      (lit "rdkafka", .object [(lit "read", .object read)]),
      (lit "update_interval", .number (.integer 1)),
      (lit "json_read_uuid_key", .string (lit "k")),
      (lit "read_topics", .array []),
      (lit "write_topic", .string (lit "w"))]),
    (lit "monitor_config", .object [
      (lit "rdkafka", .object [(lit "write", .object write)]),
      (lit "timer_seconds", .object [
        (lit "period", .number (.integer 5)),
        (lit "offset", .number (.integer 4))]),
      (lit "read_topic", .string (lit "w")),
      (lit "write_topic", .string (lit "a")),
      (lit "limits", .array [])])]

theorem jsonConfig_sample {parse : Parser} {textConfig : Bytes} {read write : List (Bytes × Json)}
    (h : document parse textConfig = sampleDocument read write) :
    jsonConfig ⟨.leftToRight, .leftToRight⟩ parse textConfig = .ok (reported (sampleDocument read write)) := by
  unfold jsonConfig
  rw [h]
  exact (performs_ofDocument _ _).eq_ok rfl

/-- Another setting for the alerts is seen by their producer only. -/
theorem settings_reach_their_client_iff_alerts :
    ∃ parse config config',
      jsonConfig ⟨.leftToRight, .leftToRight⟩ parse (sampleText "" "") = .ok config ∧
      jsonConfig ⟨.leftToRight, .leftToRight⟩ parse (sampleText "" "\"acks\":\"1\"") = .ok config' ∧
      ∀ other, other ≠ .monitorProducer → clientConf config other = clientConf config' other := by
  let parse : Parser := fun text =>
    if text = sampleText "" "" then some (sampleDocument [] [])
    else if text = sampleText "" "\"acks\":\"1\"" then some (sampleDocument [] [(lit "acks", .string (lit "1"))])
    else none
  have hdoc : document parse (sampleText "" "") = sampleDocument [] [] := by
    have hcut : cStr (sampleText "" "") = sampleText "" "" := cStr_eq_self_iff.2 (by decide +kernel)
    rw [document, hcut, show parse (sampleText "" "") = _ from if_pos rfl]
    rfl
  have hdoc' : document parse (sampleText "" "\"acks\":\"1\"") = sampleDocument [] [(lit "acks", .string (lit "1"))] := by
    have hcut : cStr (sampleText "" "\"acks\":\"1\"") = sampleText "" "\"acks\":\"1\"" :=
      cStr_eq_self_iff.2 (by decide +kernel)
    have hne : sampleText "" "\"acks\":\"1\"" ≠ sampleText "" "" := by decide +kernel
    rw [document, hcut, show parse (sampleText "" "\"acks\":\"1\"") = _ from if_neg hne, if_pos rfl]
    rfl
  have hok := jsonConfig_sample hdoc
  have hok' := jsonConfig_sample hdoc'
  refine ⟨parse, _, _, hok, hok', ?_⟩
  have htwo := (settings_reach_their_client_iff _ parse _ _ _ _ hok hok').2 .monitorProducer
  rw [hdoc, hdoc'] at htwo
  refine (htwo fun other hne => ?_).2 fun hread => ?_
  · cases other with
    | monitorProducer => exact absurd rfl hne
    | _ => rfl
  · cases hread

/-- The group of the events' consumer is set on the producer of the counters. -/
theorem settings_reach_their_client_fails :
    ¬ ∀ compiler parse textConfig config, jsonConfig compiler parse textConfig = .ok config →
      ∀ client, clientConf config client = split (ownProperties (document parse textConfig) client) := by
  intro hclaim
  let parse : Parser := fun _ => some (sampleDocument [(lit "group.id", .string (lit "g"))] [])
  have hdoc : document parse (sampleText "\"group.id\":\"g\"" "") =
      sampleDocument [(lit "group.id", .string (lit "g"))] [] := rfl
  have hproducer := hclaim _ parse _ _ (jsonConfig_sample hdoc) .counterProducer
  rw [hdoc] at hproducer
  exact absurd hproducer (by decide)

end EventsCounter
