import EventsCounter.Config
import EventsCounter.Json

/-!
# `JsonConfig`

The constructor reads its document child by child through `get_object_child`, which tests that the
child is there and has the expected type. Some accesses go without a test: the elements of a list of
strings, the entries of the limits, and the representation of a number.
-/

namespace EventsCounter

/-- The two exceptions derived from `JSONParserException`, with their texts. -/
inductive JSONParserException
  | unexpectedType (what : String)
  | childNotFound (what : String)
deriving DecidableEq, Repr

abbrev Parsing := Outcome JSONParserException

/-- C++ leaves the order in which the arguments of a call are evaluated to the compiler. -/
inductive ArgumentOrder
  | leftToRight
  | rightToLeft

structure Compiler where
  limitPair : ArgumentOrder
  timerPair : ArgumentOrder

def ArgumentOrder.pair {α β : Type} (order : ArgumentOrder) (x : Parsing α) (y : Parsing β) : Parsing (α × β) :=
  match order with
  | .leftToRight => do
    let a ← x
    let b ← y
    .ok (a, b)
  | .rightToLeft => do
    let b ← y
    let a ← x
    .ok (a, b)

namespace JsonConfig

def rapidjsonTypeStr : JsonType → String
  | .kNullType => "null"
  | .kFalseType => "boolean"
  | .kTrueType => "boolean"
  | .kObjectType => "object"
  | .kArrayType => "array"
  | .kStringType => "string"
  | .kNumberType => "number"

def getObjectChild {α : Type} (expectedJsonType : JsonType) (object : Json) (value : String)
    (convertCb : Json → Parsing α) (objectName : Option String) : Parsing α := do
  let ret ← object.findMember (lit value)
  match ret with
  | none =>
    .throw (.childNotFound
      ("object" ++ (match objectName with | some name => " " ++ name | none => "") ++ " has no property " ++ value))
  | some ret =>
    let valueType := ret.getType
    if expectedJsonType ≠ valueType then
      .throw (.unexpectedType
        ((match objectName with | some name => "object " ++ name | none => "") ++ "child " ++ value ++ " is not " ++
          rapidjsonTypeStr expectedJsonType ++ " but " ++ rapidjsonTypeStr valueType))
    else convertCb ret

def getObjectObject (object : Json) (value : String) (objectName : Option String := none) : Parsing Json :=
  getObjectChild .kObjectType object value Json.getObject objectName

def getObjectArray (object : Json) (value : String) (objectName : Option String := none) : Parsing (List Json) :=
  getObjectChild .kArrayType object value Json.getArray objectName

def getObjectString (object : Json) (value : String) (objectName : Option String := none) : Parsing Bytes :=
  getObjectChild .kStringType object value Json.getString objectName

def getObjectInt (object : Json) (value : String) (objectName : Option String := none) : Parsing Int64 :=
  getObjectChild .kNumberType object value Json.getInt64 objectName

/-- An element that is not a string is complained about, and read all the same. -/
def getStringVector (topics : List Json) : Parsing (List Bytes) :=
  topics.foldlM (fun ret itr => do
    let s ← itr.getString
    .ok (ret ++ [s])) []

/-! ### Kafka properties -/

/-- `0 == key.compare(0, strlen("topic."), "topic.")` -/
def isRktProp (key : Bytes) : Bool := key.take 6 = lit "topic."

/-- `json_parse_kafka_props`; the two lists are the ones it appends to. -/
def jsonParseKafkaProps (kafkaProps : List (Bytes × Json)) (rkConf rktConf : KafkaConfList) :
    KafkaConfList × KafkaConfList :=
  kafkaProps.foldl (fun (rkConf, rktConf) property =>
    match property.2 with
    | .string s =>
      let key := cStr property.1
      let value := cStr s
      if isRktProp key then (rkConf, rktConf ++ [(key, value)]) else (rkConf ++ [(key, value)], rktConf)
    | _ => (rkConf, rktConf)) (rkConf, rktConf)

/-- One round of the loop of `parse_kafka_properties`: a section that is not there is no error. -/
def parseSection (kafkaConfig : Json) (key : String) (rkConf rktConf : KafkaConfList) :
    Parsing (KafkaConfList × KafkaConfList) :=
  Outcome.handle (do
    let read ← getObjectObject kafkaConfig key
    .ok (jsonParseKafkaProps read.members rkConf rktConf))
    fun
    | .childNotFound _ => .ok (rkConf, rktConf)
    | e => .throw e

def parseKafkaProperties (kafkaConfig : Json) (lists : KafkaConfig) : Parsing KafkaConfig := do
  let (consumerConf, consumerTconf) ← parseSection kafkaConfig "read" lists.consumerRkConfV lists.consumerRktConfV
  let (producerConf, producerTconf) ← parseSection kafkaConfig "write" lists.producerRkConfV lists.producerRktConfV
  .ok ⟨consumerConf, consumerTconf, producerConf, producerTconf⟩

def parseRdkafkaConfiguration (jsonConfig : Json) (objectName : String) : Parsing KafkaConfig := do
  let consumerRdkafkaConfig ← getObjectObject jsonConfig objectName
  parseKafkaProperties consumerRdkafkaConfig ⟨[], [], [], []⟩

/-! ### The other fields -/

def parseReadTopics (jsonConfig : Json) (objectName : String) : Parsing (List Bytes) := do
  let jsonReadTopics ← getObjectArray jsonConfig "read_topics" objectName
  getStringVector jsonReadTopics

def parseReadTopic (jsonConfig : Json) : Parsing Bytes := getObjectString jsonConfig "read_topic"

def parseWriteTopic (jsonConfig : Json) (objectName : String) : Parsing Bytes :=
  getObjectString jsonConfig "write_topic" objectName

def parseUuidKey (jsonConfig : Json) : Parsing Bytes := getObjectString jsonConfig "json_read_uuid_key"

def parseTimer (compiler : Compiler) (jsonConfig : Json) (objectName : String) : Parsing (Seconds × Seconds) := do
  let timer ← getObjectObject jsonConfig "timer_seconds" objectName
  compiler.timerPair.pair (getObjectInt timer "period" "timer_seconds") (getObjectInt timer "offset" "timer_seconds")

def parseUpdateInterval (jsonConfig : Json) (objectName : String) : Parsing UInt64 := do
  let interval ← getObjectInt jsonConfig "update_interval" objectName
  .ok interval.toUInt64

/-- `parse_limits`; `std::map::insert` keeps the entry that is there. -/
def parseLimits (compiler : Compiler) (jsonConfig : Json) : Parsing Counters := do
  let limitsArray ← getObjectArray jsonConfig "limits" "monitor_config"
  limitsArray.foldlM (fun limits v => do
    let (uuid, limit) ← compiler.limitPair.pair (getObjectString v "uuid" "limits") (getObjectInt v "limit" "limits")
    .ok (limits.insertIfNew uuid limit.toUInt64)) ∅

def parseCountersConfig (countersConfig : Json) : Parsing UuidCounterConfig := do
  let kafkaConfig ← parseRdkafkaConfiguration countersConfig "rdkafka"
  let updateInterval ← parseUpdateInterval countersConfig "counters_config"
  let uuidKey ← parseUuidKey countersConfig
  let readTopics ← parseReadTopics countersConfig "counters_config"
  let writeTopic ← parseWriteTopic countersConfig "counters_config"
  .ok ⟨kafkaConfig, readTopics, writeTopic, uuidKey, updateInterval.toInt64⟩

def parseMonitorConfig (compiler : Compiler) (monitorConfig : Json) : Parsing CountersMonitorConfig := do
  let kafkaConfig ← parseRdkafkaConfiguration monitorConfig "rdkafka"
  let (period, offset) ← parseTimer compiler monitorConfig "monitor_config"
  let readTopic ← parseReadTopic monitorConfig
  let writeTopic ← parseWriteTopic monitorConfig "monitor_config"
  let limits ← parseLimits compiler monitorConfig
  .ok ⟨kafkaConfig, readTopic, writeTopic, period, offset, limits⟩

def ofDocument (compiler : Compiler) (d : Json) : Parsing Config := do
  if d.getType ≠ .kObjectType then
    .throw (.unexpectedType "root is not an object")
  else
    let jsonUuids ← getObjectArray d "uuids"
    let countersUuids ← getStringVector jsonUuids
    let countersConfig ← getObjectObject d "counters_config"
    let uuidCounterConfig ← parseCountersConfig countersConfig
    let monitorConfig ← getObjectObject d "monitor_config"
    let countersMonitorConfig ← parseMonitorConfig compiler monitorConfig
    .ok ⟨countersUuids, uuidCounterConfig, countersMonitorConfig⟩

end JsonConfig

/-- The document `d.Parse(text_config.c_str())` leaves: null after a parse error. -/
def document (parse : Parser) (textConfig : Bytes) : Json := (parse (cStr textConfig)).getD .null

/-- `JsonConfig::JsonConfig`. A parse error is not thrown: the document it leaves is not an object. -/
def jsonConfig (compiler : Compiler) (parse : Parser) (textConfig : Bytes) : Parsing Config :=
  JsonConfig.ofDocument compiler (document parse textConfig)

/-- `ifstream_binary_size` on a file of `length` bytes: positions are kept in an `int`. -/
def ifstreamBinarySize (length : ℕ) : ℤ := (Int32.ofNat length).toInt

/-- `parse_json_config_file` on the bytes of the file, `none` when it cannot be opened or read. The
result `none` is the null pointer that makes `main` return 1. -/
def parseJsonConfigFile (compiler : Compiler) (parse : Parser) (file : Option Bytes) : Outcome Empty (Option Config) :=
  match file with
  | none => .ok none
  | some content =>
    let fileSize := ifstreamBinarySize content.length
    if fileSize ≤ 0 then .ok none
    else
      let configText := cStr (content.take fileSize.toNat)
      match jsonConfig compiler parse configText with
      | .ok config => .ok (some config)
      | .throw _ => .ok none
      | .undefined => .undefined

end EventsCounter
