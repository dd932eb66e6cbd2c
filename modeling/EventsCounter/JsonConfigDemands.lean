import EventsCounter.JsonConfig

/-!
# What `JsonConfig` asks of its document

The demands of the constructor, in the order in which it reads, and the configuration it reports when
they are met. A demand is guarded where `get_object_child` tests, trusted where nothing does. They
are written over the total reading functions of `Json`, so that they make sense of every value.
-/

namespace EventsCounter
namespace JsonConfig

open Outcome

/-! ### Demands -/

def asks (v : Json) (name : String) (t : JsonType) : Demand := .guarded ((v.child (lit name)).getType = t)

def asksInt (v : Json) (name : String) : List Demand :=
  [asks v name .kNumberType, .trusted (v.child (lit name)).isInt64]

def stringVectorDemands (elems : List Json) : List Demand := elems.flatMap fun v => [.trusted v.isString]

def asksSection (v : Json) (name : String) : Demand :=
  .guarded ((v.child? (lit name)).all fun w => w.getType = .kObjectType)

def rdkafkaDemands (v : Json) : List Demand :=
  [asks v "rdkafka" .kObjectType, asksSection (v.child (lit "rdkafka")) "read",
    asksSection (v.child (lit "rdkafka")) "write"]

def readTopicsDemands (v : Json) : List Demand :=
  asks v "read_topics" .kArrayType :: stringVectorDemands (v.child (lit "read_topics")).elems

def pairDemands (order : ArgumentOrder) (ds ds' : List Demand) : List Demand :=
  match order with
  | .leftToRight => ds ++ ds'
  | .rightToLeft => ds' ++ ds

def timerDemands (compiler : Compiler) (v : Json) : List Demand :=
  asks v "timer_seconds" .kObjectType ::
    pairDemands compiler.timerPair (asksInt (v.child (lit "timer_seconds")) "period")
      (asksInt (v.child (lit "timer_seconds")) "offset")

def limitDemands (compiler : Compiler) (v : Json) : List Demand :=
  .trusted (v.getType = .kObjectType) ::
    pairDemands compiler.limitPair [asks v "uuid" .kStringType] (asksInt v "limit")

def limitsDemands (compiler : Compiler) (v : Json) : List Demand :=
  asks v "limits" .kArrayType :: (v.child (lit "limits")).elems.flatMap (limitDemands compiler)

def countersDemands (v : Json) : List Demand :=
  rdkafkaDemands v ++ (asksInt v "update_interval" ++ ([asks v "json_read_uuid_key" .kStringType] ++
    (readTopicsDemands v ++ [asks v "write_topic" .kStringType])))

def monitorDemands (compiler : Compiler) (v : Json) : List Demand :=
  rdkafkaDemands v ++ (timerDemands compiler v ++ ([asks v "read_topic" .kStringType] ++
    ([asks v "write_topic" .kStringType] ++ limitsDemands compiler v)))

def demands (compiler : Compiler) (d : Json) : List Demand :=
  .guarded (d.getType = .kObjectType) ::
    ([asks d "uuids" .kArrayType] ++ (stringVectorDemands (d.child (lit "uuids")).elems ++
      ([asks d "counters_config" .kObjectType] ++ (countersDemands (d.child (lit "counters_config")) ++
        ([asks d "monitor_config" .kObjectType] ++ monitorDemands compiler (d.child (lit "monitor_config")))))))

/-! ### What is reported -/

def stringVector (elems : List Json) : List Bytes := elems.map fun v => cStr v.stringValue

def stringField (v : Json) (name : String) : Bytes := cStr (v.child (lit name)).stringValue

def intField (v : Json) (name : String) : Int64 := Int64.ofInt (v.child (lit name)).intValue

def kafkaField (v : Json) : KafkaConfig :=
  let read := jsonParseKafkaProps ((v.child (lit "rdkafka")).child (lit "read")).members [] []
  let write := jsonParseKafkaProps ((v.child (lit "rdkafka")).child (lit "write")).members [] []
  ⟨read.1, read.2, write.1, write.2⟩

def limitsField (v : Json) : Counters :=
  (v.child (lit "limits")).elems.foldl
    (fun limits w => limits.insertIfNew (stringField w "uuid") (intField w "limit").toUInt64) ∅

def countersField (v : Json) : UuidCounterConfig where
  kafkaConfig := kafkaField v
  readTopics := stringVector (v.child (lit "read_topics")).elems
  writeTopic := stringField v "write_topic"
  uuidKey := stringField v "json_read_uuid_key"
  updatePeriod := intField v "update_interval"

def monitorField (v : Json) : CountersMonitorConfig where
  kafkaConfig := kafkaField v
  readTopic := stringField v "read_topic"
  writeTopic := stringField v "write_topic"
  period := intField (v.child (lit "timer_seconds")) "period"
  offset := intField (v.child (lit "timer_seconds")) "offset"
  limits := limitsField v

def reported (d : Json) : Config where
  countersUuids := stringVector (d.child (lit "uuids")).elems
  uuidCounterConfig := countersField (d.child (lit "counters_config"))
  countersMonitorConfig := monitorField (d.child (lit "monitor_config"))

/-! ### The helpers -/

section
variable {α : Type} {v : Json} {name : String} {objectName : Option String}

theorem performs_getObjectChild {t : JsonType} (ht : t ≠ .kNullType) {convertCb : Json → Parsing α} {ds : List Demand}
    {a : α} (hv : v.getType = .kObjectType)
    (hcb : (v.child (lit name)).getType = t → Performs (convertCb (v.child (lit name))) ds a) :
    Performs (getObjectChild t v name convertCb objectName) (asks v name t :: ds) a := by
  unfold getObjectChild Json.findMember
  rw [if_pos hv, Outcome.ok_bind]
  by_cases hchild : (v.child (lit name)).getType = t
  · rw [Json.child?_eq_some hchild ht]
    simpa [Performs, verdict, asks, hchild] using hcb hchild
  · have hrefused : verdict (asks v name t :: ds) = .refused := by simp [verdict, asks, hchild]
    unfold Performs
    rw [hrefused]
    cases hc : v.child? (lit name) with
    | none => exact ⟨_, rfl⟩
    | some w =>
      rw [Json.child_eq_of_some hc] at hchild
      exact ⟨_, if_pos (Ne.symm hchild)⟩

theorem performs_getObjectObject (hv : v.getType = .kObjectType) :
    Performs (getObjectObject v name objectName) [asks v name .kObjectType] (v.child (lit name)) := by
  refine performs_getObjectChild (by decide) hv fun hchild => ?_
  rw [Json.getObject, if_pos hchild]
  exact Performs.ok _

theorem performs_getObjectArray (hv : v.getType = .kObjectType) :
    Performs (getObjectArray v name objectName) [asks v name .kArrayType] (v.child (lit name)).elems := by
  refine performs_getObjectChild (by decide) hv fun hchild => ?_
  rw [Json.getArray, if_pos hchild]
  exact Performs.ok _

theorem performs_getObjectString (hv : v.getType = .kObjectType) :
    Performs (getObjectString v name objectName) [asks v name .kStringType] (stringField v name) := by
  refine performs_getObjectChild (by decide) hv fun hchild => ?_
  have hstring : (v.child (lit name)).isString = true := decide_eq_true hchild
  rw [Json.getString, if_pos hstring]
  exact Performs.ok _

theorem performs_getObjectInt (hv : v.getType = .kObjectType) :
    Performs (getObjectInt v name objectName) (asksInt v name) (intField v name) :=
  performs_getObjectChild (by decide) hv fun _ => Performs.trust rfl

theorem performs_getStringVector (elems : List Json) :
    Performs (getStringVector elems) (stringVectorDemands elems) (stringVector elems) := by
  have hloop : Performs (getStringVector elems) (stringVectorDemands elems)
      (elems.foldl (fun ret v => ret ++ [cStr v.stringValue]) []) := by
    refine Performs.foldlM (fun ret v _ => ?_) []
    have hread : Performs (v.getString : Parsing Bytes) [.trusted v.isString] (cStr v.stringValue) := Performs.trust rfl
    exact Performs.bind hread fun _ => Performs.ok _
  have hmap : elems.foldl (fun ret v => ret ++ [cStr v.stringValue]) [] = stringVector elems := by
    rw [List.foldl_append_eq_append, List.nil_append, ← List.flatMap_def]
    exact List.map_eq_flatMap.symm
  exact hmap ▸ hloop

theorem performs_pair {β : Type} (order : ArgumentOrder) {x : Parsing α} {y : Parsing β} {ds ds' : List Demand} {a : α}
    {b : β} (hx : Performs x ds a) (hy : Performs y ds' b) :
    Performs (order.pair x y) (pairDemands order ds ds') (a, b) := by
  cases order with
  | leftToRight =>
    refine Performs.bind hx fun _ => ?_
    rw [← List.append_nil ds']
    exact Performs.bind hy fun _ => Performs.ok _
  | rightToLeft =>
    refine Performs.bind hy fun _ => ?_
    rw [← List.append_nil ds]
    exact Performs.bind hx fun _ => Performs.ok _

end

/-! ### The functions of the constructor -/

section
variable {v : Json} {compiler : Compiler}

theorem performs_parseSection (hv : v.getType = .kObjectType) (key : String) (rkConf rktConf : KafkaConfList) :
    Performs (parseSection v key rkConf rktConf) [asksSection v key]
      (jsonParseKafkaProps (v.child (lit key)).members rkConf rktConf) := by
  unfold parseSection
  cases hc : v.child? (lit key) with
  | none =>
    have hmissing : getObjectObject v key = .throw (.childNotFound ("object" ++ "" ++ " has no property " ++ key)) := by
      simp [getObjectObject, getObjectChild, Json.findMember, hv, hc]
    have hchild : v.child (lit key) = .null := by
      rw [Json.child, hc]
      rfl
    rw [hmissing, hchild]
    simp [Performs, verdict, asksSection, hc, handle, Json.members, jsonParseKafkaProps]
  | some w =>
    have hchild := Json.child_eq_of_some hc
    by_cases hw : w.getType = .kObjectType
    · have hobject : getObjectObject v key = .ok w := by
        simp [getObjectObject, getObjectChild, Json.findMember, Json.getObject, hv, hc, hw]
      rw [hobject, hchild]
      simp [Performs, verdict, asksSection, hc, hw, handle]
    · obtain ⟨what, hother⟩ : ∃ what, getObjectObject v key = .throw (.unexpectedType what) := by
        simp [getObjectObject, getObjectChild, Json.findMember, hv, hc, Ne.symm hw]
      rw [hother]
      simp [Performs, verdict, asksSection, hc, hw, handle]

theorem performs_parseRdkafkaConfiguration (hv : v.getType = .kObjectType) :
    Performs (parseRdkafkaConfiguration v "rdkafka") (rdkafkaDemands v) (kafkaField v) := by
  refine Performs.bind (performs_getObjectObject hv) fun hmet => ?_
  have hr : (v.child (lit "rdkafka")).getType = .kObjectType := by
    simpa using (verdict_guarded_met_iff.1 hmet).1
  refine Performs.bind (performs_parseSection hr "read" [] []) fun _ => ?_
  exact Performs.bind (performs_parseSection hr "write" [] []) fun _ => Performs.ok _

theorem performs_parseReadTopics (hv : v.getType = .kObjectType) (objectName : String) :
    Performs (parseReadTopics v objectName) (readTopicsDemands v) (stringVector (v.child (lit "read_topics")).elems) :=
  Performs.bind (performs_getObjectArray hv) fun _ => performs_getStringVector _

theorem performs_parseUpdateInterval (hv : v.getType = .kObjectType) (objectName : String) :
    Performs (parseUpdateInterval v objectName) (asksInt v "update_interval") (intField v "update_interval").toUInt64 := by
  rw [← List.append_nil (asksInt v "update_interval")]
  exact Performs.bind (performs_getObjectInt hv) fun _ => Performs.ok _

theorem performs_parseTimer (hv : v.getType = .kObjectType) (objectName : String) :
    Performs (parseTimer compiler v objectName) (timerDemands compiler v)
      (intField (v.child (lit "timer_seconds")) "period", intField (v.child (lit "timer_seconds")) "offset") := by
  refine Performs.bind (performs_getObjectObject hv) fun hmet => ?_
  have ht : (v.child (lit "timer_seconds")).getType = .kObjectType := by
    simpa using (verdict_guarded_met_iff.1 hmet).1
  exact performs_pair _ (performs_getObjectInt ht) (performs_getObjectInt ht)

theorem performs_limit (compiler : Compiler) (hw : v.getType = .kObjectType) (limits : Counters) :
    Performs (do
        let (uuid, limit) ← compiler.limitPair.pair (getObjectString v "uuid" "limits") (getObjectInt v "limit" "limits")
        .ok (limits.insertIfNew uuid limit.toUInt64))
      (pairDemands compiler.limitPair [asks v "uuid" .kStringType] (asksInt v "limit"))
      (limits.insertIfNew (stringField v "uuid") (intField v "limit").toUInt64) := by
  rw [← List.append_nil (pairDemands _ _ _)]
  exact Performs.bind (performs_pair _ (performs_getObjectString hw) (performs_getObjectInt hw)) fun _ => Performs.ok _

theorem performs_parseLimits (hv : v.getType = .kObjectType) :
    Performs (parseLimits compiler v) (limitsDemands compiler v) (limitsField v) := by
  refine Performs.bind (performs_getObjectArray hv) fun _ => ?_
  refine Performs.foldlM (fun limits w _ => ?_) ∅
  by_cases hw : w.getType = .kObjectType
  · simpa [Performs, verdict, limitDemands, hw] using performs_limit compiler hw limits
  · -- `FindMember` on a value that is no object
    have hchild : ∀ {α : Type} t name (convertCb : Json → Parsing α) objectName,
        getObjectChild t w name convertCb objectName = .undefined := fun t name convertCb objectName => by
      unfold getObjectChild Json.findMember
      rw [if_neg hw]
      rfl
    have hstrayed : verdict (limitDemands compiler w) = .strayed := by simp [verdict, limitDemands, hw]
    unfold Performs
    rw [hstrayed]
    show (compiler.limitPair.pair (getObjectChild _ w _ _ _) (getObjectChild _ w _ _ _) >>= _) = _
    rw [hchild, hchild]
    cases compiler.limitPair <;> rfl

theorem performs_parseCountersConfig (hv : v.getType = .kObjectType) :
    Performs (parseCountersConfig v) (countersDemands v) (countersField v) := by
  refine Performs.bind (performs_parseRdkafkaConfiguration hv) fun _ => ?_
  refine Performs.bind (performs_parseUpdateInterval hv _) fun _ => ?_
  refine Performs.bind (performs_getObjectString hv) fun _ => ?_
  refine Performs.bind (performs_parseReadTopics hv _) fun _ => ?_
  rw [← List.append_nil [asks v "write_topic" .kStringType]]
  refine Performs.bind (performs_getObjectString hv) fun _ => ?_
  rw [Int64.toInt64_toUInt64]
  exact Performs.ok _

theorem performs_parseMonitorConfig (hv : v.getType = .kObjectType) :
    Performs (parseMonitorConfig compiler v) (monitorDemands compiler v) (monitorField v) := by
  refine Performs.bind (performs_parseRdkafkaConfiguration hv) fun _ => ?_
  refine Performs.bind (performs_parseTimer hv _) fun _ => ?_
  refine Performs.bind (performs_getObjectString hv) fun _ => ?_
  refine Performs.bind (performs_getObjectString hv) fun _ => ?_
  rw [← List.append_nil (limitsDemands compiler v)]
  exact Performs.bind (performs_parseLimits hv) fun _ => Performs.ok _

/-- The constructor makes the demands of the document, and reports what it says when they are met. -/
theorem performs_ofDocument (compiler : Compiler) (d : Json) :
    Performs (ofDocument compiler d) (demands compiler d) (reported d) := by
  by_cases hd : d.getType = .kObjectType
  · have hbody : Performs (ofDocument compiler d) (demands compiler d).tail (reported d) := by
      unfold ofDocument
      rw [if_neg (not_not.2 hd)]
      refine Performs.bind (performs_getObjectArray hd) fun _ => ?_
      refine Performs.bind (performs_getStringVector _) fun _ => ?_
      refine Performs.bind (performs_getObjectObject hd) fun hmet => ?_
      have hc : (d.child (lit "counters_config")).getType = .kObjectType := by
        simpa using (verdict_guarded_met_iff.1 hmet).1
      refine Performs.bind (performs_parseCountersConfig hc) fun _ => ?_
      refine Performs.bind (performs_getObjectObject hd) fun hmet => ?_
      have hm : (d.child (lit "monitor_config")).getType = .kObjectType := by
        simpa using (verdict_guarded_met_iff.1 hmet).1
      rw [← List.append_nil (monitorDemands _ _)]
      exact Performs.bind (performs_parseMonitorConfig hm) fun _ => Performs.ok _
    simpa [Performs, verdict, demands, hd] using hbody
  · have hrefused : verdict (demands compiler d) = .refused := by simp [verdict, demands, hd]
    unfold Performs
    rw [hrefused]
    exact ⟨_, if_pos hd⟩

end

end JsonConfig
end EventsCounter
