import EventsCounter.JsonConfigDemands

/-!
# Well-typed configuration documents

What a document says, with no regard to how it is read: `Writes d c` holds when the document `d`
writes down the configuration `c`, every field in full. A document is well typed when it writes down
some configuration, and the constructor is faithful to it when it reports such a one, or throws if
there is none.

A document that meets all demands of the constructor is not misread unless one of its strings is cut
off at a NUL or a limit is negative (`writes_reported_iff`), and a well-typed one meets them all
(`Writes.met`).
-/

namespace EventsCounter
namespace JsonConfig

open Outcome

/-! ### What a document writes down -/

def WritesString (v : Json) (name : String) (s : Bytes) : Prop := v.child? (lit name) = some (.string s)

def WritesStrings (v : Json) (name : String) (ss : List Bytes) : Prop :=
  v.child? (lit name) = some (.array (ss.map .string))

def WritesInt (v : Json) (name : String) (x : Int64) : Prop :=
  v.child? (lit name) = some (.number (.integer x.toInt))

def properties (members : List (Bytes × Json)) : KafkaConfList :=
  members.filterMap fun property =>
    match property.2 with
    | .string s => some (property.1, s)
    | _ => none

/-- The settings of a section: for the topic those whose key starts with `topic.`, the others global. -/
def WritesSection (v : Json) (name : String) (rkConf rktConf : KafkaConfList) : Prop :=
  (∀ w, v.child? (lit name) = some w → w.getType = .kObjectType) ∧
    rkConf = (properties (v.child (lit name)).members).filter (fun p => !isRktProp p.1) ∧
    rktConf = (properties (v.child (lit name)).members).filter (fun p => isRktProp p.1)

structure WritesKafka (v : Json) (c : KafkaConfig) : Prop where
  rdkafka : (v.child (lit "rdkafka")).getType = .kObjectType
  consumer : WritesSection (v.child (lit "rdkafka")) "read" c.consumerRkConfV c.consumerRktConfV
  producer : WritesSection (v.child (lit "rdkafka")) "write" c.producerRkConfV c.producerRktConfV

/-- An entry of the limits: the limit is written as a non-negative integer. -/
def WritesLimit (v : Json) (entry : Bytes × UInt64) : Prop :=
  WritesString v "uuid" entry.1 ∧ v.child? (lit "limit") = some (.number (.integer entry.2.toNat)) ∧
    entry.2.toNat < 2 ^ 63

def WritesLimits (v : Json) (limits : Counters) : Prop :=
  ∃ entries : List (Bytes × UInt64), (v.child (lit "limits")).getType = .kArrayType ∧
    List.Forall₂ WritesLimit (v.child (lit "limits")).elems entries ∧
    ∀ u, limits[u]? = (entries.find? fun e => e.1 = u).map Prod.snd

structure WritesCounters (v : Json) (c : UuidCounterConfig) : Prop where
  kafka : WritesKafka v c.kafkaConfig
  updateInterval : WritesInt v "update_interval" c.updatePeriod
  uuidKey : WritesString v "json_read_uuid_key" c.uuidKey
  readTopics : WritesStrings v "read_topics" c.readTopics
  writeTopic : WritesString v "write_topic" c.writeTopic

structure WritesMonitor (v : Json) (c : CountersMonitorConfig) : Prop where
  kafka : WritesKafka v c.kafkaConfig
  period : WritesInt (v.child (lit "timer_seconds")) "period" c.period
  offset : WritesInt (v.child (lit "timer_seconds")) "offset" c.offset
  readTopic : WritesString v "read_topic" c.readTopic
  writeTopic : WritesString v "write_topic" c.writeTopic
  limits : WritesLimits v c.limits

structure Writes (d : Json) (c : Config) : Prop where
  uuids : WritesStrings d "uuids" c.countersUuids
  counters : WritesCounters (d.child (lit "counters_config")) c.uuidCounterConfig
  monitor : WritesMonitor (d.child (lit "monitor_config")) c.countersMonitorConfig

/-- What the constructor should do with the document `d`. -/
def Faithful (d : Json) (m : Parsing Config) : Prop :=
  match m with
  | .ok c => Writes d c
  | .throw _ => ¬ ∃ c, Writes d c
  | .undefined => False

/-! ### The strings of a document -/

def sectionStrings (v : Json) (name : String) : List Bytes :=
  (properties (v.child (lit name)).members).flatMap fun p => [p.1, p.2]

def kafkaStrings (v : Json) : List Bytes :=
  sectionStrings (v.child (lit "rdkafka")) "read" ++ sectionStrings (v.child (lit "rdkafka")) "write"

def stringAt (v : Json) (name : String) : Bytes := (v.child (lit name)).stringValue

def stringsAt (v : Json) (name : String) : List Bytes := (v.child (lit name)).elems.map Json.stringValue

def countersStrings (v : Json) : List Bytes :=
  kafkaStrings v ++ (stringAt v "json_read_uuid_key" :: stringAt v "write_topic" :: stringsAt v "read_topics")

def limitStrings (v : Json) : List Bytes := (v.child (lit "limits")).elems.map fun w => stringAt w "uuid"

def monitorStrings (v : Json) : List Bytes :=
  kafkaStrings v ++ (stringAt v "read_topic" :: stringAt v "write_topic" :: limitStrings v)

def strings (d : Json) : List Bytes :=
  stringsAt d "uuids" ++ (countersStrings (d.child (lit "counters_config")) ++
    monitorStrings (d.child (lit "monitor_config")))

def NulFree (ss : List Bytes) : Prop := ∀ s ∈ ss, 0 ∉ s

def limitValues (v : Json) : List ℤ := (v.child (lit "limits")).elems.map fun w => (w.child (lit "limit")).intValue

@[simp] theorem nulFree_append {ss ss' : List Bytes} : NulFree (ss ++ ss') ↔ NulFree ss ∧ NulFree ss' :=
  List.forall_mem_append

@[simp] theorem nulFree_cons {s : Bytes} {ss : List Bytes} : NulFree (s :: ss) ↔ 0 ∉ s ∧ NulFree ss :=
  List.forall_mem_cons

/-! ### Reading single fields -/

section
variable {v : Json} {name : String}

theorem writesString_iff (h : verdict [asks v name .kStringType] = .met) :
    WritesString v name (stringField v name) ↔ 0 ∉ stringAt v name := by
  have ht : (v.child (lit name)).getType = .kStringType := by simpa using (verdict_guarded_met_iff.1 h).1
  rw [WritesString, Json.child?_eq_some ht (by decide), Json.eq_string ht, Option.some.injEq, Json.string.injEq,
    eq_comm, stringField, stringAt, cStr_eq_self_iff]

theorem WritesString.met {s : Bytes} (h : WritesString v name s) : verdict [asks v name .kStringType] = .met := by
  simp [verdict, asks, Json.child_eq_of_some h, Json.getType]

theorem writesStrings_iff (h : verdict [asks v name .kArrayType] = .met)
    (hs : verdict (stringVectorDemands (v.child (lit name)).elems) = .met) :
    WritesStrings v name (stringVector (v.child (lit name)).elems) ↔ NulFree (stringsAt v name) := by
  have ht : (v.child (lit name)).getType = .kArrayType := by simpa using (verdict_guarded_met_iff.1 h).1
  have hstring : ∀ w ∈ (v.child (lit name)).elems, w = .string w.stringValue := fun w hw => by
    have hmet := verdict_flatMap_met_iff.1 hs w hw
    exact Json.eq_string (by simpa [Json.isString] using (verdict_trusted_met_iff.1 hmet).1)
  have helems : ∀ elems : List Json, (∀ w ∈ elems, w = .string w.stringValue) →
      (elems = (stringVector elems).map .string ↔ NulFree (elems.map Json.stringValue)) := by
    intro elems hall
    induction elems with
    | nil => simp [stringVector, NulFree]
    | cons w elems ih =>
      obtain ⟨hw, hrest⟩ := List.forall_mem_cons.1 hall
      have hhead : w = .string (cStr w.stringValue) ↔ 0 ∉ w.stringValue := by
        rw [← cStr_eq_self_iff]
        constructor
        · intro h
          rw [hw, Json.string.injEq] at h
          exact h.symm
        · intro h
          rw [h]
          exact hw
      rw [List.map_cons, nulFree_cons, ← ih hrest, ← hhead]
      simp [stringVector]
  rw [WritesStrings, Json.child?_eq_some ht (by decide), Option.some.injEq, stringsAt, ← helems _ hstring]
  conv => lhs; lhs; rw [Json.eq_array ht]
  rw [Json.array.injEq]

theorem WritesStrings.met {ss : List Bytes} (h : WritesStrings v name ss) :
    verdict [asks v name .kArrayType] = .met ∧ verdict (stringVectorDemands (v.child (lit name)).elems) = .met := by
  have hchild := Json.child_eq_of_some h
  refine ⟨by simp [verdict, asks, hchild, Json.getType], ?_⟩
  rw [hchild, stringVectorDemands, verdict_flatMap_met_iff]
  intro w hw
  obtain ⟨s, -, rfl⟩ := List.mem_map.1 hw
  rfl

theorem writesInt (h : verdict (asksInt v name) = .met) : WritesInt v name (intField v name) := by
  obtain ⟨ht, hint⟩ := verdict_guarded_met_iff.1 h
  have hint' : (v.child (lit name)).isInt64 = true := (verdict_trusted_met_iff.1 hint).1
  obtain ⟨heq, hlo, hhi⟩ := Json.eq_integer hint'
  rw [WritesInt, Json.child?_eq_some (by simpa using ht) (by decide), intField, Int64.toInt_ofInt_of_le hlo hhi]
  rw [← heq]

theorem WritesInt.met {x : Int64} (h : WritesInt v name x) : verdict (asksInt v name) = .met := by
  have hlo := x.le_toInt
  have hhi := x.toInt_lt
  simp only [verdict, asksInt, asks, Json.child_eq_of_some h, Json.getType, Json.isInt64]
  simp only [decide_true, if_true]
  rw [if_pos (by simp only [decide_eq_true_eq]; omega)]

end

/-! ### Kafka settings -/

def asCStr (p : Bytes × Bytes) : Bytes × Bytes := (cStr p.1, cStr p.2)

theorem jsonParseKafkaProps_eq (members : List (Bytes × Json)) (rkConf rktConf : KafkaConfList) :
    jsonParseKafkaProps members rkConf rktConf =
      (rkConf ++ ((properties members).map asCStr).filter (fun p => !isRktProp p.1),
        rktConf ++ ((properties members).map asCStr).filter (fun p => isRktProp p.1)) := by
  induction members generalizing rkConf rktConf with
  | nil => simp [jsonParseKafkaProps, properties]
  | cons property members ih =>
    obtain ⟨name, value⟩ := property
    unfold jsonParseKafkaProps properties at ih ⊢
    rw [List.foldl_cons]
    cases value with
    | string s =>
      by_cases hrkt : isRktProp (cStr name) = true
      · simp [hrkt, ih, asCStr]
      · simp [hrkt, ih, asCStr]
    | _ => simp [ih]

theorem asCStr_eq_self_iff {p : Bytes × Bytes} : asCStr p = p ↔ 0 ∉ p.1 ∧ 0 ∉ p.2 := by
  rw [asCStr, Prod.ext_iff, cStr_eq_self_iff, cStr_eq_self_iff]

/-- Cutting all strings off changes neither list of settings only where there is nothing to cut. -/
theorem filter_asCStr_iff (ps : KafkaConfList) :
    ((ps.map asCStr).filter (fun p => !isRktProp p.1) = ps.filter (fun p => !isRktProp p.1) ∧
      (ps.map asCStr).filter (fun p => isRktProp p.1) = ps.filter (fun p => isRktProp p.1)) ↔
      ∀ p ∈ ps, asCStr p = p := by
  constructor
  · rintro ⟨hrk, hrkt⟩ p hp
    have hmem : p ∈ ps.map asCStr := by
      by_cases h : isRktProp p.1 = true
      · have hfilter : p ∈ ps.filter (fun p => isRktProp p.1) := List.mem_filter.2 ⟨hp, h⟩
        rw [← hrkt] at hfilter
        exact List.mem_of_mem_filter hfilter
      · have hfilter : p ∈ ps.filter (fun p => !isRktProp p.1) := List.mem_filter.2 ⟨hp, by simpa using h⟩
        rw [← hrk] at hfilter
        exact List.mem_of_mem_filter hfilter
    obtain ⟨q, -, rfl⟩ := List.mem_map.1 hmem
    exact asCStr_eq_self_iff.2 ⟨zero_notMem_cStr _, zero_notMem_cStr _⟩
  · intro h
    have hmap : ps.map asCStr = ps := (List.map_congr_left h).trans (List.map_id ps)
    exact ⟨by rw [hmap], by rw [hmap]⟩

section
variable {v : Json} {name : String}

theorem nulFree_sectionStrings_iff :
    NulFree (sectionStrings v name) ↔ ∀ p ∈ properties (v.child (lit name)).members, asCStr p = p := by
  unfold NulFree sectionStrings
  constructor
  · intro h p hp
    exact asCStr_eq_self_iff.2 ⟨h _ (List.mem_flatMap.2 ⟨p, hp, by simp⟩), h _ (List.mem_flatMap.2 ⟨p, hp, by simp⟩)⟩
  · intro h s hs
    obtain ⟨p, hp, hsp⟩ := List.mem_flatMap.1 hs
    obtain ⟨hkey, hvalue⟩ := asCStr_eq_self_iff.1 (h p hp)
    rcases List.mem_pair.1 hsp with rfl | rfl
    · exact hkey
    · exact hvalue

theorem asksSection_met_iff :
    verdict [asksSection v name] = .met ↔ ∀ w, v.child? (lit name) = some w → w.getType = .kObjectType := by
  rw [asksSection, verdict_guarded_met_iff, Option.all_eq_true]
  simp [verdict]

theorem writesSection_iff (h : verdict [asksSection v name] = .met) :
    WritesSection v name (jsonParseKafkaProps (v.child (lit name)).members [] []).1
      (jsonParseKafkaProps (v.child (lit name)).members [] []).2 ↔ NulFree (sectionStrings v name) := by
  rw [WritesSection, nulFree_sectionStrings_iff, ← filter_asCStr_iff, jsonParseKafkaProps_eq, List.nil_append,
    List.nil_append]
  exact and_iff_right (asksSection_met_iff.1 h)

theorem rdkafkaDemands_met_iff : verdict (rdkafkaDemands v) = .met ↔
    (v.child (lit "rdkafka")).getType = .kObjectType ∧
      verdict [asksSection (v.child (lit "rdkafka")) "read"] = .met ∧
        verdict [asksSection (v.child (lit "rdkafka")) "write"] = .met := by
  rw [rdkafkaDemands, asks, verdict_guarded_met_iff, decide_eq_true_eq,
    show ∀ d d' : Demand, [d, d'] = [d] ++ [d'] from fun _ _ => rfl, verdict_append_met_iff]

theorem writesKafka_iff (h : verdict (rdkafkaDemands v) = .met) :
    WritesKafka v (kafkaField v) ↔ NulFree (kafkaStrings v) := by
  obtain ⟨hr, hread, hwrite⟩ := rdkafkaDemands_met_iff.1 h
  rw [kafkaStrings, nulFree_append, ← writesSection_iff hread, ← writesSection_iff hwrite]
  exact ⟨fun h => ⟨h.consumer, h.producer⟩, fun h => ⟨hr, h.1, h.2⟩⟩

theorem WritesKafka.met {c : KafkaConfig} (h : WritesKafka v c) : verdict (rdkafkaDemands v) = .met :=
  rdkafkaDemands_met_iff.2 ⟨h.rdkafka, asksSection_met_iff.2 h.consumer.1, asksSection_met_iff.2 h.producer.1⟩

end

/-! ### Limits -/

theorem getElem?_foldl_insertIfNew {γ : Type} (key : γ → Bytes) (value : γ → UInt64) (xs : List γ) (m : Counters)
    (u : Bytes) :
    (xs.foldl (fun m x => m.insertIfNew (key x) (value x)) m)[u]? =
      m[u]?.or ((xs.find? fun x => key x = u).map value) := by
  induction xs generalizing m with
  | nil => simp
  | cons x xs ih =>
    rw [List.foldl_cons, ih, Std.ExtTreeMap.getElem?_insertIfNew]
    by_cases hx : key x = u
    · subst hx
      by_cases hmem : key x ∈ m
      · simp [hmem]
      · simp [hmem]
    · have hne : ¬ compare (key x) u = .eq := fun h => hx (Std.LawfulEqOrd.eq_of_compare h)
      simp [hx, hne]

section
variable {v : Json} {compiler : Compiler}

theorem pairDemands_met_iff {order : ArgumentOrder} {ds ds' : List Demand} :
    verdict (pairDemands order ds ds') = .met ↔ verdict ds = .met ∧ verdict ds' = .met := by
  cases order with
  | leftToRight => exact verdict_append_met_iff
  | rightToLeft => exact verdict_append_met_iff.trans and_comm

theorem limitDemands_met_iff : verdict (limitDemands compiler v) = .met ↔
    verdict [asks v "uuid" .kStringType] = .met ∧ verdict (asksInt v "limit") = .met := by
  rw [limitDemands, verdict_trusted_met_iff, pairDemands_met_iff, decide_eq_true_eq]
  refine and_iff_right_of_imp fun h => ?_
  have ht : (v.child (lit "uuid")).getType = .kStringType := by simpa using (verdict_guarded_met_iff.1 h.1).1
  exact Json.isObject_of_child? (Json.child?_eq_some ht (by decide))

theorem limitsDemands_met_iff : verdict (limitsDemands compiler v) = .met ↔
    (v.child (lit "limits")).getType = .kArrayType ∧
      ∀ w ∈ (v.child (lit "limits")).elems, verdict (limitDemands compiler w) = .met := by
  rw [limitsDemands, asks, verdict_guarded_met_iff, verdict_flatMap_met_iff, decide_eq_true_eq]

theorem writesLimit_iff (h : verdict (limitDemands compiler v) = .met) :
    WritesLimit v (stringField v "uuid", (intField v "limit").toUInt64) ↔
      0 ∉ stringAt v "uuid" ∧ 0 ≤ (v.child (lit "limit")).intValue := by
  obtain ⟨huuid, hlimit⟩ := limitDemands_met_iff.1 h
  have hwritten : v.child? (lit "limit") = some (.number (.integer (intField v "limit").toInt)) := writesInt hlimit
  have hint : (v.child (lit "limit")).intValue = (intField v "limit").toInt := by
    rw [Json.child_eq_of_some hwritten]
    rfl
  have hword := int64_toInt_eq (intField v "limit")
  have hlt := (intField v "limit").toUInt64.toNat_lt
  rw [WritesLimit, writesString_iff huuid, hwritten, hint]
  simp only [Option.some.injEq, Json.number.injEq, Number.integer.injEq]
  refine and_congr_right fun _ => ?_
  split at hword <;> omega

theorem WritesLimit.met {entry : Bytes × UInt64} (h : WritesLimit v entry) :
    verdict (limitDemands compiler v) = .met := by
  obtain ⟨huuid, hlimit, hlt⟩ := h
  refine limitDemands_met_iff.2 ⟨huuid.met, WritesInt.met (x := entry.2.toInt64) ?_⟩
  rw [WritesInt, uint64_toInt64_of_lt hlt]
  exact hlimit

theorem WritesLimit.uuid_eq {entry : Bytes × UInt64} (h : WritesLimit v entry) :
    stringAt v "uuid" = entry.1 ∧ (v.child (lit "limit")).intValue = entry.2.toNat := by
  obtain ⟨huuid, hlimit, -⟩ := h
  rw [stringAt, Json.child_eq_of_some huuid, Json.child_eq_of_some hlimit]
  exact ⟨rfl, rfl⟩

theorem writesLimits_iff (h : verdict (limitsDemands compiler v) = .met) :
    WritesLimits v (limitsField v) ↔ NulFree (limitStrings v) ∧ ∀ z ∈ limitValues v, 0 ≤ z := by
  obtain ⟨harray, hall⟩ := limitsDemands_met_iff.1 h
  have hlookup : ∀ u, (limitsField v)[u]? = ((v.child (lit "limits")).elems.find? fun w => stringField w "uuid" = u).map
      fun w => (intField w "limit").toUInt64 := fun u => by
    rw [limitsField, getElem?_foldl_insertIfNew]
    simp
  constructor
  · rintro ⟨entries, -, hentries, hfirst⟩
    have hentry : ∀ w ∈ (v.child (lit "limits")).elems, ∃ e ∈ entries, WritesLimit w e := fun w hw => by
      obtain ⟨i, hi, rfl⟩ := List.mem_iff_getElem.1 hw
      have hi' : i < entries.length := hentries.length_eq ▸ hi
      exact ⟨entries[i], List.getElem_mem hi', hentries.get hi hi'⟩
    constructor
    · intro s hs
      obtain ⟨w, hw, rfl⟩ := List.mem_map.1 hs
      obtain ⟨e, he, hwe⟩ := hentry w hw
      rw [hwe.uuid_eq.1]
      -- the uuid is a key of the table, and those have been C strings
      have hsome : (limitsField v)[e.1]?.isSome = true := by
        rw [hfirst, Option.isSome_map, List.find?_isSome]
        exact ⟨e, he, by simp⟩
      rw [hlookup, Option.isSome_map, List.find?_isSome] at hsome
      obtain ⟨w', -, hkey⟩ := hsome
      have hkey' : stringField w' "uuid" = e.1 := by simpa using hkey
      exact hkey' ▸ zero_notMem_cStr _
    · intro z hz
      obtain ⟨w, hw, rfl⟩ := List.mem_map.1 hz
      obtain ⟨e, -, hwe⟩ := hentry w hw
      rw [hwe.uuid_eq.2]
      exact Int.natCast_nonneg _
  · rintro ⟨hnul, hnonneg⟩
    refine ⟨(v.child (lit "limits")).elems.map fun w => (stringField w "uuid", (intField w "limit").toUInt64), harray, ?_, ?_⟩
    · rw [List.forall₂_map_right_iff, List.forall₂_same]
      intro w hw
      exact (writesLimit_iff (hall w hw)).2 ⟨hnul _ (List.mem_map_of_mem hw), hnonneg _ (List.mem_map_of_mem hw)⟩
    · intro u
      rw [hlookup, List.find?_map, Option.map_map]
      rfl

theorem WritesLimits.met {limits : Counters} (h : WritesLimits v limits) :
    verdict (limitsDemands compiler v) = .met := by
  obtain ⟨entries, harray, hentries, -⟩ := h
  refine limitsDemands_met_iff.2 ⟨harray, ?_⟩
  intro w hw
  obtain ⟨i, hi, rfl⟩ := List.mem_iff_getElem.1 hw
  have hi' : i < entries.length := hentries.length_eq ▸ hi
  exact WritesLimit.met (hentries.get hi hi')

end

/-! ### The two halves and the whole -/

section
variable {v d : Json} {compiler : Compiler}

theorem readTopicsDemands_met_iff : verdict (readTopicsDemands v) = .met ↔
    verdict [asks v "read_topics" .kArrayType] = .met ∧
      verdict (stringVectorDemands (v.child (lit "read_topics")).elems) = .met := by
  rw [readTopicsDemands, ← List.singleton_append, verdict_append_met_iff]

theorem countersDemands_met_iff : verdict (countersDemands v) = .met ↔
    verdict (rdkafkaDemands v) = .met ∧ verdict (asksInt v "update_interval") = .met ∧
      verdict [asks v "json_read_uuid_key" .kStringType] = .met ∧ verdict (readTopicsDemands v) = .met ∧
        verdict [asks v "write_topic" .kStringType] = .met := by
  rw [countersDemands, verdict_append_met_iff, verdict_append_met_iff, verdict_append_met_iff, verdict_append_met_iff]

theorem writesCounters_iff (h : verdict (countersDemands v) = .met) :
    WritesCounters v (countersField v) ↔ NulFree (countersStrings v) := by
  obtain ⟨hkafka, hint, hkey, htopics, htopic⟩ := countersDemands_met_iff.1 h
  obtain ⟨harray, helems⟩ := readTopicsDemands_met_iff.1 htopics
  rw [countersStrings, nulFree_append, nulFree_cons, nulFree_cons, ← writesKafka_iff hkafka, ← writesString_iff hkey,
    ← writesString_iff htopic, ← writesStrings_iff harray helems]
  constructor
  · intro hw
    exact ⟨hw.kafka, hw.uuidKey, hw.writeTopic, hw.readTopics⟩
  · rintro ⟨hwkafka, hwkey, hwtopic, hwtopics⟩
    exact ⟨hwkafka, writesInt hint, hwkey, hwtopics, hwtopic⟩

theorem WritesCounters.met {c : UuidCounterConfig} (h : WritesCounters v c) : verdict (countersDemands v) = .met :=
  countersDemands_met_iff.2 ⟨h.kafka.met, h.updateInterval.met, h.uuidKey.met,
    readTopicsDemands_met_iff.2 h.readTopics.met, h.writeTopic.met⟩

theorem timerDemands_met_iff : verdict (timerDemands compiler v) = .met ↔
    verdict (asksInt (v.child (lit "timer_seconds")) "period") = .met ∧
      verdict (asksInt (v.child (lit "timer_seconds")) "offset") = .met := by
  rw [timerDemands, asks, verdict_guarded_met_iff, pairDemands_met_iff, decide_eq_true_eq]
  refine and_iff_right_of_imp fun h => ?_
  exact Json.isObject_of_child? (writesInt h.1)

theorem monitorDemands_met_iff : verdict (monitorDemands compiler v) = .met ↔
    verdict (rdkafkaDemands v) = .met ∧ verdict (timerDemands compiler v) = .met ∧
      verdict [asks v "read_topic" .kStringType] = .met ∧ verdict [asks v "write_topic" .kStringType] = .met ∧
        verdict (limitsDemands compiler v) = .met := by
  rw [monitorDemands, verdict_append_met_iff, verdict_append_met_iff, verdict_append_met_iff, verdict_append_met_iff]

theorem writesMonitor_iff (h : verdict (monitorDemands compiler v) = .met) :
    WritesMonitor v (monitorField v) ↔ NulFree (monitorStrings v) ∧ ∀ z ∈ limitValues v, 0 ≤ z := by
  obtain ⟨hkafka, htimer, hread, hwrite, hlimits⟩ := monitorDemands_met_iff.1 h
  obtain ⟨hperiod, hoffset⟩ := timerDemands_met_iff.1 htimer
  rw [monitorStrings, nulFree_append, nulFree_cons, nulFree_cons, and_assoc, and_assoc, and_assoc,
    ← writesLimits_iff hlimits, ← writesKafka_iff hkafka, ← writesString_iff hread, ← writesString_iff hwrite]
  constructor
  · intro hw
    exact ⟨hw.kafka, hw.readTopic, hw.writeTopic, hw.limits⟩
  · rintro ⟨hwkafka, hwread, hwwrite, hwlimits⟩
    exact ⟨hwkafka, writesInt hperiod, writesInt hoffset, hwread, hwwrite, hwlimits⟩

theorem WritesMonitor.met {c : CountersMonitorConfig} (h : WritesMonitor v c) :
    verdict (monitorDemands compiler v) = .met :=
  monitorDemands_met_iff.2 ⟨h.kafka.met, timerDemands_met_iff.2 ⟨h.period.met, h.offset.met⟩, h.readTopic.met,
    h.writeTopic.met, h.limits.met⟩

theorem demands_met_iff : verdict (demands compiler d) = .met ↔
    verdict [asks d "uuids" .kArrayType] = .met ∧ verdict (stringVectorDemands (d.child (lit "uuids")).elems) = .met ∧
      verdict (countersDemands (d.child (lit "counters_config"))) = .met ∧
        verdict (monitorDemands compiler (d.child (lit "monitor_config"))) = .met := by
  rw [demands, verdict_guarded_met_iff, verdict_append_met_iff, verdict_append_met_iff, verdict_append_met_iff,
    verdict_append_met_iff, verdict_append_met_iff, decide_eq_true_eq]
  -- the two halves and the document are objects, for something is found in them
  constructor
  · rintro ⟨-, huuids, helems, -, hcounters, -, hmonitor⟩
    exact ⟨huuids, helems, hcounters, hmonitor⟩
  · rintro ⟨huuids, helems, hcounters, hmonitor⟩
    have harray : (d.child (lit "uuids")).getType = .kArrayType := by simpa using (verdict_guarded_met_iff.1 huuids).1
    have hd := Json.isObject_of_child? (Json.child?_eq_some harray (by decide))
    have hc := Json.isObject_of_child? (writesInt (countersDemands_met_iff.1 hcounters).2.1)
    have hm : (d.child (lit "monitor_config")).getType = .kObjectType := by
      have hr := (rdkafkaDemands_met_iff.1 (monitorDemands_met_iff.1 hmonitor).1).1
      exact Json.isObject_of_child? (Json.child?_eq_some hr (by decide))
    refine ⟨hd, huuids, helems, ?_, hcounters, ?_, hmonitor⟩
    · simp [verdict, asks, hc]
    · simp [verdict, asks, hm]

theorem writes_reported_iff (h : verdict (demands compiler d) = .met) :
    Writes d (reported d) ↔
      NulFree (strings d) ∧ ∀ z ∈ limitValues (d.child (lit "monitor_config")), 0 ≤ z := by
  obtain ⟨huuids, helems, hcounters, hmonitor⟩ := demands_met_iff.1 h
  rw [strings, nulFree_append, nulFree_append, and_assoc, and_assoc, ← writesMonitor_iff hmonitor,
    ← writesCounters_iff hcounters, ← writesStrings_iff huuids helems]
  exact ⟨fun hw => ⟨hw.uuids, hw.counters, hw.monitor⟩, fun hw => ⟨hw.1, hw.2.1, hw.2.2⟩⟩

theorem Writes.met {c : Config} (h : Writes d c) : verdict (demands compiler d) = .met :=
  demands_met_iff.2 ⟨h.uuids.met.1, h.uuids.met.2, h.counters.met, h.monitor.met⟩

/-- The constructor is faithful to a document exactly when it does not stray on the way to the first
refusal, and cuts off and wraps nothing if it gets to the end. -/
theorem faithful_iff (compiler : Compiler) (d : Json) :
    Faithful d (ofDocument compiler d) ↔
      verdict (demands compiler d) ≠ .strayed ∧
        (verdict (demands compiler d) = .met →
          NulFree (strings d) ∧ ∀ z ∈ limitValues (d.child (lit "monitor_config")), 0 ≤ z) := by
  have hperforms := performs_ofDocument compiler d
  cases hv : verdict (demands compiler d) with
  | met =>
    rw [hperforms.eq_ok hv, ← writes_reported_iff hv]
    simp [Faithful]
  | refused =>
    obtain ⟨e, he⟩ := hperforms.exists_throw hv
    have hill : ¬ ∃ c, Writes d c := by
      rintro ⟨c, hc⟩
      have hmet : verdict (demands compiler d) = .met := hc.met
      rw [hv] at hmet
      cases hmet
    rw [he]
    simpa [Faithful] using hill
  | strayed =>
    rw [hperforms.eq_undefined hv]
    simp [Faithful]

end

end JsonConfig

/-! ### Texts and files -/

open JsonConfig Outcome

theorem parseJsonConfigFile_of_throw {compiler : Compiler} {parse : Parser} {textConfig : Bytes}
    {e : JSONParserException} (h : jsonConfig compiler parse textConfig = .throw e)
    (hlength : textConfig.length < 2 ^ 31) : parseJsonConfigFile compiler parse (some textConfig) = .ok none := by
  have hsize : ifstreamBinarySize textConfig.length = textConfig.length := Int32.toInt_ofNat_of_lt hlength
  have hcut : jsonConfig compiler parse (cStr textConfig) = jsonConfig compiler parse textConfig := by
    unfold jsonConfig document
    rw [cStr_eq_self_iff.2 (zero_notMem_cStr textConfig)]
  simp only [parseJsonConfigFile, hsize, Int.toNat_natCast, List.take_length]
  rw [hcut, h]
  split <;> rfl

/-- For every text: the constructor accepts exactly the well-typed configurations and reports them as
written, if and only if no untested access strays before the first refusal, no string is cut off and
no limit is negative. A refusal is a clean failure of `parse_json_config_file`. -/
theorem accepts_well_typed_iff (compiler : Compiler) (parse : Parser) (textConfig : Bytes) :
    (Faithful (document parse textConfig) (jsonConfig compiler parse textConfig) ↔
      verdict (demands compiler (document parse textConfig)) ≠ .strayed ∧
        (verdict (demands compiler (document parse textConfig)) = .met →
          NulFree (strings (document parse textConfig)) ∧
            ∀ z ∈ limitValues ((document parse textConfig).child (lit "monitor_config")), 0 ≤ z)) ∧
    (∀ e, jsonConfig compiler parse textConfig = .throw e → textConfig.length < 2 ^ 31 →
      parseJsonConfigFile compiler parse (some textConfig) = .ok none) :=
  ⟨faithful_iff compiler _, fun _ h hlength => parseJsonConfigFile_of_throw h hlength⟩

/-- A uuid that is a number: it is complained about, and read as a string. -/
theorem accepts_well_typed_fails :
    ¬ ∀ (compiler : Compiler) (parse : Parser) (textConfig : Bytes),
      Faithful (document parse textConfig) (jsonConfig compiler parse textConfig) := by
  intro hclaim
  have hfaithful := hclaim ⟨.leftToRight, .leftToRight⟩
    (fun _ => some (.object [(lit "uuids", .array [.number (.integer 1)])])) (lit "\x7b\"uuids\":[1]\x7d")
  have hstrayed := ((faithful_iff _ _).1 hfaithful).1
  exact hstrayed (by decide)

end EventsCounter
