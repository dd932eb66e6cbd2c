import EventsCounter.KafkaClients
import EventsCounter.MainLoop

/-!
# `main` from its options on

`main` reads its options and its configuration, creates the four clients, and enters its loops. Every
test on the way is a demand: one that is tested and fails ends the process, one that is not tested and
fails leaves the language. The loops make two demands more, at the first call of `next_tick` on either
period, and none after it: a process that gets through its first step never ends by itself
(`process_follows_verdict`).
-/

namespace EventsCounter

open Outcome

/-- What a call of `getopt_long` returns. -/
inductive Opt
  | help
  | unknown
  | config (optarg : Bytes)
deriving DecidableEq

/-- The option loop, over what the calls return before the end of the options; `none` is its `return 0`. -/
def optionLoop : List Opt → Bytes → Option Bytes
  | [], configPath => some configPath
  | .help :: _, _ => none
  | .unknown :: _, _ => none
  | .config optarg :: opts, _ => optionLoop opts optarg

/-- The two exceptions derived from `KafkaJSONConsumerException`. -/
inductive KafkaJSONConsumerException
  | createConsumer
  | subscribe
deriving DecidableEq

/-- librdkafka's answers to the constructor of a consumer. -/
structure ConsumerAnswer where
  created : Bool
  subscribeErr : RdKafkaErrorCode

/-- librdkafka's answers to the constructor of a producer. -/
structure ProducerAnswer where
  created : Bool
  topicCreated : Bool

/-- The end of `KafkaJSONUUIDConsumer` and `KafkaJSONCounterConsumer`. -/
def newConsumer (answer : ConsumerAnswer) : Outcome KafkaJSONConsumerException Unit :=
  if !answer.created then .throw .createConsumer
  else if answer.subscribeErr ≠ .errNoError then .throw .subscribe
  else .ok ()

/-- The end of `KafkaJSONCounterProducerFactory` and `KafkaMonitorProducer`: the topic is created on the
producer without a test, and what `Topic::create` returns is not tested either. -/
def newProducer (answer : ProducerAnswer) : Outcome KafkaJSONConsumerException Bool :=
  if answer.created then .ok answer.topicCreated else .undefined

structure Invocation where
  options : List Opt
  /-- The bytes of a file that can be opened and read. -/
  file : Bytes → Option Bytes
  uuidConsumer : ConsumerAnswer
  counterProducer : ProducerAnswer
  counterConsumer : ConsumerAnswer
  monitorProducer : ProducerAnswer
  env : Environment

/-- Which of the two producers has a topic. -/
structure Topics where
  counter : Bool
  monitor : Bool

inductive Ending
  | returned (code : ℤ)
  | exited (code : ℤ)
  | terminated
deriving DecidableEq

/-- The handler of `main`. -/
def caught : KafkaJSONConsumerException → Ending
  | .createConsumer => .returned 0
  | .subscribe => .terminated

/-- `main` up to its `try`. -/
def load (compiler : Compiler) (parse : Parser) (w : Invocation) : Outcome Ending Config :=
  match optionLoop w.options [] with
  | none => .throw (.returned 0)
  | some configPath =>
    if configPath.isEmpty then .throw (.returned 1)
    else
      match parseJsonConfigFile compiler parse (w.file configPath) with
      | .ok (some config) => .ok config
      | .ok none => .throw (.returned 1)
      | .undefined => .undefined

/-- The clients, in the order in which `main` creates them. -/
def construct (w : Invocation) : Outcome KafkaJSONConsumerException Topics := do
  newConsumer w.uuidConsumer
  let counter ← newProducer w.counterProducer
  newConsumer w.counterConsumer
  let monitor ← newProducer w.monitorProducer
  .ok ⟨counter, monitor⟩

/-- Something has been produced to a topic that was not created. -/
def Topics.missed (topics : Topics) (s : MainLoop) : Bool :=
  (!topics.counter && !s.side.calls.isEmpty) || (!topics.monitor && !s.alerts.isEmpty)

def enter (compiler : Compiler) (parse : Parser) (w : Invocation) : Outcome Ending (Config × Topics) := do
  let config ← load compiler parse w
  let topics ← (construct w).mapError caught
  .ok (config, topics)

/-- The process after `n` steps of its loops. -/
def process (compiler : Compiler) (parse : Parser) (w : Invocation) (n : ℕ) : Outcome Ending MainLoop := do
  let (config, topics) ← enter compiler parse w
  match MainLoop.stateAt config w.env n with
  | none => .throw (.exited 1)
  | some s => if topics.missed s then .undefined else .ok s

/-! ### What is demanded -/

/-- What the constructor of the configuration is given, if it is reached. -/
def configText (w : Invocation) : Option Bytes :=
  (optionLoop w.options []).bind fun configPath =>
    if configPath.isEmpty then none
    else
      (w.file configPath).bind fun content =>
        if ifstreamBinarySize content.length ≤ 0 then none
        else some (content.take (ifstreamBinarySize content.length).toNat)

def configDocument (parse : Parser) (w : Invocation) : Json := document parse ((configText w).getD [])

def loadDemands (compiler : Compiler) (parse : Parser) (w : Invocation) : List Demand :=
  .guarded (configText w).isSome :: JsonConfig.demands compiler (configDocument parse w)

def ConsumerAnswer.ready (answer : ConsumerAnswer) : Bool := answer.created && answer.subscribeErr = .errNoError

def clientDemands (w : Invocation) : List Demand :=
  [.guarded w.uuidConsumer.ready, .trusted w.counterProducer.created, .guarded w.counterConsumer.ready,
    .trusted w.monitorProducer.created]

def enterDemands (compiler : Compiler) (parse : Parser) (w : Invocation) : List Demand :=
  loadDemands compiler parse w ++ clientDemands w

def loopDemands (config : Config) : List Demand :=
  [.guarded (config.countersMonitorConfig.period ≠ 0), .guarded (config.uuidCounterConfig.updatePeriod ≠ 0)]

def processDemands (compiler : Compiler) (parse : Parser) (w : Invocation) : List Demand :=
  enterDemands compiler parse w ++ loopDemands (JsonConfig.reported (configDocument parse w))

/-! ### Up to the loops -/

variable {compiler : Compiler} {parse : Parser} {w : Invocation} {config : Config} {env : Environment} {n : ℕ}

theorem jsonConfig_cStr (textConfig : Bytes) :
    jsonConfig compiler parse (cStr textConfig) = jsonConfig compiler parse textConfig := by
  unfold jsonConfig document
  rw [cStr_eq_self_iff.2 (zero_notMem_cStr textConfig)]

theorem load_of_text {textConfig : Bytes} (h : configText w = some textConfig) :
    load compiler parse w = (jsonConfig compiler parse textConfig).mapError fun _ => .returned 1 := by
  obtain ⟨configPath, hpath, h⟩ := Option.bind_eq_some_iff.1 h
  split at h
  · cases h
  · rename_i hempty
    obtain ⟨content, hcontent, h⟩ := Option.bind_eq_some_iff.1 h
    split at h
    · cases h
    · rename_i hsize
      cases h
      simp only [load, hpath, hcontent, parseJsonConfigFile, if_neg hempty, if_neg hsize, jsonConfig_cStr]
      cases jsonConfig compiler parse (content.take (ifstreamBinarySize content.length).toNat) <;> rfl

theorem load_of_no_text (h : configText w = none) : ∃ code, load compiler parse w = .throw (.returned code) := by
  unfold load
  unfold configText at h
  cases hpath : optionLoop w.options [] with
  | none => exact ⟨0, rfl⟩
  | some configPath =>
    refine ⟨1, ?_⟩
    simp only [hpath, Option.bind_some] at h ⊢
    split
    · rfl
    · rename_i hempty
      rw [if_neg hempty] at h
      cases hcontent : w.file configPath with
      | none => rfl
      | some content =>
        have hsize : ifstreamBinarySize content.length ≤ 0 := by
          by_contra hsize
          simp [hcontent, hsize] at h
        simp only [parseJsonConfigFile, if_pos hsize]

theorem performs_load : Performs (load compiler parse w) (loadDemands compiler parse w)
    (JsonConfig.reported (configDocument parse w)) := by
  unfold loadDemands configDocument
  cases h : configText w with
  | none =>
    obtain ⟨code, hload⟩ := @load_of_no_text compiler parse w h
    exact ⟨_, hload⟩
  | some textConfig =>
    rw [load_of_text h]
    exact (JsonConfig.performs_ofDocument compiler (document parse textConfig)).mapError _

theorem performs_newConsumer (answer : ConsumerAnswer) : Performs (newConsumer answer) [.guarded answer.ready] () := by
  unfold newConsumer ConsumerAnswer.ready
  cases answer.created with
  | false => exact ⟨_, rfl⟩
  | true =>
    by_cases herr : answer.subscribeErr = .errNoError
    · simp [herr, Performs, verdict]
    · simp [herr, Performs, verdict]

theorem performs_construct : Performs (construct w) (clientDemands w)
    ⟨w.counterProducer.topicCreated, w.monitorProducer.topicCreated⟩ := by
  refine Performs.bind (performs_newConsumer _) fun _ => ?_
  refine Performs.bind (Performs.trust rfl) fun _ => ?_
  refine Performs.bind (performs_newConsumer _) fun _ => ?_
  rw [← List.append_nil [Demand.trusted w.monitorProducer.created]]
  exact Performs.bind (Performs.trust rfl) fun _ => Performs.ok _

theorem performs_enter : Performs (enter compiler parse w) (enterDemands compiler parse w)
    (JsonConfig.reported (configDocument parse w), ⟨w.counterProducer.topicCreated, w.monitorProducer.topicCreated⟩) := by
  refine Performs.bind performs_load fun _ => ?_
  rw [← List.append_nil (clientDemands w)]
  exact Performs.bind (performs_construct.mapError _) fun _ => Performs.ok _

theorem enter_ne_exit {e : Ending} (h : enter compiler parse w = .throw e) : e ≠ .exited 1 := by
  unfold enter at h
  cases htext : configText w with
  | none =>
    obtain ⟨code, hload⟩ := @load_of_no_text compiler parse w htext
    rw [hload] at h
    cases h
    simp
  | some textConfig =>
    rw [load_of_text htext] at h
    cases hconfig : jsonConfig compiler parse textConfig with
    | throw e' =>
      rw [hconfig] at h
      cases h
      simp
    | undefined =>
      rw [hconfig] at h
      cases h
    | ok config =>
      cases hconstruct : construct w with
      | throw e' =>
        rw [hconfig, hconstruct] at h
        cases h
        cases e' <;> simp [caught]
      | undefined =>
        rw [hconfig, hconstruct] at h
        cases h
      | ok topics =>
        rw [hconfig, hconstruct] at h
        cases h

/-! ### How the process ends -/

theorem loopDemands_met_iff : verdict (loopDemands config) = .met ↔ MainLoop.Periodic config := by
  constructor
  · intro h
    simp only [loopDemands, verdict_guarded_met_iff, decide_eq_true_eq] at h
    exact ⟨h.1, h.2.1⟩
  · rintro ⟨hmonitor, hupdate⟩
    simp [loopDemands, verdict, hmonitor, hupdate]

theorem process_of_met (h : verdict (processDemands compiler parse w) = .met) (n : ℕ) : ∃ s,
    MainLoop.stateAt (JsonConfig.reported (configDocument parse w)) w.env n = some s ∧
    process compiler parse w n =
      if Topics.missed ⟨w.counterProducer.topicCreated, w.monitorProducer.topicCreated⟩ s then .undefined else .ok s := by
  obtain ⟨henter, hloop⟩ := verdict_append_met_iff.1 h
  obtain ⟨s, hs⟩ := @MainLoop.exists_stateAt _ w.env (loopDemands_met_iff.1 hloop) n
  refine ⟨s, hs, ?_⟩
  rw [process, performs_enter.eq_ok henter]
  simp only [ok_bind, hs]

/-- The demands of `main`, in the order in which it makes them, decide how the process ends. If all are
met it never does, unless it produces to a topic that was not created. If the first that fails is one
that is tested, the process ends, by its first step at the latest, and in `exit(1)` exactly if it had
got to its loops. If it is not tested, the process leaves the language before its loops. -/
theorem process_follows_verdict (compiler : Compiler) (parse : Parser) (w : Invocation) :
    (verdict (processDemands compiler parse w) = .met → ∀ n, ∃ s,
      MainLoop.stateAt (JsonConfig.reported (configDocument parse w)) w.env n = some s ∧
      process compiler parse w n =
        if Topics.missed ⟨w.counterProducer.topicCreated, w.monitorProducer.topicCreated⟩ s then .undefined else .ok s) ∧
    (verdict (processDemands compiler parse w) = .refused → ∃ e, (∀ n, process compiler parse w (n + 1) = .throw e) ∧
      (e = .exited 1 ↔ verdict (enterDemands compiler parse w) = .met)) ∧
    (verdict (processDemands compiler parse w) = .strayed → ∀ n, process compiler parse w n = .undefined) := by
  refine ⟨process_of_met, ?_⟩
  have henter : Performs (enter compiler parse w) (enterDemands compiler parse w) _ := performs_enter
  unfold process processDemands
  rw [verdict_append]
  cases hv : verdict (enterDemands compiler parse w) with
  | met =>
    rw [henter.eq_ok hv]
    simp only [ok_bind]
    by_cases hzero : (JsonConfig.reported (configDocument parse w)).countersMonitorConfig.period = 0 ∨
        (JsonConfig.reported (configDocument parse w)).uuidCounterConfig.updatePeriod = 0
    · have hrefused : verdict (loopDemands (JsonConfig.reported (configDocument parse w))) = .refused := by
        rcases hzero with hzero | hzero <;> simp [loopDemands, verdict, hzero]
      rw [hrefused]
      refine ⟨fun _ => ⟨.exited 1, fun n => ?_, by simp⟩, fun h => (by cases h)⟩
      rw [MainLoop.stateAt_of_zero hzero]
    · rw [loopDemands_met_iff.2 ⟨fun h => hzero (.inl h), fun h => hzero (.inr h)⟩]
      exact ⟨fun h => (by cases h), fun h => (by cases h)⟩
  | refused =>
    obtain ⟨e, he⟩ := henter.exists_throw hv
    rw [he]
    refine ⟨fun _ => ⟨e, fun n => rfl, ?_⟩, fun h => (by cases h)⟩
    simpa using enter_ne_exit he
  | strayed =>
    rw [henter.eq_undefined hv]
    exact ⟨fun h => (by cases h), fun _ n => rfl⟩

/-- `-c f`, where the file `f` is not empty, and librdkafka refuses nothing. -/
def answering (env : Environment) : Invocation where
  options := [.config (lit "f")]
  file := fun _ => some (lit "\x7b\x7d")
  uuidConsumer := ⟨true, .errNoError⟩
  counterProducer := ⟨true, true⟩
  counterConsumer := ⟨true, .errNoError⟩
  monitorProducer := ⟨true, true⟩
  env

theorem process_follows_verdict_sample : ∃ parse w, ∀ n, ∃ s, process ⟨.leftToRight, .leftToRight⟩ parse w n = .ok s := by
  let w := answering ⟨fun _ => 0, fun _ => ⟨none, 0, 0, 0⟩, fun _ => 0, fun _ => .errNoError, fun _ => []⟩
  let parse : Parser := fun _ => some (sampleDocument [] [])
  have hmet : verdict (processDemands ⟨.leftToRight, .leftToRight⟩ parse w) = .met := rfl
  refine ⟨parse, w, fun n => ?_⟩
  obtain ⟨s, -, hs⟩ := (process_follows_verdict ⟨.leftToRight, .leftToRight⟩ parse w).1 hmet n
  exact ⟨s, hs⟩

end EventsCounter
