import EventsCounter.CounterAccounting
import EventsCounter.Monitor

/-!
# The two-stage pipeline

The counter side, the counters topic and the monitor, all counters starting at `0`, within one
monitor interval. Kafka is assumed to accept every message, to deliver each one once, in any order,
and decoding is assumed to give back what was written. Nothing is assumed about how the steps of the
worker, of the rounds, of Kafka and of the monitor interleave.

The reference is an `Accountant` that sees every event directly. `Inv` says that the monitor's
counter and what is in flight make up what was published, and that an alert stands for a uuid
exactly when its counter in the monitor is above its limit; with the accounting of the counter side
this is `pipeline_refines_accountant`.
-/

namespace EventsCounter

/-- The direct accountant: the bytes of the events of each uuid. -/
structure Accountant where
  total : Bytes → ℕ

namespace Accountant

def account (a : Accountant) (data : UUIDBytes) : Accountant :=
  ⟨fun u => a.total u + if data.uuid = u then data.bytes.toNat else 0⟩

def ofEvents (events : List UUIDBytes) : Accountant := events.foldl account ⟨fun _ => 0⟩

def Exceeds (a : Accountant) (limits : Counters) (u : Bytes) : Prop :=
  ∃ l, limits[u]? = some l ∧ l.toNat < a.total u

theorem total_foldl_account (events : List UUIDBytes) (a : Accountant) (u : Bytes) :
    (events.foldl account a).total u =
      a.total u + Tally.tally UUIDBytes.uuid (fun d => d.bytes.toNat) u events := by
  induction events generalizing a with
  | nil => rfl
  | cons d ds ih =>
    rw [List.foldl_cons, ih, Tally.tally_cons]
    show a.total u + _ + _ = _
    omega

theorem total_ofEvents (events : List UUIDBytes) (u : Bytes) :
    (ofEvents events).total u = Tally.tally UUIDBytes.uuid (fun d => d.bytes.toNat) u events := by
  rw [ofEvents, total_foldl_account, Nat.zero_add]

end Accountant

structure Pipeline where
  counter : CounterSide
  topic : List CounterMessage
  /-- What `consume` returned, until it is checked. -/
  received : Option UUIDBytes
  monitor : UUIDCountersMonitor
  /-- What the monitor producer was given, oldest first. -/
  alerts : List UUIDBytes

inductive PipelineStep
  | counter (l : CounterStep)
  | deliver (i : ℕ)
  | check

/-- librdkafka accepts the message, if the step publishes one. -/
def CounterStep.accepted : CounterStep → Prop
  | .visit _ produceRc => produceRc = .errNoError
  | _ => True

instance (l : CounterStep) : Decidable l.accepted := by
  cases l <;> unfold CounterStep.accepted <;> infer_instance

/-- What the counter consumer makes of a message that decodes to what was published. -/
def decode (message : CounterMessage) : UUIDBytes :=
  .make message.uuid message.value message.timestamp

namespace Pipeline

def init (uuids : List Bytes) (limits : Counters) : Pipeline :=
  ⟨.init uuids, [], none, ⟨⟨makeUuidCountersBoostrapDb uuids⟩, limits⟩, []⟩

def step (uuids : List Bytes) (p : Pipeline) : PipelineStep → Option Pipeline
  | .counter l =>
    if l.accepted then
      (CounterSide.step uuids p.counter l).map fun counter =>
        { p with counter, topic := p.topic ++ (p.counter.sends l).map fun c => c.request.payload }
    else none
  | .deliver i =>
    match p.received, p.topic[i]? with
    | none, some message => some { p with topic := p.topic.eraseIdx i, received := some (decode message) }
    | _, _ => none
  | .check =>
    match p.received with
    | some uuidBytes =>
      let (alert, monitor) := p.monitor.check uuidBytes.uuid uuidBytes.bytes
      some { p with received := none, monitor, alerts := if alert then p.alerts ++ [uuidBytes] else p.alerts }
    | none => none

/-- Bytes of `u` published and not yet checked. -/
def inFlight (u : Bytes) (p : Pipeline) : ℕ :=
  Tally.tally CounterMessage.uuid (fun m => m.value.toNat) u p.topic +
    Tally.tally UUIDBytes.uuid (fun d => d.bytes.toNat) u p.received.toList

def accountant (p : Pipeline) : Accountant := .ofEvents p.counter.counted

variable {uuids : List Bytes} {limits : Counters} {p p' : Pipeline} {l : PipelineStep} {u : Bytes}

theorem step_cases (h : step uuids p l = some p') :
    (∃ cl counter, l = .counter cl ∧ CounterSide.step uuids p.counter cl = some counter ∧
      p' = { p with
        counter, topic := p.topic ++ (p.counter.sends cl).map fun c => c.request.payload }) ∨
    (∃ i message, l = .deliver i ∧ p.received = none ∧ p.topic[i]? = some message ∧
      p' = { p with topic := p.topic.eraseIdx i, received := some (decode message) }) ∨
    (∃ d, l = .check ∧ p.received = some d ∧
      p' = { p with
        received := none
        monitor := (p.monitor.check d.uuid d.bytes).2
        alerts := if (p.monitor.check d.uuid d.bytes).1 then p.alerts ++ [d] else p.alerts }) := by
  cases l with
  | counter cl =>
    simp only [step] at h
    split at h
    · obtain ⟨counter, hc, rfl⟩ := Option.map_eq_some_iff.1 h
      exact .inl ⟨cl, counter, rfl, hc, rfl⟩
    · cases h
  | deliver i =>
    simp only [step] at h
    split at h
    · cases h; exact .inr (.inl ⟨i, _, rfl, ‹_›, ‹_›, rfl⟩)
    · cases h
  | check =>
    simp only [step] at h
    split at h
    · cases h; exact .inr (.inr ⟨_, rfl, ‹_›, rfl⟩)
    · cases h

structure Inv (uuids : List Bytes) (limits : Counters) (p : Pipeline) : Prop where
  counter : p.counter.Inv uuids
  keys : ∀ k, k ∈ p.monitor.db.counters ↔ k ∈ uuids
  limits_eq : p.monitor.limits = limits
  le : ∀ u ∈ uuids, inFlight u p + amount p.monitor.db.counters u ≤ p.counter.published u
  modEq : ∀ u ∈ uuids,
    p.counter.published u ≡ inFlight u p + amount p.monitor.db.counters u [MOD 2 ^ 64]
  /-- As long as the events of `u` fit in a word, `u` has an alert exactly when its counter in the
  monitor is above its limit. -/
  alerts : ∀ u ∈ uuids, p.counter.countedBytes u < 2 ^ 64 →
    ((∃ a ∈ p.alerts, a.uuid = u) ↔ ∃ l, limits[u]? = some l ∧ l.toNat < amount p.monitor.db.counters u)

theorem inv_init : Inv uuids limits (init uuids limits) := by
  have hzero (u : Bytes) : amount (init uuids limits).monitor.db.counters u = 0 := amount_boostrapDb uuids u
  have hflight (u : Bytes) : inFlight u (init uuids limits) = 0 := rfl
  refine ⟨CounterSide.inv_init, fun k => mem_boostrapDb, rfl, ?_, ?_, ?_⟩
  · intro u _; rw [hzero, hflight]; exact Nat.zero_le _
  · intro u _; rw [hzero, hflight]; rfl
  · intro u _ _
    rw [hzero]
    constructor
    · rintro ⟨a, ha, -⟩; cases ha
    · rintro ⟨l, -, hl⟩; cases hl

/-! ### Steps -/

theorem sends_made (s : CounterSide) (cl : CounterStep) :
    ∀ c ∈ s.sends cl, ∃ now, c.request = (produce c.counter now c.produceRc).1 := by
  intro c hc
  unfold CounterSide.sends at hc
  split at hc
  · split at hc
    · unfold visitEntry at hc
      split at hc
      · rw [List.mem_singleton.1 hc]
        exact ⟨_, rfl⟩
      · cases hc
    · cases hc
  · cases hc

theorem tally_payloads (s : CounterSide) (cl : CounterStep) :
    Tally.tally CounterMessage.uuid (fun m => m.value.toNat) u
      ((s.sends cl).map fun c => c.request.payload) = CounterSide.callBytes u (s.sends cl) := by
  rw [Tally.tally_map]
  apply Tally.tally_congr
  intro c hc
  obtain ⟨now, hrequest⟩ := sends_made s cl c hc
  rw [hrequest]
  exact ⟨rfl, rfl⟩

theorem inv_counter (hi : Inv uuids limits p) {cl : CounterStep} {counter : CounterSide}
    (hc : CounterSide.step uuids p.counter cl = some counter) :
    Inv uuids limits { p with
      counter, topic := p.topic ++ (p.counter.sends cl).map fun c => c.request.payload } := by
  have hpub (u : Bytes) : counter.published u =
      p.counter.published u + CounterSide.callBytes u (p.counter.sends cl) := by
    rw [CounterSide.published, CounterSide.calls_eq_append_sends hc, CounterSide.callBytes_append]
    rfl
  have hflight (u : Bytes) : inFlight u { p with
      counter, topic := p.topic ++ (p.counter.sends cl).map fun c => c.request.payload } =
      inFlight u p + CounterSide.callBytes u (p.counter.sends cl) := by
    simp only [inFlight, Tally.tally_append, tally_payloads]
    omega
  refine ⟨CounterSide.inv_step hi.counter hc, hi.keys, hi.limits_eq, ?_, ?_, ?_⟩
  · intro u hu
    have := hi.le u hu
    show inFlight u _ + amount p.monitor.db.counters u ≤ counter.published u
    rw [hpub, hflight]
    omega
  · intro u hu
    have hmod := (hi.modEq u hu).add_right (CounterSide.callBytes u (p.counter.sends cl))
    show counter.published u ≡ inFlight u _ + amount p.monitor.db.counters u [MOD _]
    rw [hpub, hflight, Nat.add_right_comm]
    exact hmod
  · intro u hu hlt
    obtain ⟨n, hn, -, -⟩ := CounterSide.outstanding_step hi.counter hc hu
    have hbefore : p.counter.countedBytes u < 2 ^ 64 := by
      have hafter : counter.countedBytes u < 2 ^ 64 := hlt
      omega
    exact hi.alerts u hu hbefore

theorem inv_deliver (hi : Inv uuids limits p) {i : ℕ} {message : CounterMessage}
    (hr : p.received = none) (hm : p.topic[i]? = some message) :
    Inv uuids limits { p with topic := p.topic.eraseIdx i, received := some (decode message) } := by
  -- a delivered message stays in flight until it is checked
  have hflight (u : Bytes) : inFlight u { p with
      topic := p.topic.eraseIdx i, received := some (decode message) } = inFlight u p := by
    simp only [inFlight, hr, Tally.tally_eraseIdx hm]
    simp [decode, UUIDBytes.make]
    omega
  refine ⟨hi.counter, hi.keys, hi.limits_eq, ?_, ?_, hi.alerts⟩
  · intro u hu
    rw [hflight]
    exact hi.le u hu
  · intro u hu
    rw [hflight]
    exact hi.modEq u hu

theorem inFlight_received {d : UUIDBytes} (hr : p.received = some d) :
    inFlight u p = inFlight u { p with received := none } + if d.uuid = u then d.bytes.toNat else 0 := by
  simp [inFlight, hr]

theorem amount_check_of_ne {m : UUIDCountersMonitor} {d : UUIDBytes} (hd : d.uuid ≠ u) :
    amount (m.check d.uuid d.bytes).2.db.counters u = amount m.db.counters u := by
  rw [UUIDCountersMonitor.check_db, UUIDCountersDB.amount_uuidIncrement_of_ne hd]

theorem amount_check_self {m : UUIDCountersMonitor} {d : UUIDBytes} (hd : d.uuid ∈ m.db.counters) :
    ∃ v, m.db.counters[d.uuid]? = some v ∧ amount m.db.counters d.uuid = v.toNat ∧
      amount (m.check d.uuid d.bytes).2.db.counters d.uuid = (v + d.bytes).toNat := by
  rw [UUIDCountersMonitor.check_db]
  exact UUIDCountersDB.amount_uuidIncrement_self d.bytes _ hd

theorem exists_alert_append {alerts : List UUIDBytes} {d : UUIDBytes} {alert : Bool} :
    (∃ a ∈ if alert then alerts ++ [d] else alerts, a.uuid = u) ↔
      (∃ a ∈ alerts, a.uuid = u) ∨ (alert = true ∧ d.uuid = u) := by
  cases alert <;> simp [or_and_right, exists_or]

/-- As long as the events of its uuid fit in a word, the counter of what is checked grows without
wrapping, and the alert is the comparison with the limit. -/
theorem check_alert (hi : Inv uuids limits p) {d : UUIDBytes} (hr : p.received = some d) (hu : d.uuid ∈ uuids)
    (hlt : p.counter.countedBytes d.uuid < 2 ^ 64) :
    amount p.monitor.db.counters d.uuid ≤ amount (p.monitor.check d.uuid d.bytes).2.db.counters d.uuid ∧
    ((p.monitor.check d.uuid d.bytes).1 = true ↔ ∃ l, limits[d.uuid]? = some l ∧
      l.toNat < amount (p.monitor.check d.uuid d.bytes).2.db.counters d.uuid) := by
  obtain ⟨v, hv, hold, hnew⟩ := amount_check_self ((hi.keys _).2 hu)
  have hgrow : (v + d.bytes).toNat = v.toNat + d.bytes.toNat := by
    have hle := hi.le _ hu
    have hcount := hi.counter.le _ hu
    rw [inFlight_received hr, if_pos rfl, hold] at hle
    rw [CounterSide.outstanding] at hcount
    rw [UInt64.toNat_add, Nat.mod_eq_of_lt]
    omega
  have hcheck := UUIDCountersMonitor.check_eq_true_iff (m := p.monitor) (u := d.uuid) (b := d.bytes)
  simp only [hv, hi.limits_eq, Option.some.injEq, exists_and_left, exists_eq_left', UInt64.lt_iff_toNat_lt] at hcheck
  rw [hold, hnew]
  exact ⟨by omega, hcheck⟩

theorem inv_check (hi : Inv uuids limits p) {d : UUIDBytes} (hr : p.received = some d) :
    Inv uuids limits { p with
      received := none
      monitor := (p.monitor.check d.uuid d.bytes).2
      alerts := if (p.monitor.check d.uuid d.bytes).1 then p.alerts ++ [d] else p.alerts } := by
  set p' : Pipeline := { p with
    received := none
    monitor := (p.monitor.check d.uuid d.bytes).2
    alerts := if (p.monitor.check d.uuid d.bytes).1 then p.alerts ++ [d] else p.alerts }
  have hflight (u : Bytes) : inFlight u p = inFlight u p' + if d.uuid = u then d.bytes.toNat else 0 :=
    inFlight_received hr
  have hother (u : Bytes) (hu : d.uuid ≠ u) : amount p'.monitor.db.counters u = amount p.monitor.db.counters u :=
    amount_check_of_ne hu
  have hself (hu : d.uuid ∈ uuids) : ∃ v, p.monitor.db.counters[d.uuid]? = some v ∧
      amount p.monitor.db.counters d.uuid = v.toNat ∧
      amount p'.monitor.db.counters d.uuid = (v + d.bytes).toNat :=
    amount_check_self ((hi.keys _).2 hu)
  refine ⟨hi.counter, ?_, UUIDCountersMonitor.check_limits.trans hi.limits_eq, ?_, ?_, ?_⟩
  · intro k
    show k ∈ (p.monitor.check d.uuid d.bytes).2.db.counters ↔ _
    rw [UUIDCountersMonitor.check_db, UUIDCountersDB.mem_uuidIncrement]
    exact hi.keys k
  · intro u hu
    have hle := hi.le u hu
    rw [hflight] at hle
    show _ ≤ p.counter.published u
    by_cases hd : d.uuid = u
    · subst hd
      obtain ⟨v, -, hold, hnew⟩ := hself hu
      have hadd := uint64_toNat_add_le v d.bytes
      rw [if_pos rfl] at hle
      omega
    · rw [if_neg hd] at hle
      rw [hother u hd]
      omega
  · intro u hu
    have hmod := hi.modEq u hu
    rw [hflight] at hmod
    show p.counter.published u ≡ _ [MOD _]
    by_cases hd : d.uuid = u
    · subst hd
      obtain ⟨v, -, hold, hnew⟩ := hself hu
      have hadd := uint64_toNat_add_modEq v d.bytes
      rw [if_pos rfl, hold, Nat.add_assoc, Nat.add_comm d.bytes.toNat] at hmod
      rw [hnew]
      exact hmod.trans (hadd.add_left _)
    · rw [if_neg hd, Nat.add_zero] at hmod
      rw [hother u hd]
      exact hmod
  · intro u hu hlt
    have halerts := hi.alerts u hu hlt
    refine exists_alert_append.trans ?_
    by_cases hd : d.uuid = u
    · subst hd
      obtain ⟨hgrow, hcheck⟩ := check_alert hi hr hu hlt
      rw [halerts, and_iff_left rfl, hcheck]
      -- who was above the limit before is so afterwards
      exact or_iff_right_of_imp fun ⟨l, hl, hlv⟩ => ⟨l, hl, Nat.lt_of_lt_of_le hlv hgrow⟩
    · rw [hother u hd, halerts]
      exact or_iff_left fun h => hd h.2

theorem inv_step (hi : Inv uuids limits p) (h : step uuids p l = some p') : Inv uuids limits p' := by
  rcases step_cases h with ⟨cl, counter, -, hc, rfl⟩ | ⟨i, message, -, hr, hm, rfl⟩ | ⟨d, -, hr, rfl⟩
  · exact inv_counter hi hc
  · exact inv_deliver hi hr hm
  · exact inv_check hi hr

theorem inv_run {ls : List PipelineStep} (h : Runs.run (step uuids) (init uuids limits) ls = some p) :
    Inv uuids limits p :=
  Runs.run_invariant inv_init (fun _ _ _ hi hs => inv_step hi hs) h

/-! ### The pipeline and the accountant -/

theorem total_accountant : p.accountant.total u = p.counter.countedBytes u :=
  Accountant.total_ofEvents _ _

theorem Inv.conservation (hi : Inv uuids limits p) (hu : u ∈ uuids)
    (hlt : p.counter.countedBytes u < 2 ^ 64) :
    p.counter.countedBytes u = amount p.counter.db.counters u + p.counter.toWalk u + inFlight u p +
      amount p.monitor.db.counters u := by
  have hout : p.counter.published u + p.counter.toWalk u + amount p.counter.db.counters u =
      p.counter.countedBytes u := hi.counter.outstanding_eq hu hlt
  have hpub : p.counter.published u < 2 ^ 64 := by omega
  have hle := hi.le u hu
  have heq := (hi.modEq u hu).eq_of_lt_of_lt hpub (Nat.lt_of_le_of_lt hle hpub)
  omega

theorem Inv.exceeds_of_alert (hi : Inv uuids limits p) (hu : u ∈ uuids) (hlt : p.counter.countedBytes u < 2 ^ 64)
    (ha : ∃ a ∈ p.alerts, a.uuid = u) : p.accountant.Exceeds limits u := by
  have hcons := hi.conservation hu hlt
  obtain ⟨l, hl, hlv⟩ := (hi.alerts u hu hlt).1 ha
  exact ⟨l, hl, by rw [total_accountant]; omega⟩

/-- Once nothing of `u` is left on the way. -/
theorem Inv.alert_iff_exceeds (hi : Inv uuids limits p) (hu : u ∈ uuids) (hlt : p.counter.countedBytes u < 2 ^ 64)
    (hdb : amount p.counter.db.counters u = 0) (hwalk : p.counter.toWalk u = 0) (hflight : inFlight u p = 0) :
    (∃ a ∈ p.alerts, a.uuid = u) ↔ p.accountant.Exceeds limits u := by
  have hcons := hi.conservation hu hlt
  have hall : amount p.monitor.db.counters u = p.accountant.total u := by
    rw [total_accountant]
    omega
  rw [hi.alerts u hu hlt, hall]
  rfl

/-- Whatever the interleaving: the bytes the accountant has seen are spread over the stages of the
pipeline, an alert is only ever raised for a uuid the accountant has over its limit, and once nothing
of the uuid is left on the way it has been raised if the accountant has it over its limit. -/
theorem pipeline_refines_accountant (uuids : List Bytes) (limits : Counters) (ls : List PipelineStep)
    (p : Pipeline) (h : Runs.run (step uuids) (init uuids limits) ls = some p) (u : Bytes)
    (hu : u ∈ uuids) (hlt : p.accountant.total u < 2 ^ 64) :
    p.accountant.total u = amount p.counter.db.counters u + p.counter.toWalk u + inFlight u p +
      amount p.monitor.db.counters u ∧
    ((∃ a ∈ p.alerts, a.uuid = u) → p.accountant.Exceeds limits u) ∧
    (amount p.counter.db.counters u = 0 → p.counter.toWalk u = 0 → inFlight u p = 0 →
      ((∃ a ∈ p.alerts, a.uuid = u) ↔ p.accountant.Exceeds limits u)) := by
  have hi := inv_run h
  rw [total_accountant] at hlt
  refine ⟨?_, hi.exceeds_of_alert hu hlt, hi.alert_iff_exceeds hu hlt⟩
  rw [total_accountant]
  exact hi.conservation hu hlt

/-- Twelve bytes in two events, published together, against a limit of ten: all of them are in the
monitor, and there is an alert. -/
theorem pipeline_refines_accountant_run :
    ∃ p, Runs.run (step [lit "a"]) (init [lit "a"] ((∅ : Counters).insert (lit "a") 10))
        [.counter (.count (.make (lit "a") 5)), .counter (.count (.make (lit "a") 7)), .counter .build,
          .counter .swap, .counter (.visit 0 .errNoError), .deliver 0, .check] = some p ∧
      p.accountant.total (lit "a") = amount p.counter.db.counters (lit "a") +
        p.counter.toWalk (lit "a") + inFlight (lit "a") p + amount p.monitor.db.counters (lit "a") ∧
      amount p.monitor.db.counters (lit "a") = 12 ∧ ∃ a ∈ p.alerts, a.uuid = lit "a" := by
  have hrun : (Runs.run (step [lit "a"]) (init [lit "a"] ((∅ : Counters).insert (lit "a") 10))
      [.counter (.count (.make (lit "a") 5)), .counter (.count (.make (lit "a") 7)), .counter .build,
        .counter .swap, .counter (.visit 0 .errNoError), .deliver 0, .check]).map
          (fun p => (p.accountant.total (lit "a"), amount p.counter.db.counters (lit "a") + p.counter.toWalk (lit "a"),
            inFlight (lit "a") p)) = some (12, 0, 0) := by decide
  obtain ⟨p, hp, hv⟩ := Option.map_eq_some_iff.1 hrun
  simp only [Prod.mk.injEq] at hv
  obtain ⟨htotal, hcounter, hflight⟩ := hv
  obtain ⟨hparts, -, halert⟩ := pipeline_refines_accountant _ _ _ p hp (lit "a") (by decide) (by omega)
  refine ⟨p, hp, hparts, by omega, (halert (by omega) (by omega) hflight).2 ⟨10, by decide, ?_⟩⟩
  rw [htotal]
  decide

end Pipeline
end EventsCounter
