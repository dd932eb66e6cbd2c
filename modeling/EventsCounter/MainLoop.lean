import EventsCounter.Config
import EventsCounter.CounterConsumer
import EventsCounter.CounterSide
import EventsCounter.Monitor
import EventsCounter.MonitorSchedule

/-!
# The main loop

`main` after the construction of its components, one atomic piece of its two nested loops a step,
with the worker of `UUIDCounter` counting between any two steps. The environment answers the calls
of `time`, `consume` and librdkafka's `produce`, and says what the worker consumed. A published message
is stamped by a clock reading of its writer, not by the tick that `main` passes to `produce`.

Everything the components do is theirs: the counter side of a state of the process is one that a run
of `CounterSide` reaches (`counterSide_run`), and the monitor ticks are those of `MonitorSchedule`
(`stateAt_scheduled`).
-/

namespace EventsCounter

/-- Where `main` is in its loops. How far the counter ticks are is in the round of the counter side. -/
inductive Pc
  | outer
  | inner
  | body
  | consume
  | check (uuidBytes : UUIDBytes)
  | ticks
deriving DecidableEq

structure MainLoop where
  pc : Pc
  now : Seconds
  nextMonitorTick : Seconds
  nextCountersTick : Seconds
  monitor : UUIDCountersMonitor
  alerts : List UUIDBytes
  /-- `counter`, its worker, and `counter_producer`. -/
  side : CounterSide
  readings : ℕ

structure Environment where
  /-- The answer to the `i`-th call of `time` in `main`; the call `0` is the one before the loop. -/
  time : ℕ → Seconds
  /-- What the `i`-th call of `counter_consumer->consume` meets. -/
  fetched : ℕ → Fetched
  /-- What the writer of the message reads when the `n`-th step of `main` produces. -/
  currentUnixTimestamp : ℕ → UInt64
  /-- librdkafka's answer when the `n`-th step of `main` produces. -/
  produceRc : ℕ → RdKafkaErrorCode
  /-- What the worker consumes before the `n`-th step of `main`. -/
  consumed : ℕ → List UUIDBytes

namespace MainLoop

/-- The piece of the counter ticks that comes next, and where `main` is after it. -/
def ticksStep (s : MainLoop) (now : UInt64) (produceRc : RdKafkaErrorCode) : CounterStep × Pc :=
  match s.side.round with
  | .idle => (.build, .ticks)
  | .built _ => (.swap, .ticks)
  | .walking _ (_ :: _) => (.visit now produceRc, .ticks)
  | .walking _ [] => (.leave, .outer)

def work (s : MainLoop) (data : List UUIDBytes) : MainLoop :=
  { s with side := data.foldl CounterSide.run s.side }

/-- One step of `main`; `none` is an exit. -/
def advance (config : Config) (env : Environment) (s : MainLoop) (n : ℕ) : Option MainLoop :=
  let monitorConfig := config.countersMonitorConfig
  match s.pc with
  | .outer => do
    let nextCountersTick ← nextTick config.uuidCounterConfig.updatePeriod s.now
    some { s with nextCountersTick, pc := .inner }
  | .inner => some { s with pc := if s.now < s.nextCountersTick then .body else .ticks }
  | .body => do
    let now := env.time (s.readings + 1)
    let (reset, nextMonitorTick) ← monitorRule monitorConfig.period monitorConfig.offset now s.nextMonitorTick
    let monitor :=
      if reset then s.monitor.reset (makeUuidCountersBoostrapDb config.countersUuids) else s.monitor
    some { s with now, nextMonitorTick, monitor, readings := s.readings + 1, pc := .consume }
  | .consume =>
    let uuidBytes := EventsCounter.consume monitorConfig.period.toUInt64 monitorConfig.offset.toUInt64
      (env.fetched s.readings)
    some { s with pc := if uuidBytes.isEmpty then .inner else .check uuidBytes }
  | .check uuidBytes =>
    let (exceeded, monitor) := s.monitor.check uuidBytes.uuid uuidBytes.bytes
    some { s with monitor, alerts := if exceeded then s.alerts ++ [uuidBytes] else s.alerts, pc := .inner }
  | .ticks => do
    let (piece, pc) := s.ticksStep (env.currentUnixTimestamp n) (env.produceRc n)
    let side ← CounterSide.step config.countersUuids s.side piece
    some { s with side, pc }

def step (config : Config) (env : Environment) (s : MainLoop) (n : ℕ) : Option MainLoop :=
  (s.work (env.consumed n)).advance config env n

def start (config : Config) (env : Environment) : Option MainLoop := do
  let boostrapDb := makeUuidCountersBoostrapDb config.countersUuids
  let nextMonitorTick ←
    nextTick config.countersMonitorConfig.period (env.time 0) config.countersMonitorConfig.offset
  some {
    pc := .outer
    now := env.time 0
    nextMonitorTick
    nextCountersTick := 0
    monitor := ⟨⟨boostrapDb⟩, config.countersMonitorConfig.limits⟩
    alerts := []
    side := CounterSide.init config.countersUuids
    readings := 0
  }

def stateAt (config : Config) (env : Environment) (n : ℕ) : Option MainLoop :=
  (start config env).bind fun s => Runs.run (step config env) s (List.range n)

variable {config : Config} {env : Environment} {s s' : MainLoop} {n : ℕ}

theorem stateAt_succ (n : ℕ) :
    stateAt config env (n + 1) = (stateAt config env n).bind fun s => step config env s n := by
  simp [stateAt, List.range_succ, Runs.run_append, Option.bind_assoc]

theorem stateAt_induction {P : ℕ → MainLoop → Prop} (start : ∀ s, start config env = some s → P 0 s)
    (keep : ∀ n s s', stateAt config env n = some s → P n s → step config env s n = some s' → P (n + 1) s')
    (h : stateAt config env n = some s) : P n s := by
  induction n generalizing s with
  | zero =>
    obtain ⟨s₀, h₀, hs⟩ := Option.bind_eq_some_iff.1 h
    cases hs
    exact start _ h₀
  | succ n ih =>
    rw [stateAt_succ] at h
    obtain ⟨t, ht, hs⟩ := Option.bind_eq_some_iff.1 h
    exact keep n t s ht (ih ht) hs

/-! ### What a step can do -/

@[simp] theorem work_pc (data : List UUIDBytes) : (s.work data).pc = s.pc := rfl
@[simp] theorem work_now (data : List UUIDBytes) : (s.work data).now = s.now := rfl
@[simp] theorem work_nextMonitorTick (data : List UUIDBytes) :
    (s.work data).nextMonitorTick = s.nextMonitorTick := rfl
@[simp] theorem work_nextCountersTick (data : List UUIDBytes) :
    (s.work data).nextCountersTick = s.nextCountersTick := rfl
@[simp] theorem work_readings (data : List UUIDBytes) : (s.work data).readings = s.readings := rfl

@[simp] theorem work_round (data : List UUIDBytes) : (s.work data).side.round = s.side.round := by
  unfold work
  induction data generalizing s with
  | nil => rfl
  | cons d data ih =>
    have hd : (s.side.run d).round = s.side.round := by
      unfold CounterSide.run
      split <;> rfl
    exact (ih (s := { s with side := s.side.run d })).trans hd

theorem advance_cases (h : advance config env s n = some s') :
    (∃ next, s.pc = .outer ∧ nextTick config.uuidCounterConfig.updatePeriod s.now = some next ∧
      s' = { s with nextCountersTick := next, pc := .inner }) ∨
    (s.pc = .inner ∧ s' = { s with pc := if s.now < s.nextCountersTick then .body else .ticks }) ∨
    (∃ reset next, s.pc = .body ∧
      monitorRule config.countersMonitorConfig.period config.countersMonitorConfig.offset
        (env.time (s.readings + 1)) s.nextMonitorTick = some (reset, next) ∧
      s' = { s with now := env.time (s.readings + 1), nextMonitorTick := next,
                    monitor := if reset then s.monitor.reset (makeUuidCountersBoostrapDb config.countersUuids)
                      else s.monitor,
                    readings := s.readings + 1, pc := .consume }) ∨
    (∃ uuidBytes, s.pc = .consume ∧
      EventsCounter.consume config.countersMonitorConfig.period.toUInt64
        config.countersMonitorConfig.offset.toUInt64 (env.fetched s.readings) = uuidBytes ∧
      s' = { s with pc := if uuidBytes.isEmpty then .inner else .check uuidBytes }) ∨
    (∃ uuidBytes, s.pc = .check uuidBytes ∧
      s' = { s with monitor := (s.monitor.check uuidBytes.uuid uuidBytes.bytes).2,
                    alerts := if (s.monitor.check uuidBytes.uuid uuidBytes.bytes).1 then s.alerts ++ [uuidBytes]
                      else s.alerts,
                    pc := .inner }) ∨
    (∃ side, s.pc = .ticks ∧
      CounterSide.step config.countersUuids s.side (s.ticksStep (env.currentUnixTimestamp n) (env.produceRc n)).1 =
        some side ∧
      s' = { s with side, pc := (s.ticksStep (env.currentUnixTimestamp n) (env.produceRc n)).2 }) := by
  unfold advance at h
  cases hpc : s.pc with
  | outer =>
    simp only [hpc, Option.bind_eq_bind, Option.bind_eq_some_iff, Option.some.injEq] at h
    obtain ⟨next, hnext, rfl⟩ := h
    exact .inl ⟨next, rfl, hnext, rfl⟩
  | inner =>
    simp only [hpc, Option.some.injEq] at h
    exact .inr (.inl ⟨rfl, h.symm⟩)
  | body =>
    simp only [hpc, Option.bind_eq_bind, Option.bind_eq_some_iff, Option.some.injEq] at h
    obtain ⟨⟨reset, next⟩, hrule, rfl⟩ := h
    exact .inr (.inr (.inl ⟨reset, next, rfl, hrule, rfl⟩))
  | consume =>
    simp only [hpc, Option.some.injEq] at h
    exact .inr (.inr (.inr (.inl ⟨_, rfl, rfl, h.symm⟩)))
  | check uuidBytes =>
    simp only [hpc, Option.some.injEq] at h
    exact .inr (.inr (.inr (.inr (.inl ⟨uuidBytes, rfl, h.symm⟩))))
  | ticks =>
    simp only [hpc, Option.bind_eq_bind, Option.bind_eq_some_iff, Option.some.injEq] at h
    obtain ⟨side, hside, rfl⟩ := h
    exact .inr (.inr (.inr (.inr (.inr ⟨side, rfl, hside, rfl⟩))))

/-! ### Where the loops exit -/

/-- `next_tick` exits on neither period. -/
structure Periodic (config : Config) : Prop where
  monitorPeriod : config.countersMonitorConfig.period ≠ 0
  updatePeriod : config.uuidCounterConfig.updatePeriod ≠ 0

/-- The loops can exit only where `next_tick` is called on a period of zero. -/
theorem advance_eq_none_iff : advance config env s n = none ↔
    s.pc = .outer ∧ config.uuidCounterConfig.updatePeriod = 0 ∨
    s.pc = .body ∧ env.time (s.readings + 1) > s.nextMonitorTick ∧ config.countersMonitorConfig.period = 0 := by
  unfold advance
  cases hpc : s.pc with
  | outer =>
    rw [← @nextTick_eq_none_iff config.uuidCounterConfig.updatePeriod s.now 0]
    cases nextTick config.uuidCounterConfig.updatePeriod s.now <;> simp
  | inner => simp
  | body =>
    rw [← @MonitorSchedule.monitorRule_eq_none_iff config.countersMonitorConfig.period
      config.countersMonitorConfig.offset]
    cases hrule : monitorRule config.countersMonitorConfig.period config.countersMonitorConfig.offset
      (env.time (s.readings + 1)) s.nextMonitorTick <;> simp [hrule]
  | consume => simp
  | check uuidBytes => simp
  | ticks =>
    simp only [ticksStep, CounterSide.step]
    cases s.side.round with
    | idle => simp
    | built fresh => simp
    | walking walked pending => cases pending <;> simp

theorem exists_next (hp : Periodic config) (hs : stateAt config env n = some s) :
    ∃ s', stateAt config env (n + 1) = some s' ∧ step config env s n = some s' := by
  have hnext : step config env s n ≠ none := fun hnone => by
    rcases advance_eq_none_iff.1 hnone with ⟨-, hzero⟩ | ⟨-, -, hzero⟩
    · exact hp.updatePeriod hzero
    · exact hp.monitorPeriod hzero
  obtain ⟨s', hs'⟩ := Option.ne_none_iff_exists'.1 hnext
  exact ⟨s', by rw [stateAt_succ, hs]; exact hs', hs'⟩

theorem exists_stateAt (hp : Periodic config) (n : ℕ) : ∃ s, stateAt config env n = some s := by
  induction n with
  | zero =>
    obtain ⟨next, hnext⟩ := Option.isSome_iff_exists.1
      (@nextTick_isSome _ (env.time 0) config.countersMonitorConfig.offset hp.monitorPeriod)
    unfold stateAt start
    rw [hnext]
    exact ⟨_, rfl⟩
  | succ n ih =>
    obtain ⟨s, hs⟩ := ih
    obtain ⟨s', hs', -⟩ := exists_next hp hs
    exact ⟨s', hs'⟩

theorem stateAt_of_zero (h : config.countersMonitorConfig.period = 0 ∨ config.uuidCounterConfig.updatePeriod = 0)
    (n : ℕ) : stateAt config env (n + 1) = none := by
  induction n with
  | zero =>
    rw [stateAt_succ, Option.bind_eq_none_iff]
    intro s hs
    obtain ⟨s₀, hstart, hrun⟩ := Option.bind_eq_some_iff.1 hs
    cases hrun
    obtain ⟨next, hnext, hs⟩ := Option.bind_eq_some_iff.1 hstart
    cases hs
    have hperiod : config.countersMonitorConfig.period ≠ 0 := fun hzero => by
      rw [nextTick_eq_none_iff.2 hzero] at hnext
      cases hnext
    exact advance_eq_none_iff.2 (.inl ⟨rfl, h.resolve_left hperiod⟩)
  | succ n ih => rw [stateAt_succ, ih, Option.bind_none]

/-! ### The components inside the process -/

theorem run_counts (data : List UUIDBytes) (side : CounterSide) :
    Runs.run (CounterSide.step config.countersUuids) side (data.map .count) =
      some (data.foldl CounterSide.run side) := by
  induction data generalizing side with
  | nil => rfl
  | cons d data ih =>
    rw [List.map_cons, Runs.run_cons, List.foldl_cons]
    exact ih (side.run d)

def sideSteps (env : Environment) (s : MainLoop) (n : ℕ) : List CounterStep :=
  (env.consumed n).map .count ++
    match s.pc with
    | .ticks => [((s.work (env.consumed n)).ticksStep (env.currentUnixTimestamp n) (env.produceRc n)).1]
    | _ => []

theorem step_side {side : CounterSide} (hR : s.side = side) (h : step config env s n = some s') :
    ∃ side', Runs.run (CounterSide.step config.countersUuids) side (sideSteps env s n) = some side' ∧
      s'.side = side' := by
  subst hR
  have hcount := @run_counts config (env.consumed n) s.side
  unfold sideSteps
  rcases advance_cases h with ⟨next, hpc, -, rfl⟩ | ⟨hpc, rfl⟩ | ⟨reset, next, hpc, -, rfl⟩ | ⟨ub, hpc, -, rfl⟩ |
    ⟨ub, hpc, rfl⟩ | ⟨side, hpc, hside, rfl⟩
  all_goals
    rw [work_pc] at hpc
    rw [Runs.run_append, hcount, hpc]
  case inr.inr.inr.inr.inr =>
    refine ⟨side, ?_, rfl⟩
    show (Runs.run (CounterSide.step config.countersUuids) (s.work (env.consumed n)).side _) = some side
    rw [Runs.run_cons, hside]
    rfl
  all_goals exact ⟨_, rfl, rfl⟩

theorem counterSide_run (h : stateAt config env n = some s) :
    ∃ ls, Runs.run (CounterSide.step config.countersUuids) (CounterSide.init config.countersUuids) ls =
      some s.side := by
  obtain ⟨s₀, hstart, hrun⟩ := Option.bind_eq_some_iff.1 h
  have hinit : s₀.side = CounterSide.init config.countersUuids := by
    obtain ⟨next, -, hs⟩ := Option.bind_eq_some_iff.1 hstart
    cases hs
    rfl
  obtain ⟨ls, side, hls, hside⟩ := Runs.run_simulation (R := fun s side => s.side = side)
    (fun _ _ _ _ hR hstep => step_side hR hstep) hinit hrun
  exact ⟨ls, by rw [hls, hside]⟩

/-- `main` keeps the last reading and the tick the reset rule has scheduled after it. -/
theorem stateAt_scheduled (h : stateAt config env n = some s) :
    s.now = env.time s.readings ∧
      MonitorSchedule.scheduled config.countersMonitorConfig.period config.countersMonitorConfig.offset
        env.time s.readings = some s.nextMonitorTick := by
  refine stateAt_induction (P := fun _ s => s.now = env.time s.readings ∧
    MonitorSchedule.scheduled config.countersMonitorConfig.period config.countersMonitorConfig.offset
      env.time s.readings = some s.nextMonitorTick) (fun s hs => ?_) (fun n s s' _ ih hs => ?_) h
  · obtain ⟨next, hnext, hs⟩ := Option.bind_eq_some_iff.1 hs
    cases hs
    exact ⟨rfl, hnext⟩
  · obtain ⟨hnow, hsched⟩ := ih
    rcases advance_cases hs with ⟨next, -, -, rfl⟩ | ⟨-, rfl⟩ | ⟨reset, next, -, hrule, rfl⟩ | ⟨ub, -, -, rfl⟩ |
      ⟨ub, -, rfl⟩ | ⟨side, -, -, rfl⟩
    case inr.inr.inl =>
      rw [work_readings, work_nextMonitorTick] at hrule
      refine ⟨rfl, ?_⟩
      simp [MonitorSchedule.scheduled, hsched, hrule]
    all_goals exact ⟨hnow, hsched⟩

theorem step_body_monitor (ht : stateAt config env n = some s) (hpc : s.pc = .body)
    (h : step config env s n = some s') :
    s'.monitor =
      if MonitorSchedule.resets config.countersMonitorConfig.period config.countersMonitorConfig.offset env.time
        (s.readings + 1) then s.monitor.reset (makeUuidCountersBoostrapDb config.countersUuids) else s.monitor := by
  obtain ⟨-, hsched⟩ := stateAt_scheduled ht
  simp only [step, advance, work_pc, hpc, work_readings, work_nextMonitorTick, Option.bind_eq_bind,
    Option.bind_eq_some_iff, Option.some.injEq] at h
  obtain ⟨⟨reset, next⟩, hrule, rfl⟩ := h
  have hreset : MonitorSchedule.resets config.countersMonitorConfig.period config.countersMonitorConfig.offset env.time
      (s.readings + 1) = reset := by simp only [MonitorSchedule.resets, hsched, hrule]
  rw [hreset]
  rfl

end MainLoop
end EventsCounter
