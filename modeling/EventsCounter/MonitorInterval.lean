import EventsCounter.MainLoop

/-!
# Which interval a counter message is charged to

A message goes to the monitor while some tick `N` is scheduled, and counts against the budget that
ends there. Its consumer compared the timestamp with the last tick strictly before a clock of its own.
`N` is at most a period after the loop's reading, so the consumer's clock can be past `N`, between
`N - period` and `N`, or on `N - period` (`Ticks.before_cases`). The filter means the interval of `N`
in the second case only, and a message stamped on `N` gets through there too.
-/

namespace EventsCounter
namespace MainLoop

def filterClock (env : Environment) (i : ℕ) : ℤ := (env.fetched i).clock.toInt / 1000000000

/-- The timer is in range, the readings never go back and start in a full period, and the filter's
clock is not behind the loop's. -/
structure InStep (config : Config) (env : Environment) : Prop where
  period : 1 ≤ config.countersMonitorConfig.period.toInt
  offset : 0 ≤ config.countersMonitorConfig.offset.toInt
  offset_lt : config.countersMonitorConfig.offset.toInt < config.countersMonitorConfig.period.toInt
  mono : Monotone fun i => (env.time i).toInt
  first : ∀ i, config.countersMonitorConfig.period.toInt ≤ (env.time i).toInt
  clock : ∀ i, 1 ≤ i → (env.time i).toInt ≤ filterClock env i

variable {config : Config} {env : Environment} {s s' : MainLoop} {n i : ℕ} {uuidBytes : UUIDBytes}

def Consumed (config : Config) (env : Environment) (s : MainLoop) : Prop :=
  match s.pc with
  | .consume => 1 ≤ s.readings
  | .check uuidBytes => 1 ≤ s.readings ∧ uuidBytes.isEmpty = false ∧
      consume config.countersMonitorConfig.period.toUInt64 config.countersMonitorConfig.offset.toUInt64
        (env.fetched s.readings) = uuidBytes
  | _ => True

theorem consumed_start (h : start config env = some s) : Consumed config env s := by
  obtain ⟨next, -, hs⟩ := Option.bind_eq_some_iff.1 h
  cases hs
  trivial

theorem consumed_advance (hi : Consumed config env s) (h : advance config env s n = some s') :
    Consumed config env s' := by
  rcases advance_cases h with ⟨next, -, -, rfl⟩ | ⟨-, rfl⟩ | ⟨reset, next, -, -, rfl⟩ | ⟨ub, hpc, hub, rfl⟩ |
    ⟨ub, -, rfl⟩ | ⟨side, -, -, rfl⟩
  · trivial
  · unfold Consumed
    by_cases hlt : s.now < s.nextCountersTick
    · simp [hlt]
    · simp [hlt]
  · exact Nat.le_add_left 1 _
  · simp only [Consumed, hpc] at hi
    cases hempty : ub.isEmpty with
    | true => trivial
    | false => exact ⟨hi, hempty, hub⟩
  · trivial
  · unfold Consumed ticksStep
    cases s.side.round with
    | idle => trivial
    | built fresh => trivial
    | walking walked pending => cases pending <;> trivial

theorem consumed (h : stateAt config env n = some s) : Consumed config env s := by
  refine stateAt_induction (P := fun _ s => Consumed config env s) (fun s hs => consumed_start hs)
    (fun n s s' _ hi hs => ?_) h
  exact consumed_advance (s := s.work (env.consumed n)) hi hs

namespace InStep
variable (hc : InStep config env)
include hc

theorem filterClock_toNat (hi : 1 ≤ i) : ((systemSeconds (env.fetched i).clock).toNat : ℤ) = filterClock env i ∧
    filterClock env i < 2 ^ 34 := by
  have hp := hc.period
  have hfirst := hc.first i
  have hclock := hc.clock i hi
  have hnonneg : 0 ≤ (env.fetched i).clock.toInt := by
    unfold filterClock at hclock
    omega
  have hnat := int64_toNat_of_nonneg hnonneg
  have hlt := systemSeconds_lt _ hnonneg
  have heq : ((systemSeconds (env.fetched i).clock).toNat : ℤ) = filterClock env i := by
    unfold systemSeconds filterClock
    rw [Int64.mul_one, int64_div_toNat hnonneg (by decide), ← hnat]
    rfl
  exact ⟨heq, by omega⟩

theorem scheduled_tick (h : stateAt config env n = some s) (hi : 1 ≤ s.readings) :
    s.nextMonitorTick.toInt ≡ config.countersMonitorConfig.offset.toInt
        [ZMOD config.countersMonitorConfig.period.toInt] ∧
      s.nextMonitorTick.toInt - config.countersMonitorConfig.period.toInt ≤ filterClock env s.readings := by
  have hp := hc.period
  have hfirst := hc.first s.readings
  have hclock := hc.clock _ hi
  have hlt := (hc.filterClock_toNat hi).2
  have hstart := hc.first 0
  obtain ⟨m, next, hs, hm⟩ := MonitorSchedule.exists_lastReset (i := s.readings) hc.period hc.offset hc.offset_lt
    (by omega) hc.mono (by omega)
  obtain rfl : s.nextMonitorTick = next := Option.some.inj ((stateAt_scheduled h).2.symm.trans hs)
  obtain ⟨-, hle, hmod⟩ := (Ticks.isLeast_after_iff (by omega)).1 hm.least
  have hmono : (env.time m).toInt ≤ (env.time s.readings).toInt := hc.mono hm.le
  exact ⟨hmod, by omega⟩

end InStep

/-- The exact condition for a message to be charged to the interval it is stamped in. -/
theorem charged_to_own_interval_iff (config : Config) (env : Environment) (hc : InStep config env) (n : ℕ)
    (s : MainLoop) (uuidBytes : UUIDBytes) (h : stateAt config env n = some s) (hpc : s.pc = .check uuidBytes)
    (hstamp : uuidBytes.timestamp.toNat ≤ filterClock env s.readings) :
    (s.nextMonitorTick.toInt - config.countersMonitorConfig.period.toInt ≤ uuidBytes.timestamp.toNat ∧
        (uuidBytes.timestamp.toNat : ℤ) < s.nextMonitorTick.toInt) ↔
      filterClock env s.readings ≤ s.nextMonitorTick.toInt ∧
        (filterClock env s.readings = s.nextMonitorTick.toInt →
          (uuidBytes.timestamp.toNat : ℤ) < filterClock env s.readings) ∧
        (filterClock env s.readings = s.nextMonitorTick.toInt - config.countersMonitorConfig.period.toInt →
          (uuidBytes.timestamp.toNat : ℤ) = filterClock env s.readings) := by
  have hcons := consumed h
  simp only [Consumed, hpc] at hcons
  obtain ⟨hi, hne, hcons⟩ := hcons
  obtain ⟨-, -, hge⟩ := consume_nonempty_iff.1 ⟨hcons, hne⟩
  obtain ⟨hclock, hlt⟩ := hc.filterClock_toNat hi
  obtain ⟨hmod, hprev⟩ := hc.scheduled_tick h hi
  have hperiod := int64_toNat_of_nonneg (x := config.countersMonitorConfig.period) (by have := hc.period; omega)
  have hoffset := int64_toNat_of_nonneg hc.offset
  have hp := hc.period
  have hop := hc.offset_lt
  have hfirst := hc.first s.readings
  have hbehind := hc.clock _ hi
  have hgreatest := @intervalStart_isGreatest config.countersMonitorConfig.period.toUInt64
    config.countersMonitorConfig.offset.toUInt64 (systemSeconds (env.fetched s.readings).clock)
    (by omega) (by omega) (by omega) (by omega)
  rw [hperiod, hoffset, hclock] at hgreatest
  have hge' := UInt64.le_iff_toNat_le.1 hge
  rcases Ticks.before_cases (by omega) hgreatest hmod hprev with ⟨hpast, hstart⟩ | ⟨hafter, hupto, hstart⟩ | ⟨hon, hstart⟩
  · -- the filter's interval begins at `N` or later
    omega
  · omega
  · -- the filter still takes the interval before
    omega

/-! ### On a tick -/

def tenSeconds : Config :=
  ⟨[lit "a"], ⟨⟨[], [], [], []⟩, [], [], [], 60⟩, ⟨⟨[], [], [], []⟩, [], [], 10, 0, ∅⟩⟩

/-- The loop starts at the second 11 and reads `now` ever after; the same message arrives again and
again, and the filter's clock shows `clock` seconds. -/
def standing (now : Seconds) (message : UUIDBytes) (clock : Int64) : Environment :=
  ⟨fun i => if i = 0 then 11 else now, fun _ => ⟨some message, clock * 1000000000, 0, 0⟩, fun _ => now.toUInt64,
    fun _ => .errNoError, fun _ => []⟩

theorem standing_inStep {now : Seconds} {message : UUIDBytes} {clock : Int64} (hnow : 11 ≤ now.toInt)
    (hclock : now.toInt ≤ (clock * 1000000000).toInt / 1000000000) : InStep tenSeconds (standing now message clock) := by
  have hperiod : tenSeconds.countersMonitorConfig.period.toInt = 10 := rfl
  have htime : ∀ i, ((standing now message clock).time i).toInt = if i = 0 then 11 else now.toInt := fun i => by
    show (if i = 0 then (11 : Seconds) else now).toInt = _
    split <;> rfl
  refine ⟨by decide, by decide, by decide, ?_, ?_, ?_⟩
  · intro i j hij
    simp only [htime]
    split <;> split <;> omega
  · intro i
    rw [htime, hperiod]
    split <;> omega
  · intro i hi
    rw [htime, if_neg (by omega)]
    exact hclock

/-- Stamped 17 and filtered at 18: the message is charged to the interval that ends at 20. -/
theorem charged_to_own_interval_iff_at_18 :
    ∃ s, stateAt tenSeconds (standing 17 (UUIDBytes.make (lit "a") 7 17) 18) 4 = some s ∧
      s.nextMonitorTick = 20 ∧ s.nextMonitorTick.toInt - 10 ≤ 17 ∧ 17 < s.nextMonitorTick.toInt := by
  have hstate : (stateAt tenSeconds (standing 17 (UUIDBytes.make (lit "a") 7 17) 18) 4).map
      (fun s => (s.pc, s.nextMonitorTick, s.readings)) = some (.check (UUIDBytes.make (lit "a") 7 17), 20, 1) := by
    decide
  obtain ⟨s, hs, hv⟩ := Option.map_eq_some_iff.1 hstate
  simp only [Prod.mk.injEq] at hv
  obtain ⟨hpc, htick, hreadings⟩ := hv
  have hiff := charged_to_own_interval_iff _ _ (standing_inStep (by decide) (by decide)) 4 s _ hs hpc
    (by rw [hreadings]; decide)
  rw [hreadings, htick] at hiff
  exact ⟨s, hs, htick, by rw [htick]; exact hiff.2 (by decide)⟩

/-- Stamped, read and filtered at 20: the message is charged to the interval that ends there. -/
theorem charged_to_own_interval_fails :
    ¬ ∀ config env, InStep config env → ∀ n s uuidBytes, stateAt config env n = some s → s.pc = .check uuidBytes →
      uuidBytes.timestamp.toNat ≤ filterClock env s.readings →
      s.nextMonitorTick.toInt - config.countersMonitorConfig.period.toInt ≤ uuidBytes.timestamp.toNat ∧
        (uuidBytes.timestamp.toNat : ℤ) < s.nextMonitorTick.toInt := by
  intro hclaim
  have hstate : (stateAt tenSeconds (standing 20 (UUIDBytes.make (lit "a") 7 20) 20) 4).map
      (fun s => (s.pc, s.nextMonitorTick, s.readings)) = some (.check (UUIDBytes.make (lit "a") 7 20), 20, 1) := by
    decide
  obtain ⟨s, hs, hv⟩ := Option.map_eq_some_iff.1 hstate
  simp only [Prod.mk.injEq] at hv
  obtain ⟨hpc, htick, hreadings⟩ := hv
  obtain ⟨-, hlt⟩ := hclaim _ _ (standing_inStep (by decide) (by decide)) 4 s _ hs hpc (by rw [hreadings]; decide)
  rw [htick] at hlt
  exact absurd hlt (by decide)

end MainLoop
end EventsCounter
