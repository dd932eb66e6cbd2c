import EventsCounter.MainLoop
import EventsCounter.MonitorAlerts

/-!
# What `main` alerts about

Seen from outside, the monitor half of `main` is a matter of readings: the `i`-th reading of the clock
may reset the monitor, and then one message may be charged to the budget that is open. `charged` and
`alertOf` say so without any state of the loops, of the monitor or of its table.

`Follows` ties them to every place of the loops: the monitor is the one that has checked what is
charged, and the alerts are those of the readings done with (`alerts_of_readings`). Within one budget
the alerts then say exactly whether the bytes charged are above the limit (`budget_exact`); and no tick
lies between two readings of one budget (`table_within_ticks`).
-/

namespace EventsCounter
namespace MainLoop

section
variable (config : Config) (env : Environment)

/-- What the pass of the inner loop after the `i`-th reading hands to the monitor. -/
def accepted (i : ℕ) : Option UUIDBytes :=
  let uuidBytes := EventsCounter.consume config.countersMonitorConfig.period.toUInt64
    config.countersMonitorConfig.offset.toUInt64 (env.fetched i)
  if uuidBytes.isEmpty then none else some uuidBytes

def resetAt (i : ℕ) : Bool :=
  MonitorSchedule.resets config.countersMonitorConfig.period config.countersMonitorConfig.offset env.time i

/-- What is charged to the budget that is open after the readings `1, …, i`. -/
def charged : ℕ → List UUIDBytes
  | 0 => []
  | i + 1 => (if resetAt config env (i + 1) then [] else charged i) ++ (accepted config env (i + 1)).toList

/-- What the passes after the readings from `m` on, up to `i`, hand to the monitor. -/
def acceptedFrom (m i : ℕ) : List UUIDBytes :=
  (List.range' 1 i).filterMap fun j => if m ≤ j then accepted config env j else none

/-- What is left of it when the next message is fetched. -/
def carried (i : ℕ) : List UUIDBytes := if resetAt config env (i + 1) then [] else charged config env i

end

def spent (u : Bytes) (charged : List UUIDBytes) : ℕ :=
  Tally.tally UUIDBytes.uuid (fun d => d.bytes.toNat) u charged

/-- The total is above the limit of `u`. -/
def Over (config : Config) (u : Bytes) (total : ℕ) : Prop :=
  u ∈ config.countersUuids ∧ ∃ l, config.countersMonitorConfig.limits[u]? = some l ∧ l.toNat < total

/-- The counter of `u`, as wide as the table keeps it, is above the limit. -/
def exceeds (config : Config) (u : Bytes) (charged : List UUIDBytes) : Bool :=
  match config.countersMonitorConfig.limits[u]? with
  | some limit => decide (u ∈ config.countersUuids) && decide (limit.toNat < spent u charged % 2 ^ 64)
  | none => false

def alertOf (config : Config) (env : Environment) (i : ℕ) : Option UUIDBytes :=
  (accepted config env i).filter fun uuidBytes => exceeds config uuidBytes.uuid (charged config env i)

def alertsUpTo (config : Config) (env : Environment) (i : ℕ) : List UUIDBytes :=
  (List.range' 1 i).filterMap (alertOf config env)

/-- The alerts for what is charged to the open budget. -/
def openAlerts (config : Config) (env : Environment) : ℕ → List UUIDBytes
  | 0 => []
  | i + 1 => (if resetAt config env (i + 1) then [] else openAlerts config env i) ++ (alertOf config env (i + 1)).toList

/-- The monitor that has checked `charged` since its last reset. -/
def monitorOf (config : Config) (charged : List UUIDBytes) : UUIDCountersMonitor :=
  UUIDCountersMonitor.afterChecks ⟨⟨makeUuidCountersBoostrapDb config.countersUuids⟩, config.countersMonitorConfig.limits⟩
    (charged.map fun d => (d.uuid, d.bytes))

variable {config : Config} {env : Environment} {s s' : MainLoop} {n i j : ℕ} {u : Bytes} {d : UUIDBytes}
  {ds : List UUIDBytes}

theorem charged_succ (i : ℕ) :
    charged config env (i + 1) = carried config env i ++ (accepted config env (i + 1)).toList := rfl

theorem alertsUpTo_succ (i : ℕ) :
    alertsUpTo config env (i + 1) = alertsUpTo config env i ++ (alertOf config env (i + 1)).toList := by
  rw [alertsUpTo, List.range'_concat, List.filterMap_append, Nat.one_mul, Nat.add_comm 1 i]
  cases halert : alertOf config env (i + 1) <;> simp [alertsUpTo, halert]

theorem exceeds_iff : exceeds config u ds = true ↔ Over config u (spent u ds % 2 ^ 64) := by
  unfold exceeds Over
  cases hl : config.countersMonitorConfig.limits[u]? with
  | none => simp
  | some l => simp

/-! ### The monitor of a list of checks -/

theorem monitorOf_check : ((monitorOf config ds).check d.uuid d.bytes).2 = monitorOf config (ds ++ [d]) := by
  rw [monitorOf, monitorOf, List.map_append]
  exact UUIDCountersMonitor.afterChecks_snoc.symm

theorem monitorOf_check_alert :
    ((monitorOf config ds).check d.uuid d.bytes).1 = exceeds config d.uuid (ds ++ [d]) := by
  have hspent : UUIDCountersMonitor.bytesOf d.uuid (ds.map (fun d => (d.uuid, d.bytes)) ++ [(d.uuid, d.bytes)]) =
      spent d.uuid (ds ++ [d]) := by
    simp only [UUIDCountersMonitor.bytesOf, spent, Tally.tally_append, Tally.tally_map]
    simp
  rw [Bool.eq_iff_iff, exceeds_iff, monitorOf, UUIDCountersMonitor.check_afterChecks_iff, hspent, getElem?_boostrapDb]
  constructor
  · rintro ⟨v, l, hv, hl, hlt⟩
    split at hv
    · cases hv
      exact ⟨‹_›, l, hl, by simpa using hlt⟩
    · cases hv
  · rintro ⟨hu, l, hl, hlt⟩
    exact ⟨0, l, if_pos hu, hl, by simpa using hlt⟩

theorem monitorOf_reset :
    (monitorOf config ds).reset (makeUuidCountersBoostrapDb config.countersUuids) = monitorOf config [] := by
  have hlimits : (monitorOf config ds).limits = config.countersMonitorConfig.limits :=
    UUIDCountersMonitor.afterChecks_limits
  calc (monitorOf config ds).reset (makeUuidCountersBoostrapDb config.countersUuids) =
      ⟨⟨makeUuidCountersBoostrapDb config.countersUuids⟩, (monitorOf config ds).limits⟩ := rfl
    _ = monitorOf config [] := by rw [hlimits]; rfl

/-! ### The loops -/

/-- What the loops have made of the readings, place by place. -/
def Follows (config : Config) (env : Environment) (s : MainLoop) : Prop :=
  match s.pc with
  | .consume => ∃ i, s.readings = i + 1 ∧ s.monitor = monitorOf config (carried config env i) ∧
      s.alerts = alertsUpTo config env i
  | .check uuidBytes => ∃ i, s.readings = i + 1 ∧ s.monitor = monitorOf config (carried config env i) ∧
      s.alerts = alertsUpTo config env i ∧ accepted config env (i + 1) = some uuidBytes
  | _ => s.monitor = monitorOf config (charged config env s.readings) ∧ s.alerts = alertsUpTo config env s.readings

theorem follows_start (h : start config env = some s) : Follows config env s := by
  obtain ⟨next, -, hs⟩ := Option.bind_eq_some_iff.1 h
  cases hs
  exact ⟨rfl, rfl⟩

theorem alertsUpTo_succ_of_none (h : accepted config env (i + 1) = none) :
    alertsUpTo config env (i + 1) = alertsUpTo config env i ∧ charged config env (i + 1) = carried config env i := by
  rw [alertsUpTo_succ, charged_succ, alertOf, h]
  simp

theorem alertsUpTo_succ_of_some (h : accepted config env (i + 1) = some d) :
    alertsUpTo config env (i + 1) =
        (if exceeds config d.uuid (charged config env (i + 1)) then alertsUpTo config env i ++ [d]
          else alertsUpTo config env i) ∧
      charged config env (i + 1) = carried config env i ++ [d] := by
  rw [alertsUpTo_succ, alertOf, h]
  refine ⟨?_, by rw [charged_succ, h]; rfl⟩
  split <;> simp [*]

theorem follows_step (hs : stateAt config env n = some s) (hi : Follows config env s)
    (h : step config env s n = some s') : Follows config env s' := by
  have hbody := fun hpc => step_body_monitor hs hpc h
  change Follows config env (s.work (env.consumed n)) at hi
  rcases advance_cases h with ⟨next, hpc, -, rfl⟩ | ⟨hpc, rfl⟩ | ⟨reset, next, hpc, hrule, heq⟩ | ⟨ub, hpc, hub, rfl⟩ |
    ⟨ub, hpc, rfl⟩ | ⟨side, hpc, -, rfl⟩
  all_goals simp only [Follows, hpc] at hi
  · exact hi
  · unfold Follows
    by_cases hlt : (s.work (env.consumed n)).now < (s.work (env.consumed n)).nextCountersTick
    · simp only [hlt, if_true]
      exact hi
    · simp only [hlt, if_false]
      exact hi
  · rw [work_pc] at hpc
    have hmonitor := hbody hpc
    obtain ⟨hm, halerts⟩ := hi
    have hmonitor' : s.monitor = monitorOf config (charged config env s.readings) := hm
    subst heq
    refine ⟨s.readings, rfl, hmonitor.trans ?_, halerts⟩
    rw [hmonitor', monitorOf_reset, carried, resetAt]
    split <;> rfl
  · obtain ⟨i, hreadings, hmonitor, halerts⟩ := hi
    have hreadings' : s.readings = i + 1 := hreadings
    rw [work_readings, hreadings'] at hub
    cases hempty : ub.isEmpty with
    | true =>
      have hnone : accepted config env (i + 1) = none := by simp [accepted, hub, hempty]
      obtain ⟨halerts', hcharged⟩ := alertsUpTo_succ_of_none hnone
      refine ⟨?_, ?_⟩
      · show s.monitor = monitorOf config (charged config env s.readings)
        rw [hreadings', hcharged]
        exact hmonitor
      · show s.alerts = alertsUpTo config env s.readings
        rw [hreadings', halerts']
        exact halerts
    | false => exact ⟨i, hreadings, hmonitor, halerts, by simp [accepted, hub, hempty]⟩
  · obtain ⟨i, hreadings, hmonitor, halerts, haccepted⟩ := hi
    have hreadings' : s.readings = i + 1 := hreadings
    obtain ⟨halerts', hcharged⟩ := alertsUpTo_succ_of_some haccepted
    refine ⟨?_, ?_⟩
    · show ((s.work (env.consumed n)).monitor.check ub.uuid ub.bytes).2 = monitorOf config (charged config env s.readings)
      rw [hreadings', hcharged, hmonitor, monitorOf_check]
    · show (if ((s.work (env.consumed n)).monitor.check ub.uuid ub.bytes).1 then
        (s.work (env.consumed n)).alerts ++ [ub] else (s.work (env.consumed n)).alerts) = alertsUpTo config env s.readings
      rw [hreadings', halerts', hmonitor, monitorOf_check_alert, halerts, hcharged]
  · unfold Follows ticksStep
    cases (s.work (env.consumed n)).side.round with
    | idle => exact hi
    | built fresh => exact hi
    | walking walked pending => cases pending <;> exact hi

theorem follows (h : stateAt config env n = some s) : Follows config env s :=
  stateAt_induction (P := fun _ s => Follows config env s) (fun _ hs => follows_start hs)
    (fun _ _ _ hs hi hstep => follows_step hs hi hstep) h

/-- How many readings are done with: the last one is not, between the reset and the end of the check. -/
def settledReadings (s : MainLoop) : ℕ :=
  match s.pc with
  | .consume => s.readings - 1
  | .check _ => s.readings - 1
  | _ => s.readings

theorem settledReadings_le (s : MainLoop) : s.settledReadings ≤ s.readings := by
  unfold settledReadings
  split <;> omega

/-- What the monitor has been given since its last reset. -/
def inTable (config : Config) (env : Environment) (s : MainLoop) : List UUIDBytes :=
  if s.settledReadings = s.readings then charged config env s.readings else carried config env s.settledReadings

theorem alerts_eq (h : stateAt config env n = some s) : s.alerts = alertsUpTo config env s.settledReadings := by
  have hi := follows h
  unfold Follows at hi
  unfold settledReadings
  cases hpc : s.pc with
  | consume =>
    simp only [hpc] at hi
    obtain ⟨i, hreadings, -, halerts⟩ := hi
    simp [hreadings, halerts]
  | check uuidBytes =>
    simp only [hpc] at hi
    obtain ⟨i, hreadings, -, halerts, -⟩ := hi
    simp [hreadings, halerts]
  | outer | inner | body | ticks =>
    simp only [hpc] at hi
    exact hi.2

theorem monitor_eq (h : stateAt config env n = some s) : s.monitor = monitorOf config (inTable config env s) := by
  have hi := follows h
  unfold Follows at hi
  unfold inTable settledReadings
  cases hpc : s.pc with
  | consume =>
    simp only [hpc] at hi
    obtain ⟨i, hreadings, hmonitor, -⟩ := hi
    simp [hreadings, hmonitor]
  | check uuidBytes =>
    simp only [hpc] at hi
    obtain ⟨i, hreadings, hmonitor, -, -⟩ := hi
    simp [hreadings, hmonitor]
  | outer | inner | body | ticks =>
    simp only [hpc] at hi
    simp [hi.1]

/-- In every state of every run: the alerts raised are those of the readings done with, in their order,
and outside of a check the monitor holds the bytes charged to the open budget. -/
theorem alerts_of_readings (config : Config) (env : Environment) (n : ℕ) (s : MainLoop)
    (h : stateAt config env n = some s) :
    s.alerts = alertsUpTo config env s.settledReadings ∧
    s.monitor = monitorOf config
      (if s.settledReadings = s.readings then charged config env s.readings else carried config env s.settledReadings) :=
  ⟨alerts_eq h, monitor_eq h⟩

/-- A limit of ten bytes, a reset every ten seconds. -/
def tenBytes : Config :=
  ⟨[lit "a"], ⟨⟨[], [], [], []⟩, [], [], [], 60⟩, ⟨⟨[], [], [], []⟩, [], [], 10, 0, (∅ : Counters).insert (lit "a") 10⟩⟩

/-- The clock stands at the second 11, and six bytes arrive at every call. -/
def sixBytes : Environment :=
  ⟨fun _ => 11, fun _ => ⟨some (UUIDBytes.make (lit "a") 6 11), 11000000000, 0, 0⟩, fun _ => 11, fun _ => .errNoError,
    fun _ => []⟩

/-- The second message is one too many. -/
theorem alerts_of_readings_second :
    ∃ s, stateAt tenBytes sixBytes 9 = some s ∧ s.alerts = [UUIDBytes.make (lit "a") 6 11] ∧
      s.alerts = alertsUpTo tenBytes sixBytes 2 := by
  have hstate : (stateAt tenBytes sixBytes 9).map (fun s => (s.alerts, s.settledReadings)) =
      some ([UUIDBytes.make (lit "a") 6 11], 2) := by decide
  obtain ⟨s, hs, hv⟩ := Option.map_eq_some_iff.1 hstate
  obtain ⟨halerts, hreadings⟩ := Prod.mk.inj hv
  have hfollows := (alerts_of_readings _ _ 9 s hs).1
  rw [hreadings] at hfollows
  exact ⟨s, hs, halerts, hfollows⟩

/-! ### One budget -/

theorem spent_append (ds ds' : List UUIDBytes) : spent u (ds ++ ds') = spent u ds + spent u ds' := Tally.tally_append

theorem mem_toList_alertOf {a : UUIDBytes} : a ∈ (alertOf config env i).toList ↔
    accepted config env i = some a ∧ exceeds config a.uuid (charged config env i) = true := by
  rw [Option.mem_toList, alertOf, Option.filter_eq_some_iff]

theorem spent_charged_succ (i : ℕ) : spent u (charged config env (i + 1)) =
    (if resetAt config env (i + 1) then 0 else spent u (charged config env i)) +
      spent u (accepted config env (i + 1)).toList := by
  rw [charged_succ, spent_append, carried]
  split <;> rfl

theorem openAlerts_suffix (i : ℕ) : openAlerts config env i <:+ alertsUpTo config env i := by
  induction i with
  | zero => exact List.suffix_rfl
  | succ i ih =>
    rw [alertsUpTo_succ, openAlerts]
    split
    · exact List.suffix_append _ _
    · obtain ⟨before, hbefore⟩ := ih
      exact ⟨before, by rw [← hbefore, List.append_assoc]⟩

theorem Over.mono {total total' : ℕ} (h : Over config u total) (hle : total ≤ total') : Over config u total' := by
  obtain ⟨hu, l, hl, hlt⟩ := h
  exact ⟨hu, l, hl, hlt.trans_le hle⟩

theorem not_over_zero : ¬ Over config u 0 := by
  rintro ⟨-, l, -, hlt⟩
  exact absurd hlt (Nat.not_lt_zero _)

/-- An alert of the open budget is a matter of the bytes charged to it. -/
theorem mem_openAlerts_iff (hlt : spent u (charged config env i) < 2 ^ 64) :
    (∃ a ∈ openAlerts config env i, a.uuid = u) ↔ Over config u (spent u (charged config env i)) := by
  induction i with
  | zero => exact iff_of_false (by simp [openAlerts]) not_over_zero
  | succ i ih =>
    have hsplit := @spent_charged_succ config env u i
    -- the budget as it was carried over
    have hcarried : (∃ a ∈ if resetAt config env (i + 1) then [] else openAlerts config env i, a.uuid = u) ↔
        Over config u (if resetAt config env (i + 1) then 0 else spent u (charged config env i)) := by
      by_cases hreset : resetAt config env (i + 1) = true
      · simp only [hreset, if_true]
        exact iff_of_false (by simp) not_over_zero
      · rw [Bool.not_eq_true] at hreset
        simp only [hreset, Bool.false_eq_true, if_false] at hsplit ⊢
        exact ih (by omega)
    have hexceeds := @exceeds_iff config u (charged config env (i + 1))
    rw [Nat.mod_eq_of_lt hlt] at hexceeds
    rw [openAlerts]
    simp only [List.mem_append, or_and_right, exists_or, hcarried, mem_toList_alertOf]
    rw [hsplit] at hexceeds ⊢
    constructor
    · rintro (hover | ⟨a, ⟨-, ha⟩, rfl⟩)
      · exact hover.mono (Nat.le_add_right _ _)
      · exact hexceeds.1 ha
    · intro hover
      cases haccepted : accepted config env (i + 1) with
      | none =>
        rw [haccepted] at hover
        exact .inl hover
      | some d =>
        rw [haccepted] at hover hexceeds
        by_cases hd : d.uuid = u
        · exact .inr ⟨d, ⟨rfl, by rw [hd]; exact hexceeds.2 hover⟩, hd⟩
        · refine .inl ?_
          have hnothing : spent u (some d).toList = 0 := by simp [spent, hd]
          rwa [hnothing, Nat.add_zero] at hover

/-- In every state of every run: the alerts raised since the last reset say of every uuid whether the
bytes charged since then are above its limit, as long as they fit in a word. -/
theorem budget_exact (config : Config) (env : Environment) (n : ℕ) (s : MainLoop)
    (h : stateAt config env n = some s) :
    openAlerts config env s.settledReadings <:+ s.alerts ∧
    ∀ u, spent u (charged config env s.settledReadings) < 2 ^ 64 →
      ((∃ a ∈ openAlerts config env s.settledReadings, a.uuid = u) ↔
        Over config u (spent u (charged config env s.settledReadings))) := by
  rw [alerts_eq h]
  exact ⟨openAlerts_suffix _, fun u hlt => mem_openAlerts_iff hlt⟩

theorem budget_exact_second :
    ∃ s, stateAt tenBytes sixBytes 9 = some s ∧
      ∃ a ∈ openAlerts tenBytes sixBytes s.settledReadings, a.uuid = lit "a" := by
  have hstate : (stateAt tenBytes sixBytes 9).map settledReadings = some 2 := by decide
  obtain ⟨s, hs, hreadings⟩ := Option.map_eq_some_iff.1 hstate
  have hexact := (budget_exact _ _ 9 s hs).2 (lit "a")
  rw [hreadings] at hexact
  refine ⟨s, hs, ?_⟩
  rw [hreadings]
  exact (hexact (by decide)).2 ⟨by decide, 10, by decide, by decide⟩

/-! ### A budget and the ticks -/

theorem acceptedFrom_succ (i : ℕ) : acceptedFrom config env j (i + 1) =
    acceptedFrom config env j i ++ (if j ≤ i + 1 then accepted config env (i + 1) else none).toList := by
  rw [acceptedFrom, List.range'_concat, List.filterMap_append, Nat.one_mul, Nat.add_comm 1 i]
  cases hnext : (if j ≤ i + 1 then accepted config env (i + 1) else none) <;> simp [acceptedFrom, hnext]

theorem acceptedFrom_of_lt (h : i < j) : acceptedFrom config env j i = [] := by
  refine List.filterMap_eq_nil_iff.2 fun k hk => if_neg ?_
  have := List.mem_range'_1.1 hk
  omega

/-- The budget opened by the reset after the reading `j`, or the first one. -/
theorem charged_eq_acceptedFrom (hj : j ≤ i) (hreset : j = 0 ∨ resetAt config env j = true)
    (hquiet : ∀ k, j < k → k ≤ i → resetAt config env k = false) :
    charged config env i = acceptedFrom config env j i := by
  induction i, hj using Nat.le_induction with
  | base =>
    rcases j with - | j
    · rfl
    · rw [charged_succ, carried, hreset.resolve_left (by omega), acceptedFrom_succ, acceptedFrom_of_lt (by omega),
        if_pos (le_refl _)]
      rfl
  | succ i hj ih =>
    rw [charged_succ, carried, hquiet (i + 1) (by omega) (le_refl _), acceptedFrom_succ, if_pos (by omega : j ≤ i + 1),
      ← ih fun k hk hki => hquiet k hk (by omega)]
    rfl

/-- In every state of every run with a sane timer and a clock that does not go back, the monitor has been
given the messages of one stretch of readings, and no tick lies between any two of these. -/
theorem table_within_ticks (hp : 1 ≤ config.countersMonitorConfig.period.toInt)
    (ho : 0 ≤ config.countersMonitorConfig.offset.toInt)
    (hop : config.countersMonitorConfig.offset.toInt < config.countersMonitorConfig.period.toInt)
    (hstart : 0 ≤ (env.time 0).toInt) (hmono : Monotone fun i => (env.time i).toInt)
    (hover : ∀ i, (env.time i).toInt + config.countersMonitorConfig.period.toInt < 2 ^ 63)
    (h : stateAt config env n = some s) :
    ∃ m ≤ s.readings, s.monitor = monitorOf config (acceptedFrom config env m s.settledReadings) ∧
      ∀ (j k : ℕ) (T : ℤ), m ≤ j → j < k → k ≤ s.readings →
        T ≡ config.countersMonitorConfig.offset.toInt [ZMOD config.countersMonitorConfig.period.toInt] →
          ¬ ((env.time j).toInt < T ∧ T < (env.time k).toInt) := by
  obtain ⟨m, next, -, hm⟩ := MonitorSchedule.exists_lastReset (i := s.readings) hp ho hop hstart hmono (hover _)
  refine ⟨m, hm.le, ?_, ?_⟩
  · rw [monitor_eq h, inTable]
    split
    · rename_i hsettled
      rw [hsettled, charged_eq_acceptedFrom hm.le hm.reset hm.quiet]
    · rename_i hsettled
      obtain hreadings : s.readings = s.settledReadings + 1 := by
        unfold settledReadings at hsettled ⊢
        split at hsettled <;> omega
      generalize s.settledReadings = i at hreadings ⊢
      rcases Nat.eq_or_lt_of_le hm.le with rfl | hlt
      · -- the last reading has reset the monitor
        rw [carried, ← hreadings, acceptedFrom_of_lt (by omega), resetAt, hm.reset.resolve_left (by omega), if_pos rfl]
      · have hquiet : resetAt config env (i + 1) = false := hreadings ▸ hm.quiet s.readings hlt (le_refl _)
        rw [carried, hquiet, charged_eq_acceptedFrom (by omega) hm.reset fun k hk hki => hm.quiet k hk (by omega)]
        rfl
  · rintro j k T hmj - hk hT ⟨hjT, hTk⟩
    obtain ⟨r, hjr, hrk, hr⟩ := MonitorSchedule.exists_reset_of_tick hp ho hop hstart hmono (hover k) hT hjT hTk
    rw [hm.quiet r (by omega) (by omega)] at hr
    cases hr

end MainLoop
end EventsCounter
