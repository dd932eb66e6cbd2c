import EventsCounter.MonitorBudget
import EventsCounter.MonitorInterval

/-!
# The budget and the interval it stands for

What is charged to the open budget depends on two clocks, the loop's and the filter's, and on how both
stand to the ticks. Seen over a whole run it lies between two lists that name the stamps only: with
the loop's clock in the interval that begins at the tick `T`, everything that was fetched on time and
is stamped from `T` on is charged (`timely_sublist_charged`), and nothing is charged that was
fetched before `T` or is stamped before it, but for what came while the filter's clock stood on `T`
(`charged_sublist_eligible`).

So the monitor misses no uuid that is over its limit within an interval, and alerts about none that is
not, up to that instant (`window_alerts`).
-/

namespace EventsCounter
namespace MainLoop

/-- The messages of the readings `1, …, i` that satisfy `p`. -/
def fetchedWhere (env : Environment) (p : ℕ → UUIDBytes → Bool) (i : ℕ) : List UUIDBytes :=
  (List.range' 1 i).filterMap fun j => (env.fetched j).message.filter (p j)

/-- Stamped from `T` on, and fetched by both clocks in the interval that begins there. -/
def timely (config : Config) (env : Environment) (T : ℤ) (j : ℕ) (d : UUIDBytes) : Bool :=
  !d.isEmpty && decide (T < (env.time j).toInt ∧ filterClock env j ≤ T + config.countersMonitorConfig.period.toInt ∧
    T ≤ d.timestamp.toNat)

/-- Fetched from `T` on, and stamped from `T` on unless the filter's clock stood on `T`. -/
def eligible (config : Config) (env : Environment) (T : ℤ) (j : ℕ) (d : UUIDBytes) : Bool :=
  !d.isEmpty && decide (T ≤ (env.time j).toInt ∧ (T ≤ d.timestamp.toNat ∨
    filterClock env j = T ∧ T - config.countersMonitorConfig.period.toInt ≤ d.timestamp.toNat))

variable {config : Config} {env : Environment} {s : MainLoop} {n i j : ℕ} {u : Bytes} {d : UUIDBytes} {T : ℤ}

theorem fetchedWhere_succ (p : ℕ → UUIDBytes → Bool) (i : ℕ) :
    fetchedWhere env p (i + 1) = fetchedWhere env p i ++ ((env.fetched (i + 1)).message.filter (p (i + 1))).toList := by
  rw [fetchedWhere, List.range'_concat, List.filterMap_append, Nat.one_mul, Nat.add_comm 1 i]
  cases hmessage : (env.fetched (i + 1)).message.filter (p (i + 1)) <;> simp [fetchedWhere, hmessage]

theorem fetchedWhere_mono {p q : ℕ → UUIDBytes → Bool} (h : ∀ j d, p j d = true → q j d = true) (i : ℕ) :
    (fetchedWhere env p i).Sublist (fetchedWhere env q i) := by
  induction i with
  | zero => exact List.Sublist.refl _
  | succ i ih =>
    rw [fetchedWhere_succ, fetchedWhere_succ]
    refine ih.append ?_
    cases hmessage : (env.fetched (i + 1)).message with
    | none => exact List.Sublist.refl _
    | some d =>
      cases hp : p (i + 1) d with
      | false =>
        rw [Option.filter_some_neg hp]
        exact List.nil_sublist _
      | true => rw [Option.filter_some_pos hp, Option.filter_some_pos (h _ _ hp)]

theorem fetchedWhere_sublist {p : ℕ → UUIDBytes → Bool} (h : i ≤ j) :
    (fetchedWhere env p i).Sublist (fetchedWhere env p j) := by
  refine List.Sublist.filterMap _ ?_
  obtain ⟨k, rfl⟩ := Nat.exists_eq_add_of_le h
  rw [← List.range'_append_1]
  exact List.sublist_append_left _ _

theorem accepted_eq_some_iff : accepted config env i = some d ↔
    (env.fetched i).message = some d ∧ d.isEmpty = false ∧
      intervalStart config.countersMonitorConfig.period.toUInt64 config.countersMonitorConfig.offset.toUInt64
        (systemSeconds (env.fetched i).clock) ≤ d.timestamp := by
  rw [← consume_nonempty_iff]
  unfold accepted
  constructor
  · intro h
    simp only at h
    split at h
    · cases h
    · cases h
      exact ⟨rfl, Bool.not_eq_true _ ▸ ‹¬_›⟩
  · rintro ⟨rfl, hne⟩
    simp [hne]

/-- Whatever the clocks show, only what was fetched is charged. -/
theorem charged_sublist_fetched (i : ℕ) : (charged config env i).Sublist (fetchedWhere env (fun _ _ => true) i) := by
  induction i with
  | zero => exact List.Sublist.refl _
  | succ i ih =>
    rw [charged_succ, fetchedWhere_succ]
    refine List.Sublist.append ?_ ?_
    · rw [carried]
      split
      · exact List.nil_sublist _
      · exact ih
    · cases haccepted : accepted config env (i + 1) with
      | none => exact List.nil_sublist _
      | some d => rw [(accepted_eq_some_iff.1 haccepted).1, Option.filter_some_pos rfl]

namespace InStep
variable (hc : InStep config env)
include hc

theorem exists_lastReset (i : ℕ) : ∃ m next,
    MonitorSchedule.scheduled config.countersMonitorConfig.period config.countersMonitorConfig.offset env.time i = some next ∧
      MonitorSchedule.LastReset config.countersMonitorConfig.period config.countersMonitorConfig.offset env.time i m next := by
  have hp := hc.period
  have hstart := hc.first 0
  have hle : (env.time i).toInt + config.countersMonitorConfig.period.toInt < 2 ^ 63 := by
    have hfirst := hc.first (i + 1)
    have hmono : (env.time i).toInt ≤ (env.time (i + 1)).toInt := hc.mono (Nat.le_succ i)
    have hclock := hc.clock (i + 1) (by omega)
    have hlt := (hc.filterClock_toNat (i := i + 1) (by omega)).2
    omega
  exact MonitorSchedule.exists_lastReset hc.period hc.offset hc.offset_lt (by omega) hc.mono hle

/-- Where the filter's interval begins, and what passes it. -/
theorem filterStart (hi : 1 ≤ i) : ∃ S : ℤ,
    IsGreatest (Ticks.before config.countersMonitorConfig.period.toInt config.countersMonitorConfig.offset.toInt
      (filterClock env i)) S ∧
    ∀ d, accepted config env i = some d ↔
      (env.fetched i).message = some d ∧ d.isEmpty = false ∧ S ≤ d.timestamp.toNat := by
  obtain ⟨hclock, hlt⟩ := hc.filterClock_toNat hi
  have hperiod := int64_toNat_of_nonneg (x := config.countersMonitorConfig.period) (by have := hc.period; omega)
  have hoffset := int64_toNat_of_nonneg hc.offset
  have hp := hc.period
  have hop := hc.offset_lt
  have hfirst := hc.first i
  have hbehind := hc.clock i hi
  have hgreatest := @intervalStart_isGreatest config.countersMonitorConfig.period.toUInt64
    config.countersMonitorConfig.offset.toUInt64 (systemSeconds (env.fetched i).clock)
    (by omega) (by omega) (by omega) (by omega)
  rw [hperiod, hoffset, hclock] at hgreatest
  refine ⟨_, hgreatest, fun d => ?_⟩
  rw [accepted_eq_some_iff, UInt64.le_iff_toNat_le, Nat.cast_le]

theorem resetAt_succ_iff {next : Seconds} (hs : MonitorSchedule.scheduled config.countersMonitorConfig.period
    config.countersMonitorConfig.offset env.time i = some next) :
    resetAt config env (i + 1) = true ↔ next.toInt < (env.time (i + 1)).toInt := by
  refine MonitorSchedule.resets_succ_iff ?_ hs
  rintro heq
  have hp := hc.period
  rw [heq] at hp
  exact absurd hp (by decide)

/-! ### Everything on time is charged -/

theorem timely_sublist_charged (hT : T ≡ config.countersMonitorConfig.offset.toInt
    [ZMOD config.countersMonitorConfig.period.toInt]) (i : ℕ)
    (hle : (env.time i).toInt ≤ T + config.countersMonitorConfig.period.toInt) :
    (fetchedWhere env (timely config env T) i).Sublist (charged config env i) := by
  induction i with
  | zero => exact List.Sublist.refl _
  | succ i ih =>
    have hmono : (env.time i).toInt ≤ (env.time (i + 1)).toInt := hc.mono (Nat.le_succ i)
    rw [fetchedWhere_succ, charged_succ]
    refine List.Sublist.append ?_ ?_
    · rcases lt_or_ge T (env.time i).toInt with hpast | hbefore
      · -- the tick scheduled is the end of the interval, or a later one
        obtain ⟨m, next, hs, hm⟩ := hc.exists_lastReset i
        have hp := hc.period
        have hnext := Ticks.add_le_of_lt hT hm.least.1.2 (by have := hm.pending; omega)
        have hquiet : resetAt config env (i + 1) = false := by
          rw [← Bool.not_eq_true, hc.resetAt_succ_iff hs]
          omega
        rw [carried, hquiet]
        exact ih (hmono.trans hle)
      · have hnone : fetchedWhere env (timely config env T) i = [] := by
          refine List.filterMap_eq_nil_iff.2 fun j hj => ?_
          have hji : (env.time j).toInt ≤ (env.time i).toInt := hc.mono (by have := List.mem_range'_1.1 hj; omega)
          refine Option.filter_eq_none_iff.2 fun d _ => ?_
          simp only [timely, Bool.and_eq_true, decide_eq_true_eq]
          omega
        rw [hnone]
        exact List.nil_sublist _
    · cases hmessage : (env.fetched (i + 1)).message with
      | none => exact List.nil_sublist _
      | some d =>
        by_cases htimely : timely config env T (i + 1) d = true
        · rw [Option.filter_some_pos htimely]
          simp only [timely, Bool.and_eq_true, Bool.not_eq_true', decide_eq_true_eq] at htimely
          obtain ⟨hne, hpast, hupto, hstamp⟩ := htimely
          obtain ⟨S, hS, haccepted⟩ := hc.filterStart (i := i + 1) (by omega)
          have hp := hc.period
          have hclock := hc.clock (i + 1) (by omega)
          have hSle : S ≤ T := by
            by_contra hlater
            have := Ticks.add_le_of_lt hT hS.1.2 (by omega)
            have := hS.1.1
            omega
          rw [(haccepted d).2 ⟨hmessage, hne, by omega⟩]
        · rw [Option.filter_some_neg (Bool.not_eq_true _ ▸ htimely)]
          exact List.nil_sublist _

/-! ### Nothing else is -/

theorem eligible_of_accepted {next : Seconds} (hm : MonitorSchedule.LastReset config.countersMonitorConfig.period
    config.countersMonitorConfig.offset env.time i j next) (hi : 1 ≤ i) (h : accepted config env i = some d) :
    (env.fetched i).message = some d ∧
      eligible config env (next.toInt - config.countersMonitorConfig.period.toInt) i d = true := by
  obtain ⟨S, hS, haccepted⟩ := hc.filterStart hi
  obtain ⟨hmessage, hne, hstamp⟩ := (haccepted d).1 h
  refine ⟨hmessage, ?_⟩
  have hp := hc.period
  have hclock := hc.clock i hi
  obtain ⟨-, hle, hmod⟩ := (Ticks.isLeast_after_iff (by omega)).1 hm.least
  have hmono : (env.time j).toInt ≤ (env.time i).toInt := hc.mono hm.le
  simp only [eligible, Bool.and_eq_true, Bool.not_eq_true', decide_eq_true_eq]
  refine ⟨hne, by omega, ?_⟩
  rcases Ticks.before_cases (by omega) hS hmod (by omega) with ⟨-, hstart⟩ | ⟨-, -, hstart⟩ | ⟨hon, hstart⟩
  · omega
  · omega
  · omega

theorem charged_sublist_eligible {next : Seconds} (hs : MonitorSchedule.scheduled config.countersMonitorConfig.period
    config.countersMonitorConfig.offset env.time i = some next) :
    (charged config env i).Sublist
      (fetchedWhere env (eligible config env (next.toInt - config.countersMonitorConfig.period.toInt)) i) := by
  induction i generalizing next with
  | zero => exact List.Sublist.refl _
  | succ i ih =>
    obtain ⟨m, next', hs', hm⟩ := hc.exists_lastReset (i + 1)
    obtain rfl : next' = next := Option.some.inj (hs'.symm.trans hs)
    rw [charged_succ, fetchedWhere_succ]
    refine List.Sublist.append ?_ ?_
    · obtain ⟨m₀, before, hbefore, -⟩ := hc.exists_lastReset i
      cases hreset : resetAt config env (i + 1) with
      | true =>
        rw [carried, hreset]
        exact List.nil_sublist _
      | false =>
        -- without a reset the same tick stays scheduled
        have hahead : (env.time (i + 1)).toInt ≤ before.toInt := by
          by_contra hpassed
          rw [(hc.resetAt_succ_iff hbefore).2 (by omega)] at hreset
          cases hreset
        have hsame : MonitorSchedule.scheduled config.countersMonitorConfig.period
            config.countersMonitorConfig.offset env.time (i + 1) = some before := by
          simp [MonitorSchedule.scheduled, hbefore, MonitorSchedule.monitorRule_of_le hahead]
        obtain rfl : before = next' := Option.some.inj (hsame.symm.trans hs)
        rw [carried, hreset]
        exact ih hbefore
    · cases haccepted : accepted config env (i + 1) with
      | none => exact List.nil_sublist _
      | some d =>
        obtain ⟨hmessage, heligible⟩ := hc.eligible_of_accepted hm (by omega) haccepted
        rw [hmessage, Option.filter_some_pos heligible]

end InStep

/-- The state's clock is in the interval that begins at the tick `T`. -/
structure InInterval (config : Config) (env : Environment) (s : MainLoop) (T : ℤ) : Prop where
  tick : T ≡ config.countersMonitorConfig.offset.toInt [ZMOD config.countersMonitorConfig.period.toInt]
  after : T < (env.time s.settledReadings).toInt
  upto : (env.time s.settledReadings).toInt ≤ T + config.countersMonitorConfig.period.toInt

namespace InStep
variable (hc : InStep config env) (hT : InInterval config env s T)
include hc hT

theorem spent_timely_le : spent u (fetchedWhere env (timely config env T) s.settledReadings) ≤
    spent u (charged config env s.settledReadings) :=
  Tally.tally_sublist_le (hc.timely_sublist_charged hT.tick _ hT.upto)

theorem spent_le_eligible : spent u (charged config env s.settledReadings) ≤
    spent u (fetchedWhere env (eligible config env T) s.settledReadings) := by
  obtain ⟨m, next, hs, hm⟩ := hc.exists_lastReset s.settledReadings
  have hp := hc.period
  have hafter := hT.after
  have hnext := Ticks.add_le_of_lt hT.tick hm.least.1.2 (by have := hm.pending; omega)
  -- a later tick is at most a period later, and then both clocks were past `T`
  have hwider : ∀ j d, eligible config env (next.toInt - config.countersMonitorConfig.period.toInt) j d = true →
      eligible config env T j d = true := by
    intro j d hd
    simp only [eligible, Bool.and_eq_true, Bool.not_eq_true', decide_eq_true_eq] at hd ⊢
    obtain ⟨hne, htime, hstamp⟩ := hd
    refine ⟨hne, by omega, ?_⟩
    rcases hstamp with hstamp | ⟨hclock, hstamp⟩
    · exact .inl (by omega)
    · by_cases hsame : next.toInt - config.countersMonitorConfig.period.toInt = T
      · exact .inr ⟨hclock.trans hsame, hsame ▸ hstamp⟩
      · have := Ticks.add_le_of_lt (Ticks.modEq_add_period hT.tick) hm.least.1.2 (by omega)
        exact .inl (by omega)
  exact Tally.tally_sublist_le ((hc.charged_sublist_eligible hs).trans (fetchedWhere_mono hwider _))

variable (hlt : spent u (fetchedWhere env (eligible config env T) s.settledReadings) < 2 ^ 64)
include hlt

theorem openAlert_of_timely
    (hover : Over config u (spent u (fetchedWhere env (timely config env T) s.settledReadings))) :
    ∃ a ∈ openAlerts config env s.settledReadings, a.uuid = u :=
  (mem_openAlerts_iff (Nat.lt_of_le_of_lt (hc.spent_le_eligible hT) hlt)).2 (hover.mono (hc.spent_timely_le hT))

theorem eligible_of_openAlert (halert : ∃ a ∈ openAlerts config env s.settledReadings, a.uuid = u) :
    Over config u (spent u (fetchedWhere env (eligible config env T) s.settledReadings)) :=
  ((mem_openAlerts_iff (Nat.lt_of_le_of_lt (hc.spent_le_eligible hT) hlt)).1 halert).mono (hc.spent_le_eligible hT)

end InStep

/-- In every state of every run, with the loop's clock in the interval that begins at the tick `T`: a
uuid whose bytes of that interval are above its limit has an alert of the open budget, and a uuid that
has one is above it by the bytes of that interval and of the instant `T`, as long as these fit in a
word. -/
theorem window_alerts (config : Config) (env : Environment) (hc : InStep config env) (n : ℕ) (s : MainLoop)
    (h : stateAt config env n = some s) (T : ℤ)
    (hT : T ≡ config.countersMonitorConfig.offset.toInt [ZMOD config.countersMonitorConfig.period.toInt])
    (hafter : T < (env.time s.settledReadings).toInt)
    (hupto : (env.time s.settledReadings).toInt ≤ T + config.countersMonitorConfig.period.toInt) (u : Bytes)
    (hlt : spent u (fetchedWhere env (eligible config env T) s.settledReadings) < 2 ^ 64) :
    openAlerts config env s.settledReadings <:+ s.alerts ∧
    (Over config u (spent u (fetchedWhere env (timely config env T) s.settledReadings)) →
      ∃ a ∈ openAlerts config env s.settledReadings, a.uuid = u) ∧
    ((∃ a ∈ openAlerts config env s.settledReadings, a.uuid = u) →
      Over config u (spent u (fetchedWhere env (eligible config env T) s.settledReadings))) := by
  have hinterval : InInterval config env s T := ⟨hT, hafter, hupto⟩
  exact ⟨alerts_eq h ▸ openAlerts_suffix _, hc.openAlert_of_timely hinterval hlt, hc.eligible_of_openAlert hinterval hlt⟩

theorem sixBytes_inStep : InStep tenBytes sixBytes :=
  ⟨by decide, by decide, by decide, fun _ _ _ => le_refl _,
    fun _ => show (10 : Seconds).toInt ≤ (11 : Seconds).toInt by decide,
    fun _ _ => show (11 : Seconds).toInt ≤ (11000000000 : Int64).toInt / 1000000000 by decide⟩

/-- The two messages of the interval from 10 on make twelve bytes. -/
theorem window_alerts_second :
    ∃ s, stateAt tenBytes sixBytes 9 = some s ∧ ∃ a ∈ s.alerts, a.uuid = lit "a" := by
  have hstate : (stateAt tenBytes sixBytes 9).map settledReadings = some 2 := by decide
  obtain ⟨s, hs, hreadings⟩ := Option.map_eq_some_iff.1 hstate
  obtain ⟨hsuffix, halert, -⟩ := window_alerts tenBytes sixBytes sixBytes_inStep 9 s hs 10 rfl
    (by rw [hreadings]; decide) (by rw [hreadings]; decide) (lit "a") (by rw [hreadings]; decide)
  obtain ⟨a, ha, hau⟩ := halert (by rw [hreadings]; exact ⟨by decide, 10, by decide, by decide⟩)
  exact ⟨s, hs, a, hsuffix.subset ha, hau⟩

end MainLoop
end EventsCounter
