import EventsCounter.NextTick

/-!
# When `main` resets the monitor

After every clock reading of the inner loop, `main` resets the monitor and recomputes its tick if the
tick has passed. `LastReset i m N` describes the tick `N` scheduled after the `i`-th reading by the
reading `m` that computed it: `N` is the least tick after that reading, nothing was reset since, and
the clock has not passed `N` yet. The rule keeps it, whether it fires or not.
-/

namespace EventsCounter

/-- The reset rule of the inner loop: whether the monitor is reset, and `next_monitor_tick`
afterwards. `none` is the exit of `next_tick`. -/
def monitorRule (period offset now nextMonitorTick : Seconds) : Option (Bool × Seconds) :=
  if now > nextMonitorTick then (nextTick period now offset).map fun next => (true, next)
  else some (false, nextMonitorTick)

namespace MonitorSchedule

section
variable (period offset : Seconds) (clock : ℕ → Seconds)

/-- `next_monitor_tick` after the rule has run at the readings `1, …, i`; the reading `0` is the one
before the loop. -/
def scheduled : ℕ → Option Seconds
  | 0 => nextTick period (clock 0) offset
  | i + 1 => do
    let nextMonitorTick ← scheduled i
    let (_, next) ← monitorRule period offset (clock (i + 1)) nextMonitorTick
    some next

def resets : ℕ → Bool
  | 0 => false
  | i + 1 =>
    match scheduled period offset clock i with
    | some nextMonitorTick =>
      match monitorRule period offset (clock (i + 1)) nextMonitorTick with
      | some (reset, _) => reset
      | none => false
    | none => false

structure LastReset (i m : ℕ) (next : Seconds) : Prop where
  le : m ≤ i
  least : IsLeast (Ticks.after period.toInt offset.toInt (clock m).toInt) next.toInt
  pending : (clock i).toInt ≤ next.toInt
  reset : m = 0 ∨ resets period offset clock m = true
  quiet : ∀ k, m < k → k ≤ i → resets period offset clock k = false

end

variable {period offset : Seconds} {clock : ℕ → Seconds} {i m : ℕ} {next : Seconds}

theorem monitorRule_of_le {now : Seconds} (h : now.toInt ≤ next.toInt) :
    monitorRule period offset now next = some (false, next) := by
  unfold monitorRule
  rw [if_neg (Int64.not_lt.2 (Int64.le_iff_toInt_le.2 h))]

theorem monitorRule_of_lt {now : Seconds} (h : next.toInt < now.toInt) :
    monitorRule period offset now next = (nextTick period now offset).map fun next => (true, next) := by
  unfold monitorRule
  rw [if_pos (Int64.lt_iff_toInt_lt.2 h)]

theorem monitorRule_eq_none_iff {now : Seconds} :
    monitorRule period offset now next = none ↔ now > next ∧ period = 0 := by
  unfold monitorRule
  split
  · rename_i hlate
    rw [Option.map_eq_none_iff, nextTick_eq_none_iff]
    exact (and_iff_right hlate).symm
  · rename_i hlate
    constructor
    · intro h
      cases h
    · rintro ⟨hlate', -⟩
      exact absurd hlate' hlate

namespace LastReset

theorem stay (h : LastReset period offset clock i m next) (hs : scheduled period offset clock i = some next)
    (hle : (clock (i + 1)).toInt ≤ next.toInt) :
    scheduled period offset clock (i + 1) = some next ∧ LastReset period offset clock (i + 1) m next := by
  have hrule : monitorRule period offset (clock (i + 1)) next = some (false, next) := monitorRule_of_le hle
  refine ⟨by simp [scheduled, hs, hrule], ⟨by have := h.le; omega, h.least, hle, h.reset, ?_⟩⟩
  intro k hk hki
  rcases Nat.lt_or_ge i k with hik | hik
  · obtain rfl : k = i + 1 := by omega
    simp [resets, hs, hrule]
  · exact h.quiet k hk hik

theorem fire (hs : scheduled period offset clock i = some next) (hlt : next.toInt < (clock (i + 1)).toInt)
    {next' : Seconds} (hnext : nextTick period (clock (i + 1)) offset = some next')
    (hleast : IsLeast (Ticks.after period.toInt offset.toInt (clock (i + 1)).toInt) next'.toInt) :
    scheduled period offset clock (i + 1) = some next' ∧
      LastReset period offset clock (i + 1) (i + 1) next' := by
  have hrule : monitorRule period offset (clock (i + 1)) next = some (true, next') := by
    rw [monitorRule_of_lt hlt, hnext]
    rfl
  refine ⟨by simp [scheduled, hs, hrule], ⟨le_refl _, hleast, ?_, .inr (by simp [resets, hs, hrule]), ?_⟩⟩
  · exact le_of_lt hleast.1.1
  · intro k hk hki
    omega

end LastReset

theorem exists_lastReset (hp : 1 ≤ period.toInt) (ho : 0 ≤ offset.toInt) (hop : offset.toInt < period.toInt)
    (hstart : 0 ≤ (clock 0).toInt) (hmono : Monotone fun i => (clock i).toInt)
    (hover : (clock i).toInt + period.toInt < 2 ^ 63) :
    ∃ m next, scheduled period offset clock i = some next ∧ LastReset period offset clock i m next := by
  induction i with
  | zero =>
    obtain ⟨next, hnext, hleast⟩ := nextTick_isLeast hp ho hop hstart hover
    refine ⟨0, next, hnext, ⟨le_refl _, hleast, le_of_lt hleast.1.1, .inl rfl, ?_⟩⟩
    intro k hk hk0
    omega
  | succ i ih =>
    have hle : (clock i).toInt ≤ (clock (i + 1)).toInt := hmono (Nat.le_succ i)
    have h0 : (clock 0).toInt ≤ (clock (i + 1)).toInt := hmono (Nat.zero_le _)
    obtain ⟨m, next, hs, hm⟩ := ih (by omega)
    rcases le_or_gt (clock (i + 1)).toInt next.toInt with hahead | hpassed
    · obtain ⟨hs', hm'⟩ := hm.stay hs hahead
      exact ⟨m, next, hs', hm'⟩
    · obtain ⟨next', hnext, hleast⟩ := nextTick_isLeast hp ho hop (by omega) hover
      obtain ⟨hs', hm'⟩ := LastReset.fire hs hpassed hnext hleast
      exact ⟨i + 1, next', hs', hm'⟩

theorem resets_succ_iff (hp : period ≠ 0) (hs : scheduled period offset clock i = some next) :
    resets period offset clock (i + 1) = true ↔ next.toInt < (clock (i + 1)).toInt := by
  rcases le_or_gt (clock (i + 1)).toInt next.toInt with hahead | hpassed
  · have hrule : monitorRule period offset (clock (i + 1)) next = some (false, next) := monitorRule_of_le hahead
    simpa [resets, hs, hrule] using hahead
  · have hsome : (nextTick period (clock (i + 1)) offset).isSome = true := nextTick_isSome hp
    obtain ⟨next', hnext⟩ := Option.isSome_iff_exists.1 hsome
    have hrule : monitorRule period offset (clock (i + 1)) next = some (true, next') := by
      rw [monitorRule_of_lt hpassed, hnext]
      rfl
    simpa [resets, hs, hrule] using hpassed

/-- A tick between two readings is followed by a reset, at the later of them at the latest. -/
theorem exists_reset_of_tick (hp : 1 ≤ period.toInt) (ho : 0 ≤ offset.toInt) (hop : offset.toInt < period.toInt)
    (hstart : 0 ≤ (clock 0).toInt) (hmono : Monotone fun i => (clock i).toInt) {j : ℕ}
    (hover : (clock j).toInt + period.toInt < 2 ^ 63) {T : ℤ} (hT : T ≡ offset.toInt [ZMOD period.toInt])
    (hiT : (clock i).toInt < T) (hTj : T < (clock j).toInt) :
    ∃ k, i < k ∧ k ≤ j ∧ resets period offset clock k = true := by
  obtain ⟨m, next, -, hm⟩ := exists_lastReset (i := j) hp ho hop hstart hmono hover
  -- a tick computed at or before `i` would be `T` or earlier, and the clock has passed `T`
  rcases Nat.lt_or_ge i m with him | hmi
  · exact ⟨m, him, hm.le, hm.reset.resolve_left (by omega)⟩
  · have hmono' : (clock m).toInt ≤ (clock i).toInt := hmono hmi
    have hle : next.toInt ≤ T := hm.least.2 ⟨by omega, hT⟩
    have := hm.pending
    omega

/-- Between two readings on different sides of a tick there is a reset, between two resets there is a
tick, and the scheduled tick is never behind the clock nor more than a period ahead of it. -/
theorem resets_separate_ticks (hp : 1 ≤ period.toInt) (ho : 0 ≤ offset.toInt) (hop : offset.toInt < period.toInt)
    (hstart : 0 ≤ (clock 0).toInt) (hmono : Monotone fun i => (clock i).toInt)
    (hover : ∀ i, (clock i).toInt + period.toInt < 2 ^ 63) :
    (∀ i j (T : ℤ), i < j → T ≡ offset.toInt [ZMOD period.toInt] → (clock i).toInt < T → T < (clock j).toInt →
      ∃ k, i < k ∧ k ≤ j ∧ resets period offset clock k = true) ∧
    (∀ i j, i < j → resets period offset clock i = true → resets period offset clock j = true →
      ∃ T : ℤ, T ≡ offset.toInt [ZMOD period.toInt] ∧ (clock i).toInt < T ∧ T < (clock j).toInt) ∧
    (∀ i, ∃ next, scheduled period offset clock i = some next ∧
      (clock i).toInt ≤ next.toInt ∧ next.toInt ≤ (clock i).toInt + period.toInt) := by
  have hspec := fun i => exists_lastReset (i := i) hp ho hop hstart hmono (hover i)
  have hpne : period ≠ 0 := by
    rintro rfl
    exact absurd hp (by decide)
  refine ⟨?_, ?_, ?_⟩
  · intro i j T _ hT hiT hTj
    exact exists_reset_of_tick hp ho hop hstart hmono (hover j) hT hiT hTj
  · intro i j hij hi hj
    obtain ⟨j, rfl⟩ : ∃ j', j = j' + 1 := ⟨j - 1, by omega⟩
    obtain ⟨m, next, hs, hm⟩ := hspec j
    have him : i ≤ m := by
      by_contra hlt
      have := hm.quiet i (by omega) (by omega)
      rw [this] at hi
      cases hi
    have hmono' : (clock i).toInt ≤ (clock m).toInt := hmono him
    have hafter : (clock m).toInt < next.toInt := hm.least.1.1
    exact ⟨next.toInt, hm.least.1.2, by omega, (resets_succ_iff hpne hs).1 hj⟩
  · intro i
    obtain ⟨m, next, hs, hm⟩ := hspec i
    obtain ⟨-, hle, -⟩ := (Ticks.isLeast_after_iff (by omega)).1 hm.least
    have hmono' : (clock m).toInt ≤ (clock i).toInt := hmono hm.le
    exact ⟨next, hs, hm.pending, by omega⟩

/-- The clock jumps over several ticks, then stops on `40`. -/
theorem resets_separate_ticks_stopped_clock :
    (∃ k, 1 < k ∧ k ≤ 2 ∧ resets 10 3 (fun i => Int64.ofNat (min (7 * i) 40)) k = true) ∧
    ∃ next, scheduled 10 3 (fun i => Int64.ofNat (min (7 * i) 40)) 9 = some next ∧
      40 ≤ next.toInt ∧ next.toInt ≤ 50 := by
  have hclock : ∀ i : ℕ, (Int64.ofNat (min (7 * i) 40)).toInt = min (7 * i) 40 := fun i => by
    rw [Int64.toInt_ofNat_of_lt (by omega)]
  have hover : ∀ i : ℕ, (Int64.ofNat (min (7 * i) 40)).toInt + (10 : Seconds).toInt < 2 ^ 63 := fun i => by
    rw [hclock, show (10 : Seconds).toInt = 10 from rfl]
    omega
  obtain ⟨hreset, -, hsched⟩ := @resets_separate_ticks 10 3
    (fun i => Int64.ofNat (min (7 * i) 40)) (by decide) (by decide) (by decide) (by decide)
    (fun i j hij => by simp only [hclock]; omega) hover
  refine ⟨hreset 1 2 13 (by decide) (by decide) (by decide) (by decide), ?_⟩
  exact hsched 9

end MonitorSchedule
end EventsCounter
