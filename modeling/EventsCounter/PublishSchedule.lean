import EventsCounter.PublishRound

/-!
# When `main` publishes

The target of the counter ticks is recomputed only by the outer loop, from the last clock reading,
and the inner loop leaves when a reading reaches it. `OnSchedule` says which reading the target was
computed from at every place of the loops: the one before the last from the moment the clock is read
again, which is what makes a round a matter of two consecutive readings.

`position` orders the states between two readings, so that no place is visited twice; `exists_body`
says that every reading is reached.
-/

namespace EventsCounter
namespace MainLoop

def interval (period now : Seconds) : ℤ := now.toInt / period.toInt

/-- The target is the one computed from the reading `i`: the end of its update interval. -/
def AimsFrom (config : Config) (env : Environment) (s : MainLoop) (i : ℕ) : Prop :=
  s.nextCountersTick.toInt = config.uuidCounterConfig.updatePeriod.toInt *
    (interval config.uuidCounterConfig.updatePeriod (env.time i) + 1)

def OnSchedule (config : Config) (env : Environment) (s : MainLoop) : Prop :=
  match s.pc with
  | .outer => True
  | .inner => AimsFrom config env s s.readings ∨ ∃ i, s.readings = i + 1 ∧ AimsFrom config env s i
  | .body => AimsFrom config env s s.readings
  | .consume => ∃ i, s.readings = i + 1 ∧ AimsFrom config env s i
  | .check _ => ∃ i, s.readings = i + 1 ∧ AimsFrom config env s i
  | .ticks => ∃ i, s.readings = i + 1 ∧
      interval config.uuidCounterConfig.updatePeriod (env.time i) ≠
        interval config.uuidCounterConfig.updatePeriod (env.time (i + 1))

/-- What the clock and the configuration have to offer: no exit, and no reading beyond the last
representable tick. -/
structure Regular (config : Config) (env : Environment) : Prop where
  monitorPeriod : config.countersMonitorConfig.period ≠ 0
  updatePeriod : 1 ≤ config.uuidCounterConfig.updatePeriod.toInt
  start : 0 ≤ (env.time 0).toInt
  mono : Monotone fun i => (env.time i).toInt
  fits : ∀ i, (env.time i).toInt + config.uuidCounterConfig.updatePeriod.toInt < 2 ^ 63

variable {config : Config} {env : Environment} {s s' : MainLoop} {n m i j : ℕ}

/-! ### The target -/

theorem nextTick_interval {period now : Seconds} (hp : 1 ≤ period.toInt) (hnow : 0 ≤ now.toInt)
    (hover : now.toInt + period.toInt < 2 ^ 63) :
    ∃ next, nextTick period now = some next ∧ next.toInt = period.toInt * (interval period now + 1) := by
  obtain ⟨next, heq, hleast⟩ : ∃ next, nextTick period now = some next ∧
      IsLeast (Ticks.after period.toInt (0 : Seconds).toInt now.toInt) next.toInt :=
    nextTick_isLeast hp (by decide) (by rw [Int64.toInt_zero]; omega) hnow hover
  refine ⟨next, heq, ?_⟩
  obtain ⟨hlt, hle, hmod⟩ := (Ticks.isLeast_after_iff (by omega)).1 hleast
  obtain ⟨k, hk⟩ := Int.modEq_zero_iff_dvd.1 (by simpa using hmod)
  have hlower : period.toInt * (now.toInt / period.toInt) ≤ now.toInt := Int.mul_ediv_self_le (by omega)
  have hupper : now.toInt < period.toInt * (now.toInt / period.toInt + 1) := by
    rw [Int.mul_add, Int.mul_one]
    exact Int.lt_mul_ediv_self_add (by omega)
  unfold interval
  obtain ⟨q, hq⟩ : ∃ q, q = now.toInt / period.toInt := ⟨_, rfl⟩
  rw [← hq] at hlower hupper ⊢
  have hkq : q < k := by
    by_contra hge
    have := Int.mul_le_mul_of_nonneg_left (Int.not_lt.1 hge) (by omega : 0 ≤ period.toInt)
    omega
  have hkq' : k < q + 2 := by
    by_contra hge
    have := Int.mul_le_mul_of_nonneg_left (Int.not_lt.1 hge) (by omega : 0 ≤ period.toInt)
    rw [show q + 2 = q + 1 + 1 by ring, Int.mul_add, Int.mul_one] at this
    omega
  rw [hk, show k = q + 1 by omega]

namespace Regular
variable (hr : Regular config env)
include hr

theorem periodic : Periodic config := by
  refine ⟨hr.monitorPeriod, fun hzero => ?_⟩
  have hp := hr.updatePeriod
  rw [hzero] at hp
  exact absurd hp (by decide)

theorem time_nonneg (i : ℕ) : 0 ≤ (env.time i).toInt :=
  hr.start.trans (hr.mono (Nat.zero_le i))

theorem interval_mono (hij : i ≤ j) : interval config.uuidCounterConfig.updatePeriod (env.time i) ≤
    interval config.uuidCounterConfig.updatePeriod (env.time j) :=
  Int.ediv_le_ediv (by have := hr.updatePeriod; omega) (hr.mono hij)

theorem aimed_le_iff (h : AimsFrom config env s i) (hij : i ≤ j) :
    s.nextCountersTick ≤ env.time j ↔ interval config.uuidCounterConfig.updatePeriod (env.time i) ≠
      interval config.uuidCounterConfig.updatePeriod (env.time j) := by
  have hp := hr.updatePeriod
  have hmono := hr.interval_mono hij
  rw [Int64.le_iff_toInt_le, h, Int.mul_comm, ← Int.le_ediv_iff_mul_le (by omega)]
  show _ + 1 ≤ interval _ _ ↔ _
  omega

theorem outer_aims (hnow : s.now = env.time s.readings) :
    ∃ next, nextTick config.uuidCounterConfig.updatePeriod s.now = some next ∧
      AimsFrom config env { s with nextCountersTick := next, pc := .inner } s.readings := by
  rw [hnow]
  exact nextTick_interval hr.updatePeriod (hr.time_nonneg _) (hr.fits _)

end Regular

/-! ### The invariant of the loops -/

@[simp] theorem aimsFrom_work (data : List UUIDBytes) :
    AimsFrom config env (s.work data) i ↔ AimsFrom config env s i := Iff.rfl

@[simp] theorem onSchedule_work (data : List UUIDBytes) :
    OnSchedule config env (s.work data) ↔ OnSchedule config env s := by
  unfold OnSchedule
  simp only [work_pc, work_readings, aimsFrom_work]

theorem onSchedule_start (h : start config env = some s) : OnSchedule config env s := by
  obtain ⟨next, -, hs⟩ := Option.bind_eq_some_iff.1 h
  cases hs
  trivial

theorem onSchedule_advance (hr : Regular config env) (hnow : s.now = env.time s.readings)
    (hi : OnSchedule config env s) (h : advance config env s n = some s') : OnSchedule config env s' := by
  rcases advance_cases h with ⟨next, hpc, hnext, rfl⟩ | ⟨hpc, rfl⟩ | ⟨reset, next, hpc, -, rfl⟩ | ⟨ub, hpc, -, rfl⟩ |
    ⟨ub, hpc, rfl⟩ | ⟨side, hpc, hside, rfl⟩
  all_goals simp only [OnSchedule, hpc] at hi
  · obtain ⟨next', hnext', haim⟩ := hr.outer_aims hnow
    obtain rfl : next = next' := Option.some.inj (hnext.symm.trans hnext')
    exact .inl haim
  · by_cases hlt : s.now < s.nextCountersTick
    · -- a target computed before the last reading is in its interval still
      simp only [OnSchedule, if_pos hlt]
      rcases hi with haim | ⟨i, hi, haim⟩
      · exact haim
      · have hsame := mt (hr.aimed_le_iff haim (by omega : i ≤ i + 1)).2
          (by rw [← hi, ← hnow]; exact Int64.not_le.2 hlt)
        rw [not_not] at hsame
        show _ = _ * (interval _ (env.time s.readings) + 1)
        rw [hi, ← hsame]
        exact haim
    · simp only [OnSchedule, if_neg hlt]
      have hle : s.nextCountersTick ≤ s.now := Int64.not_lt.1 hlt
      rcases hi with haim | ⟨i, hi, haim⟩
      · rw [hnow] at hle
        exact absurd rfl ((hr.aimed_le_iff haim (le_refl _)).1 hle)
      · rw [hnow, hi] at hle
        exact ⟨i, hi, (hr.aimed_le_iff haim (Nat.le_succ i)).1 hle⟩
  · exact ⟨s.readings, rfl, hi⟩
  · cases hempty : ub.isEmpty with
    | true => exact .inr hi
    | false => exact hi
  · exact .inr hi
  · unfold OnSchedule ticksStep
    cases s.side.round with
    | idle => exact hi
    | built fresh => exact hi
    | walking walked pending =>
      cases pending with
      | nil => trivial
      | cons e pending => exact hi

theorem onSchedule_step (hr : Regular config env) (hnow : s.now = env.time s.readings)
    (hi : OnSchedule config env s) (h : step config env s n = some s') : OnSchedule config env s' :=
  onSchedule_advance (s := s.work (env.consumed n)) hr hnow ((onSchedule_work _).2 hi) h

theorem onSchedule (hr : Regular config env) (h : stateAt config env n = some s) : OnSchedule config env s := by
  refine stateAt_induction (P := fun _ s => OnSchedule config env s) (fun s hs => onSchedule_start hs)
    (fun n s s' ht hi hs => ?_) h
  exact onSchedule_step hr (stateAt_scheduled ht).1 hi hs

/-! ### No place is visited twice between two readings -/

/-- Where `main` is between two readings. The inner loop is passed before and after a round; the
target tells which. -/
def place (s : MainLoop) : ℕ :=
  match s.pc with
  | .consume => 0
  | .check _ => 1
  | .inner => if s.nextCountersTick ≤ s.now then 2 else 7
  | .ticks =>
    match s.side.round with
    | .idle => 3
    | .built _ => 4
    | .walking _ _ => 5
  | .outer => 6
  | .body => 8

def position (s : MainLoop) : ℕ := 9 * s.readings + s.place

@[simp] theorem position_work (data : List UUIDBytes) : (s.work data).position = s.position := by
  have hround := work_round (s := s) data
  unfold position place
  rw [work_pc, work_nextCountersTick, work_now, work_readings, hround]

theorem position_advance (hr : Regular config env) (hnow : s.now = env.time s.readings)
    (hidle : s.pc ≠ .ticks → s.side.round = .idle) (h : advance config env s n = some s') :
    s.position ≤ s'.position ∧ (s.pc = .ticks → s.side.round = .idle → s.position < s'.position) := by
  rcases advance_cases h with ⟨next, hpc, hnext, rfl⟩ | ⟨hpc, rfl⟩ | ⟨reset, next, hpc, -, rfl⟩ | ⟨ub, hpc, -, rfl⟩ |
    ⟨ub, hpc, rfl⟩ | ⟨side, hpc, hside, rfl⟩
  all_goals simp only [position, place, hpc]
  · obtain ⟨next', hnext', haim⟩ := hr.outer_aims hnow
    obtain rfl : next = next' := Option.some.inj (hnext.symm.trans hnext')
    have hahead : ¬ next ≤ s.now := fun hle => by
      rw [hnow] at hle
      exact (hr.aimed_le_iff haim (le_refl _)).1 hle rfl
    simp [hahead]
  · by_cases hlt : s.now < s.nextCountersTick
    · simp [hlt, Int64.not_le.2 hlt]
    · simp [hlt, Int64.not_lt.1 hlt, hidle (by rw [hpc]; simp)]
  · refine ⟨by omega, fun h => ?_⟩
    cases h
  · refine ⟨?_, fun h => by cases h⟩
    cases ub.isEmpty <;> simp
  · refine ⟨?_, fun h => by cases h⟩
    split <;> omega
  · unfold ticksStep at hside ⊢
    split at hside
    · rename_i hround
      simp only [CounterSide.step, hround, Option.some.injEq] at hside
      simp [← hside, hround]
    · rename_i fresh hround
      simp only [CounterSide.step, hround, Option.some.injEq] at hside
      simp [← hside, hround]
    · rename_i walked e pending hround
      simp only [CounterSide.step, hround, Option.some.injEq] at hside
      simp [← hside, hround]
    · rename_i walked hround
      simp [hround]

theorem position_step (hr : Regular config env) (hs : stateAt config env n = some s)
    (h : step config env s n = some s') :
    s.position ≤ s'.position ∧ (s.pc = .ticks → s.side.round = .idle → s.position < s'.position) := by
  have hadv := position_advance (s := s.work (env.consumed n)) hr (stateAt_scheduled hs).1
    (fun hpc => (work_round _).trans (round_idle hs hpc)) h
  rwa [position_work, work_pc, work_round] at hadv

theorem position_mono (hr : Regular config env) {m : ℕ} {t : MainLoop} (hn : stateAt config env n = some s)
    (hm : stateAt config env m = some t) (hle : n ≤ m) : s.position ≤ t.position := by
  induction m, hle using Nat.le_induction generalizing t with
  | base =>
    rw [hn] at hm
    cases hm
    exact le_refl _
  | succ m hle ih =>
    rw [stateAt_succ] at hm
    obtain ⟨u, hu, ht⟩ := Option.bind_eq_some_iff.1 hm
    exact (ih hu).trans (position_step hr hu ht).1

theorem lt_of_position_lt (hr : Regular config env) {t : MainLoop} (hn : stateAt config env n = some s)
    (hm : stateAt config env m = some t) (hlt : s.position < t.position) : n < m := by
  by_contra hge
  have := position_mono hr hm hn (by omega)
  omega

theorem RoundAfter.position (h : RoundAfter config env n i) :
    ∃ s, stateAt config env n = some s ∧ s.position = 9 * i + 3 := by
  obtain ⟨s, hs, hpc, hround, rfl⟩ := h
  exact ⟨s, hs, by simp [MainLoop.position, place, hpc, hround]⟩

theorem roundAfter_lt (hr : Regular config env) (h : RoundAfter config env n i) (h' : RoundAfter config env m j)
    (hlt : n < m) : i < j := by
  obtain ⟨t, ht, htj⟩ := h'.position
  obtain ⟨s', hs', hsi⟩ := h.position
  obtain ⟨s, hs, hpc, hround, -⟩ := h
  obtain rfl : s = s' := Option.some.inj (hs.symm.trans hs')
  obtain ⟨u, hu, hstep⟩ := exists_next hr.periodic hs
  have hpos := (position_step hr hs hstep).2 hpc hround
  have hmono := position_mono hr hu ht hlt
  omega

/-! ### Every place is reached -/

theorem step_outer (h : step config env s n = some s') (hpc : s.pc = .outer) :
    s'.pc = .inner ∧ s'.now = s.now ∧ s'.readings = s.readings ∧
      nextTick config.uuidCounterConfig.updatePeriod s.now = some s'.nextCountersTick := by
  simp only [step, advance, work_pc, hpc, work_now, Option.bind_eq_bind, Option.bind_eq_some_iff,
    Option.some.injEq] at h
  obtain ⟨next, hnext, rfl⟩ := h
  exact ⟨rfl, rfl, rfl, hnext⟩

theorem step_inner (h : step config env s n = some s') (hpc : s.pc = .inner) :
    s'.pc = (if s.now < s.nextCountersTick then .body else .ticks) ∧ s'.readings = s.readings ∧
      s'.side.round = s.side.round := by
  have hround := work_round (s := s) (env.consumed n)
  simp only [step, advance, work_pc, hpc, work_now, work_nextCountersTick, Option.some.injEq] at h
  subst h
  exact ⟨rfl, rfl, hround⟩

theorem step_body (h : step config env s n = some s') (hpc : s.pc = .body) :
    s'.pc = .consume ∧ s'.readings = s.readings + 1 ∧ s'.nextCountersTick = s.nextCountersTick := by
  simp only [step, advance, work_pc, hpc, Option.bind_eq_bind, Option.bind_eq_some_iff, Option.some.injEq] at h
  obtain ⟨⟨reset, next⟩, -, rfl⟩ := h
  exact ⟨rfl, rfl, rfl⟩

theorem step_consume (h : step config env s n = some s') (hpc : s.pc = .consume) :
    (s'.pc = .inner ∨ ∃ uuidBytes, s'.pc = .check uuidBytes) ∧ s'.readings = s.readings ∧
      s'.nextCountersTick = s.nextCountersTick := by
  simp only [step, advance, work_pc, hpc, Option.some.injEq] at h
  subst h
  refine ⟨?_, rfl, rfl⟩
  dsimp only
  split
  · exact .inl rfl
  · exact .inr ⟨_, rfl⟩

theorem step_check {uuidBytes : UUIDBytes} (h : step config env s n = some s') (hpc : s.pc = .check uuidBytes) :
    s'.pc = .inner ∧ s'.readings = s.readings ∧ s'.nextCountersTick = s.nextCountersTick := by
  simp only [step, advance, work_pc, hpc, Option.some.injEq] at h
  subst h
  exact ⟨rfl, rfl, rfl⟩

theorem body_after_inner (hr : Regular config env) (hs : stateAt config env n = some s) (hpc : s.pc = .inner)
    (hlt : s.now < s.nextCountersTick) :
    ∃ t, stateAt config env (n + 1) = some t ∧ t.pc = .body ∧ t.readings = s.readings := by
  obtain ⟨t, ht, hst⟩ := exists_next hr.periodic hs
  obtain ⟨htpc, hreadings, -⟩ := step_inner hst hpc
  exact ⟨t, ht, htpc.trans (if_pos hlt), hreadings⟩

/-- Every pass of the outer loop goes through the body of the inner loop. -/
theorem body_after_outer (hr : Regular config env) (hs : stateAt config env n = some s) (hpc : s.pc = .outer) :
    ∃ t, stateAt config env (n + 2) = some t ∧ t.pc = .body ∧ t.readings = s.readings := by
  obtain ⟨t, ht, hst⟩ := exists_next hr.periodic hs
  obtain ⟨htpc, hnow, hreadings, hnext⟩ := step_outer hst hpc
  have hahead : s.now < t.nextCountersTick := by
    have htime := (stateAt_scheduled hs).1
    obtain ⟨next, hnext', haim⟩ := hr.outer_aims htime
    obtain rfl : t.nextCountersTick = next := Option.some.inj (hnext.symm.trans hnext')
    refine Int64.not_le.1 fun hle => ?_
    rw [htime] at hle
    exact (hr.aimed_le_iff haim (le_refl _)).1 hle rfl
  obtain ⟨u, hu, hupc, hureadings⟩ := body_after_inner hr ht htpc (hnow ▸ hahead)
  exact ⟨u, hu, hupc, hureadings.trans hreadings⟩

theorem inner_after_body (hr : Regular config env) (hs : stateAt config env n = some s) (hpc : s.pc = .body) :
    ∃ m t, stateAt config env m = some t ∧ t.pc = .inner ∧ t.readings = s.readings + 1 ∧
      t.nextCountersTick = s.nextCountersTick := by
  obtain ⟨t, ht, hst⟩ := exists_next hr.periodic hs
  obtain ⟨htpc, htr, htt⟩ := step_body hst hpc
  obtain ⟨u, hu, htu⟩ := exists_next hr.periodic ht
  obtain ⟨hupc, hur, hut⟩ := step_consume htu htpc
  rcases hupc with hupc | ⟨ub, hupc⟩
  · exact ⟨n + 2, u, hu, hupc, hur.trans htr, hut.trans htt⟩
  · obtain ⟨v, hv, huv⟩ := exists_next hr.periodic hu
    obtain ⟨hvpc, hvr, hvt⟩ := step_check huv hupc
    exact ⟨n + 3, v, hv, hvpc, hvr.trans (hur.trans htr), hvt.trans (hut.trans htt)⟩

/-! ### Which readings are followed by a round -/

theorem round_or_body (hr : Regular config env) (hs : stateAt config env n = some s) (hpc : s.pc = .body) :
    (interval config.uuidCounterConfig.updatePeriod (env.time s.readings) ≠
        interval config.uuidCounterConfig.updatePeriod (env.time (s.readings + 1)) →
      ∃ m, RoundAfter config env m (s.readings + 1)) ∧
    ∃ m t, stateAt config env m = some t ∧ t.pc = .body ∧ t.readings = s.readings + 1 := by
  have haim : AimsFrom config env s s.readings := by
    have hi := onSchedule hr hs
    rwa [OnSchedule, hpc] at hi
  obtain ⟨m, t, ht, htpc, htr, htt⟩ := inner_after_body hr hs hpc
  have hnow : t.now = env.time (s.readings + 1) := htr ▸ (stateAt_scheduled ht).1
  have hreached := hr.aimed_le_iff haim (Nat.le_add_right s.readings 1)
  rw [← htt, ← hnow] at hreached
  by_cases hle : t.nextCountersTick ≤ t.now
  · have hround : RoundAfter config env (m + 1) (s.readings + 1) := by
      obtain ⟨u, hu, htu⟩ := exists_next hr.periodic ht
      obtain ⟨hupc, hur, huround⟩ := step_inner htu htpc
      have hidle : t.side.round = .idle := round_idle ht (by rw [htpc]; simp)
      rw [if_neg (Int64.not_lt.2 hle)] at hupc
      exact ⟨u, hu, hupc, huround.trans hidle, hur.trans htr⟩
    refine ⟨fun _ => ⟨m + 1, hround⟩, ?_⟩
    obtain ⟨k, hspan⟩ := hround.span hr.periodic
    obtain ⟨u, hu, hupc, hur⟩ := hspan.outer
    obtain ⟨v, hv, hvpc, hvr⟩ := body_after_outer hr hu hupc
    exact ⟨k + 2, v, hv, hvpc, hvr.trans hur⟩
  · refine ⟨fun hne => absurd (hreached.2 (hnow ▸ hne)) hle, ?_⟩
    obtain ⟨u, hu, hupc, hur⟩ := body_after_inner hr ht htpc (Int64.not_le.1 hle)
    exact ⟨m + 1, u, hu, hupc, hur.trans htr⟩

theorem exists_body (hr : Regular config env) (i : ℕ) :
    ∃ n s, stateAt config env n = some s ∧ s.pc = .body ∧ s.readings = i := by
  induction i with
  | zero =>
    obtain ⟨s, hs0⟩ := @exists_stateAt config env hr.periodic 0
    obtain ⟨s₀, hs, hrun⟩ := Option.bind_eq_some_iff.1 hs0
    cases hrun
    have hspec : s.pc = .outer ∧ s.readings = 0 := by
      obtain ⟨next, -, hs⟩ := Option.bind_eq_some_iff.1 hs
      cases hs
      exact ⟨rfl, rfl⟩
    obtain ⟨t, ht, htpc, htr⟩ := body_after_outer hr hs0 hspec.1
    exact ⟨2, t, ht, htpc, htr.trans hspec.2⟩
  | succ i ih =>
    obtain ⟨n, s, hs, hpc, rfl⟩ := ih
    exact (round_or_body hr hs hpc).2

theorem exists_roundAfter_iff (hr : Regular config env) :
    (∃ n, RoundAfter config env n (i + 1)) ↔
      interval config.uuidCounterConfig.updatePeriod (env.time i) ≠
        interval config.uuidCounterConfig.updatePeriod (env.time (i + 1)) := by
  constructor
  · rintro ⟨n, s, hs, hpc, -, hreadings⟩
    have hi := onSchedule hr hs
    simp only [OnSchedule, hpc] at hi
    obtain ⟨j, hj, hne⟩ := hi
    obtain rfl : i = j := by omega
    exact hne
  · intro hne
    obtain ⟨n, s, hs, hpc, rfl⟩ := exists_body hr i
    exact (round_or_body hr hs hpc).1 hne

theorem RoundAfter.one_le (hr : Regular config env) (h : RoundAfter config env n i) : 1 ≤ i := by
  obtain ⟨s, hs, hpc, -, rfl⟩ := h
  have hi := onSchedule hr hs
  simp only [OnSchedule, hpc] at hi
  obtain ⟨j, hj, -⟩ := hi
  omega

theorem RoundAfter.interval_lt (hr : Regular config env) (h : RoundAfter config env n i)
    (h' : RoundAfter config env m j) (hlt : n < m) :
    interval config.uuidCounterConfig.updatePeriod (env.time i) <
      interval config.uuidCounterConfig.updatePeriod (env.time j) := by
  have hij := roundAfter_lt hr h h' hlt
  obtain ⟨j, rfl⟩ : ∃ j', j = j' + 1 := ⟨j - 1, by omega⟩
  have hne := (exists_roundAfter_iff hr).1 ⟨m, h'⟩
  have hle := hr.interval_mono (by omega : i ≤ j)
  have hle' := hr.interval_mono (by omega : j ≤ j + 1)
  omega

/-- Publish rounds follow the update intervals: which readings have a round, that a round swaps the
tables, visits every entry and ends, that there is one in an interval at most, and that the body runs
between any two. With a monitor period of 0 `next_tick` exits before the loops. -/
theorem rounds_follow_intervals (config : Config) (env : Environment)
    (hmonitor : config.countersMonitorConfig.period ≠ 0)
    (hp : 1 ≤ config.uuidCounterConfig.updatePeriod.toInt) (hstart : 0 ≤ (env.time 0).toInt)
    (hmono : Monotone fun i => (env.time i).toInt)
    (hover : ∀ i, (env.time i).toInt + config.uuidCounterConfig.updatePeriod.toInt < 2 ^ 63) :
    (∀ i, 1 ≤ i → ((∃ n, RoundAfter config env n i) ↔
      (env.time i).toInt / config.uuidCounterConfig.updatePeriod.toInt ≠
        (env.time (i - 1)).toInt / config.uuidCounterConfig.updatePeriod.toInt)) ∧
    (∀ n i, RoundAfter config env n i → 1 ≤ i ∧ ∃ m, RoundSpan config env n m i) ∧
    (∀ n m i j, RoundAfter config env n i → RoundAfter config env m j →
      (env.time i).toInt / config.uuidCounterConfig.updatePeriod.toInt =
        (env.time j).toInt / config.uuidCounterConfig.updatePeriod.toInt → n = m) ∧
    (∀ n s, stateAt config env n = some s → s.pc = .outer →
      ∃ t, stateAt config env (n + 2) = some t ∧ t.pc = .body ∧ t.readings = s.readings) ∧
    (∀ n m i j, RoundAfter config env n i → RoundAfter config env m j → n < m →
      i < j ∧ ∃ k s, n < k ∧ k < m ∧ stateAt config env k = some s ∧ s.pc = .body) := by
  have hr : Regular config env := ⟨hmonitor, hp, hstart, hmono, hover⟩
  refine ⟨?_, ?_, ?_, ?_, ?_⟩
  · intro i hi
    obtain ⟨i, rfl⟩ : ∃ i', i = i' + 1 := ⟨i - 1, by omega⟩
    rw [Nat.add_sub_cancel, ne_comm]
    exact exists_roundAfter_iff hr
  · intro n i h
    exact ⟨h.one_le hr, h.span hr.periodic⟩
  · intro n m i j h h' heq
    rcases lt_trichotomy n m with hlt | heq' | hgt
    · have hne := h.interval_lt hr h' hlt
      unfold interval at hne
      omega
    · exact heq'
    · have hne := h'.interval_lt hr h hgt
      unfold interval at hne
      omega
  · intro n s hs hpc
    exact body_after_outer hr hs hpc
  · intro n m i j h h' hlt
    have hij := roundAfter_lt hr h h' hlt
    refine ⟨hij, ?_⟩
    obtain ⟨k, hspan⟩ := h.span hr.periodic
    obtain ⟨t, ht, htpc, htr⟩ := hspan.outer
    obtain ⟨u, hu, hupc, hur⟩ := body_after_outer hr ht htpc
    obtain ⟨s, hs, hsi⟩ := h.position
    obtain ⟨s', hs', hsj⟩ := h'.position
    have hbody : u.position = 9 * i + 8 := by simp [position, place, hupc, hur, htr]
    exact ⟨k + 2, u, lt_of_position_lt hr hs hu (by omega), lt_of_position_lt hr hu hs' (by omega), hu, hupc⟩

/-- Seven seconds between two readings, until the clock stops: no round after the first, one after
the second. -/
theorem rounds_follow_intervals_stopped_clock :
    ∃ config env, (¬ ∃ n, RoundAfter config env n 1) ∧ ∃ n m, RoundAfter config env n 2 ∧ RoundSpan config env n m 2 := by
  let env : Environment := ⟨fun i => Int64.ofNat (min (7 * i) 40), fun _ => ⟨none, 0, 0, 0⟩, fun _ => 40,
    fun _ => .errNoError, fun _ => [UUIDBytes.make (lit "a") 5]⟩
  let config : Config := ⟨[lit "a"], ⟨⟨[], [], [], []⟩, [], [], [], 10⟩, ⟨⟨[], [], [], []⟩, [], [], 60, 0, ∅⟩⟩
  have hclock : ∀ i : ℕ, (env.time i).toInt = min (7 * i) 40 := fun i => by
    show (Int64.ofNat (min (7 * i) 40)).toInt = _
    rw [Int64.toInt_ofNat_of_lt (by omega)]
  obtain ⟨hiff, hspan, -⟩ := rounds_follow_intervals config env (by decide) (by decide) (by decide)
    (fun i j hij => by simp only [hclock]; omega)
    (fun i => by rw [hclock, show config.uuidCounterConfig.updatePeriod.toInt = 10 from rfl]; omega)
  refine ⟨config, env, fun h => absurd ((hiff 1 (by decide)).1 h) (by decide), ?_⟩
  obtain ⟨n, hn⟩ := (hiff 2 (by decide)).2 (by decide)
  obtain ⟨-, m, hm⟩ := hspan n 2 hn
  exact ⟨n, m, hn, hm⟩

end MainLoop
end EventsCounter
