import EventsCounter.CounterConsumer

/-!
# Which timers are sane

`JsonConfig` accepts every period and every offset, and nothing but a zero period stops the program.
`next_tick` and `check_timestamp` are written for a positive period and an offset within it. With any
other ones the unsigned arithmetic still computes signed values as long as these are small
(`nextTick_value`, `intervalStart_le_now_iff`), but a negative value compares as a huge one.

`periodTick` is the tick of the period the clock is in: where it lies decides everything
(`timerSane_iff`).
-/

namespace EventsCounter

/-- The scheduled tick is ahead of the clock by a period at most, and a message stamped now is current,
whichever nanosecond of the second `check_timestamp` reads. -/
def TimerSane (period offset now : Seconds) : Prop :=
  (∃ next, nextTick period now offset = some next ∧ now.toInt < next.toInt ∧
    next.toInt ≤ now.toInt + |period.toInt|) ∧
  ∀ uuid bytes, checkTimestampAt now.toUInt64 (.make uuid bytes now.toUInt64) period.toUInt64 offset.toUInt64 = true ∧
    ∀ count, systemSeconds count = now.toUInt64 →
      checkTimestamp count (.make uuid bytes now.toUInt64) period.toUInt64 offset.toUInt64 = true

def periodTick (period offset now : Seconds) : ℤ :=
  now.toInt - now.toInt % |period.toInt| + offset.toInt

/-! ### Signed values in unsigned words -/

section
variable {x now : Int64}

/-- Compared as unsigned words, a negative value is above every non-negative one. -/
theorem toUInt64_le_iff (hnow : 0 ≤ now.toInt) :
    x.toUInt64 ≤ now.toUInt64 ↔ 0 ≤ x.toInt ∧ x.toInt ≤ now.toInt := by
  have hn := int64_toNat_of_nonneg hnow
  have hx := int64_toInt_eq x
  have hlt := x.toUInt64.toNat_lt
  have hnlt := now.toInt_lt
  rw [UInt64.le_iff_toNat_le]
  split at hx <;> constructor <;> intro h <;> omega

theorem toUInt64_lt_iff (hnow : 0 ≤ now.toInt) :
    x.toUInt64 < now.toUInt64 ↔ 0 ≤ x.toInt ∧ x.toInt < now.toInt := by
  have hn := int64_toNat_of_nonneg hnow
  have hx := int64_toInt_eq x
  have hlt := x.toUInt64.toNat_lt
  have hnlt := now.toInt_lt
  rw [UInt64.lt_iff_toNat_lt]
  split at hx <;> constructor <;> intro h <;> omega

end

section
variable {period offset now : Seconds}

theorem emod_abs_mem (period : Seconds) (hnow : 0 ≤ now.toInt) :
    0 ≤ now.toInt % |period.toInt| ∧ now.toInt % |period.toInt| ≤ now.toInt := by
  have hdiv := Int.mul_ediv_add_emod now.toInt |period.toInt|
  have hfloor : 0 ≤ |period.toInt| * (now.toInt / |period.toInt|) :=
    mul_nonneg (abs_nonneg _) (Int.ediv_nonneg hnow (abs_nonneg _))
  refine ⟨?_, by omega⟩
  by_cases hp : |period.toInt| = 0
  · rw [hp, Int.emod_zero]
    exact hnow
  · exact Int.emod_nonneg _ hp

/-- The multiple of the period at or before the clock, whatever the sign of the period. -/
theorem mul_div_seconds (hnow : 0 ≤ now.toInt) (hfits : |now.toInt| + |period.toInt| + |offset.toInt| < 2 ^ 62) :
    (period * (now / period)).toInt = now.toInt - now.toInt % |period.toInt| := by
  have hquot : (now / period).toInt = now.toInt.tdiv period.toInt := by
    have hle : |now.toInt.tdiv period.toInt| ≤ |now.toInt| := by
      rw [Int.abs_eq_natAbs, Int.abs_eq_natAbs, Int.natAbs_tdiv]
      exact_mod_cast Nat.div_le_self _ _
    rw [Int64.toInt_div]
    have := abs_le.1 hle
    have := abs_nonneg period.toInt
    have := abs_nonneg offset.toInt
    have := abs_of_nonneg hnow
    exact Int.bmod_eq_of_le (by omega) (by omega)
  have hmod : period.toInt * now.toInt.tdiv period.toInt = now.toInt - now.toInt % |period.toInt| := by
    have htmod : now.toInt.tmod period.toInt = now.toInt % |period.toInt| := by
      rw [Int.tmod_eq_emod_of_nonneg hnow, Int.emod_abs]
    have := Int.mul_tdiv_add_tmod now.toInt period.toInt
    omega
  have hle := emod_abs_mem period hnow
  rw [Int64.toInt_mul, hquot, hmod]
  have := abs_nonneg period.toInt
  have := abs_nonneg offset.toInt
  have := abs_of_nonneg hnow
  exact Int.bmod_eq_of_le (by omega) (by omega)

theorem nextTick_value (hp : period ≠ 0) (hnow : 0 ≤ now.toInt)
    (hfits : |now.toInt| + |period.toInt| + |offset.toInt| < 2 ^ 62) :
    ∃ next, nextTick period now offset = some next ∧
      next.toInt = if 0 ≤ periodTick period offset now ∧ periodTick period offset now ≤ now.toInt
        then periodTick period offset now + period.toInt else periodTick period offset now := by
  have hmul := mul_div_seconds hnow hfits
  have hrange := emod_abs_mem period hnow
  have hper := abs_le.1 (le_refl |period.toInt|)
  have hoff := abs_le.1 (le_refl |offset.toInt|)
  have hnowabs := abs_of_nonneg hnow
  have htick : periodTick period offset now = now.toInt - now.toInt % |period.toInt| + offset.toInt := rfl
  set start : Seconds := period * (now / period) + offset with hstart
  have hvalue : start.toInt = periodTick period offset now := by
    rw [hstart, int64_toInt_add (by rw [hmul]; omega) (by rw [hmul]; omega), hmul]
    rfl
  have hword : period.toUInt64 * (now / period).toUInt64 + offset.toUInt64 = start.toUInt64 := by
    rw [hstart, Int64.toUInt64_add, Int64.toUInt64_mul]
  refine ⟨if start.toUInt64 ≤ now.toUInt64 then start + period else start, ?_, ?_⟩
  · unfold nextTick
    rw [if_neg hp]
    dsimp only
    rw [hword]
    split <;> simp
  · have hiff : start.toUInt64 ≤ now.toUInt64 ↔
        0 ≤ periodTick period offset now ∧ periodTick period offset now ≤ now.toInt := by
      rw [toUInt64_le_iff hnow, hvalue]
    by_cases hpast : start.toUInt64 ≤ now.toUInt64
    · rw [if_pos hpast, if_pos (hiff.1 hpast)]
      rw [int64_toInt_add (by rw [hvalue]; omega) (by rw [hvalue]; omega), hvalue]
    · rw [if_neg hpast, if_neg (mt hiff.2 hpast)]
      exact hvalue

/-- What the clock modulo the period is when the period is read as an unsigned word. -/
def wordMod (period now : Seconds) : ℤ := if 0 < period.toInt then now.toInt % period.toInt else now.toInt

theorem wordMod_eq (hp : period ≠ 0) (hnow : 0 ≤ now.toInt)
    (hfits : |now.toInt| + |period.toInt| + |offset.toInt| < 2 ^ 62) :
    (now.toUInt64 % period.toUInt64).toInt64.toInt = wordMod period now := by
  have hn := int64_toNat_of_nonneg hnow
  have hoff := abs_nonneg offset.toInt
  have hnowabs := abs_of_nonneg hnow
  have hper := abs_le.1 (le_refl |period.toInt|)
  have hle : (now.toUInt64 % period.toUInt64).toNat ≤ now.toUInt64.toNat := by
    rw [UInt64.toNat_mod]
    exact Nat.mod_le _ _
  rw [uint64_toInt64_of_lt (by omega), UInt64.toNat_mod]
  unfold wordMod
  split
  · have hp' := int64_toNat_of_nonneg (x := period) (by omega)
    rw [← hn, ← hp']
    rfl
  · -- a negative period is a word above every clock value
    have hp' := int64_toInt_eq period
    have hne : period.toInt ≠ 0 := fun h => hp (Int64.toInt_inj.1 h)
    have hlt := period.toUInt64.toNat_lt
    split at hp'
    · omega
    · rw [Nat.mod_eq_of_lt (by omega)]
      exact hn

/-- Where `check_timestamp` lets a message stamped now pass. -/
theorem intervalStart_le_now_iff (hp : period ≠ 0) (hnow : 0 ≤ now.toInt)
    (hfits : |now.toInt| + |period.toInt| + |offset.toInt| < 2 ^ 62) :
    let tick := now.toInt - wordMod period now + offset.toInt
    intervalStart period.toUInt64 offset.toUInt64 now.toUInt64 ≤ now.toUInt64 ↔
      (0 ≤ tick ∧ tick < now.toInt) ∨ (0 ≤ tick - period.toInt ∧ tick - period.toInt ≤ now.toInt) := by
  intro tick
  have hmod := wordMod_eq hp hnow hfits
  have hrange : 0 ≤ wordMod period now ∧ wordMod period now ≤ now.toInt := by
    unfold wordMod
    split
    · have := emod_abs_mem period hnow
      rwa [abs_of_pos ‹_›] at this
    · exact ⟨hnow, le_refl _⟩
  have hper := abs_le.1 (le_refl |period.toInt|)
  have hoff := abs_le.1 (le_refl |offset.toInt|)
  have hnowabs := abs_of_nonneg hnow
  set m : Int64 := (now.toUInt64 % period.toUInt64).toInt64 with hm
  have hstart : (now - m).toInt = now.toInt - wordMod period now := by
    rw [int64_toInt_sub (by omega) (by omega), hmod]
  have hsum : (now - m + offset).toInt = tick := by
    rw [int64_toInt_add (by omega) (by omega), hstart]
  have hback : (now - m - period).toInt = now.toInt - wordMod period now - period.toInt := by
    rw [int64_toInt_sub (by omega) (by omega), hstart]
  have hprev : (now - m - period + offset).toInt = tick - period.toInt := by
    rw [int64_toInt_add (by omega) (by omega), hback]
    show _ = now.toInt - wordMod period now + offset.toInt - period.toInt
    omega
  have hword : now.toUInt64 % period.toUInt64 = m.toUInt64 := by rw [hm, UInt64.toUInt64_toInt64]
  unfold intervalStart
  dsimp only
  rw [hword, ← Int64.toUInt64_sub, ← Int64.toUInt64_add, ← Int64.toUInt64_sub, ← Int64.toUInt64_add]
  by_cases hpast : now.toUInt64 > (now - m + offset).toUInt64
  · rw [if_pos hpast, toUInt64_le_iff hnow, hsum]
    have := (toUInt64_lt_iff hnow).1 hpast
    omega
  · rw [if_neg hpast, toUInt64_le_iff hnow, hprev]
    have := mt (toUInt64_lt_iff hnow).2 hpast
    rw [hsum] at this
    omega

theorem timerSane_next_iff {next : Seconds} (hnext : nextTick period now offset = some next) :
    TimerSane period offset now ↔ (now.toInt < next.toInt ∧ next.toInt ≤ now.toInt + |period.toInt|) ∧
      intervalStart period.toUInt64 offset.toUInt64 now.toUInt64 ≤ now.toUInt64 := by
  constructor
  · rintro ⟨⟨next', hnext', hnear⟩, hfilter⟩
    obtain rfl : next = next' := Option.some.inj (hnext.symm.trans hnext')
    exact ⟨hnear, checkTimestampAt_iff.1 (hfilter [] 0).1⟩
  · rintro ⟨hnear, hstart⟩
    refine ⟨⟨next, hnext, hnear⟩, fun uuid bytes => ⟨checkTimestampAt_iff.2 hstart, fun count hcount => ?_⟩⟩
    rw [checkTimestamp_iff, hcount]
    exact hstart

theorem timerSane_iff_of_pos (hpos : 0 < period.toInt) (hnow : 0 ≤ now.toInt)
    (hfits : |now.toInt| + |period.toInt| + |offset.toInt| < 2 ^ 62) :
    TimerSane period offset now ↔ now.toInt - period.toInt < periodTick period offset now ∧
      periodTick period offset now ≤ now.toInt + period.toInt ∧ 0 ≤ periodTick period offset now ∧
      (periodTick period offset now < now.toInt ∨ period.toInt ≤ periodTick period offset now) := by
  have hp : period ≠ 0 := fun h => by rw [h] at hpos; exact absurd hpos (by decide)
  obtain ⟨next, hnext, hvalue⟩ := nextTick_value hp hnow hfits
  have hstart := intervalStart_le_now_iff hp hnow hfits
  have hrange := emod_abs_mem period hnow
  have htick : periodTick period offset now = now.toInt - now.toInt % |period.toInt| + offset.toInt := rfl
  have hmod : wordMod period now = now.toInt % period.toInt := if_pos hpos
  dsimp only at hstart
  rw [timerSane_next_iff hnext, hstart, hvalue, hmod, abs_of_pos hpos]
  rw [abs_of_pos hpos] at htick hrange
  have hlt : now.toInt % period.toInt < period.toInt := Int.emod_lt_of_pos _ hpos
  split <;> constructor <;> intro h <;> omega

theorem timerSane_iff_of_neg (hneg : period.toInt < 0) (hnow : 0 ≤ now.toInt)
    (hfits : |now.toInt| + |period.toInt| + |offset.toInt| < 2 ^ 62) :
    TimerSane period offset now ↔ now.toInt < periodTick period offset now ∧
      periodTick period offset now ≤ now.toInt - period.toInt ∧ offset.toInt < now.toInt := by
  have hp : period ≠ 0 := fun h => by rw [h] at hneg; exact absurd hneg (by decide)
  obtain ⟨next, hnext, hvalue⟩ := nextTick_value hp hnow hfits
  have hstart := intervalStart_le_now_iff hp hnow hfits
  have hrange := emod_abs_mem period hnow
  have htick : periodTick period offset now = now.toInt - now.toInt % |period.toInt| + offset.toInt := rfl
  -- a negative period is a word above the clock
  have hmod : wordMod period now = now.toInt := if_neg (by omega)
  dsimp only at hstart
  rw [timerSane_next_iff hnext, hstart, hvalue, hmod, abs_of_neg hneg]
  rw [abs_of_neg hneg] at htick hrange
  have hlt : now.toInt % -period.toInt < -period.toInt := Int.emod_lt_of_pos _ (by omega)
  split <;> constructor <;> intro h <;> omega

/-- The timer is sane exactly where the tick of the clock's period is. With a positive period it lies
at most a period from the clock, it is not negative, and it is behind the clock or not within the
first period. With a negative period it lies ahead, and the offset behind the clock. -/
theorem timerSane_iff (hp : period ≠ 0) (hnow : 0 ≤ now.toInt)
    (hfits : |now.toInt| + |period.toInt| + |offset.toInt| < 2 ^ 62) :
    TimerSane period offset now ↔
      (0 < period.toInt ∧ now.toInt - period.toInt < periodTick period offset now ∧
        periodTick period offset now ≤ now.toInt + period.toInt ∧ 0 ≤ periodTick period offset now ∧
        (periodTick period offset now < now.toInt ∨ period.toInt ≤ periodTick period offset now)) ∨
      (period.toInt < 0 ∧ now.toInt < periodTick period offset now ∧
        periodTick period offset now ≤ now.toInt - period.toInt ∧ offset.toInt < now.toInt) := by
  have hne : period.toInt ≠ 0 := fun h => hp (Int64.toInt_inj.1 h)
  rcases lt_or_gt_of_ne hne with hneg | hpos
  · rw [timerSane_iff_of_neg hneg hnow hfits]
    exact ⟨fun h => .inr ⟨hneg, h⟩, fun h => (h.resolve_left (by omega)).2⟩
  · rw [timerSane_iff_of_pos hpos hnow hfits]
    exact ⟨fun h => .inl ⟨hpos, h⟩, fun h => (h.resolve_right (by omega)).2⟩

/-- Once a minute, five seconds past: at the second 1000 the timer is sane. -/
theorem timerSane_iff_at_1000 : TimerSane 60 5 1000 := by
  have hiff := @timerSane_iff 60 5 1000 (by decide) (by decide) (by decide)
  exact hiff.2 (.inl (by decide))

/-- A message a minute, an hour late: the next tick is almost an hour ahead. -/
theorem timerSane_fails :
    ¬ ∀ period offset now : Seconds, period ≠ 0 → 0 ≤ now.toInt →
      |now.toInt| + |period.toInt| + |offset.toInt| < 2 ^ 62 → TimerSane period offset now := by
  intro hclaim
  obtain ⟨⟨next, hnext, -, hle⟩, -⟩ := hclaim 60 3600 1000 (by decide) (by decide) (by decide)
  have hvalue : nextTick 60 1000 3600 = some 4560 := by decide
  obtain rfl : next = 4560 := Option.some.inj (hnext.symm.trans hvalue)
  exact absurd hle (by decide)

/-- Up to the second multiple of the period the tick is that of the first. -/
theorem periodTick_of_lt (hlo : |period.toInt| ≤ now.toInt) (hhi : now.toInt < 2 * |period.toInt|) :
    periodTick period offset now = |period.toInt| + offset.toInt := by
  have hmod : now.toInt % |period.toInt| = now.toInt - |period.toInt| := by
    rw [← Int.sub_emod_right, Int.emod_eq_of_lt (by omega) (by omega)]
  rw [periodTick, hmod]
  omega

/-- The configurations whose timer is sane at every clock from the first period on. -/
theorem timerSane_from_period_iff (hp : period ≠ 0) (hfits : 3 * |period.toInt| + |offset.toInt| < 2 ^ 62) :
    (∀ now : Seconds, |period.toInt| ≤ now.toInt → |now.toInt| + |period.toInt| + |offset.toInt| < 2 ^ 62 →
      TimerSane period offset now) ↔
      0 < period.toInt ∧ 0 ≤ offset.toInt ∧ offset.toInt ≤ period.toInt := by
  have hne : period.toInt ≠ 0 := fun h => hp (Int64.toInt_inj.1 h)
  have habs : 0 < |period.toInt| := abs_pos.2 hne
  have hoff := abs_nonneg offset.toInt
  constructor
  · intro hall
    -- the clocks on the first multiple of the period, and a second before the next one
    have hat : ∀ n : ℤ, |period.toInt| ≤ n → n < 2 * |period.toInt| → ∃ now : Seconds, now.toInt = n ∧
        TimerSane period offset now ∧ periodTick period offset now = |period.toInt| + offset.toInt := by
      intro n hlo hhi
      have hn : (Int64.ofInt n).toInt = n := Int64.toInt_ofInt_of_le (by omega) (by omega)
      have hnabs : |n| = n := abs_of_nonneg (by omega)
      exact ⟨Int64.ofInt n, hn, hall _ (by rw [hn]; omega) (by rw [hn, hnabs]; omega),
        periodTick_of_lt (by rw [hn]; omega) (by rw [hn]; omega)⟩
    obtain ⟨first, hfirst, hsane, htick⟩ := hat |period.toInt| (by omega) (by omega)
    obtain ⟨last, hlast, hsane', htick'⟩ := hat (2 * |period.toInt| - 1) (by omega) (by omega)
    have hfirstabs := abs_of_nonneg (show 0 ≤ first.toInt by omega)
    have hlastabs := abs_of_nonneg (show 0 ≤ last.toInt by omega)
    rcases lt_or_gt_of_ne hne with hneg | hpos
    · have hfirst' := (timerSane_iff_of_neg hneg (by omega) (by omega)).1 hsane
      have hlast' := (timerSane_iff_of_neg hneg (by omega) (by omega)).1 hsane'
      rw [htick, abs_of_neg hneg] at hfirst'
      rw [htick', abs_of_neg hneg] at hlast'
      rw [abs_of_neg hneg] at hfirst hlast
      omega
    · have hfirst' := (timerSane_iff_of_pos hpos (by omega) (by omega)).1 hsane
      have hlast' := (timerSane_iff_of_pos hpos (by omega) (by omega)).1 hsane'
      rw [htick, abs_of_pos hpos] at hfirst'
      rw [htick', abs_of_pos hpos] at hlast'
      rw [abs_of_pos hpos] at hfirst hlast
      omega
  · rintro ⟨hpos, ho, hop⟩ now hnow hover
    rw [abs_of_pos hpos] at hnow
    have hlt : now.toInt % period.toInt < period.toInt := Int.emod_lt_of_pos _ hpos
    have hmod := Int.emod_nonneg now.toInt hne
    have hdiv := Int.mul_ediv_add_emod now.toInt period.toInt
    have hone : 1 ≤ now.toInt / period.toInt := Int.le_ediv_of_mul_le hpos (by omega)
    have hfloor : period.toInt * 1 ≤ period.toInt * (now.toInt / period.toInt) :=
      mul_le_mul_of_nonneg_left hone hpos.le
    have htick : periodTick period offset now = now.toInt - now.toInt % period.toInt + offset.toInt := by
      rw [periodTick, abs_of_pos hpos]
    rw [timerSane_iff_of_pos hpos (by omega) hover, htick]
    omega

end

end EventsCounter
