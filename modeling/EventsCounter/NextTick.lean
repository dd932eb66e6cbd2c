import EventsCounter.Lib.Ticks

/-!
# `next_tick`

The schedule of both the publish rounds and the monitor resets. The quotient of two `seconds` is
signed; stored in a `uint64_t`, it makes every later operation unsigned, and the result is converted
back to signed seconds. For a period and an offset in range, the unsigned computation is exact at
every clock value and gives the least tick after `now` (`nextTick_eq`); the conversion keeps it
unless it lies beyond the last representable second.
-/

namespace EventsCounter

/-- `std::chrono::seconds`. -/
abbrev Seconds := Int64

/-- `next_tick`; `none` is the `exit(1)` on a zero period. -/
def nextTick (ticksPeriod now : Seconds) (ticksOffset : Seconds := 0) : Option Seconds :=
  if ticksPeriod = 0 then none
  else
    let nTicks : UInt64 := (now / ticksPeriod).toUInt64
    let nextTick : UInt64 := ticksPeriod.toUInt64 * nTicks + ticksOffset.toUInt64
    let nextTick := if nextTick ≤ now.toUInt64 then nextTick + ticksPeriod.toUInt64 else nextTick
    some nextTick.toInt64

/-! ### Signed and unsigned words -/

theorem int64_toInt_eq (x : Int64) :
    x.toInt = if 2 * x.toUInt64.toNat < 2 ^ 64 then (x.toUInt64.toNat : ℤ) else x.toUInt64.toNat - 2 ^ 64 :=
  BitVec.toInt_eq_toNat_cond _

theorem int64_toInt_add {x y : Int64} (hlo : -2 ^ 63 ≤ x.toInt + y.toInt)
    (hhi : x.toInt + y.toInt < 2 ^ 63) :
    (x + y).toInt = x.toInt + y.toInt := by
  rw [Int64.toInt_add]
  exact Int.bmod_eq_of_le (by omega) (by omega)

theorem int64_toInt_sub {x y : Int64} (hlo : -2 ^ 63 ≤ x.toInt - y.toInt)
    (hhi : x.toInt - y.toInt < 2 ^ 63) :
    (x - y).toInt = x.toInt - y.toInt := by
  rw [Int64.toInt_sub]
  exact Int.bmod_eq_of_le (by omega) (by omega)

theorem int64_toNat_of_nonneg {x : Int64} (h : 0 ≤ x.toInt) : (x.toUInt64.toNat : ℤ) = x.toInt := by
  have hx := int64_toInt_eq x
  have hlt := x.toUInt64.toNat_lt
  split at hx <;> omega

theorem uint64_toInt64_of_lt {x : UInt64} (h : x.toNat < 2 ^ 63) : x.toInt64.toInt = x.toNat := by
  have hx := int64_toInt_eq x.toInt64
  rw [UInt64.toUInt64_toInt64, if_pos (by omega)] at hx
  exact hx

theorem int64_div_toNat {now period : Int64} (hnow : 0 ≤ now.toInt) (hp : 0 < period.toInt) :
    (now / period).toUInt64.toNat = now.toUInt64.toNat / period.toUInt64.toNat := by
  have hn := int64_toNat_of_nonneg hnow
  have hd := int64_toNat_of_nonneg (Int.le_of_lt hp)
  have hlt := now.toInt_lt
  obtain ⟨q, hq⟩ : ∃ q, q = now.toUInt64.toNat / period.toUInt64.toNat := ⟨_, rfl⟩
  have hle : q ≤ now.toUInt64.toNat := hq ▸ Nat.div_le_self _ _
  have hquot : (now / period).toInt = q := by
    rw [Int64.toInt_div, ← hn, ← hd, ← Int.ofNat_tdiv, ← hq]
    exact Int.bmod_eq_of_le (by omega) (by omega)
  have hback := int64_toNat_of_nonneg (x := now / period) (by omega)
  omega

/-! ### The next tick -/

section
variable {period now offset : Seconds}

theorem nextTick_eq (hp : 1 ≤ period.toInt) (ho : 0 ≤ offset.toInt) (hop : offset.toInt < period.toInt)
    (hnow : 0 ≤ now.toInt) :
    ∃ next : UInt64, nextTick period now offset = some next.toInt64 ∧
      IsLeast (Ticks.after period.toInt offset.toInt now.toInt) next.toNat := by
  have hp' := int64_toNat_of_nonneg (x := period) (by omega)
  have ho' := int64_toNat_of_nonneg ho
  have hn' := int64_toNat_of_nonneg hnow
  have hpne : period ≠ 0 := by
    rintro rfl
    exact absurd hp (by decide)
  have hplt := period.toInt_lt
  have hnlt := now.toInt_lt
  have hq := int64_div_toNat hnow (by omega : 0 < period.toInt)
  set p := period.toUInt64.toNat
  set o := offset.toUInt64.toNat
  set n := now.toUInt64.toNat
  -- the tick of the period `now` lies in, computed without wrapping
  set start : UInt64 := period.toUInt64 * (now / period).toUInt64 + offset.toUInt64 with hstart
  have hle : p * (n / p) ≤ n := Nat.mul_div_le n p
  have hgt : n < p * (n / p) + p := Nat.lt_mul_div_succ n (by omega)
  have hstartNat : start.toNat = p * (n / p) + o := by
    rw [hstart, UInt64.toNat_add, UInt64.toNat_mul, hq, Nat.mod_add_mod]
    exact Nat.mod_eq_of_lt (show p * (n / p) + o < 2 ^ 64 by omega)
  have hmod : ((p * (n / p) + o : ℕ) : ℤ) ≡ offset.toInt [ZMOD period.toInt] := by
    refine (Int.modEq_iff_dvd.2 ⟨-(n / p : ℕ), ?_⟩)
    rw [← hp', ← ho']
    push_cast
    ring
  refine ⟨if start ≤ now.toUInt64 then start + period.toUInt64 else start, ?_, ?_⟩
  · unfold nextTick
    rw [if_neg hpne]
  · rw [Ticks.isLeast_after_iff (by omega)]
    by_cases hpast : start ≤ now.toUInt64
    · rw [if_pos hpast]
      have hpast' : start.toNat ≤ n := hpast
      have hsum : (start + period.toUInt64).toNat = p * (n / p) + o + p := by
        rw [UInt64.toNat_add, hstartNat, Nat.mod_eq_of_lt (by omega)]
      rw [hsum]
      refine ⟨by omega, by omega, ?_⟩
      have := Ticks.modEq_add_period hmod
      rw [← hp'] at this ⊢
      push_cast at this ⊢
      exact this
    · rw [if_neg hpast]
      have hahead : n < start.toNat := Nat.lt_of_not_le hpast
      rw [hstartNat] at hahead ⊢
      exact ⟨by omega, by omega, hmod⟩

theorem nextTick_isLeast (hp : 1 ≤ period.toInt) (ho : 0 ≤ offset.toInt) (hop : offset.toInt < period.toInt)
    (hnow : 0 ≤ now.toInt) (hover : now.toInt + period.toInt < 2 ^ 63) :
    ∃ next, nextTick period now offset = some next ∧
      IsLeast (Ticks.after period.toInt offset.toInt now.toInt) next.toInt := by
  obtain ⟨next, heq, hleast⟩ := nextTick_eq hp ho hop hnow
  obtain ⟨-, hle, -⟩ := (Ticks.isLeast_after_iff (by omega)).1 hleast
  refine ⟨next.toInt64, heq, ?_⟩
  rw [uint64_toInt64_of_lt (by omega)]
  exact hleast

/-- `next_tick` is the least tick after `now`. It only grows with `now`, it is the same everywhere
between two consecutive ticks, and a period later it is a period later. -/
theorem nextTick_is_next_tick (hp : 1 ≤ period.toInt) (ho : 0 ≤ offset.toInt) (hop : offset.toInt < period.toInt)
    (hnow : 0 ≤ now.toInt) (hover : now.toInt + period.toInt < 2 ^ 63) :
    ∃ next, nextTick period now offset = some next ∧
      IsLeast {T | now.toInt < T ∧ T ≡ offset.toInt [ZMOD period.toInt]} next.toInt ∧
      (∀ now' : Seconds, now.toInt ≤ now'.toInt → now'.toInt + period.toInt < 2 ^ 63 →
        ∃ next', nextTick period now' offset = some next' ∧ next.toInt ≤ next'.toInt ∧
          ((∀ T, T ≡ offset.toInt [ZMOD period.toInt] → now.toInt < T → now'.toInt < T) → next' = next)) ∧
      (now.toInt + 2 * period.toInt < 2 ^ 63 →
        ∃ next', nextTick period (now + period) offset = some next' ∧
          next'.toInt = next.toInt + period.toInt) := by
  obtain ⟨next, hnext, hleast⟩ := nextTick_isLeast hp ho hop hnow hover
  refine ⟨next, hnext, hleast, ?_, ?_⟩
  · intro now' hle hover'
    obtain ⟨next', hnext', hleast'⟩ := @nextTick_isLeast period now' offset hp ho hop (by omega) hover'
    refine ⟨next', hnext', hleast'.mono hleast (Ticks.after_anti hle), ?_⟩
    intro hnone
    exact Int64.toInt_inj.1 (Ticks.isLeast_after_unique hleast hleast' hle hnone)
  · intro hover2
    have hsum : (now + period).toInt = now.toInt + period.toInt := int64_toInt_add (by omega) (by omega)
    obtain ⟨next', hnext', hleast'⟩ := @nextTick_isLeast period (now + period) offset hp ho hop (by omega) (by omega)
    refine ⟨next', hnext', ?_⟩
    rw [hsum] at hleast'
    exact hleast'.unique (Ticks.isLeast_after_add_period (by omega) hleast)

/-- On the tick 13, every 10 seconds from 3 on: the next one is 23. -/
theorem nextTick_is_next_tick_at_13 :
    ∃ next, nextTick 10 13 3 = some next ∧ next.toInt = 23 ∧
      IsLeast {T : ℤ | 13 < T ∧ T ≡ 3 [ZMOD 10]} next.toInt := by
  obtain ⟨next, hnext, hleast, -⟩ :=
    @nextTick_is_next_tick 10 13 3 (by decide) (by decide) (by decide) (by decide) (by decide)
  have hvalue : nextTick 10 13 3 = some 23 := by decide
  obtain rfl : next = 23 := Option.some.inj (hnext.symm.trans hvalue)
  exact ⟨23, hvalue, rfl, hleast⟩

theorem nextTick_isSome (h : period ≠ 0) : (nextTick period now offset).isSome = true := by
  unfold nextTick
  rw [if_neg h]
  rfl

theorem nextTick_eq_none_iff : nextTick period now offset = none ↔ period = 0 := by
  constructor
  · intro hnone
    by_contra hne
    have hsome := @nextTick_isSome period now offset hne
    rw [hnone] at hsome
    cases hsome
  · intro hzero
    exact if_pos hzero

end

end EventsCounter
