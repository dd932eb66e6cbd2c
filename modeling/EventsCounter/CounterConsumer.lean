import EventsCounter.Data
import EventsCounter.NextTick

/-!
# `KafkaJSONCounterConsumer`

`consume` drops a counter message stamped before the interval that the consumer's own clock is in.
The interval start is computed in unsigned words; from the first period on it is the last tick
strictly before the clock (`intervalStart_isGreatest`). Strictly: at a clock exactly on a tick the
interval that ends there is still the current one.
-/

namespace EventsCounter

/-- The seconds of `system_clock::now()`, from its count of nanoseconds. -/
def systemSeconds (count : Int64) : UInt64 := (count * 1 / 1000000000).toUInt64

/-- The start of the current interval. `period` is not `0`: `next_tick` has exited on it. -/
def intervalStart (period offset now : UInt64) : UInt64 :=
  let periodStart := now - now % period
  if now > periodStart + offset then periodStart + offset else periodStart - period + offset

def checkTimestamp (count : Int64) (uuidBytes : UUIDBytes) (period offset : UInt64) : Bool :=
  if uuidBytes.timestamp < intervalStart period offset (systemSeconds count) then false else true

/-- `check_timestamp` at a clock of `now` seconds. -/
def checkTimestampAt (now : UInt64) (uuidBytes : UUIDBytes) (period offset : UInt64) : Bool :=
  !decide (uuidBytes.timestamp < intervalStart period offset now)

theorem checkTimestamp_eq (count : Int64) (uuidBytes : UUIDBytes) (period offset : UInt64) :
    checkTimestamp count uuidBytes period offset =
      checkTimestampAt (systemSeconds count) uuidBytes period offset := by
  unfold checkTimestamp checkTimestampAt
  split <;> simp [*]

theorem checkTimestampAt_iff {now : UInt64} {uuidBytes : UUIDBytes} {period offset : UInt64} :
    checkTimestampAt now uuidBytes period offset = true ↔ intervalStart period offset now ≤ uuidBytes.timestamp := by
  simp [checkTimestampAt]

theorem checkTimestamp_iff {count : Int64} {uuidBytes : UUIDBytes} {period offset : UInt64} :
    checkTimestamp count uuidBytes period offset = true ↔
      intervalStart period offset (systemSeconds count) ≤ uuidBytes.timestamp := by
  rw [checkTimestamp_eq]
  exact checkTimestampAt_iff

/-- What one call of `consume` meets: the message librdkafka returns as `get_message_uuid_bytes`
reads it, or an error (no message in time is one), the clock of the filter, and the uninitialised
fields of the empty value. -/
structure Fetched where
  message : Option UUIDBytes
  clock : Int64
  junkBytes : UInt64
  junkTimestamp : UInt64

def consume (period offset : UInt64) (fetched : Fetched) : UUIDBytes :=
  match fetched.message with
  | none => UUIDBytes.none fetched.junkBytes fetched.junkTimestamp
  | some uuidBytes =>
    if !checkTimestamp fetched.clock uuidBytes period offset then
      UUIDBytes.none fetched.junkBytes fetched.junkTimestamp
    else uuidBytes

theorem consume_nonempty_iff {period offset : UInt64} {fetched : Fetched} {uuidBytes : UUIDBytes} :
    consume period offset fetched = uuidBytes ∧ uuidBytes.isEmpty = false ↔
      fetched.message = some uuidBytes ∧ uuidBytes.isEmpty = false ∧
        intervalStart period offset (systemSeconds fetched.clock) ≤ uuidBytes.timestamp := by
  unfold consume checkTimestamp
  cases hm : fetched.message with
  | none =>
    constructor
    · rintro ⟨rfl, hne⟩
      simp [UUIDBytes.none] at hne
    · rintro ⟨h, -⟩
      cases h
  | some ub =>
    by_cases hlt : ub.timestamp < intervalStart period offset (systemSeconds fetched.clock)
    · simp only [hlt, if_true, Bool.not_false]
      constructor
      · rintro ⟨rfl, hne⟩
        simp [UUIDBytes.none] at hne
      · rintro ⟨h, -, hle⟩
        cases h
        exact absurd hlt (UInt64.not_lt.2 hle)
    · simp only [hlt, if_false, Bool.not_true, Bool.false_eq_true, Option.some.injEq]
      constructor
      · rintro ⟨rfl, hne⟩
        exact ⟨rfl, hne, UInt64.not_lt.1 hlt⟩
      · rintro ⟨rfl, hne, -⟩
        exact ⟨rfl, hne⟩

theorem systemSeconds_lt (count : Int64) (h : 0 ≤ count.toInt) : (systemSeconds count).toNat < 2 ^ 34 := by
  unfold systemSeconds
  have hcount := int64_toNat_of_nonneg h
  have hlt := count.toInt_lt
  rw [Int64.mul_one, int64_div_toNat h (by decide)]
  have hden : (1000000000 : Int64).toUInt64.toNat = 1000000000 := rfl
  rw [hden]
  omega

theorem intervalStart_isGreatest {period offset now : UInt64} (hp : 1 ≤ period.toNat)
    (hop : offset.toNat < period.toNat) (hnow : period.toNat ≤ now.toNat)
    (hover : now.toNat + period.toNat < 2 ^ 64) :
    IsGreatest (Ticks.before period.toNat offset.toNat now.toNat) (intervalStart period offset now).toNat := by
  have hle : period.toNat * (now.toNat / period.toNat) ≤ now.toNat := Nat.mul_div_le _ _
  have hgt : now.toNat < period.toNat * (now.toNat / period.toNat) + period.toNat := Nat.lt_mul_div_succ _ (by omega)
  have hfirst : period.toNat ≤ period.toNat * (now.toNat / period.toNat) :=
    Nat.le_mul_of_pos_right _ (Nat.div_pos hnow (by omega))
  have hmod : ∀ m : ℕ, (period.toNat * m + offset.toNat : ℤ) ≡ offset.toNat [ZMOD period.toNat] :=
    fun m => by simp [Int.ModEq]
  obtain ⟨q, hq⟩ : ∃ q, q = now.toNat / period.toNat := ⟨_, rfl⟩
  rw [← hq] at hle hgt hfirst
  -- the multiple of the period at or before the clock
  have hstart : (now - now % period).toNat = period.toNat * q := by
    have hmodNat : (now % period).toNat = now.toNat - period.toNat * q := by
      rw [UInt64.toNat_mod, hq]
      exact Nat.eq_sub_of_add_eq (Nat.mod_add_div _ _)
    rw [UInt64.toNat_sub_of_le _ _ (UInt64.le_iff_toNat_le.2 (by omega)), hmodNat]
    omega
  have hsum : (now - now % period + offset).toNat = period.toNat * q + offset.toNat := by
    rw [UInt64.toNat_add, hstart]
    exact Nat.mod_eq_of_lt (by omega)
  have hprev : (now - now % period - period + offset).toNat = period.toNat * q - period.toNat + offset.toNat := by
    rw [UInt64.toNat_add, UInt64.toNat_sub_of_le _ _ (UInt64.le_iff_toNat_le.2 (by omega)), hstart]
    exact Nat.mod_eq_of_lt (by omega)
  rw [Ticks.isGreatest_before_iff (by omega)]
  unfold intervalStart
  by_cases hpast : now > now - now % period + offset
  · rw [if_pos hpast, hsum]
    have hpast' : period.toNat * q + offset.toNat < now.toNat := hsum ▸ UInt64.lt_iff_toNat_lt.1 hpast
    exact ⟨by omega, by omega, by push_cast; exact hmod q⟩
  · rw [if_neg hpast, hprev]
    have hahead : now.toNat ≤ period.toNat * q + offset.toNat := by
      rw [← hsum]
      exact Nat.le_of_not_lt fun h => hpast (UInt64.lt_iff_toNat_lt.2 h)
    refine ⟨by omega, by omega, ?_⟩
    have hback : ((period.toNat * q - period.toNat + offset.toNat : ℕ) : ℤ) =
        (period.toNat * q + offset.toNat) - period.toNat := by omega
    rw [hback]
    exact Ticks.modEq_sub_period (hmod q)

/-! ### The filter and the scheduler -/

section
variable {period offset now : Seconds}

theorem intervalStart_seconds (hp : 1 ≤ period.toInt) (ho : 0 ≤ offset.toInt) (hop : offset.toInt < period.toInt)
    (hnow : period.toInt ≤ now.toInt) (hover : now.toInt + period.toInt < 2 ^ 63) :
    IsGreatest (Ticks.before period.toInt offset.toInt now.toInt)
      (intervalStart period.toUInt64 offset.toUInt64 now.toUInt64).toNat := by
  have hp' := int64_toNat_of_nonneg (x := period) (by omega)
  have ho' := int64_toNat_of_nonneg ho
  have hn' := int64_toNat_of_nonneg (x := now) (by omega)
  rw [← hp', ← ho', ← hn']
  exact intervalStart_isGreatest (by omega) (by omega) (by omega) (by omega)

/-- From the first period on: the subtractions of `check_timestamp` do not wrap, the interval it
computes starts at the last tick strictly before the clock, which is the tick `next_tick` computes a
second earlier less a period, and only stamps from there on pass, at whatever nanosecond of the second.
The start never goes back, and it moves by whole periods. -/
theorem intervalStart_agrees (hp : 1 ≤ period.toInt) (ho : 0 ≤ offset.toInt) (hop : offset.toInt < period.toInt)
    (hnow : period.toInt ≤ now.toInt) (hover : now.toInt + period.toInt < 2 ^ 63) :
    let start := fun now : Seconds => intervalStart period.toUInt64 offset.toUInt64 now.toUInt64
    (now.toUInt64 % period.toUInt64 ≤ now.toUInt64 ∧
      period.toUInt64 ≤ now.toUInt64 - now.toUInt64 % period.toUInt64) ∧
    IsGreatest {T : ℤ | T < now.toInt ∧ T ≡ offset.toInt [ZMOD period.toInt]} (start now).toNat ∧
    (∃ next, nextTick period (now - 1) offset = some next ∧ ((start now).toNat : ℤ) = next.toInt - period.toInt) ∧
    (∀ uuidBytes, checkTimestampAt now.toUInt64 uuidBytes period.toUInt64 offset.toUInt64 = true ↔
      start now ≤ uuidBytes.timestamp) ∧
    (∀ count uuidBytes, systemSeconds count = now.toUInt64 →
      (checkTimestamp count uuidBytes period.toUInt64 offset.toUInt64 = true ↔ start now ≤ uuidBytes.timestamp)) ∧
    (∀ now' : Seconds, now.toInt ≤ now'.toInt → now'.toInt + period.toInt < 2 ^ 63 →
      start now ≤ start now' ∧ period.toInt ∣ (start now').toNat - (start now).toNat) := by
  intro start
  have hp' := int64_toNat_of_nonneg (x := period) (by omega)
  have hn' := int64_toNat_of_nonneg (x := now) (by omega)
  have hgreatest : IsGreatest (Ticks.before period.toInt offset.toInt now.toInt) (start now).toNat :=
    intervalStart_seconds hp ho hop hnow hover
  refine ⟨⟨?_, ?_⟩, hgreatest, ?_, fun _ => checkTimestampAt_iff, fun count uuidBytes hcount => ?_, ?_⟩
  · rw [UInt64.le_iff_toNat_le, UInt64.toNat_mod]
    exact Nat.mod_le _ _
  · have hle : (now.toUInt64 % period.toUInt64).toNat ≤ now.toUInt64.toNat := by
      rw [UInt64.toNat_mod]
      exact Nat.mod_le _ _
    have hfirst : period.toUInt64.toNat + now.toUInt64.toNat % period.toUInt64.toNat ≤ now.toUInt64.toNat := by
      have hdiv := Nat.mod_add_div now.toUInt64.toNat period.toUInt64.toNat
      have hpos : 1 ≤ now.toUInt64.toNat / period.toUInt64.toNat := Nat.div_pos (by omega) (by omega)
      have := Nat.mul_le_mul_left period.toUInt64.toNat hpos
      omega
    rw [UInt64.le_iff_toNat_le, UInt64.toNat_sub_of_le _ _ (UInt64.le_iff_toNat_le.2 hle), UInt64.toNat_mod]
    omega
  · have hone : (1 : Int64).toInt = 1 := rfl
    have hpred : (now - 1).toInt = now.toInt - 1 := by
      rw [int64_toInt_sub (by omega) (by omega), hone]
    obtain ⟨next, hnext, hleast⟩ := @nextTick_isLeast period (now - 1) offset hp ho hop (by omega) (by omega)
    refine ⟨next, hnext, ?_⟩
    obtain ⟨hlt, hle, hmod⟩ := (Ticks.isLeast_after_iff (by omega)).1 hleast
    have hprev : IsGreatest (Ticks.before period.toInt offset.toInt now.toInt) (next.toInt - period.toInt) :=
      (Ticks.isGreatest_before_iff (by omega)).2 ⟨by omega, by omega, Ticks.modEq_sub_period hmod⟩
    exact hgreatest.unique hprev
  · rw [checkTimestamp_iff, hcount]
  · intro now' hle hover'
    have hgreatest' : IsGreatest (Ticks.before period.toInt offset.toInt now'.toInt) (start now').toNat :=
      intervalStart_seconds hp ho hop (by omega) hover'
    constructor
    · have hmem : ((start now).toNat : ℤ) ∈ Ticks.before period.toInt offset.toInt now'.toInt :=
        ⟨lt_of_lt_of_le hgreatest.1.1 hle, hgreatest.1.2⟩
      have := hgreatest'.2 hmem
      rw [UInt64.le_iff_toNat_le]
      omega
    · exact (hgreatest.1.2.trans hgreatest'.1.2.symm).dvd

/-- At 23, a tick of every 10 seconds from 3 on, the interval from 13 on is the current one. -/
theorem intervalStart_agrees_at_23 :
    ∃ next, nextTick 10 (23 - 1) 3 = some next ∧ ((intervalStart 10 3 23).toNat : ℤ) = next.toInt - 10 := by
  obtain ⟨-, -, hnext, -⟩ :=
    @intervalStart_agrees 10 3 23 (by decide) (by decide) (by decide) (by decide) (by decide)
  exact hnext

end

end EventsCounter
