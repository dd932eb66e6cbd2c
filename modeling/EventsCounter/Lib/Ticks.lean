import Mathlib

/-!
# Ticks of a periodic schedule

A tick of the schedule `(period, offset)` is an integer congruent to `offset` modulo `period`. `after`
and `before` are the ticks strictly after and strictly before an instant; a positive period has a
least one and a greatest one, and being it is a matter of being within one period
(`isLeast_after_iff`, `isGreatest_before_iff`).
-/

namespace Ticks

variable {period offset now now' T T' N S : ℤ}

def after (period offset now : ℤ) : Set ℤ := {T | now < T ∧ T ≡ offset [ZMOD period]}

def before (period offset now : ℤ) : Set ℤ := {T | T < now ∧ T ≡ offset [ZMOD period]}

theorem add_le_of_lt (h : T ≡ offset [ZMOD period]) (h' : T' ≡ offset [ZMOD period]) (hlt : T < T') :
    T + period ≤ T' := by
  have hdvd : period ∣ T' - T := (h.trans h'.symm).dvd
  have := Int.le_of_dvd (by omega) hdvd
  omega

theorem modEq_sub_period (h : T ≡ offset [ZMOD period]) : T - period ≡ offset [ZMOD period] := by
  have := h.sub (Int.modEq_zero_iff_dvd.2 (dvd_refl period))
  simpa using this

theorem modEq_add_period (h : T ≡ offset [ZMOD period]) : T + period ≡ offset [ZMOD period] := by
  have := h.add (Int.modEq_zero_iff_dvd.2 (dvd_refl period))
  simpa using this

theorem isLeast_after_iff (hp : 0 < period) :
    IsLeast (after period offset now) N ↔ now < N ∧ N ≤ now + period ∧ N ≡ offset [ZMOD period] := by
  constructor
  · rintro ⟨⟨hlt, hmod⟩, hleast⟩
    refine ⟨hlt, ?_, hmod⟩
    by_contra hfar
    have hearlier : N - period ∈ after period offset now := ⟨by omega, modEq_sub_period hmod⟩
    have := hleast hearlier
    omega
  · rintro ⟨hlt, hle, hmod⟩
    refine ⟨⟨hlt, hmod⟩, ?_⟩
    intro T hT
    by_contra hlater
    have := add_le_of_lt hT.2 hmod (by omega)
    have := hT.1
    omega

theorem isGreatest_before_iff (hp : 0 < period) :
    IsGreatest (before period offset now) S ↔ S < now ∧ now ≤ S + period ∧ S ≡ offset [ZMOD period] := by
  constructor
  · rintro ⟨⟨hlt, hmod⟩, hgreatest⟩
    refine ⟨hlt, ?_, hmod⟩
    by_contra hfar
    have hlater : S + period ∈ before period offset now := ⟨by omega, modEq_add_period hmod⟩
    have := hgreatest hlater
    omega
  · rintro ⟨hlt, hle, hmod⟩
    refine ⟨⟨hlt, hmod⟩, ?_⟩
    intro T hT
    by_contra hearlier
    have := add_le_of_lt hmod hT.2 (by omega)
    have := hT.1
    omega

theorem after_anti (h : now ≤ now') : after period offset now' ⊆ after period offset now := by
  rintro T ⟨hlt, hmod⟩
  exact ⟨lt_of_le_of_lt h hlt, hmod⟩

/-- Between two instants with no tick from the one to the other, the next tick is the same. -/
theorem isLeast_after_unique (h : IsLeast (after period offset now) N) (h' : IsLeast (after period offset now') N')
    (hle : now ≤ now') (hnone : ∀ T, T ≡ offset [ZMOD period] → now < T → now' < T) : N' = N := by
  have hsame : N ∈ after period offset now' := ⟨hnone N h.1.2 h.1.1, h.1.2⟩
  exact le_antisymm (h'.2 hsame) (h'.mono h (after_anti hle))

theorem isLeast_after_add_period (hp : 0 < period) (h : IsLeast (after period offset now) N) :
    IsLeast (after period offset (now + period)) (N + period) := by
  obtain ⟨hlt, hle, hmod⟩ := (isLeast_after_iff hp).1 h
  exact (isLeast_after_iff hp).2 ⟨by omega, by omega, modEq_add_period hmod⟩

/-- Where the last tick strictly before an instant lies, seen from any tick `N` with the instant
after `N - period`: the instant decides whether `N` has passed. -/
theorem before_cases (hp : 0 < period) (hS : IsGreatest (before period offset now) S)
    (hN : N ≡ offset [ZMOD period]) (hnow : N - period ≤ now) :
    (N < now ∧ N ≤ S) ∨ (N - period < now ∧ now ≤ N ∧ S = N - period) ∨
      (now = N - period ∧ S = N - period - period) := by
  obtain ⟨hlt, hle, hmod⟩ := (isGreatest_before_iff hp).1 hS
  have hprev := modEq_sub_period hN
  rcases lt_trichotomy now (N - period) with hbefore | hon | hpast
  · omega
  · refine .inr (.inr ⟨hon, ?_⟩)
    have := add_le_of_lt hmod hprev (by omega)
    omega
  · rcases lt_or_ge N now with hNnow | hNnow
    · exact .inl ⟨hNnow, hS.2 ⟨hNnow, hN⟩⟩
    · refine .inr (.inl ⟨hpast, hNnow, ?_⟩)
      have hge : N - period ≤ S := hS.2 ⟨hpast, hprev⟩
      by_contra hne
      have := add_le_of_lt hprev hmod (by omega)
      omega

end Ticks
