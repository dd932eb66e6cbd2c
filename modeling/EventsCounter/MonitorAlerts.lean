import EventsCounter.Monitor

/-!
# When the monitor raises an alert

`check_limit_exact` is the meaning of every result of a mixed list of checks and resets: the sums are
taken modulo `2 ^ 64`. Between two resets a reached limit therefore stays reached, and the value
compared is the true sum, as long as no counter that is compared wraps around, and in no other case
(`reached_stays_iff`).
-/

namespace EventsCounter
namespace UUIDCountersMonitor

variable {m : UUIDCountersMonitor} {u k : Bytes} {b : UInt64} {checks : List (Bytes × UInt64)}

/-- The alerts, the table and the results of any list of calls, from any table and any limits. -/
theorem check_limit_exact (counters limits : Counters) (cs : List MonitorCall) :
    let m₀ : UUIDCountersMonitor := ⟨⟨counters⟩, limits⟩
    let m := m₀.after cs
    (∀ u b, (m.check u b).1 = true ↔
      ∃ v l, (installed counters cs)[u]? = some v ∧ limits[u]? = some l ∧
        l.toNat < (v.toNat + bytesOf u (sinceReset (cs ++ [.check u b]))) % 2 ^ 64) ∧
    (∀ k, k ∈ m.db.counters ↔ k ∈ installed counters cs) ∧
    (∀ k, m.db.counters[k]? = (installed counters cs)[k]?.map fun v =>
      UInt64.ofNat (v.toNat + bytesOf k (sinceReset cs))) ∧
    (∀ u b, u ∉ m.db.counters → (m.check u b).2 = m) ∧
    (∀ u cs', cs'.filter (concerns u) = cs.filter (concerns u) → results u m₀ cs' = results u m₀ cs) ∧
    (∀ checks checks' : List (Bytes × UInt64), checks.Perm checks' →
      m.afterChecks checks = m.afterChecks checks') :=
  ⟨fun _ _ => check_after_iff, fun _ => mem_after, fun _ => after_counters,
    fun _ _ h => check_of_notMem h, fun _ _ h => results_congr h, fun _ _ h => afterChecks_perm h⟩

/-! ### A reached limit -/

def ReachedStays (m : UUIDCountersMonitor) (checks : List (Bytes × UInt64)) : Prop :=
  ∀ pre u b mid b' post, checks = pre ++ (u, b) :: mid ++ (u, b') :: post →
    ((m.afterChecks pre).check u b).1 = true →
    ((m.afterChecks (pre ++ (u, b) :: mid)).check u b').1 = true

/-- Whatever check compares with a limit is the unbounded sum of the initial count and of the bytes
checked so far. -/
def ComparesTrueSum (m : UUIDCountersMonitor) (checks : List (Bytes × UInt64)) : Prop :=
  ∀ pre u b post, checks = pre ++ (u, b) :: post → ∀ v, m.db.counters[u]? = some v → u ∈ m.limits →
    amount ((m.afterChecks pre).check u b).2.db.counters u = v.toNat + bytesOf u (pre ++ [(u, b)])

def NoWrap (m : UUIDCountersMonitor) (checks : List (Bytes × UInt64)) : Prop :=
  ∀ u v, m.db.counters[u]? = some v → u ∈ m.limits → v.toNat + bytesOf u checks < 2 ^ 64

theorem afterChecks_snoc : m.afterChecks (checks ++ [(u, b)]) = ((m.afterChecks checks).check u b).2 := by
  simp only [afterChecks, List.map_append, List.map_cons, List.map_nil, after_snoc]
  rfl

theorem amount_afterChecks {v : UInt64} (hv : m.db.counters[u]? = some v) :
    amount (m.afterChecks checks).db.counters u = (v.toNat + bytesOf u checks) % 2 ^ 64 := by
  simp [amount, afterChecks_counters, hv]

theorem check_afterChecks_iff :
    ((m.afterChecks checks).check u b).1 = true ↔
      ∃ v l, m.db.counters[u]? = some v ∧ m.limits[u]? = some l ∧
        l.toNat < (v.toNat + bytesOf u (checks ++ [(u, b)])) % 2 ^ 64 := by
  rw [afterChecks, check_after_iff, installed_checks, sinceReset_snoc_check, sinceReset_checks]

theorem bytesOf_append_le (pre post : List (Bytes × UInt64)) :
    bytesOf u pre ≤ bytesOf u (pre ++ post) := by
  rw [bytesOf, bytesOf, Tally.tally_append]
  exact Nat.le_add_right _ _

theorem NoWrap.of_append {pre : List (Bytes × UInt64)} (post : List (Bytes × UInt64))
    (h : m.NoWrap (pre ++ post)) : m.NoWrap pre :=
  fun u v hv hl => Nat.lt_of_le_of_lt (Nat.add_le_add_left (bytesOf_append_le pre post) _) (h u v hv hl)

theorem NoWrap.comparesTrueSum (h : m.NoWrap checks) : m.ComparesTrueSum checks := by
  rintro pre u b post rfl v hv hl
  have hpre : m.NoWrap (pre ++ [(u, b)]) := NoWrap.of_append post (by simpa using h)
  rw [← afterChecks_snoc, amount_afterChecks hv, Nat.mod_eq_of_lt (hpre u v hv hl)]

theorem NoWrap.reachedStays (h : m.NoWrap checks) : m.ReachedStays checks := by
  rintro pre u b mid b' post rfl htrue
  rw [check_afterChecks_iff] at htrue ⊢
  obtain ⟨v, l, hv, hl, hlt⟩ := htrue
  have hmem : u ∈ m.limits := by rw [Std.ExtTreeMap.mem_iff_isSome_getElem?, hl]; rfl
  have hsnd : m.NoWrap (pre ++ (u, b) :: mid ++ [(u, b')]) := NoWrap.of_append post (by simpa using h)
  have hfst : m.NoWrap (pre ++ [(u, b)]) := NoWrap.of_append (mid ++ [(u, b')]) (by simpa using hsnd)
  -- the sums only grow, and neither of the two wraps
  have hle : bytesOf u (pre ++ [(u, b)]) ≤ bytesOf u (pre ++ (u, b) :: mid ++ [(u, b')]) := by
    have := bytesOf_append_le (u := u) (pre ++ [(u, b)]) (mid ++ [(u, b')])
    simpa using this
  rw [Nat.mod_eq_of_lt (hfst u v hv hmem)] at hlt
  refine ⟨v, l, hv, hl, ?_⟩
  rw [Nat.mod_eq_of_lt (hsnd u v hv hmem)]
  omega

theorem ComparesTrueSum.of_append {pre post : List (Bytes × UInt64)}
    (h : m.ComparesTrueSum (pre ++ post)) : m.ComparesTrueSum pre := by
  rintro p u b q rfl v hv hl
  exact h p u b (q ++ post) (by simp) v hv hl

/-- The last check of a uuid already compares the whole sum, so that one fitting in a word is
necessary. -/
theorem ComparesTrueSum.noWrap (h : m.ComparesTrueSum checks) : m.NoWrap checks := by
  induction checks using List.reverseRecOn with
  | nil =>
    intro u v _ _
    simpa [bytesOf] using v.toNat_lt
  | append_singleton checks c ih =>
    obtain ⟨u', b⟩ := c
    intro u v hv hl
    by_cases hu : u' = u
    · subst hu
      rw [← h checks u' b [] rfl v hv hl, ← afterChecks_snoc, amount_afterChecks hv]
      exact Nat.mod_lt _ (by decide)
    · rw [bytesOf_snoc, if_neg hu, Nat.add_zero]
      exact ih h.of_append u v hv hl

/-- Between two resets, whatever the table and the limits: a reached limit stays reached and the true
sums are compared if and only if no compared counter wraps around. -/
theorem reached_stays_iff (counters limits : Counters) (checks : List (Bytes × UInt64)) :
    let m : UUIDCountersMonitor := ⟨⟨counters⟩, limits⟩
    (m.ReachedStays checks ∧ m.ComparesTrueSum checks) ↔
      ∀ u v, counters[u]? = some v → u ∈ limits → v.toNat + bytesOf u checks < 2 ^ 64 :=
  ⟨fun h => h.2.noWrap, fun h => ⟨NoWrap.reachedStays h, NoWrap.comparesTrueSum h⟩⟩

/-- A limit of 100 is exceeded by a message of `2 ^ 64 - 1` bytes, and no longer by one more byte. -/
theorem reached_stays_fails :
    let m : UUIDCountersMonitor := ⟨⟨makeUuidCountersBoostrapDb [lit "a"]⟩, (∅ : Counters).insert (lit "a") 100⟩
    ¬ (m.ReachedStays [(lit "a", 18446744073709551615), (lit "a", 1)] ∧
      m.ComparesTrueSum [(lit "a", 18446744073709551615), (lit "a", 1)]) := by
  rintro m ⟨h, -⟩
  have hlater := h [] (lit "a") 18446744073709551615 [] 1 [] rfl (by decide)
  exact absurd hlater (by decide)

end UUIDCountersMonitor
end EventsCounter
