import EventsCounter.CountersDB

/-!
# `UUIDCountersMonitor`

The monitor keeps a counters table and the limits. `check` adds the bytes of a counter message and
says whether the limit of its uuid is exceeded, `reset` installs a fresh table.

A call list is described by the table the last reset installed and the checks made since.
`after_counters` says that the table is always the former plus the latter, modulo `2 ^ 64`, and
everything else here follows from it. `check` is the result for one uuid only (`results_congr`).
-/

namespace EventsCounter

structure UUIDCountersMonitor where
  db : UUIDCountersDB
  limits : Counters

inductive MonitorCall
  | check (uuid : Bytes) (bytes : UInt64)
  | reset (counters : Counters)

namespace UUIDCountersMonitor

def check (m : UUIDCountersMonitor) (uuid : Bytes) (bytes : UInt64) : Bool × UUIDCountersMonitor :=
  let (incrementRc, db) := m.db.uuidIncrement uuid bytes (some m.limits)
  match incrementRc with
  | .incrementLimitReached => (true, { m with db })
  | .incrementNotExists => (false, { m with db })
  | .incrementNotExistsInLimits => (false, { m with db })
  | .incrementOk => (false, { m with db })

def reset (m : UUIDCountersMonitor) (counters : Counters) : UUIDCountersMonitor :=
  { m with db := (m.db.swap counters).1 }

def perform (m : UUIDCountersMonitor) : MonitorCall → UUIDCountersMonitor
  | .check uuid bytes => (m.check uuid bytes).2
  | .reset counters => m.reset counters

def after (m : UUIDCountersMonitor) (cs : List MonitorCall) : UUIDCountersMonitor := cs.foldl perform m

/-- What the checks of `u` among the calls return, in order. -/
def results (u : Bytes) (m : UUIDCountersMonitor) : List MonitorCall → List Bool
  | [] => []
  | .check uuid bytes :: cs =>
    let (alert, m') := m.check uuid bytes
    if uuid = u then alert :: results u m' cs else results u m' cs
  | .reset counters :: cs => results u (m.reset counters) cs

variable {m m' : UUIDCountersMonitor} {u k : Bytes} {b : UInt64} {cs cs' : List MonitorCall}

/-! ### One call -/

theorem check_db : (m.check u b).2.db = (m.db.uuidIncrement u b (some m.limits)).2 := by
  unfold check
  split; split <;> simp [*]

@[simp] theorem check_limits : (m.check u b).2.limits = m.limits := by
  unfold check
  split; split <;> rfl

theorem check_eq_true_iff :
    (m.check u b).1 = true ↔
      ∃ v l, m.db.counters[u]? = some v ∧ m.limits[u]? = some l ∧ l < v + b := by
  rw [← UUIDCountersDB.uuidIncrement_limitReached_iff]
  unfold check
  split; split <;> simp [*]

theorem check_getElem? :
    (m.check u b).2.db.counters[k]? =
      if u = k then m.db.counters[k]?.map (· + b) else m.db.counters[k]? := by
  rw [check_db, UUIDCountersDB.uuidIncrement_getElem?]

theorem check_of_notMem (h : u ∉ m.db.counters) : (m.check u b).2 = m := by
  have hdb : (m.check u b).2.db = m.db := by rw [check_db, UUIDCountersDB.uuidIncrement_of_notMem h]
  calc (m.check u b).2 = ⟨(m.check u b).2.db, (m.check u b).2.limits⟩ := rfl
    _ = m := by rw [hdb, check_limits]

/-! ### Call lists -/

/-- The table the last reset of `cs` installed, `counters` when there is none. -/
def installed (counters : Counters) (cs : List MonitorCall) : Counters :=
  cs.foldl (fun installed c => match c with | .check _ _ => installed | .reset counters => counters) counters

/-- The checks of `cs` made after its last reset. -/
def sinceReset (cs : List MonitorCall) : List (Bytes × UInt64) :=
  cs.foldl (fun checks c => match c with | .check u b => checks ++ [(u, b)] | .reset _ => []) []

def bytesOf (u : Bytes) (checks : List (Bytes × UInt64)) : ℕ :=
  Tally.tally Prod.fst (fun c => c.2.toNat) u checks

def concerns (u : Bytes) : MonitorCall → Bool
  | .check uuid _ => uuid = u
  | .reset _ => true

theorem after_snoc (c : MonitorCall) : m.after (cs ++ [c]) = (m.after cs).perform c := by
  simp [after]

theorem installed_snoc_check (counters : Counters) :
    installed counters (cs ++ [.check u b]) = installed counters cs := by
  simp [installed]

theorem installed_snoc_reset (counters counters' : Counters) :
    installed counters (cs ++ [.reset counters']) = counters' := by
  simp [installed]

theorem sinceReset_snoc_check : sinceReset (cs ++ [.check u b]) = sinceReset cs ++ [(u, b)] := by
  simp [sinceReset]

theorem sinceReset_snoc_reset (counters : Counters) : sinceReset (cs ++ [.reset counters]) = [] := by
  simp [sinceReset]

theorem bytesOf_snoc (checks : List (Bytes × UInt64)) :
    bytesOf k (checks ++ [(u, b)]) = bytesOf k checks + if u = k then b.toNat else 0 := by
  simp [bytesOf]

theorem after_limits : (m.after cs).limits = m.limits := by
  induction cs using List.reverseRecOn with
  | nil => rfl
  | append_singleton cs c ih =>
    rw [after_snoc]
    cases c with
    | check u b => exact check_limits.trans ih
    | reset counters => exact ih

/-- The table is the one last installed plus the bytes checked since, wrapping. -/
theorem after_counters :
    (m.after cs).db.counters[k]? = (installed m.db.counters cs)[k]?.map fun v =>
      UInt64.ofNat (v.toNat + bytesOf k (sinceReset cs)) := by
  induction cs using List.reverseRecOn with
  | nil =>
    cases h : m.db.counters[k]? <;> simp [after, installed, sinceReset, bytesOf, h]
  | append_singleton cs c ih =>
    rw [after_snoc]
    cases c with
    | check u b =>
      rw [installed_snoc_check, sinceReset_snoc_check]
      change ((m.after cs).check u b).2.db.counters[k]? = _
      rw [check_getElem?, ih]
      split
      · rw [Option.map_map]
        congr 1
        funext v
        rw [bytesOf_snoc, if_pos ‹_›, ← Nat.add_assoc]
        simp [UInt64.ofNat_add]
      · rw [bytesOf_snoc, if_neg ‹_›, Nat.add_zero]
    | reset counters =>
      rw [installed_snoc_reset, sinceReset_snoc_reset]
      change counters[k]? = _
      cases h : counters[k]? <;> simp [bytesOf]

theorem mem_after : k ∈ (m.after cs).db.counters ↔ k ∈ installed m.db.counters cs := by
  simp only [Std.ExtTreeMap.mem_iff_isSome_getElem?, after_counters, Option.isSome_map]

theorem check_after_iff :
    ((m.after cs).check u b).1 = true ↔
      ∃ v l, (installed m.db.counters cs)[u]? = some v ∧ m.limits[u]? = some l ∧
        l.toNat < (v.toNat + bytesOf u (sinceReset (cs ++ [.check u b]))) % 2 ^ 64 := by
  rw [check_eq_true_iff, after_limits, after_counters, sinceReset_snoc_check, bytesOf_snoc, if_pos rfl]
  have hsum (v : UInt64) (n : ℕ) :
      (UInt64.ofNat (v.toNat + n) + b).toNat = (v.toNat + (n + b.toNat)) % 2 ^ 64 := by
    rw [UInt64.toNat_add, UInt64.toNat_ofNat', Nat.mod_add_mod, Nat.add_assoc]
  constructor
  · rintro ⟨_, l, hw, hl, hlt⟩
    obtain ⟨v, hv, rfl⟩ := Option.map_eq_some_iff.1 hw
    exact ⟨v, l, hv, hl, by rw [← hsum]; exact hlt⟩
  · rintro ⟨v, l, hv, hl, hlt⟩
    rw [← hsum] at hlt
    exact ⟨_, l, by rw [hv]; rfl, hl, hlt⟩

/-! ### Other uuids do not matter -/

def AgreeOn (u : Bytes) (m m' : UUIDCountersMonitor) : Prop :=
  m.db.counters[u]? = m'.db.counters[u]? ∧ m.limits = m'.limits

theorem AgreeOn.check (h : AgreeOn u m m') :
    (m.check u b).1 = (m'.check u b).1 ∧ AgreeOn u (m.check u b).2 (m'.check u b).2 := by
  refine ⟨?_, ?_, ?_⟩
  · rw [Bool.eq_iff_iff, check_eq_true_iff, check_eq_true_iff, h.1, h.2]
  · rw [check_getElem?, check_getElem?, h.1]
  · simpa using h.2

theorem AgreeOn.check_ne (h : AgreeOn u m m') (hk : k ≠ u) : AgreeOn u (m.check k b).2 m' := by
  refine ⟨?_, ?_⟩
  · rw [check_getElem?, if_neg hk, h.1]
  · simpa using h.2

theorem results_filter (h : AgreeOn u m m') : results u m cs = results u m' (cs.filter (concerns u)) := by
  induction cs generalizing m m' with
  | nil => rfl
  | cons c cs ih =>
    cases c with
    | check k b =>
      by_cases hk : k = u
      · subst hk
        rw [List.filter_cons_of_pos (by simp [concerns])]
        simp only [results, if_true, h.check.1, ih h.check.2]
      · rw [List.filter_cons_of_neg (by simp [concerns, hk])]
        simp only [results, if_neg hk, ih (h.check_ne hk)]
    | reset counters =>
      rw [List.filter_cons_of_pos rfl]
      exact ih ⟨rfl, h.2⟩

theorem results_congr (h : cs.filter (concerns u) = cs'.filter (concerns u)) :
    results u m cs = results u m cs' := by
  have hself : AgreeOn u m m := ⟨rfl, rfl⟩
  rw [results_filter hself, h, ← results_filter hself]

/-! ### Checks between two resets -/

def afterChecks (m : UUIDCountersMonitor) (checks : List (Bytes × UInt64)) : UUIDCountersMonitor :=
  m.after (checks.map fun c => .check c.1 c.2)

variable {checks checks' : List (Bytes × UInt64)}

theorem foldl_checks (acc : List (Bytes × UInt64)) :
    (checks.map fun c => MonitorCall.check c.1 c.2).foldl
      (fun checks c => match c with | .check u b => checks ++ [(u, b)] | .reset _ => []) acc =
      acc ++ checks := by
  induction checks generalizing acc with
  | nil => simp
  | cons c cs ih => rw [List.map_cons, List.foldl_cons, ih]; simp

theorem sinceReset_checks : sinceReset (checks.map fun c => .check c.1 c.2) = checks :=
  foldl_checks []

theorem installed_checks (counters : Counters) :
    installed counters (checks.map fun c => .check c.1 c.2) = counters := by
  unfold installed
  induction checks with
  | nil => rfl
  | cons c cs ih => exact ih

theorem afterChecks_counters :
    (m.afterChecks checks).db.counters[k]? =
      m.db.counters[k]?.map fun v => UInt64.ofNat (v.toNat + bytesOf k checks) := by
  rw [afterChecks, after_counters, installed_checks, sinceReset_checks]

theorem afterChecks_limits : (m.afterChecks checks).limits = m.limits := after_limits

theorem afterChecks_perm (h : checks.Perm checks') : m.afterChecks checks = m.afterChecks checks' := by
  have hdb : (m.afterChecks checks).db.counters = (m.afterChecks checks').db.counters := by
    apply Std.ExtTreeMap.ext_getElem?
    intro k
    rw [afterChecks_counters, afterChecks_counters, bytesOf, bytesOf, Tally.tally_perm h]
  have hlim : (m.afterChecks checks).limits = (m.afterChecks checks').limits := by
    rw [afterChecks_limits, afterChecks_limits]
  calc m.afterChecks checks = ⟨⟨(m.afterChecks checks).db.counters⟩, (m.afterChecks checks).limits⟩ := rfl
    _ = m.afterChecks checks' := by rw [hdb, hlim]

end UUIDCountersMonitor
end EventsCounter
