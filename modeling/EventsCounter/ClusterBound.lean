import EventsCounter.Cluster

/-!
# How many monitors hide how much

With at most `k` monitors, the bytes published of a uuid stay without an alert exactly if they can be
packed, message by message, into `k` counters that keep within the limit
(`detects_with_monitors_iff`). A total above `k` times the limit cannot.
-/

namespace EventsCounter
namespace Cluster

variable {uuids : List Bytes} {limits : Counters} {u : Bytes} {k n : ℕ}

/-- As `DetectsLimit`, for the topics whose partitions are assigned to the monitors below `k`. -/
def DetectsWith (k : ℕ) (uuids : List Bytes) (limits : Counters) (s : CounterSide) (u : Bytes) : Prop :=
  ∀ (t : Topology) (ls : List (ClusterStep t)) (c : Cluster t), (∀ partition, t.assignment partition < k) →
    Runs.run (step uuids) (init t uuids limits) ls = some c → c.counter = s → c.topic = [] →
      ((∃ a ∈ c.alerts, a.2.uuid = u) ↔ ∃ l, limits[u]? = some l ∧ l.toNat < s.succeeded u)

/-- Whoever checks is assigned some partition. -/
theorem checked_lt {t : Topology} (ht : ∀ partition, t.assignment partition < k) {ls : List (ClusterStep t)}
    {c : Cluster t} (h : Runs.run (step uuids) (init t uuids limits) ls = some c) : ∀ e ∈ c.checked, e.1 < k := by
  refine Runs.run_invariant (I := fun c : Cluster t => ∀ e ∈ c.checked, e.1 < k) ?_ ?_ h
  · intro e he
    cases he
  · intro c l c' hi hs
    cases l with
    | counter l placed =>
      obtain ⟨s, -, rfl⟩ := Option.map_eq_some_iff.1 hs
      exact hi
    | check i =>
      obtain ⟨⟨partition, message⟩, -, rfl⟩ := Option.map_eq_some_iff.1 hs
      intro e he
      rcases List.mem_append.1 he with he | he
      · exact hi e he
      · rw [List.mem_singleton.1 he]
        exact ht partition

/-- The messages of a run of the counter side can be checked at the monitors up to `n`, in any order. -/
theorem exists_run_spread (limits : Counters) {s : CounterSide} {ls : List CounterStep}
    (h : Runs.run (CounterSide.step uuids) (CounterSide.init uuids) ls = some s) {order : List (ℕ × CounterMessage)}
    (horder : s.sent.Perm (order.map Prod.snd)) (hle : ∀ e ∈ order, e.1 ≤ n) :
    ∃ ls', ∃ c : Cluster (.spread n), Runs.run (step uuids) (init (.spread n) uuids limits) ls' = some c ∧
      c.counter = s ∧ c.topic = [] ∧ c.checked = order := by
  obtain ⟨placing, hplacing, hplaced⟩ := Dealing.exists_perm_of_map horder
  have htopic : (placing.map (spreadTo n)).map Prod.snd = s.sent := by
    rw [List.map_map]
    exact hplaced
  obtain ⟨ls₁, hrun₁⟩ := exists_run_placed limits ⟨0, Nat.succ_pos n⟩ h (placing.map (spreadTo n)) htopic
  have hassigned : order.Perm ((placing.map (spreadTo n)).map fun e => ((Topology.spread n).assignment e.1, e.2)) := by
    rw [map_spreadTo fun e he => hle e (hplacing.mem_iff.1 he)]
    exact hplacing.symm
  obtain ⟨ls₂, c, hrun₂, hcounter, hempty, hchecked⟩ := exists_run_checked uuids order
    { init (.spread n) uuids limits with counter := s, topic := placing.map (spreadTo n) } hassigned
  refine ⟨ls₁ ++ ls₂, c, ?_, hcounter, hempty, hchecked⟩
  rw [Runs.run_append, hrun₁]
  exact hrun₂

/-- The messages of other uuids are all checked at the monitor `0`. -/
def gather (u : Bytes) (order : List (ℕ × CounterMessage)) : List (ℕ × CounterMessage) :=
  order.map fun e => if e.2.uuid = u then e else (0, e.2)

theorem map_snd_gather (order : List (ℕ × CounterMessage)) : (gather u order).map Prod.snd = order.map Prod.snd := by
  rw [gather, List.map_map]
  refine List.map_congr_left fun e _ => ?_
  rw [Function.comp_apply]
  split <;> rfl

theorem dealt_gather (order : List (ℕ × CounterMessage)) : dealt u (gather u order) = dealt u order := by
  induction order with
  | nil => rfl
  | cons e order ih =>
    unfold dealt gather at ih ⊢
    by_cases he : e.2.uuid = u <;> simp [he, ih]

theorem spread_assignment_lt (hk : 0 < k) (partition : Fin (Topology.spread (k - 1)).partitions) :
    (Topology.spread (k - 1)).assignment partition < k := by
  have hlt : partition.val < k - 1 + 1 := partition.isLt
  have hval : (Topology.spread (k - 1)).assignment partition = partition.val := rfl
  omega

/-- An order that deals the bytes of `u` out as given, with no other monitors than the dealing has. -/
theorem exists_order_lt (hk : 0 < k) {s : CounterSide}
    (hmade : ∀ call ∈ s.calls, ∃ now, call.request = (produce call.counter now call.produceRc).1)
    {amounts : List (ℕ × ℕ)} (hamounts : (amounts.map Prod.snd).Perm (s.accepted u)) (hlt : ∀ e ∈ amounts, e.1 < k) :
    ∃ order : List (ℕ × CounterMessage), s.sent.Perm (order.map Prod.snd) ∧ dealt u order = amounts ∧
      ∀ e ∈ order, e.1 < k := by
  obtain ⟨order, horder, rfl⟩ := exists_order hmade hamounts
  -- who checks the messages of the other uuids does not matter
  refine ⟨gather u order, (map_snd_gather order).symm ▸ horder, dealt_gather order, ?_⟩
  intro e he
  obtain ⟨e', he', rfl⟩ := List.mem_map.1 he
  by_cases hu : e'.2.uuid = u
  · rw [if_pos hu]
    exact hlt (e'.1, e'.2.value.toNat) (List.mem_map.2 ⟨e', List.mem_filter.2 ⟨he', by simpa using hu⟩, rfl⟩)
  · rw [if_neg hu]
    exact hk

/-- With at most `k` monitors, whatever the partitions: the alert for `u` is the limit test on all that
was published if and only if the bytes cannot be packed into `k` counters within the limit although
the total is above it. While no counter can wrap around, a total above `k` times the limit is
enough for the alert. -/
theorem detects_with_monitors_iff (uuids : List Bytes) (limits : Counters) (ls : List CounterStep)
    (s : CounterSide) (h : Runs.run (CounterSide.step uuids) (CounterSide.init uuids) ls = some s) (u : Bytes)
    (k : ℕ) (hk : 0 < k) :
    (DetectsWith k uuids limits s u ↔ ∀ l, limits[u]? = some l →
      s.succeeded u ≤ l.toNat ∨ ¬ Dealing.Packs (2 ^ 64) l.toNat k (s.accepted u)) ∧
    (s.succeeded u < 2 ^ 64 → (∀ l, limits[u]? = some l → k * l.toNat < s.succeeded u) →
      DetectsWith k uuids limits s u) := by
  have hiff : DetectsWith k uuids limits s u ↔ ∀ l, limits[u]? = some l →
      s.succeeded u ≤ l.toNat ∨ ¬ Dealing.Packs (2 ^ 64) l.toNat k (s.accepted u) := by
    constructor
    · intro hdetects l hl
      by_contra hneither
      push Not at hneither
      obtain ⟨hover, amounts, hperm, hlt, hwithin⟩ := hneither
      obtain ⟨order, horder, hdealt, horderLt⟩ := exists_order_lt hk (calls_made h) hperm hlt
      obtain ⟨ls', c, hrun, hcounter, htopic, rfl⟩ := exists_run_spread (n := k - 1) limits h horder
        fun e he => by have := horderLt e he; omega
      have hraised := (hdetects _ ls' c (spread_assignment_lt hk) hrun hcounter htopic).2 ⟨l, hl, hover⟩
      obtain ⟨-, l', hl', m, hm⟩ := (raised_iff (inv_run hrun)).1 hraised
      obtain rfl : l = l' := Option.some.inj (hl.symm.trans hl')
      rw [hdealt] at hm
      exact hm (hwithin m)
    · rintro hcondition t ls' c ht hrun rfl htopic
      have hi := inv_run hrun
      have hperm := dealt_perm (u := u) hi htopic (calls_made h)
      rw [raised_iff hi]
      constructor
      · rintro ⟨-, l, hl, m, hm⟩
        refine ⟨l, hl, ?_⟩
        by_contra hle
        have hsum := Dealing.sum_dealtTo_le m (dealt u c.checked)
        rw [hperm.sum_eq, CounterSide.sum_accepted] at hsum
        exact hm (Dealing.staysWithin_of_sum_le (by omega))
      · rintro ⟨l, hl, hover⟩
        refine ⟨mem_uuids_of_succeeded h (Nat.zero_lt_of_lt hover), l, hl, ?_⟩
        by_contra hnone
        push Not at hnone
        rcases hcondition l hl with hle | hpacks
        · exact absurd hover (Nat.not_lt.2 hle)
        · refine hpacks ⟨dealt u c.checked, hperm, ?_, hnone⟩
          intro e he
          obtain ⟨e', he', rfl⟩ := List.mem_map.1 he
          exact checked_lt ht hrun e' (List.mem_filter.1 he').1
  refine ⟨hiff, fun hlt hover => hiff.2 fun l hl => .inr fun hpacks => ?_⟩
  have hle := Dealing.sum_le_of_packs (by rw [CounterSide.sum_accepted]; exact hlt) hpacks
  rw [CounterSide.sum_accepted] at hle
  exact absurd (hover l hl) (Nat.not_lt.2 hle)

/-- Four messages of six bytes against a limit of ten: with two monitors one of them has two. -/
theorem detects_with_monitors_iff_four :
    ∃ s, s.accepted (lit "a") = [6, 6, 6, 6] ∧
      DetectsWith 2 [lit "a"] ((∅ : Counters).insert (lit "a") 10) s (lit "a") := by
  set ls := (List.replicate 4 [CounterStep.count (.make (lit "a") 6), .build, .swap, .visit 0 .errNoError, .leave]).flatten
    with hls
  have hrun : (Runs.run (CounterSide.step [lit "a"]) (CounterSide.init [lit "a"]) ls).map
      (fun s => (s.succeeded (lit "a"), s.accepted (lit "a"))) = some (24, [6, 6, 6, 6]) := by
    rw [hls]
    decide
  obtain ⟨s, hs, hv⟩ := Option.map_eq_some_iff.1 hrun
  obtain ⟨hsucceeded, haccepted⟩ := Prod.mk.inj hv
  refine ⟨s, haccepted, (detects_with_monitors_iff _ _ _ s hs (lit "a") 2 (by decide)).2 (by omega) ?_⟩
  intro l hl
  obtain rfl : 10 = l := Option.some.inj (by simpa using hl)
  rw [hsucceeded]
  decide

end Cluster
end EventsCounter
