import EventsCounter.CounterAccounting
import EventsCounter.PublishRound

/-!
# How fresh what is published is

`covered` is what has been handed to `produce` of a uuid, with what the round in progress will still hand
to it. It changes only where the tables are swapped, and there it becomes all that has been counted. So
a round hands over at least what was counted when it began (`round_publishes`), whatever the clock shows:
an event counted in an update interval that a reading ends is handed over by the round after it.
-/

namespace EventsCounter
namespace CounterSide

variable {uuids : List Bytes} {s s' : CounterSide} {l : CounterStep} {ls : List CounterStep} {u : Bytes}

def covered (u : Bytes) (s : CounterSide) : ℕ := published u s + toWalk u s

theorem countedBytes_step (h : step uuids s l = some s') : countedBytes u s ≤ countedBytes u s' := by
  rcases step_cases h with ⟨data, -, -, rfl⟩ | ⟨data, -, -, rfl⟩ | ⟨-, -, rfl⟩ | ⟨fresh, -, -, rfl⟩ |
    ⟨now, rc, walked, e, pending, -, -, rfl⟩ | ⟨walked, -, -, rfl⟩
  case inr.inl =>
    rw [countedBytes, countedBytes, Tally.tally_append]
    exact Nat.le_add_right _ _
  all_goals exact le_refl _

theorem published_step (h : step uuids s l = some s') : published u s ≤ published u s' := by
  rw [published, published, calls_eq_append_sends h, callBytes_append]
  exact Nat.le_add_right _ _

theorem countedBytes_run (h : Runs.run (step uuids) s ls = some s') : countedBytes u s ≤ countedBytes u s' :=
  Runs.run_invariant (I := fun t => countedBytes u s ≤ countedBytes u t) (le_refl _)
    (fun _ _ _ hi hs => hi.trans (countedBytes_step hs)) h

theorem published_run (h : Runs.run (step uuids) s ls = some s') : published u s ≤ published u s' :=
  Runs.run_invariant (I := fun t => published u s ≤ published u t) (le_refl _)
    (fun _ _ _ hi hs => hi.trans (published_step hs)) h

theorem covered_step (h : step uuids s l = some s') (hl : l ≠ .swap) : covered u s' = covered u s := by
  rcases step_cases h with ⟨data, -, -, rfl⟩ | ⟨data, -, -, rfl⟩ | ⟨-, hr, rfl⟩ | ⟨fresh, rfl, -, rfl⟩ |
    ⟨now, rc, walked, e, pending, -, hr, rfl⟩ | ⟨walked, -, hr, rfl⟩
  · rfl
  · rfl
  · simp only [covered, published, toWalk, hr]
  · exact absurd rfl hl
  · -- the entry visited is published with all it holds
    simp only [covered, published, toWalk, hr, callBytes_append, (visitEntry_bytes e now rc).1]
    rw [entryBytes_cons e pending]
    omega
  · simp only [covered, published, toWalk, hr]
    rfl

theorem covered_run (h : Runs.run (step uuids) s ls = some s') (hls : .swap ∉ ls) : covered u s' = covered u s := by
  refine Runs.run_induction (P := fun ls t => .swap ∉ ls → covered u t = covered u s) (fun _ => rfl) ?_ h hls
  intro ls t l t' hi hstep hmem
  rw [List.mem_append, List.mem_singleton, not_or] at hmem
  exact (covered_step hstep (Ne.symm hmem.2)).trans (hi hmem.1)

/-- Nothing that has been counted is left out by the swap. -/
theorem covered_swap (hi : s.Inv uuids) (hu : u ∈ uuids) (hlt : countedBytes u s < 2 ^ 64)
    (h : step uuids s .swap = some s') : covered u s' = countedBytes u s := by
  have hparts : published u s + toWalk u s + amount s.db.counters u = countedBytes u s := hi.outstanding_eq hu hlt
  rcases step_cases h with ⟨data, hl, -, -⟩ | ⟨data, hl, -, -⟩ | ⟨hl, -, -⟩ | ⟨fresh, -, hr, rfl⟩ |
    ⟨now, rc, walked, e, pending, hl, -, -⟩ | ⟨walked, hl, -, -⟩
  case inr.inr.inr.inl =>
    simp only [toWalk, hr] at hparts
    show published u s + entryBytes u s.db.counters.toList = _
    rw [entryBytes_toList]
    omega
  all_goals cases hl

end CounterSide

namespace MainLoop

open CounterSide (covered published countedBytes)

variable {config : Config} {env : Environment} {s s' : MainLoop} {n m i : ℕ} {u : Bytes}

theorem swap_notMem_counts (data : List UUIDBytes) : .swap ∉ data.map CounterStep.count := by
  intro h
  obtain ⟨d, -, hd⟩ := List.mem_map.1 h
  cases hd

theorem inv_stateAt (h : stateAt config env n = some s) : s.side.Inv config.countersUuids := by
  obtain ⟨ls, hls⟩ := counterSide_run h
  exact CounterSide.inv_run hls

theorem step_countedBytes (h : step config env s n = some s') : countedBytes u s.side ≤ countedBytes u s'.side := by
  obtain ⟨side, hrun, rfl⟩ := step_side rfl h
  exact CounterSide.countedBytes_run hrun

theorem step_published (h : step config env s n = some s') : published u s.side ≤ published u s'.side := by
  obtain ⟨side, hrun, rfl⟩ := step_side rfl h
  exact CounterSide.published_run hrun

theorem stateAt_mono {f : MainLoop → ℕ} (hf : ∀ n s s', step config env s n = some s' → f s ≤ f s') {t : MainLoop}
    (hn : stateAt config env n = some s) (hm : stateAt config env m = some t) (hle : n ≤ m) : f s ≤ f t := by
  induction m, hle using Nat.le_induction generalizing t with
  | base => rw [Option.some.inj (hn.symm.trans hm)]
  | succ m hle ih =>
    rw [stateAt_succ] at hm
    obtain ⟨v, hv, hstep⟩ := Option.bind_eq_some_iff.1 hm
    exact (ih hv).trans (hf m v t hstep)

/-! ### One round -/

theorem ticks_covered (h : step config env s n = some s') (hpc : s.pc = .ticks)
    (hround : ∀ fresh, s.side.round ≠ .built fresh) : covered u s'.side = covered u s.side := by
  obtain ⟨side, hrun, rfl⟩ := step_side rfl h
  refine CounterSide.covered_run hrun ?_
  rw [sideSteps, hpc, List.mem_append, not_or]
  refine ⟨swap_notMem_counts _, ?_⟩
  rw [List.mem_singleton, ticksStep, work_round]
  cases hcase : s.side.round with
  | idle => simp
  | built fresh => exact absurd hcase (hround fresh)
  | walking walked pending => cases pending <;> simp

theorem swap_covered (hs : stateAt config env n = some s) (h : step config env s n = some s') (hpc : s.pc = .ticks)
    {fresh : Counters} (hround : s.side.round = .built fresh) (hu : u ∈ config.countersUuids)
    (hlt : countedBytes u s'.side < 2 ^ 64) : covered u s'.side = countedBytes u s'.side := by
  obtain ⟨side, hrun, rfl⟩ := step_side rfl h
  rw [sideSteps, hpc, Runs.run_append] at hrun
  obtain ⟨t, hcounts, hswap⟩ := Option.bind_eq_some_iff.1 hrun
  rw [ticksStep, work_round, hround, Runs.run_cons] at hswap
  obtain ⟨t', ht', heq⟩ := Option.bind_eq_some_iff.1 hswap
  obtain rfl : t' = s'.side := Option.some.inj heq
  obtain ⟨ls, hls⟩ := counterSide_run hs
  have hall : Runs.run (CounterSide.step config.countersUuids) (CounterSide.init config.countersUuids)
      (ls ++ (env.consumed n).map .count) = some t := by
    rw [Runs.run_append, hls]
    exact hcounts
  have hinv : t.Inv config.countersUuids := CounterSide.inv_run hall
  have hcounted : countedBytes u t ≤ countedBytes u s'.side := CounterSide.countedBytes_step ht'
  have hsame : countedBytes u s'.side = countedBytes u t := by
    rcases CounterSide.step_cases ht' with ⟨data, hl, -, -⟩ | ⟨data, hl, -, -⟩ | ⟨hl, -, -⟩ | ⟨fresh, -, -, hs'⟩ |
      ⟨now, rc, walked, e, pending, hl, -, -⟩ | ⟨walked, hl, -, -⟩
    case inr.inr.inr.inl => rw [hs']; rfl
    all_goals cases hl
  rw [hsame]
  exact CounterSide.covered_swap hinv hu (by omega) ht'

/-- From the swap on, what a round covers stays the same. -/
theorem RoundSpan.covered_walking (h : RoundSpan config env n m i) {w t : MainLoop} {entries : List (Bytes × UInt64)}
    (hw : stateAt config env (n + 2) = some w) (hround : w.side.round = .walking [] entries)
    (ht : stateAt config env m = some t) : published u t.side = covered u w.side := by
  obtain ⟨rfl, hvisits⟩ := h.visits w entries hw hround
  have hstep : ∀ j ≤ entries.length, ∀ v v', stateAt config env (n + 2 + j) = some v →
      stateAt config env (n + 2 + j + 1) = some v' → covered u v'.side = covered u v.side := by
    intro j hj v v' hv hv'
    obtain ⟨v₀, hv₀, hwalking, -⟩ := hvisits j hj
    obtain rfl : v = v₀ := Option.some.inj (hv.symm.trans hv₀)
    obtain ⟨v₁, hv₁, hpc, -⟩ := h.ticks (n + 2 + j) (by omega) (by omega)
    obtain rfl : v = v₁ := Option.some.inj (hv.symm.trans hv₁)
    rw [stateAt_succ, hv] at hv'
    exact ticks_covered hv' hpc (by rw [hwalking]; rintro fresh ⟨⟩)
  have hall : ∀ j ≤ entries.length + 1, ∀ v, stateAt config env (n + 2 + j) = some v →
      covered u v.side = covered u w.side := by
    intro j
    induction j with
    | zero => exact fun _ v hv => by rw [Option.some.inj (hv.symm.trans hw)]
    | succ j ih =>
      intro hj v hv
      obtain ⟨v₀, hv₀, -⟩ := hvisits j (by omega)
      exact (hstep j (by omega) v₀ v hv₀ hv).trans (ih (by omega) v₀ hv₀)
  have hidle : t.side.round = .idle := by
    obtain ⟨t', ht', hpc, -⟩ := h.outer
    obtain rfl : t = t' := Option.some.inj (ht.symm.trans ht')
    exact round_idle ht (by rw [hpc]; simp)
  rw [← hall (entries.length + 1) (le_refl _) t ht, covered, CounterSide.toWalk, hidle, Nat.add_zero]

/-- Every publish round ends, and from its end on no less has been handed to `produce` of a configured uuid
than was counted of it when the round began; at its end, what has not been is in the table. -/
theorem round_publishes (config : Config) (env : Environment) (hmonitor : config.countersMonitorConfig.period ≠ 0)
    (hupdate : config.uuidCounterConfig.updatePeriod ≠ 0) (n i : ℕ) (s : MainLoop)
    (hs : stateAt config env n = some s) (h : RoundAfter config env n i) :
    ∃ m t, RoundSpan config env n m i ∧ stateAt config env m = some t ∧
      ∀ u ∈ config.countersUuids, countedBytes u t.side < 2 ^ 64 →
        published u t.side + amount t.side.db.counters u = countedBytes u t.side ∧
        ∀ k v, m ≤ k → stateAt config env k = some v → countedBytes u s.side ≤ published u v.side := by
  have hp : Periodic config := ⟨hmonitor, hupdate⟩
  obtain ⟨m, hspan⟩ := h.span hp
  obtain ⟨t, ht, htpc, -⟩ := hspan.outer
  refine ⟨m, t, hspan, ht, fun u hu hlt => ?_⟩
  have hparts : published u t.side + t.side.toWalk u + amount t.side.db.counters u = countedBytes u t.side :=
    (inv_stateAt ht).outstanding_eq hu hlt
  rw [CounterSide.toWalk, round_idle ht (by rw [htpc]; simp), Nat.add_zero] at hparts
  refine ⟨hparts, fun k v hmk hv => ?_⟩
  -- the step that swaps, and the state it leads to
  obtain ⟨b, w, hb, hw, -, hround⟩ := hspan.swap
  obtain ⟨s₀, hs₀, hpc, hidle, rfl⟩ := h
  obtain rfl : s = s₀ := Option.some.inj (hs.symm.trans hs₀)
  obtain ⟨b', hb', hsb⟩ := exists_next hp hs
  obtain rfl : b = b' := Option.some.inj (hb.symm.trans hb')
  obtain ⟨hbpc, -, hfresh⟩ := step_build hsb hpc hidle
  obtain ⟨w', hw', hbw⟩ := exists_next hp hb
  obtain rfl : w = w' := Option.some.inj (hw.symm.trans hw')
  have hle : n + 2 ≤ m := by
    have := (hspan.visits w _ hw hround).1
    omega
  have hafter : countedBytes u w.side ≤ countedBytes u t.side :=
    stateAt_mono (fun _ _ _ hstep => step_countedBytes hstep) hw ht hle
  calc countedBytes u s.side
      ≤ countedBytes u w.side := (step_countedBytes hsb).trans (step_countedBytes hbw)
    _ = covered u w.side := (swap_covered hb hbw hbpc hfresh hu (by omega)).symm
    _ = published u t.side := (hspan.covered_walking hw hround ht).symm
    _ ≤ published u v.side := stateAt_mono (fun _ _ _ hstep => step_published hstep) ht hv hmk

def tenSecondRounds : Config :=
  ⟨[lit "a"], ⟨⟨[], [], [], []⟩, [], [], [], 10⟩, ⟨⟨[], [], [], []⟩, [], [], 60, 0, ∅⟩⟩

/-- Five bytes are counted before the first step, and the first reading is past the target. -/
def pastTheTarget : Environment :=
  ⟨fun i => if i = 0 then 1 else 12, fun _ => ⟨none, 0, 0, 0⟩, fun _ => 12, fun _ => .errNoError,
    fun n => if n = 0 then [UUIDBytes.make (lit "a") 5] else []⟩

/-- The round that the fifth step begins is over after the eighth. -/
theorem round_publishes_first :
    ∃ t, stateAt tenSecondRounds pastTheTarget 9 = some t ∧ 5 ≤ published (lit "a") t.side := by
  have hbegin : (stateAt tenSecondRounds pastTheTarget 5).map (fun s =>
      (s.pc, s.readings, (CounterSide.step tenSecondRounds.countersUuids s.side .build).isSome)) =
        some (.ticks, 1, true) := by decide
  have hcounted : (stateAt tenSecondRounds pastTheTarget 5).map (fun s => countedBytes (lit "a") s.side) = some 5 := by
    decide
  have hend : (stateAt tenSecondRounds pastTheTarget 9).map (fun s => (s.pc, countedBytes (lit "a") s.side)) =
      some (.outer, 5) := by decide
  have hbetween : ∀ k < 9,
      (stateAt tenSecondRounds pastTheTarget k).map (fun s => decide (s.pc = .outer ∧ s.readings = 1)) ≠ some true := by
    decide
  obtain ⟨s, hs, hv⟩ := Option.map_eq_some_iff.1 hbegin
  obtain ⟨e, he, hve⟩ := Option.map_eq_some_iff.1 hend
  rw [hs, Option.map_some, Option.some.injEq] at hcounted
  simp only [Prod.mk.injEq] at hv hve
  obtain ⟨hpc, hreadings, hbuild⟩ := hv
  have hidle : s.side.round = .idle := by
    obtain ⟨side, hside⟩ := Option.isSome_iff_exists.1 hbuild
    rcases CounterSide.step_cases hside with ⟨data, hl, -, -⟩ | ⟨data, hl, -, -⟩ | ⟨-, hround, -⟩ | ⟨fresh, hl, -, -⟩ |
      ⟨now, rc, walked, e, pending, hl, -, -⟩ | ⟨walked, hl, -, -⟩
    case inr.inr.inl => exact hround
    all_goals cases hl
  obtain ⟨m, t, hspan, ht, hpublishes⟩ := round_publishes tenSecondRounds pastTheTarget (by decide) (by decide) 5 1 s hs
    ⟨s, hs, hpc, hidle, hreadings⟩
  obtain ⟨t', ht', hpc', hr'⟩ := hspan.outer
  have hm : m = 9 := by
    rcases lt_trichotomy m 9 with hlt | heq | hgt
    · exact absurd (by rw [ht']; simp [hpc', hr']) (hbetween m hlt)
    · exact heq
    · obtain ⟨e', he', hpce, -⟩ := hspan.ticks 9 (by decide) hgt
      rw [Option.some.inj (he.symm.trans he'), hpce] at hve
      cases hve.1
  subst hm
  obtain rfl : e = t := Option.some.inj (he.symm.trans ht)
  have hlater := (hpublishes (lit "a") (by decide) (by omega)).2 9 e (le_refl _) he
  exact ⟨e, he, by omega⟩

end MainLoop
end EventsCounter
