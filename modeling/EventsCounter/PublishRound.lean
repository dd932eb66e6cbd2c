import EventsCounter.MainLoop

/-!
# A publish round

One pass of `main` through its counter ticks, which begin with no round in progress (`round_idle`): a
fresh table is built and swapped for the one the worker has counted in, the entries of that one are
visited one after the other, and `main` goes back to the outer loop. The worker may count between any
two of these steps; it changes neither the table swapped out nor the calls made.

A round depends on no clock, so that it comes to its end in every run that does not exit
(`RoundAfter.span`).
-/

namespace EventsCounter
namespace MainLoop

/-- The `n`-th step of `main` starts a publish round, the clock having been read `i` times. -/
def RoundAfter (config : Config) (env : Environment) (n i : ℕ) : Prop :=
  ∃ s, stateAt config env n = some s ∧ s.pc = .ticks ∧ s.side.round = .idle ∧ s.readings = i

/-- What visiting the entries hands to `produce`. -/
def handed (entries : List (Bytes × UInt64)) : List UUIDBytes :=
  (entries.filter fun e => decide (e.2 > 0)).map fun e => .make e.1 e.2

/-- From the step `n` on `main` is in the counter ticks, until it is back in the outer loop at `m`. Its
second step there swaps the tables; every later one but the last visits the next entry of the table
swapped out, which leaves it at zero. -/
structure RoundSpan (config : Config) (env : Environment) (n m i : ℕ) : Prop where
  ticks : ∀ k, n ≤ k → k < m → ∃ s, stateAt config env k = some s ∧ s.pc = .ticks ∧ s.readings = i
  outer : ∃ s, stateAt config env m = some s ∧ s.pc = .outer ∧ s.readings = i
  swap : ∃ s t, stateAt config env (n + 1) = some s ∧ stateAt config env (n + 2) = some t ∧
    t.side.db.counters = makeUuidCountersBoostrapDb config.countersUuids ∧
    t.side.round = .walking [] (s.work (env.consumed (n + 1))).side.db.counters.toList
  visits : ∀ s entries, stateAt config env (n + 2) = some s → s.side.round = .walking [] entries →
    m = n + 2 + entries.length + 1 ∧ ∀ j ≤ entries.length, ∃ t, stateAt config env (n + 2 + j) = some t ∧
      t.side.round = .walking ((entries.take j).map fun e => (e.1, 0)) (entries.drop j) ∧
      t.side.calls.map ProduceCall.counter = s.side.calls.map ProduceCall.counter ++ handed (entries.take j)

variable {config : Config} {env : Environment} {s s' : MainLoop} {n m i j : ℕ}

/-! ### The steps of a round -/

theorem round_idle (h : stateAt config env n = some s) (hpc : s.pc ≠ .ticks) : s.side.round = .idle := by
  refine stateAt_induction (P := fun _ s => s.pc ≠ .ticks → s.side.round = .idle) (fun s hs _ => ?_)
    (fun n s s' _ hi hs => ?_) h hpc
  · obtain ⟨next, -, hs⟩ := Option.bind_eq_some_iff.1 hs
    cases hs
    rfl
  · have hround := work_round (s := s) (env.consumed n)
    rcases advance_cases hs with ⟨next, hpc, -, rfl⟩ | ⟨hpc, rfl⟩ | ⟨reset, next, hpc, -, rfl⟩ | ⟨ub, hpc, -, rfl⟩ |
      ⟨ub, hpc, rfl⟩ | ⟨side, hpc, hside, rfl⟩
    case inr.inr.inr.inr.inr =>
      -- only the last piece of the counter ticks leaves them
      unfold ticksStep at hside ⊢
      split at hside
      · exact fun hne => absurd rfl hne
      · exact fun hne => absurd rfl hne
      · exact fun hne => absurd rfl hne
      · rename_i walked hwalked
        simp only [CounterSide.step, hwalked, Option.some.injEq] at hside
        rw [← hside]
        exact fun _ => rfl
    all_goals
      rw [work_pc] at hpc
      exact fun _ => hround.trans (hi (by rw [hpc]; simp))

@[simp] theorem work_calls (data : List UUIDBytes) : (s.work data).side.calls = s.side.calls := by
  unfold work
  induction data generalizing s with
  | nil => rfl
  | cons d data ih =>
    have hd : (s.side.run d).calls = s.side.calls := by
      unfold CounterSide.run
      split <;> rfl
    exact (ih (s := { s with side := s.side.run d })).trans hd

theorem step_ticks (h : step config env s n = some s') (hpc : s.pc = .ticks) :
    s'.readings = s.readings ∧
      CounterSide.step config.countersUuids (s.work (env.consumed n)).side
        ((s.work (env.consumed n)).ticksStep (env.currentUnixTimestamp n) (env.produceRc n)).1 = some s'.side ∧
      s'.pc = ((s.work (env.consumed n)).ticksStep (env.currentUnixTimestamp n) (env.produceRc n)).2 := by
  simp only [step, advance, work_pc, hpc, Option.bind_eq_bind, Option.bind_eq_some_iff, Option.some.injEq] at h
  obtain ⟨side, hside, rfl⟩ := h
  exact ⟨rfl, hside, rfl⟩

theorem step_build (h : step config env s n = some s') (hpc : s.pc = .ticks) (hround : s.side.round = .idle) :
    s'.pc = .ticks ∧ s'.readings = s.readings ∧
      s'.side.round = .built (makeUuidCountersBoostrapDb config.countersUuids) := by
  obtain ⟨hreadings, hside, hpc'⟩ := step_ticks h hpc
  rw [← work_round (env.consumed n)] at hround
  simp only [ticksStep, hround] at hside hpc'
  simp only [CounterSide.step, hround, Option.some.injEq] at hside
  exact ⟨hpc', hreadings, by rw [← hside]⟩

theorem step_swap (h : step config env s n = some s') (hpc : s.pc = .ticks) {fresh : Counters}
    (hround : s.side.round = .built fresh) :
    s'.pc = .ticks ∧ s'.readings = s.readings ∧ s'.side.db.counters = fresh ∧
      s'.side.round = .walking [] (s.work (env.consumed n)).side.db.counters.toList := by
  obtain ⟨hreadings, hside, hpc'⟩ := step_ticks h hpc
  rw [← work_round (env.consumed n)] at hround
  simp only [ticksStep, hround] at hside hpc'
  simp only [CounterSide.step, hround, Option.some.injEq] at hside
  exact ⟨hpc', hreadings, by rw [← hside]; rfl, by rw [← hside]; rfl⟩

theorem step_visit (h : step config env s n = some s') (hpc : s.pc = .ticks) {walked pending : List (Bytes × UInt64)}
    {e : Bytes × UInt64} (hround : s.side.round = .walking walked (e :: pending)) :
    s'.pc = .ticks ∧ s'.readings = s.readings ∧ s'.side.round = .walking (walked ++ [(e.1, 0)]) pending ∧
      s'.side.calls.map ProduceCall.counter = s.side.calls.map ProduceCall.counter ++ handed [e] := by
  obtain ⟨hreadings, hside, hpc'⟩ := step_ticks h hpc
  rw [← work_round (env.consumed n)] at hround
  simp only [ticksStep, hround] at hside hpc'
  simp only [CounterSide.step, hround, Option.some.injEq] at hside
  refine ⟨hpc', hreadings, ?_, ?_⟩
  · rw [← hside, (CounterSide.visitEntry_bytes (u := []) e _ _).2]
  · have hcalls : (visitEntry e (env.currentUnixTimestamp n) (env.produceRc n)).2.map ProduceCall.counter =
        handed [e] := by
      unfold visitEntry handed
      split <;> simp [*]
    rw [← hside, ← hcalls, List.map_append, work_calls]

theorem step_leave (h : step config env s n = some s') (hpc : s.pc = .ticks) {walked : List (Bytes × UInt64)}
    (hround : s.side.round = .walking walked []) : s'.pc = .outer ∧ s'.readings = s.readings := by
  obtain ⟨hreadings, -, hpc'⟩ := step_ticks h hpc
  rw [← work_round (env.consumed n)] at hround
  simp only [ticksStep, hround] at hpc'
  exact ⟨hpc', hreadings⟩

/-! ### The whole round -/

theorem exists_visited (hp : Periodic config) {entries : List (Bytes × UInt64)} (h : stateAt config env n = some s)
    (hpc : s.pc = .ticks) (hround : s.side.round = .walking [] entries) (hj : j ≤ entries.length) :
    ∃ t, stateAt config env (n + j) = some t ∧ t.pc = .ticks ∧ t.readings = s.readings ∧
      t.side.round = .walking ((entries.take j).map fun e => (e.1, 0)) (entries.drop j) ∧
      t.side.calls.map ProduceCall.counter = s.side.calls.map ProduceCall.counter ++ handed (entries.take j) := by
  induction j with
  | zero => exact ⟨s, h, hpc, rfl, hround, by simp [handed]⟩
  | succ j ih =>
    obtain ⟨t, ht, htpc, htr, htround, htcalls⟩ := ih (by omega)
    obtain ⟨v, hv, htv⟩ := exists_next hp ht
    rw [List.drop_eq_getElem_cons (by omega)] at htround
    obtain ⟨hvpc, hvr, hvround, hvcalls⟩ := step_visit htv htpc htround
    have htake : entries.take (j + 1) = entries.take j ++ [entries[j]] := List.take_succ_eq_append_getElem (by omega)
    refine ⟨v, hv, hvpc, hvr.trans htr, ?_, ?_⟩
    · rw [hvround, htake, List.map_append]
      rfl
    · rw [hvcalls, htcalls, htake, handed, handed, handed, List.filter_append, List.map_append, List.append_assoc]

theorem RoundAfter.span (hp : Periodic config) (h : RoundAfter config env n i) :
    ∃ m, RoundSpan config env n m i := by
  obtain ⟨s, hs, hpc, hround, rfl⟩ := h
  obtain ⟨t, ht, hst⟩ := exists_next hp hs
  obtain ⟨htpc, htr, htround⟩ := step_build hst hpc hround
  obtain ⟨v, hv, htv⟩ := exists_next hp ht
  obtain ⟨hvpc, hvr, hvdb, hvround⟩ := step_swap htv htpc htround
  generalize hentries : (t.work (env.consumed (n + 1))).side.db.counters.toList = entries at hvround
  have hvisited := fun j => @exists_visited config env v (n + 2) j hp entries hv hvpc hvround
  obtain ⟨w, hw, hwpc, hwr, hwround, -⟩ := hvisited entries.length (le_refl _)
  rw [List.drop_length] at hwround
  obtain ⟨x, hx, hwx⟩ := exists_next hp hw
  obtain ⟨hxpc, hxr⟩ := step_leave hwx hwpc hwround
  refine ⟨n + 2 + entries.length + 1, ?_, ⟨x, hx, hxpc, by omega⟩, ⟨t, v, ht, hv, hvdb, by rw [hvround, hentries]⟩, ?_⟩
  · intro k hnk hkm
    obtain ⟨j, rfl⟩ := Nat.exists_eq_add_of_le hnk
    rcases j with - | - | j
    · exact ⟨s, hs, hpc, rfl⟩
    · exact ⟨t, ht, htpc, htr⟩
    · obtain ⟨y, hy, hypc, hyr, -⟩ := hvisited j (by omega)
      exact ⟨y, by rw [← hy]; congr 1; omega, hypc, by omega⟩
  · intro v' entries' hv' hround'
    obtain rfl : v = v' := Option.some.inj (hv.symm.trans hv')
    obtain rfl : entries = entries' := (Round.walking.inj (hvround.symm.trans hround')).2
    refine ⟨rfl, fun j hj => ?_⟩
    obtain ⟨y, hy, -, -, hyround, hycalls⟩ := hvisited j hj
    exact ⟨y, hy, hyround, hycalls⟩

end MainLoop
end EventsCounter
