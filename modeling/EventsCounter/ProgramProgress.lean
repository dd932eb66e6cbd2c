import EventsCounter.Program

/-!
# Neither thread of the program holds the other up

A thread waits only for the mutex, and the other one has it only inside a critical section, of which it
never has more than three accesses and the release before it. While `main` is in its loops the worker
does not finish (`Alive`); so each of them can move after at most four pieces of the other, whatever the
interleaving so far (`threads_never_block`).
-/

namespace EventsCounter
namespace Program

open CounterThreads (Lifecycle)
open Guarded (Phase)

/-- What holds of the two threads while `main` is in its loops. -/
structure Alive (p : Program) : Prop where
  lifecycle : Lifecycle p.threads
  running : p.threads.running = true
  worker : p.threads.worker ≠ .done
  ticks : p.threads.owner ≠ .round .idle → p.main.pc = .ticks
  pieces : ∀ rest r, p.threads.shared.phase .owner = .inside rest r → rest.length ≤ 3

variable {config : Config} {time : ℕ → Seconds} {fetched : ℕ → Fetched} {p p' : Program} {threads : CounterThreads}
  {uuids : List Bytes} {now : UInt64} {produceRc : RdKafkaErrorCode} {answer : UUIDBytes} {piece : ThreadStep} {pc : Pc}

/-! ### The threads stay alive -/

theorem worker_phase_owner (h : p.threads.workerStep answer = some threads) :
    threads.shared.phase .owner = p.threads.shared.phase .owner := by
  rcases CounterThreads.workerStep_cases h with ⟨-, rfl⟩ | ⟨-, -, rfl⟩ | ⟨-, -, rfl⟩ | ⟨data, shared, -, hlock, rfl⟩ |
    ⟨data, shared, -, hpiece, rfl⟩ | ⟨data, shared, -, hunlock, rfl⟩ | ⟨data, rc, -, rfl⟩
  · rfl
  · rfl
  · rfl
  · obtain ⟨-, -, rfl⟩ := Guarded.State.lock_cases hlock
    simp
  · obtain ⟨q, rest, r, -, rfl⟩ := Guarded.State.piece_cases hpiece
    simp
  · obtain ⟨r, -, rfl⟩ := Guarded.State.unlock_cases hunlock
    simp
  · rfl

theorem worker_not_done (hrunning : p.threads.running = true) (h : p.threads.workerStep answer = some threads) :
    threads.worker ≠ .done := by
  rcases CounterThreads.workerStep_cases h with ⟨-, rfl⟩ | ⟨-, -, rfl⟩ | ⟨-, -, rfl⟩ | ⟨data, shared, -, -, rfl⟩ |
    ⟨data, shared, hw, -, rfl⟩ | ⟨data, shared, -, -, rfl⟩ | ⟨data, rc, -, rfl⟩
  case inr.inr.inr.inr.inl => simp [hw]
  all_goals simp [hrunning]

/-- What the owner does in the counter ticks. -/
theorem ticksStep_frame (hticks : p.ticksStep now produceRc = some (piece, pc))
    (h : CounterThreads.step uuids p.threads piece = some threads)
    (hpieces : ∀ rest r, p.threads.shared.phase .owner = .inside rest r → rest.length ≤ 3) :
    threads.running = p.threads.running ∧ threads.worker = p.threads.worker ∧
    (threads.owner ≠ .round .idle → pc = .ticks) ∧
    ∀ rest r, threads.shared.phase .owner = .inside rest r → rest.length ≤ 3 := by
  unfold ticksStep at hticks
  cases ho : p.threads.owner with
  | round round =>
    cases round with
    | idle =>
      simp only [ho, Option.some.injEq, Prod.mk.injEq] at hticks
      obtain ⟨rfl, rfl⟩ := hticks
      simp only [CounterThreads.step, ho, Option.some.injEq] at h
      subst h
      exact ⟨rfl, rfl, fun _ => rfl, hpieces⟩
    | built fresh =>
      simp only [ho, Option.some.injEq, Prod.mk.injEq] at hticks
      obtain ⟨rfl, rfl⟩ := hticks
      rcases CounterThreads.swap_cases h with ⟨fresh', shared, -, hlock, rfl⟩ | ⟨shared, ho', -, -⟩ | ⟨shared, ho', -, -⟩
      · obtain ⟨-, -, rfl⟩ := Guarded.State.lock_cases hlock
        refine ⟨rfl, rfl, fun _ => rfl, ?_⟩
        simp [UUIDCountersDB.swapPieces]
      · rw [ho] at ho'
        cases ho'
      · rw [ho] at ho'
        cases ho'
    | walking walked pending =>
      cases pending with
      | nil =>
        simp only [ho, Option.some.injEq, Prod.mk.injEq] at hticks
        obtain ⟨rfl, rfl⟩ := hticks
        simp only [CounterThreads.step, ho, Option.some.injEq] at h
        subst h
        exact ⟨rfl, rfl, fun hne => absurd rfl hne, hpieces⟩
      | cons e pending =>
        simp only [ho, Option.some.injEq, Prod.mk.injEq] at hticks
        obtain ⟨rfl, rfl⟩ := hticks
        simp only [CounterThreads.step, ho, Option.some.injEq] at h
        subst h
        exact ⟨rfl, rfl, fun _ => rfl, hpieces⟩
  | swapping =>
    simp only [ho, Option.some.injEq, Prod.mk.injEq] at hticks
    obtain ⟨rfl, rfl⟩ := hticks
    rcases CounterThreads.swap_cases h with ⟨fresh, shared, ho', -, -⟩ | ⟨shared, -, hpiece, rfl⟩ |
      ⟨shared, -, hunlock, rfl⟩
    · rw [ho] at ho'
      cases ho'
    · obtain ⟨q, rest, r, hphase, rfl⟩ := Guarded.State.piece_cases hpiece
      have hlen := hpieces _ _ hphase
      rw [List.length_cons] at hlen
      refine ⟨rfl, rfl, fun _ => rfl, ?_⟩
      simp
      omega
    · obtain ⟨r, -, rfl⟩ := Guarded.State.unlock_cases hunlock
      exact ⟨rfl, rfl, fun _ => rfl, by simp⟩
  | joining => simp [ho] at hticks
  | destroyed => simp [ho] at hticks

theorem alive_start (h : start config time fetched = some p) : Alive p := by
  obtain ⟨main, -, rfl⟩ := Option.map_eq_some_iff.1 h
  exact ⟨CounterThreads.lifecycle_init, rfl, by simp [CounterThreads.init], fun hne => absurd rfl hne,
    by simp [CounterThreads.init]⟩

theorem Alive.step {l : ProgramStep} (hA : Alive p) (h : step config time fetched p l = some p') : Alive p' := by
  cases l with
  | worker answer =>
    obtain ⟨threads, hthreads, rfl⟩ := Option.map_eq_some_iff.1 h
    have hstep : CounterThreads.step config.countersUuids p.threads (.worker answer) = some threads := hthreads
    obtain ⟨howner, hrunning⟩ := CounterThreads.worker_frame hthreads
    refine ⟨hA.lifecycle.step hstep, hrunning.trans hA.running, worker_not_done hA.running hthreads, ?_, ?_⟩
    · show threads.owner ≠ _ → _
      rw [howner]
      exact hA.ticks
    · show ∀ rest r, threads.shared.phase .owner = _ → _
      rw [worker_phase_owner hthreads]
      exact hA.pieces
  | main now produceRc =>
    by_cases hpc : p.main.pc = .ticks
    · obtain ⟨piece, pc, threads, hticks, hthreads, rfl⟩ := step_main_cases hpc h
      obtain ⟨hrunning, hworker, hticks', hpieces⟩ := ticksStep_frame hticks hthreads hA.pieces
      exact ⟨hA.lifecycle.step hthreads, hrunning.trans hA.running, hworker ▸ hA.worker, hticks', hpieces⟩
    · rw [step_main_of_ne hpc] at h
      obtain ⟨main, -, rfl⟩ := Option.map_eq_some_iff.1 h
      exact ⟨hA.lifecycle, hA.running, hA.worker, fun hne => absurd (hA.ticks hne) hpc, hA.pieces⟩

theorem alive_run {p₀ : Program} {ls : List ProgramStep} (h₀ : start config time fetched = some p₀)
    (h : Runs.run (step config time fetched) p₀ ls = some p) : Alive p :=
  Runs.run_invariant (alive_start h₀) (fun _ _ _ hA hstep => hA.step hstep) h

/-! ### A critical section comes to its end -/

/-- The worker is out of its section after the accesses that are left and the release. -/
theorem worker_leaves (answer : UUIDBytes) {data : UUIDBytes} {rest : Guarded.Section Counters Registers} {r : Registers}
    (hw : p.threads.worker = .increment data) (hphase : p.threads.shared.phase .worker = .inside rest r) :
    ∃ p', Runs.run (step config time fetched) p (List.replicate (rest.length + 1) (.worker answer)) = some p' ∧
      p'.main = p.main ∧ p'.threads.owner = p.threads.owner ∧ p'.threads.shared.holder = none ∧
      p'.threads.shared.phase .owner = p.threads.shared.phase .owner := by
  induction rest generalizing p r with
  | nil =>
    obtain ⟨hpiece, shared, hunlock, hholder, hother⟩ := Guarded.State.exists_unlock hphase
    refine ⟨{ p with threads := { p.threads with
      shared, worker := .report data (shared.outcome .worker).2.incrementRc } }, ?_, rfl, rfl, hholder,
      hother .owner (by decide)⟩
    simp [step, CounterThreads.workerStep, hw, hpiece, hunlock]
  | cons q rest ih =>
    obtain ⟨shared, hpiece, ⟨r', hphase'⟩, hother⟩ := Guarded.State.exists_piece hphase
    have hstep : step config time fetched p (.worker answer) = some { p with threads := { p.threads with shared } } := by
      simp only [step, CounterThreads.workerStep, hw, hpiece]
      rfl
    obtain ⟨p', hrun, hmain, howner, hholder, howner'⟩ := @ih { p with threads := { p.threads with shared } } r' hw hphase'
    refine ⟨p', ?_, hmain, howner, hholder, howner'.trans (hother .owner (by decide))⟩
    rw [List.length_cons, List.replicate_succ, Runs.run_cons, hstep]
    exact hrun

/-- So is `main`, which has to take the pieces of its swap. -/
theorem main_leaves (now : UInt64) (produceRc : RdKafkaErrorCode) {rest : Guarded.Section Counters Registers} {r : Registers}
    (hpc : p.main.pc = .ticks) (ho : p.threads.owner = .swapping)
    (hphase : p.threads.shared.phase .owner = .inside rest r) :
    ∃ p', Runs.run (step config time fetched) p (List.replicate (rest.length + 1) (.main now produceRc)) = some p' ∧
      p'.threads.worker = p.threads.worker ∧ p'.threads.shared.holder = none ∧
      p'.threads.shared.phase .worker = p.threads.shared.phase .worker := by
  have hticks : p.ticksStep now produceRc = some (.swap, .ticks) := by simp only [ticksStep, ho]
  induction rest generalizing p r with
  | nil =>
    obtain ⟨hpiece, shared, hunlock, hholder, hother⟩ := Guarded.State.exists_unlock hphase
    refine ⟨⟨{ p.main with pc := .ticks }, { p.threads with
      shared, owner := .round (.walking [] (shared.outcome .owner).2.other.toList) }⟩, ?_, rfl, hholder,
      hother .worker (by decide)⟩
    simp [step, hpc, hticks, CounterThreads.step, ho, hpiece, hunlock]
  | cons q rest ih =>
    obtain ⟨shared, hpiece, ⟨r', hphase'⟩, hother⟩ := Guarded.State.exists_piece hphase
    have hstep : step config time fetched p (.main now produceRc) =
        some ⟨{ p.main with pc := .ticks }, { p.threads with shared }⟩ := by
      simp [step, hpc, hticks, CounterThreads.step, ho, hpiece]
    obtain ⟨p', hrun, hworker, hholder, hworker'⟩ :=
      @ih ⟨{ p.main with pc := .ticks }, { p.threads with shared }⟩ r' rfl ho hphase' (by simp only [ticksStep, ho])
    refine ⟨p', ?_, hworker, hholder, hworker'.trans (hother .worker (by decide))⟩
    rw [List.length_cons, List.replicate_succ, Runs.run_cons, hstep]
    exact hrun

/-! ### Who can move -/

theorem main_moves_of_ne (hperiod : config.countersMonitorConfig.period ≠ 0)
    (hupdate : config.uuidCounterConfig.updatePeriod ≠ 0) (hpc : p.main.pc ≠ .ticks) :
    (step config time fetched p (.main now produceRc)).isSome := by
  rw [step_main_of_ne hpc, Option.isSome_map, Option.isSome_iff_ne_none, Ne, MainLoop.advance_eq_none_iff]
  rintro (⟨-, hzero⟩ | ⟨-, -, hzero⟩)
  · exact hupdate hzero
  · exact hperiod hzero

/-- Nobody has the mutex, and the owner is about to take it. -/
theorem main_locks {fresh : Counters} {r : Registers} (hpc : p.main.pc = .ticks)
    (ho : p.threads.owner = .round (.built fresh)) (hholder : p.threads.shared.holder = none)
    (hphase : p.threads.shared.phase .owner = .outside r) :
    (step config time fetched p (.main now produceRc)).isSome := by
  simp [step, hpc, ticksStep, CounterThreads.step, ho, Guarded.State.lock, hholder, hphase]

theorem worker_locks {data : UUIDBytes} {r : Registers} (hw : p.threads.worker = .lock data)
    (hholder : p.threads.shared.holder = none) (hphase : p.threads.shared.phase .worker = .outside r) :
    (step config time fetched p (.worker answer)).isSome := by
  simp [step, CounterThreads.workerStep, hw, Guarded.State.lock, hholder, hphase]

theorem outside_of_not_inside {g : Guarded.State Thread Counters Registers} {i : Thread} (h : ¬ g.Inside i) :
    ∃ r, g.phase i = .outside r := by
  cases hphase : g.phase i with
  | outside r => exact ⟨r, rfl⟩
  | inside rest r => exact absurd ⟨rest, r, hphase⟩ h

theorem main_moves {side : CounterSide} (hA : Alive p) (hR : p.threads.Refines side)
    (hperiod : config.countersMonitorConfig.period ≠ 0) (hupdate : config.uuidCounterConfig.updatePeriod ≠ 0)
    (answer : UUIDBytes) (now : UInt64) (produceRc : RdKafkaErrorCode) :
    ∃ k ≤ 4, ∃ p', Runs.run (step config time fetched) p (List.replicate k (.worker answer)) = some p' ∧
      (step config time fetched p' (.main now produceRc)).isSome := by
  by_cases hpc : p.main.pc = .ticks
  · cases ho : p.threads.owner with
    | round round =>
      cases round with
      | built fresh =>
        have hswap : p.threads.owner ≠ .swapping := by simp [ho]
        have howner : ¬ p.threads.shared.Inside .owner := mt hR.owner_inside.1 hswap
        obtain ⟨r, hphase⟩ := outside_of_not_inside howner
        cases hholder : p.threads.shared.holder with
        | none => exact ⟨0, by omega, p, rfl, main_locks hpc ho hholder hphase⟩
        | some i =>
          have hinside := (hR.exclusive i).2 hholder
          cases i with
          | owner => exact absurd hinside howner
          | worker =>
            obtain ⟨data, hw⟩ := hR.worker_inside.1 hinside
            obtain ⟨rest, r', hinside⟩ := hinside
            obtain ⟨p', hrun, hmain, ho', hholder', hphase'⟩ := worker_leaves answer hw hinside
            have hlen := hA.lifecycle.pieces rest r' hinside
            exact ⟨rest.length + 1, by omega, p', hrun,
              main_locks (hmain ▸ hpc) (ho'.trans ho) hholder' (hphase'.trans hphase)⟩
      | idle => exact ⟨0, by omega, p, rfl, by simp [step, hpc, ticksStep, CounterThreads.step, ho]⟩
      | walking walked pending =>
        refine ⟨0, by omega, p, rfl, ?_⟩
        cases pending with
        | nil => simp [step, hpc, ticksStep, CounterThreads.step, ho]
        | cons e pending => simp [step, hpc, ticksStep, CounterThreads.step, ho]
    | swapping =>
      refine ⟨0, by omega, p, rfl, ?_⟩
      rcases Guarded.State.exists_step_inside (hR.owner_inside.2 ho) with ⟨shared, hshared⟩ | ⟨shared, hshared⟩
      · simp [step, hpc, ticksStep, CounterThreads.step, ho, hshared]
      · cases hpiece : p.threads.shared.piece .owner <;>
          simp [step, hpc, ticksStep, CounterThreads.step, ho, hshared, hpiece]
    | joining =>
      have hstop := hA.lifecycle.running.2 (.inl ho)
      rw [hA.running] at hstop
      cases hstop
    | destroyed =>
      have hstop := hA.lifecycle.running.2 (.inr ho)
      rw [hA.running] at hstop
      cases hstop
  · exact ⟨0, by omega, p, rfl, main_moves_of_ne hperiod hupdate hpc⟩

theorem worker_moves {side : CounterSide} (hA : Alive p) (hR : p.threads.Refines side) (answer : UUIDBytes)
    (now : UInt64) (produceRc : RdKafkaErrorCode) :
    ∃ k ≤ 4, ∃ p', Runs.run (step config time fetched) p (List.replicate k (.main now produceRc)) = some p' ∧
      (step config time fetched p' (.worker answer)).isSome := by
  cases hw : p.threads.worker with
  | lock data =>
    have hworker : ¬ p.threads.shared.Inside .worker := by
      rw [hR.worker_inside, hw]
      simp
    obtain ⟨r, hphase⟩ := outside_of_not_inside hworker
    cases hholder : p.threads.shared.holder with
    | none => exact ⟨0, by omega, p, rfl, worker_locks hw hholder hphase⟩
    | some i =>
      have hinside := (hR.exclusive i).2 hholder
      cases i with
      | worker => exact absurd hinside hworker
      | owner =>
        have ho := hR.owner_inside.1 hinside
        obtain ⟨rest, r', hinside⟩ := hinside
        obtain ⟨p', hrun, hw', hholder', hphase'⟩ :=
          @main_leaves config time fetched p now produceRc rest r' (hA.ticks (by simp [ho])) ho hinside
        have hlen := hA.pieces rest r' hinside
        exact ⟨rest.length + 1, by omega, p', hrun, worker_locks (hw'.trans hw) hholder' (hphase'.trans hphase)⟩
  | increment data =>
    refine ⟨0, by omega, p, rfl, ?_⟩
    rcases Guarded.State.exists_step_inside (hR.worker_inside.2 ⟨data, hw⟩) with ⟨shared, hshared⟩ | ⟨shared, hshared⟩
    · simp [step, CounterThreads.workerStep, hw, hshared]
    · cases hpiece : p.threads.shared.piece .worker <;> simp [step, CounterThreads.workerStep, hw, hshared, hpiece]
  | test => exact ⟨0, by omega, p, rfl, by simp [step, CounterThreads.workerStep, hw]⟩
  | consume =>
    refine ⟨0, by omega, p, rfl, ?_⟩
    cases hempty : answer.isEmpty <;> simp [step, CounterThreads.workerStep, hw, hempty]
  | report data rc => exact ⟨0, by omega, p, rfl, by simp [step, CounterThreads.workerStep, hw]⟩
  | done => exact absurd hw hA.worker

/-- In every state that an interleaving reaches, each thread can move after at most four pieces of the
other: nothing but a critical section is ever waited for, and both periods are not zero. -/
theorem threads_never_block (config : Config) (time : ℕ → Seconds) (fetched : ℕ → Fetched) (p₀ p : Program)
    (ls : List ProgramStep) (hperiod : config.countersMonitorConfig.period ≠ 0)
    (hupdate : config.uuidCounterConfig.updatePeriod ≠ 0) (h₀ : start config time fetched = some p₀)
    (h : Runs.run (step config time fetched) p₀ ls = some p) (answer : UUIDBytes) (now : UInt64)
    (produceRc : RdKafkaErrorCode) :
    (∃ k ≤ 4, ∃ p', Runs.run (step config time fetched) p (List.replicate k (.worker answer)) = some p' ∧
      (step config time fetched p' (.main now produceRc)).isSome) ∧
    ∃ k ≤ 4, ∃ p', Runs.run (step config time fetched) p (List.replicate k (.main now produceRc)) = some p' ∧
      (step config time fetched p' (.worker answer)).isSome := by
  have hA := alive_run h₀ h
  obtain ⟨done, s, pending, hS⟩ := simulates_run h₀ h
  exact ⟨main_moves hA hS.threads hperiod hupdate answer now produceRc, worker_moves hA hS.threads answer now produceRc⟩

/-- The worker has the mutex `main` waits for. -/
theorem threads_never_block_contention :
    ∃ p₀ p, start MainLoop.tenSecondRounds MainLoop.pastTheTarget.time MainLoop.pastTheTarget.fetched = some p₀ ∧
      Runs.run (step MainLoop.tenSecondRounds MainLoop.pastTheTarget.time MainLoop.pastTheTarget.fetched) p₀
        contention = some p ∧
      step MainLoop.tenSecondRounds MainLoop.pastTheTarget.time MainLoop.pastTheTarget.fetched p
        (.main 12 .errNoError) = none ∧
      ∃ k ≤ 4, ∃ p', Runs.run (step MainLoop.tenSecondRounds MainLoop.pastTheTarget.time MainLoop.pastTheTarget.fetched) p
          (List.replicate k (.worker (.none 0 0))) = some p' ∧
        (step MainLoop.tenSecondRounds MainLoop.pastTheTarget.time MainLoop.pastTheTarget.fetched p'
          (.main 12 .errNoError)).isSome := by
  have hrun : ((start MainLoop.tenSecondRounds MainLoop.pastTheTarget.time MainLoop.pastTheTarget.fetched).bind fun p₀ =>
      Runs.run (step MainLoop.tenSecondRounds MainLoop.pastTheTarget.time MainLoop.pastTheTarget.fetched) p₀
        contention).map (fun p => (step MainLoop.tenSecondRounds MainLoop.pastTheTarget.time
          MainLoop.pastTheTarget.fetched p (.main 12 .errNoError)).isNone) = some true := by decide
  obtain ⟨p, hp, hnone⟩ := Option.map_eq_some_iff.1 hrun
  obtain ⟨p₀, h₀, h⟩ := Option.bind_eq_some_iff.1 hp
  have hmoves := threads_never_block MainLoop.tenSecondRounds _ _ p₀ p contention (by decide) (by decide) h₀ h (.none 0 0)
    12 .errNoError
  exact ⟨p₀, p, h₀, h, Option.isNone_iff_eq_none.1 hnone, hmoves.1⟩

end Program
end EventsCounter
