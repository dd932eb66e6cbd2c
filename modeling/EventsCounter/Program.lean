import EventsCounter.CounterShutdown
import EventsCounter.PublishFreshness
import EventsCounter.Startup

/-!
# The whole program

`main` in its loops and the worker, at the grain of single accesses to the table. `MainLoop` lets the
worker count between two pieces of `main`, and swaps the table in one piece; here `main` waits for the
mutex, and the worker may be anywhere in an iteration at any of its pieces.

`Simulates` gives a state of the program the one of `MainLoop` that it stands for, together with what
the worker has counted since the last piece of `main`. So `main` is where a run of `MainLoop` is, and the
counter is the one of that run, but for what has been counted since (`program_refines_mainLoop`). How
long a thread waits for the other one is `threads_never_block`.
-/

namespace EventsCounter

open CounterThreads (matching Lifecycle)

/-- `main.side` plays no part: the counter is `threads`. -/
structure Program where
  main : MainLoop
  threads : CounterThreads

inductive ProgramStep
  /-- The next piece of the worker; `answer` is what `consume` returns, if it is called. -/
  | worker (answer : UUIDBytes)
  /-- The next piece of `main`; if it produces, `now` is what the writer's clock shows and `produceRc` what
  librdkafka answers. -/
  | main (now : UInt64) (produceRc : RdKafkaErrorCode)

/-- A piece of `main`, seen from `MainLoop`: what the worker had counted before it, and the answers it got. -/
structure MainPiece where
  consumed : List UUIDBytes
  now : UInt64
  produceRc : RdKafkaErrorCode

namespace Program

section
variable (config : Config) (time : ℕ → Seconds) (fetched : ℕ → Fetched)

/-- The piece of the counter ticks that comes next, and where `main` is after it. -/
def ticksStep (p : Program) (now : UInt64) (produceRc : RdKafkaErrorCode) : Option (ThreadStep × Pc) :=
  match p.threads.owner with
  | .round .idle => some (.build, .ticks)
  | .round (.built _) => some (.swap, .ticks)
  | .swapping => some (.swap, .ticks)
  | .round (.walking _ (_ :: _)) => some (.visit now produceRc, .ticks)
  | .round (.walking _ []) => some (.leave, .outer)
  | .joining => none
  | .destroyed => none

/-- One piece of one of the threads; `none` is an exit of `main`, or a thread that has to wait. -/
def step (p : Program) : ProgramStep → Option Program
  | .worker answer => (p.threads.workerStep answer).map fun threads => { p with threads }
  | .main now produceRc =>
    match p.main.pc with
    | .ticks => do
      let (piece, pc) ← p.ticksStep now produceRc
      let threads ← CounterThreads.step config.countersUuids p.threads piece
      some ⟨{ p.main with pc }, threads⟩
    | _ =>
      (MainLoop.advance config ⟨time, fetched, fun _ => now, fun _ => produceRc, fun _ => []⟩ p.main 0).map fun main =>
        { p with main }

def start : Option Program :=
  (MainLoop.start config ⟨time, fetched, fun _ => 0, fun _ => .errNoError, fun _ => []⟩).map fun main =>
    ⟨main, CounterThreads.init config.countersUuids⟩

/-- The environment in which the pieces of `main` so far were those of `done`. -/
def history (done : List MainPiece) : Environment where
  time
  fetched
  currentUnixTimestamp n := (done[n]?.map MainPiece.now).getD 0
  produceRc n := (done[n]?.map MainPiece.produceRc).getD .errNoError
  consumed n := (done[n]?.map MainPiece.consumed).getD []

structure Simulates (p : Program) (done : List MainPiece) (s : MainLoop)
    (pending : List UUIDBytes) : Prop where
  reached : MainLoop.stateAt config (history time fetched done) done.length = some s
  main : p.main = { s with side := p.main.side }
  threads : p.threads.Refines (s.work pending).side

end

variable {config : Config} {time : ℕ → Seconds} {fetched : ℕ → Fetched} {p p' : Program} {s s' : MainLoop}
  {done : List MainPiece} {pending : List UUIDBytes} {env env' : Environment} {n m : ℕ}
  {now : UInt64} {produceRc : RdKafkaErrorCode} {answer : UUIDBytes}

/-! ### What `main` depends on -/

theorem advance_congr (htime : env.time = env'.time) (hfetched : env.fetched = env'.fetched)
    (hnow : env.currentUnixTimestamp n = env'.currentUnixTimestamp m) (hrc : env.produceRc n = env'.produceRc m)
    (s : MainLoop) : MainLoop.advance config env s n = MainLoop.advance config env' s m := by
  unfold MainLoop.advance
  rw [htime, hfetched, hnow, hrc]

theorem stateAt_history_append (last : MainPiece) (hn : n ≤ done.length) :
    MainLoop.stateAt config (history time fetched (done ++ [last])) n =
      MainLoop.stateAt config (history time fetched done) n := by
  induction n with
  | zero => rfl
  | succ n ih =>
    have hsame : (done ++ [last])[n]? = done[n]? := List.getElem?_append_left hn
    rw [MainLoop.stateAt_succ, MainLoop.stateAt_succ, ih (by omega)]
    congr 1
    funext s
    have hconsumed : (history time fetched (done ++ [last])).consumed n = (history time fetched done).consumed n := by
      simp only [history, hsame]
    unfold MainLoop.step
    rw [hconsumed]
    exact @advance_congr config (history time fetched (done ++ [last])) (history time fetched done) n n rfl rfl
      (by simp only [history, hsame]) (by simp only [history, hsame]) _

theorem stateAt_history_succ (last : MainPiece)
    (hs : MainLoop.stateAt config (history time fetched done) done.length = some s)
    (h : MainLoop.advance config ⟨time, fetched, fun _ => last.now, fun _ => last.produceRc, fun _ => []⟩
      (s.work last.consumed) 0 = some s') :
    MainLoop.stateAt config (history time fetched (done ++ [last])) (done ++ [last]).length = some s' := by
  have hlast : (done ++ [last])[done.length]? = some last := by simp
  rw [List.length_append, List.length_singleton, MainLoop.stateAt_succ, stateAt_history_append _ (le_refl _), hs,
    Option.bind_some, ← h, MainLoop.step]
  have hconsumed : (history time fetched (done ++ [last])).consumed done.length = last.consumed := by
    simp only [history, hlast]
    rfl
  have hnow : (history time fetched (done ++ [last])).currentUnixTimestamp done.length = last.now := by
    simp only [history, hlast]
    rfl
  have hrc : (history time fetched (done ++ [last])).produceRc done.length = last.produceRc := by
    simp only [history, hlast]
    rfl
  rw [hconsumed]
  exact @advance_congr config (history time fetched (done ++ [last]))
    ⟨time, fetched, fun _ => last.now, fun _ => last.produceRc, fun _ => []⟩ done.length 0 rfl rfl hnow hrc _

/-- Outside the counter ticks the counter is neither read nor changed. -/
theorem advance_side (hpc : s.pc ≠ .ticks) (h : MainLoop.advance config env s n = some s') (side : CounterSide) :
    MainLoop.advance config env { s with side } n = some { s' with side } := by
  rcases MainLoop.advance_cases h with ⟨next, hs, hnext, rfl⟩ | ⟨hs, rfl⟩ | ⟨reset, next, hs, hrule, rfl⟩ |
    ⟨ub, hs, hub, rfl⟩ | ⟨ub, hs, rfl⟩ | ⟨side', hs, -, -⟩
  · simp only [MainLoop.advance, hs, hnext]
    rfl
  · simp only [MainLoop.advance, hs]
  · simp only [MainLoop.advance, hs, hrule]
    rfl
  · simp only [MainLoop.advance, hs, hub]
  · simp only [MainLoop.advance, hs]
  · exact absurd hs hpc

/-! ### The simulation -/

theorem matching_worker (t : CounterThreads) (answer : UUIDBytes) :
    ∃ data : List UUIDBytes, matching t (.worker answer) = data.map .count := by
  unfold matching
  cases t.worker with
  | lock data => exact ⟨[data], rfl⟩
  | test | consume | increment data | report data rc | done => exact ⟨[], rfl⟩

/-- A piece of the swap changes nothing that `MainLoop` sees; every other one is its piece of the ticks. -/
theorem ticksStep_matches {piece : ThreadStep} {pc : Pc} (h : p.ticksStep now produceRc = some (piece, pc)) :
    p.threads.owner = .swapping ∧ matching p.threads piece = [] ∧ pc = .ticks ∨
    ∃ l, matching p.threads piece = [l] ∧
      ∀ s : MainLoop, s.side.round = p.threads.roundOf → s.ticksStep now produceRc = (l, pc) := by
  unfold ticksStep at h
  unfold MainLoop.ticksStep
  cases ho : p.threads.owner with
  | round r =>
    right
    simp only [CounterThreads.roundOf, ho]
    cases r with
    | idle =>
      simp only [ho, Option.some.injEq, Prod.mk.injEq] at h
      obtain ⟨rfl, rfl⟩ := h
      refine ⟨.build, rfl, fun s hround => ?_⟩
      rw [hround]
    | built fresh =>
      simp only [ho, Option.some.injEq, Prod.mk.injEq] at h
      obtain ⟨rfl, rfl⟩ := h
      refine ⟨.swap, by simp only [matching, ho], fun s hround => ?_⟩
      rw [hround]
    | walking walked rest =>
      cases rest with
      | nil =>
        simp only [ho, Option.some.injEq, Prod.mk.injEq] at h
        obtain ⟨rfl, rfl⟩ := h
        refine ⟨.leave, rfl, fun s hround => ?_⟩
        rw [hround]
      | cons e rest =>
        simp only [ho, Option.some.injEq, Prod.mk.injEq] at h
        obtain ⟨rfl, rfl⟩ := h
        refine ⟨.visit now produceRc, rfl, fun s hround => ?_⟩
        rw [hround]
  | swapping =>
    left
    simp only [ho, Option.some.injEq, Prod.mk.injEq] at h
    obtain ⟨rfl, rfl⟩ := h
    exact ⟨rfl, by simp only [matching, ho], rfl⟩
  | joining => simp [ho] at h
  | destroyed => simp [ho] at h

theorem Simulates.worker_step (hS : Simulates config time fetched p done s pending)
    (h : step config time fetched p (.worker answer) = some p') :
    ∃ data, Simulates config time fetched p' done s (pending ++ data) := by
  obtain ⟨threads, hthreads, rfl⟩ := Option.map_eq_some_iff.1 h
  obtain ⟨data, hdata⟩ := matching_worker p.threads answer
  obtain ⟨side, hrun, hR⟩ := @CounterThreads.Refines.worker_step config.countersUuids _ _ _ _ hS.threads hthreads
  rw [hdata, MainLoop.run_counts, Option.some.injEq] at hrun
  refine ⟨data, hS.reached, hS.main, ?_⟩
  show threads.Refines ((pending ++ data).foldl CounterSide.run s.side)
  rw [List.foldl_append]
  exact hrun ▸ hR

theorem step_main_of_ne (hpc : p.main.pc ≠ .ticks) : step config time fetched p (.main now produceRc) =
    (MainLoop.advance config ⟨time, fetched, fun _ => now, fun _ => produceRc, fun _ => []⟩ p.main 0).map
      fun main => { p with main } := by
  unfold step
  cases hcase : p.main.pc with
  | ticks => exact absurd hcase hpc
  | outer | inner | body | consume | check uuidBytes => rfl

theorem step_main_cases (hpc : p.main.pc = .ticks) (h : step config time fetched p (.main now produceRc) = some p') :
    ∃ piece pc threads, p.ticksStep now produceRc = some (piece, pc) ∧
      CounterThreads.step config.countersUuids p.threads piece = some threads ∧ p' = ⟨{ p.main with pc }, threads⟩ := by
  simp only [step, hpc, Option.bind_eq_bind, Option.bind_eq_some_iff, Option.some.injEq] at h
  obtain ⟨⟨piece, pc⟩, hticks, threads, hthreads, rfl⟩ := h
  exact ⟨piece, pc, threads, hticks, hthreads, rfl⟩

theorem Simulates.ticks_step (hS : Simulates config time fetched p done s pending) (hpc : p.main.pc = .ticks)
    (h : step config time fetched p (.main now produceRc) = some p') :
    ∃ done' s' pending', Simulates config time fetched p' done' s' pending' := by
  obtain ⟨piece, pc, threads, hticks, hthreads, rfl⟩ := step_main_cases hpc h
  obtain ⟨side, hrun, hR⟩ := hS.threads.step hthreads
  rcases ticksStep_matches hticks with ⟨-, hmatch, rfl⟩ | ⟨l, hmatch, hl⟩
  · rw [hmatch] at hrun
    cases hrun
    refine ⟨done, s, pending, hS.reached, ?_, hR⟩
    rw [← hpc]
    exact hS.main
  · rw [hmatch, Runs.run_cons] at hrun
    obtain ⟨side', hside, heq⟩ := Option.bind_eq_some_iff.1 hrun
    cases heq
    have hspc : (s.work pending).pc = .ticks := by
      rw [hS.main] at hpc
      exact hpc
    have hstep := hl (s.work pending) hS.threads.round
    have hadvance : MainLoop.advance config ⟨time, fetched, fun _ => now, fun _ => produceRc, fun _ => []⟩
        (s.work pending) 0 = some { s.work pending with side, pc } := by
      simp only [MainLoop.advance, hspc, hstep, hside]
      rfl
    refine ⟨_, _, [], stateAt_history_succ ⟨pending, now, produceRc⟩ hS.reached hadvance, ?_, hR⟩
    show { p.main with pc } = _
    conv_lhs => rw [hS.main]
    rfl

theorem Simulates.main_step (hS : Simulates config time fetched p done s pending)
    (h : step config time fetched p (.main now produceRc) = some p') :
    ∃ done' s' pending', Simulates config time fetched p' done' s' pending' := by
  by_cases hpc : p.main.pc = .ticks
  · exact hS.ticks_step hpc h
  · rw [step_main_of_ne hpc] at h
    obtain ⟨main, hadvance, rfl⟩ := Option.map_eq_some_iff.1 h
    have hsame : { p.main with side := (s.work pending).side } = s.work pending := by
      rw [hS.main]
      rfl
    have hmatch := advance_side hpc hadvance (s.work pending).side
    rw [hsame] at hmatch
    exact ⟨_, _, [], stateAt_history_succ ⟨pending, now, produceRc⟩ hS.reached hmatch, rfl, hS.threads⟩

theorem simulates_start (h : start config time fetched = some p) :
    ∃ s, Simulates config time fetched p [] s [] := by
  obtain ⟨main, hmain, rfl⟩ := Option.map_eq_some_iff.1 h
  have hside : main.side = CounterSide.init config.countersUuids := by
    obtain ⟨next, -, hs⟩ := Option.bind_eq_some_iff.1 hmain
    cases hs
    rfl
  refine ⟨main, ?_, rfl, ?_⟩
  · show (MainLoop.start config _).bind _ = _
    rw [show MainLoop.start config (history time fetched []) = some main from hmain]
    rfl
  · show (CounterThreads.init _).Refines main.side
    rw [hside]
    exact CounterThreads.refines_init

theorem simulates_run {p₀ : Program} {ls : List ProgramStep} (h₀ : start config time fetched = some p₀)
    (h : Runs.run (step config time fetched) p₀ ls = some p) :
    ∃ done s pending, Simulates config time fetched p done s pending := by
  refine Runs.run_invariant (I := fun p => ∃ done s pending, Simulates config time fetched p done s pending) ?_ ?_ h
  · obtain ⟨s, hS⟩ := simulates_start h₀
    exact ⟨[], s, [], hS⟩
  · rintro p l p' ⟨done, s, pending, hS⟩ hstep
    cases l with
    | worker answer =>
      obtain ⟨data, hS'⟩ := hS.worker_step hstep
      exact ⟨done, s, _, hS'⟩
    | main now produceRc => exact hS.main_step hstep

/-- Whatever the interleaving of the two threads: `main` is where some run of `MainLoop` is, with the
same clock and the same messages, and the counter is the one of that run, once the worker has counted
what it has taken since. -/
theorem program_refines_mainLoop (config : Config) (time : ℕ → Seconds) (fetched : ℕ → Fetched) (p₀ p : Program)
    (ls : List ProgramStep) (h₀ : start config time fetched = some p₀)
    (h : Runs.run (step config time fetched) p₀ ls = some p) :
    ∃ env n s pending, env.time = time ∧ env.fetched = fetched ∧ MainLoop.stateAt config env n = some s ∧
      p.main = { s with side := p.main.side } ∧ p.threads.Refines (s.work pending).side := by
  obtain ⟨done, s, pending, hS⟩ := simulates_run h₀ h
  exact ⟨history time fetched done, done.length, s, pending, rfl, rfl, hS.reached, hS.main, hS.threads⟩

/-- The worker has five bytes in its hand; `main` begins a round, and finds the mutex taken. -/
def contention : List ProgramStep :=
  List.replicate 2 (.worker (.make (lit "a") 5)) ++ List.replicate 6 (.main 12 .errNoError) ++ [.worker (.make (lit "a") 5)]

/-- The worker goes on until it is out of the section, and `main` to the end of the round. -/
def afterContention : List ProgramStep :=
  List.replicate 4 (.worker (.make (lit "a") 5)) ++ List.replicate 7 (.main 12 .errNoError)

theorem program_refines_mainLoop_contention :
    ∃ p₀ p, start MainLoop.tenSecondRounds MainLoop.pastTheTarget.time MainLoop.pastTheTarget.fetched = some p₀ ∧
      Runs.run (step MainLoop.tenSecondRounds MainLoop.pastTheTarget.time MainLoop.pastTheTarget.fetched) p₀
        (contention ++ afterContention) = some p ∧ p.threads.calls.length = 1 ∧
      ∃ env n s pending, env.time = MainLoop.pastTheTarget.time ∧
        MainLoop.stateAt MainLoop.tenSecondRounds env n = some s ∧ p.threads.Refines (s.work pending).side := by
  have hrun : ((start MainLoop.tenSecondRounds MainLoop.pastTheTarget.time MainLoop.pastTheTarget.fetched).bind fun p₀ =>
      Runs.run (step MainLoop.tenSecondRounds MainLoop.pastTheTarget.time MainLoop.pastTheTarget.fetched) p₀
        (contention ++ afterContention)).map (fun p => (p.main.pc, p.threads.calls.length)) = some (.outer, 1) := by decide
  obtain ⟨p, hp, hv⟩ := Option.map_eq_some_iff.1 hrun
  obtain ⟨p₀, h₀, h⟩ := Option.bind_eq_some_iff.1 hp
  obtain ⟨env, n, s, pending, htime, -, hs, -, hR⟩ := program_refines_mainLoop _ _ _ p₀ p _ h₀ h
  exact ⟨p₀, p, h₀, h, (Prod.mk.inj hv).2, env, n, s, pending, htime, hs, hR⟩

end Program
end EventsCounter
