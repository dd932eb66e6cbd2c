import EventsCounter.CounterThreads

/-!
# The destructor of `UUIDCounter`

The destructor clears `running` and joins the worker. The worker looks at `running` between two
messages only: it may be anywhere in an iteration, or wait for the mutex. `left` counts the steps it
still takes; the owner is in no critical section, so that the mutex is not in the way
(`exists_step_joining`), and the join returns (`destructor_terminates`).
-/

namespace EventsCounter
namespace CounterThreads

variable {uuids : List Bytes} {t t' : CounterThreads} {s : CounterSide} {answer : UUIDBytes}

structure Lifecycle (t : CounterThreads) : Prop where
  running : t.running = false ↔ t.owner = .joining ∨ t.owner = .destroyed
  destroyed : t.owner = .destroyed → t.worker = .done
  pieces : ∀ rest r, t.shared.phase .worker = .inside rest r → rest.length ≤ 3

theorem lifecycle_init : Lifecycle (init uuids) := ⟨by simp [init], by simp [init], by simp [init]⟩

/-- What the owner does to the mutex leaves the worker where it is. -/
theorem swap_phase (h : step uuids t .swap = some t') : t'.shared.phase .worker = t.shared.phase .worker := by
  rcases swap_cases h with ⟨fresh, shared, -, hlock, rfl⟩ | ⟨shared, -, hpiece, rfl⟩ | ⟨shared, -, hunlock, rfl⟩
  · obtain ⟨-, -, rfl⟩ := Guarded.State.lock_cases hlock
    simp
  · obtain ⟨p, rest, r, -, rfl⟩ := Guarded.State.piece_cases hpiece
    simp
  · obtain ⟨r, -, rfl⟩ := Guarded.State.unlock_cases hunlock
    simp

theorem worker_frame (h : t.workerStep answer = some t') : t'.owner = t.owner ∧ t'.running = t.running := by
  rcases workerStep_cases h with ⟨-, rfl⟩ | ⟨-, -, rfl⟩ | ⟨-, -, rfl⟩ | ⟨data, shared, -, -, rfl⟩ |
    ⟨data, shared, -, -, rfl⟩ | ⟨data, shared, -, -, rfl⟩ | ⟨data, rc, -, rfl⟩
  all_goals exact ⟨rfl, rfl⟩

theorem worker_pieces (hpieces : ∀ rest r, t.shared.phase .worker = .inside rest r → rest.length ≤ 3)
    (h : t.workerStep answer = some t') : ∀ rest r, t'.shared.phase .worker = .inside rest r → rest.length ≤ 3 := by
  rcases workerStep_cases h with ⟨-, rfl⟩ | ⟨-, -, rfl⟩ | ⟨-, -, rfl⟩ | ⟨data, shared, -, hlock, rfl⟩ |
    ⟨data, shared, -, hpiece, rfl⟩ | ⟨data, shared, -, hunlock, rfl⟩ | ⟨data, rc, -, rfl⟩
  · exact hpieces
  · exact hpieces
  · exact hpieces
  · obtain ⟨-, -, rfl⟩ := Guarded.State.lock_cases hlock
    simp [UUIDCountersDB.incrementPieces]
  · obtain ⟨p, rest, r, hphase, rfl⟩ := Guarded.State.piece_cases hpiece
    have hlen := hpieces _ _ hphase
    rw [List.length_cons] at hlen
    simp
    omega
  · obtain ⟨r, -, rfl⟩ := Guarded.State.unlock_cases hunlock
    simp
  · exact hpieces

theorem Lifecycle.step {l : ThreadStep} (hL : Lifecycle t) (h : step uuids t l = some t') : Lifecycle t' := by
  obtain ⟨hrunning, hdestroyed, hpieces⟩ := hL
  cases l with
  | worker answer =>
    have hpieces' := worker_pieces hpieces h
    rcases workerStep_cases h with ⟨hw, rfl⟩ | ⟨hw, -, rfl⟩ | ⟨hw, -, rfl⟩ | ⟨data, shared, hw, -, rfl⟩ |
      ⟨data, shared, hw, -, rfl⟩ | ⟨data, shared, hw, -, rfl⟩ | ⟨data, rc, hw, rfl⟩
    all_goals
      refine ⟨hrunning, fun ho => ?_, hpieces'⟩
      have hdone := hdestroyed ho
      rw [hw] at hdone
      cases hdone
  | swap =>
    have hphase := swap_phase h
    rw [← hphase] at hpieces
    rcases swap_cases h with ⟨fresh, shared, ho, -, rfl⟩ | ⟨shared, ho, -, rfl⟩ | ⟨shared, ho, -, rfl⟩
    · exact ⟨by simpa [ho] using hrunning, by simp, hpieces⟩
    · exact ⟨hrunning, hdestroyed, hpieces⟩
    · exact ⟨by simpa [ho] using hrunning, by simp, hpieces⟩
  | join =>
    simp only [CounterThreads.step] at h
    split at h
    · rename_i ho hw
      cases h
      exact ⟨by simpa [ho] using hrunning, fun _ => hw, hpieces⟩
    · cases h
  | build | visit now produceRc | leave =>
    simp only [CounterThreads.step] at h
    split at h
    · rename_i ho
      cases h
      exact ⟨by simpa [ho] using hrunning, by simp, hpieces⟩
    · cases h
  | stop =>
    simp only [CounterThreads.step] at h
    split at h
    · cases h
      exact ⟨by simp, by simp, hpieces⟩
    · cases h

theorem lifecycle_run {ls : List ThreadStep} (h : Runs.run (step uuids) (init uuids) ls = some t) : Lifecycle t :=
  Runs.run_invariant lifecycle_init (fun _ _ _ hL hstep => hL.step hstep) h

/-- How many steps the worker takes at most, once `running` is cleared. -/
def left (t : CounterThreads) : ℕ :=
  match t.worker with
  | .consume => 8
  | .lock _ => 7
  | .increment _ =>
    match t.shared.phase .worker with
    | .inside rest _ => rest.length + 3
    | .outside _ => 3
  | .report _ _ => 2
  | .test => 1
  | .done => 0

/-- The steps left to both threads. -/
def remaining (t : CounterThreads) : ℕ :=
  t.left + match t.owner with
    | .destroyed => 0
    | _ => 1

/-- What the worker can still consume, once `running` is cleared. -/
def appetite (t : CounterThreads) : ℕ :=
  match t.worker with
  | .consume => 1
  | _ => 0

theorem Lifecycle.bounds (hL : Lifecycle t) : t.remaining ≤ 9 ∧ t.appetite ≤ 1 := by
  have hleft : t.left ≤ 8 := by
    unfold left
    cases t.worker with
    | increment data =>
      dsimp only
      split
      · have := hL.pieces _ _ ‹_›
        omega
      · omega
    | test | consume | lock data | report data rc | done => simp
  refine ⟨?_, ?_⟩
  · unfold remaining
    split <;> omega
  · unfold appetite
    split <;> omega

theorem worker_step_left (hstop : t.running = false) (h : t.workerStep answer = some t') :
    t'.left < t.left ∧ t'.consumed.length + t'.appetite ≤ t.consumed.length + t.appetite := by
  rcases workerStep_cases h with ⟨hw, rfl⟩ | ⟨hw, -, rfl⟩ | ⟨hw, -, rfl⟩ | ⟨data, shared, hw, hlock, rfl⟩ |
    ⟨data, shared, hw, hpiece, rfl⟩ | ⟨data, shared, hw, hunlock, rfl⟩ | ⟨data, rc, hw, rfl⟩
  · simp [left, appetite, hw, hstop]
  · simp [left, appetite, hw]
  · simp [left, appetite, hw]
  · obtain ⟨-, -, rfl⟩ := Guarded.State.lock_cases hlock
    simp [left, appetite, hw, UUIDCountersDB.incrementPieces]
  · obtain ⟨p, rest, r, hphase, rfl⟩ := Guarded.State.piece_cases hpiece
    simp [left, appetite, hw, hphase]
  · obtain ⟨r, hphase, rfl⟩ := Guarded.State.unlock_cases hunlock
    simp [left, appetite, hw, hphase]
  · simp [left, appetite, hw]

/-- Once `running` is cleared, every step brings the end nearer. -/
theorem step_remaining {l : ThreadStep} (hL : Lifecycle t) (hstop : t.running = false) (h : step uuids t l = some t') :
    t'.running = false ∧ t'.remaining < t.remaining ∧
      t'.consumed.length + t'.appetite ≤ t.consumed.length + t.appetite := by
  have ho := hL.running.1 hstop
  cases l with
  | worker answer =>
    obtain ⟨hleft, hconsumed⟩ := worker_step_left hstop h
    have hframe := worker_frame h
    refine ⟨hframe.2.trans hstop, ?_, hconsumed⟩
    rw [remaining, remaining, hframe.1]
    omega
  | join =>
    simp only [CounterThreads.step] at h
    split at h
    · rename_i howner hw
      cases h
      exact ⟨hstop, by simp [remaining, left, howner, hw], by simp [appetite, hw]⟩
    · cases h
  | build | swap | visit now produceRc | leave | stop =>
    rcases ho with ho | ho
    · simp [CounterThreads.step, ho] at h
    · simp [CounterThreads.step, ho] at h

/-- As long as the owner is in the destructor, somebody can move. -/
theorem exists_step_joining (hR : Refines t s) (ho : t.owner = .joining) (uuids : List Bytes) :
    ∃ l t', step uuids t l = some t' := by
  have howner : ¬ t.shared.Inside .owner := by
    rw [hR.owner_inside, ho]
    simp
  have hworker := hR.worker_inside
  suffices hw : t.worker = .done ∨ ∃ t', t.workerStep (.none 0 0) = some t' by
    rcases hw with hw | ⟨t', ht'⟩
    · exact ⟨.join, { t with owner := .destroyed }, by simp [CounterThreads.step, ho, hw]⟩
    · exact ⟨.worker (.none 0 0), t', ht'⟩
  cases hw : t.worker with
  | lock data =>
    right
    rw [hw] at hworker
    have hfree : t.shared.holder = none := by
      cases hholder : t.shared.holder with
      | none => rfl
      | some i =>
        have hin := (hR.exclusive i).2 hholder
        cases i with
        | worker => simp [hin] at hworker
        | owner => exact absurd hin howner
    obtain ⟨shared, hshared⟩ := Guarded.State.exists_lock hfree hR.exclusive .worker
      (UUIDCountersDB.incrementPieces data.uuid data.bytes) (registers ∅)
    simp [workerStep, hw, hshared]
  | increment data =>
    right
    rcases Guarded.State.exists_step_inside (hworker.2 ⟨data, hw⟩) with ⟨shared, hshared⟩ | ⟨shared, hshared⟩
    · simp [workerStep, hw, hshared]
    · cases hpiece : t.shared.piece .worker <;> simp [workerStep, hw, hshared, hpiece]
  | test | report data rc => simp [workerStep, hw]
  | consume => simp [workerStep, hw, UUIDBytes.none]
  | done => exact .inl rfl

theorem run_remaining {ls : List ThreadStep} (hL : Lifecycle t) (hstop : t.running = false)
    (h : Runs.run (step uuids) t ls = some t') :
    t'.running = false ∧ ls.length + t'.remaining ≤ t.remaining ∧
      t'.consumed.length + t'.appetite ≤ t.consumed.length + t.appetite := by
  have hrun := Runs.run_induction (P := fun ls t' => Lifecycle t' ∧ t'.running = false ∧
      ls.length + t'.remaining ≤ t.remaining ∧ t'.consumed.length + t'.appetite ≤ t.consumed.length + t.appetite)
    ⟨hL, hstop, by simp, le_refl _⟩ (fun ls t₁ l t₂ hP hstep => ?_) h
  · exact hrun.2
  · obtain ⟨hL₁, hstop₁, hlen, hconsumed⟩ := hP
    obtain ⟨hstop₂, hless, hconsumed₂⟩ := step_remaining hL₁ hstop₁ hstep
    refine ⟨hL₁.step hstep, hstop₂, ?_, hconsumed₂.trans hconsumed⟩
    rw [List.length_append, List.length_singleton]
    omega

/-- From wherever `running` is cleared, every run ends after nine more steps at most, with the worker
gone and the counter destroyed; the worker consumes one more message at most. -/
theorem destructor_terminates (uuids : List Bytes) (ls : List ThreadStep) (t : CounterThreads)
    (h : Runs.run (step uuids) (init uuids) ls = some t) (hstop : t.running = false) (ks : List ThreadStep)
    (t' : CounterThreads) (hks : Runs.run (step uuids) t ks = some t') :
    ks.length ≤ 9 ∧ t'.consumed.length ≤ t.consumed.length + 1 ∧
    ((∀ l, step uuids t' l = none) ↔ t'.owner = .destroyed) ∧
    (t'.owner = .destroyed → t'.worker = .done) := by
  have hL := lifecycle_run h
  obtain ⟨hstop', hlen, hconsumed⟩ := run_remaining hL hstop hks
  have hrun : Runs.run (step uuids) (init uuids) (ls ++ ks) = some t' := by
    rw [Runs.run_append, h]
    exact hks
  have hL' := lifecycle_run hrun
  obtain ⟨-, s, -, hR'⟩ := refines_run hrun
  obtain ⟨hremaining, happetite⟩ := hL.bounds
  refine ⟨by omega, by omega, ⟨?_, ?_⟩, hL'.destroyed⟩
  · intro hstuck
    rcases hL'.running.1 hstop' with ho | ho
    · obtain ⟨l, t'', hl⟩ := exists_step_joining hR' ho uuids
      rw [hstuck] at hl
      cases hl
    · exact ho
  · intro ho l
    cases hl : step uuids t' l with
    | none => rfl
    | some t'' =>
      have hless := (step_remaining hL' hstop' hl).2.1
      simp [remaining, left, ho, hL'.destroyed ho] at hless

/-- The destructor meets the worker in `consume`, and five more bytes are counted: the bounds are reached. -/
theorem destructor_terminates_in_consume :
    ∃ t t', Runs.run (step [lit "a"]) (init [lit "a"]) [.worker (.none 0 0), .stop] = some t ∧
      Runs.run (step [lit "a"]) t (List.replicate 8 (.worker (.make (lit "a") 5)) ++ [.join]) = some t' ∧
      (List.replicate 8 (ThreadStep.worker (.make (lit "a") 5)) ++ [ThreadStep.join]).length ≤ 9 ∧
      t'.consumed.length ≤ t.consumed.length + 1 ∧ t'.worker = .done := by
  have hrun : (Runs.run (step [lit "a"]) (init [lit "a"]) [.worker (.none 0 0), .stop]).map
      (fun t => (t.running, (Runs.run (step [lit "a"]) t (List.replicate 8 (.worker (.make (lit "a") 5)) ++ [.join])).map
        fun t' => match t'.owner with | .destroyed => true | _ => false)) = some (false, some true) := by decide
  obtain ⟨t, ht, hv⟩ := Option.map_eq_some_iff.1 hrun
  obtain ⟨hstop, hrest⟩ := Prod.mk.inj hv
  obtain ⟨t', ht', hdestroyed⟩ := Option.map_eq_some_iff.1 hrest
  have ho : t'.owner = .destroyed := by
    split at hdestroyed
    · assumption
    · cases hdestroyed
  obtain ⟨hlen, hconsumed, -, hdone⟩ := destructor_terminates _ _ t ht hstop _ t' ht'
  exact ⟨t, t', ht, ht', hlen, hconsumed, hdone ho⟩

end CounterThreads
end EventsCounter
