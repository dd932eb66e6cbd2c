import EventsCounter.CounterAccounting
import EventsCounter.Lib.Guarded

/-!
# The two threads of `UUIDCounter`

The worker and the thread that owns the counter, at the grain of single accesses to the table: only
the mutex makes the steps of `CounterSide` out of them. The worker's `find`, its load and its store
are three pieces, as are the three assignments of a swap, and any piece of the other thread may come
in between.

`Refines` gives each state the one of `CounterSide` it stands for, in which a critical section has
happened as soon as the mutex is taken. So `CounterSide` leaves out no interleaving
(`threads_refine_counterSide`).
-/

namespace EventsCounter

open Guarded (Section)

inductive Thread
  | worker
  | owner
deriving DecidableEq, Repr

/-- What a thread has of its own inside a critical section: the entry found, what has been read of it
and the code to return, for `uuid_increment`; the other table and the one set aside, for `swap`. -/
structure Registers where
  found : Bool
  second : UInt64
  incrementRc : IncrementResult
  other : Counters
  aside : Counters

/-- `uuid_increment` without limits, access by access. -/
def UUIDCountersDB.incrementPieces (tUuid : Bytes) (n : UInt64) : Section Counters Registers :=
  [fun (counters, r) => (counters, { r with found := counters.contains tUuid }),
    fun (counters, r) => (counters, if r.found then { r with second := counters.getD tUuid 0 } else r),
    fun (counters, r) =>
      if r.found then (counters.insert tUuid (r.second + n), { r with incrementRc := .incrementOk })
      else (counters, { r with incrementRc := .incrementNotExists })]

/-- `swap`, assignment by assignment. -/
def UUIDCountersDB.swapPieces : Section Counters Registers :=
  [fun (counters, r) => (counters, { r with aside := counters }),
    fun (_, r) => (r.other, r),
    fun (counters, r) => (counters, { r with other := r.aside })]

inductive WorkerPc
  | test
  | consume
  | lock (data : UUIDBytes)
  | increment (data : UUIDBytes)
  | report (data : UUIDBytes) (incrementRc : IncrementResult)
  | done

/-- The thread that owns the counter: in its rounds, inside `swap_counters`, and in the destructor. -/
inductive OwnerPc
  | round (r : Round)
  | swapping
  | joining
  | destroyed

structure CounterThreads where
  shared : Guarded.State Thread Counters Registers
  running : Bool
  worker : WorkerPc
  owner : OwnerPc
  calls : List ProduceCall
  /-- All non-empty data `consume` has returned, oldest first. -/
  consumed : List UUIDBytes

inductive ThreadStep
  /-- The next piece of the worker; `answer` is what `consume` returns, if it is called. -/
  | worker (answer : UUIDBytes)
  | build
  | swap
  | visit (now : UInt64) (produceRc : RdKafkaErrorCode)
  | leave
  | stop
  | join

namespace CounterThreads

def registers (other : Counters) : Registers := ⟨false, 0, .incrementOk, other, ∅⟩

/-- The worker is started last, when every member it uses has been initialised. -/
def init (uuids : List Bytes) : CounterThreads :=
  ⟨⟨makeUuidCountersBoostrapDb uuids, none, fun _ => .outside (registers ∅)⟩, true, .test, .round .idle, [], []⟩

/-- `UUIDCounter::run`. -/
def workerStep (t : CounterThreads) (answer : UUIDBytes) : Option CounterThreads :=
  match t.worker with
  | .test => some { t with worker := if t.running then .consume else .done }
  | .consume =>
    if answer.isEmpty then some { t with worker := .test }
    else some { t with worker := .lock answer, consumed := t.consumed ++ [answer] }
  | .lock data =>
    (t.shared.lock .worker (UUIDCountersDB.incrementPieces data.uuid data.bytes) (registers ∅)).map fun shared =>
      { t with shared, worker := .increment data }
  | .increment data =>
    match t.shared.piece .worker with
    | some shared => some { t with shared }
    | none => (t.shared.unlock .worker).map fun shared =>
      { t with shared, worker := .report data (shared.outcome .worker).2.incrementRc }
  -- the result is printed, and nothing else
  | .report _ _ => some { t with worker := .test }
  | .done => none

def step (uuids : List Bytes) (t : CounterThreads) : ThreadStep → Option CounterThreads
  | .worker answer => t.workerStep answer
  | .build =>
    match t.owner with
    | .round .idle => some { t with owner := .round (.built (makeUuidCountersBoostrapDb uuids)) }
    | _ => none
  | .swap =>
    match t.owner with
    | .round (.built countersUuids) =>
      (t.shared.lock .owner UUIDCountersDB.swapPieces (registers countersUuids)).map fun shared =>
        { t with shared, owner := .swapping }
    | .swapping =>
      match t.shared.piece .owner with
      | some shared => some { t with shared }
      | none => (t.shared.unlock .owner).map fun shared =>
        { t with shared, owner := .round (.walking [] (shared.outcome .owner).2.other.toList) }
    | _ => none
  | .visit now produceRc =>
    match t.owner with
    | .round (.walking walked (tCounter :: pending)) =>
      let (tCounter, calls) := visitEntry tCounter now produceRc
      some { t with owner := .round (.walking (walked ++ [tCounter]) pending), calls := t.calls ++ calls }
    | _ => none
  | .leave =>
    match t.owner with
    | .round (.walking _ []) => some { t with owner := .round .idle }
    | _ => none
  | .stop =>
    match t.owner with
    | .round .idle => some { t with running := false, owner := .joining }
    | _ => none
  | .join =>
    match t.owner, t.worker with
    | .joining, .done => some { t with owner := .destroyed }
    | _, _ => none

/-- What the worker holds in its hand, on the way to the mutex. -/
def inHand (t : CounterThreads) : List UUIDBytes :=
  match t.worker with
  | .lock data => [data]
  | _ => []

/-- The round as it is once the owner is out of `swap_counters`. -/
def roundOf (t : CounterThreads) : Round :=
  match t.owner with
  | .round r => r
  | .swapping => .walking [] (t.shared.outcome .owner).2.other.toList
  | .joining => .idle
  | .destroyed => .idle

structure Refines (t : CounterThreads) (s : CounterSide) : Prop where
  exclusive : t.shared.Exclusive
  worker_inside : t.shared.Inside .worker ↔ ∃ data, t.worker = .increment data
  owner_inside : t.shared.Inside .owner ↔ t.owner = .swapping
  table : s.db.counters = t.shared.settled
  round : s.round = t.roundOf
  calls : s.calls = t.calls
  consumed : t.consumed = s.counted ++ t.inHand
  inHand : ∀ data ∈ t.inHand, data.isEmpty = false

variable {uuids : List Bytes} {t t' : CounterThreads} {s : CounterSide} {u : Bytes} {n : UInt64} {m : Counters}
  {r : Registers} {answer : UUIDBytes}

/-! ### The sections as a whole -/

theorem effect_incrementPieces : ((UUIDCountersDB.incrementPieces u n).effect (m, r)).1 =
    (UUIDCountersDB.uuidIncrement ⟨m⟩ u n).2.counters := by
  unfold UUIDCountersDB.incrementPieces Section.effect UUIDCountersDB.uuidIncrement
  by_cases hu : u ∈ m
  · simp [hu, Std.ExtTreeMap.getD_eq_getD_getElem?]
  · simp [hu]

theorem effect_swapPieces : (UUIDCountersDB.swapPieces.effect (m, r)).1 = r.other ∧
    (UUIDCountersDB.swapPieces.effect (m, r)).2.other = m := ⟨rfl, rfl⟩

/-! ### What a step can do -/

theorem workerStep_cases (h : t.workerStep answer = some t') :
    (t.worker = .test ∧ t' = { t with worker := if t.running then .consume else .done }) ∨
    (t.worker = .consume ∧ answer.isEmpty = true ∧ t' = { t with worker := .test }) ∨
    (t.worker = .consume ∧ answer.isEmpty = false ∧
      t' = { t with worker := .lock answer, consumed := t.consumed ++ [answer] }) ∨
    (∃ data shared, t.worker = .lock data ∧
      t.shared.lock .worker (UUIDCountersDB.incrementPieces data.uuid data.bytes) (registers ∅) = some shared ∧
      t' = { t with shared, worker := .increment data }) ∨
    (∃ data shared, t.worker = .increment data ∧ t.shared.piece .worker = some shared ∧ t' = { t with shared }) ∨
    (∃ data shared, t.worker = .increment data ∧ t.shared.unlock .worker = some shared ∧
      t' = { t with shared, worker := .report data (shared.outcome .worker).2.incrementRc }) ∨
    (∃ data rc, t.worker = .report data rc ∧ t' = { t with worker := .test }) := by
  unfold workerStep at h
  cases hw : t.worker with
  | test =>
    simp only [hw, Option.some.injEq] at h
    exact .inl ⟨rfl, h.symm⟩
  | consume =>
    simp only [hw] at h
    split at h
    · cases h
      exact .inr (.inl ⟨rfl, ‹_›, rfl⟩)
    · cases h
      exact .inr (.inr (.inl ⟨rfl, Bool.eq_false_iff.2 ‹_›, rfl⟩))
  | lock data =>
    simp only [hw] at h
    obtain ⟨shared, hshared, rfl⟩ := Option.map_eq_some_iff.1 h
    exact .inr (.inr (.inr (.inl ⟨data, shared, rfl, hshared, rfl⟩)))
  | increment data =>
    simp only [hw] at h
    split at h
    · cases h
      exact .inr (.inr (.inr (.inr (.inl ⟨data, _, rfl, ‹_›, rfl⟩))))
    · obtain ⟨shared, hshared, rfl⟩ := Option.map_eq_some_iff.1 h
      exact .inr (.inr (.inr (.inr (.inr (.inl ⟨data, shared, rfl, hshared, rfl⟩)))))
  | report data rc =>
    simp only [hw, Option.some.injEq] at h
    exact .inr (.inr (.inr (.inr (.inr (.inr ⟨data, rc, rfl, h.symm⟩)))))
  | done =>
    simp only [hw] at h
    cases h

theorem swap_cases (h : step uuids t .swap = some t') :
    (∃ fresh shared, t.owner = .round (.built fresh) ∧
      t.shared.lock .owner UUIDCountersDB.swapPieces (registers fresh) = some shared ∧
      t' = { t with shared, owner := .swapping }) ∨
    (∃ shared, t.owner = .swapping ∧ t.shared.piece .owner = some shared ∧ t' = { t with shared }) ∨
    (∃ shared, t.owner = .swapping ∧ t.shared.unlock .owner = some shared ∧
      t' = { t with shared, owner := .round (.walking [] (shared.outcome .owner).2.other.toList) }) := by
  simp only [step] at h
  split at h
  · obtain ⟨shared, hshared, rfl⟩ := Option.map_eq_some_iff.1 h
    exact .inl ⟨_, shared, ‹_›, hshared, rfl⟩
  · split at h
    · cases h
      exact .inr (.inl ⟨_, ‹_›, ‹_›, rfl⟩)
    · obtain ⟨shared, hshared, rfl⟩ := Option.map_eq_some_iff.1 h
      exact .inr (.inr ⟨shared, ‹_›, hshared, rfl⟩)
  · cases h

/-! ### Refinement -/

/-- The atomic steps of a step: a section happens when the mutex is taken. -/
def matching (t : CounterThreads) : ThreadStep → List CounterStep
  | .worker _ =>
    match t.worker with
    | .lock data => [.count data]
    | _ => []
  | .build => [.build]
  | .swap =>
    match t.owner with
    | .round (.built _) => [.swap]
    | _ => []
  | .visit now produceRc => [.visit now produceRc]
  | .leave => [.leave]
  | .stop => []
  | .join => []

theorem refines_init : Refines (init uuids) (CounterSide.init uuids) := by
  refine ⟨?_, ?_, ?_, rfl, rfl, rfl, rfl, ?_⟩
  · intro i
    simp [init, Guarded.State.Inside]
  · simp [init, Guarded.State.Inside]
  · simp [init, Guarded.State.Inside]
  · intro data hdata
    cases hdata

theorem inside_of_ne {i j : Thread} (hij : j ≠ i) {value : Counters} {holder : Option Thread}
    {p : Guarded.Phase Counters Registers} {g : Guarded.State Thread Counters Registers} :
    Guarded.State.Inside ⟨value, holder, Function.update g.phase i p⟩ j ↔ g.Inside j := by
  rw [Guarded.State.inside_update, if_neg hij]

theorem roundOf_eq (h : t.owner ≠ .swapping) (shared : Guarded.State Thread Counters Registers) (worker : WorkerPc)
    (consumed : List UUIDBytes) : roundOf { t with shared, worker, consumed } = t.roundOf := by
  unfold roundOf
  cases ho : t.owner with
  | swapping => exact absurd ho h
  | round r => rfl
  | joining => rfl
  | destroyed => rfl

theorem Refines.not_swapping (hR : Refines t s) (h : t.shared.holder ≠ some .owner) : t.owner ≠ .swapping := by
  intro ho
  exact h ((hR.exclusive .owner).1 (hR.owner_inside.2 ho))

/-- The worker outside of its section: only what it has in hand matters. -/
theorem Refines.worker_moves (hR : Refines t s) (hout : ¬ ∃ data, t.worker = .increment data) {worker : WorkerPc}
    {consumed : List UUIDBytes} (hworker : ¬ ∃ data, worker = .increment data)
    (hconsumed : consumed = s.counted ++ CounterThreads.inHand { t with worker, consumed })
    (hempty : ∀ data ∈ CounterThreads.inHand { t with worker, consumed }, data.isEmpty = false) :
    Refines { t with worker, consumed } s := by
  refine ⟨hR.exclusive, ?_, hR.owner_inside, hR.table, hR.round, hR.calls, hconsumed, hempty⟩
  rw [hR.worker_inside]
  exact iff_of_false hout hworker

theorem Refines.worker_locks (uuids : List Bytes) (hR : Refines t s) {data : UUIDBytes}
    {shared : Guarded.State Thread Counters Registers}
    (hw : t.worker = .lock data)
    (h : t.shared.lock .worker (UUIDCountersDB.incrementPieces data.uuid data.bytes) (registers ∅) = some shared) :
    ∃ s', CounterSide.step uuids s (.count data) = some s' ∧ Refines { t with shared, worker := .increment data } s' := by
  obtain ⟨hholder, -, hshared⟩ := Guarded.State.lock_cases h
  have hhand : t.inHand = [data] := by simp [CounterThreads.inHand, hw]
  have hdata := hR.inHand data (by simp [hhand])
  have hswap := hR.not_swapping (by simp [hholder])
  have hsettled := (Guarded.State.settled_lock h).1
  rw [effect_incrementPieces] at hsettled
  have htable : s.db = ⟨t.shared.settled⟩ := by rw [← hR.table]
  refine ⟨s.run data, rfl, hR.exclusive.lock h, ?_, ?_, ?_, ?_, ?_, ?_, ?_⟩
  · refine iff_of_true ?_ ⟨data, rfl⟩
    rw [hR.exclusive.lock h, hshared]
  · show shared.Inside .owner ↔ t.owner = .swapping
    rw [hshared, inside_of_ne (by decide), hR.owner_inside]
  · show (s.run data).db.counters = shared.settled
    rw [hsettled, ← htable]
    simp [CounterSide.run, hdata]
  · rw [roundOf_eq hswap shared (.increment data) t.consumed, ← hR.round]
    simp [CounterSide.run, hdata]
  · show (s.run data).calls = t.calls
    rw [← hR.calls]
    simp [CounterSide.run, hdata]
  · show t.consumed = (s.run data).counted ++ []
    rw [hR.consumed, hhand]
    simp [CounterSide.run, hdata]
  · intro d hd
    cases hd

theorem Refines.worker_piece (hR : Refines t s) {data : UUIDBytes} {shared : Guarded.State Thread Counters Registers}
    (hw : t.worker = .increment data) (h : t.shared.piece .worker = some shared) : Refines { t with shared } s := by
  obtain ⟨p, rest, r, hphase, hshared⟩ := Guarded.State.piece_cases h
  have hinside : t.shared.Inside .worker := ⟨_, _, hphase⟩
  have hholder := (hR.exclusive .worker).1 hinside
  have hswap := hR.not_swapping (by simp [hholder])
  refine ⟨hR.exclusive.piece h, ?_, ?_, ?_, ?_, hR.calls, hR.consumed, hR.inHand⟩
  · refine iff_of_true ?_ ⟨data, hw⟩
    rw [hR.exclusive.piece h, hshared]
    exact hholder
  · show shared.Inside .owner ↔ t.owner = .swapping
    rw [hshared, inside_of_ne (by decide), hR.owner_inside]
  · exact hR.table.trans (Guarded.State.settled_piece hR.exclusive h).1.symm
  · rw [roundOf_eq hswap shared t.worker t.consumed]
    exact hR.round

theorem Refines.worker_unlocks (hR : Refines t s) {data : UUIDBytes} {shared : Guarded.State Thread Counters Registers}
    (hw : t.worker = .increment data) (h : t.shared.unlock .worker = some shared) (rc : IncrementResult) :
    Refines { t with shared, worker := .report data rc } s := by
  obtain ⟨r, hphase, hshared⟩ := Guarded.State.unlock_cases h
  have hholder := (hR.exclusive .worker).1 ⟨_, _, hphase⟩
  have hswap := hR.not_swapping (by simp [hholder])
  have hhand : t.inHand = [] := by simp [CounterThreads.inHand, hw]
  refine ⟨hR.exclusive.unlock h, ?_, ?_, ?_, ?_, hR.calls, ?_, ?_⟩
  · refine iff_of_false ?_ (by simp)
    rw [hR.exclusive.unlock h, hshared]
    simp
  · show shared.Inside .owner ↔ t.owner = .swapping
    rw [hshared, inside_of_ne (by decide), hR.owner_inside]
  · exact hR.table.trans (Guarded.State.settled_unlock hR.exclusive h).1.symm
  · rw [roundOf_eq hswap shared (.report data rc) t.consumed]
    exact hR.round
  · show t.consumed = s.counted ++ []
    rw [← hhand]
    exact hR.consumed
  · intro d hd
    cases hd

theorem Refines.worker_step (hR : Refines t s) (h : t.workerStep answer = some t') :
    ∃ s', Runs.run (CounterSide.step uuids) s (matching t (.worker answer)) = some s' ∧ Refines t' s' := by
  have hhand := hR.consumed
  have hout := hR.worker_moves
  unfold CounterThreads.inHand at hhand
  rcases workerStep_cases h with ⟨hw, rfl⟩ | ⟨hw, hdata, rfl⟩ | ⟨hw, hdata, rfl⟩ | ⟨data, shared, hw, hlock, rfl⟩ |
    ⟨data, shared, hw, hpiece, rfl⟩ | ⟨data, shared, hw, hunlock, rfl⟩ | ⟨data, rc, hw, rfl⟩
  all_goals simp only [hw] at hhand hout
  all_goals simp only [matching, hw]
  · refine ⟨s, rfl, hout (by simp) ?_ ?_ ?_⟩
    · split <;> simp
    · rw [hhand]
      split <;> rfl
    · intro d hd
      split at hd <;> cases hd
  · exact ⟨s, rfl, hout (by simp) (by simp) hhand (fun d hd => by cases hd)⟩
  · refine ⟨s, rfl, hout (by simp) (by simp) (by rw [hhand]; simp [CounterThreads.inHand]) fun d hd => ?_⟩
    rw [List.mem_singleton.1 hd]
    exact hdata
  · obtain ⟨s', hs', hR'⟩ := hR.worker_locks uuids hw hlock
    exact ⟨s', by simp [hs'], hR'⟩
  · have hpieces := hR.worker_piece hw hpiece
    rw [hw] at hpieces
    exact ⟨s, rfl, hpieces⟩
  · exact ⟨s, rfl, hR.worker_unlocks hw hunlock _⟩
  · exact ⟨s, rfl, hout (by simp) (by simp) hhand (fun d hd => by cases hd)⟩

theorem Refines.owner_moves (hR : Refines t s) {owner : OwnerPc} (hold : t.owner ≠ .swapping) (hnew : owner ≠ .swapping)
    {running : Bool} {calls : List ProduceCall} {s' : CounterSide} (hdb : s'.db = s.db) (hcounted : s'.counted = s.counted)
    (hround : s'.round = roundOf { t with running, owner, calls }) (hcalls : s'.calls = calls) :
    Refines { t with running, owner, calls } s' := by
  refine ⟨hR.exclusive, hR.worker_inside, ?_, ?_, hround, hcalls, ?_, hR.inHand⟩
  · rw [hR.owner_inside]
    exact iff_of_false hold hnew
  · rw [hdb]
    exact hR.table
  · rw [hcounted]
    exact hR.consumed

theorem Refines.owner_locks (uuids : List Bytes) (hR : Refines t s) {fresh : Counters}
    {shared : Guarded.State Thread Counters Registers}
    (ho : t.owner = .round (.built fresh))
    (h : t.shared.lock .owner UUIDCountersDB.swapPieces (registers fresh) = some shared) :
    ∃ s', CounterSide.step uuids s .swap = some s' ∧ Refines { t with shared, owner := .swapping } s' := by
  obtain ⟨hholder, -, hshared⟩ := Guarded.State.lock_cases h
  obtain ⟨hsettled, houtcome⟩ := Guarded.State.settled_lock h
  have hround : s.round = .built fresh := by
    rw [hR.round, roundOf, ho]
  refine ⟨{ s with db := ⟨fresh⟩, round := .walking [] s.db.counters.toList }, ?_, hR.exclusive.lock h, ?_, ?_, ?_, ?_,
    hR.calls, hR.consumed, hR.inHand⟩
  · simp only [CounterSide.step, hround, UUIDCountersDB.swap]
  · show shared.Inside .worker ↔ ∃ data, t.worker = .increment data
    rw [hshared, inside_of_ne (by decide), hR.worker_inside]
  · refine iff_of_true ?_ rfl
    rw [hR.exclusive.lock h, hshared]
  · exact hsettled.symm
  · show Round.walking [] _ = .walking [] _
    have hother := (@effect_swapPieces t.shared.settled (registers fresh)).2
    rw [houtcome, hother, hR.table]

theorem Refines.owner_piece (hR : Refines t s) {shared : Guarded.State Thread Counters Registers}
    (ho : t.owner = .swapping) (h : t.shared.piece .owner = some shared) : Refines { t with shared } s := by
  obtain ⟨p, rest, r, hphase, hshared⟩ := Guarded.State.piece_cases h
  have hholder := (hR.exclusive .owner).1 ⟨_, _, hphase⟩
  obtain ⟨hsettled, houtcome⟩ := Guarded.State.settled_piece hR.exclusive h
  have hround := hR.round
  refine ⟨hR.exclusive.piece h, ?_, ?_, hR.table.trans hsettled.symm, ?_, hR.calls, hR.consumed, hR.inHand⟩
  · show shared.Inside .worker ↔ ∃ data, t.worker = .increment data
    rw [hshared, inside_of_ne (by decide), hR.worker_inside]
  · refine iff_of_true ?_ ho
    rw [hR.exclusive.piece h, hshared]
    exact hholder
  · simp only [roundOf, ho] at hround ⊢
    rw [hround, houtcome]

theorem Refines.owner_unlocks (hR : Refines t s) {shared : Guarded.State Thread Counters Registers}
    (ho : t.owner = .swapping) (h : t.shared.unlock .owner = some shared) :
    Refines { t with shared, owner := .round (.walking [] (shared.outcome .owner).2.other.toList) } s := by
  obtain ⟨r, hphase, hshared⟩ := Guarded.State.unlock_cases h
  obtain ⟨hsettled, houtcome⟩ := Guarded.State.settled_unlock hR.exclusive h
  have hround := hR.round
  refine ⟨hR.exclusive.unlock h, ?_, ?_, hR.table.trans hsettled.symm, ?_, hR.calls, hR.consumed, hR.inHand⟩
  · show shared.Inside .worker ↔ ∃ data, t.worker = .increment data
    rw [hshared, inside_of_ne (by decide), hR.worker_inside]
  · refine iff_of_false ?_ (by simp)
    rw [hR.exclusive.unlock h, hshared]
    simp
  · simp only [roundOf, ho] at hround
    rw [hround, ← houtcome]
    rfl

theorem Refines.step {l : ThreadStep} (hR : Refines t s) (h : step uuids t l = some t') :
    ∃ s', Runs.run (CounterSide.step uuids) s (matching t l) = some s' ∧ Refines t' s' := by
  have hround := hR.round
  unfold roundOf at hround
  cases l with
  | worker answer => exact hR.worker_step h
  | build =>
    simp only [CounterThreads.step] at h
    split at h
    · rename_i ho
      cases h
      simp only [ho] at hround
      refine ⟨{ s with round := .built (makeUuidCountersBoostrapDb uuids) }, ?_,
        hR.owner_moves (by simp [ho]) (by simp) rfl rfl rfl hR.calls⟩
      simp [matching, CounterSide.step, hround]
    · cases h
  | swap =>
    rcases swap_cases h with ⟨fresh, shared, ho, hlock, rfl⟩ | ⟨shared, ho, hpiece, rfl⟩ | ⟨shared, ho, hunlock, rfl⟩
    · obtain ⟨s', hs', hR'⟩ := hR.owner_locks uuids ho hlock
      exact ⟨s', by simp [matching, ho, hs'], hR'⟩
    · exact ⟨s, by simp [matching, ho], hR.owner_piece ho hpiece⟩
    · exact ⟨s, by simp [matching, ho], hR.owner_unlocks ho hunlock⟩
  | visit now produceRc =>
    simp only [CounterThreads.step] at h
    split at h
    · rename_i walked tCounter pending ho
      cases h
      simp only [ho] at hround
      refine ⟨{ s with round := .walking (walked ++ [(visitEntry tCounter now produceRc).1]) pending,
                       calls := s.calls ++ (visitEntry tCounter now produceRc).2 }, ?_,
        hR.owner_moves (by simp [ho]) (by simp) rfl rfl rfl (by rw [← hR.calls])⟩
      simp [matching, CounterSide.step, hround]
    · cases h
  | leave =>
    simp only [CounterThreads.step] at h
    split at h
    · rename_i ho
      cases h
      simp only [ho] at hround
      refine ⟨{ s with round := .idle }, ?_, hR.owner_moves (by simp [ho]) (by simp) rfl rfl rfl hR.calls⟩
      simp [matching, CounterSide.step, hround]
    · cases h
  | stop =>
    simp only [CounterThreads.step] at h
    split at h
    · rename_i ho
      cases h
      simp only [ho] at hround
      exact ⟨s, rfl, hR.owner_moves (by simp [ho]) (by simp) rfl rfl hround hR.calls⟩
    · cases h
  | join =>
    simp only [CounterThreads.step] at h
    split at h
    · rename_i ho hw
      cases h
      simp only [ho] at hround
      exact ⟨s, rfl, hR.owner_moves (by simp [ho]) (by simp) rfl rfl hround hR.calls⟩
    · cases h

theorem refines_run {ls : List ThreadStep} (h : Runs.run (step uuids) (init uuids) ls = some t) :
    ∃ ks s, Runs.run (CounterSide.step uuids) (CounterSide.init uuids) ks = some s ∧ Refines t s :=
  Runs.run_simulation (fun _ _ _ _ hR hstep => hR.step hstep) refines_init h

def consumedBytes (u : Bytes) (t : CounterThreads) : ℕ :=
  Tally.tally UUIDBytes.uuid (fun d => d.bytes.toNat) u t.consumed

def handBytes (u : Bytes) (t : CounterThreads) : ℕ :=
  Tally.tally UUIDBytes.uuid (fun d => d.bytes.toNat) u t.inHand

/-- Whatever the interleaving of the single accesses: the two threads are never in their sections at the
same time, the state stands for one that atomic steps reach, and between two rounds, when the mutex is
free, every byte consumed of a configured uuid has been handed to `produce`, is in the table, or is in
the worker's hand, as long as all of them fit in a word. -/
theorem threads_refine_counterSide (uuids : List Bytes) (ls : List ThreadStep) (t : CounterThreads)
    (h : Runs.run (step uuids) (init uuids) ls = some t) :
    ¬ (t.shared.Inside .worker ∧ t.shared.Inside .owner) ∧
    (∃ ks s, Runs.run (CounterSide.step uuids) (CounterSide.init uuids) ks = some s ∧ Refines t s) ∧
    (t.owner = .round .idle → t.shared.holder = none → ∀ u ∈ uuids, consumedBytes u t < 2 ^ 64 →
      CounterSide.callBytes u t.calls + amount t.shared.value u + handBytes u t = consumedBytes u t) := by
  obtain ⟨ks, s, hrun, hR⟩ := refines_run h
  refine ⟨?_, ⟨ks, s, hrun, hR⟩, ?_⟩
  · rintro ⟨hworker, howner⟩
    cases hR.exclusive.eq hworker howner
  · intro ho hholder u hu hlt
    have hround := hR.round
    simp only [roundOf, ho] at hround
    have hsplit : consumedBytes u t = CounterSide.countedBytes u s + handBytes u t := by
      rw [consumedBytes, hR.consumed, Tally.tally_append]
      rfl
    have hacc : CounterSide.published u s + CounterSide.toWalk u s + amount s.db.counters u = CounterSide.countedBytes u s :=
      (CounterSide.inv_run hrun).outstanding_eq hu (by omega)
    have htable : amount s.db.counters u = amount t.shared.value u := by
      rw [hR.table, Guarded.State.settled_of_holder_none hholder]
    rw [CounterSide.published, hR.calls, CounterSide.toWalk, hround, htable] at hacc
    dsimp only at hacc
    omega

/-- The table is swapped when the worker is about to add five bytes to it: they go to the next round. -/
theorem threads_refine_counterSide_next_round :
    ∃ t, Runs.run (step [lit "a"]) (init [lit "a"])
        [.worker (.make (lit "a") 5), .worker (.make (lit "a") 5), .build, .swap, .swap, .swap, .swap, .swap, .visit 0 .errNoError,
          .leave] = some t ∧
      CounterSide.callBytes (lit "a") t.calls + amount t.shared.value (lit "a") + handBytes (lit "a") t =
        consumedBytes (lit "a") t := by
  have hrun : (Runs.run (step [lit "a"]) (init [lit "a"])
      [.worker (.make (lit "a") 5), .worker (.make (lit "a") 5), .build, .swap, .swap, .swap, .swap, .swap, .visit 0 .errNoError,
        .leave]).map (fun t => (t.shared.holder, consumedBytes (lit "a") t,
          match t.owner with | .round .idle => true | _ => false)) = some (none, 5, true) := by decide
  obtain ⟨t, ht, hv⟩ := Option.map_eq_some_iff.1 hrun
  simp only [Prod.mk.injEq] at hv
  obtain ⟨hholder, hconsumed, howner⟩ := hv
  have hidle : t.owner = .round .idle := by
    split at howner
    · assumption
    · cases howner
  exact ⟨t, ht, (threads_refine_counterSide _ _ t ht).2.2 hidle hholder (lit "a") (by decide) (by omega)⟩

end CounterThreads
end EventsCounter
