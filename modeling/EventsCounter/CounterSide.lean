import EventsCounter.CountersDB
import EventsCounter.Producer
import EventsCounter.Lib.Runs

/-!
# The counter side

The worker of `UUIDCounter` and the publish rounds of `main` share one counters table. Atomic steps
are what the mutex and the two threads make atomic: the worker counts one event; `main` builds the
fresh table, swaps it in, visits one entry of the table it got back, or leaves the round. Steps of
the two threads interleave freely.

A byte that was counted is in the worker's table, in the part of the swapped-out table not visited
yet, or passed to `produce`. `Inv` says so up to wrapping: no place but the worker's table ever adds.
-/

namespace EventsCounter

structure ProduceCall where
  counter : UUIDBytes
  request : ProduceRequest
  produceRc : RdKafkaErrorCode
deriving DecidableEq, Repr

/-- Where `main` is in a round. The swapped-out table is the entries visited so far, as they are
now, and those the loop has not reached. -/
inductive Round
  | idle
  | built (countersUuids : Counters)
  | walking (walked pending : List (Bytes × UInt64))

structure CounterSide where
  db : UUIDCountersDB
  round : Round
  /-- All calls of `produce`, oldest first. -/
  calls : List ProduceCall
  /-- All non-empty data the worker consumed, oldest first. -/
  counted : List UUIDBytes

inductive CounterStep
  | count (data : UUIDBytes)
  | build
  | swap
  | visit (now : UInt64) (produceRc : RdKafkaErrorCode)
  | leave

/-- What the worker counts in a step, unless `consume` has returned an empty value. -/
def CounterStep.data? : CounterStep → Option UUIDBytes
  | .count data => if data.isEmpty then none else some data
  | _ => none

/-- The body of the loop over the swapped-out table: the entry afterwards, and the call made. The
code `produce` returns is not looked at. -/
def visitEntry (tCounter : Bytes × UInt64) (now : UInt64) (produceRc : RdKafkaErrorCode) :
    (Bytes × UInt64) × List ProduceCall :=
  if tCounter.2 > 0 then
    let counter := UUIDBytes.make tCounter.1 tCounter.2
    let (request, _) := produce counter now produceRc
    ((tCounter.1, 0), [⟨counter, request, produceRc⟩])
  else (tCounter, [])

namespace CounterSide

def init (uuids : List Bytes) : CounterSide :=
  ⟨⟨makeUuidCountersBoostrapDb uuids⟩, .idle, [], []⟩

/-- One iteration of `UUIDCounter::run` on what `consume` returned. -/
def run (s : CounterSide) (data : UUIDBytes) : CounterSide :=
  if data.isEmpty then s
  else { s with db := (s.db.uuidIncrement data.uuid data.bytes).2, counted := s.counted ++ [data] }

def step (uuids : List Bytes) (s : CounterSide) : CounterStep → Option CounterSide
  | .count data => some (s.run data)
  | .build =>
    match s.round with
    | .idle => some { s with round := .built (makeUuidCountersBoostrapDb uuids) }
    | _ => none
  | .swap =>
    match s.round with
    | .built countersUuids =>
      let (db, countersUuids) := s.db.swap countersUuids
      some { s with db, round := .walking [] countersUuids.toList }
    | _ => none
  | .visit now produceRc =>
    match s.round with
    | .walking walked (tCounter :: pending) =>
      let (tCounter, calls) := visitEntry tCounter now produceRc
      some { s with round := .walking (walked ++ [tCounter]) pending, calls := s.calls ++ calls }
    | _ => none
  | .leave =>
    match s.round with
    | .walking _ [] => some { s with round := .idle }
    | _ => none

def sends (s : CounterSide) : CounterStep → List ProduceCall
  | .visit now produceRc =>
    match s.round with
    | .walking _ (tCounter :: _) => (visitEntry tCounter now produceRc).2
    | _ => []
  | _ => []

/-! ### Where the bytes of a uuid are -/

def countedBytes (u : Bytes) (s : CounterSide) : ℕ :=
  Tally.tally UUIDBytes.uuid (fun d => d.bytes.toNat) u s.counted

def callBytes (u : Bytes) (calls : List ProduceCall) : ℕ :=
  Tally.tally (fun c => c.counter.uuid) (fun c => c.counter.bytes.toNat) u calls

def entryBytes (u : Bytes) (entries : List (Bytes × UInt64)) : ℕ :=
  Tally.tally Prod.fst (fun e => e.2.toNat) u entries

def published (u : Bytes) (s : CounterSide) : ℕ := callBytes u s.calls

/-- Bytes of `u` in the swapped-out table, not yet walked past. -/
def toWalk (u : Bytes) (s : CounterSide) : ℕ :=
  match s.round with
  | .walking _ pending => entryBytes u pending
  | _ => 0

/-- Bytes of `u` in any counters table of the process. -/
def held (u : Bytes) (s : CounterSide) : ℕ :=
  amount s.db.counters u +
    match s.round with
    | .idle => 0
    | .built countersUuids => amount countersUuids u
    | .walking walked pending => entryBytes u (walked ++ pending)

def succeeded (u : Bytes) (s : CounterSide) : ℕ :=
  callBytes u (s.calls.filter fun c => c.produceRc = .errNoError)

def failed (u : Bytes) (s : CounterSide) : ℕ :=
  callBytes u (s.calls.filter fun c => !decide (c.produceRc = .errNoError))

def outstanding (u : Bytes) (s : CounterSide) : ℕ :=
  published u s + toWalk u s + amount s.db.counters u

/-! ### What a step can do -/

variable {uuids : List Bytes} {s s' : CounterSide} {l : CounterStep} {u k : Bytes}

theorem step_cases (h : step uuids s l = some s') :
    (∃ data, l = .count data ∧ data.isEmpty = true ∧ s' = s) ∨
    (∃ data, l = .count data ∧ data.isEmpty = false ∧ s' =
      { s with db := (s.db.uuidIncrement data.uuid data.bytes).2, counted := s.counted ++ [data] }) ∨
    (l = .build ∧ s.round = .idle ∧ s' = { s with round := .built (makeUuidCountersBoostrapDb uuids) }) ∨
    (∃ fresh, l = .swap ∧ s.round = .built fresh ∧
      s' = { s with db := ⟨fresh⟩, round := .walking [] s.db.counters.toList }) ∨
    (∃ now rc walked e pending, l = .visit now rc ∧ s.round = .walking walked (e :: pending) ∧
      s' = { s with round := .walking (walked ++ [(visitEntry e now rc).1]) pending,
                    calls := s.calls ++ (visitEntry e now rc).2 }) ∨
    (∃ walked, l = .leave ∧ s.round = .walking walked [] ∧ s' = { s with round := .idle }) := by
  cases l with
  | count data =>
    simp only [step, run, Option.some.injEq] at h
    cases hd : data.isEmpty with
    | true => exact .inl ⟨data, rfl, hd, by rw [← h, hd, if_pos rfl]⟩
    | false => exact .inr (.inl ⟨data, rfl, hd, by rw [← h, hd]; rfl⟩)
  | build =>
    simp only [step] at h
    split at h
    · cases h; exact .inr (.inr (.inl ⟨rfl, ‹_›, rfl⟩))
    · cases h
  | swap =>
    simp only [step] at h
    split at h
    · cases h; exact .inr (.inr (.inr (.inl ⟨_, rfl, ‹_›, rfl⟩)))
    · cases h
  | visit now rc =>
    simp only [step] at h
    split at h
    · cases h; exact .inr (.inr (.inr (.inr (.inl ⟨now, rc, _, _, _, rfl, ‹_›, rfl⟩))))
    · cases h
  | leave =>
    simp only [step] at h
    split at h
    · cases h; exact .inr (.inr (.inr (.inr (.inr ⟨_, rfl, ‹_›, rfl⟩))))
    · cases h

theorem calls_eq_append_sends (h : step uuids s l = some s') : s'.calls = s.calls ++ sends s l := by
  rcases step_cases h with ⟨data, rfl, -, rfl⟩ | ⟨data, rfl, -, rfl⟩ | ⟨rfl, -, rfl⟩ | ⟨fresh, rfl, -, rfl⟩ |
    ⟨now, rc, walked, e, pending, rfl, hr, rfl⟩ | ⟨walked, rfl, -, rfl⟩
  all_goals simp [sends, *]

theorem visitEntry_bytes (e : Bytes × UInt64) (now : UInt64) (rc : RdKafkaErrorCode) :
    callBytes u (visitEntry e now rc).2 = entryBytes u [e] ∧ (visitEntry e now rc).1 = (e.1, 0) := by
  obtain ⟨k, v⟩ := e
  unfold visitEntry
  split
  · exact ⟨rfl, rfl⟩
  · have hv : v = 0 := by
      have hle : v ≤ 0 := UInt64.not_lt.1 ‹_›
      exact UInt64.le_zero_iff.1 hle
    subst hv
    refine ⟨?_, rfl⟩
    simp [callBytes, entryBytes]

end CounterSide
end EventsCounter
