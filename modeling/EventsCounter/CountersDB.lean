import EventsCounter.Data
import EventsCounter.Lib.Tally

/-!
# `UUIDCountersDB`

The counters table of the worker and of the monitor: `uuidIncrement` adds to a uuid the table has
and compares with the limits it is given, `swap` exchanges the whole table.
`makeUuidCountersBoostrapDb` is the zero table `main` builds from the configured uuids, at start-up,
for every round and for every reset.
-/

namespace EventsCounter

inductive IncrementResult
  | incrementOk
  | incrementLimitReached
  | incrementNotExists
  | incrementNotExistsInLimits
deriving DecidableEq, Repr

structure UUIDCountersDB where
  counters : Counters

namespace UUIDCountersDB

/-- `uuid_increment`; `limits` is `NULL` by default. -/
def uuidIncrement (db : UUIDCountersDB) (tUuid : Bytes) (n : UInt64)
    (limits : Option Counters := none) : IncrementResult × UUIDCountersDB :=
  match db.counters[tUuid]? with
  | none => (.incrementNotExists, db)
  | some second =>
    let db := ⟨db.counters.insert tUuid (second + n)⟩
    match limits with
    | none => (.incrementOk, db)
    | some limits =>
      match limits[tUuid]? with
      | none => (.incrementNotExistsInLimits, db)
      | some limit => (if second + n > limit then .incrementLimitReached else .incrementOk, db)

/-- `swap`: the new table, and the one handed back through `other`. -/
def swap (db : UUIDCountersDB) (other : Counters) : UUIDCountersDB × Counters := (⟨other⟩, db.counters)

variable {db : UUIDCountersDB} {u k : Bytes} {n : UInt64} {limits : Option Counters}

theorem uuidIncrement_getElem? :
    (db.uuidIncrement u n limits).2.counters[k]? =
      if u = k then db.counters[k]?.map (· + n) else db.counters[k]? := by
  have hset : (db.uuidIncrement u n limits).2.counters =
      (match db.counters[u]? with
        | none => db.counters
        | some v => db.counters.insert u (v + n)) := by
    unfold uuidIncrement
    repeat' split
    all_goals rfl
  rw [hset]
  by_cases h : u = k
  · subst h
    cases hu : db.counters[u]? <;> simp [hu]
  · cases hu : db.counters[u]? <;> simp [h, Std.ExtTreeMap.getElem?_insert]

theorem mem_uuidIncrement : k ∈ (db.uuidIncrement u n limits).2.counters ↔ k ∈ db.counters := by
  simp only [Std.ExtTreeMap.mem_iff_isSome_getElem?, uuidIncrement_getElem?]
  split <;> simp

theorem uuidIncrement_of_notMem (h : u ∉ db.counters) :
    db.uuidIncrement u n limits = (.incrementNotExists, db) := by
  rw [Std.ExtTreeMap.mem_iff_isSome_getElem?, Option.not_isSome_iff_eq_none] at h
  simp [uuidIncrement, h]

theorem amount_uuidIncrement_of_ne (h : u ≠ k) :
    amount (db.uuidIncrement u n limits).2.counters k = amount db.counters k := by
  simp [amount, uuidIncrement_getElem?, h]

theorem amount_uuidIncrement_self (n : UInt64) (limits : Option Counters) (h : u ∈ db.counters) :
    ∃ v, db.counters[u]? = some v ∧ amount db.counters u = v.toNat ∧
      amount (db.uuidIncrement u n limits).2.counters u = (v + n).toNat := by
  obtain ⟨v, hv⟩ := Option.isSome_iff_exists.1 (Std.ExtTreeMap.mem_iff_isSome_getElem?.1 h)
  exact ⟨v, hv, by simp [amount, hv], by simp [amount, uuidIncrement_getElem?, hv]⟩

theorem uuidIncrement_limitReached_iff {limits : Counters} :
    (db.uuidIncrement u n (some limits)).1 = .incrementLimitReached ↔
      ∃ v l, db.counters[u]? = some v ∧ limits[u]? = some l ∧ l < v + n := by
  unfold uuidIncrement
  cases hv : db.counters[u]? with
  | none => simp
  | some v =>
    dsimp only
    cases hl : limits[u]? with
    | none => simp
    | some l => by_cases h : l < v + n <;> simp [h]

end UUIDCountersDB

def makeUuidCountersBoostrapDb (uuidList : List Bytes) : Counters :=
  uuidList.foldl (fun boostrapDb uuid => boostrapDb.insert uuid 0) ∅

theorem getElem?_foldl_insert_zero (uuids : List Bytes) (m : Counters) (k : Bytes) :
    (uuids.foldl (fun m u => m.insert u 0) m)[k]? = if k ∈ uuids then some 0 else m[k]? := by
  induction uuids generalizing m with
  | nil => simp
  | cons u us ih =>
    rw [List.foldl_cons, ih, Std.ExtTreeMap.getElem?_insert]
    by_cases hk : k ∈ us
    · simp [hk]
    · by_cases h : u = k <;> simp [hk, h, Ne.symm]

/-- The bootstrap table has the configured uuids, duplicates or not, all of them at `0`. -/
theorem getElem?_boostrapDb {uuids : List Bytes} {k : Bytes} :
    (makeUuidCountersBoostrapDb uuids)[k]? = if k ∈ uuids then some 0 else none := by
  rw [makeUuidCountersBoostrapDb, getElem?_foldl_insert_zero]
  simp

theorem mem_boostrapDb {uuids : List Bytes} {k : Bytes} :
    k ∈ makeUuidCountersBoostrapDb uuids ↔ k ∈ uuids := by
  rw [Std.ExtTreeMap.mem_iff_isSome_getElem?, getElem?_boostrapDb]
  split <;> simp [*]

theorem amount_boostrapDb (uuids : List Bytes) (k : Bytes) :
    amount (makeUuidCountersBoostrapDb uuids) k = 0 := by
  rw [amount, getElem?_boostrapDb]
  split <;> rfl

end EventsCounter
