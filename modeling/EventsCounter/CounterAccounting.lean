import EventsCounter.CounterSide

/-!
# Accounting on the counter side

`Inv` is kept by every step of the worker and of `main`. Its last two fields are the conservation
law: what is outstanding of a configured uuid is what was counted, less a number of whole wraps of
the worker's 64-bit counter. They give the exactly-once statement (`exactly_once_accounting`), and,
split by the answers of librdkafka, the exact amount a failed publish loses
(`publish_lossless_iff`).
-/

namespace EventsCounter
namespace CounterSide

variable {uuids : List Bytes} {s s' : CounterSide} {l : CounterStep} {u k : Bytes}

@[simp] theorem callBytes_append (cs cs' : List ProduceCall) :
    callBytes u (cs ++ cs') = callBytes u cs + callBytes u cs' := Tally.tally_append

@[simp] theorem entryBytes_append (es es' : List (Bytes × UInt64)) :
    entryBytes u (es ++ es') = entryBytes u es + entryBytes u es' := Tally.tally_append

theorem entryBytes_cons (e : Bytes × UInt64) (es : List (Bytes × UInt64)) :
    entryBytes u (e :: es) = entryBytes u [e] + entryBytes u es :=
  entryBytes_append [e] es

theorem entryBytes_toList (m : Counters) : entryBytes u m.toList = amount m u :=
  Tally.tally_toList m UInt64.toNat

theorem entryBytes_eq_zero {es : List (Bytes × UInt64)} (h : ∀ e ∈ es, e.2 = 0) : entryBytes u es = 0 :=
  Tally.tally_eq_zero fun e he _ => by rw [h e he]; rfl

def KeysOk (uuids : List Bytes) (entries : List (Bytes × UInt64)) : Prop :=
  (entries.map Prod.fst).Nodup ∧ ∀ k, k ∈ entries.map Prod.fst ↔ k ∈ uuids

/-- The round's table: the fresh one is the bootstrap table, the swapped-out one has the configured
uuids and holds nothing where the loop has been. -/
def RoundOk (uuids : List Bytes) : Round → Prop
  | .idle => True
  | .built countersUuids => countersUuids = makeUuidCountersBoostrapDb uuids
  | .walking walked pending => KeysOk uuids (walked ++ pending) ∧ ∀ e ∈ walked, e.2 = 0

structure Inv (uuids : List Bytes) (s : CounterSide) : Prop where
  keys : ∀ k, k ∈ s.db.counters ↔ k ∈ uuids
  round : RoundOk uuids s.round
  calls : ∀ c ∈ s.calls, c.counter.uuid ∈ uuids ∧ 0 < c.counter.bytes
  le : ∀ u ∈ uuids, outstanding u s ≤ countedBytes u s
  modEq : ∀ u ∈ uuids, countedBytes u s ≡ outstanding u s [MOD 2 ^ 64]

theorem keysOk_toList {m : Counters} (h : ∀ k, k ∈ m ↔ k ∈ uuids) : KeysOk uuids m.toList :=
  ⟨Tally.nodup_fst_toList m, fun k => by rw [Tally.mem_fst_toList, h]⟩

theorem inv_init : Inv uuids (init uuids) := by
  have hzero (u : Bytes) : outstanding u (init uuids) = 0 := by
    show 0 + 0 + amount (makeUuidCountersBoostrapDb uuids) u = 0
    rw [amount_boostrapDb]
  refine ⟨fun k => mem_boostrapDb, trivial, ?_, ?_, ?_⟩
  · intro c hc; cases hc
  · intro u _; rw [hzero]; exact Nat.zero_le _
  · intro u _; rw [hzero]; rfl

/-! ### One step -/

/-- Counting is the only step that changes what is outstanding, and it adds the bytes of the event
up to wrapping; every other step only moves bytes. -/
theorem outstanding_step (hi : Inv uuids s) (h : step uuids s l = some s') (hu : u ∈ uuids) :
    ∃ n, countedBytes u s' = countedBytes u s + n ∧ outstanding u s' ≤ outstanding u s + n ∧
      outstanding u s + n ≡ outstanding u s' [MOD 2 ^ 64] := by
  rcases step_cases h with ⟨data, -, -, rfl⟩ | ⟨data, -, -, rfl⟩ | ⟨-, hr, rfl⟩ | ⟨fresh, -, hr, rfl⟩ |
    ⟨now, rc, walked, e, pending, -, hr, rfl⟩ | ⟨walked, -, hr, rfl⟩
  · exact ⟨0, rfl, Nat.le_refl _, rfl⟩
  · by_cases hd : data.uuid = u
    · -- the event is for `u`: its counter grows by `bytes`, wrapping
      subst hd
      obtain ⟨v, -, hold, hnew⟩ :=
        UUIDCountersDB.amount_uuidIncrement_self data.bytes none ((hi.keys _).2 hu)
      refine ⟨data.bytes.toNat, by simp [countedBytes], ?_, ?_⟩
      · have hle := uint64_toNat_add_le v data.bytes
        show published _ s + toWalk _ s + amount _ _ ≤ outstanding _ s + _
        rw [hnew, outstanding, hold]
        omega
      · have hmod := uint64_toNat_add_modEq v data.bytes
        show outstanding _ s + _ ≡ published _ s + toWalk _ s + amount _ _ [MOD _]
        rw [hnew, outstanding, hold, Nat.add_assoc]
        exact hmod.add_left _
    · have hsame : outstanding u { s with
          db := (s.db.uuidIncrement data.uuid data.bytes).2, counted := s.counted ++ [data] } =
          outstanding u s := by
        show published u s + toWalk u s + amount _ u = _
        rw [UUIDCountersDB.amount_uuidIncrement_of_ne hd]
        rfl
      exact ⟨0, by simp [countedBytes, hd], by rw [hsame]; exact Nat.le_refl _, by rw [hsame]; rfl⟩
  · -- the fresh table is not swapped in yet
    have hsame : outstanding u { s with round := .built (makeUuidCountersBoostrapDb uuids) } =
        outstanding u s := by
      simp only [outstanding, published, toWalk, hr]
    exact ⟨0, rfl, by rw [hsame]; exact Nat.le_refl _, by rw [hsame]; rfl⟩
  · -- the worker's table becomes the table to walk, a zero table takes its place
    have hfresh : amount fresh u = 0 := by
      have hf := hi.round
      rw [hr] at hf
      rw [show fresh = makeUuidCountersBoostrapDb uuids from hf]
      exact amount_boostrapDb uuids u
    have hsame : outstanding u { s with db := ⟨fresh⟩, round := .walking [] s.db.counters.toList } =
        outstanding u s := by
      simp only [outstanding, published, toWalk, hr, entryBytes_toList, hfresh]
      omega
    exact ⟨0, rfl, by rw [hsame]; exact Nat.le_refl _, by rw [hsame]; rfl⟩
  · have hsame : outstanding u { s with
        round := .walking (walked ++ [(visitEntry e now rc).1]) pending
        calls := s.calls ++ (visitEntry e now rc).2 } = outstanding u s := by
      simp only [outstanding, published, toWalk, hr, callBytes_append, (visitEntry_bytes e now rc).1]
      rw [entryBytes_cons e pending]
      omega
    exact ⟨0, rfl, by rw [hsame]; exact Nat.le_refl _, by rw [hsame]; rfl⟩
  · have hsame : outstanding u { s with round := .idle } = outstanding u s := by
      simp only [outstanding, published, toWalk, hr]
      rfl
    exact ⟨0, rfl, by rw [hsame]; exact Nat.le_refl _, by rw [hsame]; rfl⟩

theorem keys_step (hi : Inv uuids s) (h : step uuids s l = some s') :
    (∀ k, k ∈ s'.db.counters ↔ k ∈ uuids) ∧ RoundOk uuids s'.round := by
  rcases step_cases h with ⟨data, -, -, rfl⟩ | ⟨data, -, -, rfl⟩ | ⟨-, hr, rfl⟩ | ⟨fresh, -, hr, rfl⟩ |
    ⟨now, rc, walked, e, pending, -, hr, rfl⟩ | ⟨walked, -, hr, rfl⟩
  · exact ⟨hi.keys, hi.round⟩
  · exact ⟨fun k => UUIDCountersDB.mem_uuidIncrement.trans (hi.keys k), hi.round⟩
  · exact ⟨hi.keys, rfl⟩
  · have hf := hi.round
    rw [hr] at hf
    obtain rfl : fresh = makeUuidCountersBoostrapDb uuids := hf
    refine ⟨fun k => mem_boostrapDb, keysOk_toList hi.keys, ?_⟩
    intro e he; cases he
  · have hw := hi.round
    rw [hr] at hw
    obtain ⟨⟨hnd, hmem⟩, hzero⟩ := hw
    have hkeys : ((walked ++ [(visitEntry e now rc).1]) ++ pending).map Prod.fst =
        (walked ++ e :: pending).map Prod.fst := by
      rw [(visitEntry_bytes (u := []) e now rc).2]
      simp
    refine ⟨hi.keys, ⟨by rw [hkeys]; exact hnd, fun k => by rw [hkeys]; exact hmem k⟩, ?_⟩
    intro e' he'
    rcases List.mem_append.1 he' with he' | he'
    · exact hzero e' he'
    · rw [List.mem_singleton.1 he', (visitEntry_bytes (u := []) e now rc).2]
  · exact ⟨hi.keys, trivial⟩

theorem calls_step (hi : Inv uuids s) (h : step uuids s l = some s') :
    ∀ c ∈ s'.calls, c.counter.uuid ∈ uuids ∧ 0 < c.counter.bytes := by
  rcases step_cases h with ⟨data, -, -, rfl⟩ | ⟨data, -, -, rfl⟩ | ⟨-, hr, rfl⟩ | ⟨fresh, -, hr, rfl⟩ |
    ⟨now, rc, walked, e, pending, -, hr, rfl⟩ | ⟨walked, -, hr, rfl⟩
  · exact hi.calls
  · exact hi.calls
  · exact hi.calls
  · exact hi.calls
  · intro c hc
    rcases List.mem_append.1 hc with hc | hc
    · exact hi.calls c hc
    · have hw := hi.round
      rw [hr] at hw
      have hkey : e.1 ∈ uuids := (hw.1.2 e.1).1 (by simp)
      unfold visitEntry at hc
      split at hc
      · rw [List.mem_singleton.1 hc]
        exact ⟨hkey, ‹_›⟩
      · cases hc
  · exact hi.calls

theorem inv_step (hi : Inv uuids s) (h : step uuids s l = some s') : Inv uuids s' := by
  obtain ⟨hkeys, hround⟩ := keys_step hi h
  refine ⟨hkeys, hround, calls_step hi h, ?_, ?_⟩
  · intro u hu
    obtain ⟨n, hn, hle, -⟩ := outstanding_step hi h hu
    have := hi.le u hu
    omega
  · intro u hu
    obtain ⟨n, hn, -, hmod⟩ := outstanding_step hi h hu
    rw [hn]
    exact ((hi.modEq u hu).add_right n).trans hmod

theorem inv_run {ls : List CounterStep} (h : Runs.run (step uuids) (init uuids) ls = some s) :
    Inv uuids s :=
  Runs.run_invariant inv_init (fun _ _ _ hi hs => inv_step hi hs) h

/-! ### Runs -/

theorem counted_run {ls : List CounterStep} (h : Runs.run (step uuids) (init uuids) ls = some s) :
    s.counted = ls.filterMap CounterStep.data? := by
  refine Runs.run_induction (P := fun ls s => s.counted = ls.filterMap CounterStep.data?) rfl ?_ h
  intro ls s l s' hi hstep
  rw [List.filterMap_append, ← hi]
  rcases step_cases hstep with ⟨data, rfl, hd, rfl⟩ | ⟨data, rfl, hd, rfl⟩ | ⟨rfl, -, rfl⟩ | ⟨fresh, rfl, -, rfl⟩ |
    ⟨now, rc, walked, e, pending, rfl, -, rfl⟩ | ⟨walked, rfl, -, rfl⟩
  · simp [CounterStep.data?, hd]
  · simp [CounterStep.data?, hd]
  all_goals simp [CounterStep.data?]

theorem Inv.outstanding_eq (hi : Inv uuids s) (hu : u ∈ uuids) (hlt : countedBytes u s < 2 ^ 64) :
    outstanding u s = countedBytes u s :=
  ((hi.modEq u hu).eq_of_lt_of_lt hlt (Nat.lt_of_le_of_lt (hi.le u hu) hlt)).symm

/-- In every state any interleaving reaches, every counted byte of a configured uuid is in exactly
one place, up to whole wraps; all tables have exactly the configured uuids; and what was counted is what
the worker was given in the run. -/
theorem exactly_once_accounting (uuids : List Bytes) (ls : List CounterStep) (s : CounterSide)
    (h : Runs.run (step uuids) (init uuids) ls = some s) :
    (∀ u ∈ uuids,
      published u s + toWalk u s + amount s.db.counters u ≡ countedBytes u s [MOD 2 ^ 64] ∧
      (countedBytes u s < 2 ^ 64 →
        published u s + toWalk u s + amount s.db.counters u = countedBytes u s)) ∧
    (∀ k, k ∈ s.db.counters ↔ k ∈ uuids) ∧
    (∀ walked pending, s.round = .walking walked pending →
      ∀ k, k ∈ (walked ++ pending).map Prod.fst ↔ k ∈ uuids) ∧
    (∀ c ∈ s.calls, c.counter.uuid ∈ uuids) ∧
    s.counted = ls.filterMap CounterStep.data? := by
  have hi := inv_run h
  refine ⟨?_, hi.keys, ?_, fun c hc => (hi.calls c hc).1, counted_run h⟩
  · intro u hu
    exact ⟨(hi.modEq u hu).symm, hi.outstanding_eq hu⟩
  · intro walked pending hr
    have hw := hi.round
    rw [hr] at hw
    exact hw.1.2

/-- Two configured entries for one uuid, and an event counted while the round walks the table: of twelve
bytes, five are handed to `produce`. -/
theorem exactly_once_accounting_run :
    ∃ s, Runs.run (step [lit "a", lit "a"]) (init [lit "a", lit "a"])
        [.count (.make (lit "a") 5), .build, .swap, .count (.make (lit "a") 7), .visit 0 .errNoError] =
      some s ∧
      s.counted = [.make (lit "a") 5, .make (lit "a") 7] ∧ published (lit "a") s = 5 ∧
      published (lit "a") s + toWalk (lit "a") s + amount s.db.counters (lit "a") = 12 := by
  have hrun : (Runs.run (step [lit "a", lit "a"]) (init [lit "a", lit "a"])
      [.count (.make (lit "a") 5), .build, .swap, .count (.make (lit "a") 7),
        .visit 0 .errNoError]).map (fun s => (countedBytes (lit "a") s, published (lit "a") s)) =
      some (12, 5) := by decide
  obtain ⟨s, hs, hv⟩ := Option.map_eq_some_iff.1 hrun
  obtain ⟨hcountedBytes, hpublished⟩ := Prod.mk.inj hv
  obtain ⟨hacc, -, -, -, hcounted⟩ := exactly_once_accounting _ _ s hs
  exact ⟨s, hs, hcounted, hpublished, ((hacc (lit "a") (by decide)).2 (by omega)).trans hcountedBytes⟩

theorem held_eq (hi : Inv uuids s) : held u s = toWalk u s + amount s.db.counters u := by
  have hr := hi.round
  unfold held toWalk
  cases hround : s.round with
  | idle => exact Nat.add_comm _ _
  | built countersUuids =>
    rw [hround] at hr
    obtain rfl : countersUuids = makeUuidCountersBoostrapDb uuids := hr
    show _ + amount _ u = 0 + _
    rw [amount_boostrapDb]
    omega
  | walking walked pending =>
    rw [hround] at hr
    show _ + entryBytes u (walked ++ pending) = entryBytes u pending + _
    rw [entryBytes_append, entryBytes_eq_zero hr.2]
    omega

theorem succeeded_add_failed : succeeded u s + failed u s = published u s :=
  Tally.tally_filter_add _

/-- Nothing failed to be published when no call failed, and only then: a call is made for a positive
amount. -/
theorem failed_eq_zero_iff (hi : Inv uuids s) :
    failed u s = 0 ↔ ∀ c ∈ s.calls, c.counter.uuid = u → c.produceRc = .errNoError := by
  constructor
  · intro h c hc hcu
    by_contra hrc
    have hmem : c ∈ s.calls.filter fun c => !decide (c.produceRc = .errNoError) := by
      simp [hc, hrc]
    have hle : c.counter.bytes.toNat ≤ failed u s := by
      subst hcu
      exact Tally.le_tally (fun c : ProduceCall => c.counter.uuid) (fun c => c.counter.bytes.toNat) hmem
    have hpos : 0 < c.counter.bytes.toNat := (hi.calls c hc).2
    omega
  · intro h
    apply Tally.tally_eq_zero
    intro c hc hcu
    obtain ⟨hc, hrc⟩ := List.mem_filter.1 hc
    simp [h c hc hcu] at hrc

/-- What failed publishes of a uuid carried is gone: it is neither published nor held for a later
round. So nothing is lost if and only if no publish of the uuid failed. -/
theorem publish_lossless_iff (uuids : List Bytes) (ls : List CounterStep) (s : CounterSide)
    (h : Runs.run (step uuids) (init uuids) ls = some s) (u : Bytes) (hu : u ∈ uuids)
    (hlt : countedBytes u s < 2 ^ 64) :
    succeeded u s + held u s + failed u s = countedBytes u s ∧
    (succeeded u s + held u s = countedBytes u s ↔
      ∀ c ∈ s.calls, c.counter.uuid = u → c.produceRc = .errNoError) := by
  have hi := inv_run h
  have hacc : published u s + toWalk u s + amount s.db.counters u = countedBytes u s :=
    hi.outstanding_eq hu hlt
  have hheld := held_eq (u := u) hi
  have hsplit := succeeded_add_failed (u := u) (s := s)
  have htotal : succeeded u s + held u s + failed u s = countedBytes u s := by omega
  refine ⟨htotal, ?_⟩
  rw [← failed_eq_zero_iff hi]
  omega

/-- A round whose only publish meets a full queue: five bytes were counted, none of them is left. -/
theorem publish_lossless_queue_full :
    ∃ s, Runs.run (step [lit "a"]) (init [lit "a"])
        [.count (.make (lit "a") 5), .build, .swap, .visit 0 .errQueueFull, .leave] = some s ∧
      succeeded (lit "a") s + held (lit "a") s + failed (lit "a") s = countedBytes (lit "a") s ∧
      failed (lit "a") s = 5 := by
  have hrun : (Runs.run (step [lit "a"]) (init [lit "a"])
      [.count (.make (lit "a") 5), .build, .swap, .visit 0 .errQueueFull, .leave]).map
        (fun s => (countedBytes (lit "a") s, failed (lit "a") s)) = some (5, 5) := by decide
  obtain ⟨s, hs, hv⟩ := Option.map_eq_some_iff.1 hrun
  obtain ⟨hcounted, hfailed⟩ := Prod.mk.inj hv
  exact ⟨s, hs, (publish_lossless_iff _ _ s hs (lit "a") (by decide) (by omega)).1, hfailed⟩

theorem publish_lossless_fails :
    ¬ ∀ (uuids : List Bytes) (ls : List CounterStep) (s : CounterSide) (u : Bytes),
      Runs.run (step uuids) (init uuids) ls = some s → u ∈ uuids → countedBytes u s < 2 ^ 64 →
        succeeded u s + held u s = countedBytes u s := by
  intro hclaim
  have hrun : (Runs.run (step [lit "a"]) (init [lit "a"])
      [.count (.make (lit "a") 5), .build, .swap, .visit 0 .errQueueFull, .leave]).map
        (fun s => (countedBytes (lit "a") s, succeeded (lit "a") s + held (lit "a") s)) =
      some (5, 0) := by decide
  obtain ⟨s, hs, hv⟩ := Option.map_eq_some_iff.1 hrun
  obtain ⟨hcounted, hkept⟩ := Prod.mk.inj hv
  have := hclaim [lit "a"] _ s (lit "a") hs (by decide) (by omega)
  omega

end CounterSide
end EventsCounter
