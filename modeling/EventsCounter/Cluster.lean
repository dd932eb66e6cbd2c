import EventsCounter.MonitorAlerts
import EventsCounter.Pipeline
import EventsCounter.Lib.Dealing

/-!
# Several monitors on a partitioned topic

The counters topic has any number of partitions, each one assigned to one of the monitors of a
consumer group for the whole interval. A message with a key goes where the partitioner puts the key;
one without a key may go to any partition. `produce` gives no key, so that the counters of one uuid
may end up with different monitors, none of which sees the sum.

A monitor is described by the messages it has checked (`Inv`), so that an alert is a matter of how the
bytes were dealt out to the monitors (`raised_iff`), and every way to deal them out is that of some run
(`exists_run_ordered`). `detects_whatever_the_partitions_iff` says for which messages published the
limit test does not depend on it.
-/

namespace EventsCounter

structure Topology where
  partitions : ℕ
  partitioner : Bytes → Fin partitions
  assignment : Fin partitions → ℕ

/-- The partition of a message; `placed` is the one Kafka picks when there is no key. -/
def Topology.partition (t : Topology) (request : ProduceRequest) (placed : Fin t.partitions) : Fin t.partitions :=
  match request.key with
  | some key => t.partitioner key
  | none => placed

/-- One partition for each of the monitors `0` to `n`. -/
def Topology.spread (n : ℕ) : Topology := ⟨n + 1, fun _ => 0, Fin.val⟩

structure Cluster (t : Topology) where
  counter : CounterSide
  topic : List (Fin t.partitions × CounterMessage)
  monitors : ℕ → UUIDCountersMonitor
  /-- Which monitor checked what, oldest first. -/
  checked : List (ℕ × CounterMessage)
  /-- Which monitor raised what, oldest first. -/
  alerts : List (ℕ × UUIDBytes)

inductive ClusterStep (t : Topology)
  | counter (l : CounterStep) (placed : Fin t.partitions)
  | check (i : ℕ)

namespace CounterSide

/-- What librdkafka has accepted, oldest first. -/
def sent (s : CounterSide) : List CounterMessage :=
  (s.calls.filter fun c => c.produceRc = .errNoError).map fun c => c.request.payload

/-- The bytes of `u` in every message librdkafka has accepted, oldest first. -/
def accepted (u : Bytes) (s : CounterSide) : List ℕ :=
  ((s.calls.filter fun c => c.produceRc = .errNoError).filter fun c => c.counter.uuid = u).map fun c =>
    c.counter.bytes.toNat

theorem sum_accepted {u : Bytes} {s : CounterSide} : (s.accepted u).sum = s.succeeded u :=
  Tally.tally_eq_sum_filter.symm

end CounterSide

namespace Cluster

variable {t : Topology} {uuids : List Bytes} {limits : Counters} {u k : Bytes} {m : ℕ}

def init (t : Topology) (uuids : List Bytes) (limits : Counters) : Cluster t :=
  ⟨.init uuids, [], fun _ => ⟨⟨makeUuidCountersBoostrapDb uuids⟩, limits⟩, [], []⟩

def step (uuids : List Bytes) (c : Cluster t) : ClusterStep t → Option (Cluster t)
  | .counter l placed =>
    (CounterSide.step uuids c.counter l).map fun counter =>
      { c with
        counter
        topic := c.topic ++ ((c.counter.sends l).filter fun call => call.produceRc = .errNoError).map fun call =>
          (t.partition call.request placed, call.request.payload) }
  | .check i =>
    c.topic[i]?.map fun (partition, message) =>
      let process := t.assignment partition
      let uuidBytes := decode message
      let (alert, monitor) := (c.monitors process).check uuidBytes.uuid uuidBytes.bytes
      { c with
        topic := c.topic.eraseIdx i
        monitors := Function.update c.monitors process monitor
        checked := c.checked ++ [(process, message)]
        alerts := if alert then c.alerts ++ [(process, uuidBytes)] else c.alerts }

/-- The monitor `m` has raised an alert for `u`. -/
def RaisedBy (c : Cluster t) (m : ℕ) (u : Bytes) : Prop := ∃ a ∈ c.alerts, a.1 = m ∧ a.2.uuid = u

/-- The checks the monitor `m` has made, oldest first. -/
def checksAt (m : ℕ) (checked : List (ℕ × CounterMessage)) : List (Bytes × UInt64) :=
  (checked.filter fun e => e.1 = m).map fun e => (e.2.uuid, e.2.value)

/-- The bytes of the checks of `u`, oldest first. -/
def valuesOf (u : Bytes) (checks : List (Bytes × UInt64)) : List ℕ :=
  (checks.filter fun c => c.1 = u).map fun c => c.2.toNat

/-- How the bytes of `u` have been dealt out to the monitors. -/
def dealt (u : Bytes) (checked : List (ℕ × CounterMessage)) : List (ℕ × ℕ) :=
  (checked.filter fun e => e.2.uuid = u).map fun e => (e.1, e.2.value.toNat)

/-- Some check of `u` in the list, made on the monitor `m₀`, exceeds the limit. -/
def Exceeded (m₀ : UUIDCountersMonitor) (u : Bytes) (checks : List (Bytes × UInt64)) : Prop :=
  ∃ before b later, checks = before ++ (u, b) :: later ∧ ((m₀.afterChecks before).check u b).1 = true

structure Inv (uuids : List Bytes) (limits : Counters) (c : Cluster t) : Prop where
  monitors : ∀ m, c.monitors m =
    UUIDCountersMonitor.afterChecks ⟨⟨makeUuidCountersBoostrapDb uuids⟩, limits⟩ (checksAt m c.checked)
  alerts : ∀ m u, RaisedBy c m u ↔ Exceeded ⟨⟨makeUuidCountersBoostrapDb uuids⟩, limits⟩ u (checksAt m c.checked)
  sent : (c.topic.map Prod.snd ++ c.checked.map Prod.snd).Perm c.counter.sent

/-! ### Checks of one monitor -/

theorem checksAt_snoc (checked : List (ℕ × CounterMessage)) (e : ℕ × CounterMessage) :
    checksAt m (checked ++ [e]) =
      if e.1 = m then checksAt m checked ++ [(e.2.uuid, e.2.value)] else checksAt m checked := by
  unfold checksAt
  split <;> simp [*]

theorem valuesOf_checksAt (checked : List (ℕ × CounterMessage)) :
    valuesOf u (checksAt m checked) = Dealing.dealtTo m (dealt u checked) := by
  unfold valuesOf checksAt Dealing.dealtTo dealt
  simp only [List.filter_map, List.map_map, List.filter_filter, Function.comp_def]
  simp only [Bool.and_comm]

theorem sum_valuesOf (checks : List (Bytes × UInt64)) :
    (valuesOf u checks).sum = UUIDCountersMonitor.bytesOf u checks :=
  Tally.tally_eq_sum_filter.symm

theorem exceeded_snoc {m₀ : UUIDCountersMonitor} {checks : List (Bytes × UInt64)} {b : UInt64} :
    Exceeded m₀ u (checks ++ [(k, b)]) ↔
      Exceeded m₀ u checks ∨ (k = u ∧ ((m₀.afterChecks checks).check u b).1 = true) := by
  constructor
  · rintro ⟨before, b', later, heq, htrue⟩
    rcases List.eq_nil_or_concat later with rfl | ⟨later', last, rfl⟩
    · obtain ⟨rfl, hlast⟩ := List.append_inj' heq rfl
      cases hlast
      exact .inr ⟨rfl, htrue⟩
    · have heq' : checks ++ [(k, b)] = (before ++ (u, b') :: later') ++ [last] := by simpa using heq
      exact .inl ⟨before, b', later', (List.append_inj' heq' rfl).1, htrue⟩
  · rintro (⟨before, b', later, rfl, htrue⟩ | ⟨rfl, htrue⟩)
    · exact ⟨before, b', later ++ [(k, b)], by simp, htrue⟩
    · exact ⟨checks, b, [], rfl, htrue⟩

/-- A limit is exceeded by some check when the sum of the checks, as the monitor keeps it, does not
stay within the limit. -/
theorem exceeded_iff {checks : List (Bytes × UInt64)} :
    Exceeded ⟨⟨makeUuidCountersBoostrapDb uuids⟩, limits⟩ u checks ↔
      u ∈ uuids ∧ ∃ l, limits[u]? = some l ∧ ¬ Dealing.StaysWithin (2 ^ 64) l.toNat (valuesOf u checks) := by
  induction checks using List.reverseRecOn with
  | nil =>
    constructor
    · rintro ⟨before, b, later, heq, -⟩
      simp at heq
    · rintro ⟨-, l, -, hl⟩
      exact absurd Dealing.staysWithin_nil hl
  | append_singleton checks c ih =>
    obtain ⟨k, b⟩ := c
    rw [exceeded_snoc, ih]
    by_cases hk : k = u
    · subst hk
      have hvalues : valuesOf k (checks ++ [(k, b)]) = valuesOf k checks ++ [b.toNat] := by simp [valuesOf]
      rw [UUIDCountersMonitor.check_afterChecks_iff, hvalues, getElem?_boostrapDb,
        UUIDCountersMonitor.bytesOf_snoc, if_pos rfl, ← sum_valuesOf]
      simp only [Dealing.not_staysWithin_snoc_iff, true_and]
      constructor
      · rintro (⟨hu, l, hl, h⟩ | ⟨v, l, hv, hl, h⟩)
        · exact ⟨hu, l, hl, .inl h⟩
        · split at hv
          · cases hv
            exact ⟨‹_›, l, hl, .inr (by simpa using h)⟩
          · cases hv
      · rintro ⟨hu, l, hl, h | h⟩
        · exact .inl ⟨hu, l, hl, h⟩
        · exact .inr ⟨0, l, if_pos hu, hl, by simpa using h⟩
    · have hvalues : valuesOf u (checks ++ [(k, b)]) = valuesOf u checks := by simp [valuesOf, hk]
      rw [hvalues]
      simp [hk]

/-! ### Runs of the cluster -/

variable {c c' : Cluster t}

theorem inv_init : Inv uuids limits (init t uuids limits) := by
  refine ⟨fun m => rfl, ?_, List.Perm.refl _⟩
  intro m u
  constructor
  · rintro ⟨a, ha, -⟩
    cases ha
  · rintro ⟨before, b, later, heq, -⟩
    simp [init, checksAt] at heq

theorem sent_counter {s s' : CounterSide} {l : CounterStep} (h : CounterSide.step uuids s l = some s') :
    s'.sent = s.sent ++
      ((s.sends l).filter fun call => call.produceRc = .errNoError).map fun call => call.request.payload := by
  rw [CounterSide.sent, CounterSide.calls_eq_append_sends h, List.filter_append, List.map_append]
  rfl

theorem raisedBy_check {process : ℕ} {uuidBytes : UUIDBytes} {alert : Bool} {monitors : ℕ → UUIDCountersMonitor}
    {topic : List (Fin t.partitions × CounterMessage)} {checked : List (ℕ × CounterMessage)} :
    RaisedBy { c with
        topic, monitors, checked
        alerts := if alert then c.alerts ++ [(process, uuidBytes)] else c.alerts } m u ↔
      RaisedBy c m u ∨ (alert = true ∧ process = m ∧ uuidBytes.uuid = u) := by
  unfold RaisedBy
  cases alert with
  | true => simp [or_and_right, exists_or]
  | false => simp

theorem inv_check (hi : Inv uuids limits c) {i : ℕ} {partition : Fin t.partitions} {message : CounterMessage}
    (hm : c.topic[i]? = some (partition, message)) (h : step uuids c (.check i) = some c') :
    Inv uuids limits c' := by
  simp only [step, hm, Option.map_some, Option.some.injEq] at h
  subst h
  set process := t.assignment partition with hprocess
  have hmonitor := hi.monitors process
  refine ⟨?_, ?_, ?_⟩
  · intro m
    show Function.update c.monitors process _ m = _
    rw [checksAt_snoc]
    by_cases hpm : process = m
    · subst hpm
      rw [if_pos rfl, Function.update_self, hmonitor, UUIDCountersMonitor.afterChecks_snoc]
      rfl
    · rw [if_neg hpm, Function.update_of_ne (Ne.symm hpm), hi.monitors]
  · intro m u
    rw [raisedBy_check, hi.alerts, checksAt_snoc]
    by_cases hpm : process = m
    · subst hpm
      rw [if_pos rfl, exceeded_snoc, hmonitor]
      constructor
      · rintro (h | ⟨halert, -, rfl⟩)
        · exact .inl h
        · exact .inr ⟨rfl, halert⟩
      · rintro (h | ⟨rfl, halert⟩)
        · exact .inl h
        · exact .inr ⟨halert, rfl, rfl⟩
    · simp [hpm]
  · have herase : (c.topic.eraseIdx i).map Prod.snd = (c.topic.map Prod.snd).eraseIdx i :=
    (List.eraseIdx_map _ _ _).symm
    obtain ⟨hlt, hget⟩ := List.getElem?_eq_some_iff.1 hm
    have hlt' : i < (c.topic.map Prod.snd).length := by simpa using hlt
    have hget' : (c.topic.map Prod.snd)[i] = message := by simp [hget]
    refine List.Perm.trans ?_ hi.sent
    show ((c.topic.eraseIdx i).map Prod.snd ++ (c.checked ++ [(process, message)]).map Prod.snd).Perm _
    rw [List.map_append, ← List.append_assoc]
    refine (List.perm_append_singleton _ _).trans ?_
    rw [← List.cons_append, herase, ← hget']
    exact (List.getElem_cons_eraseIdx_perm hlt').append_right _

theorem inv_counter (hi : Inv uuids limits c) {l : CounterStep} {placed : Fin t.partitions} {s : CounterSide}
    (hs : CounterSide.step uuids c.counter l = some s) (h : step uuids c (.counter l placed) = some c') :
    Inv uuids limits c' := by
  simp only [step, hs, Option.map_some, Option.some.injEq] at h
  subst h
  refine ⟨hi.monitors, hi.alerts, ?_⟩
  show (_ ++ c.checked.map Prod.snd).Perm s.sent
  rw [sent_counter hs, List.map_append, List.map_map, List.append_assoc]
  refine List.Perm.trans (List.Perm.append_left _ List.perm_append_comm) ?_
  rw [← List.append_assoc]
  exact hi.sent.append_right _

theorem inv_step {l : ClusterStep t} (hi : Inv uuids limits c) (h : step uuids c l = some c') :
    Inv uuids limits c' := by
  cases l with
  | counter l placed =>
    obtain ⟨s, hs, -⟩ := Option.map_eq_some_iff.1 h
    exact inv_counter hi hs h
  | check i =>
    obtain ⟨⟨partition, message⟩, hm, -⟩ := Option.map_eq_some_iff.1 h
    exact inv_check hi hm h

theorem inv_run {ls : List (ClusterStep t)} (h : Runs.run (step uuids) (init t uuids limits) ls = some c) :
    Inv uuids limits c :=
  Runs.run_invariant inv_init (fun _ _ _ hi hs => inv_step hi hs) h

/-! ### What has been published -/

theorem calls_made {s : CounterSide} {ls : List CounterStep}
    (h : Runs.run (CounterSide.step uuids) (CounterSide.init uuids) ls = some s) :
    ∀ call ∈ s.calls, ∃ now, call.request = (produce call.counter now call.produceRc).1 := by
  refine Runs.run_invariant (I := fun s : CounterSide =>
    ∀ call ∈ s.calls, ∃ now, call.request = (produce call.counter now call.produceRc).1) ?_ ?_ h
  · intro call hc
    cases hc
  · intro s l s' hs hstep call hc
    rw [CounterSide.calls_eq_append_sends hstep] at hc
    rcases List.mem_append.1 hc with hc | hc
    · exact hs call hc
    · exact Pipeline.sends_made s l call hc

/-- What librdkafka has accepted carries the uuid and the bytes of the call. -/
theorem values_sent {s : CounterSide} (h : ∀ call ∈ s.calls, ∃ now, call.request = (produce call.counter now call.produceRc).1) :
    (s.sent.filter fun message => message.uuid = u).map (fun message => message.value.toNat) = s.accepted u := by
  unfold CounterSide.sent CounterSide.accepted
  rw [List.filter_map, List.map_map]
  have hmade : ∀ call ∈ s.calls.filter (fun c => c.produceRc = .errNoError),
      call.request.payload.uuid = call.counter.uuid ∧ call.request.payload.value = call.counter.bytes := by
    intro call hc
    obtain ⟨now, hrequest⟩ := h call (List.mem_filter.1 hc).1
    rw [hrequest]
    exact ⟨rfl, rfl⟩
  have hsame : (s.calls.filter fun c => c.produceRc = .errNoError).filter (fun call => call.request.payload.uuid = u) =
      (s.calls.filter fun c => c.produceRc = .errNoError).filter fun call => call.counter.uuid = u :=
    List.filter_congr fun call hc => by rw [(hmade call hc).1]
  show List.map _ (List.filter (fun call : ProduceCall => call.request.payload.uuid = u) _) = _
  rw [hsame]
  refine List.map_congr_left fun call hc => ?_
  exact congrArg UInt64.toNat (hmade call (List.mem_filter.1 hc).1).2

/-- An alert is raised where the sum of a single monitor does not stay within the limit. -/
theorem raised_iff (hi : Inv uuids limits c) :
    (∃ a ∈ c.alerts, a.2.uuid = u) ↔ u ∈ uuids ∧ ∃ l, limits[u]? = some l ∧
      ∃ m, ¬ Dealing.StaysWithin (2 ^ 64) l.toNat (Dealing.dealtTo m (dealt u c.checked)) := by
  have hat : ∀ m, RaisedBy c m u ↔ u ∈ uuids ∧ ∃ l, limits[u]? = some l ∧
      ¬ Dealing.StaysWithin (2 ^ 64) l.toNat (Dealing.dealtTo m (dealt u c.checked)) := by
    intro m
    rw [hi.alerts, exceeded_iff, valuesOf_checksAt]
  constructor
  · rintro ⟨a, ha, hau⟩
    obtain ⟨hu, l, hl, hover⟩ := (hat a.1).1 ⟨a, ha, rfl, hau⟩
    exact ⟨hu, l, hl, a.1, hover⟩
  · rintro ⟨hu, l, hl, m, hover⟩
    obtain ⟨a, ha, -, hau⟩ := (hat m).2 ⟨hu, l, hl, hover⟩
    exact ⟨a, ha, hau⟩

/-! ### Every dealing is that of some run -/

theorem request_key {s : CounterSide} {l : CounterStep} :
    ∀ call ∈ s.sends l, call.request.key = none := by
  intro call hc
  obtain ⟨now, hrequest⟩ := Pipeline.sends_made s l call hc
  rw [hrequest]
  rfl

theorem sends_length_le {s : CounterSide} {l : CounterStep} : (s.sends l).length ≤ 1 := by
  unfold CounterSide.sends
  split
  · split
    · unfold visitEntry
      split <;> simp
    · simp
  · simp

theorem map_placed {calls : List ProduceCall} (hlen : calls.length ≤ 1)
    (hkey : ∀ call ∈ calls, call.request.key = none) {new : List (Fin t.partitions × CounterMessage)}
    (hnew : new.map Prod.snd = calls.map fun call => call.request.payload) (placed₀ : Fin t.partitions) :
    (calls.map fun call =>
      (t.partition call.request ((new.head?.map Prod.fst).getD placed₀), call.request.payload)) = new := by
  cases calls with
  | nil => exact (List.map_eq_nil_iff.1 hnew).symm
  | cons call rest =>
    obtain rfl : rest = [] := List.length_eq_zero_iff.1 (by simpa using hlen)
    obtain ⟨e, rfl, he⟩ := List.map_eq_singleton_iff.1 hnew
    have hplaced : t.partition call.request e.1 = e.1 := by
      rw [Topology.partition, hkey call List.mem_cons_self]
    simp [hplaced, ← he]

/-- The messages a run publishes can be placed anywhere. -/
theorem exists_run_placed (limits : Counters) {s : CounterSide} {ls : List CounterStep} (placed₀ : Fin t.partitions)
    (h : Runs.run (CounterSide.step uuids) (CounterSide.init uuids) ls = some s)
    (topic : List (Fin t.partitions × CounterMessage)) (htopic : topic.map Prod.snd = s.sent) :
    ∃ ls', Runs.run (step uuids) (init t uuids limits) ls' = some { init t uuids limits with counter := s, topic } := by
  refine Runs.run_induction (P := fun _ s => ∀ topic : List (Fin t.partitions × CounterMessage),
    topic.map Prod.snd = s.sent → ∃ ls', Runs.run (step uuids) (init t uuids limits) ls' =
      some { init t uuids limits with counter := s, topic }) ?_ ?_ h topic htopic
  · intro topic htopic
    obtain rfl : topic = [] := List.map_eq_nil_iff.1 htopic
    exact ⟨[], rfl⟩
  · rintro _ s l s' ih hstep topic htopic
    rw [sent_counter hstep] at htopic
    obtain ⟨before, new, rfl, hbefore, hnew⟩ := List.map_eq_append_iff.1 htopic
    obtain ⟨ls', hrun⟩ := ih before hbefore
    have hlen : ((s.sends l).filter fun call => call.produceRc = .errNoError).length ≤ 1 :=
      (List.length_filter_le _ _).trans sends_length_le
    have hkey : ∀ call ∈ (s.sends l).filter (fun call => call.produceRc = .errNoError), call.request.key = none :=
      fun call hc => request_key call (List.mem_filter.1 hc).1
    refine ⟨ls' ++ [.counter l ((new.head?.map Prod.fst).getD placed₀)], (Runs.run_snoc_iff _).2 ⟨_, hrun, ?_⟩⟩
    simp only [step, hstep, Option.map_some, map_placed hlen hkey hnew placed₀]

theorem exists_check (uuids : List Bytes) {i : ℕ} {partition : Fin t.partitions} {message : CounterMessage}
    (h : c.topic[i]? = some (partition, message)) :
    ∃ c', step uuids c (.check i) = some c' ∧ c'.counter = c.counter ∧ c'.topic = c.topic.eraseIdx i ∧
      c'.checked = c.checked ++ [(t.assignment partition, message)] :=
  ⟨_, Option.map_eq_some_iff.2 ⟨_, h, rfl⟩, rfl, rfl, rfl⟩

/-- What is in the topic can be checked in any order. -/
theorem exists_run_checked (uuids : List Bytes) (order : List (ℕ × CounterMessage)) (c : Cluster t)
    (h : order.Perm (c.topic.map fun e => (t.assignment e.1, e.2))) :
    ∃ ls c', Runs.run (step uuids) c ls = some c' ∧ c'.counter = c.counter ∧ c'.topic = [] ∧
      c'.checked = c.checked ++ order := by
  induction order generalizing c with
  | nil =>
    have htopic : c.topic = [] := List.map_eq_nil_iff.1 h.symm.eq_nil
    exact ⟨[], c, rfl, rfl, htopic, by simp⟩
  | cons e order ih =>
    obtain ⟨m, message⟩ := e
    have hmem := h.mem_iff.1 (List.mem_cons_self (a := (m, message)) (l := order))
    obtain ⟨⟨partition, message'⟩, he, heq⟩ := List.mem_map.1 hmem
    obtain ⟨rfl, rfl⟩ := Prod.mk.inj heq
    obtain ⟨i, hi⟩ := List.getElem?_of_mem he
    obtain ⟨hlt, hget⟩ := List.getElem?_eq_some_iff.1 hi
    obtain ⟨c', hstep, hcounter, htopic, hchecked⟩ := exists_check uuids hi
    have hrest : order.Perm (c'.topic.map fun e => (t.assignment e.1, e.2)) := by
      have hmoved := (List.getElem_cons_eraseIdx_perm hlt).map fun e => (t.assignment e.1, e.2)
      rw [hget] at hmoved
      rw [htopic]
      exact (h.trans hmoved.symm).cons_inv
    obtain ⟨ls, c'', hrun, hcounter', htopic', hchecked'⟩ := ih c' hrest
    refine ⟨.check i :: ls, c'', ?_, hcounter'.trans hcounter, htopic', ?_⟩
    · rw [Runs.run_cons, hstep]
      exact hrun
    · rw [hchecked', hchecked]
      simp

/-- A message for the monitor `e.1`, in its partition. -/
def spreadTo (n : ℕ) (e : ℕ × CounterMessage) : Fin (Topology.spread n).partitions × CounterMessage :=
  (Fin.ofNat (n + 1) e.1, e.2)

theorem map_spreadTo {n : ℕ} {placing : List (ℕ × CounterMessage)} (h : ∀ e ∈ placing, e.1 ≤ n) :
    ((placing.map (spreadTo n)).map fun e => ((Topology.spread n).assignment e.1, e.2)) = placing := by
  rw [List.map_map]
  refine (List.map_congr_left fun e he => ?_).trans (List.map_id placing)
  have hlt : e.1 % (n + 1) = e.1 := Nat.mod_eq_of_lt (Nat.lt_succ_of_le (h e he))
  exact Prod.ext hlt rfl

theorem dealt_append (checked checked' : List (ℕ × CounterMessage)) :
    dealt u (checked ++ checked') = dealt u checked ++ dealt u checked' := by simp [dealt]

/-- The messages of a run of the counter side can be checked at any monitors, in any order. -/
theorem exists_run_ordered (limits : Counters) {s : CounterSide} {ls : List CounterStep}
    (h : Runs.run (CounterSide.step uuids) (CounterSide.init uuids) ls = some s) {order : List (ℕ × CounterMessage)}
    (horder : s.sent.Perm (order.map Prod.snd)) :
    ∃ t ls', ∃ c : Cluster t, Runs.run (step uuids) (init t uuids limits) ls' = some c ∧ c.counter = s ∧
      c.topic = [] ∧ c.checked = order := by
  -- every message is placed in the partition of its monitor when it is published
  obtain ⟨placing, hplacing, hplaced⟩ := Dealing.exists_perm_of_map horder
  set n := (order.map Prod.fst).sum with hn
  have hle : ∀ e ∈ placing, e.1 ≤ n := fun e he =>
    List.le_sum_of_mem (List.mem_map_of_mem (hplacing.mem_iff.1 he))
  have htopic : (placing.map (spreadTo n)).map Prod.snd = s.sent := by
    rw [List.map_map]
    exact hplaced
  obtain ⟨ls₁, hrun₁⟩ := exists_run_placed limits ⟨0, Nat.succ_pos n⟩ h (placing.map (spreadTo n)) htopic
  have hassigned : order.Perm ((placing.map (spreadTo n)).map fun e => ((Topology.spread n).assignment e.1, e.2)) := by
    rw [map_spreadTo hle]
    exact hplacing.symm
  obtain ⟨ls₂, c, hrun₂, hcounter, hempty, hchecked⟩ := exists_run_checked uuids order
    { init (.spread n) uuids limits with counter := s, topic := placing.map (spreadTo n) } hassigned
  refine ⟨.spread n, ls₁ ++ ls₂, c, ?_, hcounter, hempty, hchecked⟩
  rw [Runs.run_append, hrun₁]
  exact hrun₂

/-- An order to check all messages in that deals the bytes of `u` out as given; the messages of all
other uuids go to the monitor `0`. -/
theorem exists_order {s : CounterSide} (hmade : ∀ call ∈ s.calls, ∃ now, call.request = (produce call.counter now call.produceRc).1)
    {amounts : List (ℕ × ℕ)} (hamounts : (amounts.map Prod.snd).Perm (s.accepted u)) :
    ∃ order : List (ℕ × CounterMessage), s.sent.Perm (order.map Prod.snd) ∧ dealt u order = amounts := by
  rw [← values_sent hmade] at hamounts
  obtain ⟨ofU, hofU, rfl⟩ := Dealing.exists_dealing_of_map hamounts
  set others := (s.sent.filter fun message => !decide (message.uuid = u)).map fun message => (0, message) with hothers
  refine ⟨ofU ++ others, ?_, ?_⟩
  · rw [hothers, List.map_append, List.map_map]
    have hsplit := (hofU.append_right (s.sent.filter fun message => !decide (message.uuid = u))).trans
      (List.filter_append_perm _ _)
    simpa [Function.comp_def] using hsplit.symm
  · have hall : ∀ e ∈ ofU, e.2.uuid = u := fun e he => by
      have hmem := hofU.mem_iff.1 (List.mem_map_of_mem he)
      simpa using (List.mem_filter.1 hmem).2
    have hnone : dealt u others = [] := by simp [dealt, hothers, List.filter_map]
    rw [dealt_append, hnone, List.append_nil, dealt, List.filter_eq_self.2 (by simpa using hall)]

/-! ### The limit test -/

/-- Whatever the partitions and the monitors they are assigned to: once all that the counter side has
published is checked, an alert for `u` stands exactly if the total is above the limit. -/
def DetectsLimit (uuids : List Bytes) (limits : Counters) (s : CounterSide) (u : Bytes) : Prop :=
  ∀ (t : Topology) (ls : List (ClusterStep t)) (c : Cluster t),
    Runs.run (step uuids) (init t uuids limits) ls = some c → c.counter = s → c.topic = [] →
      ((∃ a ∈ c.alerts, a.2.uuid = u) ↔ ∃ l, limits[u]? = some l ∧ l.toNat < s.succeeded u)

/-- Once the topic is empty, the bytes accepted of `u` have been dealt out to the monitors. -/
theorem dealt_perm (hi : Inv uuids limits c) (htopic : c.topic = []) (hmade : ∀ call ∈ c.counter.calls,
      ∃ now, call.request = (produce call.counter now call.produceRc).1) :
    ((dealt u c.checked).map Prod.snd).Perm (c.counter.accepted u) := by
  have hsent := hi.sent
  rw [htopic] at hsent
  rw [← values_sent hmade]
  have hmap := (hsent.filter fun message => decide (message.uuid = u)).map fun message => message.value.toNat
  simpa [dealt, List.filter_map, Function.comp_def] using hmap

theorem mem_uuids_of_succeeded {s : CounterSide} {ls : List CounterStep}
    (h : Runs.run (CounterSide.step uuids) (CounterSide.init uuids) ls = some s) (hpos : 0 < s.succeeded u) : u ∈ uuids := by
  obtain ⟨call, hcall, rfl⟩ := Tally.exists_of_tally_pos hpos
  exact ((CounterSide.inv_run h).calls call (List.mem_filter.1 hcall).1).1

/-- Were all messages of `u` to meet at one monitor, as with a key they would, its alert would be the
limit test. -/
theorem raised_at_one_monitor_iff {ls : List CounterStep} (hi : Inv uuids limits c)
    (h : Runs.run (CounterSide.step uuids) (CounterSide.init uuids) ls = some c.counter) (htopic : c.topic = [])
    (hlt : c.counter.succeeded u < 2 ^ 64) (hone : ∀ e ∈ c.checked, e.2.uuid = u → e.1 = m) :
    (∃ a ∈ c.alerts, a.2.uuid = u) ↔ ∃ l, limits[u]? = some l ∧ l.toNat < c.counter.succeeded u := by
  have hsum : ((dealt u c.checked).map Prod.snd).sum = c.counter.succeeded u := by
    rw [(dealt_perm hi htopic (calls_made h)).sum_eq, CounterSide.sum_accepted]
  have hle : ∀ m', (Dealing.dealtTo m' (dealt u c.checked)).sum ≤ c.counter.succeeded u := fun m' =>
    hsum ▸ Dealing.sum_dealtTo_le m' (dealt u c.checked)
  have hall : Dealing.dealtTo m (dealt u c.checked) = (dealt u c.checked).map Prod.snd := by
    rw [Dealing.dealtTo, List.filter_eq_self.2]
    intro e he
    obtain ⟨e', he', rfl⟩ := List.mem_map.1 he
    obtain ⟨hmem, huuid⟩ := List.mem_filter.1 he'
    simpa using hone e' hmem (by simpa using huuid)
  rw [raised_iff hi]
  constructor
  · rintro ⟨-, l, hl, m', hm'⟩
    rw [Dealing.staysWithin_iff_of_sum_lt (lt_of_le_of_lt (hle m') hlt), Nat.not_le] at hm'
    exact ⟨l, hl, lt_of_lt_of_le hm' (hle m')⟩
  · rintro ⟨l, hl, hover⟩
    refine ⟨mem_uuids_of_succeeded h (Nat.zero_lt_of_lt hover), l, hl, m, ?_⟩
    rw [Dealing.staysWithin_iff_of_sum_lt (lt_of_le_of_lt (hle m) hlt), hall, hsum]
    exact Nat.not_le.2 hover

theorem detectsLimit_iff {s : CounterSide} {ls : List CounterStep}
    (h : Runs.run (CounterSide.step uuids) (CounterSide.init uuids) ls = some s) :
    DetectsLimit uuids limits s u ↔ ∀ l, limits[u]? = some l →
      s.succeeded u ≤ l.toNat ∨ ¬ Dealing.Hideable (2 ^ 64) l.toNat (s.accepted u) := by
  constructor
  · intro hdetects l hl
    by_contra hneither
    push Not at hneither
    obtain ⟨hover, amounts, hperm, hwithin⟩ := hneither
    obtain ⟨order, horder, hdealt⟩ := exists_order (calls_made h) hperm
    obtain ⟨t, ls', c, hrun, hcounter, htopic, rfl⟩ := exists_run_ordered limits h horder
    have hraised := (hdetects t ls' c hrun hcounter htopic).2 ⟨l, hl, hover⟩
    obtain ⟨-, l', hl', m, hm⟩ := (raised_iff (inv_run hrun)).1 hraised
    obtain rfl : l = l' := Option.some.inj (hl.symm.trans hl')
    rw [hdealt] at hm
    exact hm (hwithin m)
  · rintro hcondition t ls' c hrun rfl htopic
    have hi := inv_run hrun
    have hperm := dealt_perm (u := u) hi htopic (calls_made h)
    rw [raised_iff hi]
    constructor
    · rintro ⟨-, l, hl, m, hm⟩
      refine ⟨l, hl, ?_⟩
      by_contra hle
      have hsum := Dealing.sum_dealtTo_le m (dealt u c.checked)
      rw [hperm.sum_eq, CounterSide.sum_accepted] at hsum
      exact hm (Dealing.staysWithin_of_sum_le (by omega))
    · rintro ⟨l, hl, hover⟩
      refine ⟨mem_uuids_of_succeeded h (Nat.zero_lt_of_lt hover), l, hl, ?_⟩
      by_contra hnone
      push Not at hnone
      rcases hcondition l hl with hle | hhide
      · exact absurd hover (Nat.not_lt.2 hle)
      · exact hhide ⟨dealt u c.checked, hperm, hnone⟩

/-- The limit test is independent of the partitions if and only if the bytes published cannot be dealt
out to monitors that all stay within the limit although the total does not; as long as the total fits
in a word, that means that a single message is above the limit. -/
theorem detects_whatever_the_partitions_iff (uuids : List Bytes) (limits : Counters) (ls : List CounterStep)
    (s : CounterSide) (h : Runs.run (CounterSide.step uuids) (CounterSide.init uuids) ls = some s) (u : Bytes) :
    (DetectsLimit uuids limits s u ↔ ∀ l, limits[u]? = some l →
      s.succeeded u ≤ l.toNat ∨ ¬ Dealing.Hideable (2 ^ 64) l.toNat (s.accepted u)) ∧
    (s.succeeded u < 2 ^ 64 → (DetectsLimit uuids limits s u ↔ ∀ l, limits[u]? = some l →
      s.succeeded u ≤ l.toNat ∨ ∃ b ∈ s.accepted u, l.toNat < b)) := by
  refine ⟨detectsLimit_iff h, fun hlt => ?_⟩
  rw [detectsLimit_iff h]
  refine forall₂_congr fun l _ => or_congr_right ?_
  rw [Dealing.hideable_iff_of_sum_lt (by rw [CounterSide.sum_accepted]; exact hlt)]
  push Not
  rfl

/-- One message of twelve bytes is above a limit of ten wherever it goes. -/
theorem detects_whatever_the_partitions_iff_single :
    ∃ s, Runs.run (CounterSide.step [lit "a"]) (CounterSide.init [lit "a"])
        [.count (.make (lit "a") 12), .build, .swap, .visit 0 .errNoError] = some s ∧
      DetectsLimit [lit "a"] ((∅ : Counters).insert (lit "a") 10) s (lit "a") := by
  have hrun : (Runs.run (CounterSide.step [lit "a"]) (CounterSide.init [lit "a"])
      [.count (.make (lit "a") 12), .build, .swap, .visit 0 .errNoError]).map
        (fun s => (s.succeeded (lit "a"), s.accepted (lit "a"))) = some (12, [12]) := by decide
  obtain ⟨s, hs, hv⟩ := Option.map_eq_some_iff.1 hrun
  obtain ⟨hsucceeded, haccepted⟩ := Prod.mk.inj hv
  refine ⟨s, hs, ((detects_whatever_the_partitions_iff _ _ _ s hs (lit "a")).2 (by omega)).2 ?_⟩
  intro l hl
  obtain rfl : 10 = l := Option.some.inj (by simpa using hl)
  exact .inr ⟨12, by rw [haccepted]; exact List.mem_singleton.2 rfl, by decide⟩

/-- Two messages of six bytes, each one to a monitor of its own, against a limit of ten. -/
theorem detects_whatever_the_partitions_fails :
    ¬ ∀ (uuids : List Bytes) (limits : Counters) (ls : List CounterStep) (s : CounterSide) (u : Bytes),
      Runs.run (CounterSide.step uuids) (CounterSide.init uuids) ls = some s → DetectsLimit uuids limits s u := by
  intro hclaim
  have hrun : (Runs.run (CounterSide.step [lit "a"]) (CounterSide.init [lit "a"])
      [.count (.make (lit "a") 6), .build, .swap, .visit 0 .errNoError, .leave,
        .count (.make (lit "a") 6), .build, .swap, .visit 5 .errNoError]).map
        (fun s => (s.succeeded (lit "a"), s.accepted (lit "a"))) = some (12, [6, 6]) := by decide
  obtain ⟨s, hs, hv⟩ := Option.map_eq_some_iff.1 hrun
  obtain ⟨hsucceeded, haccepted⟩ := Prod.mk.inj hv
  have hdetects := hclaim [lit "a"] ((∅ : Counters).insert (lit "a") 10) _ s (lit "a") hs
  have hhide : Dealing.Hideable (2 ^ 64) (10 : UInt64).toNat (s.accepted (lit "a")) := by
    rw [haccepted]
    exact (Dealing.hideable_iff_of_sum_lt (by decide)).2 (by decide)
  rcases (detectsLimit_iff hs).1 hdetects 10 (by simp) with hle | hnot
  · rw [hsucceeded] at hle
    exact absurd hle (by decide)
  · exact hnot hhide

end Cluster
end EventsCounter
