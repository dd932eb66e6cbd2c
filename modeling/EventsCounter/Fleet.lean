import EventsCounter.Cluster
import EventsCounter.MonitorWindow

/-!
# Any number of processes

Every process of a deployment publishes its own counts and monitors what it gets of everyone's, as
one member of a consumer group. A `Process` is a state that a run of `main` reaches; its configuration
and its clocks are its own. Of Kafka, `DeliveredOnce` says that nothing is fetched that was not
accepted, nor twice, and `DeliveredWithin` that all of it is fetched on time.

The first is enough for no process ever to alert about a uuid whose events, all processes together,
are within its limit (`no_false_alert`); with the second, some process alerts when the bytes published
exceed all the limits together (`some_alert`).
-/

namespace EventsCounter

structure Process where
  config : Config
  env : Environment
  steps : ℕ
  state : MainLoop
  reached : MainLoop.stateAt config env steps = some state

namespace Process

/-- What one process has fetched, as uuids and bytes. -/
def fetched (p : Process) : List (Bytes × UInt64) :=
  (MainLoop.fetchedWhere p.env (fun _ _ => true) p.state.readings).map fun d => (d.uuid, d.bytes)

/-- What it has fetched in the interval that begins at `T`, stamped from `T` on. -/
def fetchedWithin (T : ℤ) (p : Process) : List (Bytes × UInt64) :=
  (MainLoop.fetchedWhere p.env (MainLoop.timely p.config p.env T) p.state.settledReadings).map fun d => (d.uuid, d.bytes)

/-- What librdkafka has accepted from it. -/
def sent (p : Process) : List (Bytes × UInt64) := p.state.side.sent.map fun m => (m.uuid, m.value)

/-- The bytes of the events of `u` it has counted. -/
def countedBytes (u : Bytes) (p : Process) : ℕ := p.state.side.countedBytes u

def succeeded (u : Bytes) (p : Process) : ℕ := p.state.side.succeeded u

variable {p : Process} {u : Bytes}

theorem tally_sent : Tally.tally Prod.fst (fun e => e.2.toNat) u p.sent = p.succeeded u := by
  obtain ⟨ls, hls⟩ := MainLoop.counterSide_run p.reached
  rw [succeeded, ← CounterSide.sum_accepted, ← Cluster.values_sent (Cluster.calls_made hls), sent, Tally.tally_map,
    Tally.tally_eq_sum_filter]

/-- No process publishes more of `u` than it has counted, configured or not. -/
theorem succeeded_le_countedBytes : p.succeeded u ≤ p.countedBytes u := by
  obtain ⟨ls, hls⟩ := MainLoop.counterSide_run p.reached
  by_cases hu : u ∈ p.config.countersUuids
  · have hle := (CounterSide.inv_run hls).le u hu
    have hparts := p.state.side.succeeded_add_failed (u := u)
    unfold CounterSide.outstanding at hle
    unfold succeeded countedBytes
    omega
  · by_contra hmore
    exact hu (Cluster.mem_uuids_of_succeeded hls (Nat.zero_lt_of_lt (Nat.not_le.1 hmore)))

/-- What stands behind an alert. -/
theorem over_of_alert {a : UUIDBytes} (ha : a ∈ p.state.alerts) :
    MainLoop.Over p.config a.uuid (Tally.tally Prod.fst (fun e => e.2.toNat) a.uuid p.fetched) := by
  rw [MainLoop.alerts_eq p.reached] at ha
  obtain ⟨i, hi, halert⟩ := List.mem_filterMap.1 ha
  obtain ⟨-, hexceeds⟩ := MainLoop.mem_toList_alertOf.1 (Option.mem_toList.2 halert)
  have hle : i ≤ p.state.readings := by
    have hsettled := p.state.settledReadings_le
    have := List.mem_range'_1.1 hi
    omega
  have hcharged := (@MainLoop.charged_sublist_fetched p.config p.env i).trans
    (MainLoop.fetchedWhere_sublist (p := fun _ _ => true) hle)
  refine (MainLoop.exceeds_iff.1 hexceeds).mono ((Nat.mod_le _ _).trans ?_)
  rw [fetched, Tally.tally_map]
  exact Tally.tally_sublist_le hcharged

end Process

/-- The clock of the process is in the interval that begins at the tick `T`. -/
structure Process.InWindow (T : ℤ) (p : Process) : Prop where
  inStep : MainLoop.InStep p.config p.env
  interval : MainLoop.InInterval p.config p.env p.state T

abbrev Fleet := List Process

namespace Fleet

def DeliveredOnce (fleet : Fleet) : Prop := (fleet.flatMap Process.fetched).Subperm (fleet.flatMap Process.sent)

def DeliveredWithin (T : ℤ) (fleet : Fleet) : Prop :=
  (fleet.flatMap Process.sent).Subperm (fleet.flatMap (Process.fetchedWithin T))

variable {fleet : Fleet} {p : Process} {u : Bytes} {T : ℤ}

theorem tally_flatMap (f : Process → List (Bytes × UInt64)) :
    Tally.tally Prod.fst (fun e => e.2.toNat) u (fleet.flatMap f) =
      (fleet.map fun p => Tally.tally Prod.fst (fun e => e.2.toNat) u (f p)).sum := by
  induction fleet with
  | nil => rfl
  | cons p fleet ih => rw [List.flatMap_cons, Tally.tally_append, ih, List.map_cons, List.sum_cons]

theorem tally_sent : Tally.tally Prod.fst (fun e => e.2.toNat) u (fleet.flatMap Process.sent) =
    (fleet.map (Process.succeeded u)).sum := by
  rw [tally_flatMap]
  simp only [Process.tally_sent]

/-- Whatever every process does and however their steps interleave: an alert for a uuid, of any process
and at any time, stands for events of that uuid, counted by all the processes, above its limit. -/
theorem no_false_alert (fleet : Fleet) (hd : fleet.DeliveredOnce) (p : Process) (hp : p ∈ fleet) (a : UUIDBytes)
    (ha : a ∈ p.state.alerts) :
    MainLoop.Over p.config a.uuid (fleet.map (Process.countedBytes a.uuid)).sum := by
  refine (Process.over_of_alert ha).mono ?_
  have hown : p.fetched.Sublist (fleet.flatMap Process.fetched) := List.sublist_flatten_of_mem (List.mem_map_of_mem hp)
  calc Tally.tally Prod.fst (fun e => e.2.toNat) a.uuid p.fetched
      ≤ Tally.tally Prod.fst (fun e => e.2.toNat) a.uuid (fleet.flatMap Process.fetched) := Tally.tally_sublist_le hown
    _ ≤ Tally.tally Prod.fst (fun e => e.2.toNat) a.uuid (fleet.flatMap Process.sent) := Tally.tally_subperm_le hd
    _ = (fleet.map (Process.succeeded a.uuid)).sum := tally_sent
    _ ≤ (fleet.map (Process.countedBytes a.uuid)).sum :=
      List.sum_le_sum fun q _ => Process.succeeded_le_countedBytes

/-- What is eligible for the budget of one process does not exceed what all of them have published. -/
theorem spent_eligible_le (hd : fleet.DeliveredOnce) (hp : p ∈ fleet) :
    MainLoop.spent u (MainLoop.fetchedWhere p.env (MainLoop.eligible p.config p.env T) p.state.settledReadings) ≤
      (fleet.map (Process.succeeded u)).sum := by
  have hall := (@MainLoop.fetchedWhere_mono p.env _ _ (fun j d (_ : MainLoop.eligible p.config p.env T j d = true) =>
    (rfl : (fun _ _ => true) j d = true)) p.state.settledReadings).trans
      (MainLoop.fetchedWhere_sublist p.state.settledReadings_le)
  have hown : p.fetched.Sublist (fleet.flatMap Process.fetched) := List.sublist_flatten_of_mem (List.mem_map_of_mem hp)
  calc MainLoop.spent u (MainLoop.fetchedWhere p.env (MainLoop.eligible p.config p.env T) p.state.settledReadings)
      ≤ MainLoop.spent u (MainLoop.fetchedWhere p.env (fun _ _ => true) p.state.readings) := Tally.tally_sublist_le hall
    _ = Tally.tally Prod.fst (fun e => e.2.toNat) u p.fetched := by rw [Process.fetched, Tally.tally_map]; rfl
    _ ≤ Tally.tally Prod.fst (fun e => e.2.toNat) u (fleet.flatMap Process.fetched) := Tally.tally_sublist_le hown
    _ ≤ (fleet.map (Process.succeeded u)).sum := tally_sent ▸ Tally.tally_subperm_le hd

/-- When everything published arrives within the interval, some process has an alert for every uuid that
all of them list and limit, if more was published of it than all the limits together allow, and no more
than fits in a word. -/
theorem some_alert (fleet : Fleet) (T : ℤ) (hd : fleet.DeliveredOnce) (hw : fleet.DeliveredWithin T)
    (hwindow : ∀ p ∈ fleet, p.InWindow T) (u : Bytes)
    (hu : ∀ p ∈ fleet, u ∈ p.config.countersUuids ∧ u ∈ p.config.countersMonitorConfig.limits)
    (hlt : (fleet.map (Process.succeeded u)).sum < 2 ^ 64)
    (hover : (fleet.map fun p => amount p.config.countersMonitorConfig.limits u).sum <
      (fleet.map (Process.succeeded u)).sum) :
    ∃ p ∈ fleet, ∃ a ∈ p.state.alerts, a.uuid = u := by
  by_contra hnone
  push Not at hnone
  -- then every process has fetched no more than its own limit
  have heach : ∀ p ∈ fleet, Tally.tally Prod.fst (fun e => e.2.toNat) u (p.fetchedWithin T) ≤
      amount p.config.countersMonitorConfig.limits u := by
    intro p hp
    obtain ⟨hc, hT⟩ := hwindow p hp
    obtain ⟨hmem, hlimit⟩ := hu p hp
    by_contra hmore
    rw [Std.ExtTreeMap.mem_iff_isSome_getElem?, Option.isSome_iff_exists] at hlimit
    obtain ⟨l, hl⟩ := hlimit
    rw [Process.fetchedWithin, Tally.tally_map, amount, hl, Nat.not_le] at hmore
    obtain ⟨a, ha, hau⟩ := hc.openAlert_of_timely hT (Nat.lt_of_le_of_lt (spent_eligible_le hd hp) hlt)
      ⟨hmem, l, hl, hmore⟩
    refine hnone p hp a ?_ hau
    rw [MainLoop.alerts_eq p.reached]
    exact (MainLoop.openAlerts_suffix _).subset ha
  have hle : (fleet.map (Process.succeeded u)).sum ≤
      (fleet.map fun p => amount p.config.countersMonitorConfig.limits u).sum :=
    calc (fleet.map (Process.succeeded u)).sum
        = Tally.tally Prod.fst (fun e => e.2.toNat) u (fleet.flatMap Process.sent) := tally_sent.symm
      _ ≤ Tally.tally Prod.fst (fun e => e.2.toNat) u (fleet.flatMap (Process.fetchedWithin T)) := Tally.tally_subperm_le hw
      _ = (fleet.map fun p => Tally.tally Prod.fst (fun e => e.2.toNat) u (p.fetchedWithin T)).sum := tally_flatMap _
      _ ≤ (fleet.map fun p => amount p.config.countersMonitorConfig.limits u).sum := List.sum_le_sum heach
  exact absurd hover (Nat.not_lt.2 hle)

/-! ### Two processes -/

/-- A round and a reset every ten seconds, against a limit of ten bytes. -/
def everyTen : Config :=
  ⟨[lit "a"], ⟨⟨[], [], [], []⟩, [], [], [], 10⟩, ⟨⟨[], [], [], []⟩, [], [], 10, 0, (∅ : Counters).insert (lit "a") 10⟩⟩

/-- The loop starts at the second 11 and reads 25 ever after; `consumed` arrives before the first step,
`message` at the second reading. -/
def at25 (consumed : List UUIDBytes) (message : Option UUIDBytes) : Environment :=
  ⟨fun i => if i = 0 then 11 else 25, fun i => ⟨if i = 2 then message else none, 25 * 1000000000, 0, 0⟩,
    fun _ => 25, fun _ => .errNoError, fun n => if n = 0 then consumed else []⟩

theorem at25_inWindow {p : Process} (hconfig : p.config = everyTen) {consumed : List UUIDBytes}
    {message : Option UUIDBytes} (henv : p.env = at25 consumed message) (hreadings : p.state.settledReadings ≠ 0) :
    p.InWindow 20 := by
  have h := @MainLoop.standing_inStep 25 (.make [] 0) 25 (by decide) (by decide)
  have htime : p.env.time p.state.settledReadings = 25 := by
    rw [henv]
    exact if_neg hreadings
  refine ⟨?_, ?_, ?_, ?_⟩
  · rw [hconfig, henv]
    exact ⟨h.period, h.offset, h.offset_lt, h.mono, h.first, h.clock⟩
  · rw [hconfig]
    rfl
  · rw [htime]
    decide
  · rw [htime, hconfig]
    decide

/-- One process publishes 25 bytes, the other one fetches them. -/
theorem exists_fleet : ∃ p p' : Process, Fleet.DeliveredOnce [p, p'] ∧ Fleet.DeliveredWithin 20 [p, p'] ∧
    (∀ q ∈ [p, p'], q.config = everyTen ∧ q.InWindow 20) ∧ (List.map (Process.succeeded (lit "a")) [p, p']).sum = 25 ∧
    p'.state.alerts = [.make (lit "a") 25 25] := by
  have hpublisher : (MainLoop.stateAt everyTen (at25 [.make (lit "a") 25] none) 14).map
      (fun s => (s.readings, s.settledReadings, s.side.sent.map fun m => (m.uuid, m.value))) =
        some (2, 2, [(lit "a", 25)]) := by decide
  have hmonitor : (MainLoop.stateAt everyTen (at25 [] (some (.make (lit "a") 25 25))) 14).map
      (fun s => (s.readings, s.settledReadings, s.alerts)) = some (2, 2, [.make (lit "a") 25 25]) := by decide
  have hsilent : (MainLoop.stateAt everyTen (at25 [] (some (.make (lit "a") 25 25))) 14).map
      (fun s => s.side.sent) = some [] := by decide
  obtain ⟨s, hs, hv⟩ := Option.map_eq_some_iff.1 hpublisher
  obtain ⟨s', hs', hv'⟩ := Option.map_eq_some_iff.1 hmonitor
  rw [hs', Option.map_some, Option.some.injEq] at hsilent
  simp only [Prod.mk.injEq] at hv hv'
  obtain ⟨hreadings, hsettled, hsent⟩ := hv
  obtain ⟨hreadings', hsettled', halerts⟩ := hv'
  set p : Process := ⟨everyTen, at25 [.make (lit "a") 25] none, 14, s, hs⟩ with hp
  set p' : Process := ⟨everyTen, at25 [] (some (.make (lit "a") 25 25)), 14, s', hs'⟩ with hp'
  have hfetched : p.fetched = [] := by
    show (MainLoop.fetchedWhere _ _ s.readings).map _ = _
    rw [hreadings]
    rfl
  have hfetched' : p'.fetched = [(lit "a", 25)] := by
    show (MainLoop.fetchedWhere _ _ s'.readings).map _ = _
    rw [hreadings']
    rfl
  have hwithin' : p'.fetchedWithin 20 = [(lit "a", 25)] := by
    show (MainLoop.fetchedWhere (at25 [] (some (.make (lit "a") 25 25)))
      (MainLoop.timely everyTen (at25 [] (some (.make (lit "a") 25 25))) 20) s'.settledReadings).map _ = _
    rw [hsettled']
    decide
  have hsent : p.sent = [(lit "a", 25)] := hsent
  have hsent' : p'.sent = [] := by
    show s'.side.sent.map _ = []
    rw [hsilent]
    rfl
  have hwindow : ∀ q : Process, q = p ∨ q = p' → q.config = everyTen ∧ q.InWindow 20 := by
    rintro q (rfl | rfl)
    · exact ⟨rfl, at25_inWindow rfl rfl (by rw [show p.state = s from rfl, hsettled]; decide)⟩
    · exact ⟨rfl, at25_inWindow rfl rfl (by rw [show p'.state = s' from rfl, hsettled']; decide)⟩
  refine ⟨p, p', ?_, ?_, fun q hq => hwindow q (by simpa using hq), ?_, halerts⟩
  · simp [DeliveredOnce, hfetched, hfetched', hsent, hsent']
  · refine List.Sublist.subperm ?_
    simp [hwithin', hsent, hsent']
  · rw [← tally_sent]
    simp [hsent, hsent']

/-- The alert of one process is about bytes that the other one has counted. -/
theorem no_false_alert_two : ∃ p p' : Process, p'.state.alerts = [.make (lit "a") 25 25] ∧
    MainLoop.Over p'.config (lit "a") (List.map (Process.countedBytes (lit "a")) [p, p']).sum := by
  obtain ⟨p, p', honce, -, -, -, halerts⟩ := exists_fleet
  exact ⟨p, p', halerts, no_false_alert [p, p'] honce p' (by simp) (.make (lit "a") 25 25) (by simp [halerts])⟩

/-- The limits of both together allow twenty bytes. -/
theorem some_alert_two : ∃ p p' : Process, (List.map (Process.succeeded (lit "a")) [p, p']).sum = 25 ∧
    ∃ q ∈ [p, p'], ∃ a ∈ q.state.alerts, a.uuid = lit "a" := by
  obtain ⟨p, p', honce, hwithin, hwindow, hsum, -⟩ := exists_fleet
  have hlimits : ∀ q ∈ [p, p'], amount q.config.countersMonitorConfig.limits (lit "a") = 10 := fun q hq => by
    rw [(hwindow q hq).1]
    decide
  refine ⟨p, p', hsum, some_alert [p, p'] 20 honce hwithin (fun q hq => (hwindow q hq).2) (lit "a") ?_ ?_ ?_⟩
  · intro q hq
    rw [(hwindow q hq).1]
    decide
  · exact hsum ▸ by decide
  · rw [List.map_congr_left hlimits, hsum]
    show 10 + (10 + 0) < 25
    decide

end Fleet
end EventsCounter
