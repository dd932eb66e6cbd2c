import EventsCounter.CounterAccounting
import EventsCounter.MonitorBudget
import EventsCounter.Startup

/-!
# From the configuration file to what comes out

A process in its loops publishes only what its document lists under `uuids`, and raises the alerts that
the document's limits ask for: of several limits for one uuid the first decides, and a negative one is a
limit close to `2 ^ 64` (`outputs_follow_document`).
-/

namespace EventsCounter

open JsonConfig MainLoop Outcome

/-- The uuids of the document, as C strings. -/
def listedUuids (d : Json) : List Bytes := stringVector (d.child (lit "uuids")).elems

/-- The limit that the document writes first for `u`. -/
def firstLimit (d : Json) (u : Bytes) : Option UInt64 :=
  (((d.child (lit "monitor_config")).child (lit "limits")).elems.find? fun v => stringField v "uuid" = u).map
    fun v => (intField v "limit").toUInt64

variable {compiler : Compiler} {parse : Parser} {w : Invocation} {config : Config} {env : Environment} {s : MainLoop}
  {d : Json} {u : Bytes} {charged : List UUIDBytes} {a : UUIDBytes} {n i : ℕ}

theorem getElem?_limits (d : Json) (u : Bytes) :
    (reported d).countersMonitorConfig.limits[u]? = firstLimit d u := by
  show (limitsField (d.child (lit "monitor_config")))[u]? = _
  rw [limitsField, getElem?_foldl_insertIfNew, Std.ExtTreeMap.getElem?_empty, Option.none_or]
  rfl

theorem exceeds_reported_iff : exceeds (reported d) u charged = true ↔
    u ∈ listedUuids d ∧ ∃ limit, firstLimit d u = some limit ∧ limit.toNat < spent u charged % 2 ^ 64 := by
  unfold exceeds
  rw [getElem?_limits]
  cases firstLimit d u with
  | none => simp
  | some limit =>
    rw [Bool.and_eq_true, decide_eq_true_iff, decide_eq_true_iff]
    simp [listedUuids, reported]

theorem mem_alertsUpTo : a ∈ alertsUpTo config env n ↔ ∃ i, 1 ≤ i ∧ i ≤ n ∧ accepted config env i = some a ∧
    exceeds config a.uuid (MainLoop.charged config env i) = true := by
  unfold alertsUpTo alertOf
  rw [List.mem_filterMap]
  refine exists_congr fun i => ?_
  rw [List.mem_range'_1, Option.filter_eq_some_iff]
  constructor
  · rintro ⟨⟨hone, hle⟩, haccepted, hexceeds⟩
    exact ⟨hone, by omega, haccepted, hexceeds⟩
  · rintro ⟨hone, hle, haccepted, hexceeds⟩
    exact ⟨⟨hone, by omega⟩, haccepted, hexceeds⟩

/-- The loops run with the configuration that the document reports. -/
theorem stateAt_of_process (h : process compiler parse w n = .ok s) :
    stateAt (reported (configDocument parse w)) w.env n = some s := by
  unfold process at h
  cases henter : enter compiler parse w with
  | ok entered =>
    obtain rfl := (performs_enter.met_of_eq_ok henter).2
    rw [henter] at h
    cases hs : stateAt (reported (configDocument parse w)) w.env n with
    | none => simp [hs] at h
    | some t =>
      simp only [hs, ok_bind] at h
      split at h
      · cases h
      · cases h
        rfl
  | throw e =>
    rw [henter] at h
    cases h
  | undefined =>
    rw [henter] at h
    cases h

/-- In every state of every process: what has been published is of uuids the document lists, and the
alerts are for exactly those messages of a listed uuid that took what was charged since the last reset,
modulo `2 ^ 64`, above the first limit the document writes for it. -/
theorem outputs_follow_document (compiler : Compiler) (parse : Parser) (w : Invocation) (n : ℕ) (s : MainLoop)
    (h : process compiler parse w n = .ok s) :
    (∀ c ∈ s.side.calls, c.counter.uuid ∈ listedUuids (configDocument parse w) ∧ 0 < c.counter.bytes) ∧
    ∀ a, a ∈ s.alerts ↔ ∃ i, 1 ≤ i ∧ i ≤ s.settledReadings ∧
      accepted (reported (configDocument parse w)) w.env i = some a ∧ a.uuid ∈ listedUuids (configDocument parse w) ∧
      ∃ limit, firstLimit (configDocument parse w) a.uuid = some limit ∧
        limit.toNat < spent a.uuid (MainLoop.charged (reported (configDocument parse w)) w.env i) % 2 ^ 64 := by
  have hs := stateAt_of_process h
  constructor
  · obtain ⟨ls, hls⟩ := counterSide_run hs
    exact (CounterSide.inv_run hls).calls
  · intro a
    rw [alerts_eq hs, mem_alertsUpTo]
    refine exists_congr fun i => ?_
    rw [exceeds_reported_iff]

def limitOf (uuid : Bytes) (limit : ℤ) : Json :=
  .object [(lit "uuid", .string uuid), (lit "limit", .number (.integer limit))]

def limitedDocument (limits : List Json) : Json :=
  .object [
    (lit "uuids", .array [.string (lit "a")]),
    (lit "counters_config", .object [
      (lit "rdkafka", .object []),
      (lit "update_interval", .number (.integer 60)),
      (lit "json_read_uuid_key", .string (lit "k")),
      (lit "read_topics", .array []),
      (lit "write_topic", .string (lit "w"))]),
    (lit "monitor_config", .object [
      (lit "rdkafka", .object []),
      (lit "timer_seconds", .object [
        (lit "period", .number (.integer 10)),
        (lit "offset", .number (.integer 0))]),
      (lit "read_topic", .string (lit "w")),
      (lit "write_topic", .string (lit "a")),
      (lit "limits", .array limits)])]

/-- The second limit of the uuid would not have been reached. -/
theorem outputs_follow_document_two_limits : ∃ parse w s, process ⟨.leftToRight, .leftToRight⟩ parse w 9 = .ok s ∧
    ∃ a ∈ s.alerts, a.uuid ∈ listedUuids (configDocument parse w) ∧
      firstLimit (configDocument parse w) a.uuid = some 10 := by
  let parse : Parser := fun _ => some (limitedDocument [limitOf (lit "a") 10, limitOf (lit "a") 100])
  let w := answering sixBytes
  have hmet : verdict (processDemands ⟨.leftToRight, .leftToRight⟩ parse w) = .met := rfl
  have halerts : (stateAt (reported (configDocument parse w)) sixBytes 9).map alerts =
      some [UUIDBytes.make (lit "a") 6 11] := by decide
  obtain ⟨s, hs, hok⟩ := process_of_met hmet 9
  obtain ⟨-, hfollows⟩ := outputs_follow_document ⟨.leftToRight, .leftToRight⟩ parse w 9 s hok
  have hmem : UUIDBytes.make (lit "a") 6 11 ∈ s.alerts := by
    rw [show stateAt (reported (configDocument parse w)) sixBytes 9 = some s from hs, Option.map_some,
      Option.some.injEq] at halerts
    rw [halerts]
    exact List.mem_singleton.2 rfl
  obtain ⟨i, -, -, -, hlisted, limit, hlimit, -⟩ := (hfollows _).1 hmem
  obtain rfl : limit = 10 := Option.some.inj (hlimit.symm.trans rfl)
  exact ⟨parse, w, s, hok, _, hmem, hlisted, hlimit⟩

end EventsCounter
