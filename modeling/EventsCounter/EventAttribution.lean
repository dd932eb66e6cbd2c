import EventsCounter.CounterAccounting
import EventsCounter.JsonText

/-!
# Which counter an event goes to

`KafkaJSONUUIDConsumer` reads the uuid of an event out of the parsed payload, as a C string: what
comes after an escaped NUL is dropped, so that two different uuids can become one.
`attributes_exactly_iff` says that this is the only way an event is counted where it does not belong.
-/

namespace EventsCounter
namespace KafkaJSONUUIDConsumer

def getMessageUuidBytes (tJsonUuidKey : Bytes) (document : Option Json) (len : UInt64) (junk : Junk) :
    Outcome Empty UUIDBytes :=
  match document with
  | none => .ok (UUIDBytes.none junk.bytes junk.timestamp)
  | some json =>
    if json.getType ≠ .kObjectType then .ok (UUIDBytes.none junk.bytes junk.timestamp)
    else if !json.hasMember (cStr tJsonUuidKey) || !(json.child (cStr tJsonUuidKey)).isString then
      .ok (UUIDBytes.none junk.bytes junk.timestamp)
    else do
      let uuidStr ← (json.child (cStr tJsonUuidKey)).getString
      .ok (.make uuidStr len)

/-- `consume` of an error-free message. -/
def consume (parse : Parser) (jsonUuidKey payload : Bytes) (junk : Junk) : Outcome Empty UUIDBytes :=
  getMessageUuidBytes jsonUuidKey (parse payload) (UInt64.ofNat payload.length) junk

/-- The payload is an object whose first member of this name is the string `uuid`. -/
def Carries (parse : Parser) (jsonUuidKey payload uuid : Bytes) : Prop :=
  ∃ json, parse payload = some json ∧ json.child? jsonUuidKey = some (.string uuid)

/-- The step of the worker that consumes the payload adds its length to the counter of the uuid it
carries, and to no other one. -/
def AttributesExactly (parse : Parser) (uuids : List Bytes) (jsonUuidKey payload : Bytes) (s : CounterSide) : Prop :=
  ∀ junk, ∃ data s', consume parse jsonUuidKey payload junk = .ok data ∧
    CounterSide.step uuids s (.count data) = some s' ∧ ∀ u,
      (Carries parse jsonUuidKey payload u →
        s'.db.counters[u]? = s.db.counters[u]?.map (· + UInt64.ofNat payload.length)) ∧
      (¬ Carries parse jsonUuidKey payload u → s'.db.counters[u]? = s.db.counters[u]?)

variable {parse : Parser} {uuids : List Bytes} {jsonUuidKey payload u content : Bytes} {junk : Junk} {s : CounterSide}

theorem Carries.unique (h : Carries parse jsonUuidKey payload u) (h' : Carries parse jsonUuidKey payload content) :
    u = content := by
  obtain ⟨json, hjson, hu⟩ := h
  obtain ⟨json', hjson', hcontent⟩ := h'
  cases Option.some.inj (hjson.symm.trans hjson')
  cases hu.symm.trans hcontent
  rfl

theorem carries_of_stringValue (h : ((parse payload).bind fun json => json.child? jsonUuidKey).map
      (fun v => (v.isString, v.stringValue)) = some (true, u)) : Carries parse jsonUuidKey payload u := by
  obtain ⟨v, hv, heq⟩ := Option.map_eq_some_iff.1 h
  obtain ⟨json, hjson, hchild⟩ := Option.bind_eq_some_iff.1 hv
  obtain ⟨hstring, hvalue⟩ := Prod.mk.inj heq
  obtain ⟨content, rfl⟩ := Json.isString_iff.1 hstring
  exact ⟨json, hjson, hchild.trans (congrArg (some <| Json.string ·) hvalue)⟩

theorem consume_of_carries (hkey : 0 ∉ jsonUuidKey) (h : Carries parse jsonUuidKey payload content) :
    consume parse jsonUuidKey payload junk = .ok (.make (cStr content) (UInt64.ofNat payload.length)) := by
  obtain ⟨json, hjson, hcontent⟩ := h
  have hstring := Json.hasString_iff.2 ⟨content, hcontent⟩
  have hchild : (json.child jsonUuidKey).getString = (.ok (cStr content) : Outcome Empty Bytes) := by
    rw [Json.child_eq_of_some hcontent]
    rfl
  rw [consume, hjson]
  simp only [getMessageUuidBytes, cStr_eq_self_iff.2 hkey, Json.isObject_of_child? hcontent, hstring, ne_eq,
    not_true_eq_false, if_false, Bool.false_eq_true]
  rw [hchild, Outcome.ok_bind]

theorem consume_of_carries_none (hkey : 0 ∉ jsonUuidKey) (h : ∀ content, ¬ Carries parse jsonUuidKey payload content) :
    consume parse jsonUuidKey payload junk = .ok (UUIDBytes.none junk.bytes junk.timestamp) := by
  unfold consume getMessageUuidBytes
  cases hjson : parse payload with
  | none => rfl
  | some json =>
    dsimp only
    rw [cStr_eq_self_iff.2 hkey]
    split_ifs with hobject hstring
    · rfl
    · rfl
    · rw [Bool.not_eq_true] at hstring
      obtain ⟨content, hcontent⟩ := Json.hasString_iff.1 hstring
      exact absurd ⟨json, hjson, hcontent⟩ (h content)

theorem run_getElem? (uuid : Bytes) (len : UInt64) :
    (s.run (.make uuid len)).db.counters[u]? =
      if uuid = u then s.db.counters[u]?.map (· + len) else s.db.counters[u]? :=
  UUIDCountersDB.uuidIncrement_getElem?

theorem attributesExactly_of_carries (hkey : 0 ∉ jsonUuidKey) (h : Carries parse jsonUuidKey payload content) :
    AttributesExactly parse uuids jsonUuidKey payload s ↔ ∀ u,
      (if cStr content = u then s.db.counters[u]?.map (· + UInt64.ofNat payload.length) else s.db.counters[u]?) =
        if u = content then s.db.counters[u]?.map (· + UInt64.ofNat payload.length) else s.db.counters[u]? := by
  have hcarries (u : Bytes) : Carries parse jsonUuidKey payload u ↔ u = content :=
    ⟨fun h' => h'.unique h, fun heq => heq ▸ h⟩
  constructor
  · intro hall u
    obtain ⟨data, s', hdata, hs', hcounters⟩ := hall ⟨0, 0⟩
    rw [consume_of_carries hkey h] at hdata
    cases hdata
    cases hs'
    obtain ⟨hin, hout⟩ := hcounters u
    rw [hcarries, run_getElem?] at hin hout
    by_cases hu : u = content
    · rw [if_pos hu]
      exact hin hu
    · rw [if_neg hu]
      exact hout hu
  · intro hall junk
    refine ⟨_, _, consume_of_carries hkey h, rfl, fun u => ?_⟩
    rw [hcarries, run_getElem?, hall u]
    constructor
    · intro hu
      rw [if_pos hu]
    · intro hu
      rw [if_neg hu]

theorem attributesExactly_of_carries_none (hkey : 0 ∉ jsonUuidKey)
    (h : ∀ content, ¬ Carries parse jsonUuidKey payload content) :
    AttributesExactly parse uuids jsonUuidKey payload s := by
  intro junk
  refine ⟨_, s, consume_of_carries_none hkey h, rfl, fun u => ⟨fun hu => absurd hu (h u), fun _ => rfl⟩⟩

/-- In every state the counter side can be in, for NUL-free keys and uuids: the event goes to the counter
of the uuid it carries and to no other one, if and only if it does not carry a string with a NUL in it
that has a configured uuid before the NUL (or its length is a multiple of `2 ^ 64`). -/
theorem attributes_exactly_iff (parse : Parser) (uuids : List Bytes) (jsonUuidKey : Bytes)
    (huuids : ∀ u ∈ uuids, 0 ∉ u) (hkey : 0 ∉ jsonUuidKey) (ls : List CounterStep) (s : CounterSide)
    (h : Runs.run (CounterSide.step uuids) (CounterSide.init uuids) ls = some s) (payload : Bytes) :
    AttributesExactly parse uuids jsonUuidKey payload s ↔
      ∀ content, Carries parse jsonUuidKey payload content → 0 ∈ content → cStr content ∈ uuids →
        UInt64.ofNat payload.length = 0 := by
  have hkeys := (CounterSide.inv_run h).keys
  by_cases hnone : ∀ content, ¬ Carries parse jsonUuidKey payload content
  · exact ⟨fun _ content hcontent => absurd hcontent (hnone content),
      fun _ => attributesExactly_of_carries_none hkey hnone⟩
  push Not at hnone
  obtain ⟨content, hcontent⟩ := hnone
  rw [attributesExactly_of_carries hkey hcontent]
  constructor
  · intro hall content' hcontent' hnul hmem
    obtain rfl := hcontent.unique hcontent'
    have hne : cStr content ≠ content := fun heq => cStr_eq_self_iff.1 heq hnul
    have hsame := hall (cStr content)
    rw [if_pos rfl, if_neg hne] at hsame
    obtain ⟨v, hv⟩ := Option.isSome_iff_exists.1
      (Std.ExtTreeMap.mem_iff_isSome_getElem?.1 ((hkeys (cStr content)).2 hmem))
    rw [hv, Option.map_some, Option.some.injEq] at hsame
    simpa using hsame
  · intro hcondition u
    have hout : ∀ k, k ∉ uuids → s.db.counters[k]? = none := fun k hk => by
      rwa [← Option.not_isSome_iff_eq_none, ← Std.ExtTreeMap.mem_iff_isSome_getElem?, hkeys]
    by_cases hnul : 0 ∈ content
    · -- the string cut at its NUL is another one than the event carries
      have hcontentOut : content ∉ uuids := fun hmem => huuids content hmem hnul
      by_cases hcut : cStr content = u
      · have hne : u ≠ content := fun heq => cStr_eq_self_iff.1 (hcut.trans heq) hnul
        rw [if_pos hcut, if_neg hne]
        by_cases hmem : u ∈ uuids
        · rw [hcondition content hcontent hnul (hcut ▸ hmem)]
          simp
        · rw [hout u hmem]
          rfl
      · rw [if_neg hcut]
        by_cases hu : u = content
        · rw [if_pos hu, hu, hout content hcontentOut]
          rfl
        · rw [if_neg hu]
    · rw [cStr_eq_self_iff.2 hnul]
      simp only [eq_comm]

theorem attributes_exactly_iff_plain :
    AttributesExactly (JsonText.document fun _ => none) [lit "a"] (lit "uuid") (lit "\x7b\"uuid\":\"a\"\x7d")
      (CounterSide.init [lit "a"]) := by
  have hcarries : Carries (JsonText.document fun _ => none) (lit "uuid") (lit "\x7b\"uuid\":\"a\"\x7d") (lit "a") :=
    carries_of_stringValue (by decide +kernel)
  refine (attributes_exactly_iff _ [lit "a"] (lit "uuid") (by decide) (by decide) [] _ rfl _).2 ?_
  intro content hcontent hnul
  rw [← hcarries.unique hcontent] at hnul
  exact absurd hnul (by decide)

/-- An event of the uuid `a`, NUL, `b` is counted for `a`. -/
theorem attributes_exactly_fails :
    ¬ AttributesExactly (JsonText.document fun _ => none) [lit "a"] (lit "uuid")
      (lit "\x7b\"uuid\":\"a\\u0000b\"\x7d") (CounterSide.init [lit "a"]) := by
  have hcarries : Carries (JsonText.document fun _ => none) (lit "uuid") (lit "\x7b\"uuid\":\"a\\u0000b\"\x7d")
      [97, 0, 98] := carries_of_stringValue (by decide +kernel)
  intro h
  have hcounted := (attributesExactly_of_carries (by decide) hcarries).1 h (lit "a")
  exact absurd hcounted (by decide)

end KafkaJSONUUIDConsumer
end EventsCounter
